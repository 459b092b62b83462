import Amatl.EmbeddingSpaces
import Amatl.InferenceCalls
import Amatl.Lib.Traverse
import Amatl.RankingV2Order

/-! What comes back from the remote backend: every score is of the document it stands for. -/

namespace Amatl

open Batches

section

variable {Url : Type} [SingleFloats]

/-- The vector at a place of the inputs: what came back for the batch of the place, sent behind the
batches before, stands in the answer where the input stands in its batch. -/
def RemoteEmbeddingBackend.AnsweredAt (backend : RemoteEmbeddingBackend Url)
    (internet : Internet Url) (sent : List (HttpRequest Url)) (inputs : List String) (i : Nat)
    (vector : List F64) : Prop :=
  let batches := chunks backend.maxBatch inputs
  ∃ (k : Nat) (batch : List String) (response : HttpResponse JsonValue)
    (piece : List (List F64)) (j : Nat),
    batches[k]? = some batch ∧ i = (batches.take k).flatten.length + j ∧ batch[j]? = inputs[i]? ∧
    internet (sent ++ (batches.take k).map backend.batchRequest) (backend.batchRequest batch) =
      some response ∧ response.status = 200 ∧
    parseEmbeddingResponse response.body batch.length backend.dimensions = .ok piece ∧
    piece[j]? = some vector ∧ vector.length = backend.dimensions

namespace RemoteEmbeddingBackend

theorem parseVector_length {dimensions : Nat} {entry : JsonValue} {vector : List F64}
    (h : parseVector dimensions entry = .ok vector) : vector.length = dimensions := by
  unfold parseVector at h
  split at h
  · cases h
  · split at h
    · cases h
    · rename_i values _ fits
      split at h
      · cases h
      · rename_i parsed all
        cases h
        have kept : parsed.length = values.length := by
          exact (Traverse.mapM_eq_some.mp all).length_eq.symm
        unfold l2Normalized
        simp only
        split
        · rw [kept, not_not.mp fits]
        · rw [List.length_map, kept, not_not.mp fits]

theorem parseVectors_ok {dimensions : Nat} {entries : List JsonValue} {vectors : List (List F64)}
    (h : parseVectors dimensions entries = .ok vectors) :
    vectors.length = entries.length ∧ ∀ vector ∈ vectors, vector.length = dimensions := by
  induction entries generalizing vectors with
  | nil =>
    cases h
    exact ⟨rfl, nofun⟩
  | cons entry entries ih =>
    rw [parseVectors] at h
    split at h
    · rename_i vector more first rest
      cases h
      obtain ⟨length, widths⟩ := ih rest
      refine ⟨by rw [List.length_cons, List.length_cons, length], ?_⟩
      intro other mem
      rcases List.mem_cons.mp mem with rfl | later
      · exact parseVector_length first
      · exact widths other later
    · cases h

theorem parseEmbeddingResponse_ok {body : DecodedBody JsonValue} {expected dimensions : Nat}
    {vectors : List (List F64)} (h : parseEmbeddingResponse body expected dimensions = .ok vectors) :
    vectors.length = expected ∧ ∀ vector ∈ vectors, vector.length = dimensions := by
  unfold parseEmbeddingResponse at h
  split at h
  · split at h
    · cases h
    · split at h
      · cases h
      · rename_i fits
        obtain ⟨length, widths⟩ := parseVectors_ok h
        exact ⟨length.trans (not_not.mp fits), widths⟩
  · cases h

theorem embedBatch_ok {backend : RemoteEmbeddingBackend Url} {internet : Internet Url}
    {sent : List (HttpRequest Url)} {batch : List String} {piece : List (List F64)}
    (h : (backend.embedBatch internet sent batch).1 = .ok piece) :
    (backend.embedBatch internet sent batch).2 = sent ++ [backend.batchRequest batch] ∧
      ∃ response, internet sent (backend.batchRequest batch) = some response ∧
        response.status = 200 ∧
        parseEmbeddingResponse response.body batch.length backend.dimensions = .ok piece := by
  unfold embedBatch at h ⊢
  cases transport : backend.transport with
  | denied =>
    rw [transport] at h
    cases h
  | reqwest =>
    rw [transport] at h
    simp only [HttpTransport.execute] at h ⊢
    cases received : internet sent (backend.batchRequest batch) with
    | none =>
      rw [received] at h
      cases h
    | some response =>
      rw [received] at h
      simp only at h ⊢
      split at h
      · cases h
      · rename_i success
        exact ⟨trivial, response, rfl, not_not.mp success, h⟩

theorem embed_answered {backend : RemoteEmbeddingBackend Url} {internet : Internet Url}
    {sent : List (HttpRequest Url)} {inputs : List String} {vectors : List (List F64)}
    (h : (backend.embed internet sent inputs).1 = .ok vectors) {i : Nat} {text : String}
    {vector : List F64} (item : inputs[i]? = some text) (found : vectors[i]? = some vector) :
    backend.AnsweredAt internet sent inputs i vector := by
  unfold embed at h
  split at h
  · cases h
    simp at found
  · split at h
    · cases h
    · rename_i after outcome
      split at h
      · cases h
      · cases h
        have sentAll : (sendAll (backend.embedBatch internet) sent
            (chunks backend.maxBatch inputs)).1 = .ok vectors := by rw [outcome]
        obtain ⟨pieces, rfl, length, each⟩ :=
          sendAll_at (fun _ _ _ came => (embedBatch_ok came).1) sentAll
        have fits : ∀ (k : Nat) (batch : List String) (piece : List (List F64)),
            (chunks backend.maxBatch inputs)[k]? = some batch → pieces[k]? = some piece →
              piece.length = batch.length := by
          intro k batch piece there stands
          obtain ⟨other, same, came⟩ := each k batch there
          obtain rfl := Option.some.inj (stands.symm.trans same)
          obtain ⟨-, _, -, -, parsed⟩ := embedBatch_ok came
          exact (parseEmbeddingResponse_ok parsed).1
        have here : (chunks backend.maxBatch inputs).flatten[i]? = some text := by
          rw [flatten_chunks, item]
        obtain ⟨k, batch, j, there, place, own, same⟩ := flatten_at length fits here
        obtain ⟨piece, stands, came⟩ := each k batch there
        obtain ⟨-, response, received, success, parsed⟩ := embedBatch_ok came
        have inPiece := (same piece stands).trans found
        exact ⟨k, batch, response, piece, j, there, place, own.trans item.symm, received, success,
          parsed, inPiece, (parseEmbeddingResponse_ok parsed).2 vector
            (List.mem_of_getElem? inPiece)⟩

end RemoteEmbeddingBackend

variable [UnicodeTables] [EmbeddingArithmetic] [Sha256]

/-- Scores of a remote backend come one for each document, each from the vector that came back in
this call for its text and the one that came back for the query. -/
theorem InferenceRuntime.scores_aligned {runtime : InferenceRuntime Url}
    {backend : RemoteEmbeddingBackend Url} (remote : runtime.backend = .remote backend)
    {internet : Internet Url} {sent : List (HttpRequest Url)} {query : Query}
    {documents : List (Document Url)} {scores : List F64}
    (h : (runtime.score internet sent query documents).1 = .ok scores) :
    scores.length = documents.length ∧ ∃ queryVector,
      backend.AnsweredAt internet sent (embeddingInputs query documents) 0 queryVector ∧
      ∀ (i : Nat) (score : F64), scores[i]? = some score →
        ∃ vector,
          backend.AnsweredAt internet sent (embeddingInputs query documents) (i + 1) vector ∧
          score = RankingV2.unitClamp (dot queryVector vector) := by
  unfold InferenceRuntime.score at h
  split at h
  · cases h
  · split at h
    · cases h
    · rename_i vectors after sent' outcome
      have embedded : (backend.embed internet sent (embeddingInputs query documents)).1 =
          .ok vectors := by
        rw [remote] at outcome
        exact congrArg Prod.fst outcome
      have length := similarities_length h
      refine ⟨length, ?_⟩
      unfold similarities at h
      split at h
      · cases h
      · rename_i queryVector documentVectors
        split at h
        · cases h
        · cases h
          refine ⟨queryVector, RemoteEmbeddingBackend.embed_answered embedded rfl rfl, ?_⟩
          intro i score scored
          have short : i < documents.length := by
            rw [← length]
            exact (List.getElem?_eq_some_iff.mp scored).1
          rw [List.getElem?_map] at scored
          obtain ⟨vector, found, rfl⟩ := Option.map_eq_some_iff.mp scored
          have item : (embeddingInputs query documents)[i + 1]? =
              some (documentText documents[i]) := by
            simp [embeddingInputs, short]
          exact ⟨vector, RemoteEmbeddingBackend.embed_answered embedded item found, rfl⟩

end

/-- Batches of two texts. The query and the first document make the first one, and of the second
one the last text alone is as the query. -/
def twoByTwo : Internet PlainUrl := fun sent _ =>
  let axis := fun k : Nat => JsonValue.object
    [("embedding", .array ((List.range 32).map (fun i => .number (if i = k then .finite 1
      else .finite 0))))]
  some
    { status := 200
      headers := []
      body := .decoded (.object [("data", .array (if sent = [] then [axis 0, axis 0]
        else [axis 1, axis 0]))]) }

def pairedTexts : RemoteEmbeddingBackend PlainUrl where
  endpoint := ⟨"embeddings.example", "/"⟩
  model := "m"
  credential := none
  dimensions := 32
  maxBatch := 2
  maxInputChars := 10
  timeoutMs := 1000
  transport := .reqwest

@[reducible] def wholeFloats : SingleFloats where
  single value := value
  squareRoot value := value

theorem InferenceRuntime.scores_aligned_twoByTwo :
    letI := wholeFloats
    letI := asciiTables
    letI := unitArithmetic
    letI := sampleSha256
    let runtime : InferenceRuntime PlainUrl := ⟨.remote pairedTexts, 64, .finite (1 / 2)⟩
    let documents := [identifiedDocument "1" "lean", identifiedDocument "2" "rust",
      identifiedDocument "3" "lean again"]
    let inputs := embeddingInputs (plainQuery "lean") documents
    (runtime.score twoByTwo [] (plainQuery "lean") documents).1 =
        .ok [.finite 1, .finite 0, .finite 1] ∧
      (chunks 2 inputs).map List.length = [2, 2] ∧
      ∃ queryVector, pairedTexts.AnsweredAt twoByTwo [] inputs 0 queryVector ∧
        ∀ (i : Nat) (score : F64), [F64.finite 1, .finite 0, .finite 1][i]? = some score →
          ∃ vector, pairedTexts.AnsweredAt twoByTwo [] inputs (i + 1) vector ∧
            score = RankingV2.unitClamp (dot queryVector vector) := by
  let _ := wholeFloats
  let _ := asciiTables
  let _ := unitArithmetic
  let _ := sampleSha256
  have scored : ((⟨.remote pairedTexts, 64, .finite (1 / 2)⟩ : InferenceRuntime PlainUrl).score
      twoByTwo [] (plainQuery "lean")
      [identifiedDocument "1" "lean", identifiedDocument "2" "rust",
        identifiedDocument "3" "lean again"]).1 =
        .ok [.finite 1, .finite 0, .finite 1] := by decide +kernel
  exact ⟨scored, by decide +kernel, (InferenceRuntime.scores_aligned rfl scored).2⟩

end Amatl
