import Amatl.RankingV2Relevance
import Mathlib.Data.String.Basic

/-! Ranking v2 does not see the order of its documents. Every aggregate is a function of the
documents as a collection, so each position keeps what belongs to its document, and the identifiers
decide the last ties. -/

namespace Amatl

open RankingV2 StableSort

section

variable {α β : Type}

theorem getD_map {l : List α} {i : Nat} {a : α} (h : l[i]? = some a) (f : α → β) (d : β) :
    (l.map f).getD i d = f a := by
  rw [List.getD_eq_getElem?_getD, List.getElem?_map, h]
  rfl

theorem map_zipIdx {l : List α} {f : α × Nat → β} {g : α → β}
    (h : ∀ i a, l[i]? = some a → f (a, i) = g a) : l.zipIdx.map f = l.map g := by
  apply List.ext_getElem?
  intro i
  rw [List.getElem?_map, List.getElem?_map, List.getElem?_zipIdx]
  cases found : l[i]? with
  | none => rfl
  | some a => simp [h i a found]

theorem zipWith_self_map (l : List α) (f : α → β → β) (g : α → β) :
    List.zipWith f l (l.map g) = l.map (fun a => f a (g a)) := by
  induction l with
  | nil => rfl
  | cons a l ih => rw [List.map_cons, List.zipWith_cons_cons, ih, List.map_cons]

end

namespace RankingV2

variable {Url : Type}

theorem averageLength_perm {fields permuted : List (List (List Char))}
    (perm : permuted.Perm fields) : averageLength permuted = averageLength fields := by
  have sum : (permuted.map List.length).sum = (fields.map List.length).sum :=
    (perm.map _).sum_eq
  rw [averageLength, averageLength, sum, perm.length_eq]

theorem maximum_perm {raw permuted : List ℚ} (perm : permuted.Perm raw) :
    permuted.foldl max 0 = raw.foldl max 0 := by
  apply perm.foldl_eq'
  intro x _ y _ z
  rw [max_assoc, max_comm x y, ← max_assoc]

theorem normalizeScores_perm {α : Type} (documents : List α) (score : α → ℚ) :
    ∃ share : α → ℚ, ∀ permuted : List α, permuted.Perm documents →
      normalizeScores (permuted.map score) = permuted.map share := by
  by_cases zero : (documents.map score).foldl max 0 = 0
  · refine ⟨score, fun permuted perm => ?_⟩
    have same := maximum_perm (perm.map score)
    change (if (permuted.map score).foldl max 0 = 0 then _ else _) = _
    rw [same, if_pos zero]
  · refine ⟨fun document => score document / (documents.map score).foldl max 0,
      fun permuted perm => ?_⟩
    have same := maximum_perm (perm.map score)
    change (if (permuted.map score).foldl max 0 = 0 then _ else _) = _
    rw [same, if_neg zero, List.map_map]
    rfl

section

variable [NaturalLog]

theorem rawScores_eq (policy : RankingV2Policy) (queryTerms : List String)
    (fields : List (List (List Char))) :
    rawScores policy queryTerms fields = fields.map (fun field =>
      queryTerms.foldl (fun score term =>
        termScore policy (averageLength fields) (inverseFrequency fields term.toList) term.toList
          field score) 0) := by
  have run : ∀ (queryTerms : List String) (scores : List (List Char) → ℚ),
      queryTerms.foldl (fun raw term =>
          List.zipWith (fun field score =>
            termScore policy (averageLength fields) (inverseFrequency fields term.toList)
              term.toList field score) fields raw) (fields.map scores) =
        fields.map (fun field => queryTerms.foldl (fun score term =>
          termScore policy (averageLength fields) (inverseFrequency fields term.toList)
            term.toList field score) (scores field)) := by
    intro queryTerms
    induction queryTerms with
    | nil => exact fun scores => rfl
    | cons term queryTerms ih =>
      intro scores
      rw [List.foldl_cons, zipWith_self_map, ih]
      rfl
  rw [rawScores, ← List.map_const', run]

theorem inverseFrequency_perm {fields permuted : List (List (List Char))}
    (perm : permuted.Perm fields) (term : List Char) :
    inverseFrequency permuted term = inverseFrequency fields term := by
  rw [inverseFrequency, inverseFrequency, perm.length_eq, (perm.filter _).length_eq]

theorem rawScores_perm (policy : RankingV2Policy) (queryTerms : List String)
    (fields : List (List (List Char))) :
    ∃ score : List (List Char) → ℚ, ∀ permuted : List (List (List Char)), permuted.Perm fields →
      rawScores policy queryTerms permuted = permuted.map score := by
  refine ⟨fun field => queryTerms.foldl (fun score term =>
    termScore policy (averageLength fields) (inverseFrequency fields term.toList) term.toList
      field score) 0, fun permuted perm => ?_⟩
  rw [rawScores_eq, averageLength_perm perm]
  simp only [inverseFrequency_perm perm]

variable [UnicodeTables]

theorem bm25Scores_perm (query : Query) (documents : List (Document Url))
    (policy : RankingV2Policy) :
    ∃ score : Document Url → ℚ, ∀ permuted, permuted.Perm documents →
      bm25Scores query permuted policy = permuted.map score := by
  by_cases empty : (OrdMap.setOf ((terms query.normalizedQuery).map String.ofList)).isEmpty ∨
      documents.isEmpty
  · refine ⟨fun _ => 0, fun permuted perm => ?_⟩
    have still : (OrdMap.setOf ((terms query.normalizedQuery).map String.ofList)).isEmpty ∨
        permuted.isEmpty := by
      rwa [perm.isEmpty_eq]
    rw [bm25Scores, if_pos still, List.map_const']
  · obtain ⟨score, raw⟩ := rawScores_perm policy
      (OrdMap.setOf ((terms query.normalizedQuery).map String.ofList)) (documents.map documentTerms)
    obtain ⟨share, normalized⟩ := normalizeScores_perm documents
      (fun document => score (documentTerms document))
    refine ⟨share, fun permuted perm => ?_⟩
    have still : ¬((OrdMap.setOf ((terms query.normalizedQuery).map String.ofList)).isEmpty ∨
        permuted.isEmpty) := by
      rwa [perm.isEmpty_eq]
    have scored : rawScores policy (OrdMap.setOf ((terms query.normalizedQuery).map String.ofList))
        (permuted.map documentTerms) =
          permuted.map (fun document => score (documentTerms document)) := by
      rw [raw _ (perm.map _), List.map_map]
      rfl
    rw [bm25Scores, if_neg still, scored, normalized permuted perm]

end

/-- Each document has its own score, wherever it stands, or all orders fail alike. -/
def Positionless (score : List (Document Url) → Except RankingV2Error (List F64)) : Prop :=
  ∀ documents, (∃ error, ∀ permuted, permuted.Perm documents → score permuted = .error error) ∨
    ∃ value : Document Url → F64, ∀ permuted, permuted.Perm documents →
      score permuted = .ok (permuted.map value)

/-- The outcome of a backend that is asked, with its scores per document. -/
def AskedAlike (asked : List (Document Url) → Except RankingV2Error (Option (List ℚ)))
    (documents : List (Document Url)) : Prop :=
  (∃ error, ∀ permuted, permuted.Perm documents → asked permuted = .error error) ∨
    ∃ scores : Option (Document Url → ℚ), ∀ permuted, permuted.Perm documents →
      asked permuted = .ok (scores.map (fun score => permuted.map score))

theorem validated_alike {score : List (Document Url) → Except RankingV2Error (List F64)}
    (positionless : Positionless score) (documents : List (Document Url)) :
    AskedAlike (fun permuted => do
      let scores ← score permuted
      (validateBackendScores scores permuted.length).map some) documents := by
  rcases positionless documents with ⟨error, fails⟩ | ⟨value, scored⟩
  · refine Or.inl ⟨error, fun permuted perm => ?_⟩
    simp only [fails permuted perm]
    rfl
  · by_cases finite : documents.any (fun document => !(value document).isFinite)
    · refine Or.inl ⟨.backend, fun permuted perm => ?_⟩
      have unfinished : (permuted.map value).any (fun score => !score.isFinite) := by
        rw [List.any_map, perm.any_eq]
        exact finite
      have rejected : validateBackendScores (permuted.map value) permuted.length =
          .error .backend := by
        rw [validateBackendScores, if_pos (Or.inr unfinished)]
      simp only [scored permuted perm, bind, Except.bind, rejected]
      rfl
    · refine Or.inr ⟨some (fun document => clamp (value document).toRat), fun permuted perm => ?_⟩
      have fits : ¬((permuted.map value).length ≠ permuted.length ∨
          (permuted.map value).any (fun score => !score.isFinite)) := by
        rw [List.any_map, perm.any_eq, List.length_map]
        rintro (other | unfinished)
        · exact other rfl
        · exact finite unfinished
      have accepted : validateBackendScores (permuted.map value) permuted.length =
          .ok (permuted.map (fun document => clamp (value document).toRat)) := by
        rw [validateBackendScores, if_neg fits, List.map_map]
        rfl
      simp only [scored permuted perm, bind, Except.bind, accepted]
      rfl

theorem scoreAt_map {documents : List (Document Url)} {i : Nat} {document : Document Url}
    (h : documents[i]? = some document) (scores : Option (Document Url → ℚ)) :
    scoreAt (scores.map (fun score => documents.map score)) i =
      (scores.map (fun score => score document)).getD 0 := by
  cases scores with
  | none => rfl
  | some score => exact getD_map h score 0

theorem weightOf_map (documents : List (Document Url)) (scores : Option (Document Url → ℚ))
    (weight : F64) : weightOf (scores.map (fun score => documents.map score)) weight =
      if scores.isSome then weight else .finite 0 := by
  cases scores <;> rfl

def relevanceOf (policy : RankingV2Policy) (bm25 : Document Url → ℚ)
    (semantic reranker : Option (Document Url → ℚ)) (document : Document Url) : F64 :=
  combined policy.weightBm25 (if semantic.isSome then policy.weightSemantic else .finite 0)
    (if reranker.isSome then policy.weightReranker else .finite 0) (bm25 document)
    ((semantic.map (fun score => score document)).getD 0)
    ((reranker.map (fun score => score document)).getD 0)

theorem combineRelevance_map (policy : RankingV2Policy) (documents : List (Document Url))
    (bm25 : Document Url → ℚ) (semantic reranker : Option (Document Url → ℚ)) :
    combineRelevance (documents.map bm25) (semantic.map (fun score => documents.map score))
        (reranker.map (fun score => documents.map score)) policy =
      documents.map (relevanceOf policy bm25 semantic reranker) := by
  rw [combineRelevance, weightOf_map, weightOf_map, List.zipIdx_map, List.map_map]
  refine map_zipIdx (fun i document found => ?_)
  rw [Function.comp_apply, Prod.map_apply, id_eq]
  rw [scoreAt_map found, scoreAt_map found]
  rfl

def entryOf (policy : RankingV2Policy) (evidence : List Evidence)
    (originalRanks : List (String × Rank)) (bm25 : Document Url → ℚ)
    (semantic reranker : Option (Document Url → ℚ)) (document : Document Url) :
    DeepRankedDocument :=
  rankedDocument policy evidence originalRanks document.searchResultId (bm25 document)
    (semantic.map (fun score => score document)) (reranker.map (fun score => score document))
    (relevanceOf policy bm25 semantic reranker document)

theorem entries_map (policy : RankingV2Policy) (evidence : List Evidence)
    (originalRanks : List (String × Rank)) (documents : List (Document Url))
    (bm25 : Document Url → ℚ) (semantic reranker : Option (Document Url → ℚ)) :
    documents.zipIdx.map (fun entry =>
        rankedDocument policy evidence originalRanks entry.1.searchResultId
          ((documents.map bm25).getD entry.2 0)
          ((semantic.map (fun score => documents.map score)).map
            (fun scores => scores.getD entry.2 0))
          ((reranker.map (fun score => documents.map score)).map
            (fun scores => scores.getD entry.2 0))
          ((documents.map (relevanceOf policy bm25 semantic reranker)).getD entry.2 .nan)) =
      documents.map (entryOf policy evidence originalRanks bm25 semantic reranker) := by
  refine map_zipIdx (fun i document found => ?_)
  simp only [getD_map found, Option.map_map]
  have own : ∀ scores : Option (Document Url → ℚ),
      scores.map ((fun values => values.getD i 0) ∘ fun score => documents.map score) =
        scores.map (fun score => score document) := by
    intro scores
    cases scores with
    | none => rfl
    | some score => exact congrArg some (getD_map found score 0)
  rw [own semantic, own reranker]
  rfl

instance : Std.TransCmp compareDeep := by
  have byFinal : Std.TransCmp (fun left right : DeepRankedDocument =>
      compare right.finalScore.value left.finalScore.value) :=
    inferInstanceAs (Std.TransCmp (fun left right : DeepRankedDocument =>
      compareOn (fun ranked => ranked.finalScore.value) right left))
  have byRelevance : Std.TransCmp (fun left right : DeepRankedDocument =>
      compare right.relevanceScore.value left.relevanceScore.value) :=
    inferInstanceAs (Std.TransCmp (fun left right : DeepRankedDocument =>
      compareOn (fun ranked => ranked.relevanceScore.value) right left))
  unfold compareDeep
  infer_instance

/-- The order of the list: two scores downwards, then the original rank and the identifier. -/
def DeepOrdered (left right : DeepRankedDocument) : Prop :=
  right.finalScore.value < left.finalScore.value ∨
    left.finalScore.value = right.finalScore.value ∧
      (right.relevanceScore.value < left.relevanceScore.value ∨
        left.relevanceScore.value = right.relevanceScore.value ∧
          (left.originalRank.value < right.originalRank.value ∨
            left.originalRank.value = right.originalRank.value ∧
              left.documentId ≤ right.documentId))

theorem isLE_compareLex {α : Type} {first second : α → α → Ordering} {a b : α} :
    (compareLex first second a b).isLE = true ↔
      first a b = .lt ∨ first a b = .eq ∧ (second a b).isLE = true :=
  Ordering.isLE_then_iff_or

theorem deepOrdered_of_below {left right : DeepRankedDocument}
    (h : Below compareDeep left right) : DeepOrdered left right := by
  rcases isLE_compareLex.mp h with final | ⟨final, h⟩
  · exact Or.inl (compare_lt_iff_lt.mp final)
  · refine Or.inr ⟨(compare_eq_iff_eq.mp final).symm, ?_⟩
    rcases isLE_compareLex.mp h with relevance | ⟨relevance, h⟩
    · exact Or.inl (compare_lt_iff_lt.mp relevance)
    · refine Or.inr ⟨(compare_eq_iff_eq.mp relevance).symm, ?_⟩
      rcases isLE_compareLex.mp h with rank | ⟨rank, identifier⟩
      · have smaller : left.originalRank.value.toNat < right.originalRank.value.toNat :=
          compare_lt_iff_lt.mp rank
        exact Or.inl (UInt32.lt_iff_toNat_lt.mpr smaller)
      · have same : left.originalRank.value.toNat = right.originalRank.value.toNat :=
          compare_eq_iff_eq.mp rank
        exact Or.inr ⟨UInt32.toNat_inj.mp same,
          compare_le_iff_le.mp (Ordering.isLE_iff_ne_gt.mp identifier)⟩

theorem documentId_of_compareDeep {left right : DeepRankedDocument}
    (h : compareDeep left right = .eq) : left.documentId = right.documentId := by
  have identifier := (compareLex_eq_eq.mp (compareLex_eq_eq.mp (compareLex_eq_eq.mp h).2).2).2
  exact Std.compare_eq_iff_eq.mp identifier

theorem map_renumbered {β : Type} (ranked : List DeepRankedDocument) (f : DeepRankedDocument → β)
    (h : ∀ document rank, f { document with rank } = f document) :
    (renumbered ranked).map f = ranked.map f := by
  rw [renumbered, List.map_map]
  exact map_zipIdx (fun i document _ => h document (positionRank i))

theorem getElem?_renumbered {ranked : List DeepRankedDocument} {i : Nat}
    {document : DeepRankedDocument} (h : (renumbered ranked)[i]? = some document) :
    document.rank = positionRank i := by
  rw [renumbered, List.getElem?_map, List.getElem?_zipIdx, Option.map_map] at h
  obtain ⟨before, -, rfl⟩ := Option.map_eq_some_iff.mp h
  simp

theorem pairwise_renumbered {ranked : List DeepRankedDocument}
    (h : ranked.Pairwise DeepOrdered) : (renumbered ranked).Pairwise DeepOrdered := by
  have ordered : (ranked.map (fun document => (document.finalScore.value,
      document.relevanceScore.value, document.originalRank.value, document.documentId))).Pairwise
      (fun a b => b.1 < a.1 ∨ a.1 = b.1 ∧ (b.2.1 < a.2.1 ∨ a.2.1 = b.2.1 ∧
        (a.2.2.1 < b.2.2.1 ∨ a.2.2.1 = b.2.2.1 ∧ a.2.2.2 ≤ b.2.2.2))) :=
    List.pairwise_map.mpr h
  rw [← map_renumbered ranked _ (fun _ _ => rfl)] at ordered
  have listed := List.pairwise_map.mp ordered
  exact listed

end RankingV2

namespace RankingV2Engine

variable {Url : Type}

/-- The backends score each document by itself; a reranker may look at its relevance. -/
structure Positionless (engine : RankingV2Engine Url) : Prop where
  semantic : ∀ backend, engine.semantic = some backend → ∀ query,
    RankingV2.Positionless (backend.score query)
  reranker : ∀ backend, engine.reranker = some backend → ∀ query (relevance : Document Url → F64),
    RankingV2.Positionless (fun documents =>
      backend.score query documents (documents.map relevance))

theorem semanticScores_alike {engine : RankingV2Engine Url} (h : engine.Positionless)
    (query : Query) (documents : List (Document Url)) :
    AskedAlike (engine.semanticScores query) documents := by
  unfold semanticScores
  cases weight : F64.lt (.finite 0) engine.policy.weightSemantic with
  | false => exact Or.inr ⟨none, fun _ _ => rfl⟩
  | true =>
    cases present : engine.semantic with
    | none => exact Or.inr ⟨none, fun _ _ => rfl⟩
    | some backend => exact validated_alike (h.semantic backend present query) documents

theorem rerankerScores_alike {engine : RankingV2Engine Url} (h : engine.Positionless)
    (query : Query) (documents : List (Document Url)) (relevance : Document Url → F64) :
    AskedAlike (fun permuted => engine.rerankerScores query permuted (permuted.map relevance))
      documents := by
  unfold rerankerScores
  cases weight : F64.lt (.finite 0) engine.policy.weightReranker with
  | false => exact Or.inr ⟨none, fun _ _ => rfl⟩
  | true =>
    cases present : engine.reranker with
    | none => exact Or.inr ⟨none, fun _ _ => rfl⟩
    | some backend => exact validated_alike (h.reranker backend present query relevance) documents

variable [UnicodeTables] [NaturalLog]

/-- Either no order is ranked, for one reason, or each is sorted from the same entries. -/
theorem rank_alike {engine : RankingV2Engine Url} (h : engine.Positionless) (query : Query)
    (documents : List (Document Url)) (evidence : List Evidence)
    (originalRanks : List (String × Rank)) :
    (∃ outcome, (∀ output, outcome = .ok output → output.status ≠ .applied) ∧
        ∀ permuted, permuted.Perm documents →
          engine.rank query permuted evidence originalRanks = outcome) ∨
      ∃ entry : Document Url → DeepRankedDocument,
        (∀ document, (entry document).documentId = document.searchResultId) ∧
        ∀ permuted, permuted.Perm documents →
          engine.rank query permuted evidence originalRanks =
            .ok (output engine.policy .applied
              (renumbered (sortBy compareDeep (permuted.map entry)))) := by
  by_cases passed : engine.benchmark.passed = true
  · by_cases empty : documents.isEmpty = true
    · refine Or.inl ⟨.ok (output engine.policy .insufficientDocuments []), ?_, ?_⟩
      · intro out same
        cases same
        intro applied
        cases applied
      · intro permuted perm
        rw [rank, passed, if_neg (by decide), if_pos (perm.isEmpty_eq.trans empty)]
    · have entered : ∀ permuted : List (Document Url), permuted.Perm documents →
          ¬permuted.isEmpty = true := by
        intro permuted perm
        rwa [perm.isEmpty_eq]
      obtain ⟨bm25, lexical⟩ := bm25Scores_perm query documents engine.policy
      rcases semanticScores_alike h query documents with ⟨error, fails⟩ | ⟨semantic, scored⟩
      · refine Or.inl ⟨.error error, fun output same => ?_, fun permuted perm => ?_⟩
        · cases same
        rw [rank, passed, if_neg (by decide), if_neg (entered permuted perm), fails permuted perm]
        rfl
      · have first : ∀ permuted : List (Document Url),
            combineRelevance (permuted.map bm25) (semantic.map (fun score => permuted.map score))
                none engine.policy =
              permuted.map (relevanceOf engine.policy bm25 semantic none) := by
          intro permuted
          exact combineRelevance_map engine.policy permuted bm25 semantic none
        rcases rerankerScores_alike h query documents
            (relevanceOf engine.policy bm25 semantic none) with ⟨error, fails⟩ | ⟨reranker, again⟩
        · refine Or.inl ⟨.error error, fun output same => ?_, fun permuted perm => ?_⟩
          · cases same
          rw [rank, passed, if_neg (by decide), if_neg (entered permuted perm),
            scored permuted perm]
          simp only [bind, Except.bind, lexical permuted perm, first permuted, fails permuted perm]
        · refine Or.inr ⟨entryOf engine.policy evidence originalRanks bm25 semantic reranker,
            fun document => rfl, fun permuted perm => ?_⟩
          rw [rank, passed, if_neg (by decide), if_neg (entered permuted perm),
            scored permuted perm]
          simp only [bind, Except.bind, lexical permuted perm, first permuted,
            again permuted perm, combineRelevance_map, entries_map]
  · refine Or.inl ⟨.ok (output engine.policy .benchmarkRejected []), ?_, ?_⟩
    · intro out same
      cases same
      intro applied
      cases applied
    · intro permuted _
      rw [rank, Bool.not_eq_true _ |>.mp passed]
      rfl

theorem applied_of_ok {engine : RankingV2Engine Url} (passed : engine.benchmark.passed = true)
    {query : Query} {documents : List (Document Url)} {evidence : List Evidence}
    {originalRanks : List (String × Rank)} {out : RankingV2Output}
    (ranked : engine.rank query documents evidence originalRanks = .ok out) :
    documents = [] ∧ out.results = [] ∨ out.status = .applied := by
  rw [rank, passed, if_neg (by decide)] at ranked
  by_cases empty : documents.isEmpty = true
  · rw [if_pos empty] at ranked
    cases ranked
    exact Or.inl ⟨List.isEmpty_iff.mp empty, rfl⟩
  · rw [if_neg empty] at ranked
    cases scored : engine.semanticScores query documents with
    | error error =>
      rw [scored] at ranked
      cases ranked
    | ok semantic =>
      rw [scored] at ranked
      simp only [bind, Except.bind] at ranked
      split at ranked
      · cases ranked
      · cases ranked
        exact Or.inr rfl

/-- The order of the documents does not matter, and what is ranked is ranked completely. -/
theorem rank_orderless (engine : RankingV2Engine Url) (h : engine.Positionless) (query : Query)
    (documents : List (Document Url))
    (distinct : (documents.map (fun document => document.searchResultId)).Nodup)
    (evidence : List Evidence) (originalRanks : List (String × Rank)) :
    (∀ permuted, permuted.Perm documents →
      engine.rank query permuted evidence originalRanks =
        engine.rank query documents evidence originalRanks) ∧
    (engine.benchmark.passed = true →
      ∀ out, engine.rank query documents evidence originalRanks = .ok out →
        (out.results.map (fun ranked => ranked.documentId)).Perm
            (documents.map (fun document => document.searchResultId)) ∧
          (∀ i ranked, out.results[i]? = some ranked → i + 1 < 2 ^ 32 →
            ranked.rank.value.toNat = i + 1) ∧
          out.results.Pairwise DeepOrdered) := by
  rcases rank_alike h query documents evidence originalRanks with
    ⟨outcome, unapplied, alike⟩ | ⟨entry, identified, alike⟩
  · refine ⟨fun permuted perm => ?_, fun passed out ranked => ?_⟩
    · rw [alike permuted perm, alike documents (List.Perm.refl _)]
    · rcases applied_of_ok passed ranked with ⟨rfl, none⟩ | applied
      · rw [none]
        refine ⟨List.Perm.refl _, fun i ranked found => ?_, List.Pairwise.nil⟩
        rw [List.getElem?_nil] at found
        cases found
      · rw [alike documents (List.Perm.refl _)] at ranked
        exact absurd applied (unapplied out ranked)
  · refine ⟨fun permuted perm => ?_, fun _ out ranked => ?_⟩
    · have sorted : sortBy compareDeep (permuted.map entry) =
          sortBy compareDeep (documents.map entry) := by
        apply sortBy_eq_of_perm (perm.map entry)
        intro a inside b present equal
        obtain ⟨left, memLeft, rfl⟩ := List.mem_map.mp inside
        obtain ⟨right, memRight, rfl⟩ := List.mem_map.mp present
        have identifiers := documentId_of_compareDeep equal
        rw [identified, identified] at identifiers
        rw [List.inj_on_of_nodup_map distinct (perm.mem_iff.mp memLeft) (perm.mem_iff.mp memRight)
          identifiers]
      rw [alike permuted perm, alike documents (List.Perm.refl _), sorted]
    · rw [alike documents (List.Perm.refl _)] at ranked
      cases ranked
      refine ⟨?_, fun i document found small => ?_, ?_⟩
      · have listed : (documents.map entry).map (fun ranked => ranked.documentId) =
            documents.map (fun document => document.searchResultId) := by
          rw [List.map_map]
          exact List.map_congr_left (fun document _ => identified document)
        change ((renumbered _).map _).Perm _
        rw [map_renumbered _ _ (fun _ _ => rfl), ← listed]
        exact (sortBy_perm compareDeep _).map _
      · rw [getElem?_renumbered found]
        exact positionRank_toNat small
      · exact pairwise_renumbered
          ((sortBy_pairwise (documents.map entry)).imp deepOrdered_of_below)

end RankingV2Engine

def lexicalEngine : RankingV2Engine PlainUrl where
  policy := .default
  benchmark := { passed := true }
  semantic := none
  reranker := none
  valid := by decide +kernel

theorem lexicalEngine_positionless : lexicalEngine.Positionless where
  semantic _ present := by cases present
  reranker _ present := by cases present

def identifiedDocument (searchResultId content : String) : Document PlainUrl :=
  { (plainDocument "").payload with searchResultId, content := some content }

def twoDocuments : List (Document PlainUrl) :=
  [identifiedDocument "a" "rust", identifiedDocument "b" "lean"]

theorem rank_orderless_swapped :
    letI := asciiTables
    letI := tangentLog
    lexicalEngine.rank (plainQuery "lean") twoDocuments.reverse [] [] =
      lexicalEngine.rank (plainQuery "lean") twoDocuments [] [] := by
  let _ := asciiTables
  let _ := tangentLog
  have distinct : (twoDocuments.map (fun document => document.searchResultId)).Nodup := by decide
  have alike := lexicalEngine.rank_orderless lexicalEngine_positionless (plainQuery "lean")
    twoDocuments distinct [] []
  exact alike.1 _ (List.reverse_perm twoDocuments)

/-- The candidate can never be better than the baseline by one. -/
def demandingEngine : RankingV2Engine PlainUrl where
  policy := { RankingV2Policy.default with benchmarkMinimumNdcgDelta := .finite 1 }
  benchmark := { passed := false }
  semantic := none
  reranker := none
  valid := by decide +kernel

/-- A policy whose benchmark was not passed leaves the documents out. -/
theorem demandingEngine_drops :
    letI := asciiTables
    letI := tangentLog
    ∃ out, demandingEngine.rank (plainQuery "lean") twoDocuments [] [] = .ok out ∧
      ¬(out.results.map (fun ranked => ranked.documentId)).Perm
        (twoDocuments.map (fun document => document.searchResultId)) := by
  refine ⟨_, rfl, ?_⟩
  intro same
  exact absurd same.length_eq (by decide)

end Amatl
