import Amatl.InferenceCalls
import Amatl.Lib.Interleaving

/-! What inference sends out of the machine. Nothing is sent unless the policy says so, and what
is sent is accounted for request by request. -/

namespace Amatl

open Batches Interleaving UrlCrate

/-! The requests of one call. -/

theorem embeddingBody_injective {model model' : String} {inputs inputs' : List String}
    (h : embeddingBody model inputs = embeddingBody model' inputs') :
    model = model' ∧ inputs = inputs' := by
  unfold embeddingBody at h
  generalize "\x7b\"input\":".toList = front at h
  generalize ",\"model\":".toList = between at h
  simp only [List.append_assoc] at h
  obtain ⟨texts, rest⟩ := Json.array_cancel (List.append_cancel_left h)
  obtain ⟨name, -⟩ := Json.quote_cancel (List.append_cancel_left rest)
  exact ⟨String.toList_inj.mp name, List.map_injective_iff.mpr (fun _ _ same => String.toList_injective same) texts⟩

def HttpTransport.sends {Url : Type} (transport : HttpTransport) (request : HttpRequest Url) :
    List (HttpRequest Url) :=
  if transport = .denied then [] else [request]

section

variable {Url : Type}

theorem HttpTransport.execute_sent (transport : HttpTransport) (internet : Internet Url)
    (sent : List (HttpRequest Url)) (request : HttpRequest Url) :
    (transport.execute internet sent request).2 = sent ++ transport.sends request := by
  cases transport with
  | denied => exact (List.append_nil sent).symm
  | reqwest => rfl

variable [SingleFloats]

theorem RemoteEmbeddingBackend.embedBatch_sent (backend : RemoteEmbeddingBackend Url)
    (internet : Internet Url) (sent : List (HttpRequest Url)) (batch : List String) :
    (backend.embedBatch internet sent batch).2 =
      sent ++ backend.transport.sends (backend.batchRequest batch) := by
  rw [← HttpTransport.execute_sent backend.transport internet]
  unfold RemoteEmbeddingBackend.embedBatch
  split
  · rename_i outcome
    rw [outcome]
  · rename_i outcome
    rw [outcome]

/-- A front of the batches is sent, each of them once, and all of them if there is an answer. -/
theorem RemoteEmbeddingBackend.embed_sent (backend : RemoteEmbeddingBackend Url)
    (internet : Internet Url) (sent : List (HttpRequest Url)) (inputs : List String) :
    ∃ k ≤ (chunks backend.maxBatch inputs).length,
      (backend.embed internet sent inputs).2 =
        sent ++ ((chunks backend.maxBatch inputs).take k).flatMap (fun batch =>
          backend.transport.sends (backend.batchRequest batch)) ∧
      ∀ vectors, (backend.embed internet sent inputs).1 = .ok vectors →
        k = (chunks backend.maxBatch inputs).length ∧ vectors.length = inputs.length := by
  obtain ⟨k, le, log, all⟩ := sendAll_log (backend.embedBatch_sent internet) sent
    (chunks backend.maxBatch inputs)
  unfold RemoteEmbeddingBackend.embed
  split
  · rename_i empty
    rw [List.isEmpty_iff] at empty
    subst empty
    refine ⟨0, Nat.zero_le _, by simp, ?_⟩
    intro vectors h
    cases h
    exact ⟨rfl, rfl⟩
  · refine ⟨k, le, ?_⟩
    split
    · rename_i outcome
      rw [outcome] at log
      exact ⟨log, nofun⟩
    · rename_i vectors after outcome
      rw [outcome] at log
      split
      · exact ⟨log, nofun⟩
      · rename_i fits
        refine ⟨log, ?_⟩
        intro vectors' h
        cases h
        exact ⟨all ⟨vectors, by rw [outcome]⟩, not_not.mp fits⟩

end

/-- The backend is what the configuration and the environment say, and within their limits. -/
structure RemoteEmbeddingBackend.Configured {Url : Type} [UrlCrate Url]
    (backend : RemoteEmbeddingBackend Url) (env : Environment) (config : InferenceConfig) :
    Prop where
  endpoint : ∃ value, config.remoteEndpoint = some value ∧ parse value = some backend.endpoint ∧
    remoteEndpointError Url value = none
  model : config.remoteModel = some backend.model
  credential : backend.credential = config.remoteCredentialEnv.bind env
  maxBatch : backend.maxBatch = config.remoteMaxBatch.toNat
  batchLimit : 1 ≤ backend.maxBatch ∧ backend.maxBatch ≤ 256
  maxInputChars : backend.maxInputChars = config.maxInputChars.toNat
  timeout : backend.timeoutMs = config.remoteTimeoutMs
  timeoutLimit : 100 ≤ backend.timeoutMs ∧ backend.timeoutMs ≤ 60000

structure RemoteCompletionBackend.Configured {Url : Type} [UrlCrate Url]
    (backend : RemoteCompletionBackend Url) (env : Environment) (config : AnswerConfig) :
    Prop where
  endpoint : ∃ value, config.endpoint = some value ∧ parse value = some backend.endpoint ∧
    remoteEndpointError Url value = none
  model : config.model = some backend.model
  credential : backend.credential = config.credentialEnv.bind env
  timeout : backend.timeoutMs = config.timeoutMs
  maxAnswerTokens : backend.maxAnswerTokens = config.maxAnswerTokens

section

variable {Url : Type} [UrlCrate Url]

theorem remoteEndpoint_ok {value : String} {url : Url} (h : remoteEndpoint value = .ok url) :
    parse value = some url ∧ remoteEndpointError Url value = none := by
  unfold remoteEndpoint at h
  split at h
  · cases h
  · cases h
  · rename_i parsed sound
    cases h
    exact ⟨parsed, sound⟩

theorem namedCredential_ok {ε : Type} {unavailable : ε} {env : Environment} {name : Option String}
    {credential : Option String} (h : namedCredential unavailable env name = .ok credential) :
    credential = name.bind env := by
  cases name with
  | none =>
    cases h
    rfl
  | some name =>
    simp only [namedCredential] at h
    split at h
    · cases h
    · rename_i value found
      split at h
      · cases h
      · cases h
        exact found.symm

theorem outside_eq_false {low high value : UInt64} (h : outside low high value = false) :
    low ≤ value ∧ value ≤ high := by
  simpa [outside] using h

theorem RemoteEmbeddingBackend.new_configured {env : Environment} {config : InferenceConfig}
    {transport : HttpTransport} {backend : RemoteEmbeddingBackend Url}
    (h : RemoteEmbeddingBackend.new env config transport = .ok backend) :
    backend.Configured env config ∧ backend.transport = transport := by
  unfold RemoteEmbeddingBackend.new at h
  split at h
  · cases h
  · rename_i limits
    simp only [limitsRefused, Bool.or_eq_true, not_or, Bool.not_eq_true] at limits
    obtain ⟨⟨-, batches⟩, timeout⟩ := limits
    have batchLimit := outside_eq_false batches
    simp only [UInt64.le_iff_toNat_le, UInt64.reduceToNat] at batchLimit
    split at h
    · cases h
    · rename_i credential named
      unfold withCredential at h
      split at h
      · cases h
      · rename_i value given
        split at h
        · cases h
        · rename_i endpoint sound
          split at h
          · cases h
          · split at h
            · cases h
            · rename_i model names
              cases h
              exact ⟨⟨⟨value, given, remoteEndpoint_ok sound⟩, names, namedCredential_ok named, rfl,
                batchLimit, rfl, rfl, outside_eq_false timeout⟩, rfl⟩

theorem RemoteCompletionBackend.new_configured {env : Environment} {config : AnswerConfig}
    {transport : HttpTransport} {backend : RemoteCompletionBackend Url}
    (h : RemoteCompletionBackend.new env config transport = .ok backend) :
    backend.Configured env config := by
  unfold RemoteCompletionBackend.new at h
  split at h
  · cases h
  · rename_i credential named
    unfold withCredential at h
    split at h
    · cases h
    · rename_i value given
      split at h
      · cases h
      · rename_i endpoint sound
        split at h
        · cases h
        · split at h
          · cases h
          · rename_i model names
            cases h
            exact ⟨⟨value, given, remoteEndpoint_ok sound⟩, names, namedCredential_ok named, rfl,
              rfl⟩

end

/-! The calls of the services. -/

/-- What a call may send. -/
def InferenceDone.Governed {Url : Type} [UrlCrate Url] (done : InferenceDone Url) : Prop :=
  match done.call with
  | .score query documents =>
    done.requests = [] ∨
      done.config.dataPolicy.allowsRemoteInference = true ∧
      documents.length ≤ done.config.inference.maxDocuments.toNat ∧
      ∃ backend : RemoteEmbeddingBackend Url, backend.Configured done.env done.config.inference ∧
        let batches := chunks backend.maxBatch (InferenceRuntime.embeddingInputs query documents)
        (∃ k ≤ batches.length, done.requests = (batches.take k).map backend.batchRequest ∧
          ∀ scores, done.answer = .scores (.ok scores) →
            k = batches.length ∧ scores.length = documents.length)
  | .rerank _ _ _ => done.requests = []
  | .answer rawQuery results =>
    done.requests = [] ∨
      done.config.dataPolicy.allowsRemoteInference = true ∧ done.config.answer.enabled = true ∧
      ∃ backend : RemoteCompletionBackend Url, backend.Configured done.env done.config.answer ∧
        done.requests = [backend.request systemPrompt (buildUserPrompt rawQuery
          (buildSources results done.config.answer.maxSources.toNat
            done.config.answer.maxSourceChars.toNat))]

theorem DataPolicyConfig.allowsNetworkEgress_of_remote {policy : DataPolicyConfig}
    (remote : policy.allowsRemoteInference = true) : policy.allowsNetworkEgress = true := by
  simp only [DataPolicyConfig.allowsRemoteInference, Bool.and_eq_true] at remote
  exact Bool.and_eq_true_iff.mpr remote.1

section

variable {Url : Type} [UrlCrate Url] [TimeCrate] [HttpCrate]

theorem Config.answer_governed {config : Config} (valid : config.validate Url = .ok ())
    (enabled : config.answer.enabled = true) :
    config.dataPolicy.allowsRemoteInference = true := by
  obtain ⟨-, -, -, -, answer, -⟩ := Config.validate_eq_ok.1 valid
  simp only [Config.validateAnswer, check_bind_eq_ok, enabled, if_true, reject_eq_ok] at answer
  simpa using answer.2.1

/-- The backends of a service are those that its configuration asks for. -/
structure InferenceService.Built (service : InferenceService Url) : Prop where
  valid : service.config.validate Url = .ok ()
  documents : ∀ runtime ∈ service.runtime,
    runtime.maxDocuments = service.config.inference.maxDocuments.toNat
  remote : ∀ runtime ∈ service.runtime, ∀ backend, runtime.backend = .remote backend →
    service.config.dataPolicy.allowsRemoteInference = true ∧
      backend.Configured service.env service.config.inference ∧ backend.transport = .reqwest
  answers : ∀ backend ∈ service.answerBackend,
    service.config.answer.enabled = true ∧ backend.Configured service.env service.config.answer

variable [UnicodeTables] [EmbeddingArithmetic]

omit [UrlCrate Url] [TimeCrate] [HttpCrate] [UnicodeTables] in
theorem localBackend_not_remote {models : String → Option String} {caches : String → CacheFile}
    {config : InferenceConfig} {backend : EmbeddingBackend (RemoteEmbeddingBackend Url)}
    (h : localBackend models caches config = .ok backend) (other : RemoteEmbeddingBackend Url) :
    backend ≠ .remote other := by
  unfold localBackend at h
  split at h
  · cases h
  · split at h
    · cases h
    · split at h
      · cases h
        exact nofun
      · cases h
        exact nofun

omit [TimeCrate] [HttpCrate] [UnicodeTables] in
theorem fromPolicy_ok {env : Environment} {models : String → Option String}
    {caches : String → CacheFile} {policy : DataPolicyConfig} {config : InferenceConfig}
    {transport : Option HttpTransport} {runtime : InferenceRuntime Url}
    (h : InferenceRuntime.fromPolicy env models caches policy config transport =
      .ok (some runtime)) :
    runtime.maxDocuments = config.maxDocuments.toNat ∧
      ∀ backend, runtime.backend = .remote backend →
        policy.allowsRemoteInference = true ∧ backend.Configured env config ∧
          transport = some backend.transport := by
  unfold InferenceRuntime.fromPolicy at h
  simp only at h
  split at h
  · cases h
  · cases made : localBackend (R := RemoteEmbeddingBackend Url) models caches config with
    | error error =>
      rw [made] at h
      cases h
    | ok inner =>
      rw [made] at h
      cases h
      exact ⟨rfl, fun backend same => absurd same (localBackend_not_remote made backend)⟩
  · split at h
    · cases h
    · rename_i allowed
      split at h
      · cases h
      · rename_i transport
        cases made : (RemoteEmbeddingBackend.new env config transport :
            Except InferenceError (RemoteEmbeddingBackend Url)) with
        | error error =>
          rw [made] at h
          cases h
        | ok inner =>
          rw [made] at h
          cases h
          obtain ⟨configured, same⟩ := RemoteEmbeddingBackend.new_configured made
          refine ⟨rfl, ?_⟩
          intro backend chosen
          cases chosen
          exact ⟨by simpa using allowed, configured, congrArg some same.symm⟩

omit [UnicodeTables] in
theorem InferenceService.start_built (env : Environment) (models : String → Option String)
    (caches : String → CacheFile) (clientStarts : Bool) {config : Config}
    (valid : config.validate Url = .ok ()) :
    (InferenceService.start env models caches clientStarts config : InferenceService Url).Built
    where
  valid := valid
  documents runtime mem := by
    simp only [InferenceService.start, Option.mem_def] at mem
    split at mem
    · rename_i made
      rw [mem] at made
      exact (fromPolicy_ok made).1
    · cases mem
  remote runtime mem backend same := by
    simp only [InferenceService.start, Option.mem_def] at mem
    split at mem
    · rename_i made
      rw [mem] at made
      obtain ⟨allowed, configured, transport⟩ := (fromPolicy_ok made).2 backend same
      rw [if_pos (DataPolicyConfig.allowsNetworkEgress_of_remote allowed)] at transport
      refine ⟨allowed, configured, ?_⟩
      split at transport
      · exact (Option.some.inj transport).symm
      · cases transport
    · cases mem
  answers backend mem := by
    simp only [InferenceService.start, Option.mem_def] at mem
    split at mem
    · rename_i enabled
      refine ⟨enabled, ?_⟩
      obtain ⟨transport, -, made⟩ := Option.bind_eq_some_iff.mp mem
      cases outcome : (RemoteCompletionBackend.new env config.answer transport :
          Except AnswerError (RemoteCompletionBackend Url)) with
      | error error =>
        rw [outcome] at made
        cases made
      | ok other =>
        rw [outcome] at made
        cases made
        exact RemoteCompletionBackend.new_configured outcome
    · cases mem

variable [SingleFloats] [Sha256]

omit [UrlCrate Url] [TimeCrate] [HttpCrate] in
theorem embedOver_backend (backend : EmbeddingBackend (RemoteEmbeddingBackend Url))
    (internet : Internet Url) (sent : List (HttpRequest Url)) (inputs : List String)
    (other : RemoteEmbeddingBackend Url) :
    (backend.embedOver internet sent inputs).2.1 = .remote other ↔ backend = .remote other := by
  cases backend <;> simp [EmbeddingBackend.embedOver]

omit [UrlCrate Url] [TimeCrate] [HttpCrate] in
/-- A local backend sends nothing, the remote one a front of its batches. -/
theorem embedOver_sent (backend : EmbeddingBackend (RemoteEmbeddingBackend Url))
    (internet : Internet Url) (sent : List (HttpRequest Url)) (inputs : List String) :
    (backend.isRemote = false ∧ (backend.embedOver internet sent inputs).2.2 = sent) ∨
      ∃ remote, backend = .remote remote ∧ ∃ k ≤ (chunks remote.maxBatch inputs).length,
        (backend.embedOver internet sent inputs).2.2 =
          sent ++ ((chunks remote.maxBatch inputs).take k).flatMap (fun batch =>
            remote.transport.sends (remote.batchRequest batch)) ∧
        ∀ vectors, (backend.embedOver internet sent inputs).1 = .ok vectors →
          k = (chunks remote.maxBatch inputs).length := by
  cases backend with
  | plain inner => exact .inl ⟨rfl, rfl⟩
  | cached inner cache => exact .inl ⟨rfl, rfl⟩
  | remote remote =>
    obtain ⟨k, le, log, all⟩ := remote.embed_sent internet sent inputs
    exact .inr ⟨remote, rfl, k, le, log, fun vectors ok => (all vectors ok).1⟩

omit [UrlCrate Url] [TimeCrate] [HttpCrate] in
theorem score_runtime (runtime : InferenceRuntime Url) (internet : Internet Url)
    (sent : List (HttpRequest Url)) (query : Query) (documents : List (Document Url)) :
    (runtime.score internet sent query documents).2.1.maxDocuments = runtime.maxDocuments ∧
      ∀ other, (runtime.score internet sent query documents).2.1.backend = .remote other ↔
        runtime.backend = .remote other := by
  have same := embedOver_backend runtime.backend internet sent
    (InferenceRuntime.embeddingInputs query documents)
  unfold InferenceRuntime.score
  split
  · exact ⟨rfl, fun _ => Iff.rfl⟩
  · split
    · rename_i outcome
      rw [outcome] at same
      exact ⟨rfl, same⟩
    · rename_i outcome
      rw [outcome] at same
      exact ⟨rfl, same⟩

omit [UrlCrate Url] [TimeCrate] [HttpCrate] in
theorem score_sent (runtime : InferenceRuntime Url) (internet : Internet Url)
    (sent : List (HttpRequest Url)) (query : Query) (documents : List (Document Url)) :
    (runtime.score internet sent query documents).2.2 = sent ∨
      documents.length ≤ runtime.maxDocuments ∧ ∃ remote, runtime.backend = .remote remote ∧
        let batches := chunks remote.maxBatch (InferenceRuntime.embeddingInputs query documents)
        ∃ k ≤ batches.length, (runtime.score internet sent query documents).2.2 =
            sent ++ (batches.take k).flatMap (fun batch =>
              remote.transport.sends (remote.batchRequest batch)) ∧
          ∀ scores, (runtime.score internet sent query documents).1 = .ok scores →
            k = batches.length ∧ scores.length = documents.length := by
  have embedded := embedOver_sent runtime.backend internet sent
    (InferenceRuntime.embeddingInputs query documents)
  unfold InferenceRuntime.score
  split
  · exact .inl rfl
  · rename_i few
    split
    · rename_i outcome
      rw [outcome] at embedded
      rcases embedded with ⟨-, quiet⟩ | ⟨remote, same, k, le, log, -⟩
      · exact .inl quiet
      · exact .inr ⟨Nat.le_of_not_lt few, remote, same, k, le, log, nofun⟩
    · rename_i vectors after sent' outcome
      rw [outcome] at embedded
      rcases embedded with ⟨-, quiet⟩ | ⟨remote, same, k, le, log, all⟩
      · exact .inl quiet
      · refine .inr ⟨Nat.le_of_not_lt few, remote, same, k, le, log, ?_⟩
        intro scores ok
        exact ⟨all vectors rfl, similarities_length ok⟩

omit [UrlCrate Url] [TimeCrate] [HttpCrate] in
/-- A reranker never has a remote backend, and so it sends nothing. -/
theorem rerank_sent (runtime : InferenceRuntime Url) (internet : Internet Url)
    (sent : List (HttpRequest Url)) (query : Query) (documents : List (Document Url))
    (relevance : List F64) :
    (runtime.rerank internet sent query documents relevance).2.2 = sent ∧
      (runtime.rerank internet sent query documents relevance).2.1.maxDocuments =
        runtime.maxDocuments ∧
      ∀ other, (runtime.rerank internet sent query documents relevance).2.1.backend =
        .remote other ↔ runtime.backend = .remote other := by
  unfold InferenceRuntime.rerank
  cases chosen : runtime.reranker with
  | error error => exact ⟨rfl, rfl, fun _ => Iff.rfl⟩
  | ok reranker =>
    cases reranker with
    | lexicalCoverage => exact ⟨rfl, rfl, fun _ => Iff.rfl⟩
    | embedding =>
      have quiet : runtime.backend.isRemote = false := by
        unfold InferenceRuntime.reranker at chosen
        split at chosen
        · cases chosen
        · split at chosen
          · cases chosen
          · rename_i remote
            simp only [Bool.or_eq_true, not_or, Bool.not_eq_true] at remote
            exact remote.1
      have same := embedOver_backend runtime.backend internet sent
        (InferenceRuntime.embeddingInputs query documents)
      have silent : (runtime.backend.embedOver internet sent
          (InferenceRuntime.embeddingInputs query documents)).2.2 = sent := by
        rcases embedOver_sent runtime.backend internet sent
          (InferenceRuntime.embeddingInputs query documents) with ⟨-, silent⟩ | ⟨remote, is, -⟩
        · exact silent
        · rw [is] at quiet
          cases quiet
      simp only [InferenceRuntime.embeddingScore]
      split
      · exact ⟨rfl, rfl, fun _ => Iff.rfl⟩
      · split
        · rename_i outcome
          rw [outcome] at same silent
          exact ⟨silent, rfl, same⟩
        · rename_i outcome
          rw [outcome] at same silent
          exact ⟨silent, rfl, same⟩

omit [UrlCrate Url] [TimeCrate] [HttpCrate] [UnicodeTables] [EmbeddingArithmetic] [SingleFloats]
  [Sha256] in
theorem synthesizeOver_sent (backend : RemoteCompletionBackend Url) (internet : Internet Url)
    (sent : List (HttpRequest Url)) (query : String) (sources : List AnswerSource) :
    (backend.synthesizeOver internet sent query sources).2 = sent ∨
      (backend.synthesizeOver internet sent query sources).2 =
        sent ++ [backend.request systemPrompt (buildUserPrompt query sources)] := by
  have asked : ∀ system user, (backend.complete internet sent system user).2 =
      sent ++ backend.transport.sends (backend.request system user) := by
    intro system user
    rw [← HttpTransport.execute_sent backend.transport internet]
    unfold RemoteCompletionBackend.complete
    split
    · rename_i outcome
      rw [outcome]
    · rename_i outcome
      rw [outcome]
  simp only [RemoteCompletionBackend.synthesizeOver]
  split
  · exact .inl rfl
  · rw [asked, HttpTransport.sends]
    split
    · exact .inl (List.append_nil sent)
    · exact .inr rfl

/-- A call leaves the service what it was, and is accounted for by what it sends. -/
theorem InferenceService.Built.call {service : InferenceService Url} (built : service.Built)
    (internet : Internet Url) (sent : List (HttpRequest Url)) (call : InferenceCall Url) :
    let outcome := service.call internet sent call
    outcome.2.1.Built ∧ outcome.2.1.config = service.config ∧ outcome.2.1.env = service.env ∧
      ∃ requests, outcome.2.2 = sent ++ requests ∧
        (⟨service.config, service.env, call, outcome.1, requests⟩ :
          InferenceDone Url).Governed := by
  have rebuilt : ∀ runtime ∈ service.runtime, ∀ other : InferenceRuntime Url,
      other.maxDocuments = runtime.maxDocuments →
      (∀ backend, other.backend = .remote backend ↔ runtime.backend = .remote backend) →
      ({ service with runtime := some other } : InferenceService Url).Built := by
    intro runtime mem other documents backends
    refine ⟨built.valid, ?_, ?_, built.answers⟩
    · intro chosen same
      cases same
      exact documents.trans (built.documents runtime mem)
    · intro chosen same backend remote
      cases same
      exact built.remote runtime mem backend ((backends backend).mp remote)
  cases call with
  | score query documents =>
    simp only [InferenceService.call]
    cases there : service.runtime with
    | none => exact ⟨built, rfl, rfl, [], (List.append_nil sent).symm, .inl rfl⟩
    | some runtime =>
      obtain ⟨limit, backends⟩ := score_runtime runtime internet sent query documents
      refine ⟨rebuilt runtime there _ limit backends, rfl, rfl, ?_⟩
      rcases score_sent runtime internet sent query documents with
        quiet | ⟨few, remote, is, k, le, log, all⟩
      · exact ⟨[], quiet.trans (List.append_nil sent).symm, .inl rfl⟩
      · obtain ⟨allowed, configured, transport⟩ := built.remote runtime there remote is
        refine ⟨_, log, .inr ⟨allowed, ?_, remote, configured, k, le, ?_, ?_⟩⟩
        · rw [← built.documents runtime there]
          exact few
        · rw [transport]
          exact List.map_eq_flatMap.symm
        · intro scores ok
          cases outcome : (runtime.score internet sent query documents).1 with
          | error error =>
            simp only [outcome] at ok
            cases ok
          | ok given =>
            simp only [outcome] at ok
            cases ok
            exact all _ outcome
  | rerank query documents relevance =>
    simp only [InferenceService.call]
    cases there : service.runtime with
    | none => exact ⟨built, rfl, rfl, [], (List.append_nil sent).symm, rfl⟩
    | some runtime =>
      obtain ⟨quiet, limit, backends⟩ := rerank_sent runtime internet sent query documents relevance
      exact ⟨rebuilt runtime there _ limit backends, rfl, rfl, [],
        quiet.trans (List.append_nil sent).symm, rfl⟩
  | answer rawQuery results =>
    simp only [InferenceService.call]
    cases there : service.answerBackend with
    | none => exact ⟨built, rfl, rfl, [], (List.append_nil sent).symm, .inl rfl⟩
    | some backend =>
      obtain ⟨enabled, configured⟩ := built.answers backend there
      refine ⟨built, rfl, rfl, ?_⟩
      rcases synthesizeOver_sent backend internet sent rawQuery (buildSources results
        service.config.answer.maxSources.toNat service.config.answer.maxSourceChars.toNat) with
        quiet | asked
      · exact ⟨[], quiet.trans (List.append_nil sent).symm, .inl rfl⟩
      · exact ⟨_, asked, .inr ⟨Config.answer_governed built.valid enabled, enabled, backend,
          configured, rfl⟩⟩

structure InferenceSite.Accounted (site : InferenceSite Url) : Prop where
  services : ∀ service ∈ site.services, service.Built
  sent : site.sent = site.done.flatMap (·.requests)
  done : ∀ done ∈ site.done, done.Governed

theorem InferenceSite.step_accounted (site : InferenceSite Url) (event : InferenceEvent Url)
    (next : InferenceSite Url) (accounted : site.Accounted) (h : site.step event = some next) :
    next.Accounted := by
  cases event with
  | reload env models caches clientStarts config =>
    simp only [InferenceSite.step] at h
    split at h
    · cases h
    · rename_i valid
      cases h
      refine ⟨?_, accounted.sent, accounted.done⟩
      intro service mem
      rcases List.mem_append.mp mem with there | here
      · exact accounted.services service there
      · cases List.mem_singleton.mp here
        exact InferenceService.start_built env models caches clientStarts valid
  | call index internet call =>
    simp only [InferenceSite.step] at h
    split at h
    · cases h
    · rename_i service there
      cases h
      have built := accounted.services service (List.mem_of_getElem? there)
      obtain ⟨next, -, -, requests, log, governed⟩ := built.call internet site.sent call
      refine ⟨forall_set accounted.services next, ?_, ?_⟩
      · simp only [log, List.drop_left, List.flatMap_append, List.flatMap_singleton,
          ← accounted.sent]
      · intro done mem
        rcases List.mem_append.mp mem with before | here
        · exact accounted.done done before
        · cases List.mem_singleton.mp here
          rw [log, List.drop_left]
          exact governed

omit [SingleFloats] [Sha256] [UnicodeTables] [EmbeddingArithmetic] in
theorem InferenceSite.empty_accounted : (⟨[], [], []⟩ : InferenceSite Url).Accounted where
  services service mem := by cases mem
  sent := rfl
  done done mem := by cases mem

/-- What an embedding request says of the call: at most a batch of its texts, each cut to the
limit. -/
def InferenceDone.TextsBounded (done : InferenceDone Url) : Prop :=
  ∀ query documents, done.call = .score query documents → ∀ request ∈ done.requests,
    ∀ model inputs, request.body = some (embeddingBody model inputs) →
      done.config.inference.remoteModel = some model ∧ 0 < inputs.length ∧
      inputs.length ≤ 256 ∧ ∀ input ∈ inputs,
        input.length ≤ done.config.inference.maxInputChars.toNat ∧
        ∃ text ∈ InferenceRuntime.embeddingInputs query documents,
          input = bounded text done.config.inference.maxInputChars.toNat

omit [TimeCrate] [HttpCrate] [UnicodeTables] [EmbeddingArithmetic] [SingleFloats] [Sha256] in
theorem InferenceDone.Governed.textsBounded {done : InferenceDone Url} (governed : done.Governed) :
    done.TextsBounded := by
  intro query documents is request sent model inputs body
  simp only [InferenceDone.Governed, is] at governed
  rcases governed with quiet | ⟨-, -, backend, configured, k, le, requests, -⟩
  · rw [quiet] at sent
    cases sent
  · rw [requests] at sent
    obtain ⟨batch, within, rfl⟩ := List.mem_map.mp sent
    obtain ⟨rfl, rfl⟩ := embeddingBody_injective (Option.some.inj body)
    have member := List.mem_of_mem_take within
    obtain ⟨positive, limited⟩ := chunks_sizes configured.batchLimit.1 _ batch member
    rw [← configured.maxInputChars]
    refine ⟨configured.model, by simpa using positive,
      by simpa using limited.trans configured.batchLimit.2, ?_⟩
    intro input there
    obtain ⟨text, inBatch, rfl⟩ := List.mem_map.mp there
    refine ⟨by simp [bounded], text, ?_, rfl⟩
    rw [← flatten_chunks backend.maxBatch (InferenceRuntime.embeddingInputs query documents)]
    exact List.mem_flatten_of_mem member inBatch

/-- Over any configurations, reloads and calls, everything that was sent belongs to a call
whose service was allowed to send it, and says nothing but the texts of the call. -/
theorem InferenceSite.sent_governed (events : List (InferenceEvent Url)) :
    let site : InferenceSite Url := run InferenceSite.step ⟨[], [], []⟩ events
    site.sent = site.done.flatMap (·.requests) ∧
      ∀ done ∈ site.done, done.Governed ∧ done.TextsBounded := by
  intro site
  have accounted : site.Accounted :=
    run_keeps InferenceSite.step_accounted InferenceSite.empty_accounted events
  exact ⟨accounted.sent, fun done mem =>
    ⟨accounted.done done mem, (accounted.done done mem).textsBounded⟩⟩

end

end Amatl
