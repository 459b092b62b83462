import Amatl.RemoteInference

/-! The calls of inference, over the life of the services that configurations build: scores and
answers, through a backend that is local or remote. -/

namespace Amatl

open UrlCrate

structure InferenceRuntime (Url : Type) where
  backend : EmbeddingBackend (RemoteEmbeddingBackend Url)
  maxDocuments : Nat
  rerankerPriorWeight : F64

namespace EmbeddingBackend

variable {Url : Type}

def isRemote : EmbeddingBackend (RemoteEmbeddingBackend Url) → Bool
  | .remote _ => true
  | _ => false

def id : EmbeddingBackend (RemoteEmbeddingBackend Url) → String
  | .plain inner | .cached inner _ => inner.id
  | .remote _ => "remote_embeddings_v1"

variable [UnicodeTables] [EmbeddingArithmetic] [SingleFloats] [Sha256]

def embedOver (backend : EmbeddingBackend (RemoteEmbeddingBackend Url)) (internet : Internet Url)
    (sent : List (HttpRequest Url)) (inputs : List String) :
    Except InferenceError (List (List F64)) ×
      EmbeddingBackend (RemoteEmbeddingBackend Url) × List (HttpRequest Url) :=
  match backend with
  | .plain inner => (inner.embed inputs, .plain inner, sent)
  | .cached inner cache =>
    let result := embedCached inner.embed cache inputs
    (result.1, .cached inner result.2, sent)
  | .remote backend =>
    let result := backend.embed internet sent inputs
    (result.1, .remote backend, result.2)

end EmbeddingBackend

namespace InferenceRuntime

variable {Url : Type}

section

variable [UrlCrate Url] [UnicodeTables] [EmbeddingArithmetic]

/-- The mode alone never authorizes egress. -/
def fromPolicy (env : Environment) (models : String → Option String) (caches : String → CacheFile)
    (policy : DataPolicyConfig) (config : InferenceConfig) (transport : Option HttpTransport) :
    Except InferenceError (Option (InferenceRuntime Url)) :=
  let runtime := fun backend : EmbeddingBackend (RemoteEmbeddingBackend Url) =>
    some (⟨backend, config.maxDocuments.toNat, config.rerankerPriorWeight⟩ : InferenceRuntime Url)
  match policy.inference with
  | .disabled => .ok none
  | .localOnly => (localBackend models caches config).map runtime
  | .remoteExplicit =>
    if !policy.allowsRemoteInference then .error .remoteBackendUnavailable
    else
      match transport with
      | none => .error .remoteBackendUnavailable
      | some transport =>
        (RemoteEmbeddingBackend.new env config transport).map (fun backend =>
          runtime (.remote backend))

end

def documentText (document : Document Url) : String :=
  document.title.getD "" ++ " " ++ document.content.getD ""

/-- The query, and then the documents. -/
def embeddingInputs (query : Query) (documents : List (Document Url)) : List String :=
  query.normalizedQuery :: documents.map documentText

def similarities (vectors : List (List F64)) (expected : Nat) :
    Except RankingV2Error (List F64) :=
  match vectors with
  | [] => .error .backend
  | query :: documents =>
    if documents.length ≠ expected then .error .backend
    else .ok (documents.map (fun vector => RankingV2.unitClamp (dot query vector)))

/-- The prior keeps its share. -/
def withPrior (priorWeight score prior : F64) : F64 :=
  RankingV2.unitClamp (F64.add
    (F64.mul (F64.add (.finite 1) (F64.mul (.finite (-1)) priorWeight)) score)
    (F64.mul priorWeight prior))

inductive Reranker where
  | lexicalCoverage | embedding
  deriving DecidableEq

variable (runtime : InferenceRuntime Url)

/-- A remote backend never reranks. -/
def reranker : Except InferenceError Reranker :=
  if runtime.maxDocuments = 0 ∨ !F64.within (.finite 0) (.finite 1) runtime.rerankerPriorWeight then
    .error .invalidLimit
  else if runtime.backend.isRemote || runtime.backend.id == localEmbeddingBackendId then
    .ok .lexicalCoverage
  else .ok .embedding

variable [UnicodeTables]

def coverage (query : Query) (document : Document Url) : F64 :=
  let queryTerms := tokens query.normalizedQuery.toList
  if queryTerms.isEmpty then .finite 0
  else
    let documentTerms := tokens (documentText document).toList
    .finite ((queryTerms.filter documentTerms.contains).length / queryTerms.length)

def lexicalScore (query : Query) (documents : List (Document Url)) (relevance : List F64) :
    Except RankingV2Error (List F64) :=
  if runtime.maxDocuments < documents.length ∨ relevance.length ≠ documents.length then
    .error .backend
  else .ok (List.zipWith (fun document prior =>
    withPrior runtime.rerankerPriorWeight (coverage query document) prior) documents relevance)

variable [EmbeddingArithmetic] [SingleFloats] [Sha256] (internet : Internet Url)
  (sent : List (HttpRequest Url))

/-- `EmbeddingSemanticScorer`. -/
def score (query : Query) (documents : List (Document Url)) :
    Except RankingV2Error (List F64) × InferenceRuntime Url × List (HttpRequest Url) :=
  if runtime.maxDocuments < documents.length then (.error .backend, runtime, sent)
  else
    match runtime.backend.embedOver internet sent (embeddingInputs query documents) with
    | (.error _, backend, sent) => (.error .backend, { runtime with backend }, sent)
    | (.ok vectors, backend, sent) =>
      (similarities vectors documents.length, { runtime with backend }, sent)

/-- `EmbeddingReranker`, which falls back to the words when its backend fails. -/
def embeddingScore (query : Query) (documents : List (Document Url)) (relevance : List F64) :
    Except RankingV2Error (List F64) × InferenceRuntime Url × List (HttpRequest Url) :=
  if runtime.maxDocuments < documents.length ∨ relevance.length ≠ documents.length then
    (.error .backend, runtime, sent)
  else
    match runtime.backend.embedOver internet sent (embeddingInputs query documents) with
    | (.error _, backend, sent) =>
      (runtime.lexicalScore query documents relevance, { runtime with backend }, sent)
    | (.ok vectors, backend, sent) =>
      ((similarities vectors documents.length).map (fun scores =>
        List.zipWith (withPrior runtime.rerankerPriorWeight) scores relevance),
        { runtime with backend }, sent)

/-- `InferenceUnavailable` where there is no reranker is an error of the service. -/
def rerank (query : Query) (documents : List (Document Url)) (relevance : List F64) :
    Except RankingV2Error (List F64) × InferenceRuntime Url × List (HttpRequest Url) :=
  match runtime.reranker with
  | .error _ => (.error .backend, runtime, sent)
  | .ok .lexicalCoverage => (runtime.lexicalScore query documents relevance, runtime, sent)
  | .ok .embedding => runtime.embeddingScore internet sent query documents relevance

end InferenceRuntime

/-- A service, as inference sees it. -/
structure InferenceService (Url : Type) where
  config : Config
  env : Environment
  runtime : Option (InferenceRuntime Url)
  answerBackend : Option (RemoteCompletionBackend Url)

inductive InferenceCall (Url : Type) where
  | score (query : Query) (documents : List (Document Url))
  | rerank (query : Query) (documents : List (Document Url)) (relevance : List F64)
  | answer (rawQuery : String) (results : List (SearchResult Url))

inductive InferenceAnswer where
  | scores (result : Except RankingV2Error (List F64))
  | answer (result : Except AnswerError Answer)

namespace InferenceService

variable {Url : Type} [UrlCrate Url] [UnicodeTables] [EmbeddingArithmetic]

/-- The HTTP client may fail to start. -/
def start (env : Environment) (models : String → Option String) (caches : String → CacheFile)
    (clientStarts : Bool) (config : Config) : InferenceService Url :=
  let transport : Option HttpTransport :=
    if config.dataPolicy.allowsNetworkEgress then if clientStarts then some .reqwest else none
    else some .denied
  { config, env
    runtime :=
      match InferenceRuntime.fromPolicy env models caches config.dataPolicy config.inference
          transport with
      | .ok runtime => runtime
      | .error _ => none
    answerBackend :=
      if config.answer.enabled then
        transport.bind (fun transport =>
          (RemoteCompletionBackend.new env config.answer transport).toOption)
      else none }

variable [SingleFloats] [Sha256]

/-- What a call answers, what it makes of the service, and the requests behind it. -/
def call (service : InferenceService Url) (internet : Internet Url)
    (sent : List (HttpRequest Url)) :
    InferenceCall Url → InferenceAnswer × InferenceService Url × List (HttpRequest Url)
  | .score query documents =>
    match service.runtime with
    | none => (.scores (.error .backend), service, sent)
    | some runtime =>
      let (result, runtime, sent) := runtime.score internet sent query documents
      (.scores result, { service with runtime := some runtime }, sent)
  | .rerank query documents relevance =>
    match service.runtime with
    | none => (.scores (.error .backend), service, sent)
    | some runtime =>
      let (result, runtime, sent) := runtime.rerank internet sent query documents relevance
      (.scores result, { service with runtime := some runtime }, sent)
  | .answer rawQuery results =>
    match service.answerBackend with
    | none => (.answer (.error .backendUnavailable), service, sent)
    | some backend =>
      let sources := buildSources results service.config.answer.maxSources.toNat
        service.config.answer.maxSourceChars.toNat
      let (result, sent) := backend.synthesizeOver internet sent rawQuery sources
      (.answer result, service, sent)

end InferenceService

/-- A call that is done: under which configuration and secrets, and the requests it sent. -/
structure InferenceDone (Url : Type) where
  config : Config
  env : Environment
  call : InferenceCall Url
  answer : InferenceAnswer
  requests : List (HttpRequest Url)

/-- The services that were started. Calls go on with the service they began with. -/
structure InferenceSite (Url : Type) where
  services : List (InferenceService Url)
  sent : List (HttpRequest Url)
  done : List (InferenceDone Url)

inductive InferenceEvent (Url : Type) where
  | reload (env : Environment) (models : String → Option String) (caches : String → CacheFile)
    (clientStarts : Bool) (config : Config)
  | call (index : Nat) (internet : Internet Url) (call : InferenceCall Url)

section

variable {Url : Type} [UrlCrate Url] [TimeCrate] [HttpCrate] [UnicodeTables]
  [EmbeddingArithmetic] [SingleFloats] [Sha256]

/-- Only a valid configuration builds a service. -/
def InferenceSite.step (site : InferenceSite Url) : InferenceEvent Url → Option (InferenceSite Url)
  | .reload env models caches clientStarts config =>
    match config.validate Url with
    | .error _ => none
    | .ok () =>
      some { site with
        services := site.services ++ [.start env models caches clientStarts config] }
  | .call index internet call =>
    match site.services[index]? with
    | none => none
    | some service =>
      let (answer, service', sent) := service.call internet site.sent call
      some
        { services := site.services.set index service'
          sent
          done := site.done ++
            [⟨service.config, service.env, call, answer, sent.drop site.sent.length⟩] }

end

theorem similarities_length {vectors : List (List F64)} {expected : Nat} {scores : List F64}
    (h : InferenceRuntime.similarities vectors expected = .ok scores) :
    scores.length = expected := by
  unfold InferenceRuntime.similarities at h
  split at h
  · cases h
  · split at h
    · cases h
    · rename_i fits
      cases h
      rw [List.length_map, not_not.mp fits]

end Amatl
