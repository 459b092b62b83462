import Amatl.Answer
import Amatl.CachedEmbedding
import Amatl.Egress
import Amatl.Lib.Batches
import Amatl.Lib.Json
import Amatl.ProviderResponses
import Amatl.RankingV2
import Amatl.Server.Access

/-! The backends that may leave the machine: embeddings for the ranking, and answers. What
they send is the query and the bounded text that was already retrieved, to the endpoint of
the configuration. -/

namespace Amatl

open Batches UrlCrate

inductive JsonValue where
  | null
  | bool (value : Bool)
  | number (value : F64)
  | string (text : String)
  | array (items : List JsonValue)
  | object (entries : List (String × JsonValue))

namespace JsonValue

def get? (key : String) : JsonValue → Option JsonValue
  | .object entries => OrdMap.get? key entries
  | _ => none

def asArray : JsonValue → Option (List JsonValue)
  | .array items => some items
  | _ => none

def asStr : JsonValue → Option String
  | .string text => some text
  | _ => none

def asF64 : JsonValue → Option F64
  | .number value => some value
  | _ => none

/-- `value[key]`, which is `Null` where there is nothing. -/
def field (value : JsonValue) (key : String) : JsonValue := (value.get? key).getD .null

/-- `value[index]`. -/
def item (value : JsonValue) (index : Nat) : JsonValue :=
  match value.asArray with
  | some items => items.getD index .null
  | none => .null

end JsonValue

structure HttpRequest (Url : Type) where
  url : Url
  headers : List (String × String)
  timeoutMs : UInt64
  body : Option (List Char)

def HttpRequest.postJson {Url : Type} (url : Url) (headers : List (String × String))
    (timeoutMs : UInt64) (body : List Char) : HttpRequest Url where
  url
  headers := headers ++ [("content-type", "application/json")]
  timeoutMs
  body := some body

/-- `ReqwestTransport`, or `DeniedHttpTransport` without egress. -/
inductive HttpTransport where
  | reqwest | denied
  deriving DecidableEq

/-- What comes back for a request, behind the requests that were sent before. -/
abbrev Internet (Url : Type) := List (HttpRequest Url) → HttpRequest Url →
  Option (HttpResponse JsonValue)

def HttpTransport.execute {Url : Type} (transport : HttpTransport) (internet : Internet Url)
    (sent : List (HttpRequest Url)) (request : HttpRequest Url) :
    Option (HttpResponse JsonValue) × List (HttpRequest Url) :=
  match transport with
  | .denied => (none, sent)
  | .reqwest => (internet sent request, sent ++ [request])

/-- Single floats: rounding to one, and square roots. -/
class SingleFloats where
  single : F64 → F64
  squareRoot : F64 → F64

def l2Normalized [SingleFloats] (vector : List F64) : List F64 :=
  let norm := SingleFloats.squareRoot
    ((vector.map (fun value => F64.mul value value)).foldl F64.add (.finite 0))
  if norm = .finite 0 then vector
  else vector.map (fun value => SingleFloats.single (F64.div value norm))

def dot (left right : List F64) : F64 := (List.zipWith F64.mul left right).foldl F64.add (.finite 0)

/-- The keys of an object are in order. -/
def embeddingBody (model : String) (inputs : List String) : List Char :=
  "\x7b\"input\":".toList ++ Json.array (inputs.map String.toList) ++ ",\"model\":".toList ++
    Json.quote model.toList ++ ['\x7d']

def completionBody (model : String) (maxTokens : UInt32) (system user : String) : List Char :=
  let message := fun role content : String => Json.object
    [("content".toList, content.toList), ("role".toList, role.toList)]
  "\x7b\"max_tokens\":".toList ++ (toString maxTokens).toList ++ ",\"messages\":[".toList ++
    message "system" system ++ ',' :: message "user" user ++ "],\"model\":".toList ++
    Json.quote model.toList ++ ",\"temperature\":0.0\x7d".toList

def jsonHeaders (credential : Option String) : List (String × String) :=
  ("accept", "application/json") ::
    (credential.map (fun credential => ("authorization", "Bearer " ++ credential))).toList

section

variable {Url : Type} [UrlCrate Url]

def remoteEndpoint (value : String) : Except InferenceError Url :=
  match (parse value : Option Url), remoteEndpointError Url value with
  | none, _ => .error (.invalidEndpoint "endpoint is not an absolute URL")
  | some _, some reason => .error (.invalidEndpoint reason)
  | some url, none => .ok url

end

/-- The secret that a configuration names. One that is named has to be there. -/
def namedCredential {ε : Type} (unavailable : ε) (env : Environment) :
    Option String → Except ε (Option String)
  | none => .ok none
  | some name =>
    match env name with
    | none => .error unavailable
    | some value => if value = "" then .error unavailable else .ok (some value)

structure RemoteEmbeddingBackend (Url : Type) where
  endpoint : Url
  model : String
  credential : Option String
  dimensions : Nat
  maxBatch : Nat
  maxInputChars : Nat
  timeoutMs : UInt64
  transport : HttpTransport

namespace RemoteEmbeddingBackend

variable {Url : Type}

section

variable [UrlCrate Url]

def withCredential (config : InferenceConfig) (transport : HttpTransport)
    (credential : Option String) : Except InferenceError (RemoteEmbeddingBackend Url) :=
  match config.remoteEndpoint with
  | none => .error .remoteBackendUnavailable
  | some value =>
    match remoteEndpoint value with
    | .error error => .error error
    | .ok endpoint =>
      if credential = some "" then .error .remoteBackendUnavailable
      else
        match config.remoteModel with
        | none => .error .remoteBackendUnavailable
        | some model => .ok
          { endpoint, model, credential
            dimensions := config.embeddingDimensions.toNat
            maxBatch := config.remoteMaxBatch.toNat
            maxInputChars := config.maxInputChars.toNat
            timeoutMs := config.remoteTimeoutMs
            transport }

def limitsRefused (config : InferenceConfig) : Bool :=
  outside 32 4096 config.embeddingDimensions || config.maxInputChars == 0 ||
    config.maxDocuments == 0 || outside 1 256 config.remoteMaxBatch ||
    outside 100 60000 config.remoteTimeoutMs

def new (env : Environment) (config : InferenceConfig) (transport : HttpTransport) :
    Except InferenceError (RemoteEmbeddingBackend Url) :=
  if limitsRefused config then .error .invalidLimit
  else
    match namedCredential .remoteBackendUnavailable env config.remoteCredentialEnv with
    | .error error => .error error
    | .ok credential => withCredential config transport credential

end

variable [SingleFloats]

def parseVector (dimensions : Nat) (entry : JsonValue) : Except InferenceError (List F64) :=
  match (entry.get? "embedding").bind JsonValue.asArray with
  | none => .error .remoteResponseInvalid
  | some vector =>
    if vector.length ≠ dimensions then .error .remoteResponseInvalid
    else
      match vector.mapM (fun value =>
          (value.asF64.filter F64.isFinite).map SingleFloats.single) with
      | none => .error .remoteResponseInvalid
      | some vector => .ok (l2Normalized vector)

def parseVectors (dimensions : Nat) : List JsonValue → Except InferenceError (List (List F64))
  | [] => .ok []
  | entry :: entries =>
    match parseVector dimensions entry, parseVectors dimensions entries with
    | .ok vector, .ok vectors => .ok (vector :: vectors)
    | _, _ => .error .remoteResponseInvalid

def parseEmbeddingResponse (body : DecodedBody JsonValue) (expected dimensions : Nat) :
    Except InferenceError (List (List F64)) :=
  match body with
  | .decoded payload =>
    match (payload.get? "data").bind JsonValue.asArray with
    | none => .error .remoteResponseInvalid
    | some data =>
      if data.length ≠ expected then .error .remoteResponseInvalid
      else parseVectors dimensions data
  | _ => .error .remoteResponseInvalid

variable (backend : RemoteEmbeddingBackend Url) (internet : Internet Url)

omit [SingleFloats] in
def batchRequest (batch : List String) : HttpRequest Url :=
  .postJson backend.endpoint (jsonHeaders backend.credential) backend.timeoutMs
    (embeddingBody backend.model (batch.map (fun input => bounded input backend.maxInputChars)))

def embedBatch (sent : List (HttpRequest Url)) (batch : List String) :
    Except InferenceError (List (List F64)) × List (HttpRequest Url) :=
  match backend.transport.execute internet sent (backend.batchRequest batch) with
  | (none, sent) => (.error .remoteRequestFailed, sent)
  | (some response, sent) =>
    (if response.status ≠ 200 then .error .remoteRequestFailed
     else parseEmbeddingResponse response.body batch.length backend.dimensions, sent)

def embed (sent : List (HttpRequest Url)) (inputs : List String) :
    Except InferenceError (List (List F64)) × List (HttpRequest Url) :=
  if inputs.isEmpty then (.ok [], sent)
  else
    match sendAll (backend.embedBatch internet) sent (chunks backend.maxBatch inputs) with
    | (.error error, sent) => (.error error, sent)
    | (.ok vectors, sent) =>
      if vectors.length ≠ inputs.length then (.error .remoteResponseInvalid, sent)
      else (.ok vectors, sent)

end RemoteEmbeddingBackend

structure RemoteCompletionBackend (Url : Type) where
  endpoint : Url
  model : String
  credential : Option String
  timeoutMs : UInt64
  maxAnswerTokens : UInt32
  transport : HttpTransport

namespace RemoteCompletionBackend

variable {Url : Type}

section

variable [UrlCrate Url]

def withCredential (config : AnswerConfig) (transport : HttpTransport)
    (credential : Option String) : Except AnswerError (RemoteCompletionBackend Url) :=
  match config.endpoint with
  | none => .error .invalidEndpoint
  | some value =>
    match (remoteEndpoint value : Except InferenceError Url) with
    | .error _ => .error .invalidEndpoint
    | .ok endpoint =>
      if credential = some "" then .error .backendUnavailable
      else
        match config.model with
        | none => .error .backendUnavailable
        | some model => .ok
          { endpoint, model, credential
            timeoutMs := config.timeoutMs
            maxAnswerTokens := config.maxAnswerTokens
            transport }

def new (env : Environment) (config : AnswerConfig) (transport : HttpTransport) :
    Except AnswerError (RemoteCompletionBackend Url) :=
  match namedCredential .backendUnavailable env config.credentialEnv with
  | .error error => .error error
  | .ok credential => withCredential config transport credential

end

variable (backend : RemoteCompletionBackend Url) (internet : Internet Url)

def request (system user : String) : HttpRequest Url :=
  .postJson backend.endpoint (jsonHeaders backend.credential) backend.timeoutMs
    (completionBody backend.model backend.maxAnswerTokens system user)

def complete (sent : List (HttpRequest Url)) (system user : String) :
    Except AnswerError (List Char) × List (HttpRequest Url) :=
  match backend.transport.execute internet sent (backend.request system user) with
  | (none, sent) => (.error .requestFailed, sent)
  | (some response, sent) =>
    (if response.status ≠ 200 then .error .requestFailed
     else
      match response.body with
      | .decoded parsed =>
        match ((((parsed.field "choices").item 0).field "message").field "content").asStr with
        | some content => .ok content.toList
        | none => .error .responseInvalid
      | _ => .error .responseInvalid, sent)

/-- A model is asked only when there are sources, and once. -/
def synthesizeOver (sent : List (HttpRequest Url)) (query : String) (sources : List AnswerSource) :
    Except AnswerError Answer × List (HttpRequest Url) :=
  let asked :=
    if sources.isEmpty then (.error .noSources, sent)
    else backend.complete internet sent systemPrompt (buildUserPrompt query sources)
  (synthesize ⟨fun _ _ => asked.1, backend.model⟩ query sources, asked.2)

end RemoteCompletionBackend

end Amatl
