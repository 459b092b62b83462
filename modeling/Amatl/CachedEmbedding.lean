import Amatl.Config.Inference
import Amatl.EmbeddingCache
import Amatl.FoldText

/-! Embedding backends and the cache in front of the local ones. A backend is built from the
configuration, the model file and the cache file as they are at that time. -/

namespace Amatl

open Text

inductive InferenceError where
  | remoteBackendUnavailable
  | unknownBackend (backend : String)
  | invalidLimit
  | invalidEndpoint (reason : String)
  | remoteRequestFailed
  | remoteResponseInvalid
  | modelUnavailable
  | backendContractViolation
  deriving DecidableEq, Repr

/-- The arithmetic of single floats in the local embedders. -/
class EmbeddingArithmetic where
  /-- `str::parse::<f32>` -/
  parseFloat : List Char → Option F64
  /-- The signed hash of features with their frequency, normalized. -/
  hashed : Nat → List (String × ℚ) → List F64
  /-- The sum of word vectors with their counts, normalized. -/
  summed : Nat → List (List F64 × Nat) → List F64

/-- The governed remote backend: how it is built, and what it answers. -/
class RemoteEmbeddings (R : Type) where
  build : InferenceConfig → Except InferenceError R
  embed : R → List String → Except InferenceError (List (List F64))

def maxLocalModelBytes : Nat := 512 * 1024 * 1024

inductive LocalEmbedder where
  | hashing (dimensions maxInputChars : Nat)
  | model (dimensions maxInputChars : Nat) (vectors : List (String × List F64))
  deriving DecidableEq

namespace LocalEmbedder

def id : LocalEmbedder → String
  | .hashing _ _ => localEmbeddingBackendId
  | .model _ _ _ => localModelBackendId

def dimensions : LocalEmbedder → Nat
  | .hashing dimensions _ => dimensions
  | .model dimensions _ _ => dimensions

def spaceName (inner : LocalEmbedder) : String := inner.id ++ "@" ++ toString inner.dimensions

end LocalEmbedder

def limitsHold (dimensions maxInputChars : Nat) : Bool :=
  32 ≤ dimensions && dimensions ≤ 4096 && maxInputChars != 0

section

variable [UnicodeTables] [EmbeddingArithmetic]

def boundedInput (value : String) (maxChars : Nat) : List Char := value.toList.take maxChars

def embeddingTerms (value : List Char) : List String :=
  ((splitBy (fun c => !UnicodeTables.isAlphanumeric c) (normalizedText value)).filter
    (fun token => !token.isEmpty)).map String.ofList

def addWeight (weight : ℚ) (weights : List (String × ℚ)) (feature : String) : List (String × ℚ) :=
  OrdMap.upsert feature (fun found => found.getD 0 + weight) weights

def LocalEmbedder.vectorOf (inner : LocalEmbedder) (input : String) : List F64 :=
  match inner with
  | .hashing dimensions maxInputChars =>
    let tokens := embeddingTerms (boundedInput input maxInputChars)
    let pairs := (tokens.zip tokens.tail).map (fun pair => pair.1 ++ " " ++ pair.2)
    EmbeddingArithmetic.hashed dimensions
      (pairs.foldl (addWeight (1 / 2)) (tokens.foldl (addWeight 1) []))
  | .model dimensions maxInputChars vectors =>
    let tokens := embeddingTerms (boundedInput input maxInputChars)
    let counts := tokens.foldl (fun counts token =>
      OrdMap.upsert token (fun found => found.getD 0 + 1) counts) []
    let known := counts.filterMap (fun e => (OrdMap.get? e.1 vectors).map (fun v => (v, e.2)))
    if known.isEmpty then List.replicate dimensions (.finite 0)
    else EmbeddingArithmetic.summed dimensions known

def LocalEmbedder.embed (inner : LocalEmbedder) (inputs : List String) :
    Except InferenceError (List (List F64)) :=
  .ok (inputs.map inner.vectorOf)

/-- One line of a model file: a token and its numbers, which have to fill the width. -/
def modelLine (dimensions : Nat) (vectors : List (String × List F64)) (line : List Char) :
    Option (List (String × List F64)) :=
  match splitWhitespace (trim line) with
  | [] => some vectors
  | token :: fields =>
    if token.head? == some '#' then some vectors
    else
      match fields.mapM EmbeddingArithmetic.parseFloat with
      | none => none
      | some vector =>
        if vector.length = dimensions then
          some (OrdMap.insert (String.ofList token) vector vectors)
        else none

/-- `none` is a file that is missing or no text. -/
def LocalEmbedder.load (file : Option String) (dimensions maxInputChars : Nat) :
    Except InferenceError LocalEmbedder :=
  if !limitsHold dimensions maxInputChars then .error .invalidLimit
  else
    match file with
    | none => .error .modelUnavailable
    | some text =>
      if maxLocalModelBytes < utf8Length text.toList then .error .modelUnavailable
      else
        match (lines text.toList).foldlM (modelLine dimensions) [] with
        | none => .error .modelUnavailable
        | some [] => .error .modelUnavailable
        | some vectors => .ok (.model dimensions maxInputChars vectors)

/-- What embeds: a local embedder, with or without a cache, or the remote backend. -/
inductive EmbeddingBackend (R : Type) where
  | plain (inner : LocalEmbedder)
  | cached (inner : LocalEmbedder) (cache : EmbeddingCache)
  | remote (backend : R)

variable {R : Type}

def localEmbedder (models : String → Option String) (config : InferenceConfig) :
    Except InferenceError LocalEmbedder :=
  let dimensions := config.embeddingDimensions.toNat
  let maxInputChars := config.maxInputChars.toNat
  if config.backend = localEmbeddingBackendId then
    if limitsHold dimensions maxInputChars then .ok (.hashing dimensions maxInputChars)
    else .error .invalidLimit
  else if config.backend = localModelBackendId then
    match config.localModelPath with
    | none => .error .modelUnavailable
    | some path => LocalEmbedder.load (models path) dimensions maxInputChars
  else .error (.unknownBackend config.backend)

def localBackend (models : String → Option String) (caches : String → CacheFile)
    (config : InferenceConfig) : Except InferenceError (EmbeddingBackend R) :=
  if config.maxDocuments = 0 then .error .invalidLimit
  else
    match localEmbedder models config with
    | .error error => .error error
    | .ok inner =>
      match config.localCachePath with
      | none => .ok (.plain inner)
      | some path => .ok (.cached inner (.load path (caches path) inner.spaceName
          (max config.localCacheCapacity.toNat 1 * 64)))

/-- There is no backend where inference is switched off. -/
def backendFromPolicy [RemoteEmbeddings R] (models : String → Option String)
    (caches : String → CacheFile) (policy : DataPolicyConfig) (config : InferenceConfig) :
    Except InferenceError (Option (EmbeddingBackend R)) :=
  match policy.inference with
  | .disabled => .ok none
  | .localOnly => (localBackend models caches config).map some
  | .remoteExplicit =>
    if !policy.allowsRemoteInference then .error .remoteBackendUnavailable
    else (RemoteEmbeddings.build config).map (fun backend => some (.remote backend))

/-! The cache in front of a backend. -/

section

variable [Sha256]

def lookUpAll : List String → EmbeddingCache → List (Option (List F64)) × EmbeddingCache
  | [], cache => ([], cache)
  | input :: inputs, cache =>
    let rest := lookUpAll inputs (cache.get input).2
    ((cache.get input).1 :: rest.1, rest.2)

def missingInputs (inputs : List String) (found : List (Option (List F64))) : List String :=
  ((inputs.zip found).filter (fun e => e.2.isNone)).map Prod.fst

def fillIn : List (Option (List F64)) → List (List F64) → List (Option (List F64))
  | [], _ => []
  | some vector :: found, computed => some vector :: fillIn found computed
  | none :: found, vector :: computed => some vector :: fillIn found computed
  | none :: found, [] => none :: fillIn found []

def collectVectors (result : List (Option (List F64))) :
    Except InferenceError (List (List F64)) :=
  match result.mapM id with
  | none => .error .backendContractViolation
  | some vectors => .ok vectors

def embedCached (inner : List String → Except InferenceError (List (List F64)))
    (cache : EmbeddingCache) (inputs : List String) :
    Except InferenceError (List (List F64)) × EmbeddingCache :=
  let found := lookUpAll inputs cache
  let missing := missingInputs inputs found.1
  if missing.isEmpty then (collectVectors found.1, found.2)
  else
    match inner missing with
    | .error error => (.error error, found.2)
    | .ok computed =>
      if computed.length ≠ missing.length then (.error .backendContractViolation, found.2)
      else (collectVectors (fillIn found.1 computed),
        (missing.zip computed).foldl (fun cache e => cache.insert e.1 e.2) found.2)

/-! The host of the backends: its files, and the backends that are in use. A configuration builds a
new backend, the former one goes when its last call has ended. -/

structure EmbeddingHost (R : Type) where
  models : String → Option String
  caches : String → CacheFile
  live : List (EmbeddingBackend R)

inductive HostEvent where
  | configure (policy : DataPolicyConfig) (config : InferenceConfig)
  | embed (index : Nat) (inputs : List String)
  /-- A backend is dropped, which saves its cache if the file can be written. -/
  | release (index : Nat) (isWritten : Bool)
  /-- The process ends without that. -/
  | kill
  | replaceModel (path : String) (file : Option String)

def EmbeddingBackend.embed [RemoteEmbeddings R] (inputs : List String) :
    EmbeddingBackend R →
      Except InferenceError (List (List F64)) × EmbeddingBackend R
  | .plain inner => (inner.embed inputs, .plain inner)
  | .cached inner cache =>
    let result := embedCached inner.embed cache inputs
    (result.1, .cached inner result.2)
  | .remote backend => (RemoteEmbeddings.embed backend inputs, .remote backend)

def EmbeddingBackend.innerEmbed [RemoteEmbeddings R] (inputs : List String) :
    EmbeddingBackend R → Except InferenceError (List (List F64))
  | .plain inner => inner.embed inputs
  | .cached inner _ => inner.embed inputs
  | .remote backend => RemoteEmbeddings.embed backend inputs

/-- The cache files behind a drop of the backend. -/
def EmbeddingBackend.saveTo (caches : String → CacheFile) (isWritten : Bool) :
    EmbeddingBackend R → String → CacheFile
  | .cached _ cache => if isWritten then Function.update caches cache.path cache.saved else caches
  | .plain _ => caches
  | .remote _ => caches

def EmbeddingHost.step [RemoteEmbeddings R] (h : EmbeddingHost R) :
    HostEvent → EmbeddingHost R × Option (Except InferenceError (List (List F64)))
  | .configure policy config =>
    match backendFromPolicy h.models h.caches policy config with
    | .ok (some backend) => ({ h with live := h.live ++ [backend] }, none)
    | .ok none => (h, none)
    | .error _ => (h, none)
  | .embed index inputs =>
    match h.live[index]? with
    | none => (h, none)
    | some backend =>
      let result := backend.embed inputs
      ({ h with live := h.live.set index result.2 }, some result.1)
  | .release index isWritten =>
    match h.live[index]? with
    | none => (h, none)
    | some backend =>
      ({ h with caches := backend.saveTo h.caches isWritten, live := h.live.eraseIdx index }, none)
  | .kill => ({ h with live := [] }, none)
  | .replaceModel path file => ({ h with models := Function.update h.models path file }, none)

def EmbeddingHost.run [RemoteEmbeddings R] (h : EmbeddingHost R)
    (events : List HostEvent) : EmbeddingHost R :=
  events.foldl (fun h event => (h.step event).1) h

end

end

end Amatl
