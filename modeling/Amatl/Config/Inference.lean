import Amatl.Lib.TomlEdit

/-! The sections `[data_policy]`, `[inference]`, `[answer]` and `[expansion]`. -/

namespace Amatl

open Toml

inductive SecurityProfile where
  | standard | isolated
  deriving DecidableEq, Repr

def SecurityProfile.asStr : SecurityProfile → String
  | .standard => "standard"
  | .isolated => "isolated"

def SecurityProfile.names : List (String × SecurityProfile) :=
  [("standard", .standard), ("isolated", .isolated)]

inductive EgressPolicy where
  | deny | governed
  deriving DecidableEq, Repr

def EgressPolicy.asStr : EgressPolicy → String
  | .deny => "deny"
  | .governed => "governed"

def EgressPolicy.names : List (String × EgressPolicy) := [("deny", .deny), ("governed", .governed)]

inductive InferenceMode where
  | disabled | localOnly | remoteExplicit
  deriving DecidableEq, Repr

def InferenceMode.asStr : InferenceMode → String
  | .disabled => "disabled"
  | .localOnly => "local_only"
  | .remoteExplicit => "remote_explicit"

def InferenceMode.names : List (String × InferenceMode) :=
  [("disabled", .disabled), ("local_only", .localOnly), ("remote_explicit", .remoteExplicit)]

structure DataPolicyConfig where
  profile : SecurityProfile
  egress : EgressPolicy
  inference : InferenceMode
  deriving DecidableEq

def DataPolicyConfig.default : DataPolicyConfig where
  profile := .standard
  egress := .governed
  inference := .disabled

def DataPolicyConfig.fields : List (RecordField DataPolicyConfig) :=
  [field "profile" (variant Node.isUnit SecurityProfile.names) (·.profile)
     (fun v c => { c with profile := v }),
   field "egress" (variant Node.isUnit EgressPolicy.names) (·.egress)
     (fun v c => { c with egress := v }),
   field "inference" (variant Node.isUnit InferenceMode.names) (·.inference)
     (fun v c => { c with inference := v })]

theorem DataPolicyConfig.lawful : Lawful DataPolicyConfig.fields := by
  constructor
  · simp [DataPolicyConfig.fields, field]
  · simp [DataPolicyConfig.fields, RecordField.apart_field]
  · rintro ⟨⟩ ⟨⟩
    simp [DataPolicyConfig.fields, field]

def DataPolicyConfig.allowsRemoteInference (policy : DataPolicyConfig) : Bool :=
  policy.profile != .isolated && policy.egress == .governed && policy.inference == .remoteExplicit

def localEmbeddingBackendId : String := "local_hashing_v1"

def localModelBackendId : String := "local_model_v1"

structure InferenceConfig where
  backend : String
  embeddingDimensions : UInt64
  maxDocuments : UInt64
  maxInputChars : UInt64
  rerankerPriorWeight : F64
  localModelPath : Option String
  localCacheCapacity : UInt64
  localCachePath : Option String
  remoteEndpoint : Option String
  remoteModel : Option String
  remoteCredentialEnv : Option String
  remoteTimeoutMs : UInt64
  remoteMaxBatch : UInt64
  deriving DecidableEq

def InferenceConfig.default : InferenceConfig where
  backend := localEmbeddingBackendId
  embeddingDimensions := 256
  maxDocuments := 64
  maxInputChars := 20000
  rerankerPriorWeight := .finite (1 / 2)
  localModelPath := none
  localCacheCapacity := 32
  localCachePath := none
  remoteEndpoint := none
  remoteModel := none
  remoteCredentialEnv := none
  remoteTimeoutMs := 5000
  remoteMaxBatch := 32

/-- The capacity is still read under the name it had before. -/
def InferenceConfig.cacheCapacityField : RecordField InferenceConfig :=
  { field "local_cache_capacity" uint64 (·.localCacheCapacity)
      (fun v c => { c with localCacheCapacity := v }) with
    alternative := some "local_model_batch" }

def InferenceConfig.fields : List (RecordField InferenceConfig) :=
  [field "backend" text (·.backend) (fun v c => { c with backend := v }),
   field "embedding_dimensions" uint64 (·.embeddingDimensions)
     (fun v c => { c with embeddingDimensions := v }),
   field "max_documents" uint64 (·.maxDocuments) (fun v c => { c with maxDocuments := v }),
   field "max_input_chars" uint64 (·.maxInputChars) (fun v c => { c with maxInputChars := v }),
   field "reranker_prior_weight" number (·.rerankerPriorWeight)
     (fun v c => { c with rerankerPriorWeight := v }),
   field "local_model_path" (optional text) (·.localModelPath)
     (fun v c => { c with localModelPath := v }),
   InferenceConfig.cacheCapacityField,
   field "local_cache_path" (optional text) (·.localCachePath)
     (fun v c => { c with localCachePath := v }),
   field "remote_endpoint" (optional text) (·.remoteEndpoint)
     (fun v c => { c with remoteEndpoint := v }),
   field "remote_model" (optional text) (·.remoteModel) (fun v c => { c with remoteModel := v }),
   field "remote_credential_env" (optional text) (·.remoteCredentialEnv)
     (fun v c => { c with remoteCredentialEnv := v }),
   field "remote_timeout_ms" uint64 (·.remoteTimeoutMs)
     (fun v c => { c with remoteTimeoutMs := v }),
   field "remote_max_batch" uint64 (·.remoteMaxBatch) (fun v c => { c with remoteMaxBatch := v })]

theorem InferenceConfig.lawful : Lawful InferenceConfig.fields := by
  constructor
  · simp [InferenceConfig.fields, InferenceConfig.cacheCapacityField, field]
  · simp only [InferenceConfig.fields, InferenceConfig.cacheCapacityField, field,
      RecordField.apart_iff, List.pairwise_cons, List.forall_mem_cons]
    simp
  · rintro ⟨⟩ ⟨⟩
    simp [InferenceConfig.fields, InferenceConfig.cacheCapacityField, field]

structure AnswerConfig where
  enabled : Bool
  endpoint : Option String
  model : Option String
  credentialEnv : Option String
  timeoutMs : UInt64
  maxSources : UInt64
  maxSourceChars : UInt64
  maxAnswerTokens : UInt32
  deriving DecidableEq

def AnswerConfig.default : AnswerConfig where
  enabled := false
  endpoint := none
  model := none
  credentialEnv := none
  timeoutMs := 20000
  maxSources := 8
  maxSourceChars := 1200
  maxAnswerTokens := 700

def AnswerConfig.fields : List (RecordField AnswerConfig) :=
  [field "enabled" flag (·.enabled) (fun v c => { c with enabled := v }),
   field "endpoint" (optional text) (·.endpoint) (fun v c => { c with endpoint := v }),
   field "model" (optional text) (·.model) (fun v c => { c with model := v }),
   field "credential_env" (optional text) (·.credentialEnv)
     (fun v c => { c with credentialEnv := v }),
   field "timeout_ms" uint64 (·.timeoutMs) (fun v c => { c with timeoutMs := v }),
   field "max_sources" uint64 (·.maxSources) (fun v c => { c with maxSources := v }),
   field "max_source_chars" uint64 (·.maxSourceChars) (fun v c => { c with maxSourceChars := v }),
   field "max_answer_tokens" uint32 (·.maxAnswerTokens)
     (fun v c => { c with maxAnswerTokens := v })]

theorem AnswerConfig.lawful : Lawful AnswerConfig.fields := by
  constructor
  · simp [AnswerConfig.fields, field]
  · simp [AnswerConfig.fields, RecordField.apart_field]
  · rintro ⟨⟩ ⟨⟩
    simp [AnswerConfig.fields, field]

inductive ExpansionMode where
  | legacy | primaryExpansion
  deriving DecidableEq, Repr

def ExpansionMode.asStr : ExpansionMode → String
  | .legacy => "legacy"
  | .primaryExpansion => "primary_expansion"

def ExpansionMode.names : List (String × ExpansionMode) :=
  [("legacy", .legacy), ("primary_expansion", .primaryExpansion)]

structure ExpansionConfig where
  mode : ExpansionMode
  primaryProvider : String
  expansionProviders : List String
  deriving DecidableEq

def ExpansionConfig.default : ExpansionConfig where
  mode := .legacy
  primaryProvider := "marginalia"
  expansionProviders := ["searxng"]

def ExpansionConfig.fields : List (RecordField ExpansionConfig) :=
  [field "mode" (variant Node.isUnit ExpansionMode.names) (·.mode)
     (fun v c => { c with mode := v }),
   field "primary_provider" text (·.primaryProvider) (fun v c => { c with primaryProvider := v }),
   field "expansion_providers" (list text) (·.expansionProviders)
     (fun v c => { c with expansionProviders := v })]

theorem ExpansionConfig.lawful : Lawful ExpansionConfig.fields := by
  constructor
  · simp [ExpansionConfig.fields, field]
  · simp [ExpansionConfig.fields, RecordField.apart_field]
  · rintro ⟨⟩ ⟨⟩
    simp [ExpansionConfig.fields, field]

def ExpansionConfig.roleModelActive (config : ExpansionConfig) : Bool :=
  config.mode == .primaryExpansion

end Amatl
