import Amatl.Config.Validate

/-! The field patches of the configuration: what each does to the configuration
in memory, and what its writer does to the document on disk. -/

namespace Amatl

open Toml

def signedInteger (key : String) (value : Option Nat) : Except ConfigError Edit :=
  Edit.setInteger (.policy (key ++ " exceeds the maximum storable value")) value

abbrev ConfigEdits := List (String × Except ConfigError Edit)

def notTable (segment : String) : ConfigError := .policy (segment ++ " is not a table")

structure DataPolicyConfigPatch where
  profile : Option SecurityProfile := none
  egress : Option EgressPolicy := none
  inference : Option InferenceMode := none
  deriving DecidableEq

def DataPolicyConfigPatch.apply (patch : DataPolicyConfigPatch) (config : DataPolicyConfig) :
    DataPolicyConfig :=
  { config with
    profile := patch.profile.getD config.profile
    egress := patch.egress.getD config.egress
    inference := patch.inference.getD config.inference }

def DataPolicyConfigPatch.edits (patch : DataPolicyConfigPatch) : ConfigEdits :=
  [("profile", .ok (.set (fun v => .string v.asStr) patch.profile)),
   ("egress", .ok (.set (fun v => .string v.asStr) patch.egress)),
   ("inference", .ok (.set (fun v => .string v.asStr) patch.inference))]

def setDataPolicyFields (patch : DataPolicyConfigPatch) : Table → Except ConfigError Table :=
  tableAt notTable (write patch.edits) ["data_policy"]

structure InferenceConfigPatch where
  backend : Option String := none
  embeddingDimensions : Option UInt64 := none
  maxDocuments : Option UInt64 := none
  maxInputChars : Option UInt64 := none
  rerankerPriorWeight : Option F64 := none
  localModelPath : Option String := none
  localCacheCapacity : Option UInt64 := none
  localCachePath : Option String := none
  remoteEndpoint : Option String := none
  remoteModel : Option String := none
  remoteCredentialEnv : Option String := none
  remoteTimeoutMs : Option UInt64 := none
  remoteMaxBatch : Option UInt64 := none
  deriving DecidableEq

def InferenceConfigPatch.apply (patch : InferenceConfigPatch) (config : InferenceConfig) :
    InferenceConfig :=
  { config with
    backend := patch.backend.getD config.backend
    embeddingDimensions := patch.embeddingDimensions.getD config.embeddingDimensions
    maxDocuments := patch.maxDocuments.getD config.maxDocuments
    maxInputChars := patch.maxInputChars.getD config.maxInputChars
    rerankerPriorWeight := patch.rerankerPriorWeight.getD config.rerankerPriorWeight
    localModelPath := patch.localModelPath.elim config.localModelPath clearable
    localCacheCapacity := patch.localCacheCapacity.getD config.localCacheCapacity
    localCachePath := patch.localCachePath.elim config.localCachePath clearable
    remoteEndpoint := patch.remoteEndpoint.elim config.remoteEndpoint clearable
    remoteModel := patch.remoteModel.elim config.remoteModel clearable
    remoteCredentialEnv := patch.remoteCredentialEnv.elim config.remoteCredentialEnv clearable
    remoteTimeoutMs := patch.remoteTimeoutMs.getD config.remoteTimeoutMs
    remoteMaxBatch := patch.remoteMaxBatch.getD config.remoteMaxBatch }

def InferenceConfigPatch.edits (patch : InferenceConfigPatch) : ConfigEdits :=
  [("backend", .ok (.set .string patch.backend)),
   ("embedding_dimensions",
     signedInteger "inference.embedding_dimensions" (patch.embeddingDimensions.map UInt64.toNat)),
   ("max_documents", signedInteger "inference.max_documents" (patch.maxDocuments.map UInt64.toNat)),
   ("max_input_chars",
     signedInteger "inference.max_input_chars" (patch.maxInputChars.map UInt64.toNat)),
   ("reranker_prior_weight", .ok (.set .float patch.rerankerPriorWeight)),
   ("local_model_path", .ok (.setOrClear patch.localModelPath)),
   ("local_cache_capacity",
     signedInteger "inference.local_cache_capacity" (patch.localCacheCapacity.map UInt64.toNat)),
   ("local_cache_path", .ok (.setOrClear patch.localCachePath)),
   ("remote_endpoint", .ok (.setOrClear patch.remoteEndpoint)),
   ("remote_model", .ok (.setOrClear patch.remoteModel)),
   ("remote_credential_env", .ok (.setOrClear patch.remoteCredentialEnv)),
   ("remote_timeout_ms",
     signedInteger "inference.remote_timeout_ms" (patch.remoteTimeoutMs.map UInt64.toNat)),
   ("remote_max_batch",
     signedInteger "inference.remote_max_batch" (patch.remoteMaxBatch.map UInt64.toNat))]

def setInferenceFields (patch : InferenceConfigPatch) : Table → Except ConfigError Table :=
  tableAt notTable (write patch.edits) ["inference"]

structure AnswerConfigPatch where
  endpoint : Option String := none
  model : Option String := none
  credentialEnv : Option String := none
  timeoutMs : Option UInt64 := none
  maxSources : Option UInt64 := none
  maxSourceChars : Option UInt64 := none
  maxAnswerTokens : Option UInt32 := none
  deriving DecidableEq

def AnswerConfigPatch.apply (patch : AnswerConfigPatch) (config : AnswerConfig) :
    AnswerConfig :=
  { config with
    endpoint := patch.endpoint.elim config.endpoint clearable
    model := patch.model.elim config.model clearable
    credentialEnv := patch.credentialEnv.elim config.credentialEnv clearable
    timeoutMs := patch.timeoutMs.getD config.timeoutMs
    maxSources := patch.maxSources.getD config.maxSources
    maxSourceChars := patch.maxSourceChars.getD config.maxSourceChars
    maxAnswerTokens := patch.maxAnswerTokens.getD config.maxAnswerTokens }

def AnswerConfigPatch.edits (patch : AnswerConfigPatch) : ConfigEdits :=
  [("endpoint", .ok (.setOrClear patch.endpoint)),
   ("model", .ok (.setOrClear patch.model)),
   ("credential_env", .ok (.setOrClear patch.credentialEnv)),
   ("timeout_ms", signedInteger "answer.timeout_ms" (patch.timeoutMs.map UInt64.toNat)),
   ("max_sources", signedInteger "answer.max_sources" (patch.maxSources.map UInt64.toNat)),
   ("max_source_chars",
     signedInteger "answer.max_source_chars" (patch.maxSourceChars.map UInt64.toNat)),
   ("max_answer_tokens",
     signedInteger "answer.max_answer_tokens" (patch.maxAnswerTokens.map UInt32.toNat))]

def setAnswerFields (patch : AnswerConfigPatch) : Table → Except ConfigError Table :=
  tableAt notTable (write patch.edits) ["answer"]

structure PersistenceConfigPatch where
  historyEnabled : Option Bool := none
  savedDocumentMaxBytes : Option UInt64 := none
  auditRetentionDays : Option UInt32 := none
  historyRetentionDays : Option UInt32 := none
  cacheRetentionDays : Option UInt32 := none
  documentCacheRetentionDays : Option UInt32 := none
  purgeIntervalSeconds : Option UInt64 := none
  autoBackupEnabled : Option Bool := none
  autoBackupIntervalSeconds : Option UInt64 := none
  autoBackupMaxCount : Option UInt32 := none
  backupDirectory : Option String := none
  deriving DecidableEq

def PersistenceConfigPatch.apply (patch : PersistenceConfigPatch) (config : PersistenceConfig) :
    PersistenceConfig :=
  { config with
    historyEnabled := patch.historyEnabled.getD config.historyEnabled
    savedDocumentMaxBytes := patch.savedDocumentMaxBytes.getD config.savedDocumentMaxBytes
    auditRetentionDays := patch.auditRetentionDays.getD config.auditRetentionDays
    historyRetentionDays := patch.historyRetentionDays.getD config.historyRetentionDays
    cacheRetentionDays := patch.cacheRetentionDays.getD config.cacheRetentionDays
    documentCacheRetentionDays := patch.documentCacheRetentionDays.getD config.documentCacheRetentionDays
    purgeIntervalSeconds := patch.purgeIntervalSeconds.getD config.purgeIntervalSeconds
    autoBackupEnabled := patch.autoBackupEnabled.getD config.autoBackupEnabled
    autoBackupIntervalSeconds := patch.autoBackupIntervalSeconds.getD config.autoBackupIntervalSeconds
    autoBackupMaxCount := patch.autoBackupMaxCount.getD config.autoBackupMaxCount
    backupDirectory := patch.backupDirectory.elim config.backupDirectory clearable }

def PersistenceConfigPatch.edits (patch : PersistenceConfigPatch) : ConfigEdits :=
  [("history_enabled", .ok (.set .boolean patch.historyEnabled)),
   ("saved_document_max_bytes",
     signedInteger "persistence.saved_document_max_bytes"
       (patch.savedDocumentMaxBytes.map UInt64.toNat)),
   ("audit_retention_days",
     signedInteger "persistence.audit_retention_days" (patch.auditRetentionDays.map UInt32.toNat)),
   ("history_retention_days",
     signedInteger "persistence.history_retention_days"
       (patch.historyRetentionDays.map UInt32.toNat)),
   ("cache_retention_days",
     signedInteger "persistence.cache_retention_days" (patch.cacheRetentionDays.map UInt32.toNat)),
   ("document_cache_retention_days",
     signedInteger "persistence.document_cache_retention_days"
       (patch.documentCacheRetentionDays.map UInt32.toNat)),
   ("purge_interval_seconds",
     signedInteger "persistence.purge_interval_seconds"
       (patch.purgeIntervalSeconds.map UInt64.toNat)),
   ("auto_backup_enabled", .ok (.set .boolean patch.autoBackupEnabled)),
   ("auto_backup_interval_seconds",
     signedInteger "persistence.auto_backup_interval_seconds"
       (patch.autoBackupIntervalSeconds.map UInt64.toNat)),
   ("auto_backup_max_count",
     signedInteger "persistence.auto_backup_max_count" (patch.autoBackupMaxCount.map UInt32.toNat)),
   ("backup_directory", .ok (.setOrClear patch.backupDirectory))]

def setPersistenceFields (patch : PersistenceConfigPatch) : Table → Except ConfigError Table :=
  tableAt notTable (write patch.edits) ["persistence"]

structure TelemetryConfigPatch where
  persistenceEnabled : Option Bool := none
  retentionDays : Option UInt32 := none
  deriving DecidableEq

def TelemetryConfigPatch.apply (patch : TelemetryConfigPatch) (config : TelemetryConfig) :
    TelemetryConfig :=
  { config with
    persistenceEnabled := patch.persistenceEnabled.getD config.persistenceEnabled
    retentionDays := patch.retentionDays.getD config.retentionDays }

def TelemetryConfigPatch.edits (patch : TelemetryConfigPatch) : ConfigEdits :=
  [("persistence_enabled", .ok (.set .boolean patch.persistenceEnabled)),
   ("retention_days",
     signedInteger "telemetry.retention_days" (patch.retentionDays.map UInt32.toNat))]

def setTelemetryFields (patch : TelemetryConfigPatch) : Table → Except ConfigError Table :=
  tableAt notTable (write patch.edits) ["telemetry"]

structure DeepConfigPatch where
  topK : Option UInt32 := none
  maxFetches : Option UInt32 := none
  maxBytes : Option UInt64 := none
  maxRedirects : Option UInt32 := none
  maxCrawlUrls : Option UInt32 := none
  maxDepth : Option UInt8 := none
  respectRobots : Option Bool := none
  robotsTimeoutMs : Option UInt64 := none
  robotsMaxBytes : Option UInt64 := none
  timeoutMs : Option UInt64 := none
  deriving DecidableEq

def DeepConfigPatch.apply (patch : DeepConfigPatch) (config : DeepConfig) : DeepConfig :=
  { config with
    topK := patch.topK.getD config.topK
    maxFetches := patch.maxFetches.getD config.maxFetches
    maxBytes := patch.maxBytes.getD config.maxBytes
    maxRedirects := patch.maxRedirects.getD config.maxRedirects
    maxCrawlUrls := patch.maxCrawlUrls.getD config.maxCrawlUrls
    maxDepth := patch.maxDepth.getD config.maxDepth
    respectRobots := patch.respectRobots.getD config.respectRobots
    robotsTimeoutMs := patch.robotsTimeoutMs.getD config.robotsTimeoutMs
    robotsMaxBytes := patch.robotsMaxBytes.getD config.robotsMaxBytes
    timeoutMs := patch.timeoutMs.getD config.timeoutMs }

def DeepConfigPatch.edits (patch : DeepConfigPatch) : ConfigEdits :=
  [("top_k", signedInteger "deep.top_k" (patch.topK.map UInt32.toNat)),
   ("max_fetches", signedInteger "deep.max_fetches" (patch.maxFetches.map UInt32.toNat)),
   ("max_bytes", signedInteger "deep.max_bytes" (patch.maxBytes.map UInt64.toNat)),
   ("max_redirects", signedInteger "deep.max_redirects" (patch.maxRedirects.map UInt32.toNat)),
   ("max_crawl_urls", signedInteger "deep.max_crawl_urls" (patch.maxCrawlUrls.map UInt32.toNat)),
   ("max_depth", signedInteger "deep.max_depth" (patch.maxDepth.map UInt8.toNat)),
   ("respect_robots", .ok (.set .boolean patch.respectRobots)),
   ("robots_timeout_ms",
     signedInteger "deep.robots_timeout_ms" (patch.robotsTimeoutMs.map UInt64.toNat)),
   ("robots_max_bytes",
     signedInteger "deep.robots_max_bytes" (patch.robotsMaxBytes.map UInt64.toNat)),
   ("timeout_ms", signedInteger "deep.timeout_ms" (patch.timeoutMs.map UInt64.toNat))]

def setDeepFields (patch : DeepConfigPatch) : Table → Except ConfigError Table :=
  tableAt notTable (write patch.edits) ["deep"]

structure ExtractorConfigPatch where
  executable : Option String := none
  version : Option String := none
  timeoutMs : Option UInt64 := none
  maxOutputBytes : Option UInt64 := none
  deriving DecidableEq

def ExtractorConfigPatch.apply (patch : ExtractorConfigPatch) (config : ExtractorConfig) :
    ExtractorConfig :=
  { config with
    executable := patch.executable.getD config.executable
    version := patch.version.getD config.version
    timeoutMs := patch.timeoutMs.getD config.timeoutMs
    maxOutputBytes := patch.maxOutputBytes.getD config.maxOutputBytes }

def ExtractorConfigPatch.edits (patch : ExtractorConfigPatch) : ConfigEdits :=
  [("executable", .ok (.set .string patch.executable)),
   ("version", .ok (.set .string patch.version)),
   ("timeout_ms", signedInteger "deep.extractor.timeout_ms" (patch.timeoutMs.map UInt64.toNat)),
   ("max_output_bytes",
     signedInteger "deep.extractor.max_output_bytes" (patch.maxOutputBytes.map UInt64.toNat))]

def setDeepExtractorFields (patch : ExtractorConfigPatch) : Table → Except ConfigError Table :=
  tableAt notTable (write patch.edits) ["deep", "extractor"]

structure RendererConfigPatch where
  enabled : Option Bool := none
  maxBrowserCalls : Option UInt32 := none
  timeoutMs : Option UInt64 := none
  shutdownGraceMs : Option UInt64 := none
  maxMemoryMb : Option UInt64 := none
  maxRedirects : Option UInt32 := none
  sandboxPath : Option String := none
  maxDomBytes : Option UInt64 := none
  deriving DecidableEq

def RendererConfigPatch.apply (patch : RendererConfigPatch) (config : RendererConfig) :
    RendererConfig :=
  { config with
    enabled := patch.enabled.getD config.enabled
    maxBrowserCalls := patch.maxBrowserCalls.getD config.maxBrowserCalls
    timeoutMs := patch.timeoutMs.getD config.timeoutMs
    shutdownGraceMs := patch.shutdownGraceMs.getD config.shutdownGraceMs
    maxMemoryMb := patch.maxMemoryMb.getD config.maxMemoryMb
    maxRedirects := patch.maxRedirects.getD config.maxRedirects
    sandboxPath := patch.sandboxPath.getD config.sandboxPath
    maxDomBytes := patch.maxDomBytes.getD config.maxDomBytes }

def RendererConfigPatch.edits (patch : RendererConfigPatch) : ConfigEdits :=
  [("enabled", .ok (.set .boolean patch.enabled)),
   ("max_browser_calls",
     signedInteger "deep.renderer.max_browser_calls" (patch.maxBrowserCalls.map UInt32.toNat)),
   ("timeout_ms", signedInteger "deep.renderer.timeout_ms" (patch.timeoutMs.map UInt64.toNat)),
   ("shutdown_grace_ms",
     signedInteger "deep.renderer.shutdown_grace_ms" (patch.shutdownGraceMs.map UInt64.toNat)),
   ("max_memory_mb",
     signedInteger "deep.renderer.max_memory_mb" (patch.maxMemoryMb.map UInt64.toNat)),
   ("max_redirects",
     signedInteger "deep.renderer.max_redirects" (patch.maxRedirects.map UInt32.toNat)),
   ("sandbox_path", .ok (.set .string patch.sandboxPath)),
   ("max_dom_bytes",
     signedInteger "deep.renderer.max_dom_bytes" (patch.maxDomBytes.map UInt64.toNat))]

def setDeepRendererFields (patch : RendererConfigPatch) : Table → Except ConfigError Table :=
  tableAt notTable (write patch.edits) ["deep", "renderer"]

structure OpticsConfigPatch where
  enabled : Option Bool := none
  path : Option String := none
  deriving DecidableEq

def OpticsConfigPatch.apply (patch : OpticsConfigPatch) (config : OpticsConfig) :
    OpticsConfig :=
  { config with
    enabled := patch.enabled.getD config.enabled
    path := patch.path.elim config.path some }

def OpticsConfigPatch.edits (patch : OpticsConfigPatch) : ConfigEdits :=
  [("enabled", .ok (.set .boolean patch.enabled)),
   ("path", .ok (.set .string patch.path))]

def setRankingOpticsFields (patch : OpticsConfigPatch) : Table → Except ConfigError Table :=
  tableAt notTable (write patch.edits) ["ranking", "optics"]

structure ServerConfigPatch where
  bind : Option String := none
  port : Option UInt16 := none
  tokenEnv : Option String := none
  noAuth : Option Bool := none
  allowedHosts : Option (List String) := none
  allowedOrigins : Option (List String) := none
  maxBodyBytes : Option UInt64 := none
  maxHeaderBytes : Option UInt64 := none
  requestTimeoutMs : Option UInt64 := none
  idleTimeoutMs : Option UInt64 := none
  rateLimitPerMinute : Option UInt32 := none
  maxConnections : Option UInt64 := none
  tlsCertPath : Option String := none
  tlsKeyPath : Option String := none
  deriving DecidableEq

namespace ServerConfigPatch

variable (patch : ServerConfigPatch)

def applyTls (config : TlsConfig) : TlsConfig where
  certPath := patch.tlsCertPath.elim config.certPath clearable
  keyPath := patch.tlsKeyPath.elim config.keyPath clearable

def apply (config : ServerConfig) : ServerConfig :=
  { config with
    bind := patch.bind.getD config.bind
    port := patch.port.getD config.port
    tokenEnv := patch.tokenEnv.getD config.tokenEnv
    noAuth := patch.noAuth.getD config.noAuth
    allowedHosts := patch.allowedHosts.getD config.allowedHosts
    allowedOrigins := patch.allowedOrigins.getD config.allowedOrigins
    maxBodyBytes := patch.maxBodyBytes.getD config.maxBodyBytes
    maxHeaderBytes := patch.maxHeaderBytes.getD config.maxHeaderBytes
    requestTimeoutMs := patch.requestTimeoutMs.getD config.requestTimeoutMs
    idleTimeoutMs := patch.idleTimeoutMs.getD config.idleTimeoutMs
    rateLimitPerMinute := patch.rateLimitPerMinute.getD config.rateLimitPerMinute
    maxConnections := patch.maxConnections.getD config.maxConnections
    tls := patch.applyTls config.tls }

/-- `i64::from` on the port cannot fail. -/
def edits : ConfigEdits :=
  [("bind", .ok (.set .string patch.bind)),
   ("port", .ok (.set (fun v => .integer (Int64.ofNat v.toNat)) patch.port)),
   ("token_env", .ok (.set .string patch.tokenEnv)),
   ("no_auth", .ok (.set .boolean patch.noAuth)),
   ("allowed_hosts", .ok (.set strings patch.allowedHosts)),
   ("allowed_origins", .ok (.set strings patch.allowedOrigins)),
   ("max_body_bytes", signedInteger "server.max_body_bytes" (patch.maxBodyBytes.map UInt64.toNat)),
   ("max_header_bytes",
     signedInteger "server.max_header_bytes" (patch.maxHeaderBytes.map UInt64.toNat)),
   ("request_timeout_ms",
     signedInteger "server.request_timeout_ms" (patch.requestTimeoutMs.map UInt64.toNat)),
   ("idle_timeout_ms",
     signedInteger "server.idle_timeout_ms" (patch.idleTimeoutMs.map UInt64.toNat)),
   ("rate_limit_per_minute",
     signedInteger "server.rate_limit_per_minute" (patch.rateLimitPerMinute.map UInt32.toNat)),
   ("max_connections",
     signedInteger "server.max_connections" (patch.maxConnections.map UInt64.toNat))]

def tlsEdits : ConfigEdits :=
  [("cert_path", .ok (.setOrClear patch.tlsCertPath)),
   ("key_path", .ok (.setOrClear patch.tlsKeyPath))]

end ServerConfigPatch

def setServerFields (patch : ServerConfigPatch) (doc : Table) : Except ConfigError Table := do
  let doc ← tableAt notTable (write patch.edits) ["server"] doc
  if patch.tlsCertPath.isSome || patch.tlsKeyPath.isSome then
    tableAt notTable (write patch.tlsEdits) ["server", "tls"] doc
  else .ok doc

/-- A patch of one of the ten patch types. -/
inductive SectionPatch where
  | dataPolicy (patch : DataPolicyConfigPatch)
  | inference (patch : InferenceConfigPatch)
  | answer (patch : AnswerConfigPatch)
  | persistence (patch : PersistenceConfigPatch)
  | telemetry (patch : TelemetryConfigPatch)
  | deep (patch : DeepConfigPatch)
  | extractor (patch : ExtractorConfigPatch)
  | renderer (patch : RendererConfigPatch)
  | optics (patch : OpticsConfigPatch)
  | server (patch : ServerConfigPatch)

namespace SectionPatch

def apply (patch : SectionPatch) (c : Config) : Config :=
  match patch with
  | .dataPolicy patch => { c with dataPolicy := patch.apply c.dataPolicy }
  | .inference patch => { c with inference := patch.apply c.inference }
  | .answer patch => { c with answer := patch.apply c.answer }
  | .persistence patch => { c with persistence := patch.apply c.persistence }
  | .telemetry patch => { c with telemetry := patch.apply c.telemetry }
  | .deep patch => { c with deep := patch.apply c.deep }
  | .extractor patch => { c with deep := { c.deep with extractor := patch.apply c.deep.extractor } }
  | .renderer patch => { c with deep := { c.deep with renderer := patch.apply c.deep.renderer } }
  | .optics patch => { c with ranking := { optics := patch.apply c.ranking.optics } }
  | .server patch => { c with server := patch.apply c.server }

def write (patch : SectionPatch) : Table → Except ConfigError Table :=
  match patch with
  | .dataPolicy patch => setDataPolicyFields patch
  | .inference patch => setInferenceFields patch
  | .answer patch => setAnswerFields patch
  | .persistence patch => setPersistenceFields patch
  | .telemetry patch => setTelemetryFields patch
  | .deep patch => setDeepFields patch
  | .extractor patch => setDeepExtractorFields patch
  | .renderer patch => setDeepRendererFields patch
  | .optics patch => setRankingOpticsFields patch
  | .server patch => setServerFields patch

end SectionPatch

end Amatl
