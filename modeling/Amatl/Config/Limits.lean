import Amatl.Lib.TomlEdit

/-! The sections of run-time limits: timeouts, budget, execution, circuit
breaker, persistence, caches and telemetry. -/

namespace Amatl

open Toml

structure TimeoutConfig where
  providerMs : UInt64
  globalMs : UInt64
  deriving DecidableEq

def TimeoutConfig.default : TimeoutConfig where
  providerMs := 3000
  globalMs := 8000

def TimeoutConfig.fields : List (RecordField TimeoutConfig) :=
  [field "provider_ms" uint64 (·.providerMs) (fun v c => { c with providerMs := v }),
   field "global_ms" uint64 (·.globalMs) (fun v c => { c with globalMs := v })]

theorem TimeoutConfig.lawful : Lawful TimeoutConfig.fields := by
  constructor
  · simp [TimeoutConfig.fields, field]
  · simp [TimeoutConfig.fields, RecordField.apart_field]
  · rintro ⟨⟩ ⟨⟩
    simp [TimeoutConfig.fields, field]

structure BudgetConfig where
  maxProviderCalls : UInt32
  deriving DecidableEq

def BudgetConfig.default : BudgetConfig where
  maxProviderCalls := 3

def BudgetConfig.fields : List (RecordField BudgetConfig) :=
  [field "max_provider_calls" uint32 (·.maxProviderCalls)
     (fun v c => { c with maxProviderCalls := v })]

theorem BudgetConfig.lawful : Lawful BudgetConfig.fields := by
  constructor
  · simp [BudgetConfig.fields, field]
  · simp [BudgetConfig.fields]
  · rintro ⟨⟩ ⟨⟩
    simp [BudgetConfig.fields, field]

structure ExecutionConfig where
  globalConcurrency : UInt64
  perProviderConcurrency : UInt64
  maxRetries : UInt32
  retryJitterMs : UInt64
  deriving DecidableEq

def ExecutionConfig.default : ExecutionConfig where
  globalConcurrency := 4
  perProviderConcurrency := 1
  maxRetries := 1
  retryJitterMs := 25

def ExecutionConfig.fields : List (RecordField ExecutionConfig) :=
  [field "global_concurrency" uint64 (·.globalConcurrency)
     (fun v c => { c with globalConcurrency := v }),
   field "per_provider_concurrency" uint64 (·.perProviderConcurrency)
     (fun v c => { c with perProviderConcurrency := v }),
   field "max_retries" uint32 (·.maxRetries) (fun v c => { c with maxRetries := v }),
   field "retry_jitter_ms" uint64 (·.retryJitterMs) (fun v c => { c with retryJitterMs := v })]

theorem ExecutionConfig.lawful : Lawful ExecutionConfig.fields := by
  constructor
  · simp [ExecutionConfig.fields, field]
  · simp [ExecutionConfig.fields, RecordField.apart_field]
  · rintro ⟨⟩ ⟨⟩
    simp [ExecutionConfig.fields, field]

structure CircuitPolicy where
  enabled : Bool
  failureThreshold : UInt32
  openSeconds : UInt64
  deriving DecidableEq

def CircuitPolicy.default : CircuitPolicy where
  enabled := true
  failureThreshold := 3
  openSeconds := 60

def CircuitPolicy.fields : List (RecordField CircuitPolicy) :=
  [field "enabled" flag (·.enabled) (fun v c => { c with enabled := v }),
   field "failure_threshold" uint32 (·.failureThreshold)
     (fun v c => { c with failureThreshold := v }),
   field "open_seconds" uint64 (·.openSeconds) (fun v c => { c with openSeconds := v })]

theorem CircuitPolicy.lawful : Lawful CircuitPolicy.fields := by
  constructor
  · simp [CircuitPolicy.fields, field]
  · simp [CircuitPolicy.fields, RecordField.apart_field]
  · rintro ⟨⟩ ⟨⟩
    simp [CircuitPolicy.fields, field]

def CircuitPolicy.validate (policy : CircuitPolicy) : Except String Unit :=
  if policy.failureThreshold < 1 ∨ 100 < policy.failureThreshold then
    .error "circuit_breaker.failure_threshold must be between 1 and 100"
  else if policy.openSeconds < 1 ∨ 3600 < policy.openSeconds then
    .error "circuit_breaker.open_seconds must be between 1 and 3600"
  else .ok ()

inductive SqliteLockingMode where
  | normal | exclusive
  deriving DecidableEq, Repr

def SqliteLockingMode.names : List (String × SqliteLockingMode) :=
  [("normal", .normal), ("exclusive", .exclusive)]

def auditDefaultRetentionDays : UInt32 := 90

def auditMaxRetentionDays : UInt32 := 365

structure PersistenceConfig where
  enabled : Bool
  path : String
  historyEnabled : Bool
  savedDocumentMaxBytes : UInt64
  auditRetentionDays : UInt32
  historyRetentionDays : UInt32
  cacheRetentionDays : UInt32
  documentCacheRetentionDays : UInt32
  purgeIntervalSeconds : UInt64
  autoBackupEnabled : Bool
  autoBackupIntervalSeconds : UInt64
  autoBackupMaxCount : UInt32
  backupDirectory : Option String
  lockingMode : SqliteLockingMode
  deriving DecidableEq

def PersistenceConfig.default : PersistenceConfig where
  enabled := false
  path := "amatl.sqlite3"
  historyEnabled := true
  savedDocumentMaxBytes := 1048576
  auditRetentionDays := auditDefaultRetentionDays
  historyRetentionDays := 90
  cacheRetentionDays := 7
  documentCacheRetentionDays := 30
  purgeIntervalSeconds := 3600
  autoBackupEnabled := false
  autoBackupIntervalSeconds := 86400
  autoBackupMaxCount := 7
  backupDirectory := none
  lockingMode := .normal

def PersistenceConfig.fields : List (RecordField PersistenceConfig) :=
  [field "enabled" flag (·.enabled) (fun v c => { c with enabled := v }),
   field "path" text (·.path) (fun v c => { c with path := v }),
   field "history_enabled" flag (·.historyEnabled) (fun v c => { c with historyEnabled := v }),
   field "saved_document_max_bytes" uint64 (·.savedDocumentMaxBytes)
     (fun v c => { c with savedDocumentMaxBytes := v }),
   field "audit_retention_days" uint32 (·.auditRetentionDays)
     (fun v c => { c with auditRetentionDays := v }),
   field "history_retention_days" uint32 (·.historyRetentionDays)
     (fun v c => { c with historyRetentionDays := v }),
   field "cache_retention_days" uint32 (·.cacheRetentionDays)
     (fun v c => { c with cacheRetentionDays := v }),
   field "document_cache_retention_days" uint32 (·.documentCacheRetentionDays)
     (fun v c => { c with documentCacheRetentionDays := v }),
   field "purge_interval_seconds" uint64 (·.purgeIntervalSeconds)
     (fun v c => { c with purgeIntervalSeconds := v }),
   field "auto_backup_enabled" flag (·.autoBackupEnabled)
     (fun v c => { c with autoBackupEnabled := v }),
   field "auto_backup_interval_seconds" uint64 (·.autoBackupIntervalSeconds)
     (fun v c => { c with autoBackupIntervalSeconds := v }),
   field "auto_backup_max_count" uint32 (·.autoBackupMaxCount)
     (fun v c => { c with autoBackupMaxCount := v }),
   field "backup_directory" (optional text) (·.backupDirectory)
     (fun v c => { c with backupDirectory := v }),
   field "locking_mode" (variant Node.isUnit SqliteLockingMode.names) (·.lockingMode)
     (fun v c => { c with lockingMode := v })]

theorem PersistenceConfig.lawful : Lawful PersistenceConfig.fields := by
  constructor
  · simp [PersistenceConfig.fields, field]
  · simp [PersistenceConfig.fields, RecordField.apart_field]
  · rintro ⟨⟩ ⟨⟩
    simp [PersistenceConfig.fields, field]

structure ProviderSearchCacheConfig where
  enabled : Bool
  ttlSeconds : UInt64
  maxEntries : UInt64
  maxBytes : UInt64
  deriving DecidableEq

def ProviderSearchCacheConfig.default : ProviderSearchCacheConfig where
  enabled := false
  ttlSeconds := 300
  maxEntries := 10000
  maxBytes := 268435456

def ProviderSearchCacheConfig.fields : List (RecordField ProviderSearchCacheConfig) :=
  [field "enabled" flag (·.enabled) (fun v c => { c with enabled := v }),
   field "ttl_seconds" uint64 (·.ttlSeconds) (fun v c => { c with ttlSeconds := v }),
   field "max_entries" uint64 (·.maxEntries) (fun v c => { c with maxEntries := v }),
   field "max_bytes" uint64 (·.maxBytes) (fun v c => { c with maxBytes := v })]

theorem ProviderSearchCacheConfig.lawful : Lawful ProviderSearchCacheConfig.fields := by
  constructor
  · simp [ProviderSearchCacheConfig.fields, field]
  · simp [ProviderSearchCacheConfig.fields, RecordField.apart_field]
  · rintro ⟨⟩ ⟨⟩
    simp [ProviderSearchCacheConfig.fields, field]

structure DocumentCacheConfig where
  enabled : Bool
  ttlSeconds : UInt64
  maxEntries : UInt64
  maxBytes : UInt64
  storeContent : Bool
  staleWhileRevalidateSeconds : UInt64
  deriving DecidableEq

def DocumentCacheConfig.default : DocumentCacheConfig where
  enabled := false
  ttlSeconds := 86400
  maxEntries := 1000
  maxBytes := 268435456
  storeContent := false
  staleWhileRevalidateSeconds := 0

def DocumentCacheConfig.fields : List (RecordField DocumentCacheConfig) :=
  [field "enabled" flag (·.enabled) (fun v c => { c with enabled := v }),
   field "ttl_seconds" uint64 (·.ttlSeconds) (fun v c => { c with ttlSeconds := v }),
   field "max_entries" uint64 (·.maxEntries) (fun v c => { c with maxEntries := v }),
   field "max_bytes" uint64 (·.maxBytes) (fun v c => { c with maxBytes := v }),
   field "store_content" flag (·.storeContent) (fun v c => { c with storeContent := v }),
   field "stale_while_revalidate_seconds" uint64 (·.staleWhileRevalidateSeconds)
     (fun v c => { c with staleWhileRevalidateSeconds := v })]

theorem DocumentCacheConfig.lawful : Lawful DocumentCacheConfig.fields := by
  constructor
  · simp [DocumentCacheConfig.fields, field]
  · simp [DocumentCacheConfig.fields, RecordField.apart_field]
  · rintro ⟨⟩ ⟨⟩
    simp [DocumentCacheConfig.fields, field]

structure CacheConfig where
  providerSearch : ProviderSearchCacheConfig
  document : DocumentCacheConfig
  deriving DecidableEq

def CacheConfig.default : CacheConfig where
  providerSearch := .default
  document := .default

def CacheConfig.fields : List (RecordField CacheConfig) :=
  [field "provider_search" (record ProviderSearchCacheConfig.fields .default) (·.providerSearch)
     (fun v c => { c with providerSearch := v }),
   field "document" (record DocumentCacheConfig.fields .default) (·.document)
     (fun v c => { c with document := v })]

theorem CacheConfig.lawful : Lawful CacheConfig.fields := by
  constructor
  · simp [CacheConfig.fields, field]
  · simp [CacheConfig.fields, RecordField.apart_field]
  · rintro ⟨⟩ ⟨⟩
    simp [CacheConfig.fields, field]

def telemetryMinRetentionDays : UInt32 := 7

def telemetryMaxRetentionDays : UInt32 := 365

structure TelemetryConfig where
  persistenceEnabled : Bool
  retentionDays : UInt32
  deriving DecidableEq

def TelemetryConfig.default : TelemetryConfig where
  persistenceEnabled := false
  retentionDays := 30

def TelemetryConfig.fields : List (RecordField TelemetryConfig) :=
  [field "persistence_enabled" flag (·.persistenceEnabled)
     (fun v c => { c with persistenceEnabled := v }),
   field "retention_days" uint32 (·.retentionDays) (fun v c => { c with retentionDays := v })]

theorem TelemetryConfig.lawful : Lawful TelemetryConfig.fields := by
  constructor
  · simp [TelemetryConfig.fields, field]
  · simp [TelemetryConfig.fields, RecordField.apart_field]
  · rintro ⟨⟩ ⟨⟩
    simp [TelemetryConfig.fields, field]

end Amatl
