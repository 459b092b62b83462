import Amatl.Lib.Sql
import Amatl.Restore

/-! The scripts that bring a database from one schema version to the next and back, and the code
that runs them. -/

namespace Amatl

open Sql

/-! Columns as the scripts declare them; an integer primary key is never null. -/

def textColumn (name : String) : Column := { name, affinity := .text, notNull := true }

def optionalText (name : String) : Column := { name, affinity := .text }

def integerColumn (name : String) : Column := { name, affinity := .integer, notNull := true }

def optionalInteger (name : String) : Column := { name, affinity := .integer }

def realColumn (name : String) : Column := { name, affinity := .real, notNull := true }

def integerKey (name : String) : Column := { name, affinity := .integer, notNull := true }

def schemaMigrations : String := "amatl_schema_migrations"

def createSchemaMigrations : Statement :=
  .createTable schemaMigrations true
    { columns := [integerKey "version", textColumn "name", integerColumn "applied_at"]
      key := ["version"] }

def recordShape : Shape where
  columns := [integerKey "version", textColumn "name", integerColumn "applied_at"]
  key := ["version"]

def phase3Persistence : List Statement :=
  [.createTable "provider_search_cache" true
      { columns := [textColumn "provider", textColumn "adapter_version",
          textColumn "normalized_query", textColumn "structured_filters", textColumn "payload",
          integerColumn "size_bytes", integerColumn "created_at", integerColumn "last_accessed"]
        key := ["provider", "adapter_version", "normalized_query", "structured_filters"] },
    .createIndex true
      { name := "provider_search_cache_lru", table := "provider_search_cache"
        columns := ["last_accessed"] },
    .createTable "telemetry_observations" true
      { columns := [integerKey "id", integerColumn "observed_at", textColumn "provider",
          textColumn "category", textColumn "outcome", integerColumn "latency_ms",
          integerColumn "total_results", integerColumn "unique_results",
          realColumn "duplicate_ratio", realColumn "top_k_contribution", realColumn "diversity",
          integerColumn "cost_units"]
        key := ["id"] },
    .createIndex true
      { name := "telemetry_window", table := "telemetry_observations"
        columns := ["observed_at", "provider", "category"] },
    .setUserVersion 1]

def phase5DocumentCache : List Statement :=
  [.createTable "document_cache" true
      { columns := [textColumn "canonical_url", textColumn "content_hash",
          textColumn "extractor_version", textColumn "payload", integerColumn "size_bytes",
          integerColumn "created_at", integerColumn "last_accessed"]
        key := ["canonical_url", "content_hash", "extractor_version"] },
    .createIndex true
      { name := "document_cache_lru", table := "document_cache", columns := ["last_accessed"] },
    .setUserVersion 2]

def domainPersistence : List Statement :=
  [.createTable "search_history" true
      { columns := [integerKey "id", textColumn "normalized_query", textColumn "raw_query",
          optionalText "category",
          { integerColumn "provider_count" with default := .integer 0 },
          { integerColumn "total_results" with default := .integer 0 },
          { integerColumn "deep_fetches" with default := .integer 0 },
          integerColumn "created_at", { textColumn "surface" with default := .text "cli" }]
        key := ["id"] },
    .createIndex true
      { name := "search_history_query", table := "search_history"
        columns := ["normalized_query", "created_at"] },
    .createIndex true
      { name := "search_history_time", table := "search_history", columns := ["created_at"] },
    .createTable "saved_documents" true
      { columns := [integerKey "id", textColumn "canonical_url", optionalText "title",
          optionalText "snippet", textColumn "content_hash", textColumn "extractor_version",
          textColumn "payload", integerColumn "size_bytes", integerColumn "saved_at",
          optionalText "source_query", { textColumn "tags" with default := .text "[]" }]
        key := ["id"] },
    .createIndex true
      { name := "saved_documents_url_hash_version", table := "saved_documents"
        columns := ["canonical_url", "content_hash", "extractor_version"], unique := true },
    .createIndex true
      { name := "saved_documents_time", table := "saved_documents", columns := ["saved_at"] },
    .setUserVersion 3]

def documentCacheRevalidation : List Statement :=
  [.addColumn "document_cache" (optionalText "etag"),
    .addColumn "document_cache" (optionalText "last_modified"),
    .setUserVersion 4]

def requestIdTelemetry : List Statement :=
  [.addColumn "telemetry_observations" (optionalText "request_id"), .setUserVersion 5]

def providerCircuitScript : List Statement :=
  [.createTable "provider_circuit" true
      { columns := [optionalText "provider",
          { integerColumn "consecutive_failures" with default := .integer 0 },
          optionalInteger "opened_at", optionalInteger "open_until", integerColumn "updated_at"]
        key := ["provider"] },
    .createIndex true
      { name := "provider_circuit_open", table := "provider_circuit", columns := ["open_until"] },
    .setUserVersion 6]

def securityEventsScript : List Statement :=
  [.createTable "security_events" true
      { columns := [integerKey "id", integerColumn "observed_at", textColumn "event",
          optionalText "request_id", optionalText "client_id", optionalText "path",
          optionalText "client_ip"]
        key := ["id"] },
    .createIndex true
      { name := "security_events_time", table := "security_events", columns := ["observed_at"] },
    .createIndex true
      { name := "security_events_kind", table := "security_events"
        columns := ["event", "observed_at"] },
    .setUserVersion 7]

structure Migration where
  version : Int
  name : String
  script : List Statement

def migrations : List Migration :=
  [⟨1, "phase3_persistence", phase3Persistence⟩,
    ⟨2, "phase5_document_cache", phase5DocumentCache⟩,
    ⟨3, "domain_persistence", domainPersistence⟩,
    ⟨4, "document_cache_revalidation", documentCacheRevalidation⟩,
    ⟨5, "request_id_telemetry", requestIdTelemetry⟩,
    ⟨6, "provider_circuit", providerCircuitScript⟩,
    ⟨7, "security_events", securityEventsScript⟩]

/-- The scripts under `migrations/downgrade`, by the version they leave. -/
def downgradeScript : Int → Option (List Statement)
  | 7 => some
    [.dropIndex "security_events_kind" true, .dropIndex "security_events_time" true,
      .dropTable "security_events" true, .setUserVersion 6]
  | 6 => some
    [.dropIndex "provider_circuit_open" true, .dropTable "provider_circuit" true,
      .setUserVersion 5]
  | 5 => some
    [.createTable "telemetry_observations_new" false
        { columns := [integerKey "id", integerColumn "observed_at", textColumn "provider",
            textColumn "category", textColumn "outcome", integerColumn "latency_ms",
            integerColumn "total_results", integerColumn "unique_results",
            realColumn "duplicate_ratio", realColumn "top_k_contribution", realColumn "diversity",
            integerColumn "cost_units"]
          key := ["id"] },
      .insertSelect "telemetry_observations_new" "telemetry_observations"
        ["id", "observed_at", "provider", "category", "outcome", "latency_ms", "total_results",
          "unique_results", "duplicate_ratio", "top_k_contribution", "diversity", "cost_units"],
      .dropTable "telemetry_observations" false,
      .renameTable "telemetry_observations_new" "telemetry_observations",
      .deleteWhere schemaMigrations "version" (.integer 5), .setUserVersion 4]
  | 4 => some
    [.createTable "document_cache_downgrade" true
        { columns := [textColumn "canonical_url", textColumn "content_hash",
            textColumn "extractor_version", textColumn "payload", integerColumn "size_bytes",
            integerColumn "created_at", integerColumn "last_accessed"]
          key := ["canonical_url", "content_hash", "extractor_version"] },
      .insertSelect "document_cache_downgrade" "document_cache"
        ["canonical_url", "content_hash", "extractor_version", "payload", "size_bytes",
          "created_at", "last_accessed"],
      .dropTable "document_cache" false,
      .renameTable "document_cache_downgrade" "document_cache",
      .createIndex true
        { name := "document_cache_lru", table := "document_cache", columns := ["last_accessed"] },
      .setUserVersion 3]
  | 3 => some
    [.dropTable "search_history" true, .dropTable "saved_documents" true, .setUserVersion 2]
  | 2 => some [.dropTable "document_cache" true, .setUserVersion 1]
  | _ => none

section Run

variable [Storing]

/-- One version back, in a transaction of its own. -/
def downgradeStep (db : Database) (version : Int) : Option Database :=
  match downgradeScript version with
  | none => some db
  | some script =>
    db.run (script ++ [.deleteWhere schemaMigrations "version" (.integer version)])

def downgradeSteps : List Int → Database → Except StorageError Unit × Database
  | [], db => (.ok (), db)
  | version :: versions, db =>
    match downgradeStep db version with
    | none => (.error .operation, db)
    | some after => downgradeSteps versions after

def versionsAbove (target current : Int) : List Int :=
  (List.range (current - target).toNat).map (fun n : Nat => current - n)

/-- `downgrade_to`; the backup before it does not change the database. -/
def downgradeTo (backup : Except StorageError Unit) (target : Int) (db : Database) :
    Except StorageError Unit × Database :=
  if db.userVersion ≤ target then (.error .operation, db)
  else if ¬(0 ≤ target ∧ target < migrationVersion) then (.error .operation, db)
  else match backup with
    | .error error => (.error error, db)
    | .ok () => downgradeSteps (versionsAbove target db.userVersion) db

def applyMigration (now : Int) (db : Database) (migration : Migration) : Option Database := do
  let table ← db.tables schemaMigrations
  if table.shape.names.contains "version" then
    if table.rows.any (fun row => row "version" == .integer migration.version) then some db
    else
      let db ← db.run migration.script
      db.exec (.insert schemaMigrations
        [("version", .integer migration.version), ("name", .text migration.name),
          ("applied_at", .integer now)])
  else none

def pendingMigrations (version : Int) : List Migration :=
  migrations.filter (fun migration => version < migration.version)

def runMigrations (backup : Except StorageError Unit) (now : Int) (db : Database) :
    Except StorageError Unit × Database :=
  if migrationVersion < db.userVersion then
    (.error (.incompatibleVersion db.userVersion migrationVersion), db)
  else
    let pending := pendingMigrations db.userVersion
    match (if pending.isEmpty then .ok () else backup) with
    | .error error => (.error error, db)
    | .ok () =>
      match (do pending.foldlM (applyMigration now) (← db.exec createSchemaMigrations)) with
      | none => (.error .operation, db)
      | some after => (.ok (), after)

end Run

end Amatl
