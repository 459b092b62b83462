import Amatl.CacheTables
import Amatl.Circuit
import Amatl.Model

/-! Documents and the table that caches them. The rows stand in the order of
their row ids; a row keeps the document itself, whose JSON form counts only by
its length. -/

namespace Amatl

open UrlCrate

inductive FetchMethod where
  | http | rendered | localFile
  deriving DecidableEq, Repr

inductive DocumentStatus where
  | enriched | superficial | failed
  deriving DecidableEq, Repr

structure Document (Url : Type) where
  searchResultId : String
  originalUrl : Url
  canonicalUrl : Url
  finalUrl : Url
  contentHash : String
  fetchMethod : FetchMethod
  extractorUsed : Option String
  contentType : Option String
  size : UInt64
  retrievedAt : String
  status : DocumentStatus
  content : Option String
  title : Option String
  author : Option String
  publishedAt : Option String
  metadata : List (String × String)
  deriving DecidableEq

/-- The length of a document's JSON form. -/
class DocumentJson (Url : Type) where
  size : Document Url → Nat

def FetchMethod.text : FetchMethod → String
  | .http => "http"
  | .rendered => "rendered"
  | .localFile => "local"

def DocumentStatus.text : DocumentStatus → String
  | .enriched => "enriched"
  | .superficial => "superficial"
  | .failed => "failed"

@[reducible] def plainJson (Url : Type) [UrlCrate Url] : DocumentJson Url where
  size document :=
    let text := fun t : String => t.length + 2
    let optional := fun t : Option String => (t.map text).getD 4
    let keys := ["schema_version", "search_result_id", "original_url", "canonical_url",
      "final_url", "content_hash", "fetch_method", "extractor_used", "content_type", "size",
      "retrieved_at", "status", "content", "title", "author", "published_at", "metadata"]
    let entries := document.metadata.map (fun entry => text entry.1 + 1 + text entry.2)
    (keys.map (fun key => text key + 1)).sum + keys.length + 1 + text schemaVersion +
      text document.searchResultId + text (asStr document.originalUrl) +
      text (asStr document.canonicalUrl) + text (asStr document.finalUrl) +
      text document.contentHash + text document.fetchMethod.text +
      optional document.extractorUsed + optional document.contentType +
      (toString document.size).length + text document.retrievedAt + text document.status.text +
      optional document.content + optional document.title + optional document.author +
      optional document.publishedAt + entries.sum + max entries.length 1 + 1

structure DocumentCachePolicy where
  enabled : Bool
  ttlSeconds : UInt64
  maxEntries : UInt64
  maxBytes : UInt64
  storeContent : Bool
  modelVersion : Option String
  deriving DecidableEq, Repr

def DocumentCachePolicy.namespaced (policy : DocumentCachePolicy) (extractorVersion : String) :
    String :=
  match policy.modelVersion with
  | some model => extractorVersion ++ "#" ++ model
  | none => extractorVersion

/-- A row of `document_cache`. -/
structure DocumentRow (Url : Type) where
  canonicalUrl : String
  contentHash : String
  extractorVersion : String
  payload : Document Url
  sizeBytes : Int
  createdAt : Int64
  lastAccessed : Int64
  deriving DecidableEq

section

variable {Url : Type} [UrlCrate Url]

def DocumentRow.hasKey (row : DocumentRow Url) (canonicalUrl contentHash extractorVersion : String) :
    Bool :=
  row.canonicalUrl == canonicalUrl && row.contentHash == contentHash &&
    row.extractorVersion == extractorVersion

def touch (now : Int64) (row : DocumentRow Url) : DocumentRow Url :=
  { row with lastAccessed := now }

instance : CacheRow (DocumentRow Url) (String × String × String) where
  key row := (row.canonicalUrl, row.contentHash, row.extractorVersion)
  size row := row.sizeBytes
  accessed row := row.lastAccessed.toInt
  createdAt row := row.createdAt
  touch := touch
  key_touch _ _ := rfl

/-- A lookup by key; a row that is found is marked as accessed. -/
def documentCacheGet (rows : List (DocumentRow Url))
    (canonicalUrl contentHash extractorVersion : String) (now : Int64) (ttlSeconds : UInt64) :
    Option (Document Url) × List (DocumentRow Url) :=
  let found := rows.find? (fun row => row.hasKey canonicalUrl contentHash extractorVersion &&
    cutoff now ttlSeconds ≤ row.createdAt)
  match found with
  | none => (none, rows)
  | some row =>
    (some row.payload, rows.map (fun row =>
      if row.hasKey canonicalUrl contentHash extractorVersion then touch now row else row))

/-- Of two rows the one created later, of two created in one second the later row. -/
def laterRow (best : Option (DocumentRow Url)) (row : DocumentRow Url) : Option (DocumentRow Url) :=
  match best with
  | none => some row
  | some other => if other.createdAt ≤ row.createdAt then some row else some other

/-- The fresh row of a URL that was created last. -/
def latestRow (rows : List (DocumentRow Url)) (canonicalUrl extractorVersion : String)
    (now : Int64) (ttlSeconds : UInt64) : Option (DocumentRow Url) :=
  (rows.filter (fun row => row.canonicalUrl == canonicalUrl &&
    row.extractorVersion == extractorVersion && cutoff now ttlSeconds ≤ row.createdAt)).foldl
      laterRow none

def documentCacheGetLatest (rows : List (DocumentRow Url))
    (canonicalUrl extractorVersion : String) (now : Int64) (ttlSeconds : UInt64) :
    Option (Document Url) × List (DocumentRow Url) :=
  match latestRow rows canonicalUrl extractorVersion now ttlSeconds with
  | none => (none, rows)
  | some row =>
    (some row.payload, rows.map (fun other =>
      if other.hasKey row.canonicalUrl row.contentHash row.extractorVersion then touch now other
      else other))

end

/-- One access to the store: the second it is made in, and whether the database
answers. -/
structure StoreAccess where
  now : Int64
  works : Bool
  deriving DecidableEq, Repr

namespace DocumentCachePolicy

variable {Url : Type} [UrlCrate Url]

def get (policy : DocumentCachePolicy) (access : StoreAccess) (rows : List (DocumentRow Url))
    (canonicalUrl contentHash extractorVersion : String) :
    Option (Document Url) × List (DocumentRow Url) :=
  if !policy.enabled || !access.works then (none, rows)
  else documentCacheGet rows canonicalUrl contentHash (policy.namespaced extractorVersion)
    access.now policy.ttlSeconds

def latest (policy : DocumentCachePolicy) (access : StoreAccess) (rows : List (DocumentRow Url))
    (canonicalUrl extractorVersion : String) : Option (Document Url) × List (DocumentRow Url) :=
  if !policy.enabled || !access.works then (none, rows)
  else documentCacheGetLatest rows canonicalUrl (policy.namespaced extractorVersion) access.now
    policy.ttlSeconds

def put [DocumentJson Url] (policy : DocumentCachePolicy) (access : StoreAccess)
    (rows : List (DocumentRow Url)) (document : Document Url) (extractorVersion : String)
    (storageRights : Bool) : Bool × List (DocumentRow Url) :=
  if !policy.enabled || !storageRights then (false, rows)
  else
    let stored := if policy.storeContent then document else { document with content := none }
    if !access.works then (false, rows)
    else
      let row : DocumentRow Url :=
        { canonicalUrl := asStr document.canonicalUrl, contentHash := document.contentHash,
          extractorVersion := policy.namespaced extractorVersion, payload := stored,
          sizeBytes := DocumentJson.size stored, createdAt := access.now,
          lastAccessed := access.now }
      match documentCachePut rows row access.now policy.ttlSeconds policy.maxEntries
          policy.maxBytes with
      | .ok rows => (true, rows)
      | .error _ => (false, rows)

end DocumentCachePolicy

/-! A lookup and a write leave the rows there were, up to their access times, and
a write adds its own. -/

section

variable {Url : Type}

theorem latestRow_mem {rows : List (DocumentRow Url)} {canonicalUrl extractorVersion : String}
    {now : Int64} {ttlSeconds : UInt64} {row : DocumentRow Url}
    (h : latestRow rows canonicalUrl extractorVersion now ttlSeconds = some row) :
    row ∈ rows ∧ row.canonicalUrl = canonicalUrl := by
  have found : ∀ (l : List (DocumentRow Url)) (best : Option (DocumentRow Url)),
      l.foldl laterRow best = some row → row ∈ l ∨ best = some row := by
    intro l
    induction l with
    | nil => exact fun best h => .inr h
    | cons first rest ih =>
      intro best h
      rcases ih _ h with later | now
      · exact .inl (List.mem_cons_of_mem first later)
      · cases best with
        | none => exact .inl (Option.some.inj now ▸ List.mem_cons_self)
        | some other =>
          rw [laterRow] at now
          split at now
          · exact .inl (Option.some.inj now ▸ List.mem_cons_self)
          · exact .inr now
  rcases found _ _ h with mem | absurd
  · have filtered := List.mem_filter.mp mem
    have keys := filtered.2
    simp only [Bool.and_eq_true, beq_iff_eq] at keys
    exact ⟨filtered.1, keys.1.1⟩
  · cases absurd

namespace DocumentCachePolicy

variable {P : DocumentRow Url → Prop} {rows : List (DocumentRow Url)}

theorem get_found {policy : DocumentCachePolicy} {access : StoreAccess}
    {canonicalUrl contentHash extractorVersion : String} {document : Document Url}
    (h : (policy.get access rows canonicalUrl contentHash extractorVersion).1 = some document) :
    ∃ row ∈ rows, row.canonicalUrl = canonicalUrl ∧ row.payload = document := by
  unfold get documentCacheGet at h
  split at h
  · cases h
  · simp only at h
    split at h
    · cases h
    · rename_i row found
      have key := List.find?_some found
      simp only [DocumentRow.hasKey, Bool.and_eq_true, beq_iff_eq] at key
      exact ⟨row, List.mem_of_find?_eq_some found, key.1.1.1, Option.some.inj h⟩

theorem latest_found {policy : DocumentCachePolicy} {access : StoreAccess}
    {canonicalUrl extractorVersion : String} {document : Document Url}
    (h : (policy.latest access rows canonicalUrl extractorVersion).1 = some document) :
    ∃ row ∈ rows, row.canonicalUrl = canonicalUrl ∧ row.payload = document := by
  unfold latest documentCacheGetLatest at h
  split at h
  · cases h
  · split at h
    · cases h
    · rename_i row found
      obtain ⟨mem, key⟩ := latestRow_mem found
      exact ⟨row, mem, key, Option.some.inj h⟩

theorem touched_keep (touches : ∀ now row, P row → P (touch now row)) (now : Int64)
    (chosen : DocumentRow Url → Bool) (keeps : ∀ row ∈ rows, P row) :
    ∀ row ∈ rows.map (fun row => if chosen row then touch now row else row), P row := by
  intro row mem
  obtain ⟨old, hmem, hold⟩ := List.mem_map.mp mem
  have kept := keeps old hmem
  subst hold
  by_cases h : chosen old = true
  · rw [if_pos h]
    exact touches now old kept
  · rw [if_neg h]
    exact kept

theorem get_keeps (touches : ∀ now row, P row → P (touch now row)) (policy : DocumentCachePolicy)
    (access : StoreAccess) (canonicalUrl contentHash extractorVersion : String)
    (keeps : ∀ row ∈ rows, P row) :
    ∀ row ∈ (policy.get access rows canonicalUrl contentHash extractorVersion).2, P row := by
  unfold get documentCacheGet
  split
  · exact keeps
  · simp only
    split
    · exact keeps
    · exact touched_keep touches _ _ keeps

theorem latest_keeps (touches : ∀ now row, P row → P (touch now row))
    (policy : DocumentCachePolicy) (access : StoreAccess) (canonicalUrl extractorVersion : String)
    (keeps : ∀ row ∈ rows, P row) :
    ∀ row ∈ (policy.latest access rows canonicalUrl extractorVersion).2, P row := by
  unfold latest documentCacheGetLatest
  split
  · exact keeps
  · split
    · exact keeps
    · exact touched_keep touches _ _ keeps

theorem put_keeps [UrlCrate Url] [DocumentJson Url] (policy : DocumentCachePolicy)
    (access : StoreAccess) (document : Document Url) (extractorVersion : String)
    (storageRights : Bool) (keeps : ∀ row ∈ rows, P row)
    (added : ∀ row : DocumentRow Url, row.canonicalUrl = asStr document.canonicalUrl →
      row.payload = document ∨ row.payload = { document with content := none } → P row) :
    ∀ row ∈ (policy.put access rows document extractorVersion storageRights).2, P row := by
  unfold put
  split
  · exact keeps
  · simp only
    split
    · exact keeps
    · split
      · rename_i after hput
        intro row mem
        rcases mem_documentCachePut hput mem with new | old
        · refine added row (by rw [new]) ?_
          rw [new]
          by_cases content : policy.storeContent = true
          · simp [content]
          · simp [content]
        · exact keeps row old
      · exact keeps

end DocumentCachePolicy

end

end Amatl
