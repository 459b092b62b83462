import Amatl.Deep.Documents
import Amatl.SearchCache

/-! Runs of the two cache tables. Whatever was put, looked up and pruned before, a put
leaves a table within its limits, and both puts leave the same rows. -/

namespace Amatl

inductive SearchCacheOperation where
  | put (key : CacheKey) (payload : String) (now : Int64)
      (ttlSeconds maxEntries maxBytes : UInt64)
  | get (key : CacheKey) (now : Int64) (ttlSeconds : UInt64)
  | prune (before : Int64)

/-- A put that fails is rolled back. -/
def committed {R : Type} (rows : List R) : Except PutFailure (List R) → List R
  | .ok after => after
  | .error _ => rows

def SearchCacheOperation.run (overflowChecks : Bool) (rows : List SearchCacheRow) :
    SearchCacheOperation → List SearchCacheRow
  | .put key payload now ttlSeconds maxEntries maxBytes =>
    committed rows (cachePut overflowChecks rows (searchCacheRow key payload now) now ttlSeconds
      maxEntries maxBytes)
  | .get key now ttlSeconds => (cacheGet rows key now ttlSeconds).2
  | .prune before => pruneEntries before rows

/-- A lookup with revalidation touches the row that a plain one with the longer time
to live does. -/
inductive DocumentCacheOperation (Url : Type) where
  | put (row : DocumentRow Url) (now : Int64) (ttlSeconds maxEntries maxBytes : UInt64)
  | get (canonicalUrl contentHash extractorVersion : String) (now : Int64) (ttlSeconds : UInt64)
  | latest (canonicalUrl extractorVersion : String) (now : Int64) (ttlSeconds : UInt64)
  | prune (before : Int64)

def DocumentCacheOperation.run {Url : Type} (rows : List (DocumentRow Url)) :
    DocumentCacheOperation Url → List (DocumentRow Url)
  | .put row now ttlSeconds maxEntries maxBytes =>
    committed rows (documentCachePut rows row now ttlSeconds maxEntries maxBytes)
  | .get canonicalUrl contentHash extractorVersion now ttlSeconds =>
    (documentCacheGet rows canonicalUrl contentHash extractorVersion now ttlSeconds).2
  | .latest canonicalUrl extractorVersion now ttlSeconds =>
    (documentCacheGetLatest rows canonicalUrl extractorVersion now ttlSeconds).2
  | .prune before => pruneEntries before rows

theorem nodup_keys_committed {R K : Type} [CacheRow R K] {rows : List R}
    {outcome : Except PutFailure (List R)} (distinct : (Lru.keys rows).Nodup)
    (kept : ∀ after, outcome = .ok after → (Lru.keys after).Nodup) :
    (Lru.keys (committed rows outcome)).Nodup := by
  cases outcome with
  | ok after => exact kept after rfl
  | error failure => exact distinct

theorem SearchCacheOperation.run_nodup (overflowChecks : Bool) {rows : List SearchCacheRow}
    (distinct : (Lru.keys rows).Nodup) (operation : SearchCacheOperation) :
    (Lru.keys (operation.run overflowChecks rows)).Nodup := by
  cases operation with
  | put key payload now ttlSeconds maxEntries maxBytes =>
    exact nodup_keys_committed distinct (fun after h => cachePut_nodup distinct h)
  | get key now ttlSeconds =>
    simp only [run, cacheGet]
    split
    · exact distinct
    · have same := keys_touched (fun row : SearchCacheRow => row.key = key) now rows
      simp only [decide_eq_true_eq] at same
      rw [same]
      exact distinct
  | prune before => exact nodup_keys_pruneEntries distinct before

theorem DocumentCacheOperation.run_nodup {Url : Type} {rows : List (DocumentRow Url)}
    (distinct : (Lru.keys rows).Nodup) (operation : DocumentCacheOperation Url) :
    (Lru.keys (operation.run rows)).Nodup := by
  have touched : ∀ (chosen : DocumentRow Url → Bool) (now : Int64),
      (Lru.keys (rows.map (fun row => if chosen row then touch now row else row))).Nodup := by
    intro chosen now
    have same := keys_touched chosen now rows
    exact same ▸ distinct
  cases operation with
  | put row now ttlSeconds maxEntries maxBytes =>
    exact nodup_keys_committed distinct (fun after h => documentCachePut_nodup distinct h)
  | get canonicalUrl contentHash extractorVersion now ttlSeconds =>
    simp only [run, documentCacheGet]
    split
    · exact distinct
    · exact touched _ _
  | latest canonicalUrl extractorVersion now ttlSeconds =>
    simp only [run, documentCacheGetLatest]
    split
    · exact distinct
    · exact touched _ _
  | prune before => exact nodup_keys_pruneEntries distinct before

theorem run_nodup {R K Operation : Type} [CacheRow R K] {run : List R → Operation → List R}
    (step : ∀ rows operation, (Lru.keys rows).Nodup → (Lru.keys (run rows operation)).Nodup)
    (operations : List Operation) : (Lru.keys (operations.foldl run [])).Nodup := by
  have keeps : ∀ rows : List R, (Lru.keys rows).Nodup →
      (Lru.keys (operations.foldl run rows)).Nodup := by
    induction operations with
    | nil => exact fun rows h => h
    | cons operation operations ih => exact fun rows h => ih _ (step rows operation h)
  exact keeps [] List.nodup_nil

/-- After any operations, a put whose time to live and difference are each an `i64` is within its
limits, in either table, and the put of the other table would leave the same rows. -/
theorem cacheRuns_bounded (Url : Type) (overflowChecks : Bool)
    (operations : List SearchCacheOperation) (documents : List (DocumentCacheOperation Url))
    (key : CacheKey) (payload : String) (document : DocumentRow Url) (now : Int64)
    (ttlSeconds maxEntries maxBytes : UInt64)
    (fits : PutFits (operations.foldl (SearchCacheOperation.run overflowChecks) [])
      (searchCacheRow key payload now) now ttlSeconds maxEntries)
    (documentFits : PutFits (documents.foldl DocumentCacheOperation.run []) document now
      ttlSeconds maxEntries) :
    let rows := operations.foldl (SearchCacheOperation.run overflowChecks) []
    let row := searchCacheRow key payload now
    let stored := documents.foldl DocumentCacheOperation.run []
    (∃ after, cachePut overflowChecks rows row now ttlSeconds maxEntries maxBytes = .ok after ∧
        documentCachePut rows row now ttlSeconds maxEntries maxBytes = .ok after ∧
        Bounded rows after row now ttlSeconds maxEntries maxBytes) ∧
      ∃ after, documentCachePut stored document now ttlSeconds maxEntries maxBytes = .ok after ∧
        cachePut overflowChecks stored document now ttlSeconds maxEntries maxBytes = .ok after ∧
        Bounded stored after document now ttlSeconds maxEntries maxBytes := by
  have distinct := run_nodup (fun rows operation h =>
    SearchCacheOperation.run_nodup overflowChecks h operation) operations
  have distinct' := run_nodup (fun rows operation h =>
    DocumentCacheOperation.run_nodup h operation) documents
  constructor
  · obtain ⟨after, put, bounded⟩ := documentCachePut_bounded distinct fits maxBytes
    refine ⟨after, ?_, put, bounded⟩
    rw [cachePut_eq_documentCachePut overflowChecks fits.writtenRows_excess]
    exact put
  · obtain ⟨after, put, bounded⟩ := documentCachePut_bounded distinct' documentFits maxBytes
    refine ⟨after, put, ?_, bounded⟩
    rw [cachePut_eq_documentCachePut overflowChecks documentFits.writtenRows_excess]
    exact put

def plainKey (query : String) : CacheKey := ⟨"brave", "1", query, ""⟩

def plainDocument (url : String) : DocumentRow PlainUrl where
  canonicalUrl := url
  contentHash := "0"
  extractorVersion := "1"
  payload :=
    { searchResultId := "", originalUrl := ⟨"lean.example", "a"⟩,
      canonicalUrl := ⟨"lean.example", "a"⟩, finalUrl := ⟨"lean.example", "a"⟩,
      contentHash := "0", fetchMethod := .http, extractorUsed := none, contentType := none,
      size := 0, retrievedAt := "", status := .enriched, content := none, title := none,
      author := none, publishedAt := none, metadata := [] }
  sizeBytes := 300
  createdAt := 20
  lastAccessed := 20

/-- Two answers are put and the first is looked up again, so that a third put over two
entries evicts the second. -/
theorem thirdPut_bounded :
    ∃ after, cachePut false
        ([.put (plainKey "a") "x" 10 300 2 100, .put (plainKey "b") "y" 11 300 2 100,
          .get (plainKey "a") 12 300].foldl (SearchCacheOperation.run false) [])
        (searchCacheRow (plainKey "c") "z" 20) 20 300 2 100 = .ok after ∧
      after.map (fun row => row.payload) = ["x", "z"] ∧ after.length ≤ 2 ∧ Lru.total after ≤ 100 := by
  obtain ⟨⟨after, put, -, bounded⟩, -⟩ := cacheRuns_bounded PlainUrl false
    [.put (plainKey "a") "x" 10 300 2 100, .put (plainKey "b") "y" 11 300 2 100,
      .get (plainKey "a") 12 300]
    [] (plainKey "c") "z" (plainDocument "https://lean.example/a") 20 300 2 100
    ⟨by decide, by decide +kernel⟩ ⟨by decide, by decide +kernel⟩
  refine ⟨after, put, ?_, bounded.entries, bounded.bytes⟩
  have computed : (cachePut false
      ([.put (plainKey "a") "x" 10 300 2 100, .put (plainKey "b") "y" 11 300 2 100,
        .get (plainKey "a") 12 300].foldl (SearchCacheOperation.run false) [])
      (searchCacheRow (plainKey "c") "z" 20) 20 300 2 100).toOption.map
        (fun rows => rows.map (fun row => row.payload)) = some ["x", "z"] := by decide +kernel
  rw [put] at computed
  exact Option.some.inj computed

/-- An entry limit that is negative as an `i64`: the one put evicts every row, the
other fails. -/
theorem hugeLimit_differs :
    (cachePut false [] (searchCacheRow (plainKey "a") "x" 10) 10 300 (2 ^ 63) 100).toOption =
        some [] ∧
      (documentCachePut [] (searchCacheRow (plainKey "a") "x" 10) 10 300 (2 ^ 63)
        100).toOption = none := by
  decide +kernel

/-- A time to live that is negative as an `i64`: two fresh rows go, and the row that was put first
stays. -/
example :
    (cachePut false
      ([.put (plainKey "a") "x" 100 300 10 100, .get (plainKey "a") 50 300,
        .put (plainKey "b") "y" 60 300 10 100].foldl (SearchCacheOperation.run false) [])
      (searchCacheRow (plainKey "c") "z" 80) 80 (2 ^ 64 - 5) 10 100).toOption.map
        (fun rows => rows.map (fun row => row.payload)) = some ["x"] := by
  decide +kernel

end Amatl
