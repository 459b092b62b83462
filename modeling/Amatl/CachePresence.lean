import Amatl.CacheBounds
import Amatl.Revalidation

/-! The row that a put has just written. The eviction goes by the second of the last access and then
by the row id, which a row keeps when it is written again, so rows of the same second may outlive it. -/

namespace Amatl

section

variable {R K : Type} [CacheRow R K]

/-- A table as the puts leave it: one row for a key, sizes that are lengths, and no more rows than
there are row ids. -/
structure CacheStore (R : Type) {K : Type} [CacheRow R K] where
  rows : List R
  distinct : (Lru.keys rows).Nodup
  sized : ∀ row ∈ rows, 0 ≤ Lru.Row.size row
  few : rows.length < 2 ^ 63

variable [DecidableEq K]

/-- The fresh rows with the access time of the written row that stand behind it in the table. -/
def rowsBehind (rows : List R) (row : R) (now : Int64) (ttlSeconds : UInt64) : List R :=
  ((writtenRows rows row now ttlSeconds).dropWhile
    (fun other => Lru.Row.key other ≠ Lru.Row.key row)).tail.filter
      (fun other => Lru.Row.accessed other = Lru.Row.accessed row)

/-- The written row is not expired at once, and there is room for it and what is behind it. -/
structure LeavesRoom (rows : List R) (row : R) (now : Int64)
    (ttlSeconds maxEntries maxBytes : UInt64) : Prop where
  fresh : isFresh now ttlSeconds row = true
  entries : (rowsBehind rows row now ttlSeconds).length + 1 ≤ maxEntries.toInt64.toInt
  bytes : Lru.Row.size row + Lru.total (rowsBehind rows row now ttlSeconds) ≤
    maxBytes.toInt64.toInt

theorem rowsBehind_suffix {rows : List R} (distinct : (Lru.keys rows).Nodup) {row : R}
    {now : Int64} {ttlSeconds : UInt64} (fresh : isFresh now ttlSeconds row = true)
    (latest : ∀ other ∈ rows, Lru.Row.accessed other ≤ Lru.Row.accessed row) :
    row :: rowsBehind rows row now ttlSeconds <:+
      Lru.order (writtenRows rows row now ttlSeconds) := by
  obtain ⟨front, back, written, former, apart⟩ := Lru.upsert_split distinct row
  have rest : ∀ other ∈ front ++ row :: back, Lru.Row.accessed other ≤ Lru.Row.accessed row := by
    intro other mem
    rcases List.mem_append.mp mem with before | mem
    · rcases former with rfl | ⟨old, -, rfl⟩
      · exact latest other (List.mem_append_left back before)
      · exact latest other (List.mem_append_left _ before)
    · rcases List.mem_cons.mp mem with rfl | behind
      · exact le_refl _
      · rcases former with rfl | ⟨old, -, rfl⟩
        · exact latest other (List.mem_append_right front behind)
        · exact latest other (List.mem_append_right front (List.mem_cons_of_mem old behind))
  have kept : writtenRows rows row now ttlSeconds = front.filter (isFresh now ttlSeconds) ++
      row :: back.filter (isFresh now ttlSeconds) := by
    rw [writtenRows, written, List.filter_append, List.filter_cons_of_pos fresh]
  have behind : rowsBehind rows row now ttlSeconds =
      (back.filter (isFresh now ttlSeconds)).filter
        (fun other => Lru.Row.accessed other = Lru.Row.accessed row) := by
    rw [rowsBehind, kept, List.dropWhile_append_of_pos, List.dropWhile_cons_of_neg (by simp),
      List.tail_cons]
    intro other mem
    exact decide_eq_true (apart other (List.mem_of_mem_filter mem))
  rw [behind, kept]
  refine Lru.order_newest (fun other mem => rest other ?_)
  rcases List.mem_append.mp mem with before | mem
  · exact List.mem_append_left _ (List.mem_of_mem_filter before)
  · rcases List.mem_cons.mp mem with rfl | behind
    · exact List.mem_append_right front List.mem_cons_self
    · exact List.mem_append_right front (List.mem_cons_of_mem row (List.mem_of_mem_filter behind))

theorem evictBytes_mem {few : List R} {row : R} {behind : List R} {maxBytes : UInt64}
    (distinct : (Lru.keys few).Nodup) (sized : ∀ other ∈ few, 0 ≤ Lru.Row.size other)
    (suffix : row :: behind <:+ Lru.order few) :
    (∃ after, evictBytes maxBytes few = .ok after ∧ row ∈ after) ↔
      Lru.Row.size row + Lru.total behind ≤ maxBytes.toInt64.toInt := by
  obtain ⟨after, shrunk, newest, -⟩ := Lru.shrink_spec distinct maxBytes.toInt64.toInt
  have put : evictBytes maxBytes few = .ok after := by rw [evictBytes, shrunk]
  have stays := Lru.suffix_shrink distinct sized (List.cons_ne_nil row behind) suffix shrunk
  rw [← Lru.mem_iff_suffix distinct newest suffix] at stays
  have sum : Lru.total (row :: behind) = Lru.Row.size row + Lru.total behind := by
    rw [Lru.total, List.map_cons, List.sum_cons, Lru.total]
  rw [← sum, ← stays]
  constructor
  · rintro ⟨other, same, mem⟩
    rw [put] at same
    cases same
    exact mem
  · exact fun mem => ⟨after, put, mem⟩

theorem mem_of_evictBytes {few after : List R} {maxBytes : UInt64} {row : R}
    (h : evictBytes maxBytes few = .ok after) (mem : row ∈ after) : row ∈ few :=
  (evictBytes_sublist h).subset mem

theorem sized_writtenRows (store : CacheStore R) {row : R} (sized : 0 ≤ Lru.Row.size row)
    (now : Int64) (ttlSeconds : UInt64) :
    ∀ other ∈ writtenRows store.rows row now ttlSeconds, 0 ≤ Lru.Row.size other := by
  intro other mem
  rcases Lru.mem_upsert (List.mem_of_mem_filter mem) with rfl | old
  · exact sized
  · exact store.sized other old

theorem length_writtenRows_le (store : CacheStore R) (row : R) (now : Int64)
    (ttlSeconds : UInt64) : (writtenRows store.rows row now ttlSeconds).length ≤ 2 ^ 63 := by
  have fewer := List.length_filter_le (isFresh now ttlSeconds) (Lru.upsert store.rows row)
  have one := Lru.length_upsert_le store.distinct row
  have few := store.few
  unfold writtenRows
  omega

/-- The written row is in the table behind a put exactly when there is room for it. -/
theorem documentCachePut_present (store : CacheStore R) {row : R}
    (sized : 0 ≤ Lru.Row.size row) (now : Int64)
    (latest : ∀ other ∈ store.rows, Lru.Row.accessed other ≤ Lru.Row.accessed row)
    (ttlSeconds maxEntries maxBytes : UInt64) :
    (∃ after, documentCachePut store.rows row now ttlSeconds maxEntries maxBytes = .ok after ∧
        row ∈ after) ↔ LeavesRoom store.rows row now ttlSeconds maxEntries maxBytes := by
  have distinct := nodup_keys_writtenRows store.distinct row now ttlSeconds
  have sizes := sized_writtenRows store sized now ttlSeconds
  have bound := length_writtenRows_le store row now ttlSeconds
  unfold documentCachePut
  simp only
  by_cases fresh : isFresh now ttlSeconds row = true
  · have suffix := rowsBehind_suffix store.distinct fresh latest
    have inside := suffix.length_le
    rw [Lru.length_order, List.length_cons] at inside
    by_cases large : 2 ^ 63 ≤ excess (writtenRows store.rows row now ttlSeconds) maxEntries
    · rw [if_pos large]
      constructor
      · rintro ⟨after, failed, -⟩
        cases failed
      · intro room
        have entries := room.entries
        unfold excess at large
        omega
    · rw [if_neg large]
      have stays := Lru.suffix_deleteFirst distinct
        (max 0 (excess (writtenRows store.rows row now ttlSeconds) maxEntries)).toNat suffix
      have newest := Lru.deleteFirst_leavesNewest distinct
        (max 0 (excess (writtenRows store.rows row now ttlSeconds) maxEntries)).toNat
      rw [List.length_cons, or_iff_right (List.cons_ne_nil _ _)] at stays
      by_cases entries : (rowsBehind store.rows row now ttlSeconds).length + 1 ≤
          maxEntries.toInt64.toInt
      · have kept := stays.mpr (by unfold excess; omega)
        refine (evictBytes_mem (newest.nodup distinct)
          (fun other mem => sizes other (newest.sublist.subset mem)) kept).trans ?_
        exact ⟨fun bytes => ⟨fresh, entries, bytes⟩, fun room => room.bytes⟩
      · constructor
        · rintro ⟨after, put, mem⟩
          have left := (Lru.mem_iff_suffix distinct newest suffix).mp (mem_of_evictBytes put mem)
          have fits := stays.mp left
          unfold excess at fits
          omega
        · exact fun room => absurd room.entries entries
  · constructor
    · rintro ⟨after, put, mem⟩
      split at put
      · cases put
      · have written := List.mem_of_mem_filter (mem_of_evictBytes put mem)
        exact absurd (List.mem_filter.mp written).2 fresh
    · exact fun room => absurd room.fresh fresh

theorem cachePut_present (overflowChecks : Bool) (store : CacheStore R) {row : R}
    (sized : 0 ≤ Lru.Row.size row) (now : Int64)
    (latest : ∀ other ∈ store.rows, Lru.Row.accessed other ≤ Lru.Row.accessed row)
    (ttlSeconds maxEntries maxBytes : UInt64) :
    (∃ after, cachePut overflowChecks store.rows row now ttlSeconds maxEntries maxBytes =
        .ok after ∧ row ∈ after) ↔
      LeavesRoom store.rows row now ttlSeconds maxEntries maxBytes := by
  by_cases fits : excess (writtenRows store.rows row now ttlSeconds) maxEntries < 2 ^ 63
  · rw [cachePut_eq_documentCachePut overflowChecks fits]
    exact documentCachePut_present store sized now latest ttlSeconds maxEntries maxBytes
  · have bound := length_writtenRows_le store row now ttlSeconds
    have large : 2 ^ 63 ≤ excess (writtenRows store.rows row now ttlSeconds) maxEntries := by
      omega
    have more : maxEntries.toInt64.toInt < (writtenRows store.rows row now ttlSeconds).length := by
      unfold excess at large
      omega
    constructor
    · rintro ⟨after, put, mem⟩
      unfold cachePut at put
      simp only at put
      rw [if_pos more, if_pos large] at put
      cases overflowChecks with
      | true => cases put
      | false => exact absurd (mem_of_evictBytes put mem) List.not_mem_nil
    · intro room
      have entries := room.entries
      unfold excess at large
      omega

end

/-- In either table the written row is there when the put commits exactly when it leaves room. -/
theorem put_present_iff {Url : Type} [DocumentJson Url] (overflowChecks : Bool)
    (searches : CacheStore SearchCacheRow) (documents : CacheStore (CachedRow Url))
    (key : CacheKey) (answer canonicalUrl contentHash extractorVersion : String)
    (payload : Document Url) (etag lastModified : Option String) (now : Int64)
    (latest : ∀ row ∈ searches.rows, row.lastAccessed.toInt ≤ now.toInt)
    (latestDocuments : ∀ row ∈ documents.rows, row.lastAccessed.toInt ≤ now.toInt)
    (ttlSeconds maxEntries maxBytes : UInt64) :
    let row := searchCacheRow key answer now
    let document :=
      cachedRow canonicalUrl contentHash extractorVersion payload now etag lastModified
    ((∃ after, cachePut overflowChecks searches.rows row now ttlSeconds maxEntries maxBytes =
          .ok after ∧ row ∈ after) ↔
        LeavesRoom searches.rows row now ttlSeconds maxEntries maxBytes) ∧
      ((∃ after, documentCachePut documents.rows document now ttlSeconds maxEntries maxBytes =
          .ok after ∧ document ∈ after) ↔
        LeavesRoom documents.rows document now ttlSeconds maxEntries maxBytes) :=
  ⟨cachePut_present overflowChecks searches (Int.natCast_nonneg _) now latest ttlSeconds
      maxEntries maxBytes,
    documentCachePut_present documents (Int.natCast_nonneg _) now latestDocuments ttlSeconds
      maxEntries maxBytes⟩

def sameSecond : List SearchCacheRow :=
  [searchCacheRow (plainKey "a") "x" 10, searchCacheRow (plainKey "b") "yyyyyyyy" 10]

def sameSecondStore : CacheStore SearchCacheRow where
  rows := sameSecond
  distinct := by decide
  sized := by decide
  few := by decide

def noDocuments : CacheStore (CachedRow PlainUrl) where
  rows := []
  distinct := List.nodup_nil
  sized := fun _ mem => absurd mem List.not_mem_nil
  few := by decide

/-- The second answer is the last row of its second, and stays. -/
theorem put_present_lastRow :
    letI := plainJson PlainUrl
    ∃ after, cachePut true sameSecond (searchCacheRow (plainKey "b") "zzz" 10) 10 300 2 9 =
      .ok after ∧ searchCacheRow (plainKey "b") "zzz" 10 ∈ after := by
  let _ := plainJson PlainUrl
  refine (put_present_iff true sameSecondStore noDocuments (plainKey "b") "zzz" "" "" ""
    (plainDocument "").payload none none 10 (by decide)
    (fun _ mem => absurd mem List.not_mem_nil) 300 2 9).1.mpr ?_
  constructor <;> decide +kernel

/-- The first answer is written again with three bytes in a table of nine. It keeps its row id, so
it is the first that is evicted. -/
theorem secondPut_evicted :
    (cachePut true sameSecond (searchCacheRow (plainKey "a") "xxx" 10) 10 300 2 9).toOption =
      some [searchCacheRow (plainKey "b") "yyyyyyyy" 10] := by
  decide +kernel

end Amatl
