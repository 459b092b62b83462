import Amatl.Lib.Lru
import Mathlib.Tactic.Linarith

/-! The two tables of cached answers. A put writes its row, drops what has expired and
deletes the rows accessed longest ago until the limits on entries and bytes are
met. It runs in one transaction: a put that fails leaves the table as it was. -/

namespace Amatl

/-- `now.saturating_sub(ttl_seconds as i64)`: rows from this second on are fresh. -/
def cutoff (now : Int64) (ttlSeconds : UInt64) : Int64 :=
  let difference := now.toInt - ttlSeconds.toInt64.toInt
  if 2 ^ 63 ≤ difference then Int64.maxValue
  else if difference < -2 ^ 63 then Int64.minValue
  else Int64.ofInt difference

/-- The columns that both tables have. -/
class CacheRow (R : Type) (K : outParam Type) extends Lru.Row R K where
  createdAt : R → Int64
  touch : Int64 → R → R
  key_touch : ∀ now row, key (touch now row) = key row

inductive PutFailure where
  /-- The rows in excess are more than an `i64` holds. -/
  | overflow
  /-- The eviction loop did not end. -/
  | unfinished
  deriving DecidableEq, Repr

section

variable {R K : Type} [CacheRow R K]

def isFresh (now : Int64) (ttlSeconds : UInt64) (row : R) : Bool :=
  cutoff now ttlSeconds ≤ CacheRow.createdAt row

def pruneEntries (before : Int64) (rows : List R) : List R :=
  rows.filter (fun row => before ≤ CacheRow.createdAt row)

variable [DecidableEq K]

def writtenRows (rows : List R) (row : R) (now : Int64) (ttlSeconds : UInt64) : List R :=
  (Lru.upsert rows row).filter (isFresh now ttlSeconds)

def excess (rows : List R) (maxEntries : UInt64) : Int :=
  rows.length - maxEntries.toInt64.toInt

def evictBytes (maxBytes : UInt64) (rows : List R) : Except PutFailure (List R) :=
  match Lru.shrink maxBytes.toInt64.toInt rows with
  | some rows => .ok rows
  | none => .error .unfinished

/-- The rows are counted first. A count in excess that is no `i64` is a panic where
overflow is checked, and else wraps to a negative `LIMIT`, which is none. -/
def cachePut (overflowChecks : Bool) (rows : List R) (row : R) (now : Int64)
    (ttlSeconds maxEntries maxBytes : UInt64) : Except PutFailure (List R) := do
  let rows := writtenRows rows row now ttlSeconds
  let rows ←
    if maxEntries.toInt64.toInt < rows.length then
      if 2 ^ 63 ≤ excess rows maxEntries then
        if overflowChecks then .error .overflow else .ok []
      else .ok (Lru.deleteFirst (excess rows maxEntries).toNat rows)
    else .ok rows
  evictBytes maxBytes rows

/-- The rows in excess are a `LIMIT MAX(0, …)` of one statement, which fails when
they are no `i64`. -/
def documentCachePut (rows : List R) (row : R) (now : Int64)
    (ttlSeconds maxEntries maxBytes : UInt64) : Except PutFailure (List R) := do
  let rows := writtenRows rows row now ttlSeconds
  let rows ←
    if 2 ^ 63 ≤ excess rows maxEntries then .error .overflow
    else .ok (Lru.deleteFirst (max 0 (excess rows maxEntries)).toNat rows)
  evictBytes maxBytes rows

/-! What a put leaves. -/

/-- The age in seconds, as the time to live counts it: no cast and no saturation. -/
def isUnexpired (now : Int64) (ttlSeconds : UInt64) (row : R) : Bool :=
  now.toInt - (CacheRow.createdAt row).toInt ≤ ttlSeconds.toNat

def unexpiredRows (rows : List R) (row : R) (now : Int64) (ttlSeconds : UInt64) : List R :=
  (Lru.upsert rows row).filter (isUnexpired now ttlSeconds)

/-- The time to live is an `i64`, and so are the rows in excess. -/
structure PutFits (before : List R) (row : R) (now : Int64)
    (ttlSeconds maxEntries : UInt64) : Prop where
  ttl : ttlSeconds.toNat < 2 ^ 63
  count : excess (unexpiredRows before row now ttlSeconds) maxEntries < 2 ^ 63

theorem evictBytes_sublist {maxBytes : UInt64} {rows after : List R}
    (h : evictBytes maxBytes rows = .ok after) : after.Sublist rows := by
  unfold evictBytes at h
  split at h
  · rename_i left hshrink
    cases h
    exact Lru.shrink_sublist hshrink
  · cases h

theorem mem_documentCachePut {rows after : List R} {row other : R} {now : Int64}
    {ttlSeconds maxEntries maxBytes : UInt64}
    (h : documentCachePut rows row now ttlSeconds maxEntries maxBytes = .ok after)
    (mem : other ∈ after) : other = row ∨ other ∈ rows := by
  unfold documentCachePut at h
  simp only at h
  split at h
  · cases h
  · have few := List.mem_of_mem_filter ((evictBytes_sublist h).subset mem)
    exact Lru.mem_upsert (List.mem_of_mem_filter few)

/-- The table after a put is within its limits, and beyond the expired rows only the
oldest ones were removed. -/
structure Bounded (before after : List R) (row : R) (now : Int64)
    (ttlSeconds maxEntries maxBytes : UInt64) : Prop where
  entries : after.length ≤ maxEntries.toNat
  bytes : Lru.total after ≤ maxBytes.toNat
  young : ∀ row ∈ after, now.toInt - (CacheRow.createdAt row).toInt ≤ ttlSeconds.toNat
  oneRow : (Lru.keys after).Nodup
  newest : Lru.LeavesNewest (unexpiredRows before row now ttlSeconds) after

theorem toInt_toInt64_le (n : UInt64) : n.toInt64.toInt ≤ n.toNat := by
  have cases := BitVec.toInt_eq_toNat_cond n.toBitVec
  have same : n.toInt64.toInt = n.toBitVec.toInt := rfl
  have size : n.toBitVec.toNat = n.toNat := rfl
  split at cases <;> omega

theorem toInt64_of_lt {n : UInt64} (h : n.toNat < 2 ^ 63) : n.toInt64.toInt = n.toNat := by
  have cases := BitVec.toInt_eq_toNat_cond n.toBitVec
  have same : n.toInt64.toInt = n.toBitVec.toInt := rfl
  have size : n.toBitVec.toNat = n.toNat := rfl
  split at cases <;> omega

theorem cutoff_le_iff (now : Int64) (seconds : UInt64) (created : Int64) :
    cutoff now seconds ≤ created ↔
      min (now.toInt - seconds.toInt64.toInt) (2 ^ 63 - 1) ≤ created.toInt := by
  have low := created.minValue_le_toInt
  have high := created.toInt_le
  have least : Int64.minValue.toInt = -2 ^ 63 := by decide
  have greatest : Int64.maxValue.toInt = 2 ^ 63 - 1 := by decide
  rw [Int64.le_iff_toInt_le, cutoff]
  split
  · omega
  · split
    · omega
    · rw [Int64.toInt_ofInt_of_le (by omega) (by omega)]
      omega

/-- The cast keeps a time to live that is an `i64`, and no row is so old that saturation would
matter. -/
theorem writtenRows_eq {ttlSeconds : UInt64} (ttl : ttlSeconds.toNat < 2 ^ 63) (rows : List R)
    (row : R) (now : Int64) :
    writtenRows rows row now ttlSeconds = unexpiredRows rows row now ttlSeconds := by
  refine List.filter_congr (fun other _ => decide_eq_decide.mpr ?_)
  have bound := now.toInt_le
  have greatest : Int64.maxValue.toInt = 2 ^ 63 - 1 := by decide
  rw [cutoff_le_iff, toInt64_of_lt ttl]
  omega

theorem PutFits.writtenRows_excess {rows : List R} {row : R} {now : Int64}
    {ttlSeconds maxEntries : UInt64} (fits : PutFits rows row now ttlSeconds maxEntries) :
    excess (writtenRows rows row now ttlSeconds) maxEntries < 2 ^ 63 :=
  writtenRows_eq fits.ttl rows row now ▸ fits.count

section

variable {before : List R} {row : R} {now : Int64} {ttlSeconds maxEntries maxBytes : UInt64}

theorem nodup_keys_writtenRows (distinct : (Lru.keys before).Nodup) (row : R) (now : Int64)
    (ttlSeconds : UInt64) :
    (Lru.keys (writtenRows before row now ttlSeconds)).Nodup :=
  (Lru.nodup_keys_upsert distinct row).sublist (List.filter_sublist.map _)

theorem nodup_keys_unexpiredRows (distinct : (Lru.keys before).Nodup) (row : R) (now : Int64)
    (ttlSeconds : UInt64) :
    (Lru.keys (unexpiredRows before row now ttlSeconds)).Nodup :=
  (Lru.nodup_keys_upsert distinct row).sublist (List.filter_sublist.map _)

theorem evictBytes_bounded (distinct : (Lru.keys before).Nodup) {few : List R}
    (newest : Lru.LeavesNewest (unexpiredRows before row now ttlSeconds) few)
    (entries : few.length ≤ maxEntries.toNat) :
    ∃ after, evictBytes maxBytes few = .ok after ∧
      Bounded before after row now ttlSeconds maxEntries maxBytes := by
  have keys : (Lru.keys few).Nodup :=
    newest.nodup (nodup_keys_unexpiredRows distinct row now ttlSeconds)
  obtain ⟨after, hafter, rest, fits⟩ := Lru.shrink_spec keys maxBytes.toInt64.toInt
  have all := newest.trans rest
  refine ⟨after, by rw [evictBytes, hafter], ?_⟩
  refine ⟨rest.sublist.length_le.trans entries, ?_, ?_, rest.nodup keys, all⟩
  · rcases fits with fits | nothing
    · exact fits.trans (toInt_toInt64_le maxBytes)
    · rw [nothing]
      exact Int.natCast_nonneg _
  · intro row mem
    have live : isUnexpired now ttlSeconds row = true :=
      List.of_mem_filter (all.sublist.subset mem)
    exact of_decide_eq_true live

theorem length_deleteFirst_excess {rows : List R} (distinct : (Lru.keys rows).Nodup) {count : Nat}
    (enough : excess rows maxEntries ≤ count) :
    (Lru.deleteFirst count rows).length ≤ maxEntries.toNat := by
  have cast := toInt_toInt64_le maxEntries
  rw [Lru.length_deleteFirst distinct]
  unfold excess at enough
  omega

theorem documentCachePut_bounded (distinct : (Lru.keys before).Nodup)
    (fits : PutFits before row now ttlSeconds maxEntries) (maxBytes : UInt64) :
    ∃ after, documentCachePut before row now ttlSeconds maxEntries maxBytes = .ok after ∧
      Bounded before after row now ttlSeconds maxEntries maxBytes := by
  have keys := nodup_keys_unexpiredRows distinct row now ttlSeconds
  have count := fits.count
  unfold documentCachePut
  simp only
  rw [writtenRows_eq fits.ttl, if_neg (by omega)]
  exact evictBytes_bounded distinct (Lru.deleteFirst_leavesNewest keys _)
    (length_deleteFirst_excess keys (by omega))

/-- A put that ends well keeps one row for a key, also when the difference wraps. -/
theorem cachePut_nodup {overflowChecks : Bool} {after : List R}
    (distinct : (Lru.keys before).Nodup)
    (h : cachePut overflowChecks before row now ttlSeconds maxEntries maxBytes = .ok after) :
    (Lru.keys after).Nodup := by
  have keys := nodup_keys_writtenRows distinct row now ttlSeconds
  have kept : ∀ {few : List R}, few.Sublist (writtenRows before row now ttlSeconds) →
      evictBytes maxBytes few = .ok after → (Lru.keys after).Nodup :=
    fun sublist h => keys.sublist (((evictBytes_sublist h).trans sublist).map _)
  unfold cachePut at h
  simp only at h
  split at h
  · split at h
    · split at h
      · cases h
      · exact kept (List.nil_sublist _) h
    · exact kept List.filter_sublist h
  · exact kept (List.Sublist.refl _) h

theorem documentCachePut_nodup {after : List R} (distinct : (Lru.keys before).Nodup)
    (h : documentCachePut before row now ttlSeconds maxEntries maxBytes = .ok after) :
    (Lru.keys after).Nodup := by
  have keys := nodup_keys_writtenRows distinct row now ttlSeconds
  unfold documentCachePut at h
  simp only at h
  split at h
  · cases h
  · exact keys.sublist (((evictBytes_sublist h).trans List.filter_sublist).map _)

end

theorem cachePut_eq_documentCachePut (overflowChecks : Bool) {rows : List R} {row : R}
    {now : Int64} {ttlSeconds maxEntries : UInt64}
    (fits : excess (writtenRows rows row now ttlSeconds) maxEntries < 2 ^ 63) (maxBytes : UInt64) :
    cachePut overflowChecks rows row now ttlSeconds maxEntries maxBytes =
      documentCachePut rows row now ttlSeconds maxEntries maxBytes := by
  unfold cachePut documentCachePut
  simp only
  generalize writtenRows rows row now ttlSeconds = rows at fits
  have small : ¬2 ^ 63 ≤ excess rows maxEntries := by omega
  rw [if_neg small, if_neg small]
  by_cases more : maxEntries.toInt64.toInt < rows.length
  · have positive : max 0 (excess rows maxEntries) = excess rows maxEntries := by
      unfold excess
      omega
    rw [if_pos more, positive]
  · have zero : (max 0 (excess rows maxEntries)).toNat = 0 := by
      unfold excess
      omega
    rw [if_neg more, zero, Lru.deleteFirst_zero]

omit [DecidableEq K] in
theorem keys_touched (chosen : R → Bool) (now : Int64) (rows : List R) :
    Lru.keys (rows.map (fun row => if chosen row then CacheRow.touch now row else row)) =
      Lru.keys rows := by
  rw [Lru.keys, List.map_map]
  refine List.map_congr_left (fun row _ => ?_)
  by_cases h : chosen row = true
  · simp [h, CacheRow.key_touch]
  · simp [h]

omit [DecidableEq K] in
theorem nodup_keys_pruneEntries {rows : List R} (distinct : (Lru.keys rows).Nodup)
    (before : Int64) : (Lru.keys (pruneEntries before rows)).Nodup :=
  distinct.sublist (List.filter_sublist.map _)

end

end Amatl
