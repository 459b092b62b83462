import Amatl.Lib.Loop
import Amatl.Lib.StableSort
import Mathlib.Algebra.BigOperators.Group.List.Basic
import Mathlib.Algebra.Order.BigOperators.Group.List
import Mathlib.Algebra.Order.Ring.Int
import Mathlib.Data.List.Nodup

/-! Tables of cached rows, which stand in the order of their row ids. A row is written
under its key, and rows are deleted from the one accessed longest ago; of rows with
one access time, the first row is the oldest. -/

namespace Lru

open Loop StableSort

class Row (R : Type*) (K : outParam Type*) where
  key : R → K
  size : R → Int
  accessed : R → Int

variable {R K : Type*} [Row R K]

def keys (rows : List R) : List K := rows.map Row.key

def total (rows : List R) : Int := (rows.map Row.size).sum

def byAccess (a b : R) : Ordering := compare (Row.accessed a) (Row.accessed b)

instance : Std.TransCmp (byAccess : R → R → Ordering) :=
  inferInstanceAs (Std.TransCmp (compareOn (Row.accessed : R → Int)))

def order (rows : List R) : List R := sortBy byAccess rows

theorem total_append (a b : List R) : total (a ++ b) = total a + total b := by
  rw [total, List.map_append, List.sum_append, total, total]

theorem total_order (rows : List R) : total (order rows) = total rows :=
  ((sortBy_perm byAccess rows).map Row.size).sum_eq

theorem total_nonneg {rows : List R} (sized : ∀ row ∈ rows, 0 ≤ Row.size row) : 0 ≤ total rows := by
  refine List.sum_nonneg (fun size mem => ?_)
  obtain ⟨row, inside, rfl⟩ := List.mem_map.mp mem
  exact sized row inside

theorem order_split {rows : List R} {time : Int} (latest : ∀ row ∈ rows, Row.accessed row ≤ time) :
    order rows = order (rows.filter (fun row => Row.accessed row < time)) ++
      rows.filter (fun row => Row.accessed row = time) := by
  refine eq_of_keyClass_eq (sortBy_pairwise rows) ?_ (fun x => ?_)
  · refine List.pairwise_append.mpr ⟨sortBy_pairwise _, ?_, fun a hold b hnew => ?_⟩
    · refine List.pairwise_of_forall_mem_list (fun a ha b hb => ?_)
      have first := (List.mem_filter.mp ha).2
      have second := (List.mem_filter.mp hb).2
      rw [decide_eq_true_eq] at first second
      simp [Below, byAccess, first, second]
    · have first := (List.mem_filter.mp (mem_sortBy.mp hold)).2
      have second := (List.mem_filter.mp hnew).2
      rw [decide_eq_true_eq] at first second
      rw [Below, byAccess, Std.isLE_compare]
      omega
  · have sorted : ∀ l : List R, keyClass byAccess x (order l) = keyClass byAccess x l :=
      keyClass_sortBy x
    rw [sorted]
    unfold keyClass at sorted ⊢
    rw [List.filter_append, sorted, List.filter_filter, List.filter_filter]
    by_cases last : Row.accessed x = time
    · have none : rows.filter (fun row => byAccess x row == .eq && decide (Row.accessed row < time)) =
          [] := by
        refine List.filter_eq_nil_iff.mpr (fun row _ both => ?_)
        simp only [byAccess, Bool.and_eq_true, beq_iff_eq, compare_eq_iff_eq, decide_eq_true_eq]
          at both
        omega
      rw [none, List.nil_append]
      refine List.filter_congr (fun row _ => ?_)
      simp only [byAccess, last]
      by_cases same : Row.accessed row = time <;> simp [same]
      exact fun h => same h.symm
    · have none : rows.filter (fun row => byAccess x row == .eq && decide (Row.accessed row = time)) =
          [] := by
        refine List.filter_eq_nil_iff.mpr (fun row _ both => ?_)
        simp only [byAccess, Bool.and_eq_true, beq_iff_eq, compare_eq_iff_eq, decide_eq_true_eq]
          at both
        omega
      rw [none, List.append_nil]
      refine List.filter_congr (fun row mem => ?_)
      have le := latest row mem
      by_cases same : Row.accessed x = Row.accessed row
      · have less : Row.accessed row < time := by omega
        simp [less]
      · simp [byAccess, same]

theorem order_newest {front back : List R} {row : R}
    (latest : ∀ other ∈ front ++ row :: back, Row.accessed other ≤ Row.accessed row) :
    row :: back.filter (fun other => Row.accessed other = Row.accessed row) <:+
      order (front ++ row :: back) := by
  have last : (front ++ row :: back).filter (fun other => Row.accessed other = Row.accessed row) =
      front.filter (fun other => Row.accessed other = Row.accessed row) ++
        row :: back.filter (fun other => Row.accessed other = Row.accessed row) := by
    simp [List.filter_append]
  rw [order_split latest, last, ← List.append_assoc]
  exact List.suffix_append _ _

variable [DecidableEq K]

/-- A row keeps its place when it is written again. -/
def upsert (rows : List R) (row : R) : List R :=
  if rows.any (fun other => Row.key other = Row.key row) then
    rows.map (fun other => if Row.key other = Row.key row then row else other)
  else rows ++ [row]

def deleteFirst (count : Nat) (rows : List R) : List R :=
  rows.filter (fun row => Row.key row ∉ keys ((order rows).take count))

def shrinkPass (limit : Int) (_ : Nat) (rows : List R) : Turn (List R) :=
  if total rows ≤ limit || rows.isEmpty then .done rows else .again (deleteFirst 1 rows)

/-- The oldest row is deleted until the rest fits or nothing is left. -/
def shrink (limit : Int) (rows : List R) : Option (List R) :=
  run (shrinkPass limit) (rows.length + 1) 0 rows

/-- Some of the oldest rows are gone, and the others are as they were. -/
structure LeavesNewest (before after : List R) : Prop where
  sublist : after.Sublist before
  suffix : order after <:+ order before

omit [DecidableEq K] in
theorem LeavesNewest.refl (rows : List R) : LeavesNewest rows rows :=
  ⟨List.Sublist.refl rows, List.suffix_rfl⟩

omit [DecidableEq K] in
theorem LeavesNewest.nil (rows : List R) : LeavesNewest rows [] where
  sublist := List.nil_sublist rows
  suffix := List.nil_suffix

omit [DecidableEq K] in
theorem LeavesNewest.trans {a b c : List R} (h : LeavesNewest a b) (h' : LeavesNewest b c) :
    LeavesNewest a c :=
  ⟨h'.sublist.trans h.sublist, h'.suffix.trans h.suffix⟩

omit [DecidableEq K] in
theorem LeavesNewest.nodup {before after : List R} (h : LeavesNewest before after)
    (distinct : (keys before).Nodup) : (keys after).Nodup :=
  distinct.sublist (h.sublist.map Row.key)

omit [DecidableEq K] in
/-- A row stays exactly when the rows behind it do. -/
theorem mem_iff_suffix {rows after tail : List R} {row : R} (distinct : (keys rows).Nodup)
    (newest : LeavesNewest rows after) (suffix : row :: tail <:+ order rows) :
    row ∈ after ↔ row :: tail <:+ order after := by
  constructor
  · intro mem
    rcases List.suffix_or_suffix_of_suffix suffix newest.suffix with whole | part
    · exact whole
    · rcases List.suffix_cons_iff.mp part with same | later
      · exact same ▸ List.suffix_rfl
      · have once : (row :: tail).Nodup :=
          (((sortBy_perm byAccess rows).nodup_iff).mpr (List.Nodup.of_map Row.key distinct)).sublist
            suffix.sublist
        exact absurd (later.subset (mem_sortBy.mpr mem)) (List.nodup_cons.mp once).1
  · exact fun left => mem_sortBy.mp (left.subset List.mem_cons_self)

omit [DecidableEq K] in
theorem order_filter (p : R → Bool) (rows : List R) :
    order (rows.filter p) = (order rows).filter p := by
  apply eq_of_keyClass_eq (sortBy_pairwise (rows.filter p))
  · exact (sortBy_pairwise rows).filter p
  · intro x
    have swap : ∀ l : List R, keyClass byAccess x (l.filter p) = (keyClass byAccess x l).filter p :=
      fun l => by simp only [keyClass, List.filter_filter, Bool.and_comm]
    have sorted : ∀ l : List R, keyClass byAccess x (order l) = keyClass byAccess x l :=
      keyClass_sortBy x
    rw [swap, sorted, ← swap]
    exact sorted (rows.filter p)

theorem mem_upsert {rows : List R} {row other : R} (h : other ∈ upsert rows row) :
    other = row ∨ other ∈ rows := by
  unfold upsert at h
  split at h
  · obtain ⟨old, mem, hold⟩ := List.mem_map.mp h
    by_cases same : Row.key old = Row.key row
    · rw [if_pos same] at hold
      exact .inl hold.symm
    · rw [if_neg same] at hold
      exact .inr (hold ▸ mem)
  · rcases List.mem_append.mp h with old | new
    · exact .inr old
    · exact .inl (List.mem_singleton.mp new)

theorem nodup_keys_upsert {rows : List R} (distinct : (keys rows).Nodup) (row : R) :
    (keys (upsert rows row)).Nodup := by
  unfold upsert
  split
  · have same : keys (rows.map (fun other => if Row.key other = Row.key row then row else other)) =
        keys rows := by
      rw [keys, List.map_map]
      refine List.map_congr_left (fun other _ => ?_)
      by_cases h : Row.key other = Row.key row
      · simp [h]
      · simp [h]
    rw [same]
    exact distinct
  · rename_i none
    rw [keys, List.map_append, List.map_singleton]
    refine List.nodup_append.mpr ⟨distinct, List.nodup_singleton _, ?_⟩
    rintro key mem other hother rfl
    obtain ⟨old, hold, hkey⟩ := List.mem_map.mp mem
    rw [List.mem_singleton.mp hother] at hkey
    exact none (List.any_eq_true.mpr ⟨old, hold, by simp [hkey]⟩)

theorem upsert_split {rows : List R} (distinct : (keys rows).Nodup) (row : R) :
    ∃ front back, upsert rows row = front ++ row :: back ∧
      (rows = front ++ back ∨ ∃ old, Row.key old = Row.key row ∧ rows = front ++ old :: back) ∧
      ∀ other ∈ front, Row.key other ≠ Row.key row := by
  by_cases there : ∃ old ∈ rows, Row.key old = Row.key row
  · obtain ⟨old, mem, same⟩ := there
    obtain ⟨front, back, rfl⟩ := List.append_of_mem mem
    have apart : ∀ other ∈ front ++ back, Row.key other ≠ Row.key row := by
      rw [keys, List.map_append, List.map_cons, List.nodup_middle, ← List.map_append,
        List.nodup_cons] at distinct
      intro other inside equal
      exact distinct.1 (same ▸ equal ▸ List.mem_map_of_mem inside)
    have kept : ∀ l : List R, (∀ other ∈ l, Row.key other ≠ Row.key row) →
        l.map (fun other => if Row.key other = Row.key row then row else other) = l := by
      intro l others
      have same : l.map (fun other => if Row.key other = Row.key row then row else other) =
          l.map id := List.map_congr_left (fun other inside => if_neg (others other inside))
      rw [same, List.map_id]
    refine ⟨front, back, ?_, .inr ⟨old, same, rfl⟩, fun other inside =>
      apart other (List.mem_append_left back inside)⟩
    rw [upsert, if_pos (List.any_eq_true.mpr ⟨old, mem, by simp [same]⟩), List.map_append,
      List.map_cons, if_pos same, kept front (fun other inside =>
        apart other (List.mem_append_left back inside)), kept back (fun other inside =>
        apart other (List.mem_append_right front inside))]
  · refine ⟨rows, [], ?_, .inl (List.append_nil rows).symm, fun other inside same =>
      there ⟨other, inside, same⟩⟩
    rw [upsert, if_neg]
    intro found
    obtain ⟨other, inside, same⟩ := List.any_eq_true.mp found
    exact there ⟨other, inside, of_decide_eq_true same⟩

theorem length_upsert_le {rows : List R} (distinct : (keys rows).Nodup) (row : R) :
    (upsert rows row).length ≤ rows.length + 1 := by
  obtain ⟨front, back, written, rfl | ⟨old, -, rfl⟩, -⟩ := upsert_split distinct row
  · rw [written]
    simp only [List.length_append, List.length_cons]
    omega
  · rw [written]
    simp only [List.length_append, List.length_cons]
    omega

theorem filter_notMem_keys {front back : List R} (distinct : (keys (front ++ back)).Nodup) :
    (front ++ back).filter (fun row => Row.key row ∉ keys front) = back := by
  rw [keys, List.map_append] at distinct
  have apart := (List.nodup_append.mp distinct).2.2
  have gone : front.filter (fun row => Row.key row ∉ keys front) = [] := by
    refine List.filter_eq_nil_iff.mpr (fun row mem => ?_)
    have there : Row.key row ∈ keys front := List.mem_map_of_mem mem
    simpa using there
  have kept : back.filter (fun row => Row.key row ∉ keys front) = back := by
    refine List.filter_eq_self.mpr (fun row mem => ?_)
    refine decide_eq_true (fun hmem => ?_)
    exact apart _ hmem _ (List.mem_map_of_mem mem) rfl
  rw [List.filter_append, gone, kept, List.nil_append]

theorem order_deleteFirst {rows : List R} (distinct : (keys rows).Nodup) (count : Nat) :
    order (deleteFirst count rows) = (order rows).drop count := by
  have sorted : (keys (order rows)).Nodup :=
    (((sortBy_perm byAccess rows).map Row.key).nodup_iff).mpr distinct
  have split : (order rows).take count ++ (order rows).drop count = order rows :=
    List.take_append_drop count (order rows)
  rw [deleteFirst, order_filter]
  rw [← split] at sorted
  have left := filter_notMem_keys sorted
  rw [split] at left
  exact left

omit [DecidableEq K] in
theorem length_order (rows : List R) : (order rows).length = rows.length :=
  (sortBy_perm byAccess rows).length_eq

theorem length_deleteFirst {rows : List R} (distinct : (keys rows).Nodup) (count : Nat) :
    (deleteFirst count rows).length = rows.length - count := by
  rw [← length_order, order_deleteFirst distinct, List.length_drop, length_order]

theorem deleteFirst_leavesNewest {rows : List R} (distinct : (keys rows).Nodup) (count : Nat) :
    LeavesNewest rows (deleteFirst count rows) where
  sublist := List.filter_sublist
  suffix := by
    rw [order_deleteFirst distinct]
    exact List.drop_suffix count (order rows)

theorem deleteFirst_zero (rows : List R) : deleteFirst 0 rows = rows := by
  simp [deleteFirst, keys]

theorem shrink_sublist {limit : Int} {rows after : List R} (h : shrink limit rows = some after) :
    after.Sublist rows := by
  have keeps : ∀ index s, List.Sublist (α := R) s rows →
      (shrinkPass limit index s).All (fun s => s.Sublist rows) := by
    intro index s hs
    unfold shrinkPass
    split
    · exact hs
    · exact List.filter_sublist.trans hs
  exact run_invariant keeps (List.Sublist.refl rows) h

theorem length_deleteFirst_one_lt {rows : List R} (some_row : rows ≠ []) :
    (deleteFirst 1 rows).length < rows.length := by
  obtain ⟨oldest, rest, horder⟩ := List.exists_cons_of_ne_nil
    (fun h : order rows = [] => some_row (List.length_eq_zero_iff.mp (by
      rw [← length_order, h, List.length_nil])))
  have mem : oldest ∈ rows := mem_sortBy.mp (show oldest ∈ order rows by simp [horder])
  refine List.length_filter_lt_length_iff_exists.mpr ⟨oldest, mem, ?_⟩
  simp [horder, keys]

/-- The loop ends, and then the rest fits or nothing is left. -/
theorem shrink_spec {rows : List R} (distinct : (keys rows).Nodup) (limit : Int) :
    ∃ after, shrink limit rows = some after ∧ LeavesNewest rows after ∧
      (total after ≤ limit ∨ after = []) := by
  have lowers : ∀ index s t, shrinkPass limit index s = .again t →
      List.length (α := R) t < s.length := by
    intro index s t h
    unfold shrinkPass at h
    split at h
    · cases h
    · rename_i large
      cases h
      exact length_deleteFirst_one_lt (fun nil => large (by simp [nil]))
  have keeps : ∀ index s, LeavesNewest rows s →
      (shrinkPass limit index s).All (LeavesNewest rows) := by
    intro index s h
    unfold shrinkPass
    split
    · exact h
    · exact h.trans (deleteFirst_leavesNewest (h.nodup distinct) 1)
  have exits : ∀ index s t, shrinkPass limit index s = .done t →
      total (R := R) t ≤ limit ∨ t = [] := by
    intro index s t h
    unfold shrinkPass at h
    split at h
    · rename_i small
      cases h
      simpa using small
    · cases h
  obtain ⟨after, hafter⟩ := run_ends (shrinkPass limit) List.length lowers 0 (Nat.lt_succ_self _)
  exact ⟨after, hafter, run_invariant keeps (.refl rows) hafter, run_exit exits hafter⟩

theorem suffix_deleteFirst {rows tail : List R} (distinct : (keys rows).Nodup) (count : Nat)
    (suffix : tail <:+ order rows) :
    tail <:+ order (deleteFirst count rows) ↔ tail = [] ∨ tail.length + count ≤ rows.length := by
  rw [order_deleteFirst distinct]
  have size := length_order rows
  obtain ⟨older, whole⟩ := suffix
  have both : older.length + tail.length = rows.length := by
    rw [← size, ← whole, List.length_append]
  constructor
  · intro left
    have short := left.length_le
    rw [List.length_drop] at short
    by_cases empty : tail = []
    · exact .inl empty
    · have some_row := List.length_pos_iff.mpr empty
      exact .inr (by omega)
  · rintro (rfl | fits)
    · exact List.nil_suffix
    · rw [← whole, List.drop_append_of_le_length (by omega)]
      exact List.suffix_append _ _

/-- The newest rows stay in a table that is shrunk exactly when they fit. -/
theorem suffix_shrink {rows after tail : List R} {limit : Int} (distinct : (keys rows).Nodup)
    (sized : ∀ row ∈ rows, 0 ≤ Row.size row) (some_row : tail ≠ [])
    (suffix : tail <:+ order rows) (h : shrink limit rows = some after) :
    tail <:+ order after ↔ total tail ≤ limit := by
  obtain ⟨same, hsame, newest, fits⟩ := shrink_spec distinct limit
  rw [h] at hsame
  obtain rfl := Option.some.inj hsame
  constructor
  · rintro ⟨older, whole⟩
    have sum : total older + total tail = total after := by
      rw [← total_append, whole, total_order]
    have positive : 0 ≤ total older := by
      refine total_nonneg (fun row mem => sized row (newest.sublist.subset ?_))
      have inside : row ∈ order after := whole ▸ List.mem_append_left tail mem
      exact mem_sortBy.mp inside
    rcases fits with fits | nothing
    · omega
    · subst nothing
      exact absurd (List.append_eq_nil_iff.mp whole).2 some_row
  · intro small
    have keeps : ∀ index s, ((keys s).Nodup ∧ tail <:+ order s) →
        (shrinkPass limit index s).All (fun s => (keys s).Nodup ∧ tail <:+ order s) := by
      rintro index s ⟨apart, stays⟩
      unfold shrinkPass
      by_cases ends : (total s ≤ limit || s.isEmpty) = true
      · rw [if_pos ends]
        exact ⟨apart, stays⟩
      · rw [if_neg ends]
        -- a table that is too large has a row beside the tail
        have more : tail.length < s.length := by
          have le := stays.length_le
          rw [length_order] at le
          by_contra all
          have equal := stays.eq_of_length (by rw [length_order]; omega)
          rw [← total_order, ← equal] at ends
          simp [small] at ends
        exact ⟨(deleteFirst_leavesNewest apart 1).nodup apart,
          (suffix_deleteFirst apart 1 stays).mpr (.inr more)⟩
    exact (run_invariant keeps ⟨distinct, suffix⟩ h).2

end Lru
