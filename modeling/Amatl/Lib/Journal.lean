import Amatl.Lib.StableSort
import Mathlib.Algebra.Order.Ring.Int
import Mathlib.Data.List.Infix

/-! Tables of stamped rows that are listed from the newest to the oldest, and a reader
who goes through the pages of the listing while rows come and go. -/

namespace Journal

open StableSort

class Entry (R : Type*) where
  stamp : R → Int
  id : R → Nat

variable {R : Type*} [Entry R]

def ids (rows : List R) : List Nat := rows.map Entry.id

/-- Later stamps come first, and of one stamp the larger identifiers. -/
def byAge (a b : R) : Ordering :=
  (compare (Entry.stamp b) (Entry.stamp a)).then (compare (Entry.id b) (Entry.id a))

instance : Std.TransCmp (byAge : R → R → Ordering) := by
  have byStamp : Std.TransCmp (fun a b : R => compare (Entry.stamp b) (Entry.stamp a)) :=
    inferInstanceAs (Std.TransCmp (fun a b : R => compareOn Entry.stamp b a))
  have byId : Std.TransCmp (fun a b : R => compare (Entry.id b) (Entry.id a)) :=
    inferInstanceAs (Std.TransCmp (fun a b : R => compareOn Entry.id b a))
  exact inferInstanceAs (Std.TransCmp (compareLex
    (fun a b : R => compare (Entry.stamp b) (Entry.stamp a))
    (fun a b : R => compare (Entry.id b) (Entry.id a))))

def newest (rows : List R) : List R := sortBy byAge rows

def page (limit offset : Nat) (rows : List R) : List R := ((newest rows).drop offset).take limit

theorem mem_newest {rows : List R} {row : R} : row ∈ newest rows ↔ row ∈ rows := mem_sortBy

theorem length_newest (rows : List R) : (newest rows).length = rows.length :=
  (sortBy_perm byAge rows).length_eq

theorem eq_of_byAge {rows : List R} (distinct : (ids rows).Nodup) {a b : R} (ina : a ∈ rows)
    (inb : b ∈ rows) (same : byAge a b = .eq) : a = b := by
  have equal : Entry.id b = Entry.id a := by
    simp only [byAge, Ordering.then_eq_eq, compare_eq_iff_eq] at same
    exact same.2
  exact List.inj_on_of_nodup_map distinct ina inb equal.symm

/-- A sorted arrangement of the rows is their listing. -/
theorem newest_eq {rows listed : List R} (distinct : (ids listed).Nodup)
    (perm : rows.Perm listed) (sorted : listed.Pairwise (Below byAge)) : newest rows = listed :=
  sortBy_eq_of_sorted perm sorted fun _ ina _ inb same => eq_of_byAge distinct ina inb same

theorem newest_filter {rows : List R} (distinct : (ids rows).Nodup) (keep : R → Bool) :
    newest (rows.filter keep) = (newest rows).filter keep := by
  refine newest_eq ?_ ((sortBy_perm byAge rows).symm.filter keep)
    ((sortBy_pairwise rows).filter keep)
  have perm := ((sortBy_perm byAge rows).map Entry.id).nodup_iff.mpr distinct
  exact perm.sublist (List.filter_sublist.map _)

/-- The row is later than the others. -/
def Tops (row : R) (rows : List R) : Prop :=
  ∀ other ∈ rows, Entry.stamp other ≤ Entry.stamp row ∧ Entry.id other < Entry.id row

theorem nodup_append {rows : List R} {row : R} (distinct : (ids rows).Nodup)
    (tops : Tops row rows) : (ids (rows ++ [row])).Nodup := by
  rw [ids, List.map_append, List.map_singleton]
  refine List.nodup_append.mpr ⟨distinct, List.nodup_singleton _, ?_⟩
  intro a ina b inb
  obtain ⟨other, mem, rfl⟩ := List.mem_map.mp ina
  have before := (tops other mem).2
  have last := List.mem_singleton.mp inb
  omega

theorem newest_append {rows : List R} {row : R} (distinct : (ids rows).Nodup)
    (tops : Tops row rows) : newest (rows ++ [row]) = row :: newest rows := by
  have perm : (rows ++ [row]).Perm (row :: newest rows) :=
    (List.perm_append_singleton row rows).trans ((sortBy_perm byAge rows).symm.cons row)
  refine newest_eq ?_ perm ?_
  · exact (perm.map Entry.id).nodup_iff.mp (nodup_append distinct tops)
  · refine List.pairwise_cons.mpr ⟨fun other mem => ?_, sortBy_pairwise rows⟩
    have below := tops other (mem_newest.mp mem)
    rw [Below, byAge, Ordering.isLE_then_iff_or]
    rcases Int.lt_or_eq_of_le below.1 with earlier | same
    · exact .inl (compare_lt_iff_lt.mpr earlier)
    · refine .inr ⟨compare_eq_iff_eq.mpr same, ?_⟩
      rw [Std.isLE_compare]
      omega

theorem newest_filter_front {rows : List R} {keep : R → Bool}
    (closed : ∀ a b, Entry.stamp b ≤ Entry.stamp a → keep b = true → keep a = true) :
    (newest rows).filter keep <+: newest rows := by
  have sorted : (newest rows).Pairwise (Below byAge) := sortBy_pairwise rows
  generalize newest rows = listed at sorted ⊢
  induction listed with
  | nil => exact List.prefix_refl []
  | cons first later ih =>
    obtain ⟨above, rest⟩ := List.pairwise_cons.mp sorted
    cases kept : keep first with
    | true =>
      rw [List.filter_cons_of_pos kept, List.prefix_cons_inj]
      exact ih rest
    | false =>
      have none_kept : (first :: later).filter keep = [] := by
        refine List.filter_eq_nil_iff.mpr fun row mem shown => ?_
        have stamps : Entry.stamp row ≤ Entry.stamp first := by
          rcases List.mem_cons.mp mem with rfl | there
          · exact Int.le_refl _
          · have below := above row there
            rw [Below, byAge, Ordering.isLE_then_iff_or] at below
            rcases below with earlier | ⟨same, -⟩
            · exact Int.le_of_lt (compare_lt_iff_lt.mp earlier)
            · exact Int.le_of_eq (compare_eq_iff_eq.mp same)
        rw [closed first row stamps shown] at kept
        cases kept
      rw [none_kept]
      exact List.nil_prefix

/-! The reader. -/

/-- A table with the largest identifier it has given out, and what a reader of its pages has
read. -/
structure Session (R : Type*) where
  rows : List R
  sequence : Nat
  offset : Nat
  seen : List R

inductive Step (R : Type*) where
  | insert (row : R)
  | remove (keep : R → Bool)
  | read (limit : Nat)

def Step.isRead : Step R → Bool
  | .read _ => true
  | .insert _ | .remove _ => false

namespace Session

def step (s : Session R) : Step R → Session R
  | .insert row => { s with rows := s.rows ++ [row], sequence := Entry.id row }
  | .remove keep => { s with rows := s.rows.filter keep }
  | .read limit =>
    let read := page limit s.offset s.rows
    { s with offset := s.offset + read.length, seen := s.seen ++ read }

def run (s : Session R) (steps : List (Step R)) : Session R := steps.foldl step s

/-- New rows are the newest, and what is removed are rows not read so far or the oldest. -/
def Allows (s : Session R) : Step R → Prop
  | .insert row => (∀ other ∈ s.rows, Entry.stamp other ≤ Entry.stamp row) ∧
      s.sequence < Entry.id row
  | .remove keep => (∀ row ∈ (newest s.rows).take s.offset, keep row = true) ∨
      ∀ a b, Entry.stamp b ≤ Entry.stamp a → keep b = true → keep a = true
  | .read _ => True

def AllowsAll (s : Session R) : List (Step R) → Prop
  | [] => True
  | step :: rest => s.Allows step ∧ (s.step step).AllowsAll rest

/-- Whatever stood in the table at first and is in front of the reader was read. -/
structure Caught (first : List R) (s : Session R) : Prop where
  distinct : (ids s.rows).Nodup
  known : ∀ row ∈ s.rows, Entry.id row ≤ s.sequence
  early : ∀ row ∈ first, Entry.id row ≤ s.sequence
  read : ∀ row ∈ first, row ∈ (newest s.rows).take s.offset → row ∈ s.seen

variable {first : List R} {s : Session R}

theorem Caught.insert {row : R} (caught : s.Caught first) (allowed : s.Allows (.insert row)) :
    (s.step (.insert row)).Caught first := by
  obtain ⟨stamps, later⟩ := allowed
  have tops : Tops row s.rows := fun other mem =>
    ⟨stamps other mem, Nat.lt_of_le_of_lt (caught.known other mem) later⟩
  refine ⟨nodup_append caught.distinct tops, ?_, ?_, ?_⟩
  · intro other mem
    rcases List.mem_append.mp mem with there | last
    · exact Nat.le_of_lt (tops other there).2
    · exact Nat.le_of_eq (congrArg Entry.id (List.mem_singleton.mp last))
  · exact fun other mem => (caught.early other mem).trans (Nat.le_of_lt later)
  · intro other mem front
    simp only [step, newest_append caught.distinct tops] at front
    have older : other ≠ row := by
      rintro rfl
      have bound := caught.early other mem
      omega
    refine caught.read other mem ?_
    cases offset : s.offset with
    | zero => simp [offset] at front
    | succ n =>
      rw [offset, List.take_succ_cons] at front
      have there := (List.mem_cons.mp front).resolve_left older
      exact (List.take_prefix_take_left (by omega)).subset there

theorem Caught.remove {keep : R → Bool} (caught : s.Caught first)
    (allowed : s.Allows (.remove keep)) : (s.step (.remove keep)).Caught first := by
  refine ⟨caught.distinct.sublist (List.filter_sublist.map _),
    fun row mem => caught.known row (List.mem_of_mem_filter mem), caught.early, ?_⟩
  intro row mem front
  refine caught.read row mem ?_
  simp only [step, newest_filter caught.distinct] at front
  rcases allowed with unread | closed
  · have whole := List.take_append_drop s.offset (newest s.rows)
    rw [← whole, List.filter_append, List.filter_eq_self.mpr unread] at front
    rcases Nat.le_total s.offset (newest s.rows).length with inside | beyond
    · rwa [List.take_append_of_le_length (by simp [inside]), List.take_take, Nat.min_self] at front
    · rw [List.take_of_length_le beyond]
      have member := List.mem_of_mem_take front
      rw [List.drop_of_length_le beyond, List.filter_nil, List.append_nil] at member
      exact List.mem_of_mem_take member
  · exact (List.IsPrefix.take (newest_filter_front closed) s.offset).subset front

theorem Caught.read_page (limit : Nat) (caught : s.Caught first) :
    (s.step (.read limit)).Caught first := by
  refine ⟨caught.distinct, caught.known, caught.early, fun row mem front => ?_⟩
  simp only [step, page, List.length_take, List.length_drop] at front ⊢
  rw [List.take_add] at front
  rcases List.mem_append.mp front with earlier | now
  · exact List.mem_append_left _ (caught.read row mem earlier)
  · refine List.mem_append_right _ ?_
    exact (List.take_prefix_take_left (Nat.min_le_left ..)).subset now

theorem Caught.step {step : Step R} (caught : s.Caught first) (allowed : s.Allows step) :
    (s.step step).Caught first := by
  cases step with
  | insert row => exact caught.insert allowed
  | remove keep => exact caught.remove allowed
  | read limit => exact caught.read_page limit

theorem Caught.run {steps : List (Step R)} (caught : s.Caught first)
    (allowed : s.AllowsAll steps) : (s.run steps).Caught first := by
  induction steps generalizing s with
  | nil => exact caught
  | cons step rest ih => exact ih (caught.step allowed.1) allowed.2

theorem Caught.start {rows : List R} {sequence : Nat} (distinct : (ids rows).Nodup)
    (known : ∀ row ∈ rows, Entry.id row ≤ sequence) :
    (⟨rows, sequence, 0, []⟩ : Session R).Caught rows :=
  ⟨distinct, known, known, fun _ _ front => by simp at front⟩

/-- A reader past the last page has read every row that was there all the time. -/
theorem Caught.all_read (caught : s.Caught first) (past : s.rows.length ≤ s.offset) {row : R}
    (mem : row ∈ first) (still : row ∈ s.rows) : row ∈ s.seen := by
  refine caught.read row mem ?_
  rw [List.take_of_length_le (by rwa [length_newest])]
  exact mem_newest.mpr still

theorem page_eq_nil {rows : List R} {limit offset : Nat} (positive : 0 < limit)
    (empty : page limit offset rows = []) : rows.length ≤ offset := by
  have length := congrArg List.length empty
  simp only [page, List.length_take, List.length_drop, length_newest, List.length_nil] at length
  omega

/-- Without writes in between the pages are the listing, each row once. -/
theorem run_reads {steps : List (Step R)} (reads : ∀ step ∈ steps, step.isRead = true)
    (front : s.seen = (newest s.rows).take s.offset) :
    (s.run steps).rows = s.rows ∧
      (s.run steps).seen = (newest s.rows).take (s.run steps).offset := by
  induction steps generalizing s with
  | nil => exact ⟨rfl, front⟩
  | cons step rest ih =>
    obtain ⟨here, later⟩ := List.forall_mem_cons.mp reads
    cases step with
    | insert row => cases here
    | remove keep => cases here
    | read limit =>
      refine ih (s := s.step (.read limit)) later ?_
      simp only [Session.step, page, front, List.length_take, List.length_drop]
      rw [List.take_add, ← List.length_drop, ← List.take_eq_take_min]

end Session

end Journal
