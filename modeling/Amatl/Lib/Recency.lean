import Mathlib.Data.List.Basic
import Mathlib.Data.List.Nodup

/-! A map of bounded size that gives up what was not used for the longest time. Its entries stand in
the order of their last use, the least recent first. -/

namespace Recency

variable {K V : Type*} [DecidableEq K]

def keys (entries : List (K × V)) : List K := entries.map Prod.fst

def lookup (key : K) (entries : List (K × V)) : Option V :=
  (entries.find? (fun e => e.1 = key)).map Prod.snd

def without (key : K) (entries : List (K × V)) : List (K × V) :=
  entries.filter (fun e => e.1 ≠ key)

/-- The most recent entries, as many as fit. -/
def newest (capacity : Nat) (entries : List (K × V)) : List (K × V) :=
  entries.drop (entries.length - capacity)

omit [DecidableEq K] in
theorem newest_sublist (capacity : Nat) (entries : List (K × V)) :
    (newest capacity entries).Sublist entries := List.drop_sublist _ _

omit [DecidableEq K] in
theorem length_newest (capacity : Nat) (entries : List (K × V)) :
    (newest capacity entries).length ≤ capacity := by
  rw [newest, List.length_drop]
  omega

omit [DecidableEq K] in
theorem newest_of_fits {capacity : Nat} {entries : List (K × V)} (h : entries.length ≤ capacity) :
    newest capacity entries = entries := by
  rw [newest, Nat.sub_eq_zero_of_le h, List.drop_zero]

omit [DecidableEq K] in
theorem newest_cons {capacity : Nat} (e : K × V) {entries : List (K × V)}
    (h : capacity < entries.length + 1) :
    newest capacity (e :: entries) = newest capacity entries := by
  have more : (e :: entries).length - capacity = (entries.length - capacity) + 1 := by
    rw [List.length_cons]
    omega
  rw [newest, more, List.drop_succ_cons, newest]

omit [DecidableEq K] in
theorem keys_append (front back : List (K × V)) : keys (front ++ back) = keys front ++ keys back :=
  List.map_append

theorem keys_without (key : K) (entries : List (K × V)) :
    keys (without key entries) = (keys entries).filter (fun k => k ≠ key) := by
  rw [keys, keys, without, List.filter_map]
  rfl

theorem nodup_touched {entries : List (K × V)} (distinct : (keys entries).Nodup) (key : K)
    (value : V) : (keys (without key entries ++ [(key, value)])).Nodup := by
  have rest : (keys (without key entries)).Nodup := by
    rw [keys_without]
    exact distinct.filter _
  rw [keys_append]
  refine rest.append (List.nodup_singleton key) ?_
  intro k inside here
  rw [keys, List.map_singleton, List.mem_singleton] at here
  rw [keys_without, List.mem_filter, decide_eq_true_eq] at inside
  exact inside.2 here

theorem lookup_cons (key : K) (e : K × V) (entries : List (K × V)) :
    lookup key (e :: entries) = if e.1 = key then some e.2 else lookup key entries := by
  unfold lookup
  by_cases same : e.1 = key <;> simp [same]

theorem lookup_append (key : K) (front back : List (K × V)) :
    lookup key (front ++ back) = (lookup key front).or (lookup key back) := by
  induction front with
  | nil => rfl
  | cons e front ih =>
    rw [List.cons_append, lookup_cons, lookup_cons, ih]
    by_cases same : e.1 = key <;> simp [same]

theorem lookup_without (key other : K) (entries : List (K × V)) :
    lookup other (without key entries) = if other = key then none else lookup other entries := by
  induction entries with
  | nil => simp [without, lookup]
  | cons e entries ih =>
    unfold without at ih ⊢
    rw [List.filter_cons, lookup_cons]
    by_cases gone : e.1 = key
    · rw [if_neg (by simp [gone]), ih]
      by_cases same : other = key
      · simp [same]
      · have differs : e.1 ≠ other := by
          rw [gone]
          exact fun eq => same eq.symm
        simp [same, differs]
    · rw [if_pos (by simp [gone]), lookup_cons, ih]
      by_cases here : e.1 = other
      · have kept : other ≠ key := here ▸ gone
        simp [here, kept]
      · simp [here]

theorem lookup_eq_none {key : K} {entries : List (K × V)} :
    lookup key entries = none ↔ key ∉ keys entries := by
  induction entries with
  | nil => simp [lookup, keys]
  | cons e entries ih =>
    rw [lookup_cons, keys, List.map_cons, List.mem_cons, not_or]
    by_cases same : e.1 = key
    · simp [same]
    · rw [if_neg same, ih]
      exact ⟨fun h => ⟨fun eq => same eq.symm, h⟩, fun h => h.2⟩

theorem mem_of_lookup {key : K} {value : V} {entries : List (K × V)}
    (found : lookup key entries = some value) : (key, value) ∈ entries := by
  obtain ⟨e, first, rfl⟩ := Option.map_eq_some_iff.mp found
  have holds := List.find?_some first
  have same : e.1 = key := of_decide_eq_true holds
  rw [← same]
  exact List.mem_of_find?_eq_some first

theorem lookup_of_mem {entries : List (K × V)} (distinct : (keys entries).Nodup) {e : K × V}
    (mem : e ∈ entries) : lookup e.1 entries = some e.2 := by
  induction entries with
  | nil => cases mem
  | cons first entries ih =>
    obtain ⟨fresh, rest⟩ := List.nodup_cons.mp distinct
    rw [lookup_cons]
    rcases List.mem_cons.mp mem with rfl | later
    · rw [if_pos rfl]
    · have differs : first.1 ≠ e.1 := by
        intro same
        exact fresh (same ▸ List.mem_map_of_mem later)
      rw [if_neg differs, ih rest later]

theorem erase_keys {entries : List (K × V)} (distinct : (keys entries).Nodup) (key : K) :
    (keys entries).erase key = keys (without key entries) := by
  rw [distinct.erase_eq_filter, keys_without]
  refine List.filter_congr (fun k _ => ?_)
  by_cases same : k = key <;> simp [same]

theorem lookup_touched (key other : K) (value : V) (entries : List (K × V)) :
    lookup other (without key entries ++ [(key, value)]) =
      if other = key then some value else lookup other entries := by
  rw [lookup_append, lookup_without, lookup_cons]
  by_cases same : other = key
  · simp [same]
  · have differs : key ≠ other := fun eq => same eq.symm
    simp [same, differs, lookup]

theorem length_without_lt {key : K} {value : V} {entries : List (K × V)}
    (found : lookup key entries = some value) : (without key entries).length < entries.length := by
  have there : key ∈ keys entries := by
    by_contra absent
    rw [lookup_eq_none.mpr absent] at found
    cases found
  obtain ⟨e, mem, same⟩ := List.mem_map.mp there
  exact List.length_filter_lt_length_iff_exists.mpr ⟨e, mem, by simp [same]⟩

/-- A map with its keys once each, and no more of them than its capacity. -/
structure LruMap (K V : Type*) where
  capacity : Nat
  entries : List (K × V)
  distinct : (keys entries).Nodup
  fits : entries.length ≤ capacity

namespace LruMap

/-- A key that is found becomes the most recent one. -/
def get (key : K) (m : LruMap K V) : Option V × LruMap K V :=
  match found : lookup key m.entries with
  | none => (none, m)
  | some value => (some value, {
      capacity := m.capacity
      entries := without key m.entries ++ [(key, value)]
      distinct := nodup_touched m.distinct key value
      fits := by
        have shorter := length_without_lt found
        have fits := m.fits
        rw [List.length_append, List.length_singleton]
        omega })

/-- A key that is set becomes the most recent one, and what does not fit any more goes. -/
def put (key : K) (value : V) (m : LruMap K V) : LruMap K V where
  capacity := m.capacity
  entries := newest m.capacity (without key m.entries ++ [(key, value)])
  distinct := (nodup_touched m.distinct key value).sublist ((newest_sublist _ _).map Prod.fst)
  fits := length_newest _ _

def resize (capacity : Nat) (m : LruMap K V) : LruMap K V where
  capacity
  entries := newest capacity m.entries
  distinct := m.distinct.sublist ((newest_sublist _ _).map Prod.fst)
  fits := length_newest _ _

def ofEntries (entries : List (K × V)) (distinct : (keys entries).Nodup) : LruMap K V where
  capacity := entries.length
  entries
  distinct
  fits := Nat.le_refl _

theorem get_none {key : K} {m : LruMap K V} (h : lookup key m.entries = none) :
    m.get key = (none, m) := by
  unfold get
  split
  · rfl
  · simp_all

theorem get_some {key : K} {m : LruMap K V} {value : V}
    (h : lookup key m.entries = some value) : (m.get key).1 = some value ∧
      (m.get key).2.capacity = m.capacity ∧
      (m.get key).2.entries = without key m.entries ++ [(key, value)] := by
  unfold get
  split
  · simp_all
  · rename_i other found
    rw [h] at found
    obtain rfl := Option.some.inj found
    exact ⟨rfl, rfl, rfl⟩

end LruMap

end Recency
