import Mathlib.Data.List.Induction
import Mathlib.Data.List.Sort

/-! Ordered maps and sets as sorted association lists. The first key inserted
for a class of equal keys is the one that stays, and iteration is in key order. -/

namespace OrdMap

variable {K V : Type*} [Ord K]

/-- Update the value at `k`, or place a new entry at its position. -/
def upsert (k : K) (f : Option V → V) : List (K × V) → List (K × V)
  | [] => [(k, f none)]
  | (j, v) :: m =>
    match compare k j with
    | .lt => (k, f none) :: (j, v) :: m
    | .eq => (j, f (some v)) :: m
    | .gt => (j, v) :: upsert k f m

def insert (k : K) (v : V) (m : List (K × V)) : List (K × V) := upsert k (fun _ => v) m

def get? (k : K) (m : List (K × V)) : Option V :=
  (m.find? (fun e => compare k e.1 == .eq)).map Prod.snd

def erase (k : K) (m : List (K × V)) : List (K × V) := m.filter (fun e => compare k e.1 != .eq)

/-- Entries collected in order; a later entry overwrites an earlier one. -/
def ofList (l : List (K × V)) : List (K × V) := l.foldl (fun m e => insert e.1 e.2 m) []

def keys (m : List (K × V)) : List K := m.map Prod.fst

def values (m : List (K × V)) : List V := m.map Prod.snd

/-- A set is a map to `Unit` with the values left out. -/
def setInsert (k : K) : List K → List K
  | [] => [k]
  | j :: s =>
    match compare k j with
    | .lt => k :: j :: s
    | .eq => j :: s
    | .gt => j :: setInsert k s

def setOf (l : List K) : List K := l.foldl (fun s k => setInsert k s) []

def setContains (k : K) (s : List K) : Bool := s.any (fun j => compare k j == .eq)

def interCount (s t : List K) : Nat := (s.filter (fun k => setContains k t)).length

def unionCount (s t : List K) : Nat := s.length + (t.filter (fun k => !setContains k s)).length

/-! A sorted map is determined by its lookups. -/

def Sorted (m : List (K × V)) : Prop := m.Pairwise (fun a b => compare a.1 b.1 = .lt)

section Sorting

variable [Std.TransOrd K] {m : List (K × V)}

omit [Std.TransOrd K] in
theorem mem_upsert {k : K} {f : Option V → V} {e : K × V} (mem : e ∈ upsert k f m) :
    e ∈ m ∨ e = (k, f none) ∨ ∃ j v, (j, v) ∈ m ∧ compare k j = .eq ∧ e = (j, f (some v)) := by
  induction m with
  | nil => exact Or.inr (Or.inl (List.mem_singleton.mp mem))
  | cons first m ih =>
    simp only [upsert] at mem
    cases order : compare k first.1 with
    | lt =>
      rw [order] at mem
      rcases List.mem_cons.mp mem with new | there
      · exact Or.inr (Or.inl new)
      · exact Or.inl there
    | eq =>
      rw [order] at mem
      rcases List.mem_cons.mp mem with new | there
      · exact Or.inr (Or.inr ⟨first.1, first.2, List.mem_cons_self, order, new⟩)
      · exact Or.inl (List.mem_cons_of_mem _ there)
    | gt =>
      rw [order] at mem
      rcases List.mem_cons.mp mem with same | later
      · exact Or.inl (same ▸ List.mem_cons_self)
      · rcases ih later with there | new | ⟨j, v, there, equal, new⟩
        · exact Or.inl (List.mem_cons_of_mem _ there)
        · exact Or.inr (Or.inl new)
        · exact Or.inr (Or.inr ⟨j, v, List.mem_cons_of_mem _ there, equal, new⟩)

theorem Sorted.upsert (h : Sorted m) (k : K) (f : Option V → V) : Sorted (upsert k f m) := by
  induction m with
  | nil => exact List.pairwise_singleton _ _
  | cons e m ih =>
    obtain ⟨least, tail⟩ := List.pairwise_cons.1 h
    simp only [OrdMap.upsert]
    cases order : compare k e.1 with
    | lt =>
      refine List.pairwise_cons.2 ⟨fun other mem => ?_, h⟩
      rcases List.mem_cons.1 mem with rfl | later
      · exact order
      · exact Std.TransCmp.lt_trans order (least other later)
    | eq => exact List.pairwise_cons.2 ⟨least, tail⟩
    | gt =>
      refine List.pairwise_cons.2 ⟨fun other mem => ?_, ih tail⟩
      rcases mem_upsert mem with there | rfl | ⟨j, v, there, -, rfl⟩
      · exact least other there
      · exact Std.OrientedCmp.gt_iff_lt.1 order
      · exact least (j, v) there

theorem Sorted.insert (h : Sorted m) (k : K) (v : V) : Sorted (insert k v m) :=
  h.upsert k (fun _ => v)

omit [Std.TransOrd K] in
theorem Sorted.erase (h : Sorted m) (k : K) : Sorted (erase k m) := h.filter _

theorem Sorted.foldr_insert {base : List (K × V)} (h : Sorted base) (l : List (K × V)) :
    Sorted (l.foldr (fun e m => OrdMap.insert e.1 e.2 m) base) := by
  induction l with
  | nil => exact h
  | cons e l ih => exact ih.insert e.1 e.2

theorem sorted_ofList (l : List (K × V)) : Sorted (ofList l) := by
  have go : ∀ {m : List (K × V)}, Sorted m → Sorted (l.foldl (fun m e => insert e.1 e.2 m) m) := by
    induction l with
    | nil => exact fun h => h
    | cons e l ih => exact fun h => ih (h.insert e.1 e.2)
  exact go List.Pairwise.nil

end Sorting

section Lookup

variable [DecidableEq K] [Std.LawfulEqOrd K] {k j : K} {v : V} {m m' : List (K × V)}

theorem get?_cons (e : K × V) :
    get? k (e :: m) = if k = e.1 then some e.2 else get? k m := by
  by_cases h : k = e.1
  · simp [get?, h]
  · have ne : (compare k e.1 == .eq) = false := by
      simpa using fun same => h (Std.compare_eq_iff_eq.1 same)
    simp [get?, h, ne]

theorem get?_insert : get? j (insert k v m) = if j = k then some v else get? j m := by
  induction m with
  | nil => simp [insert, upsert, get?_cons]
  | cons e m ih =>
    unfold insert at ih ⊢
    simp only [upsert]
    cases order : compare k e.1 with
    | lt => simp [get?_cons]
    | eq =>
      have same := Std.compare_eq_iff_eq.1 order
      by_cases h : j = k <;> simp [get?_cons, same, h, same ▸ h]
    | gt =>
      have ne : k ≠ e.1 := by
        rintro rfl
        simp at order
      by_cases h : j = e.1
      · simp [get?_cons, h, ne.symm]
      · simp [get?_cons, h, ih]

theorem get?_erase : get? j (erase k m) = if j = k then none else get? j m := by
  induction m with
  | nil => simp [erase, get?]
  | cons e m ih =>
    unfold erase at ih ⊢
    rw [List.filter_cons]
    by_cases gone : k = e.1
    · rw [if_neg (by simp [gone]), ih, get?_cons, gone]
      by_cases same : j = e.1 <;> simp [same]
    · have kept : (compare k e.1 != .eq) = true := by
        rw [bne_iff_ne]
        exact fun same => gone (Std.compare_eq_iff_eq.1 same)
      rw [if_pos kept, get?_cons, get?_cons, ih]
      by_cases here : j = e.1
      · have other : e.1 ≠ k := fun same => gone same.symm
        simp [here, other]
      · simp [here]

theorem get?_upsert [Std.TransOrd K] (h : Sorted m) (f : Option V → V) :
    get? j (upsert k f m) = if j = k then some (f (get? k m)) else get? j m := by
  induction m with
  | nil => simp [upsert, get?]
  | cons e m ih =>
    obtain ⟨least, tail⟩ := List.pairwise_cons.1 h
    simp only [upsert]
    cases order : compare k e.1 with
    | lt =>
      have absent : get? k (e :: m) = none := by
        rw [get?, Option.map_eq_none_iff, List.find?_eq_none]
        intro other mem
        have below : compare k other.1 = .lt := by
          rcases List.mem_cons.1 mem with rfl | later
          · exact order
          · exact Std.TransCmp.lt_trans order (least other later)
        simp [below]
      rw [get?_cons, absent]
    | eq =>
      have same := Std.compare_eq_iff_eq.1 order
      by_cases h : j = k <;> simp [get?_cons, same, h, same ▸ h]
    | gt =>
      have ne : k ≠ e.1 := by
        rintro rfl
        simp at order
      by_cases h : j = e.1
      · simp [get?_cons, h, ne.symm]
      · simp [get?_cons, h, ne, ih tail]

theorem mem_keys_upsert {f : Option V → V} : j ∈ keys (upsert k f m) ↔ j = k ∨ j ∈ keys m := by
  induction m with
  | nil => simp [upsert, keys]
  | cons e m ih =>
    simp only [upsert]
    cases order : compare k e.1 with
    | lt => simp [keys]
    | eq =>
      have same := Std.compare_eq_iff_eq.1 order
      simp [keys, same]
    | gt =>
      simp only [keys, List.map_cons, List.mem_cons] at ih ⊢
      rw [ih]
      tauto

omit [DecidableEq K] in
theorem isSome_get? : (get? k m).isSome = true ↔ k ∈ keys m := by
  rw [get?, Option.isSome_map, List.find?_isSome]
  simp only [keys, List.mem_map, beq_iff_eq, Std.compare_eq_iff_eq]
  exact ⟨fun ⟨e, mem, same⟩ => ⟨e, mem, same.symm⟩, fun ⟨e, mem, same⟩ => ⟨e, mem, same.symm⟩⟩

theorem get?_ofList_concat (l : List (K × V)) (e : K × V) :
    get? k (ofList (l ++ [e])) = if k = e.1 then some e.2 else get? k (ofList l) := by
  rw [ofList, List.foldl_append, List.foldl_cons, List.foldl_nil, get?_insert]
  rfl

theorem get?_ofList {l : List (K × V)} (mem : (k, v) ∈ l) (same : ∀ e ∈ l, e.1 = k → e.2 = v) :
    get? k (ofList l) = some v := by
  induction l using List.reverseRecOn with
  | nil => cases mem
  | append_singleton l e ih =>
    rw [get?_ofList_concat]
    by_cases here : k = e.1
    · rw [if_pos here, same e (List.mem_append_right l (List.mem_singleton_self e)) here.symm]
    · rw [if_neg here]
      rcases List.mem_append.mp mem with earlier | last
      · exact ih earlier (fun other inside => same other (List.mem_append_left _ inside))
      · rw [← List.mem_singleton.mp last] at here
        exact absurd rfl here

theorem mem_of_get?_ofList {l : List (K × V)} (h : get? k (ofList l) = some v) : (k, v) ∈ l := by
  induction l using List.reverseRecOn with
  | nil => cases h
  | append_singleton l e ih =>
    rw [get?_ofList_concat] at h
    by_cases here : k = e.1
    · rw [if_pos here] at h
      obtain rfl := Option.some.inj h
      rw [here]
      exact List.mem_append_right l (List.mem_singleton_self _)
    · rw [if_neg here] at h
      exact List.mem_append_left _ (ih h)

theorem get?_eq_none_of_lt (least : ∀ e ∈ m, compare k e.1 = .lt) : get? k m = none := by
  induction m with
  | nil => rfl
  | cons e m ih =>
    have ne : k ≠ e.1 := by
      rintro rfl
      simpa using least e List.mem_cons_self
    rw [get?_cons, if_neg ne, ih fun e mem => least e (List.mem_cons_of_mem _ mem)]

theorem get?_map {W : Type*} (f : V → W) :
    get? k (m.map (fun e => (e.1, f e.2))) = (get? k m).map f := by
  induction m with
  | nil => rfl
  | cons e m ih =>
    rw [List.map_cons, get?_cons, get?_cons, ih]
    split <;> rfl

theorem get?_of_mem (h : Sorted m) {e : K × V} (mem : e ∈ m) : get? e.1 m = some e.2 := by
  induction m with
  | nil => cases mem
  | cons first m ih =>
    obtain ⟨least, tail⟩ := List.pairwise_cons.1 h
    rcases List.mem_cons.1 mem with rfl | later
    · rw [get?_cons, if_pos rfl]
    · have ne : e.1 ≠ first.1 := by
        intro same
        simpa [same] using least e later
      rw [get?_cons, if_neg ne, ih tail later]

omit [DecidableEq K] in
theorem mem_of_get? (h : get? k m = some v) : (k, v) ∈ m := by
  obtain ⟨e, found, rfl⟩ := Option.map_eq_some_iff.mp h
  have same : k = e.1 := by
    have holds := List.find?_some found
    simpa using holds
  rw [same]
  exact List.mem_of_find?_eq_some found

theorem mem_insert [Std.TransOrd K] (h : Sorted m) {e : K × V} :
    e ∈ insert k v m ↔ e = (k, v) ∨ (e ∈ m ∧ e.1 ≠ k) := by
  have after := h.insert k v
  constructor
  · intro mem
    have found := get?_of_mem after mem
    rw [get?_insert] at found
    by_cases same : e.1 = k
    · rw [if_pos same] at found
      exact Or.inl (Prod.ext same (Option.some.inj found).symm)
    · rw [if_neg same] at found
      exact Or.inr ⟨mem_of_get? found, same⟩
  · rintro (rfl | ⟨mem, other⟩)
    · exact mem_of_get? (by rw [get?_insert, if_pos rfl])
    · have found := get?_of_mem h mem
      exact mem_of_get? (by rw [get?_insert, if_neg other, found])

theorem Sorted.ext [Std.TransOrd K] (h : Sorted m) (h' : Sorted m')
    (same : ∀ k, get? k m = get? k m') : m = m' := by
  induction m generalizing m' with
  | nil =>
    cases m' with
    | nil => rfl
    | cons e m' => simpa [get?_cons, get?] using same e.1
  | cons e m ih =>
    cases m' with
    | nil => simpa [get?_cons, get?] using same e.1
    | cons e' m' =>
      obtain ⟨least, tail⟩ := List.pairwise_cons.1 h
      obtain ⟨least', tail'⟩ := List.pairwise_cons.1 h'
      have below : ∀ {a b : K × V} {l : List (K × V)}, compare a.1 b.1 = .lt →
          (∀ e ∈ l, compare b.1 e.1 = .lt) → get? a.1 (b :: l) = none := by
        intro a b l lt least
        refine get?_eq_none_of_lt fun e mem => ?_
        rcases List.mem_cons.1 mem with rfl | later
        · exact lt
        · exact Std.TransCmp.lt_trans lt (least e later)
      cases order : compare e.1 e'.1 with
      | lt => simpa [get?_cons, below order least'] using same e.1
      | gt =>
        have lt := Std.OrientedCmp.gt_iff_lt.1 order
        simpa [get?_cons, below lt least] using (same e'.1).symm
      | eq =>
        have key := Std.compare_eq_iff_eq.1 order
        have value := same e.1
        simp only [get?_cons, key, if_true, Option.some.injEq] at value
        have rest : m = m' := ih tail tail' fun k => by
          by_cases hk : k = e.1
          · rw [hk, get?_eq_none_of_lt least, key, get?_eq_none_of_lt least']
          · simpa [get?_cons, hk, key ▸ hk] using same k
        rw [rest, Prod.ext key value]

end Lookup

section Sets

variable [DecidableEq K] [Std.LawfulEqOrd K] {k j : K} {s l : List K}

theorem mem_setInsert : j ∈ setInsert k s ↔ j = k ∨ j ∈ s := by
  induction s with
  | nil => simp [setInsert]
  | cons first s ih =>
    simp only [setInsert]
    cases order : compare k first with
    | lt => simp
    | eq =>
      have same := Std.compare_eq_iff_eq.1 order
      simp [same]
    | gt =>
      simp only [List.mem_cons, ih]
      tauto

omit [DecidableEq K] in
theorem setContains_iff : setContains k s = true ↔ k ∈ s := by
  simp only [setContains, List.any_eq_true, beq_iff_eq, Std.compare_eq_iff_eq]
  exact ⟨fun ⟨j, mem, same⟩ => same ▸ mem, fun mem => ⟨k, mem, rfl⟩⟩

theorem mem_setOf : j ∈ setOf l ↔ j ∈ l := by
  have go : ∀ s : List K, j ∈ l.foldl (fun s k => setInsert k s) s ↔ j ∈ s ∨ j ∈ l := by
    induction l with
    | nil => simp
    | cons k l ih =>
      intro s
      rw [List.foldl_cons, ih, mem_setInsert, List.mem_cons]
      tauto
  simpa [setOf] using go []

variable [Std.TransOrd K]

theorem pairwise_setInsert (h : s.Pairwise (fun a b => compare a b = .lt)) (k : K) :
    (setInsert k s).Pairwise (fun a b => compare a b = .lt) := by
  induction s with
  | nil => exact List.pairwise_singleton _ _
  | cons first s ih =>
    obtain ⟨least, tail⟩ := List.pairwise_cons.1 h
    simp only [setInsert]
    cases order : compare k first with
    | lt =>
      refine List.pairwise_cons.2 ⟨fun other mem => ?_, h⟩
      rcases List.mem_cons.1 mem with rfl | later
      · exact order
      · exact Std.TransCmp.lt_trans order (least other later)
    | eq => exact h
    | gt =>
      refine List.pairwise_cons.2 ⟨fun other mem => ?_, ih tail⟩
      rcases mem_setInsert.1 mem with rfl | there
      · exact Std.OrientedCmp.gt_iff_lt.1 order
      · exact least other there

theorem pairwise_setOf (l : List K) : (setOf l).Pairwise (fun a b => compare a b = .lt) := by
  have go : ∀ s : List K, s.Pairwise (fun a b => compare a b = .lt) →
      (l.foldl (fun s k => setInsert k s) s).Pairwise (fun a b => compare a b = .lt) := by
    induction l with
    | nil => exact fun s h => h
    | cons k l ih => exact fun s h => ih _ (pairwise_setInsert h k)
  exact go [] List.Pairwise.nil

theorem nodup_setOf (l : List K) : (setOf l).Nodup := by
  refine (pairwise_setOf l).imp fun lt same => ?_
  subst same
  simp at lt

end Sets

end OrdMap
