import Mathlib.Data.List.Sort

/-! Stable sorting by a comparator. A stable sort only sees its input through
the order inside each class of equal keys, so it absorbs every interleaving
that keeps those classes in order. -/

namespace StableSort

variable {α : Type*}

abbrev Below (cmp : α → α → Ordering) (a b : α) : Prop := (cmp a b).isLE = true

/-- Insertion sort from the right: elements that compare equal keep the order
they had in the input. -/
def sortBy (cmp : α → α → Ordering) (l : List α) : List α :=
  l.insertionSort (Below cmp)

/-- The elements that compare equal to `x`, in input order. -/
def keyClass (cmp : α → α → Ordering) (x : α) (l : List α) : List α :=
  l.filter (fun y => cmp x y == .eq)

variable {cmp : α → α → Ordering} [Std.TransCmp cmp]

instance : Std.Total (Below cmp) where
  total a b := by
    cases h : cmp a b with
    | lt => simp [Below, h]
    | eq => simp [Below, h]
    | gt => simp [Below, Std.OrientedCmp.gt_iff_lt.mp h]

instance : IsTrans α (Below cmp) where
  trans _ _ _ := Std.TransCmp.isLE_trans

theorem sortBy_pairwise (l : List α) :
    (sortBy cmp l).Pairwise (Below cmp) :=
  List.pairwise_insertionSort _ l

theorem sortBy_perm (cmp : α → α → Ordering) (l : List α) : (sortBy cmp l).Perm l :=
  List.perm_insertionSort _ l

theorem mem_sortBy {cmp : α → α → Ordering} {l : List α} {x : α} : x ∈ sortBy cmp l ↔ x ∈ l :=
  (sortBy_perm cmp l).mem_iff

theorem keyClass_orderedInsert (x a : α) (l : List α) :
    keyClass cmp x (l.orderedInsert (Below cmp) a) =
      keyClass cmp x (a :: l) := by
  induction l with
  | nil => rfl
  | cons b l ih =>
    by_cases hab : Below cmp a b
    · rw [List.orderedInsert_cons_of_le (r := Below cmp) l hab]
    · rw [List.orderedInsert_of_not_le (r := Below cmp) l hab]
      -- `b` moves in front of `a`, so the two cannot lie in one class.
      by_cases hb : cmp x b = .eq
      · have ha : cmp x a ≠ .eq := by
          intro ha
          have hba : cmp b a = .eq := Std.TransCmp.eq_trans (Std.OrientedCmp.eq_symm hb) ha
          exact hab (by simp [Below, Std.OrientedCmp.eq_symm hba])
        have hi := ih
        simp only [keyClass, List.filter_cons, hb, ha, beq_iff_eq, if_true, if_false] at hi ⊢
        rw [hi]
      · have hi := ih
        simp only [keyClass, List.filter_cons, hb, beq_iff_eq, if_false] at hi ⊢
        rw [hi]

theorem keyClass_sortBy (x : α) (l : List α) : keyClass cmp x (sortBy cmp l) = keyClass cmp x l := by
  induction l with
  | nil => rfl
  | cons a l ih =>
    have hstep : keyClass cmp x ((sortBy cmp l).orderedInsert (Below cmp) a)
        = keyClass cmp x (a :: sortBy cmp l) := keyClass_orderedInsert x a (sortBy cmp l)
    have hcons : keyClass cmp x (a :: sortBy cmp l) = keyClass cmp x (a :: l) := by
      simp only [keyClass, List.filter_cons] at ih ⊢
      rw [ih]
    exact hstep.trans hcons

theorem head_equal {a b : α} {l r : List α}
    (hl : (a :: l).Pairwise (Below cmp))
    (h : ∀ x, keyClass cmp x (a :: l) = keyClass cmp x (b :: r)) : Below cmp a b := by
  have hb : b ∈ keyClass cmp b (a :: l) := by
    rw [h b]
    simp [keyClass, Std.ReflCmp.compare_self]
  rcases List.mem_cons.mp (List.mem_filter.mp hb).1 with rfl | hm
  · simp [Below, Std.ReflCmp.compare_self]
  · exact (List.pairwise_cons.mp hl).1 b hm

/-- Sorted lists with the same key classes are the same list. -/
theorem eq_of_keyClass_eq {l r : List α}
    (hl : l.Pairwise (Below cmp))
    (hr : r.Pairwise (Below cmp))
    (h : ∀ x, keyClass cmp x l = keyClass cmp x r) : l = r := by
  induction l generalizing r with
  | nil =>
    cases r with
    | nil => rfl
    | cons b r => simpa [keyClass, Std.ReflCmp.compare_self] using h b
  | cons a l ih =>
    cases r with
    | nil => simpa [keyClass, Std.ReflCmp.compare_self] using h a
    | cons b r =>
      have hab := head_equal hl h
      have hba := head_equal hr (fun x => (h x).symm)
      have heq : cmp a b = .eq := Std.OrientedCmp.isLE_antisymm hab hba
      have hhead := h a
      simp only [keyClass, List.filter_cons, Std.ReflCmp.compare_self, heq, beq_self_eq_true,
        if_true, List.cons.injEq] at hhead
      obtain ⟨rfl, -⟩ := hhead
      have htail : ∀ x, keyClass cmp x l = keyClass cmp x r := by
        intro x
        have hx := h x
        simp only [keyClass, List.filter_cons] at hx ⊢
        split_ifs at hx with hc
        · exact (List.cons.inj hx).2
        · exact hx
      rw [ih (List.pairwise_cons.mp hl).2 (List.pairwise_cons.mp hr).2 htail]

/-- Two inputs that agree inside every class of equal keys sort to the same
output. -/
theorem sortBy_eq_of_keyClass {l r : List α} (h : ∀ x, keyClass cmp x l = keyClass cmp x r) :
    sortBy cmp l = sortBy cmp r := by
  apply eq_of_keyClass_eq (sortBy_pairwise l) (sortBy_pairwise r)
  intro x
  rw [keyClass_sortBy, keyClass_sortBy, h x]

theorem sortBy_eq_of_perm {l r : List α} (perm : l.Perm r)
    (distinct : ∀ a ∈ l, ∀ b ∈ l, cmp a b = .eq → a = b) : sortBy cmp l = sortBy cmp r := by
  have same : (sortBy cmp l).Perm (sortBy cmp r) :=
    (sortBy_perm cmp l).trans (perm.trans (sortBy_perm cmp r).symm)
  refine same.eq_of_pairwise ?_ (sortBy_pairwise l) (sortBy_pairwise r)
  intro a b inl inr below above
  exact distinct a (mem_sortBy.mp inl) b (perm.mem_iff.mpr (mem_sortBy.mp inr))
    (Std.OrientedCmp.isLE_antisymm below above)

theorem sortBy_eq_of_sorted {l r : List α} (perm : l.Perm r) (sorted : r.Pairwise (Below cmp))
    (distinct : ∀ a ∈ r, ∀ b ∈ r, cmp a b = .eq → a = b) : sortBy cmp l = r := by
  refine ((sortBy_perm cmp l).trans perm).eq_of_pairwise ?_ (sortBy_pairwise l) sorted
  intro a b inl inr below above
  exact distinct a (perm.mem_iff.mp (mem_sortBy.mp inl)) b inr
    (Std.OrientedCmp.isLE_antisymm below above)

/-- Functions that grow in one order, and have the same values on a list in some order, agree on
the list. -/
theorem eq_of_map_perm {β : Type*} [PartialOrder β] {f g : α → β} {l : List α}
    (hf : ∀ a ∈ l, ∀ b ∈ l, Below cmp a b → f a ≤ f b)
    (hg : ∀ a ∈ l, ∀ b ∈ l, Below cmp a b → g a ≤ g b) (same : (l.map f).Perm (l.map g)) :
    ∀ a ∈ l, f a = g a := by
  have grows : ∀ {h : α → β}, (∀ a ∈ l, ∀ b ∈ l, Below cmp a b → h a ≤ h b) →
      ((sortBy cmp l).map h).Pairwise (· ≤ ·) := by
    intro h mono
    refine List.pairwise_map.mpr ((sortBy_pairwise l).imp_of_mem ?_)
    intro a b ina inb below
    exact mono a (mem_sortBy.mp ina) b (mem_sortBy.mp inb) below
  have perm : ((sortBy cmp l).map f).Perm ((sortBy cmp l).map g) :=
    ((sortBy_perm cmp l).map f).trans (same.trans ((sortBy_perm cmp l).map g).symm)
  intro a mem
  exact List.map_inj_left.mp (perm.eq_of_pairwise' (grows hf) (grows hg)) a (mem_sortBy.mpr mem)

theorem leader_of_sortBy {l : List α} {a : α} (h : (sortBy cmp l).head? = some a) :
    ∃ front back, l = front ++ a :: back ∧ (∀ x ∈ front, cmp a x = .lt) ∧
      ∀ x ∈ back, Below cmp a x := by
  induction l with
  | nil => cases h
  | cons b l ih =>
    have step : sortBy cmp (b :: l) = (sortBy cmp l).orderedInsert (Below cmp) b := rfl
    rw [step] at h
    cases sorted : sortBy cmp l with
    | nil =>
      rw [sorted] at h
      cases h
      have perm := sortBy_perm cmp l
      rw [sorted] at perm
      rw [List.nil_perm.mp perm]
      exact ⟨[], [], rfl, nofun, nofun⟩
    | cons c r =>
      rw [sorted] at h
      by_cases first : Below cmp b c
      · rw [List.orderedInsert_cons_of_le (r := Below cmp) r first] at h
        cases h
        refine ⟨[], l, rfl, nofun, fun x mem => ?_⟩
        have ordered : (sortBy cmp l).Pairwise (Below cmp) := sortBy_pairwise l
        rw [sorted] at ordered
        have inside : x ∈ c :: r := sorted ▸ mem_sortBy.mpr mem
        rcases List.mem_cons.mp inside with rfl | later
        · exact first
        · exact Std.TransCmp.isLE_trans first ((List.pairwise_cons.mp ordered).1 x later)
      · rw [List.orderedInsert_of_not_le (r := Below cmp) r first] at h
        cases h
        obtain ⟨front, back, rfl, earlier, later⟩ := ih (by rw [sorted]; rfl)
        refine ⟨b :: front, back, rfl, fun x mem => ?_, later⟩
        rcases List.mem_cons.mp mem with rfl | inside
        · have above : cmp x a = .gt := by simpa [Below] using first
          exact Std.OrientedCmp.gt_iff_lt.mp above
        · exact earlier x inside

theorem leader_unique {l front front' back back' : List α} {a a' : α}
    (split : l = front ++ a :: back) (split' : l = front' ++ a' :: back')
    (earlier : ∀ x ∈ front, cmp a x = .lt) (earlier' : ∀ x ∈ front', cmp a' x = .lt)
    (later : ∀ x ∈ back, Below cmp a x) (later' : ∀ x ∈ back', Below cmp a' x) : a = a' := by
  have apart : ∀ {b c : α}, cmp b c = .lt → ¬Below cmp c b := by
    intro b c less below
    have greater : cmp c b = .gt := Std.OrientedCmp.gt_iff_lt.mpr less
    simp [Below, greater] at below
  rcases List.append_eq_append_iff.mp (split.symm.trans split') with
    ⟨gap, hfront, hrest⟩ | ⟨gap, hfront, hrest⟩
  · cases gap with
    | nil => exact (List.cons.inj hrest).1
    | cons b gap =>
      obtain ⟨rfl, hback⟩ := List.cons.inj hrest
      have less := earlier' a (by simp [hfront])
      exact absurd (later a' (by simp [hback])) (apart less)
  · cases gap with
    | nil => exact (List.cons.inj hrest).1.symm
    | cons b gap =>
      obtain ⟨rfl, hback⟩ := List.cons.inj hrest
      have less := earlier a' (by simp [hfront])
      exact absurd (later' a (by simp [hback])) (apart less)

theorem sortBy_leader {front back : List α} {a : α} (earlier : ∀ x ∈ front, cmp a x = .lt)
    (later : ∀ x ∈ back, Below cmp a x) : (sortBy cmp (front ++ a :: back)).head? = some a := by
  cases leads : (sortBy cmp (front ++ a :: back)).head? with
  | none =>
    have perm := sortBy_perm cmp (front ++ a :: back)
    rw [List.head?_eq_none_iff.mp leads] at perm
    exact absurd (List.nil_perm.mp perm) (by simp)
  | some b =>
    obtain ⟨front', back', split, earlier', later'⟩ := leader_of_sortBy leads
    rw [leader_unique split rfl earlier' earlier later' later]

end StableSort
