import Mathlib.Data.List.Forall2

/-! Lists read element by element, where one that cannot be read leaves nothing of the list. -/

namespace Traverse

variable {α β γ : Type} {f : α → Option β}

theorem mapM_eq_some {l : List α} {l' : List β} :
    l.mapM f = some l' ↔ List.Forall₂ (fun a b => f a = some b) l l' := by
  induction l generalizing l' with
  | nil => simp [eq_comm]
  | cons a l ih =>
    rw [List.mapM_cons]
    constructor
    · intro h
      obtain ⟨b, hb, h⟩ := Option.bind_eq_some_iff.1 h
      obtain ⟨bs, hbs, h⟩ := Option.bind_eq_some_iff.1 h
      cases h
      exact .cons hb (ih.1 hbs)
    · rintro (_ | ⟨hb, hbs⟩)
      rw [hb, ih.2 hbs]
      rfl

theorem mapM_some {g : α → β} {l : List α} (h : ∀ a ∈ l, f a = some (g a)) :
    l.mapM f = some (l.map g) := by
  rw [mapM_eq_some, List.forall₂_map_right_iff, List.forall₂_same]
  exact h

theorem mapM_isSome {l : List α} : (∃ l', l.mapM f = some l') ↔ ∀ a ∈ l, ∃ b, f a = some b := by
  induction l with
  | nil => exact ⟨fun _ a mem => by simp at mem, fun _ => ⟨[], rfl⟩⟩
  | cons a l ih =>
    rw [List.forall_mem_cons, ← ih]
    constructor
    · rintro ⟨l', read⟩
      cases mapM_eq_some.mp read with
      | cons first rest => exact ⟨⟨_, first⟩, _, mapM_eq_some.mpr rest⟩
    · rintro ⟨⟨b, first⟩, l', rest⟩
      exact ⟨b :: l', mapM_eq_some.mpr (.cons first (mapM_eq_some.mp rest))⟩

/-- A list that can be read is read by a function of its elements. -/
theorem exists_map_of_mapM (other : α → β) {l : List α} {l' : List β} (h : l.mapM f = some l') :
    ∃ g : α → β, (∀ a ∈ l, f a = some (g a)) ∧ l.map g = l' := by
  have each : ∀ a ∈ l, f a = some ((f a).getD (other a)) := by
    intro a mem
    obtain ⟨b, read⟩ := mapM_isSome.mp ⟨l', h⟩ a mem
    rw [read, Option.getD_some]
  exact ⟨_, each, Option.some.inj ((mapM_some each).symm.trans h)⟩

/-- Two passes are one, also where an element cannot be read. -/
theorem mapM_bind {δ : Type} {g : β → Option δ} {h : α → Option δ} (l : List α)
    (each : ∀ a, (f a).bind g = h a) : (l.mapM f).bind (List.mapM g) = l.mapM h := by
  induction l with
  | nil => rfl
  | cons a l ih =>
    rw [List.mapM_cons, List.mapM_cons, ← each, ← ih]
    cases f a with
    | none => rfl
    | some b =>
      cases l.mapM f with
      | none => cases read : g b <;> simp [read]
      | some bs => simp

theorem of_mem_mapM {l : List α} {l' : List β} (h : l.mapM f = some l') {b : β} (mem : b ∈ l') :
    ∃ a ∈ l, f a = some b := by
  have each := mapM_eq_some.mp h
  induction each with
  | nil => cases mem
  | @cons a first l l' read rest ih =>
    rcases List.mem_cons.mp mem with rfl | later
    · exact ⟨a, List.mem_cons_self, read⟩
    · obtain ⟨other, inside, read⟩ := ih (mapM_eq_some.mpr rest) later
      exact ⟨other, List.mem_cons_of_mem a inside, read⟩

theorem mapM_written {f : γ → Option α} {write : α → γ} {l : List α}
    (h : ∀ a ∈ l, f (write a) = some a) : (l.map write).mapM f = some l := by
  rw [mapM_eq_some, List.forall₂_map_left_iff, List.forall₂_same]
  exact h

theorem eq_of_mapM_written {f : γ → Option α} {write : α → γ} {l read : List α}
    (h : (l.map write).mapM f = some read) (same : ∀ a b, f (write a) = some b → b = a) :
    read = l := by
  have each := mapM_eq_some.mp h
  rw [List.forall₂_map_left_iff] at each
  have equal := each.imp (fun a b here => (same a b here).symm)
  exact (List.forall₂_eq_eq_eq ▸ equal : l = read).symm

end Traverse
