import Amatl.Lib.Loop
import Mathlib.Algebra.Ring.Nat

/-! A walk over a forest with a stack of its own in place of a recursion: the top entry gives its
pieces and leaves its children on the stack. -/

namespace Walk

variable {E P : Type*}

/-- The entries that wait, the next one first, and the pieces so far. -/
abbrev State (E P : Type*) := List E × List P

def pass (children : E → List E) (pieces : E → List P) (_ : Nat) :
    State E P → Loop.Turn (State E P)
  | ([], out) => .done ([], out)
  | (entry :: stack, out) => .again (children entry ++ stack, out ++ pieces entry)

/-- A recursion that gives the pieces of an entry and then those of its children. -/
def Recurses (children : E → List E) (pieces visit : E → List P) : Prop :=
  ∀ entry, visit entry = pieces entry ++ (children entry).flatMap visit

/-- Every entry is larger than its children together. -/
def Shrinks (children : E → List E) (size : E → Nat) : Prop :=
  ∀ entry, ((children entry).map size).sum < size entry

variable {children : E → List E} {pieces visit : E → List P} {size : E → Nat}

/-- What is there and what the stack still gives stay the same together. -/
theorem pass_keeps (recurses : Recurses children pieces visit) (all : List P) (index : Nat)
    (s : State E P) (h : s.2 ++ s.1.flatMap visit = all) :
    (pass children pieces index s).All (fun s => s.2 ++ s.1.flatMap visit = all) := by
  obtain ⟨stack, out⟩ := s
  cases stack with
  | nil => exact h
  | cons entry stack =>
    change (out ++ pieces entry) ++ (children entry ++ stack).flatMap visit = all
    rw [← h, List.flatMap_append, List.flatMap_cons, recurses entry]
    simp only [List.append_assoc]

theorem pass_lowers (shrinks : Shrinks children size) (index : Nat) (s t : State E P)
    (h : pass children pieces index s = .again t) :
    (t.1.map size).sum < (s.1.map size).sum := by
  obtain ⟨stack, out⟩ := s
  cases stack with
  | nil => cases h
  | cons entry stack =>
    cases h
    have smaller := shrinks entry
    simp only [List.map_append, List.sum_append, List.map_cons, List.sum_cons]
    omega

theorem pass_done {index : Nat} {s t : State E P} (h : pass children pieces index s = .done t) :
    t.1 = [] := by
  obtain ⟨stack, out⟩ := s
  cases stack with
  | nil =>
    cases h
    rfl
  | cons entry stack => cases h

/-- The walk ends, with the pieces of the recursion in its order. -/
theorem run_eq (recurses : Recurses children pieces visit) (shrinks : Shrinks children size)
    {fuel : Nat} {stack : List E} (enough : (stack.map size).sum < fuel) (out : List P) :
    Loop.run (pass children pieces) fuel 0 (stack, out) =
      some ([], out ++ stack.flatMap visit) := by
  obtain ⟨⟨rest, all⟩, ended⟩ := Loop.run_ends (pass children pieces)
    (fun s => (s.1.map size).sum) (pass_lowers shrinks) 0 (s := (stack, out)) enough
  have kept := Loop.run_invariant (pass_keeps recurses (out ++ stack.flatMap visit)) rfl ended
  have empty : rest = [] :=
    Loop.run_exit (P := fun s => s.1 = []) (fun _ _ _ done => pass_done done) ended
  subst empty
  rw [ended, ← kept]
  simp

end Walk
