import Mathlib.Algebra.GroupWithZero.Nat
import Mathlib.Data.List.Basic

/-! Clients that take steps in any order, and the counting semaphores between them.
An event that the state does not allow changes nothing, so that every list of events
is a run. -/

namespace Interleaving

section Runs

variable {S E : Type*} {step : S → E → Option S}

def run (step : S → E → Option S) (s : S) : List E → S
  | [] => s
  | e :: events => run step ((step s e).getD s) events

/-- How many of the events the states on the way allow. -/
def taken (step : S → E → Option S) (s : S) : List E → Nat
  | [] => 0
  | e :: events => (step s e).elim 0 (fun _ => 1) + taken step ((step s e).getD s) events

theorem run_append (step : S → E → Option S) (s : S) (front back : List E) :
    run step s (front ++ back) = run step (run step s front) back := by
  induction front generalizing s with
  | nil => rfl
  | cons e front ih => exact ih ((step s e).getD s)

theorem run_keeps {P : S → Prop} (keeps : ∀ s e t, P s → step s e = some t → P t) {s : S}
    (start : P s) (events : List E) : P (run step s events) := by
  induction events generalizing s with
  | nil => exact start
  | cons e events ih =>
    cases h : step s e with
    | none =>
      rw [run, h]
      exact ih start
    | some t =>
      rw [run, h]
      exact ih (keeps s e t start h)

/-- A measure that every step lowers bounds the steps of a run. -/
theorem taken_le {P : S → Prop} (keeps : ∀ s e t, P s → step s e = some t → P t)
    {measure : S → Nat} (lowers : ∀ s e t, P s → step s e = some t → measure t < measure s)
    {s : S} (start : P s) (events : List E) :
    taken step s events + measure (run step s events) ≤ measure s := by
  induction events generalizing s with
  | nil => simp [taken, run]
  | cons e events ih =>
    cases h : step s e with
    | none => simpa [taken, run, h] using ih start
    | some t =>
      have lower := lowers s e t start h
      have rest := ih (keeps s e t start h)
      simp only [taken, run, h, Option.elim_some, Option.getD_some]
      omega

end Runs

section Pools

variable {C : Type*} {clients : List C} {i : Nat} {old new : C}

theorem forall_set {P : C → Prop} (all : ∀ c ∈ clients, P c) (here : P new) :
    ∀ c ∈ clients.set i new, P c := by
  intro c mem
  rcases List.mem_or_eq_of_mem_set mem with there | rfl
  · exact all c there
  · exact here

theorem sum_set (f : C → Nat) (new : C) (there : clients[i]? = some old) :
    ((clients.set i new).map f).sum + f old = (clients.map f).sum + f new := by
  induction clients generalizing i with
  | nil => cases there
  | cons c clients ih =>
    cases i with
    | zero =>
      cases there
      simp only [List.set_cons_zero, List.map_cons, List.sum_cons]
      omega
    | succ i =>
      have later := ih there
      simp only [List.set_cons_succ, List.map_cons, List.sum_cons]
      omega

theorem countP_set (p : C → Bool) (new : C) (there : clients[i]? = some old) :
    (clients.set i new).countP p + (p old).toNat = clients.countP p + (p new).toNat := by
  obtain ⟨lt, rfl⟩ := List.getElem?_eq_some_iff.mp there
  have member : clients[i] ∈ clients := List.getElem_mem lt
  rw [List.countP_set lt]
  cases here : p clients[i] with
  | true =>
    have positive : 0 < clients.countP p := List.countP_pos_iff.mpr ⟨_, member, here⟩
    cases p new <;> simp <;> omega
  | false => cases p new <;> simp

theorem getElem?_set_cases {j : Nat} {c : C} (h : (clients.set i new)[j]? = some c) :
    i = j ∧ c = new ∨ i ≠ j ∧ clients[j]? = some c := by
  rw [List.getElem?_set] at h
  split at h
  · rename_i same
    split at h
    · exact .inl ⟨same, (Option.some.inj h).symm⟩
    · cases h
  · rename_i other
    exact .inr ⟨other, h⟩

theorem getElem?_set_there (new : C) (there : clients[i]? = some old) :
    (clients.set i new)[i]? = some new := by
  obtain ⟨lt, -⟩ := List.getElem?_eq_some_iff.mp there
  rw [List.getElem?_set_self lt]

theorem map_set_same {K : Type*} {key : C → K} (there : clients[i]? = some old)
    (same : key new = key old) : (clients.set i new).map key = clients.map key := by
  obtain ⟨lt, rfl⟩ := List.getElem?_eq_some_iff.mp there
  rw [List.map_set, same, ← List.getElem_map key (h := by simpa using lt), List.set_getElem_self]

theorem filterMap_set_same {R : Type*} {result : C → Option R} (there : clients[i]? = some old)
    (same : result new = result old) :
    (clients.set i new).filterMap result = clients.filterMap result := by
  obtain ⟨lt, rfl⟩ := List.getElem?_eq_some_iff.mp there
  have whole : clients = clients.take i ++ clients[i] :: clients.drop (i + 1) := by
    rw [← List.drop_eq_getElem_cons lt, List.take_append_drop]
  conv_rhs => rw [whole]
  rw [List.set_eq_take_append_cons_drop, if_pos lt]
  simp only [List.filterMap_append, List.filterMap_cons, same]

/-- What a client has to show for itself is added to what the others have. -/
theorem filterMap_set_perm {R : Type*} {result : C → Option R} (new : C)
    (there : clients[i]? = some old) (nothing : result old = none) :
    ((clients.set i new).filterMap result).Perm
      (clients.filterMap result ++ (result new).toList) := by
  obtain ⟨lt, rfl⟩ := List.getElem?_eq_some_iff.mp there
  have split : clients.filterMap result =
      (clients.take i).filterMap result ++ (clients.drop (i + 1)).filterMap result := by
    calc clients.filterMap result
        = (clients.take i ++ clients.drop i).filterMap result := by rw [List.take_append_drop]
      _ = _ := by
        rw [List.filterMap_append, List.drop_eq_getElem_cons lt, List.filterMap_cons_none nothing]
  rw [List.set_eq_take_append_cons_drop, if_pos lt, split, List.append_assoc]
  simp only [List.filterMap_append]
  refine List.Perm.append_left _ ?_
  cases shown : result new with
  | none => simp [shown]
  | some r => simpa [shown] using (List.perm_append_singleton r _).symm

end Pools

section Semaphores

variable {C : Type*} {clients : List C} {i : Nat} {old new : C} {holds : C → Bool}
  {capacity free free' : Nat}

/-- The free permits after a client that held a permit or not holds one or not. -/
def exchange (free : Nat) : (before after : Bool) → Option Nat
  | false, true => if 0 < free then some (free - 1) else none
  | true, false => some (free + 1)
  | _, _ => some free

/-- Every permit is free or held by one client. -/
def PoolBalanced (holds : C → Bool) (capacity free : Nat) (clients : List C) : Prop :=
  free + clients.countP holds = capacity

theorem exchange_eq {before after : Bool} (h : exchange free before after = some free') :
    free' + after.toNat = free + before.toNat := by
  unfold exchange at h
  split at h
  · split at h
    · cases h
      simp only [Bool.toNat_true, Bool.toNat_false]
      omega
    · cases h
  · cases h
    rfl
  · rename_i other _
    cases h
    cases before <;> cases after <;> simp_all

@[simp] theorem exchange_self (free : Nat) (held : Bool) : exchange free held held = some free := by
  cases held <;> rfl

theorem exchange_isSome {before after : Bool} (h : after = true → before = true ∨ 0 < free) :
    ∃ free', exchange free before after = some free' := by
  cases before with
  | true => cases after <;> exact ⟨_, rfl⟩
  | false =>
    cases after with
    | false => exact ⟨_, rfl⟩
    | true =>
      have positive : 0 < free := by simpa using h rfl
      exact ⟨free - 1, if_pos positive⟩

theorem PoolBalanced.exchange (balanced : PoolBalanced holds capacity free clients)
    (there : clients[i]? = some old)
    (h : Interleaving.exchange free (holds old) (holds new) = some free') :
    PoolBalanced holds capacity free' (clients.set i new) := by
  have counted := countP_set holds new there
  have moved := exchange_eq h
  simp only [PoolBalanced] at balanced ⊢
  omega

theorem PoolBalanced.held_le (balanced : PoolBalanced holds capacity free clients) :
    clients.countP holds ≤ capacity := by
  simp only [PoolBalanced] at balanced
  omega

theorem PoolBalanced.holder (balanced : PoolBalanced holds capacity free clients)
    (positive : 0 < capacity) (none_free : free = 0) : ∃ c ∈ clients, holds c = true := by
  have count : 0 < clients.countP holds := by
    simp only [PoolBalanced] at balanced
    omega
  exact List.countP_pos_iff.mp count

theorem PoolBalanced.start (none_held : ∀ c ∈ clients, holds c = false) :
    PoolBalanced holds capacity capacity clients := by
  have zero : clients.countP holds = 0 := by
    rw [List.countP_eq_zero]
    intro c mem
    simp [none_held c mem]
  simp only [PoolBalanced, zero, Nat.add_zero]

end Semaphores

end Interleaving
