import Mathlib.Tactic.Common

/-! A loop whose passes are numbered: a pass takes the state to the next one or
ends the loop. What one pass keeps, a whole run keeps; a measure that every pass
lowers bounds the number of passes; two loops whose passes agree end in states
that agree. -/

namespace Loop

variable {S T : Type*}

inductive Turn (S : Type*) where
  | again (s : S)
  | done (s : S)

/-- At most `fuel` passes, of which `index` is the first. `none` when they did
not end the loop. -/
def run (pass : Nat → S → Turn S) : (fuel index : Nat) → S → Option S
  | 0, _, _ => none
  | fuel + 1, index, s =>
    match pass index s with
    | .done s' => some s'
    | .again s' => run pass fuel (index + 1) s'

def Turn.All (P : S → Prop) : Turn S → Prop
  | .again s => P s
  | .done s => P s

theorem Turn.All.imp {P Q : S → Prop} {turn : Turn S} (h : turn.All P) (imp : ∀ s, P s → Q s) :
    turn.All Q := by
  cases turn with
  | again s => exact imp s h
  | done s => exact imp s h

/-- The states a run from `start` goes through, with the number of the pass that
comes next. -/
inductive Reaches (pass : Nat → S → Turn S) (start : S) : Nat → S → Prop
  | start : Reaches pass start 0 start
  | again {index : Nat} {s t : S} : Reaches pass start index s → pass index s = .again t →
      Reaches pass start (index + 1) t

def Turn.next : Turn S → Option S
  | .again s => some s
  | .done _ => none

/-- The state before the pass of the given number, if it comes to that pass. -/
def before (pass : Nat → S → Turn S) (start : S) : Nat → Option S
  | 0 => some start
  | index + 1 => (before pass start index).bind (fun s => (pass index s).next)

theorem reaches_iff {pass : Nat → S → Turn S} {start s : S} {index : Nat} :
    Reaches pass start index s ↔ before pass start index = some s := by
  constructor
  · intro reached
    induction reached with
    | start => rfl
    | again earlier turn ih => rw [before, ih, Option.bind_some, turn, Turn.next]
  · intro h
    induction index generalizing s with
    | zero =>
      cases h
      exact .start
    | succ index ih =>
      obtain ⟨t, ht, hnext⟩ := Option.bind_eq_some_iff.mp h
      cases hturn : pass index t with
      | again next =>
        rw [hturn] at hnext
        cases hnext
        exact (ih ht).again hturn
      | done last =>
        rw [hturn] at hnext
        cases hnext

theorem before_eq_none {pass : Nat → S → Turn S} {start : S} {index later : Nat}
    (h : before pass start index = none) (le : index ≤ later) : before pass start later = none := by
  induction later with
  | zero =>
    have same : index = 0 := by omega
    exact same ▸ h
  | succ later ih =>
    by_cases here : index = later + 1
    · exact here ▸ h
    · rw [before, ih (by omega), Option.bind_none]

theorem Reaches.keeps {pass : Nat → S → Turn S} {P : S → Prop} {start s : S} {index : Nat}
    (reached : Reaches pass start index s) (step : ∀ index s, P s → (pass index s).All P)
    (now : P start) : P s := by
  induction reached with
  | start => exact now
  | @again index s t earlier turn ih =>
    have kept := step index s ih
    rw [turn] at kept
    exact kept

/-- What every pass from a reached state keeps, the whole run keeps. -/
theorem run_reached {pass : Nat → S → Turn S} {P : S → Prop} {start : S}
    (keeps : ∀ index s, Reaches pass start index s → P s → (pass index s).All P) {fuel index : Nat}
    {s s' : S} (reached : Reaches pass start index s) (now : P s)
    (h : run pass fuel index s = some s') : P s' := by
  induction fuel generalizing index s with
  | zero => cases h
  | succ fuel ih =>
    have kept := keeps index s reached now
    rw [run] at h
    cases hpass : pass index s with
    | done t =>
      rw [hpass] at h kept
      cases h
      exact kept
    | again t =>
      rw [hpass] at h kept
      exact ih (reached.again hpass) kept h

theorem run_invariant {pass : Nat → S → Turn S} {P : S → Prop}
    (keeps : ∀ index s, P s → (pass index s).All P) {fuel index : Nat} {s s' : S} (now : P s)
    (h : run pass fuel index s = some s') : P s' := by
  induction fuel generalizing index s with
  | zero => cases h
  | succ fuel ih =>
    have kept := keeps index s now
    rw [run] at h
    cases hpass : pass index s with
    | done t =>
      rw [hpass] at h kept
      cases h
      exact kept
    | again t =>
      rw [hpass] at h kept
      exact ih kept h

theorem run_after {pass : Nat → S → Turn S} {P : S → Prop}
    (keeps : ∀ index s, P s → (pass index s).All P) {fuel index : Nat} {s s' : S}
    (first : (pass index s).All P) (h : run pass fuel index s = some s') : P s' := by
  cases fuel with
  | zero => cases h
  | succ fuel =>
    rw [run] at h
    cases hpass : pass index s with
    | done t =>
      rw [hpass] at h first
      cases h
      exact first
    | again t =>
      rw [hpass] at h first
      exact run_invariant keeps first h

/-- What holds wherever a pass ends the loop. -/
theorem run_exit {pass : Nat → S → Turn S} {P : S → Prop}
    (exits : ∀ index s t, pass index s = .done t → P t) {fuel index : Nat} {s s' : S}
    (h : run pass fuel index s = some s') : P s' := by
  induction fuel generalizing index s with
  | zero => cases h
  | succ fuel ih =>
    rw [run] at h
    cases hpass : pass index s with
    | done t =>
      rw [hpass] at h
      exact Option.some.inj h ▸ exits index s t hpass
    | again t =>
      rw [hpass] at h
      exact ih h

/-- What every pass that goes on keeps, and what a pass that ends the loop makes of it. -/
theorem run_finishes {pass : Nat → S → Turn S} {P Q : S → Prop}
    (goes : ∀ index s t, P s → pass index s = .again t → P t)
    (ends : ∀ index s t, P s → pass index s = .done t → Q t) {fuel index : Nat} {s s' : S}
    (now : P s) (h : run pass fuel index s = some s') : Q s' := by
  induction fuel generalizing index s with
  | zero => cases h
  | succ fuel ih =>
    rw [run] at h
    cases hpass : pass index s with
    | done t =>
      rw [hpass] at h
      exact Option.some.inj h ▸ ends index s t now hpass
    | again t =>
      rw [hpass] at h
      exact ih (goes index s t now hpass) h

theorem Reaches.run {pass : Nat → S → Turn S} {start s last : S} {fuel index : Nat}
    (reached : Reaches pass start index s) (h : run pass fuel 0 start = some last) :
    ∃ fuel, Loop.run pass fuel index s = some last := by
  induction reached with
  | start => exact ⟨fuel, h⟩
  | again earlier turn ih =>
    obtain ⟨rest, hrest⟩ := ih
    cases rest with
    | zero => cases hrest
    | succ rest =>
      rw [Loop.run, turn] at hrest
      exact ⟨rest, hrest⟩

/-- A loop ends when every pass that goes on lowers the measure. -/
theorem run_ends (pass : Nat → S → Turn S) (measure : S → Nat)
    (lowers : ∀ index s t, pass index s = .again t → measure t < measure s) {fuel : Nat}
    (index : Nat) {s : S} (enough : measure s < fuel) : ∃ s', run pass fuel index s = some s' := by
  induction fuel generalizing index s with
  | zero => omega
  | succ fuel ih =>
    rw [run]
    cases hpass : pass index s with
    | done t => exact ⟨t, rfl⟩
    | again t =>
      have lower := lowers index s t hpass
      exact ih (index + 1) (by omega)

/-- Two passes that both go on or both end, in related states. -/
inductive Turn.Related (R : S → T → Prop) : Turn S → Turn T → Prop
  | again {s : S} {t : T} : R s t → Related R (.again s) (.again t)
  | done {s : S} {t : T} : R s t → Related R (.done s) (.done t)

theorem Turn.Related.and_left {R : S → T → Prop} {P : S → Prop} {turn : Turn S} {turn' : Turn T}
    (h : Related R turn turn') (left : turn.All P) : Related (fun s t => R s t ∧ P s) turn turn' := by
  cases h with
  | again related => exact .again ⟨related, left⟩
  | done related => exact .done ⟨related, left⟩

/-- A run whose passes agree with those of another loop until it goes wrong, and
that does not go wrong, ends when the other does and in a related state. -/
theorem run_simulated {pass : Nat → S → Turn S} {spec : Nat → T → Turn T} {R : S → T → Prop}
    {wrong : S → Prop} {start : S} (stays : ∀ index s, wrong s → (pass index s).All wrong)
    (step : ∀ index s t, Reaches pass start index s → R s t →
      (pass index s).All wrong ∨ Turn.Related R (pass index s) (spec index t))
    {fuel index : Nat} {s s' : S} {t : T} (reached : Reaches pass start index s) (now : R s t)
    (h : run pass fuel index s = some s') (right : ¬ wrong s') :
    ∃ t', run spec fuel index t = some t' ∧ R s' t' := by
  induction fuel generalizing index s t with
  | zero => cases h
  | succ fuel ih =>
    rcases step index s t reached now with bad | related
    · exact absurd (run_after stays bad h) right
    · cases hpass : pass index s with
      | done next =>
        rw [run, hpass] at h
        cases h
        cases hspec : spec index t with
        | done next' =>
          rw [hpass, hspec] at related
          cases related with
          | done agree => exact ⟨next', by rw [run, hspec], agree⟩
        | again next' =>
          rw [hpass, hspec] at related
          cases related
      | again next =>
        rw [run, hpass] at h
        cases hspec : spec index t with
        | done next' =>
          rw [hpass, hspec] at related
          cases related
        | again next' =>
          rw [hpass, hspec] at related
          cases related with
          | again agree =>
            obtain ⟨last, hrun, hlast⟩ := ih (reached.again hpass) agree h
            exact ⟨last, by rw [run, hspec]; exact hrun, hlast⟩

end Loop
