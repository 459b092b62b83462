import Amatl.Config.Limits
import Amatl.Lib.OrdMap

/-! The provider circuit breaker: what it says about a provider is a function of
the failures of that provider since its last success or the last reset. -/

namespace Amatl

inductive CircuitState where
  | closed
  | opened
  | halfOpen
  deriving DecidableEq

def CircuitState.allowsCall : CircuitState → Bool
  | .closed => true
  | .opened => false
  | .halfOpen => true

structure CircuitRecord where
  consecutiveFailures : UInt32
  openedAt : Option Int64
  openUntil : Option Int64
  deriving DecidableEq

def CircuitRecord.default : CircuitRecord where
  consecutiveFailures := 0
  openedAt := none
  openUntil := none

structure CircuitSnapshot where
  provider : String
  state : CircuitState
  consecutiveFailures : UInt32
  openUntil : Option Int64
  deriving DecidableEq

/-- `u32::saturating_add(1)`. -/
def saturatingSucc (n : UInt32) : UInt32 := if n.toNat + 1 < 2 ^ 32 then n + 1 else n

/-- `i64::saturating_add`. -/
def saturatingAdd (a b : Int64) : Int64 :=
  if 2 ^ 63 ≤ a.toInt + b.toInt then Int64.maxValue
  else if a.toInt + b.toInt < -2 ^ 63 then Int64.minValue
  else a + b

theorem toNat_saturatingSucc (n : UInt32) :
    (saturatingSucc n).toNat = min (n.toNat + 1) (2 ^ 32 - 1) := by
  have bound := n.toNat_lt
  unfold saturatingSucc
  split
  · rename_i fits
    rw [UInt32.toNat_add]
    simp only [UInt32.toNat_one]
    omega
  · omega

theorem toInt_saturatingAdd {a b : Int64} (nonneg : 0 ≤ b.toInt) :
    (saturatingAdd a b).toInt = min (a.toInt + b.toInt) (2 ^ 63 - 1) := by
  have low := a.minValue_le_toInt
  have least : Int64.minValue.toInt = -2 ^ 63 := by decide
  have greatest : Int64.maxValue.toInt = 2 ^ 63 - 1 := by decide
  unfold saturatingAdd
  split
  · omega
  · rename_i fits
    rw [if_neg (by omega), Int64.toInt_add, Int.bmod_eq_of_le (by omega) (by omega)]
    omega

structure ProviderCircuit where
  policy : CircuitPolicy
  records : List (String × CircuitRecord)

namespace ProviderCircuit

def new (policy : CircuitPolicy) : ProviderCircuit where
  policy := policy
  records := []

def recordOf (c : ProviderCircuit) (provider : String) : CircuitRecord :=
  (OrdMap.get? provider c.records).getD .default

def state (c : ProviderCircuit) (provider : String) (now : Int64) : CircuitState :=
  if !c.policy.enabled then .closed
  else match (OrdMap.get? provider c.records).bind (·.openUntil) with
    | some until_ => if now < until_ then .opened else .halfOpen
    | none => .closed

def allowsCall (c : ProviderCircuit) (provider : String) (now : Int64) : Bool :=
  (c.state provider now).allowsCall

def recorded (policy : CircuitPolicy) (success : Bool) (now : Int64) (record : CircuitRecord) :
    CircuitRecord :=
  if success then .default
  else
    let consecutiveFailures := saturatingSucc record.consecutiveFailures
    if policy.failureThreshold ≤ consecutiveFailures then
      { consecutiveFailures
        openedAt := some now
        openUntil := some (saturatingAdd now policy.openSeconds.toInt64) }
    else { record with consecutiveFailures }

/-- The part of `record` under the lock. -/
def record (c : ProviderCircuit) (provider : String) (success : Bool) (now : Int64) :
    ProviderCircuit :=
  if !c.policy.enabled then c
  else { c with
    records := OrdMap.insert provider (recorded c.policy success now (c.recordOf provider))
      c.records }

def snapshots (c : ProviderCircuit) (now : Int64) : List CircuitSnapshot :=
  c.records.map fun (provider, record) =>
    { provider
      state :=
        if !c.policy.enabled then .closed
        else match record.openUntil with
          | some until_ => if now < until_ then .opened else .halfOpen
          | none => .closed
      consecutiveFailures := record.consecutiveFailures
      openUntil := record.openUntil }

/-- The part of `reset` under the lock. -/
def reset (c : ProviderCircuit) : ProviderCircuit := { c with records := [] }

end ProviderCircuit

inductive CircuitCall where
  | record (provider : String) (success : Bool) (now : Int64)
  | reset

namespace ProviderCircuit

def apply (c : ProviderCircuit) : CircuitCall → ProviderCircuit
  | .record provider success now => c.record provider success now
  | .reset => c.reset

/-- The breaker after a history of calls, the newest call first. -/
def after (policy : CircuitPolicy) : List CircuitCall → ProviderCircuit
  | [] => new policy
  | call :: earlier => (after policy earlier).apply call

/-- The failures of a provider since its last success or the last reset, with
their times, the newest first. -/
def failuresSince (provider : String) : List CircuitCall → List Int64
  | [] => []
  | .reset :: _ => []
  | .record other success now :: earlier =>
    if other = provider then
      if success then [] else now :: failuresSince provider earlier
    else failuresSince provider earlier

@[simp] theorem apply_policy (c : ProviderCircuit) (call : CircuitCall) :
    (c.apply call).policy = c.policy := by
  cases call with
  | record provider success now =>
    show (c.record provider success now).policy = _
    unfold record
    split <;> rfl
  | reset => rfl

@[simp] theorem after_policy (policy : CircuitPolicy) (calls : List CircuitCall) :
    (after policy calls).policy = policy := by
  induction calls with
  | nil => rfl
  | cons call earlier ih => rw [after, apply_policy, ih]

theorem recordOf_record {c : ProviderCircuit} (enabled : c.policy.enabled = true)
    (provider other : String) (success : Bool) (now : Int64) :
    (c.record other success now).recordOf provider =
      if provider = other then recorded c.policy success now (c.recordOf other)
      else c.recordOf provider := by
  by_cases same : provider = other <;>
    simp [record, enabled, recordOf, OrdMap.get?_insert, same]

theorem state_eq {c : ProviderCircuit} (enabled : c.policy.enabled = true) (provider : String)
    (now : Int64) :
    c.state provider now =
      match (c.recordOf provider).openUntil with
      | some until_ => if now < until_ then .opened else .halfOpen
      | none => .closed := by
  cases h : OrdMap.get? provider c.records <;>
    simp [state, enabled, recordOf, h, CircuitRecord.default]

/-- The counter and the deadline of a record, over a whole history. -/
theorem recordOf_after {policy : CircuitPolicy} (enabled : policy.enabled = true)
    (provider : String) (calls : List CircuitCall) :
    ((after policy calls).recordOf provider).consecutiveFailures.toNat =
        min (failuresSince provider calls).length (2 ^ 32 - 1) ∧
      ((after policy calls).recordOf provider).openUntil =
        if policy.failureThreshold.toNat ≤ (failuresSince provider calls).length then
          (failuresSince provider calls).head?.map (saturatingAdd · policy.openSeconds.toInt64)
        else none := by
  induction calls with
  | nil => simp [after, new, recordOf, OrdMap.get?, failuresSince, CircuitRecord.default]
  | cons call earlier ih =>
    cases call with
    | reset => simp [after, apply, reset, recordOf, OrdMap.get?, failuresSince, CircuitRecord.default]
    | record other success now =>
      have on : (after policy earlier).policy.enabled = true := by rw [after_policy, enabled]
      rw [after, apply, recordOf_record on, after_policy, failuresSince]
      by_cases same : other = provider
      · subst same
        cases success with
        | true => simp [recorded, CircuitRecord.default]
        | false =>
          obtain ⟨count, deadline⟩ := ih
          have counted : (saturatingSucc
              ((after policy earlier).recordOf other).consecutiveFailures).toNat =
              min ((failuresSince other earlier).length + 1) (2 ^ 32 - 1) := by
            rw [toNat_saturatingSucc, count]
            omega
          have bound := policy.failureThreshold.toNat_lt
          simp only [if_true, Bool.false_eq_true, if_false, recorded, List.length_cons,
            List.head?_cons, Option.map_some, UInt32.le_iff_toNat_le, counted]
          by_cases reached : policy.failureThreshold.toNat ≤
              (failuresSince other earlier).length + 1
          · rw [if_pos (by omega), if_pos reached]
            exact ⟨counted, rfl⟩
          · rw [if_neg (by omega), if_neg reached]
            exact ⟨counted, by rw [deadline, if_neg (by omega)]⟩
      · rw [if_neg (fun h => same h.symm), if_neg same]
        exact ih

theorem sorted_after {policy : CircuitPolicy} (calls : List CircuitCall) :
    OrdMap.Sorted (after policy calls).records := by
  induction calls with
  | nil => exact List.Pairwise.nil
  | cons call earlier ih =>
    cases call with
    | reset => exact List.Pairwise.nil
    | record provider success now =>
      rw [after, apply, record]
      split
      · exact ih
      · exact ih.insert _ _

theorem state_of_mem_snapshots {c : ProviderCircuit} (sorted : OrdMap.Sorted c.records)
    {now : Int64} {snapshot : CircuitSnapshot} (mem : snapshot ∈ c.snapshots now) :
    snapshot.state = c.state snapshot.provider now := by
  obtain ⟨⟨provider, record⟩, listed, rfl⟩ := List.mem_map.1 mem
  have found := OrdMap.get?_of_mem sorted listed
  dsimp only at found
  simp [state, found]

theorem state_foldl_record {provider : String} (outcomes : List (String × Bool))
    (now : Int64) (c : ProviderCircuit) (t : Int64) (notClosed : c.state provider t ≠ .closed)
    (failures : (provider, true) ∉ outcomes) :
    (outcomes.foldl (fun c e => c.record e.1 e.2 now) c).state provider t ≠ .closed := by
  induction outcomes generalizing c with
  | nil => exact notClosed
  | cons outcome outcomes ih =>
    obtain ⟨other, ok⟩ := outcome
    rw [List.mem_cons, not_or] at failures
    refine ih _ ?_ failures.2
    cases enabled : c.policy.enabled with
    | false => simpa [record, enabled] using notClosed
    | true =>
      have same := ProviderCircuit.apply_policy c (.record other ok now)
      rw [ProviderCircuit.apply] at same
      rw [ProviderCircuit.state_eq (by rw [same, enabled]), ProviderCircuit.recordOf_record enabled]
      rw [ProviderCircuit.state_eq enabled] at notClosed
      by_cases here : provider = other
      · subst here
        have failed : ok = false := by
          cases ok with
          | false => rfl
          | true => exact absurd rfl failures.1
        subst failed
        rw [if_pos rfl]
        by_cases reached : c.policy.failureThreshold ≤
            saturatingSucc (c.recordOf provider).consecutiveFailures
        · simp only [ProviderCircuit.recorded, Bool.false_eq_true, if_false, reached, if_true]
          split <;> simp
        · simpa [ProviderCircuit.recorded, reached] using notClosed
      · rw [if_neg here]
        exact notClosed

end ProviderCircuit

section Spec

open ProviderCircuit

variable {policy : CircuitPolicy}

theorem CircuitPolicy.openSeconds_bounds (valid : policy.validate = .ok ()) :
    1 ≤ policy.openSeconds.toNat ∧ policy.openSeconds.toNat ≤ 3600 := by
  unfold CircuitPolicy.validate at valid
  split at valid
  · cases valid
  · split at valid
    · cases valid
    · rename_i bounds
      rw [not_or, UInt64.not_lt, UInt64.not_lt, UInt64.le_iff_toNat_le,
        UInt64.le_iff_toNat_le] at bounds
      exact bounds

theorem CircuitPolicy.openSeconds_toInt (valid : policy.validate = .ok ()) :
    policy.openSeconds.toInt64.toInt = policy.openSeconds.toNat := by
  have bounds := CircuitPolicy.openSeconds_bounds valid
  show policy.openSeconds.toBitVec.toInt = _
  rw [BitVec.toInt_eq_toNat_of_lt (by show 2 * policy.openSeconds.toNat < _; omega)]
  rfl

theorem CircuitPolicy.failureThreshold_pos (valid : policy.validate = .ok ()) :
    0 < policy.failureThreshold.toNat := by
  unfold CircuitPolicy.validate at valid
  split at valid
  · cases valid
  · rename_i bounds
    rw [not_or, UInt32.not_lt, UInt32.le_iff_toNat_le] at bounds
    exact bounds.1

theorem state_after (enabled : policy.enabled = true) (valid : policy.validate = .ok ())
    (calls : List CircuitCall) (provider : String) (now : Int64) :
    (after policy calls).state provider now =
      if policy.failureThreshold.toNat ≤ (failuresSince provider calls).length then
        match (failuresSince provider calls).head? with
        | none => .closed
        | some last =>
          if now.toInt < min (last.toInt + policy.openSeconds.toNat) (2 ^ 63 - 1) then .opened
          else .halfOpen
      else .closed := by
  have seconds := CircuitPolicy.openSeconds_toInt valid
  have on : (after policy calls).policy.enabled = true := by rw [after_policy, enabled]
  rw [state_eq on, (recordOf_after enabled provider calls).2]
  by_cases reached : policy.failureThreshold.toNat ≤ (failuresSince provider calls).length
  · rw [if_pos reached, if_pos reached]
    cases (failuresSince provider calls).head? with
    | none => rfl
    | some last =>
      have deadline : now < saturatingAdd last policy.openSeconds.toInt64 ↔
          now.toInt < min (last.toInt + policy.openSeconds.toNat) (2 ^ 63 - 1) := by
        rw [Int64.lt_iff_toInt_lt, toInt_saturatingAdd (by omega), seconds]
      simp only [Option.map_some, deadline]
  · rw [if_neg reached, if_neg reached]

/-- Over every history of an enabled breaker: the failures of a provider since its
last success or the last reset decide its state at every time, in `state` and in
`snapshots`, and a call on another provider changes nothing. The end of the
cooldown is the last failure and the cooldown, or the end of the clock. -/
theorem state_iff_failuresSince (enabled : policy.enabled = true)
    (valid : policy.validate = .ok ()) (calls : List CircuitCall) (provider : String)
    (now : Int64) :
    ((after policy calls).state provider now = .opened ↔
      policy.failureThreshold.toNat ≤ (failuresSince provider calls).length ∧
        ∃ last ∈ (failuresSince provider calls).head?,
          now.toInt < min (last.toInt + policy.openSeconds.toNat) (2 ^ 63 - 1)) ∧
    ((after policy calls).state provider now = .halfOpen ↔
      policy.failureThreshold.toNat ≤ (failuresSince provider calls).length ∧
        ∃ last ∈ (failuresSince provider calls).head?,
          min (last.toInt + policy.openSeconds.toNat) (2 ^ 63 - 1) ≤ now.toInt) ∧
    ((after policy calls).state provider now = .closed ↔
      (failuresSince provider calls).length < policy.failureThreshold.toNat) ∧
    (∀ snapshot ∈ (after policy calls).snapshots now,
      snapshot.state = (after policy calls).state snapshot.provider now) ∧
    ∀ (other : String) (success : Bool) (time : Int64), other ≠ provider →
      ((after policy calls).record other success time).state provider now =
        (after policy calls).state provider now := by
  have on : (after policy calls).policy.enabled = true := by rw [after_policy, enabled]
  have value := state_after enabled valid calls provider now
  refine ⟨?_, ?_, ?_, ?_, ?_⟩
  · by_cases reached : policy.failureThreshold.toNat ≤ (failuresSince provider calls).length
    · cases failed : (failuresSince provider calls).head? with
      | none => simp [value, reached, failed]
      | some last => simp [value, reached, failed]
    · simp [value, reached]
  · by_cases reached : policy.failureThreshold.toNat ≤ (failuresSince provider calls).length
    · cases failed : (failuresSince provider calls).head? with
      | none => simp [value, reached, failed]
      | some last =>
        rw [value, if_pos reached, failed]
        simp only [reached, Option.mem_def, Option.some.injEq, exists_eq_left', true_and]
        split <;> simp <;> omega
    · simp [value, reached]
  · by_cases reached : policy.failureThreshold.toNat ≤ (failuresSince provider calls).length
    · have least := CircuitPolicy.failureThreshold_pos valid
      obtain ⟨last, rest, failed⟩ := List.exists_cons_of_length_pos (Nat.lt_of_lt_of_le least reached)
      rw [value, if_pos reached, failed]
      simp only [List.head?_cons]
      split <;> simp [← failed, reached]
    · simp only [value, if_neg reached, Nat.not_le.1 reached]
  · intro snapshot mem
    exact state_of_mem_snapshots (sorted_after calls) mem
  · intro other success time ne
    have unchanged := recordOf_record on provider other success time
    rw [if_neg ne.symm] at unchanged
    have on' : ((after policy calls).record other success time).policy.enabled = true := by
      have same := apply_policy (after policy calls) (.record other success time)
      rw [apply] at same
      rw [same, on]
    rw [state_eq on', state_eq on, unchanged]

end Spec

/-- Three failures in a row, on the policy the program ships with. -/
theorem default_opens :
    (ProviderCircuit.after .default
      [.record "brave" false 12, .record "brave" false 11, .record "brave" false 10]).state
        "brave" 71 = .opened :=
  (@state_iff_failuresSince .default rfl rfl _ _ _).1.2
    ⟨by decide, 12, rfl, by decide⟩

def CircuitCall.time : CircuitCall → Option Int64
  | .record _ _ now => some now
  | .reset => none

/-- The deadline stops at the end of the clock, so that a failure just before it
has no full cooldown. -/
theorem cooldown_ends_with_clock :
    ¬ ∀ (policy : CircuitPolicy) (calls : List CircuitCall) (provider : String) (now : Int64),
      policy.enabled = true → policy.validate = .ok () →
      (calls.filterMap CircuitCall.time).Pairwise (· ≥ ·) →
      ((ProviderCircuit.after policy calls).state provider now = .opened ↔
        policy.failureThreshold.toNat ≤ (ProviderCircuit.failuresSince provider calls).length ∧
          ∃ last ∈ (ProviderCircuit.failuresSince provider calls).head?,
            now.toInt < last.toInt + policy.openSeconds.toNat) := by
  intro spec
  have opened := (spec { CircuitPolicy.default with failureThreshold := 1 }
    [.record "brave" false (Int64.maxValue - 10)] "brave" Int64.maxValue rfl rfl
    (List.pairwise_singleton _ _)).2 ⟨by decide, Int64.maxValue - 10, rfl, by decide⟩
  exact absurd opened (by decide)

end Amatl
