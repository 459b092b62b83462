import Amatl.Circuit

/-! The breaker under concurrent calls: memory against storage, and the probes of
a circuit that is half open. -/

namespace Amatl

/-! Each call changes memory under the lock and writes to storage after it has
released the lock. -/

structure StoredCircuitRecord where
  record : CircuitRecord
  updatedAt : Int64
  deriving DecidableEq

inductive CircuitWrite where
  | put (provider : String) (row : StoredCircuitRecord)
  | clear
  deriving DecidableEq

def CircuitWrite.apply (rows : List (String × StoredCircuitRecord)) :
    CircuitWrite → List (String × StoredCircuitRecord)
  | .put provider row => OrdMap.insert provider row rows
  | .clear => []

/-- The two writes leave different rows when they change places. -/
def CircuitWrite.conflicts : CircuitWrite → CircuitWrite → Bool
  | .put provider _, .put other _ => provider == other
  | .clear, .clear => false
  | _, _ => true

/-- What a call is left to write when it has changed memory. -/
def ProviderCircuit.writeOf (c : ProviderCircuit) : CircuitCall → Option CircuitWrite
  | .record provider success now =>
    if c.policy.enabled then
      some (.put provider ⟨recorded c.policy success now (c.recordOf provider), now⟩)
    else none
  | .reset => some .clear

def ProviderCircuit.restored (policy : CircuitPolicy)
    (rows : List (String × StoredCircuitRecord)) : ProviderCircuit where
  policy := policy
  records := rows.map (fun row => (row.1, row.2.record))

/-- Memory, storage, and the calls that have still to write, in the order in which
they changed memory. -/
structure CircuitSite (ι : Type) where
  circuit : ProviderCircuit
  rows : List (String × StoredCircuitRecord)
  waiting : List (ι × CircuitWrite)

inductive CircuitStep (ι : Type) where
  | update (i : ι) (call : CircuitCall)
  | write (i : ι)

namespace CircuitSite

variable {ι : Type} [DecidableEq ι]

def split (i : ι) : List (ι × CircuitWrite) →
    Option (List (ι × CircuitWrite) × CircuitWrite × List (ι × CircuitWrite))
  | [] => none
  | e :: rest =>
    if e.1 = i then some ([], e.2, rest)
    else (split i rest).map fun (before, write, later) => (e :: before, write, later)

def step (s : CircuitSite ι) : CircuitStep ι → Option (CircuitSite ι)
  | .update i call => some { s with
      circuit := s.circuit.apply call
      waiting := s.waiting ++ (s.circuit.writeOf call).toList.map (fun write => (i, write)) }
  | .write i => (split i s.waiting).map fun (before, write, later) =>
      { s with rows := write.apply s.rows, waiting := before ++ later }

def run (s : CircuitSite ι) : List (CircuitStep ι) → Option (CircuitSite ι)
  | [] => some s
  | step :: rest => (s.step step).bind (fun s => s.run rest)

/-- No call that changed the same record earlier has still to write. -/
def InOrder (s : CircuitSite ι) : CircuitStep ι → Prop
  | .update _ _ => True
  | .write i => ∀ parts ∈ split i s.waiting, ∀ e ∈ parts.1, e.2.conflicts parts.2.1 = false

def InOrderRun (s : CircuitSite ι) : List (CircuitStep ι) → Prop
  | [] => True
  | step :: rest => s.InOrder step ∧ ∀ s' ∈ s.step step, s'.InOrderRun rest

instance (s : CircuitSite ι) (step : CircuitStep ι) : Decidable (s.InOrder step) :=
  match step with
  | .update _ _ => isTrue trivial
  | .write i => inferInstanceAs (Decidable (∀ parts ∈ split i s.waiting, ∀ e ∈ parts.1, _))

instance decidableInOrderRun (steps : List (CircuitStep ι)) (s : CircuitSite ι) :
    Decidable (s.InOrderRun steps) :=
  match steps with
  | [] => isTrue trivial
  | step :: rest =>
    have := decidableInOrderRun rest
    inferInstanceAs (Decidable (s.InOrder step ∧ ∀ s' ∈ s.step step, s'.InOrderRun rest))

/-- Storage holds what memory does, an absent row being the default record. -/
def Synced (s : CircuitSite ι) : Prop :=
  ∀ provider, (ProviderCircuit.restored s.circuit.policy s.rows).recordOf provider =
    s.circuit.recordOf provider

theorem eq_of_split {i : ι} {waiting before later : List (ι × CircuitWrite)} {write : CircuitWrite}
    (h : split i waiting = some (before, write, later)) :
    waiting = before ++ (i, write) :: later := by
  induction waiting generalizing before with
  | nil => cases h
  | cons e rest ih =>
    unfold split at h
    split at h
    · rename_i same
      cases h
      rw [← same, List.nil_append]
    · obtain ⟨⟨before', write', later'⟩, found, eq⟩ := Option.map_eq_some_iff.1 h
      cases eq
      rw [List.cons_append, ← ih found]

abbrev Table := String → CircuitRecord

def written (table : Table) : CircuitWrite → Table
  | .put provider row => Function.update table provider row.record
  | .clear => fun _ => .default

theorem written_comm (table : Table) {a b : CircuitWrite} (h : a.conflicts b = false) :
    written (written table a) b = written (written table b) a := by
  cases a with
  | clear =>
    cases b with
    | clear => rfl
    | put other row => cases h
  | put provider row =>
    cases b with
    | clear => cases h
    | put other row' =>
      have ne : other ≠ provider := fun same => by simp [CircuitWrite.conflicts, same] at h
      exact Function.update_comm ne.symm _ _ _

omit [DecidableEq ι] in
/-- A write that conflicts with none before it may be made first. -/
theorem foldl_written_early (table : Table) {before later : List (ι × CircuitWrite)}
    {e : ι × CircuitWrite} (h : ∀ d ∈ before, d.2.conflicts e.2 = false) :
    (before ++ e :: later).foldl (fun table e => written table e.2) table =
      (before ++ later).foldl (fun table e => written table e.2) (written table e.2) := by
  induction before generalizing table with
  | nil => rfl
  | cons d before ih =>
    obtain ⟨here, rest⟩ := List.forall_mem_cons.1 h
    rw [List.cons_append, List.foldl_cons, ih _ rest, written_comm _ here, List.cons_append,
      List.foldl_cons]

theorem restored_apply (policy : CircuitPolicy) (rows : List (String × StoredCircuitRecord))
    (write : CircuitWrite) :
    (ProviderCircuit.restored policy (write.apply rows)).recordOf =
      written (ProviderCircuit.restored policy rows).recordOf write := by
  funext provider
  cases write with
  | clear => rfl
  | put other row =>
    by_cases same : provider = other
    · subst same
      simp [ProviderCircuit.recordOf, ProviderCircuit.restored, CircuitWrite.apply,
        OrdMap.get?_map, OrdMap.get?_insert, written]
    · simp [ProviderCircuit.recordOf, ProviderCircuit.restored, CircuitWrite.apply,
        OrdMap.get?_map, OrdMap.get?_insert, written, same]

/-- Storage gets to memory when the waiting calls write in their order. -/
def Settles (s : CircuitSite ι) : Prop :=
  s.waiting.foldl (fun table e => written table e.2)
      (ProviderCircuit.restored s.circuit.policy s.rows).recordOf =
    s.circuit.recordOf

theorem recordOf_apply (c : ProviderCircuit) (call : CircuitCall) :
    (c.apply call).recordOf = (c.writeOf call).elim c.recordOf (written c.recordOf) := by
  cases call with
  | reset => rfl
  | record provider success now =>
    cases enabled : c.policy.enabled with
    | false =>
      simp [ProviderCircuit.apply, ProviderCircuit.record, ProviderCircuit.writeOf, enabled]
    | true =>
      funext other
      rw [ProviderCircuit.apply, ProviderCircuit.recordOf_record enabled]
      by_cases same : other = provider
      · subst same
        simp [ProviderCircuit.writeOf, enabled, written]
      · simp [ProviderCircuit.writeOf, enabled, written, same]

theorem Settles.step {s s' : CircuitSite ι} {step : CircuitStep ι} (h : s.Settles)
    (order : s.InOrder step) (stepped : s.step step = some s') : s'.Settles := by
  unfold Settles at h ⊢
  cases step with
  | update i call =>
    cases stepped
    rw [ProviderCircuit.apply_policy, List.foldl_append, h, recordOf_apply]
    cases s.circuit.writeOf call <;> rfl
  | write i =>
    obtain ⟨⟨before, write, later⟩, found, rfl⟩ := Option.map_eq_some_iff.1 stepped
    have free := order _ found
    rw [restored_apply, ← h, eq_of_split found]
    exact (foldl_written_early (e := (i, write)) _ free).symm

theorem Settles.run {s s' : CircuitSite ι} {steps : List (CircuitStep ι)} (h : s.Settles)
    (order : s.InOrderRun steps) (ran : s.run steps = some s') : s'.Settles := by
  induction steps generalizing s with
  | nil =>
    cases ran
    exact h
  | cons step rest ih =>
    obtain ⟨next, stepped, ran⟩ := Option.bind_eq_some_iff.1 ran
    exact ih (h.step order.1 stepped) (order.2 next stepped) ran

end CircuitSite

/-- Over every interleaving of records and resets whose writes keep the order of
the updates: when every call has returned, storage holds what memory does, and a
breaker restored from it says the same of every provider at every time. -/
theorem circuit_synced {ι : Type} [DecidableEq ι] {s s' : CircuitSite ι}
    {steps : List (CircuitStep ι)} (synced : s.Synced) (idle : s.waiting = [])
    (order : s.InOrderRun steps) (ran : s.run steps = some s') (returned : s'.waiting = []) :
    s'.Synced ∧ ∀ (provider : String) (now : Int64),
      (ProviderCircuit.restored s'.circuit.policy s'.rows).state provider now =
        s'.circuit.state provider now := by
  have settles : s.Settles := by
    unfold CircuitSite.Settles
    rw [idle]
    exact funext synced
  have settled := settles.run order ran
  unfold CircuitSite.Settles at settled
  rw [returned, List.foldl_nil] at settled
  refine ⟨congrFun settled, fun provider now => ?_⟩
  cases enabled : s'.circuit.policy.enabled with
  | false => simp [ProviderCircuit.state, ProviderCircuit.restored, enabled]
  | true =>
    rw [ProviderCircuit.state_eq (by exact enabled), ProviderCircuit.state_eq enabled, settled]

def touchyCircuit : CircuitSite (Fin 2) where
  circuit := .new { CircuitPolicy.default with failureThreshold := 1 }
  rows := []
  waiting := []

/-- A failure and a success, each written in its turn. -/
def orderedCalls : List (CircuitStep (Fin 2)) :=
  [.update 0 (.record "brave" false 10), .update 1 (.record "brave" true 11), .write 0, .write 1]

def orderedEnd : CircuitSite (Fin 2) := (touchyCircuit.run orderedCalls).get (by decide)

theorem orderedEnd_synced : orderedEnd.Synced :=
  (circuit_synced (s := touchyCircuit) (fun _ => rfl) rfl (by decide)
    (Option.some_get (by decide)).symm (by decide)).1

/-- The success is written first and the failure over it. -/
def overtakingCalls : List (CircuitStep (Fin 2)) :=
  [.update 0 (.record "brave" false 10), .update 1 (.record "brave" true 11), .write 1, .write 0]

def overtakenEnd : CircuitSite (Fin 2) := (touchyCircuit.run overtakingCalls).get (by decide)

theorem overtakenEnd_stale :
    ¬ ∀ (s s' : CircuitSite (Fin 2)) (steps : List (CircuitStep (Fin 2))), s.Synced →
      s.waiting = [] → s.run steps = some s' → s'.waiting = [] → s'.Synced := by
  intro stays
  have synced := stays touchyCircuit overtakenEnd overtakingCalls (fun _ => rfl) rfl
    (Option.some_get _).symm (by decide) "brave"
  exact absurd synced (by decide)

/-! Searches on one breaker: each looks at the state of a provider, calls it, and
records the outcome when the call is over. -/

/-- A call under way, with the second in which the search found that it may be made. -/
structure ProbeCall (ι : Type) where
  search : ι
  provider : String
  checkedAt : Int64

/-- The breaker, the clock, and the calls that are under way. -/
structure ProbeSite (ι : Type) where
  circuit : ProviderCircuit
  now : Int64
  outstanding : List (ProbeCall ι)

inductive ProbeStep (ι : Type) where
  | tick (now : Int64)
  | check (i : ι) (provider : String)
  | finish (i : ι) (provider : String) (success : Bool)
  | reset

namespace ProbeSite

variable {ι : Type} [DecidableEq ι]

def isCall (i : ι) (provider : String) (call : ProbeCall ι) : Bool :=
  call.search = i ∧ call.provider = provider

/-- A provider that may not be called is skipped. -/
def step (s : ProbeSite ι) : ProbeStep ι → Option (ProbeSite ι)
  | .tick now => if s.now ≤ now then some { s with now } else none
  | .check i provider =>
    if s.circuit.allowsCall provider s.now then
      some { s with outstanding := ⟨i, provider, s.now⟩ :: s.outstanding }
    else some s
  | .finish i provider success =>
    if s.outstanding.any (isCall i provider) then
      some { s with
        circuit := s.circuit.record provider success s.now
        outstanding := s.outstanding.eraseP (isCall i provider) }
    else none
  | .reset => some { s with circuit := s.circuit.reset }

def run (s : ProbeSite ι) : List (ProbeStep ι) → Option (ProbeSite ι)
  | [] => some s
  | step :: rest => (s.step step).bind (fun s => s.run rest)

def calls (s : ProbeSite ι) (provider : String) : Nat :=
  s.outstanding.countP (fun call => decide (call.provider = provider))

/-- A provider that is half open has at most one call under way. -/
def OneProbe (s : ProbeSite ι) : Prop :=
  ∀ provider, s.circuit.state provider s.now = .halfOpen → s.calls provider ≤ 1

/-- No call outlasts the cooldown: while its provider is half open, a call was checked less
than `open_seconds` ago. -/
def Timely (s : ProbeSite ι) : Prop :=
  ∀ call ∈ s.outstanding, s.circuit.state call.provider s.now = .halfOpen →
    s.now < saturatingAdd call.checkedAt s.circuit.policy.openSeconds.toInt64

def TimelyRun (s : ProbeSite ι) : List (ProbeStep ι) → Prop
  | [] => s.Timely
  | step :: rest => s.Timely ∧ ∀ s' ∈ s.step step, s'.TimelyRun rest

/-- The providers that a search has found half open and that have no outcome since. -/
def probedAfter (s : ProbeSite ι) (probed : List String) : ProbeStep ι → List String
  | .tick _ => probed
  | .check _ provider =>
    if s.circuit.state provider s.now = .halfOpen then provider :: probed else probed
  | .finish _ provider _ => probed.filter (fun other => other ≠ provider)
  | .reset => []

/-- Between two searches that find a provider half open an outcome of it is recorded, or the
breaker is reset. -/
def InTurn (probed : List String) (s : ProbeSite ι) : ProbeStep ι → Prop
  | .tick _ => True
  | .check _ provider => s.circuit.state provider s.now = .halfOpen → provider ∉ probed
  | .finish _ _ _ => True
  | .reset => True

def InTurnRun (probed : List String) (s : ProbeSite ι) : List (ProbeStep ι) → Prop
  | [] => True
  | step :: rest => s.InTurn probed step ∧
      ∀ s' ∈ s.step step, s'.InTurnRun (s.probedAfter probed step) rest

instance (s : ProbeSite ι) : Decidable s.Timely :=
  inferInstanceAs (Decidable (∀ call ∈ s.outstanding, _ → _))

instance decidableTimelyRun (steps : List (ProbeStep ι)) (s : ProbeSite ι) :
    Decidable (s.TimelyRun steps) :=
  match steps with
  | [] => inferInstanceAs (Decidable s.Timely)
  | step :: rest =>
    have := decidableTimelyRun rest
    inferInstanceAs (Decidable (s.Timely ∧ ∀ s' ∈ s.step step, s'.TimelyRun rest))

instance (probed : List String) (s : ProbeSite ι) (step : ProbeStep ι) :
    Decidable (s.InTurn probed step) :=
  match step with
  | .tick _ => isTrue trivial
  | .check _ provider =>
    inferInstanceAs (Decidable (s.circuit.state provider s.now = .halfOpen → provider ∉ probed))
  | .finish _ _ _ => isTrue trivial
  | .reset => isTrue trivial

instance decidableInTurnRun (steps : List (ProbeStep ι)) (probed : List String)
    (s : ProbeSite ι) : Decidable (s.InTurnRun probed steps) :=
  match steps with
  | [] => isTrue trivial
  | step :: rest =>
    have := decidableInTurnRun rest
    inferInstanceAs (Decidable (s.InTurn probed step ∧
      ∀ s' ∈ s.step step, s'.InTurnRun (s.probedAfter probed step) rest))

/-- What holds between the steps. An open circuit has refused every call since it opened, so the
calls under it end with its cooldown. A half open one has no call but the probe. -/
structure ProbesHold (probed : List String) (s : ProbeSite ι) : Prop where
  checked : ∀ call ∈ s.outstanding, call.checkedAt ≤ s.now
  opened : ∀ call ∈ s.outstanding, s.circuit.state call.provider s.now = .opened →
    ∀ until_ ∈ (s.circuit.recordOf call.provider).openUntil,
      saturatingAdd call.checkedAt s.circuit.policy.openSeconds.toInt64 ≤ until_
  halfOpen : ∀ provider, s.circuit.state provider s.now = .halfOpen →
    s.calls provider = 0 ∨ provider ∈ probed ∧ s.calls provider = 1

theorem state_opened_iff {c : ProviderCircuit} {provider : String} {now : Int64} :
    c.state provider now = .opened ↔
      c.policy.enabled = true ∧ ∃ until_ ∈ (c.recordOf provider).openUntil, now < until_ := by
  cases enabled : c.policy.enabled with
  | false => simp [ProviderCircuit.state, enabled]
  | true =>
    rw [ProviderCircuit.state_eq enabled]
    cases (c.recordOf provider).openUntil with
    | none => simp
    | some until_ =>
      by_cases ahead : now < until_ <;> simp [ahead]

theorem state_halfOpen_iff {c : ProviderCircuit} {provider : String} {now : Int64} :
    c.state provider now = .halfOpen ↔
      c.policy.enabled = true ∧ ∃ until_ ∈ (c.recordOf provider).openUntil, until_ ≤ now := by
  cases enabled : c.policy.enabled with
  | false => simp [ProviderCircuit.state, enabled]
  | true =>
    rw [ProviderCircuit.state_eq enabled]
    cases (c.recordOf provider).openUntil with
    | none => simp
    | some until_ =>
      by_cases ahead : now < until_ <;> simp [ahead, Int64.not_le, Int64.not_lt.1]

/-- A recorded outcome sets the deadline of its own provider, or leaves a deadline as it was. -/
theorem deadline_of_record {c : ProviderCircuit} (enabled : c.policy.enabled = true)
    {provider other : String} {success : Bool} {now until_ : Int64}
    (h : until_ ∈ ((c.record other success now).recordOf provider).openUntil) :
    provider = other ∧ until_ = saturatingAdd now c.policy.openSeconds.toInt64 ∨
      until_ ∈ (c.recordOf provider).openUntil := by
  rw [ProviderCircuit.recordOf_record enabled] at h
  by_cases here : provider = other
  · subst here
    rw [if_pos rfl] at h
    unfold ProviderCircuit.recorded at h
    split at h
    · cases h
    · simp only at h
      split at h
      · exact Or.inl ⟨rfl, (Option.some.inj h).symm⟩
      · exact Or.inr h
  · rw [if_neg here] at h
    exact Or.inr h

theorem saturatingAdd_mono {policy : CircuitPolicy} (valid : policy.validate = .ok ())
    {a b : Int64} (h : a ≤ b) :
    saturatingAdd a policy.openSeconds.toInt64 ≤ saturatingAdd b policy.openSeconds.toInt64 := by
  have seconds := CircuitPolicy.openSeconds_toInt valid
  rw [Int64.le_iff_toInt_le] at h ⊢
  rw [toInt_saturatingAdd (by omega), toInt_saturatingAdd (by omega)]
  omega

omit [DecidableEq ι] in
theorem calls_eq_zero_iff {s : ProbeSite ι} {provider : String} :
    s.calls provider = 0 ↔ ∀ call ∈ s.outstanding, call.provider ≠ provider := by
  simp [calls, List.countP_eq_zero]

/-- The calls around the one that ends. -/
theorem finished_split {s s' : ProbeSite ι} {i : ι} {provider : String} {success : Bool}
    (stepped : s.step (.finish i provider success) = some s') :
    ∃ front back call, call.provider = provider ∧ s.outstanding = front ++ call :: back ∧
      s' = { s with
        circuit := s.circuit.record provider success s.now
        outstanding := front ++ back } := by
  obtain ⟨found, ⟨⟩⟩ := Option.ite_none_right_eq_some.1 stepped
  obtain ⟨call, mem, this⟩ := List.any_eq_true.1 found
  obtain ⟨call, front, back, -, this, around, left⟩ := List.exists_of_eraseP mem this
  rw [left]
  exact ⟨front, back, call, (of_decide_eq_true this).2, around, rfl⟩

omit [DecidableEq ι] in
theorem ProbesHold.tick {probed : List String} {s : ProbeSite ι} (h : s.ProbesHold probed)
    {now : Int64} (later : s.now ≤ now) (timely : ({ s with now } : ProbeSite ι).Timely) :
    ({ s with now } : ProbeSite ι).ProbesHold probed where
  checked := fun call mem => Int64.le_trans (h.checked call mem) later
  opened := by
    intro call mem opened until_ deadline
    obtain ⟨enabled, other, same, ahead⟩ := state_opened_iff.1 opened
    have before : s.circuit.state call.provider s.now = .opened :=
      state_opened_iff.2 ⟨enabled, other, same, Int64.lt_of_le_of_lt later ahead⟩
    exact h.opened call mem before until_ deadline
  halfOpen := by
    intro provider half
    obtain ⟨enabled, until_, deadline, passed⟩ := state_halfOpen_iff.1 half
    by_cases before : until_ ≤ s.now
    · exact h.halfOpen provider (state_halfOpen_iff.2 ⟨enabled, until_, deadline, before⟩)
    · -- The cooldown ends with this tick, and every call has ended within it.
      refine Or.inl (calls_eq_zero_iff.2 fun call mem same => ?_)
      subst same
      have opened := state_opened_iff.2 ⟨enabled, until_, deadline, Int64.not_le.1 before⟩
      have within := h.opened call mem opened until_ deadline
      exact Int64.lt_irrefl
        (Int64.lt_of_lt_of_le (timely call mem half) (Int64.le_trans within passed))

omit [DecidableEq ι] in
theorem ProbesHold.check {probed : List String} {s : ProbeSite ι} (h : s.ProbesHold probed)
    {i : ι} {provider : String} (allowed : s.circuit.allowsCall provider s.now = true)
    (turn : s.circuit.state provider s.now = .halfOpen → provider ∉ probed) :
    ({ s with outstanding := ⟨i, provider, s.now⟩ :: s.outstanding } : ProbeSite ι).ProbesHold
      (s.probedAfter probed (.check i provider)) where
  checked := List.forall_mem_cons.2 ⟨Int64.le_refl _, h.checked⟩
  opened := by
    refine List.forall_mem_cons.2 ⟨fun opened => ?_, h.opened⟩
    have refused : s.circuit.allowsCall provider s.now = false := by
      rw [ProviderCircuit.allowsCall, opened]
      rfl
    exact absurd (refused.symm.trans allowed) (by decide)
  halfOpen := by
    intro other half
    by_cases here : provider = other
    · subst here
      have none_yet := (h.halfOpen provider half).resolve_right (fun one => turn half one.1)
      unfold calls at none_yet
      refine Or.inr ⟨?_, by simp [calls, none_yet]⟩
      rw [probedAfter, if_pos half]
      exact List.mem_cons_self
    · have same : calls { s with outstanding := ⟨i, provider, s.now⟩ :: s.outstanding } other =
          s.calls other := by simp [calls, here]
      rw [same, probedAfter]
      refine (h.halfOpen other half).imp_right (fun one => ⟨?_, one.2⟩)
      split
      · exact List.mem_cons_of_mem _ one.1
      · exact one.1

theorem ProbesHold.finish {probed : List String} {s s' : ProbeSite ι} (h : s.ProbesHold probed)
    (valid : s.circuit.policy.validate = .ok ()) {i : ι} {provider : String} {success : Bool}
    (stepped : s.step (.finish i provider success) = some s') (timely : s'.Timely) :
    s'.ProbesHold (s.probedAfter probed (.finish i provider success)) := by
  obtain ⟨front, back, ended, same, around, rfl⟩ := finished_split stepped
  have still : ∀ call ∈ front ++ back, call ∈ s.outstanding := by
    intro call mem
    rw [around]
    exact (List.sublist_append_right [ended] back).append_left front |>.subset mem
  have policy := ProviderCircuit.apply_policy s.circuit (.record provider success s.now)
  rw [ProviderCircuit.apply] at policy
  refine ⟨fun call mem => h.checked call (still call mem), ?_, ?_⟩
  · intro call mem opened until_ deadline
    obtain ⟨enabled, other, found, ahead⟩ := state_opened_iff.1 opened
    obtain rfl := Option.mem_unique found deadline
    simp only [policy] at enabled ⊢
    rcases deadline_of_record enabled found with ⟨-, rfl⟩ | kept
    · exact saturatingAdd_mono valid (h.checked call (still call mem))
    · exact h.opened call (still call mem) (state_opened_iff.2 ⟨enabled, other, kept, ahead⟩)
        other kept
  · intro other half
    obtain ⟨enabled, until_, deadline, passed⟩ := state_halfOpen_iff.1 half
    simp only [policy] at enabled
    have count : s.calls other = calls { s with outstanding := front ++ back } other +
        if provider = other then 1 else 0 := by
      simp only [calls, around, List.countP_append, List.countP_cons, same, decide_eq_true_eq]
      omega
    rcases deadline_of_record enabled deadline with ⟨-, rfl⟩ | kept
    · -- A cooldown that is over at once, at the end of the clock.
      refine Or.inl (calls_eq_zero_iff.2 fun call mem here => ?_)
      subst here
      have young := timely call mem half
      simp only [policy] at young
      have within := saturatingAdd_mono valid (h.checked call (still call mem))
      exact Int64.lt_irrefl (Int64.lt_of_lt_of_le young (Int64.le_trans within passed))
    · have before := h.halfOpen other (state_halfOpen_iff.2 ⟨enabled, until_, kept, passed⟩)
      by_cases here : provider = other
      · rw [if_pos here] at count
        left
        show calls { s with outstanding := front ++ back } other = 0
        omega
      · rw [if_neg here, Nat.add_zero] at count
        rw [count] at before
        refine before.imp_right (fun one => ⟨?_, one.2⟩)
        exact List.mem_filter.2 ⟨one.1, decide_eq_true (Ne.symm here)⟩

theorem ProbesHold.step {probed : List String} {s s' : ProbeSite ι} {step : ProbeStep ι}
    (h : s.ProbesHold probed) (valid : s.circuit.policy.validate = .ok ())
    (turn : s.InTurn probed step) (stepped : s.step step = some s') (timely : s'.Timely) :
    s'.ProbesHold (s.probedAfter probed step) := by
  cases step with
  | tick now =>
    obtain ⟨later, ⟨⟩⟩ := Option.ite_none_right_eq_some.1 stepped
    exact h.tick later timely
  | check i provider =>
    unfold ProbeSite.step at stepped
    simp only at stepped
    split at stepped
    · rename_i allowed
      cases stepped
      exact h.check allowed turn
    · rename_i refused
      cases stepped
      have opened : s.circuit.state provider s.now ≠ .halfOpen := by
        intro half
        rw [ProviderCircuit.allowsCall, half] at refused
        exact refused rfl
      rw [probedAfter, if_neg opened]
      exact h
  | finish i provider success => exact h.finish valid stepped timely
  | reset =>
    cases stepped
    have closed : ∀ provider, s.circuit.reset.state provider s.now = .closed := by
      simp [ProviderCircuit.state, ProviderCircuit.reset, OrdMap.get?]
    refine ⟨h.checked, fun call _ opened => ?_, fun provider half => ?_⟩
    · exact absurd ((closed call.provider).symm.trans opened) (by decide)
    · exact absurd ((closed provider).symm.trans half) (by decide)

theorem step_policy {s s' : ProbeSite ι} {step : ProbeStep ι} (stepped : s.step step = some s') :
    s'.circuit.policy = s.circuit.policy := by
  cases step with
  | tick now =>
    obtain ⟨-, ⟨⟩⟩ := Option.ite_none_right_eq_some.1 stepped
    rfl
  | check i other =>
    unfold ProbeSite.step at stepped
    simp only at stepped
    split at stepped <;> cases stepped <;> rfl
  | finish i other success =>
    obtain ⟨-, ⟨⟩⟩ := Option.ite_none_right_eq_some.1 stepped
    exact ProviderCircuit.apply_policy s.circuit (.record other success s.now)
  | reset =>
    cases stepped
    rfl

theorem TimelyRun.start {s : ProbeSite ι} {steps : List (ProbeStep ι)} (h : s.TimelyRun steps) :
    s.Timely := by
  cases steps with
  | nil => exact h
  | cons step rest => exact h.1

theorem ProbesHold.run {probed : List String} {s s' : ProbeSite ι}
    {steps before : List (ProbeStep ι)} (h : s.ProbesHold probed)
    (valid : s.circuit.policy.validate = .ok ()) (timely : s.TimelyRun steps)
    (turns : s.InTurnRun probed steps) (passed : before <+: steps)
    (ran : s.run before = some s') : ∃ probed, s'.ProbesHold probed := by
  induction steps generalizing s before probed with
  | nil =>
    cases List.prefix_nil.1 passed
    cases ran
    exact ⟨probed, h⟩
  | cons step rest ih =>
    cases before with
    | nil =>
      cases ran
      exact ⟨probed, h⟩
    | cons first before =>
      obtain ⟨rfl, tail⟩ := List.cons_prefix_cons.1 passed
      obtain ⟨next, stepped, ran⟩ := Option.bind_eq_some_iff.1 ran
      have rest_timely := timely.2 next stepped
      exact ih (h.step valid turns.1 stepped rest_timely.start)
        (by rw [step_policy stepped, valid]) rest_timely (turns.2 next stepped) tail ran

/-- A provider that was found half open and has no outcome since has its probe under way. -/
theorem probe_waits {probed : List String} {s s' : ProbeSite ι} {step : ProbeStep ι}
    (waits : ∀ provider ∈ probed, 1 ≤ s.calls provider) (stepped : s.step step = some s') :
    ∀ provider ∈ s.probedAfter probed step, 1 ≤ s'.calls provider := by
  intro provider mem
  cases step with
  | tick now =>
    obtain ⟨-, ⟨⟩⟩ := Option.ite_none_right_eq_some.1 stepped
    exact waits provider mem
  | check i other =>
    unfold ProbeSite.step at stepped
    simp only at stepped
    have listed : provider ∈ if s.circuit.state other s.now = .halfOpen then other :: probed
        else probed := mem
    split at stepped
    · cases stepped
      by_cases here : other = provider
      · simp [calls, here]
      · have old : provider ∈ probed := by
          split at listed
          · exact (List.mem_cons.1 listed).resolve_left (Ne.symm here)
          · exact listed
        simpa [calls, here] using waits provider old
    · rename_i refused
      cases stepped
      split at listed
      · rename_i half
        rw [ProviderCircuit.allowsCall, half] at refused
        exact absurd rfl refused
      · exact waits provider listed
  | finish i other success =>
    obtain ⟨front, back, ended, same, around, rfl⟩ := finished_split stepped
    obtain ⟨old, apart⟩ := List.mem_filter.1 mem
    have here : ended.provider ≠ provider := by
      rw [same]
      exact Ne.symm (of_decide_eq_true apart)
    simpa [calls, around, here] using waits provider old
  | reset => exact absurd mem List.not_mem_nil

theorem InTurnRun.of_oneProbe {probed : List String} {s : ProbeSite ι}
    {steps : List (ProbeStep ι)} (waits : ∀ provider ∈ probed, 1 ≤ s.calls provider)
    (one : ∀ before s', before <+: steps → s.run before = some s' → s'.OneProbe) :
    s.InTurnRun probed steps := by
  induction steps generalizing s probed with
  | nil => trivial
  | cons step rest ih =>
    refine ⟨?_, fun next stepped => ih (probe_waits waits stepped) ?_⟩
    · cases step with
      | tick now => trivial
      | check i provider =>
        intro half mem
        have allowed : s.circuit.allowsCall provider s.now = true := by
          rw [ProviderCircuit.allowsCall, half]
          rfl
        have ran : s.run [.check i provider] =
            some { s with outstanding := ⟨i, provider, s.now⟩ :: s.outstanding } := by
          simp only [run, ProbeSite.step, if_pos allowed, Option.bind_some]
        have both := one [.check i provider] _ (List.prefix_append [_] rest) ran provider half
        have first := waits provider mem
        simp only [calls, List.countP_cons, decide_true, if_true] at both first
        omega
      | finish i provider success => trivial
      | reset => trivial
    · intro before s' passed ran
      refine one (step :: before) s' (List.cons_prefix_cons.2 ⟨rfl, passed⟩) ?_
      rw [run, Option.mem_def.1 stepped, Option.bind_some, ran]

end ProbeSite

/-- Over every interleaving of searches and resets in which no call outlasts the cooldown: a half
open provider has at most one call under way in every state passed through exactly when between
two checks that find it half open an outcome is recorded. -/
theorem oneProbe_run {ι : Type} [DecidableEq ι] {s : ProbeSite ι} {steps : List (ProbeStep ι)}
    (valid : s.circuit.policy.validate = .ok ()) (idle : s.outstanding = [])
    (timely : s.TimelyRun steps) :
    (∀ before s', before <+: steps → s.run before = some s' → s'.OneProbe) ↔
      s.InTurnRun [] steps := by
  constructor
  · exact ProbeSite.InTurnRun.of_oneProbe (fun _ mem => absurd mem List.not_mem_nil)
  · intro turns before s' passed ran provider half
    have start : s.ProbesHold [] :=
      ⟨by simp [idle], by simp [idle], fun _ _ => Or.inl (by simp [ProbeSite.calls, idle])⟩
    obtain ⟨probed, holds⟩ := start.run valid timely turns passed ran
    rcases holds.halfOpen provider half with none_yet | ⟨-, one⟩ <;> omega

def cooledSite : ProbeSite (Fin 3) where
  circuit := (ProviderCircuit.new { CircuitPolicy.default with failureThreshold := 1 }).record
    "brave" false 10
  now := 70
  outstanding := []

/-- The first probe fails, and a search in the new cooldown is refused. The second probe succeeds,
two searches call the provider at once, and the failure of one opens the circuit under the
other, which is over when the third probe is made. -/
def probesInTurn : List (ProbeStep (Fin 3)) :=
  [.check 0 "brave", .finish 0 "brave" false, .check 1 "brave", .tick 130, .check 1 "brave",
    .tick 135, .finish 1 "brave" true, .check 0 "brave", .check 1 "brave", .tick 140,
    .finish 0 "brave" false, .tick 150, .finish 1 "brave" true, .check 2 "brave",
    .finish 2 "brave" false, .tick 220, .check 0 "brave"]

def probedInTurn : ProbeSite (Fin 3) := (cooledSite.run probesInTurn).get (by decide)

theorem probedInTurn_oneProbe :
    probedInTurn.OneProbe ∧ probedInTurn.circuit.state "brave" probedInTurn.now = .halfOpen :=
  ⟨(oneProbe_run (s := cooledSite) rfl rfl (by decide)).2 (by decide) probesInTurn _
      (List.prefix_refl probesInTurn) (Option.some_get (by decide)).symm, by decide⟩

/-- Two searches look at the state before either has an outcome. -/
def probesAtOnce : List (ProbeStep (Fin 3)) := [.check 0 "brave", .check 1 "brave"]

def probedAtOnce : ProbeSite (Fin 3) := (cooledSite.run probesAtOnce).get (by decide)

theorem probedAtOnce_twice :
    ¬ ∀ (s s' : ProbeSite (Fin 3)) (steps : List (ProbeStep (Fin 3))),
      s.circuit.policy.validate = .ok () → s.outstanding = [] → s.run steps = some s' →
      s'.OneProbe := by
  intro one
  have probe := one cooledSite probedAtOnce probesAtOnce rfl rfl (Option.some_get _).symm "brave"
    (by decide)
  exact absurd probe (by decide)

/-- A call from before the failure lasts longer than the cooldown, and the probe is made beside
it. -/
example :
    ¬ ((⟨.new { CircuitPolicy.default with failureThreshold := 1 }, 0, []⟩ : ProbeSite (Fin 3)).run
      [.check 0 "brave", .check 1 "brave", .finish 0 "brave" false, .tick 60,
        .check 2 "brave"]).all (fun s => s.calls "brave" ≤ 1) := by
  decide

end Amatl
