import Amatl.ProviderCalls
import Amatl.Deep.Crawl
import Amatl.Lib.Interleaving

/-! The tasks of a round as they run beside each other: the two semaphores in front
of the calls, the deadline over the waiting and the attempts, and the pauses between
attempts. -/

namespace Amatl

open Interleaving

/-- The limits of an orchestrator, as its builder leaves them. -/
structure RoundLimits where
  providerTimeoutMs : UInt64
  globalConcurrency : Nat
  perProviderConcurrency : Nat
  maxRetries : Nat
  retryJitterMs : UInt64
  global_pos : 0 < globalConcurrency
  provider_pos : 0 < perProviderConcurrency
  retries_le : maxRetries ≤ 2

def RoundLimits.new (providerTimeoutMs : UInt64) : RoundLimits where
  providerTimeoutMs := providerTimeoutMs
  globalConcurrency := 4
  perProviderConcurrency := 1
  maxRetries := 1
  retryJitterMs := 25
  global_pos := by omega
  provider_pos := by omega
  retries_le := by omega

def RoundLimits.withExecutionLimits (limits : RoundLimits)
    (globalConcurrency perProviderConcurrency maxRetries : Nat) (retryJitterMs : UInt64) :
    RoundLimits :=
  { limits with
    globalConcurrency := max globalConcurrency 1
    perProviderConcurrency := max perProviderConcurrency 1
    maxRetries := min maxRetries 2
    retryJitterMs := retryJitterMs
    global_pos := by omega
    provider_pos := by omega
    retries_le := by omega }

def rotateLeft5 (n : UInt64) : UInt64 := n <<< 5 ||| n >>> 59

def providerMix (provider : String) : UInt64 :=
  provider.toUTF8.data.toList.foldl (fun state byte => rotateLeft5 state ^^^ byte.toUInt64) 0

/-- `retry_jitter`, with the nanoseconds of the clock and the counter as it reads them. The
source panics at a maximum of `u64::MAX`; a validated configuration has at most 1000. -/
def retryJitter (clock counter : UInt64) (provider : String) (attempt : Nat) (maximumMs : UInt64) :
    UInt64 :=
  if maximumMs = 0 then 0
  else (clock ^^^ providerMix provider ^^^ UInt64.ofNat attempt ^^^ counter) % (maximumMs + 1)

/-- `u64::saturating_mul` and `u64::saturating_add` on the values. -/
def saturated (n : Nat) : UInt64 := UInt64.ofNat (min n (2 ^ 64 - 1))

def backoffMs (delay : UInt64) (attempt : Nat) (jitter : UInt64) : UInt64 :=
  saturated ((saturated (delay.toNat * 2 ^ (attempt - 1))).toNat + jitter.toNat)

/-- How long to pause before another attempt, where the outcome allows one. -/
def retryDelayMs (outcome : CallOutcome) : Option UInt64 :=
  match outcome.result with
  | some (.error error) =>
    if isRecoverable error.kind then some (error.retryAfterMs.getD 50) else none
  | _ => none

inductive TaskStage where
  | spawned
  | queued
  | admitted
  | ready
  | calling (issued timeout : Nat)
  | resting (wakes : Nat)
  | done (outcome : CallOutcome)

/-- An attempt of a task with its times; with no time left no call is made. -/
structure LoggedAttempt where
  attempt : Attempt
  issued : Nat
  timeout : Nat
  settled : Nat

structure RunningTask where
  name : String
  deadline : Nat
  stage : TaskStage
  tried : List LoggedAttempt
  reached : Option Bool

def RunningTask.spawn (name : String) : RunningTask := ⟨name, 0, .spawned, [], none⟩

/-- What comes back from a call, and what the jitter of the pause after it reads. -/
structure CallReply where
  entry : Option ProviderResult
  interrupted : Option Bool
  answer : Option (Except ProviderError ProviderResult)
  clock : UInt64
  counter : UInt64

inductive TaskEvent where
  | start
  | acquireGlobal
  | acquireProvider
  | giveUp
  | attempt
  | settle (reply : CallReply)
  | wake

namespace RunningTask

def holdsGlobal (task : RunningTask) : Bool :=
  match task.stage with
  | .admitted | .ready | .calling _ _ | .resting _ => true
  | .spawned | .queued | .done _ => false

def holdsProvider (task : RunningTask) : Bool :=
  match task.stage with
  | .ready | .calling _ _ | .resting _ => true
  | .spawned | .queued | .admitted | .done _ => false

/-- The task is inside its adapter. -/
def inFlight (task : RunningTask) : Bool :=
  match task.stage with
  | .calling _ timeout => decide (0 < timeout)
  | _ => false

def isDone (task : RunningTask) : Bool :=
  match task.stage with
  | .done _ => true
  | _ => false

/-- What the task is joined with. -/
def call? (task : RunningTask) : Option ProviderCall :=
  match task.stage with
  | .done outcome => some ⟨task.name, outcome⟩
  | _ => none

end RunningTask

/-- What the tasks of a round share. -/
structure RoundSetup where
  limits : RoundLimits
  deadlineMs : UInt64
  caching : String → Bool

namespace RoundSetup

def timeoutMs (setup : RoundSetup) : UInt64 := min setup.limits.providerTimeoutMs setup.deadlineMs

def attemptTimeout (setup : RoundSetup) (now deadline : Nat) : Nat :=
  min (millis setup.timeoutMs) (deadline - now)

def settle (setup : RoundSetup) (now : Nat) (task : RunningTask) (issued timeout : Nat)
    (reply : CallReply) : RunningTask :=
  let attempt : Attempt :=
    { timeLeft := decide (0 < timeout), entry := reply.entry, interrupted := reply.interrupted,
      answer := reply.answer, backoffFits := false }
  let outcome := attempt.search (setup.caching task.name) task.name
  let reached := outcome.reached.or task.reached
  let finished : RunningTask :=
    { task with
      stage := .done ⟨outcome.result, reached⟩
      tried := task.tried ++ [⟨attempt, issued, timeout, now⟩]
      reached := reached }
  match if task.tried.length < setup.limits.maxRetries then retryDelayMs outcome else none with
  | none => finished
  | some delay =>
    let count := task.tried.length + 1
    let jitter := retryJitter reply.clock reply.counter task.name count setup.limits.retryJitterMs
    let wakes := now + millis (backoffMs delay count jitter)
    if task.deadline ≤ wakes then finished
    else
      { task with
        stage := .resting wakes
        tried := task.tried ++ [⟨{ attempt with backoffFits := true }, issued, timeout, now⟩]
        reached := reached }

/-- One poll of a task that gets it further. -/
def taskStep (setup : RoundSetup) (now : Nat) (task : RunningTask) : TaskEvent → Option RunningTask
  | .start =>
    match task.stage with
    | .spawned => some { task with deadline := now + millis setup.deadlineMs, stage := .queued }
    | _ => none
  | .acquireGlobal =>
    match task.stage with
    | .queued => some { task with stage := .admitted }
    | _ => none
  | .acquireProvider =>
    match task.stage with
    | .admitted => some { task with stage := .ready }
    | _ => none
  | .giveUp =>
    let expired : TaskStage := .done
      ⟨some (.error (deadlineExceeded task.name "provider concurrency deadline exceeded")), none⟩
    match task.stage with
    | .queued | .admitted =>
      if task.deadline ≤ now then some { task with stage := expired } else none
    | _ => none
  | .attempt =>
    match task.stage with
    | .ready => some { task with stage := .calling now (setup.attemptTimeout now task.deadline) }
    | _ => none
  | .settle reply =>
    match task.stage with
    | .calling issued timeout =>
      if reply.interrupted.isSome && decide (now < issued + timeout) then none
      else some (setup.settle now task issued timeout reply)
    | _ => none
  | .wake =>
    match task.stage with
    | .resting wakes => if wakes ≤ now then some { task with stage := .ready } else none
    | _ => none

end RoundSetup

/-- A round under way: the clock, the free permits, the tasks and what was joined. -/
structure RoundState where
  clock : Nat
  globalFree : Nat
  providerFree : String → Nat
  tasks : List RunningTask
  joined : List ProviderCall

structure RoundEvent where
  now : Nat
  index : Nat
  event : TaskEvent

namespace RoundSetup

def start (setup : RoundSetup) (selected : List String) : RoundState where
  clock := 0
  globalFree := setup.limits.globalConcurrency
  providerFree := fun _ => setup.limits.perProviderConcurrency
  tasks := selected.map RunningTask.spawn
  joined := []

/-- A task gets further where its permits allow it; what it no longer needs goes back. -/
def advance (setup : RoundSetup) (state : RoundState) (e : RoundEvent) : Option RoundState :=
  if e.now < state.clock then none
  else
    (state.tasks[e.index]?).bind fun task =>
    (setup.taskStep e.now task e.event).bind fun after =>
    (exchange state.globalFree task.holdsGlobal after.holdsGlobal).bind fun globalFree =>
    (exchange (state.providerFree task.name) task.holdsProvider after.holdsProvider).map fun free =>
      { clock := e.now
        globalFree := globalFree
        providerFree := Function.update state.providerFree task.name free
        tasks := state.tasks.set e.index after
        joined := state.joined ++ after.call?.toList }

def run (setup : RoundSetup) (selected : List String) (events : List RoundEvent) : RoundState :=
  Interleaving.run setup.advance (setup.start selected) events

/-! What a step of the round is. -/

theorem advance_cases {setup : RoundSetup} {state state' : RoundState} {e : RoundEvent}
    (h : setup.advance state e = some state') :
    ∃ task after globalFree free, state.clock ≤ e.now ∧ state.tasks[e.index]? = some task ∧
      setup.taskStep e.now task e.event = some after ∧
      exchange state.globalFree task.holdsGlobal after.holdsGlobal = some globalFree ∧
      exchange (state.providerFree task.name) task.holdsProvider after.holdsProvider = some free ∧
      state' = ⟨e.now, globalFree, Function.update state.providerFree task.name free,
        state.tasks.set e.index after, state.joined ++ after.call?.toList⟩ := by
  unfold advance at h
  split at h
  · cases h
  · rename_i later
    obtain ⟨task, there, h⟩ := Option.bind_eq_some_iff.mp h
    obtain ⟨after, step, h⟩ := Option.bind_eq_some_iff.mp h
    obtain ⟨globalFree, global, h⟩ := Option.bind_eq_some_iff.mp h
    obtain ⟨free, provider, h⟩ := Option.map_eq_some_iff.mp h
    exact ⟨task, after, globalFree, free, by omega, there, step, global, provider, h.symm⟩

theorem advance_eq_some {setup : RoundSetup} {state : RoundState} {e : RoundEvent}
    {task after : RunningTask} {globalFree free : Nat} (later : state.clock ≤ e.now)
    (there : state.tasks[e.index]? = some task)
    (step : setup.taskStep e.now task e.event = some after)
    (global : exchange state.globalFree task.holdsGlobal after.holdsGlobal = some globalFree)
    (provider : exchange (state.providerFree task.name) task.holdsProvider after.holdsProvider =
      some free) : (setup.advance state e).isSome = true := by
  simp [advance, show ¬ e.now < state.clock by omega, there, step, global, provider]

end RoundSetup

/-! The pause between two attempts. -/

theorem toNat_saturated (n : Nat) : (saturated n).toNat = min n (2 ^ 64 - 1) := by
  rw [saturated, UInt64.toNat_ofNat', Nat.mod_eq_of_lt (by omega)]

theorem retryJitter_le (clock counter : UInt64) (provider : String) (attempt : Nat)
    (maximumMs : UInt64) :
    (retryJitter clock counter provider attempt maximumMs).toNat ≤ maximumMs.toNat := by
  unfold retryJitter
  split
  · simp
  · rename_i positive
    rw [UInt64.toNat_mod]
    have small := maximumMs.toNat_lt
    by_cases top : maximumMs.toNat = 2 ^ 64 - 1
    · have bound := (clock ^^^ providerMix provider ^^^ UInt64.ofNat attempt ^^^ counter).toNat_lt
      exact (Nat.mod_le _ _).trans (by omega)
    · have next : (maximumMs + 1).toNat = maximumMs.toNat + 1 := by
        rw [UInt64.toNat_add, UInt64.toNat_one, Nat.mod_eq_of_lt (by omega)]
      have below := Nat.mod_lt (clock ^^^ providerMix provider ^^^ UInt64.ofNat attempt ^^^
        counter).toNat (show 0 < (maximumMs + 1).toNat by omega)
      omega

def pauseMs (delay : UInt64) (attempt : Nat) : UInt64 := saturated (delay.toNat * 2 ^ (attempt - 1))

theorem pause_le_backoff (delay : UInt64) (attempt : Nat) (jitter : UInt64) :
    millis (pauseMs delay attempt) ≤ millis (backoffMs delay attempt jitter) := by
  have bound := (pauseMs delay attempt).toNat_lt
  refine Nat.mul_le_mul_right _ ?_
  rw [backoffMs, toNat_saturated]
  change _ ≤ min ((pauseMs delay attempt).toNat + jitter.toNat) _
  omega

theorem backoff_le_pause (delay : UInt64) (attempt : Nat) (jitter : UInt64) :
    millis (backoffMs delay attempt jitter) ≤ millis (pauseMs delay attempt) + millis jitter := by
  have bound : (backoffMs delay attempt jitter).toNat ≤
      (pauseMs delay attempt).toNat + jitter.toNat := by
    rw [backoffMs, toNat_saturated]
    exact Nat.min_le_left ..
  simp only [millis]
  omega

theorem isSome_retryDelayMs (outcome : CallOutcome) :
    (retryDelayMs outcome).isSome = outcome.retryable := by
  unfold retryDelayMs CallOutcome.retryable
  cases outcome.result with
  | none => rfl
  | some result =>
    cases result with
    | ok value => rfl
    | error error => cases h : isRecoverable error.kind <;> simp [h]

/-! What one poll of a task does. -/

def CallReply.attempt (reply : CallReply) (timeout : Nat) (backoffFits : Bool) : Attempt where
  timeLeft := decide (0 < timeout)
  entry := reply.entry
  interrupted := reply.interrupted
  answer := reply.answer
  backoffFits := backoffFits

theorem CallReply.search_attempt (reply : CallReply) (timeout : Nat) (fits : Bool) (caching : Bool)
    (name : String) : (reply.attempt timeout fits).search caching name =
      (reply.attempt timeout false).search caching name := rfl

namespace RoundSetup

variable {setup : RoundSetup} {now clock : Nat} {task after : RunningTask}

/-- The attempt is the last one, or the task pauses for as long as the answer asks. -/
theorem settle_cases (setup : RoundSetup) (now : Nat) (task : RunningTask) (issued timeout : Nat)
    (reply : CallReply) :
    ∃ fits outcome, outcome =
        (reply.attempt timeout fits).search (setup.caching task.name) task.name ∧
      (setup.settle now task issued timeout reply).name = task.name ∧
      (setup.settle now task issued timeout reply).deadline = task.deadline ∧
      (setup.settle now task issued timeout reply).tried =
        task.tried ++ [⟨reply.attempt timeout fits, issued, timeout, now⟩] ∧
      (setup.settle now task issued timeout reply).reached = outcome.reached.or task.reached ∧
      ((fits = false ∧ (setup.settle now task issued timeout reply).stage =
          .done ⟨outcome.result, outcome.reached.or task.reached⟩) ∨
        (fits = true ∧ task.tried.length < setup.limits.maxRetries ∧ ∃ delay wakes,
          (setup.settle now task issued timeout reply).stage = .resting wakes ∧
          retryDelayMs outcome = some delay ∧ wakes < task.deadline ∧
          now + millis (pauseMs delay (task.tried.length + 1)) ≤ wakes ∧
          wakes ≤ now + millis (pauseMs delay (task.tried.length + 1)) +
            millis setup.limits.retryJitterMs)) := by
  have same : ∀ fits, (reply.attempt timeout fits).search (setup.caching task.name) task.name =
      (reply.attempt timeout false).search (setup.caching task.name) task.name :=
    fun fits => reply.search_attempt timeout fits _ _
  unfold settle
  simp only
  split
  · exact ⟨false, _, rfl, rfl, rfl, rfl, rfl, .inl ⟨rfl, rfl⟩⟩
  · rename_i delay asked
    split
    · exact ⟨false, _, rfl, rfl, rfl, rfl, rfl, .inl ⟨rfl, rfl⟩⟩
    · rename_i fits
      have room : task.tried.length < setup.limits.maxRetries := by
        by_contra full
        rw [if_neg full] at asked
        cases asked
      rw [if_pos room] at asked
      have jitter := retryJitter_le reply.clock reply.counter task.name (task.tried.length + 1)
        setup.limits.retryJitterMs
      have least := pause_le_backoff delay (task.tried.length + 1)
        (retryJitter reply.clock reply.counter task.name (task.tried.length + 1)
          setup.limits.retryJitterMs)
      have most := backoff_le_pause delay (task.tried.length + 1)
        (retryJitter reply.clock reply.counter task.name (task.tried.length + 1)
          setup.limits.retryJitterMs)
      refine ⟨true, _, rfl, rfl, rfl, rfl, rfl, .inr ⟨rfl, room, delay, _, rfl, asked, ?_, ?_, ?_⟩⟩
      · omega
      · omega
      · simp only [millis] at jitter most ⊢
        omega

theorem taskStep_cases {event : TaskEvent} (h : setup.taskStep now task event = some after) :
    match event with
    | .start => task.stage = .spawned ∧
        after = { task with deadline := now + millis setup.deadlineMs, stage := .queued }
    | .acquireGlobal => task.stage = .queued ∧ after = { task with stage := .admitted }
    | .acquireProvider => task.stage = .admitted ∧ after = { task with stage := .ready }
    | .giveUp => (task.stage = .queued ∨ task.stage = .admitted) ∧ task.deadline ≤ now ∧
        after = { task with stage := .done ⟨some (.error
          (deadlineExceeded task.name "provider concurrency deadline exceeded")), none⟩ }
    | .attempt => task.stage = .ready ∧
        after = { task with stage := .calling now (setup.attemptTimeout now task.deadline) }
    | .settle reply => ∃ issued timeout, task.stage = .calling issued timeout ∧
        (reply.interrupted.isSome = true → issued + timeout ≤ now) ∧
        after = setup.settle now task issued timeout reply
    | .wake => ∃ wakes, task.stage = .resting wakes ∧ wakes ≤ now ∧
        after = { task with stage := .ready } := by
  cases event with
  | start =>
    cases stage : task.stage with
    | spawned => exact ⟨rfl, by simpa [taskStep, stage] using h.symm⟩
    | _ => simp [taskStep, stage] at h
  | acquireGlobal =>
    cases stage : task.stage with
    | queued => exact ⟨rfl, by simpa [taskStep, stage] using h.symm⟩
    | _ => simp [taskStep, stage] at h
  | acquireProvider =>
    cases stage : task.stage with
    | admitted => exact ⟨rfl, by simpa [taskStep, stage] using h.symm⟩
    | _ => simp [taskStep, stage] at h
  | giveUp =>
    cases stage : task.stage with
    | queued =>
      obtain ⟨late, rfl⟩ : task.deadline ≤ now ∧ _ = after := by simpa [taskStep, stage] using h
      exact ⟨.inl rfl, late, rfl⟩
    | admitted =>
      obtain ⟨late, rfl⟩ : task.deadline ≤ now ∧ _ = after := by simpa [taskStep, stage] using h
      exact ⟨.inr rfl, late, rfl⟩
    | _ => simp [taskStep, stage] at h
  | attempt =>
    cases stage : task.stage with
    | ready => exact ⟨rfl, by simpa [taskStep, stage] using h.symm⟩
    | _ => simp [taskStep, stage] at h
  | wake =>
    cases stage : task.stage with
    | resting wakes =>
      obtain ⟨woken, rfl⟩ : wakes ≤ now ∧ _ = after := by simpa [taskStep, stage] using h
      exact ⟨wakes, rfl, woken, rfl⟩
    | _ => simp [taskStep, stage] at h
  | settle reply =>
    cases stage : task.stage with
    | calling issued timeout =>
      simp only [taskStep, stage] at h
      split at h
      · cases h
      · rename_i allowed
        cases h
        refine ⟨issued, timeout, rfl, fun cut => ?_, rfl⟩
        simpa [cut] using allowed
    | _ => simp [taskStep, stage] at h

/-! Every permit of the round is free or with one task. -/

def namedHolder (name : String) (task : RunningTask) : Bool :=
  task.name == name && task.holdsProvider

def namedInFlight (name : String) (task : RunningTask) : Bool := task.name == name && task.inFlight

theorem taskStep_name {event : TaskEvent} (h : setup.taskStep now task event = some after) :
    after.name = task.name := by
  have step := taskStep_cases h
  cases event with
  | settle reply =>
    obtain ⟨issued, timeout, -, -, rfl⟩ := step
    obtain ⟨fits, outcome, -, name, -⟩ := settle_cases setup now task issued timeout reply
    exact name
  | start | acquireGlobal | acquireProvider | attempt =>
    obtain ⟨-, rfl⟩ := step
    rfl
  | giveUp =>
    obtain ⟨-, -, rfl⟩ := step
    rfl
  | wake =>
    obtain ⟨-, -, -, rfl⟩ := step
    rfl

structure PermitsKept (setup : RoundSetup) (state : RoundState) : Prop where
  global : PoolBalanced RunningTask.holdsGlobal setup.limits.globalConcurrency state.globalFree
    state.tasks
  provider : ∀ name, PoolBalanced (namedHolder name) setup.limits.perProviderConcurrency
    (state.providerFree name) state.tasks

theorem PermitsKept.start (setup : RoundSetup) (selected : List String) :
    PermitsKept setup (setup.start selected) := by
  constructor
  · refine PoolBalanced.start fun task mem => ?_
    obtain ⟨name, -, rfl⟩ := List.mem_map.mp mem
    rfl
  · intro name
    refine PoolBalanced.start fun task mem => ?_
    obtain ⟨other, -, rfl⟩ := List.mem_map.mp mem
    exact Bool.and_false _

theorem PermitsKept.advance {state state' : RoundState} {e : RoundEvent}
    (kept : PermitsKept setup state) (h : setup.advance state e = some state') :
    PermitsKept setup state' := by
  obtain ⟨task, after, globalFree, free, -, there, step, global, provider, rfl⟩ := advance_cases h
  have same := taskStep_name step
  refine ⟨kept.global.exchange there global, fun name => (kept.provider name).exchange there ?_⟩
  by_cases here : task.name = name
  · subst here
    simpa [namedHolder, same] using provider
  · have before : namedHolder name task = false := by simp [namedHolder, here]
    have afterwards : namedHolder name after = false := by simp [namedHolder, same, here]
    simp [before, afterwards, Function.update_of_ne (Ne.symm here)]

theorem permitsKept (setup : RoundSetup) (selected : List String) (events : List RoundEvent) :
    PermitsKept setup (setup.run selected events) :=
  run_keeps (fun _ _ _ kept h => kept.advance h) (PermitsKept.start setup selected) events

theorem inFlight_holds {task : RunningTask} (h : task.inFlight = true) :
    task.holdsGlobal = true ∧ task.holdsProvider = true := by
  cases stage : task.stage <;> simp [RunningTask.inFlight, stage] at h
  exact ⟨by simp [RunningTask.holdsGlobal, stage], by simp [RunningTask.holdsProvider, stage]⟩

theorem PermitsKept.inFlight_le {state : RoundState} (kept : PermitsKept setup state) :
    state.tasks.countP RunningTask.inFlight ≤ setup.limits.globalConcurrency ∧
      ∀ name, state.tasks.countP (namedInFlight name) ≤ setup.limits.perProviderConcurrency := by
  constructor
  · have fewer : state.tasks.countP RunningTask.inFlight ≤
        state.tasks.countP RunningTask.holdsGlobal :=
      List.countP_mono_left fun task _ flying => (inFlight_holds flying).1
    exact fewer.trans kept.global.held_le
  · intro name
    have fewer : state.tasks.countP (namedInFlight name) ≤
        state.tasks.countP (namedHolder name) := by
      refine List.countP_mono_left fun task _ flying => ?_
      simp only [namedInFlight, namedHolder, Bool.and_eq_true] at flying ⊢
      exact ⟨flying.1, (inFlight_holds flying.2).2⟩
    exact fewer.trans (kept.provider name).held_le

end RoundSetup

end Amatl
