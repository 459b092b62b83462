import Amatl.RoundSafety

/-! No round gets stuck: as long as a task is not done some task can go on, and every
step uses up some of what the tasks can do at all. -/

namespace Amatl

open Interleaving

namespace RoundSetup

variable {setup : RoundSetup} {now clock : Nat} {task after : RunningTask}

/-- The steps that a task can still take. -/
def stepsLeft (setup : RoundSetup) (task : RunningTask) : Nat :=
  let attempts := setup.limits.maxRetries + 1
  match task.stage with
  | .spawned => 3 * attempts + 3
  | .queued => 3 * attempts + 2
  | .admitted => 3 * attempts + 1
  | .ready => 3 * (attempts - task.tried.length)
  | .calling _ _ => 3 * (attempts - task.tried.length) - 1
  | .resting _ => 3 * (attempts - task.tried.length) + 1
  | .done _ => 0

def roundStepsLeft (setup : RoundSetup) (state : RoundState) : Nat :=
  (state.tasks.map setup.stepsLeft).sum

theorem stepsLeft_settle {issued timeout : Nat} {reply : CallReply}
    (room : task.tried.length ≤ setup.limits.maxRetries)
    (calling : task.stage = .calling issued timeout) :
    setup.stepsLeft (setup.settle now task issued timeout reply) < setup.stepsLeft task := by
  obtain ⟨fits, outcome, -, -, -, tried, -, ending⟩ :=
    settle_cases setup now task issued timeout reply
  rcases ending with ⟨-, done⟩ | ⟨-, left, delay, wakes, resting, -⟩
  · simp only [stepsLeft, done, calling]
    omega
  · simp only [stepsLeft, resting, calling, tried, List.length_append, List.length_singleton]
    omega

theorem stepsLeft_lt {event : TaskEvent} (sound : setup.Sound clock task)
    (h : setup.taskStep now task event = some after) :
    setup.stepsLeft after < setup.stepsLeft task := by
  have step := taskStep_cases h
  have stage := sound.stage
  cases event with
  | start =>
    obtain ⟨spawned, rfl⟩ := step
    simp [stepsLeft, spawned]
  | acquireGlobal =>
    obtain ⟨queued, rfl⟩ := step
    simp [stepsLeft, queued]
  | acquireProvider =>
    obtain ⟨admitted, rfl⟩ := step
    simp only [stepsLeft, admitted]
    omega
  | giveUp =>
    obtain ⟨waiting, -, rfl⟩ := step
    rcases waiting with queued | admitted
    · simp [stepsLeft, queued]
    · simp [stepsLeft, admitted]
  | attempt =>
    obtain ⟨ready, rfl⟩ := step
    simp only [StageSound, ready] at stage
    simp only [stepsLeft, ready]
    omega
  | settle reply =>
    obtain ⟨issued, timeout, calling, -, rfl⟩ := step
    simp only [StageSound, calling] at stage
    exact stepsLeft_settle stage.1 calling
  | wake =>
    obtain ⟨wakes, resting, -, rfl⟩ := step
    simp [stepsLeft, resting]

theorem roundStepsLeft_lt {selected : List String} {state state' : RoundState} {e : RoundEvent}
    (sound : RoundSound setup selected state) (h : setup.advance state e = some state') :
    setup.roundStepsLeft state' < setup.roundStepsLeft state := by
  obtain ⟨task, after, globalFree, free, -, there, step, -, -, rfl⟩ := advance_cases h
  have lower := stepsLeft_lt (sound.sound task (List.mem_of_getElem? there)) step
  have total := sum_set setup.stepsLeft after there
  simp only [roundStepsLeft]
  omega

theorem roundStepsLeft_start (setup : RoundSetup) (selected : List String) :
    setup.roundStepsLeft (setup.start selected) =
      selected.length * (3 * setup.limits.maxRetries + 6) := by
  have each : setup.stepsLeft ∘ RunningTask.spawn =
      fun _ => 3 * setup.limits.maxRetries + 6 := by
    funext name
    simp only [Function.comp_apply, stepsLeft, RunningTask.spawn]
    omega
  rw [roundStepsLeft, RoundSetup.start, List.map_map, each, List.map_const',
    List.sum_replicate_nat]

/-! Who can go on. -/

/-- When the call or the pause of a task is over at the latest. -/
def due (task : RunningTask) : Option Nat :=
  match task.stage with
  | .calling issued timeout => some (issued + timeout)
  | .resting wakes => some wakes
  | _ => none

/-- The task can take a step that is not to give up. -/
def GoesOn (setup : RoundSetup) (state : RoundState) (now index : Nat) : Prop :=
  ∃ event, event ≠ TaskEvent.giveUp ∧ (setup.advance state ⟨now, index, event⟩).isSome = true

variable {state : RoundState} {index : Nat}

theorem goesOn_of_step (event : TaskEvent) (later : state.clock ≤ now)
    (there : state.tasks[index]? = some task) (other : event ≠ .giveUp)
    (step : setup.taskStep now task event = some after)
    (global : after.holdsGlobal = true → task.holdsGlobal = true ∨ 0 < state.globalFree)
    (provider : after.holdsProvider = true →
      task.holdsProvider = true ∨ 0 < state.providerFree task.name) :
    setup.GoesOn state now index := by
  obtain ⟨globalFree, hglobal⟩ := exchange_isSome global
  obtain ⟨free, hprovider⟩ := exchange_isSome provider
  exact ⟨event, other, advance_eq_some later there step hglobal hprovider⟩

theorem goesOn_of_due {ends : Nat} (later : state.clock ≤ now)
    (there : state.tasks[index]? = some task) (waits : due task = some ends) (reached : ends ≤ now) :
    setup.GoesOn state now index := by
  cases stage : task.stage with
  | calling issued timeout =>
    simp only [due, stage, Option.some.injEq] at waits
    have step : setup.taskStep now task (.settle ⟨none, some true, none, 0, 0⟩) =
        some (setup.settle now task issued timeout ⟨none, some true, none, 0, 0⟩) := by
      simp [taskStep, stage, show ¬ now < issued + timeout by omega]
    refine goesOn_of_step (.settle _) later there (by simp) step (fun _ => .inl ?_)
      (fun _ => .inl ?_)
    · simp [RunningTask.holdsGlobal, stage]
    · simp [RunningTask.holdsProvider, stage]
  | resting wakes =>
    simp only [due, stage, Option.some.injEq] at waits
    have step : setup.taskStep now task .wake = some { task with stage := .ready } := by
      simp [taskStep, stage, show wakes ≤ now by omega]
    refine goesOn_of_step .wake later there (by simp) step (fun _ => .inl ?_)
      (fun _ => .inl ?_)
    · simp [RunningTask.holdsGlobal, stage]
    · simp [RunningTask.holdsProvider, stage]
  | _ => simp [due, stage] at waits

/-- The task is before its calls and no semaphore is in its way. -/
def Free (state : RoundState) (task : RunningTask) : Prop :=
  task.stage = .spawned ∨ task.stage = .ready ∨ (task.stage = .queued ∧ 0 < state.globalFree) ∨
    (task.stage = .admitted ∧ 0 < state.providerFree task.name)

theorem goesOn_of_free (there : state.tasks[index]? = some task) (free : Free state task) :
    setup.GoesOn state state.clock index := by
  rcases free with spawned | ready | ⟨queued, free⟩ | ⟨admitted, free⟩
  · refine goesOn_of_step .start (Nat.le_refl _) there (by simp)
      (by simp only [taskStep, spawned]; rfl) ?_ ?_
    · simp [RunningTask.holdsGlobal]
    · simp [RunningTask.holdsProvider]
  · refine goesOn_of_step .attempt (Nat.le_refl _) there (by simp)
      (by simp only [taskStep, ready]; rfl) (fun _ => .inl ?_) (fun _ => .inl ?_)
    · simp [RunningTask.holdsGlobal, ready]
    · simp [RunningTask.holdsProvider, ready]
  · refine goesOn_of_step .acquireGlobal (Nat.le_refl _) there (by simp)
      (by simp only [taskStep, queued]; rfl) (fun _ => .inr free) ?_
    simp [RunningTask.holdsProvider]
  · refine goesOn_of_step .acquireProvider (Nat.le_refl _) there (by simp)
      (by simp only [taskStep, admitted]; rfl) (fun _ => .inl ?_) (fun _ => .inr free)
    simp [RunningTask.holdsGlobal, admitted]

/-- Whoever holds a provider's permit is at a call, before it or in the pause after it. -/
theorem due_or_free_of_holds (state : RoundState) (holds : task.holdsProvider = true) :
    due task ≠ none ∨ Free state task := by
  cases stage : task.stage <;> simp_all [RunningTask.holdsProvider, due, Free]

/-- A task that has its global permit waits for nobody who waits. -/
theorem due_or_free_of_admitted (permits : PermitsKept setup state) (mem : task ∈ state.tasks)
    (admitted : task.stage = .admitted) :
    ∃ other ∈ state.tasks, due other ≠ none ∨ Free state other := by
  by_cases free : state.providerFree task.name = 0
  · obtain ⟨holder, there, holds⟩ :=
      (permits.provider task.name).holder setup.limits.provider_pos free
    simp only [namedHolder, Bool.and_eq_true] at holds
    exact ⟨holder, there, due_or_free_of_holds state holds.2⟩
  · exact ⟨task, mem, .inr (.inr (.inr (.inr ⟨admitted, by omega⟩)))⟩

theorem due_or_free (permits : PermitsKept setup state) (mem : task ∈ state.tasks)
    (unfinished : task.isDone = false) :
    ∃ other ∈ state.tasks, due other ≠ none ∨ Free state other := by
  cases stage : task.stage with
  | spawned => exact ⟨task, mem, .inr (.inl stage)⟩
  | ready => exact ⟨task, mem, .inr (.inr (.inl stage))⟩
  | calling issued timeout => exact ⟨task, mem, .inl (by simp [due, stage])⟩
  | resting wakes => exact ⟨task, mem, .inl (by simp [due, stage])⟩
  | done outcome => simp [RunningTask.isDone, stage] at unfinished
  | admitted => exact due_or_free_of_admitted permits mem stage
  | queued =>
    by_cases free : state.globalFree = 0
    · obtain ⟨holder, there, holds⟩ := permits.global.holder setup.limits.global_pos free
      by_cases waiting : holder.stage = .admitted
      · exact due_or_free_of_admitted permits there waiting
      · have provided : holder.holdsProvider = true := by
          cases other : holder.stage <;>
            simp_all [RunningTask.holdsGlobal, RunningTask.holdsProvider]
        exact ⟨holder, there, due_or_free_of_holds state provided⟩
    · exact ⟨task, mem, .inr (.inr (.inr (.inl ⟨stage, by omega⟩)))⟩

/-- A call or a pause is over by the deadline of its task, or is over now. -/
theorem due_le {ends : Nat} (sound : setup.Sound clock task) (waits : due task = some ends) :
    ends ≤ max clock task.deadline := by
  have stage := sound.stage
  cases h : task.stage with
  | calling issued timeout =>
    simp only [due, h, Option.some.injEq] at waits
    simp only [StageSound, h, Allotted] at stage
    omega
  | resting wakes =>
    simp only [due, h, Option.some.injEq] at waits
    simp only [StageSound, h] at stage
    omega
  | _ => simp [due, h] at waits

/-- As long as a task is not done, some task goes on: now, or when its call or pause is
over, which is by its deadline. -/
theorem goesOn {selected : List String} (sound : RoundSound setup selected state)
    (permits : PermitsKept setup state) (mem : task ∈ state.tasks)
    (unfinished : task.isDone = false) :
    ∃ (index : Nat) (other : RunningTask) (moment : Nat), state.tasks[index]? = some other ∧
      state.clock ≤ moment ∧ moment ≤ max state.clock other.deadline ∧
      (moment = state.clock ∨ due other = some moment) ∧ setup.GoesOn state moment index := by
  obtain ⟨other, there, busy | free⟩ := due_or_free permits mem unfinished
  · obtain ⟨index, place⟩ := List.mem_iff_getElem?.mp there
    obtain ⟨ends, waits⟩ := Option.ne_none_iff_exists'.mp busy
    have bound := due_le (sound.sound other there) waits
    have later := Nat.le_max_left state.clock ends
    refine ⟨index, other, max state.clock ends, place, later, by omega, ?_,
      goesOn_of_due later place waits (Nat.le_max_right ..)⟩
    by_cases past : ends ≤ state.clock
    · exact .inl (Nat.max_eq_left past)
    · rw [Nat.max_eq_right (by omega)]
      exact .inr waits
  · obtain ⟨index, place⟩ := List.mem_iff_getElem?.mp there
    exact ⟨index, other, state.clock, place, Nat.le_refl _, Nat.le_max_left .., .inl rfl,
      goesOn_of_free place free⟩

/-- The steps that end a round, none of which gives up on a permit. -/
theorem exists_ending {selected : List String} (sound : RoundSound setup selected state)
    (permits : PermitsKept setup state) :
    ∃ more : List RoundEvent, (∀ e ∈ more, e.event ≠ .giveUp) ∧
      ∀ task ∈ (Interleaving.run setup.advance state more).tasks, task.isDone = true := by
  induction left : setup.roundStepsLeft state using Nat.strong_induction_on generalizing state with
  | _ left ih =>
    by_cases finished : ∀ task ∈ state.tasks, task.isDone = true
    · exact ⟨[], List.forall_mem_nil _, finished⟩
    · push Not at finished
      obtain ⟨task, mem, unfinished⟩ := finished
      obtain ⟨index, -, moment, -, -, -, -, event, other, allowed⟩ :=
        goesOn sound permits mem (by simpa using unfinished)
      obtain ⟨next, step⟩ := Option.isSome_iff_exists.mp allowed
      have fewer := roundStepsLeft_lt sound step
      obtain ⟨more, polite, ends⟩ := ih _ (left ▸ fewer) (sound.advance step)
        (permits.advance step) rfl
      refine ⟨⟨moment, index, event⟩ :: more, List.forall_mem_cons.mpr ⟨other, polite⟩, ?_⟩
      simpa only [Interleaving.run, step, Option.getD_some] using ends

/-- In every order of polls a round takes no more steps than its providers and retries
allow, and it is never stuck on its permits: some task can go on by its deadline, and the
round can be brought to its end without a task giving up on a permit. -/
theorem round_never_stuck (setup : RoundSetup) (selected : List String)
    (events : List RoundEvent) :
    let state := setup.run selected events
    Interleaving.taken setup.advance (setup.start selected) events + setup.roundStepsLeft state ≤
        selected.length * (3 * setup.limits.maxRetries + 6) ∧
      (∀ task ∈ state.tasks, task.isDone = false →
        ∃ (index : Nat) (other : RunningTask) (moment : Nat), state.tasks[index]? = some other ∧
          state.clock ≤ moment ∧ moment ≤ max state.clock other.deadline ∧
          (moment = state.clock ∨ due other = some moment) ∧
          setup.GoesOn state moment index) ∧
      ∃ more, (∀ e ∈ more, e.event ≠ .giveUp) ∧
        ∀ task ∈ (setup.run selected (events ++ more)).tasks, task.isDone = true := by
  have sound := roundSound setup selected events
  have permits := permitsKept setup selected events
  refine ⟨?_, fun task mem unfinished => goesOn sound permits mem unfinished, ?_⟩
  · rw [← roundStepsLeft_start]
    exact taken_le (P := RoundSound setup selected) (fun _ _ _ sound h => sound.advance h)
      (fun _ _ _ sound h => roundStepsLeft_lt sound h) (RoundSound.start setup selected) events
  · obtain ⟨more, polite, ends⟩ := exists_ending sound permits
    refine ⟨more, polite, ?_⟩
    rw [RoundSetup.run, run_append]
    exact ends

end RoundSetup

end Amatl
