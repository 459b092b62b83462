import Amatl.RoundSchedule

/-! What holds of every task of a round in every order of polls: its attempts keep
within the deadline and apart from each other, and it ends as the retry loop would
have it on what it met. -/

namespace Amatl

open Interleaving

def idleAttempt : Attempt := ⟨false, none, none, none, false⟩

def attemptAt (tried : List LoggedAttempt) (n : Nat) : Attempt :=
  (tried[n]?.map (fun logged => logged.attempt)).getD idleAttempt

/-- The task of the sequential model that meets what this one has met. -/
def RunningTask.summary (task : RunningTask) (finished : Nat) : ProviderTask where
  permits := !task.tried.isEmpty
  attempts := attemptAt task.tried
  finished := finished

/-- The end of the shortest pause after the attempts so far. -/
def earliest (caching : Bool) (name : String) (tried : List LoggedAttempt) : Nat :=
  match tried.getLast? with
  | none => 0
  | some last =>
    last.settled +
      millis (pauseMs ((retryDelayMs (last.attempt.search caching name)).getD 0) tried.length)

/-- No attempt comes before the pause after the one before it is over. -/
def Spaced (caching : Bool) (name : String) (tried : List LoggedAttempt) : Prop :=
  ∀ front logged back, tried = front ++ logged :: back → earliest caching name front ≤ logged.issued

/-- The retry loop, taken up after the attempts so far. -/
def Resumes (caching : Bool) (name : String) (maxRetries : Nat) (task : RunningTask) : Prop :=
  ∀ attempts : Nat → Attempt,
    (∀ n logged, task.tried[n]? = some logged → attempts n = logged.attempt) →
    retryLoop caching name attempts maxRetries 0 =
      let later := retryLoop caching name attempts (maxRetries - task.tried.length)
        task.tried.length
      ⟨later.result, later.reached.or task.reached⟩

theorem earliest_append (caching : Bool) (name : String) (tried : List LoggedAttempt)
    (logged : LoggedAttempt) : earliest caching name (tried ++ [logged]) = logged.settled +
      millis (pauseMs ((retryDelayMs (logged.attempt.search caching name)).getD 0)
        (tried.length + 1)) := by
  simp [earliest]

theorem Spaced.nil (caching : Bool) (name : String) : Spaced caching name [] := by
  intro front logged back eq
  simp at eq

theorem Spaced.append {caching : Bool} {name : String} {tried : List LoggedAttempt}
    {logged : LoggedAttempt} (spaced : Spaced caching name tried)
    (later : earliest caching name tried ≤ logged.issued) :
    Spaced caching name (tried ++ [logged]) := by
  intro front other back eq
  rcases List.eq_nil_or_concat back with rfl | ⟨back, last, rfl⟩
  · obtain ⟨rfl, same⟩ := List.append_inj' eq rfl
    cases same
    exact later
  · rw [List.concat_eq_append, ← List.cons_append, ← List.append_assoc] at eq
    obtain ⟨rfl, -⟩ := List.append_inj' eq rfl
    exact spaced front other back rfl

theorem Resumes.start {caching : Bool} {name : String} {maxRetries : Nat} {task : RunningTask}
    (untried : task.tried = []) (unreached : task.reached = none) :
    Resumes caching name maxRetries task := by
  intro attempts _
  simp [untried, unreached]

/-- An attempt that is to be repeated brings the loop to its next pass. -/
theorem Resumes.again {caching : Bool} {name : String} {maxRetries : Nat}
    {task after : RunningTask} {logged : LoggedAttempt} (resumes : Resumes caching name maxRetries task)
    (room : task.tried.length < maxRetries) (tried : after.tried = task.tried ++ [logged])
    (reached : after.reached = (logged.attempt.search caching name).reached.or task.reached)
    (retryable : (logged.attempt.search caching name).retryable = true)
    (fits : logged.attempt.backoffFits = true) : Resumes caching name maxRetries after := by
  intro attempts met
  have before : ∀ n other, task.tried[n]? = some other → attempts n = other.attempt := by
    intro n other there
    refine met n other ?_
    have lt : n < task.tried.length := (List.getElem?_eq_some_iff.mp there).1
    rwa [tried, List.getElem?_append_left lt]
  have last : attempts task.tried.length = logged.attempt := met _ _ (by simp [tried])
  obtain ⟨left, eq⟩ : ∃ left, maxRetries - task.tried.length = left + 1 :=
    ⟨maxRetries - task.tried.length - 1, by omega⟩
  have next : maxRetries - after.tried.length = left := by
    rw [tried, List.length_append, List.length_singleton]
    omega
  have length : after.tried.length = task.tried.length + 1 := by simp [tried]
  rw [resumes attempts before, eq, next, length]
  simp only [retryLoop, last, retryable, fits, Bool.and_self, if_true, reached, Option.or_assoc]

/-- An attempt that is not to be repeated ends the loop. -/
theorem Resumes.ends {caching : Bool} {name : String} {maxRetries : Nat} {task : RunningTask}
    (resumes : Resumes caching name maxRetries task) (logged : LoggedAttempt)
    (fits : logged.attempt.backoffFits = false) :
    retryLoop caching name (attemptAt (task.tried ++ [logged])) maxRetries 0 =
      ⟨(logged.attempt.search caching name).result,
        (logged.attempt.search caching name).reached.or task.reached⟩ := by
  have before : ∀ n other, task.tried[n]? = some other →
      attemptAt (task.tried ++ [logged]) n = other.attempt := by
    intro n other there
    have lt : n < task.tried.length := (List.getElem?_eq_some_iff.mp there).1
    simp [attemptAt, List.getElem?_append_left lt, there]
  have last : attemptAt (task.tried ++ [logged]) task.tried.length = logged.attempt := by
    simp [attemptAt]
  rw [resumes _ before]
  cases maxRetries - task.tried.length with
  | zero => simp only [retryLoop, last]
  | succ left => simp [retryLoop, last, fits]

namespace RoundSetup

variable {setup : RoundSetup} {now clock : Nat} {task after : RunningTask}

/-- The time given to an attempt is the task's own and no more than a provider's. -/
def Allotted (setup : RoundSetup) (deadline issued timeout : Nat) : Prop :=
  timeout ≤ millis setup.timeoutMs ∧ (0 < timeout → issued + timeout ≤ deadline)

def StageSound (setup : RoundSetup) (clock : Nat) (task : RunningTask) : Prop :=
  let caching := setup.caching task.name
  let free := earliest caching task.name task.tried
  match task.stage with
  | .spawned | .queued | .admitted => task.tried = [] ∧ task.reached = none
  | .ready => task.tried.length ≤ setup.limits.maxRetries ∧ free ≤ clock ∧
      Resumes caching task.name setup.limits.maxRetries task
  | .calling issued timeout => task.tried.length ≤ setup.limits.maxRetries ∧ free ≤ issued ∧
      issued ≤ clock ∧ setup.Allotted task.deadline issued timeout ∧
      Resumes caching task.name setup.limits.maxRetries task
  | .resting wakes => task.tried.length ≤ setup.limits.maxRetries ∧ free ≤ wakes ∧
      wakes ≤ free + millis setup.limits.retryJitterMs ∧ wakes < task.deadline ∧
      Resumes caching task.name setup.limits.maxRetries task
  | .done outcome => task.tried.length ≤ setup.limits.maxRetries + 1 ∧ ∀ finished,
      (task.summary finished).run caching setup.limits.maxRetries task.name = ⟨task.name, outcome⟩

structure Sound (setup : RoundSetup) (clock : Nat) (task : RunningTask) : Prop where
  allotted : ∀ logged ∈ task.tried, setup.Allotted task.deadline logged.issued logged.timeout
  spaced : Spaced (setup.caching task.name) task.name task.tried
  stage : setup.StageSound clock task

theorem Sound.spawn (setup : RoundSetup) (clock : Nat) (name : String) :
    setup.Sound clock (.spawn name) where
  allotted := by
    intro logged mem
    cases mem
  spaced := Spaced.nil _ _
  stage := ⟨rfl, rfl⟩

theorem Sound.later (sound : setup.Sound clock task) (later : clock ≤ now) :
    setup.Sound now task := by
  refine ⟨sound.allotted, sound.spaced, ?_⟩
  have stage := sound.stage
  unfold StageSound at stage ⊢
  cases h : task.stage with
  | ready =>
    simp only [h] at stage ⊢
    exact ⟨stage.1, stage.2.1.trans later, stage.2.2⟩
  | calling issued timeout =>
    simp only [h] at stage ⊢
    exact ⟨stage.1, stage.2.1, stage.2.2.1.trans later, stage.2.2.2⟩
  | _ => simpa only [h] using stage

theorem allotted_attemptTimeout (setup : RoundSetup) (now deadline : Nat) :
    setup.Allotted deadline now (setup.attemptTimeout now deadline) := by
  unfold Allotted attemptTimeout
  omega

theorem Sound.settle {issued timeout : Nat} {reply : CallReply} (sound : setup.Sound clock task)
    (calling : task.stage = .calling issued timeout) :
    setup.Sound now (setup.settle now task issued timeout reply) := by
  have stage := sound.stage
  simp only [StageSound, calling] at stage
  obtain ⟨room, free, -, allotted, resumes⟩ := stage
  obtain ⟨fits, outcome, made, name, deadline, tried, reached, ending⟩ :=
    settle_cases setup now task issued timeout reply
  refine ⟨?_, ?_, ?_⟩
  · intro logged mem
    rw [tried, List.mem_append, List.mem_singleton] at mem
    rw [deadline]
    rcases mem with earlier | rfl
    · exact sound.allotted logged earlier
    · exact allotted
  · rw [name, tried]
    exact sound.spaced.append free
  · rcases ending with ⟨last, done⟩ | ⟨again, left, delay, wakes, resting, asked, before, least, most⟩
    · simp only [StageSound, done, name, tried, List.length_append, List.length_singleton]
      refine ⟨by omega, fun finished => ?_⟩
      have loop := resumes.ends ⟨reply.attempt timeout fits, issued, timeout, now⟩ last
      simp [ProviderTask.run, RunningTask.summary, tried, loop, ← made]
    · have retryable : outcome.retryable = true := by
        rw [← isSome_retryDelayMs, asked, Option.isSome_some]
      simp only [StageSound, resting, name, tried, deadline, List.length_append,
        List.length_singleton, earliest_append, ← made, asked, Option.getD_some]
      exact ⟨left, least, most, before, resumes.again left tried (by rw [reached, ← made])
        (by rw [← made, retryable]) again⟩

theorem Sound.step {event : TaskEvent} (sound : setup.Sound clock task) (later : clock ≤ now)
    (h : setup.taskStep now task event = some after) : setup.Sound now after := by
  have step := taskStep_cases h
  have present := sound.later later
  have stage := present.stage
  cases event with
  | start =>
    obtain ⟨spawned, rfl⟩ := step
    simp only [StageSound, spawned] at stage
    refine ⟨?_, present.spaced, stage⟩
    intro logged mem
    simp [stage.1] at mem
  | acquireGlobal =>
    obtain ⟨queued, rfl⟩ := step
    simp only [StageSound, queued] at stage
    exact ⟨present.allotted, present.spaced, stage⟩
  | acquireProvider =>
    obtain ⟨admitted, rfl⟩ := step
    simp only [StageSound, admitted] at stage
    refine ⟨present.allotted, present.spaced, ?_⟩
    simp only [StageSound]
    exact ⟨by simp [stage.1], by simp [stage.1, earliest], Resumes.start stage.1 stage.2⟩
  | giveUp =>
    obtain ⟨waiting, -, rfl⟩ := step
    have untried : task.tried = [] := by
      rcases waiting with queued | admitted
      · simp only [StageSound, queued] at stage
        exact stage.1
      · simp only [StageSound, admitted] at stage
        exact stage.1
    refine ⟨present.allotted, present.spaced, ?_⟩
    simp [StageSound, untried, ProviderTask.run, RunningTask.summary]
  | attempt =>
    obtain ⟨ready, rfl⟩ := step
    simp only [StageSound, ready] at stage
    refine ⟨present.allotted, present.spaced, ?_⟩
    exact ⟨stage.1, stage.2.1, Nat.le_refl now, allotted_attemptTimeout setup now task.deadline,
      stage.2.2⟩
  | settle reply =>
    obtain ⟨issued, timeout, calling, -, rfl⟩ := step
    exact sound.settle calling
  | wake =>
    obtain ⟨wakes, resting, woken, rfl⟩ := step
    simp only [StageSound, resting] at stage
    refine ⟨present.allotted, present.spaced, ?_⟩
    exact ⟨stage.1, stage.2.1.trans woken, stage.2.2.2.2⟩

/-- What holds of a round under way: its tasks are those selected, each of them is
sound, and those that are done have been joined. -/
structure RoundSound (setup : RoundSetup) (selected : List String) (state : RoundState) : Prop where
  names : state.tasks.map RunningTask.name = selected
  sound : ∀ task ∈ state.tasks, setup.Sound state.clock task
  joined : state.joined.Perm (state.tasks.filterMap RunningTask.call?)

theorem RoundSound.start (setup : RoundSetup) (selected : List String) :
    RoundSound setup selected (setup.start selected) := by
  refine ⟨?_, ?_, ?_⟩
  · have spawned : RunningTask.name ∘ RunningTask.spawn = id := rfl
    rw [RoundSetup.start, List.map_map, spawned, List.map_id]
  · intro task mem
    obtain ⟨name, -, rfl⟩ := List.mem_map.mp mem
    exact Sound.spawn setup 0 name
  · have none_done : (selected.map RunningTask.spawn).filterMap RunningTask.call? = [] := by
      refine List.filterMap_eq_nil_iff.mpr fun task mem => ?_
      obtain ⟨name, -, rfl⟩ := List.mem_map.mp mem
      rfl
    simp only [RoundSetup.start, none_done, List.Perm.refl]

/-- Nothing is left to do for a task that was joined. -/
theorem call?_of_step {event : TaskEvent} (h : setup.taskStep now task event = some after) :
    task.call? = none := by
  have step := taskStep_cases h
  cases event with
  | start | acquireGlobal | acquireProvider | attempt => simp [RunningTask.call?, step.1]
  | giveUp => rcases step.1 with stage | stage <;> simp [RunningTask.call?, stage]
  | settle reply =>
    obtain ⟨issued, timeout, stage, -⟩ := step
    simp [RunningTask.call?, stage]
  | wake =>
    obtain ⟨wakes, stage, -⟩ := step
    simp [RunningTask.call?, stage]

theorem RoundSound.advance {selected : List String} {state state' : RoundState} {e : RoundEvent}
    (sound : RoundSound setup selected state) (h : setup.advance state e = some state') :
    RoundSound setup selected state' := by
  obtain ⟨task, after, globalFree, free, later, there, step, -, -, rfl⟩ := advance_cases h
  have member : task ∈ state.tasks := List.mem_of_getElem? there
  refine ⟨?_, ?_, ?_⟩
  · rw [map_set_same there (taskStep_name step), sound.names]
  · exact forall_set (fun other mem => (sound.sound other mem).later later)
      ((sound.sound task member).step later step)
  · have shown := filterMap_set_perm after there (call?_of_step step)
    exact (sound.joined.append_right _).trans shown.symm

theorem roundSound (setup : RoundSetup) (selected : List String) (events : List RoundEvent) :
    RoundSound setup selected (setup.run selected events) :=
  run_keeps (fun _ _ _ sound h => sound.advance h) (RoundSound.start setup selected) events

theorem Sound.tried_le (sound : setup.Sound clock task) :
    task.tried.length ≤ setup.limits.maxRetries + 1 := by
  have stage := sound.stage
  unfold StageSound at stage
  cases h : task.stage with
  | spawned | queued | admitted =>
    simp only [h] at stage
    simp [stage.1]
  | ready | calling issued timeout | resting wakes =>
    simp only [h] at stage
    omega
  | done outcome =>
    simp only [h] at stage
    exact stage.1

/-- In every order of polls: the permits are free or held, no more calls are in
flight than the limits allow, and every call of a task keeps within its timeout and
its deadline, is one of so many, and comes after the pause that the answer before
it asked for. -/
theorem calls_within_limits (setup : RoundSetup) (selected : List String)
    (events : List RoundEvent) :
    let state := setup.run selected events
    (state.globalFree + state.tasks.countP RunningTask.holdsGlobal =
        setup.limits.globalConcurrency ∧
      ∀ name, state.providerFree name + state.tasks.countP (namedHolder name) =
        setup.limits.perProviderConcurrency) ∧
    (state.tasks.countP RunningTask.inFlight ≤ setup.limits.globalConcurrency ∧
      ∀ name, state.tasks.countP (namedInFlight name) ≤ setup.limits.perProviderConcurrency) ∧
    ∀ task ∈ state.tasks,
      task.tried.length ≤ setup.limits.maxRetries + 1 ∧
      Spaced (setup.caching task.name) task.name task.tried ∧
      (∀ logged ∈ task.tried, setup.Allotted task.deadline logged.issued logged.timeout) ∧
      ∀ issued timeout, task.stage = .calling issued timeout →
        setup.Allotted task.deadline issued timeout ∧
        earliest (setup.caching task.name) task.name task.tried ≤ issued := by
  have permits := permitsKept setup selected events
  refine ⟨⟨permits.global, permits.provider⟩, permits.inFlight_le, fun task mem => ?_⟩
  have sound := (roundSound setup selected events).sound task mem
  refine ⟨sound.tried_le, sound.spaced, sound.allotted, fun issued timeout calling => ?_⟩
  have stage := sound.stage
  simp only [StageSound, calling] at stage
  exact ⟨stage.2.2.2.1, stage.2.1⟩

end RoundSetup

/-! A finished round is one of those that the search ranges over. -/

namespace RoundState

/-- The tasks of the sequential model, done in the order of the joins. -/
def world (state : RoundState) (name : String) : ProviderTask :=
  let finished := (state.joined.map ProviderCall.name).idxOf name
  match state.tasks.find? (fun task => task.name == name) with
  | some task => task.summary finished
  | none => ⟨false, fun _ => idleAttempt, finished⟩

theorem finished_world (state : RoundState) (name : String) :
    (state.world name).finished = (state.joined.map ProviderCall.name).idxOf name := by
  unfold world
  cases state.tasks.find? (fun task => task.name == name) <;> rfl

end RoundState

theorem pairwise_idxOf {names : List String} (distinct : names.Nodup) :
    names.Pairwise (fun a b => names.idxOf a ≤ names.idxOf b) := by
  refine List.pairwise_iff_getElem.mpr fun i j hi hj before => ?_
  rw [distinct.idxOf_getElem, distinct.idxOf_getElem]
  omega

namespace RoundSetup

variable {setup : RoundSetup}

theorem joined_names {selected : List String} {state : RoundState}
    (sound : RoundSound setup selected state)
    (finished : ∀ task ∈ state.tasks, task.isDone = true) :
    (state.joined.map ProviderCall.name).Perm selected := by
  have all : ∀ tasks : List RunningTask, (∀ task ∈ tasks, task.isDone = true) →
      (tasks.filterMap RunningTask.call?).map ProviderCall.name = tasks.map RunningTask.name := by
    intro tasks done
    induction tasks with
    | nil => rfl
    | cons task tasks ih =>
      obtain ⟨here, later⟩ := List.forall_mem_cons.mp done
      cases stage : task.stage <;> simp [RunningTask.isDone, stage] at here
      simp [RunningTask.call?, stage, ih later]
  rw [← sound.names, ← all state.tasks finished]
  exact sound.joined.map _

theorem world_run {selected : List String} {state : RoundState}
    (sound : RoundSound setup selected state) (distinct : selected.Nodup) {call : ProviderCall}
    (mem : call ∈ state.joined) :
    (state.world call.name).run (setup.caching call.name) setup.limits.maxRetries call.name =
      call := by
  obtain ⟨task, there, shown⟩ := List.mem_filterMap.mp (sound.joined.mem_iff.mp mem)
  cases stage : task.stage <;> simp [RunningTask.call?, stage] at shown
  subst shown
  have found : state.tasks.find? (fun other => other.name == task.name) = some task := by
    have nodup : (state.tasks.map RunningTask.name).Nodup := sound.names ▸ distinct
    refine List.find?_eq_some_iff_getElem.mpr ⟨by simp, ?_⟩
    obtain ⟨i, lt, rfl⟩ := List.getElem_of_mem there
    refine ⟨i, lt, rfl, fun j before => ?_⟩
    have apart := List.pairwise_iff_getElem.mp nodup j i (by simp; omega) (by simpa) before
    simpa using apart
  have ends := (sound.sound task there).stage
  simp only [StageSound, stage] at ends
  simp only [RoundState.world, found]
  exact ends.2 _

/-- Every finished round joins, in some order, what the sequential tasks of a search
end with: the interleaved round refines the round of the search. -/
theorem joined_refines (setup : RoundSetup) {selected : List String} (distinct : selected.Nodup)
    (events : List RoundEvent)
    (finished : ∀ task ∈ (setup.run selected events).tasks, task.isDone = true)
    {input : SearchInput} {round : Nat}
    (tasks : (input.world round).tasks = (setup.run selected events).world)
    (caching : input.caching = setup.caching)
    (retries : input.maxRetries = setup.limits.maxRetries) :
    (setup.run selected events).joined = input.calls round selected := by
  have sound := roundSound setup selected events
  generalize setup.run selected events = state at *
  have names := joined_names sound finished
  have nodup : (state.joined.map ProviderCall.name).Nodup := names.nodup_iff.mpr distinct
  have byFinished : Std.TransCmp
      (fun a b => compare (state.world a).finished (state.world b).finished) :=
    inferInstanceAs (Std.TransCmp (compareOn (fun name => (state.world name).finished)))
  have sorted : StableSort.sortBy
      (fun a b => compare (state.world a).finished (state.world b).finished) selected =
      state.joined.map ProviderCall.name := by
    refine StableSort.sortBy_eq_of_sorted names.symm ?_ ?_
    · refine (pairwise_idxOf nodup).imp fun {a b} le => ?_
      simpa [StableSort.Below, RoundState.finished_world, Nat.isLE_compare] using le
    · intro a ina b _ same
      simp only [RoundState.finished_world, Nat.compare_eq_eq] at same
      exact (List.idxOf_inj ina).mp same
  rw [SearchInput.calls, tasks, sorted, List.map_map]
  refine (List.map_id _).symm.trans (List.map_congr_left fun call mem => ?_)
  simp only [caching, retries]
  exact (world_run sound distinct mem).symm

end RoundSetup

def pairRound : RoundSetup :=
  ⟨(RoundLimits.new 3000).withExecutionLimits 2 1 1 0, 8000, fun _ => false⟩

def lostReply : CallReply :=
  ⟨none, none, some (.error ⟨"brave", .network, "connection reset", none⟩), 0, 0⟩

def emptyReply (name : String) : CallReply :=
  ⟨none, none, some (.ok ⟨name, .success, [], [], [], [], []⟩), 0, 0⟩

/-- The first provider loses its connection, the second answers in the pause, and the first is
asked again. -/
def pairEvents : List RoundEvent :=
  [⟨0, 0, .start⟩, ⟨0, 1, .start⟩, ⟨0, 0, .acquireGlobal⟩, ⟨0, 1, .acquireGlobal⟩,
    ⟨0, 0, .acquireProvider⟩, ⟨0, 0, .attempt⟩, ⟨1000000, 1, .acquireProvider⟩,
    ⟨1000000, 1, .attempt⟩, ⟨5000000, 0, .settle lostReply⟩,
    ⟨9000000, 1, .settle (emptyReply "wiki")⟩, ⟨60000000, 0, .wake⟩, ⟨60000000, 0, .attempt⟩,
    ⟨70000000, 0, .settle (emptyReply "brave")⟩]

def pairSearch : SearchInput :=
  { braveSearch refusedAttempt with
    world := fun _ => ⟨0, 0, "", (pairRound.run ["brave", "wiki"] pairEvents).world⟩ }

theorem interleaved_refines :
    (pairRound.run ["brave", "wiki"] pairEvents).joined =
        pairSearch.calls 0 ["brave", "wiki"] ∧
      (pairRound.run ["brave", "wiki"] pairEvents).joined.map ProviderCall.name =
        ["wiki", "brave"] ∧
      (pairRound.run ["brave", "wiki"] pairEvents).tasks.map (fun task => task.tried.length) =
        [2, 1] := by
  refine ⟨RoundSetup.joined_refines pairRound (by decide) pairEvents ?_ rfl rfl rfl,
    by decide +kernel, by decide +kernel⟩
  decide +kernel

end Amatl
