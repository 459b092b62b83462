import Amatl.Circuit
import Amatl.SearchRounds

/-! The calls behind the outcomes that the breaker is fed with: the cache in front
of an adapter, the retries of a task, and the searches of a service. -/

namespace Amatl

/-- One pass of the retry loop. -/
structure Attempt where
  /-- The time left for the attempt is not zero. -/
  timeLeft : Bool
  /-- What the cache has for the provider and the plan. -/
  entry : Option ProviderResult
  /-- The attempt ran out of time, before or after the adapter was called. -/
  interrupted : Option Bool
  /-- What the adapter answers; no answer is a panic. -/
  answer : Option (Except ProviderError ProviderResult)
  /-- The next attempt would start before the deadline. -/
  backoffFits : Bool

def deadlineExceeded (name message : String) : ProviderError where
  provider := name
  kind := .timeout
  message := message
  retryAfterMs := none

def isRecoverable : ProviderErrorKind → Bool
  | .timeout | .rateLimit | .network | .unavailable => true
  | .auth | .invalidResponse | .parserError | .quota => false

/-- What a task ends with, and the last outcome at the adapter if it was called. A call
that its timeout cuts is a failure, even where the adapter had answered and the answer
was on its way into the cache. -/
structure CallOutcome where
  result : Option (Except ProviderError ProviderResult)
  reached : Option Bool

/-- `CachedProvider::search` under the timeout of the attempt. -/
def Attempt.search (caching : Bool) (name : String) (attempt : Attempt) : CallOutcome :=
  let expired := some (.error (deadlineExceeded name "provider deadline exceeded"))
  if !attempt.timeLeft then ⟨expired, none⟩
  else match attempt.interrupted with
    | some called => ⟨expired, if called then some false else none⟩
    | none =>
      match if caching then attempt.entry else none with
      | some result => ⟨some (.ok result), none⟩
      | none => ⟨attempt.answer, some (attempt.answer.any Except.isOk)⟩

def CallOutcome.retryable (outcome : CallOutcome) : Bool :=
  match outcome.result with
  | some (.error error) => isRecoverable error.kind
  | _ => false

/-- The attempts of a task, with the retries it has left. -/
def retryLoop (caching : Bool) (name : String) (attempts : Nat → Attempt) : Nat → Nat → CallOutcome
  | 0, attempt => (attempts attempt).search caching name
  | retries + 1, attempt =>
    let outcome := (attempts attempt).search caching name
    if outcome.retryable && (attempts attempt).backoffFits then
      let later := retryLoop caching name attempts retries (attempt + 1)
      ⟨later.result, later.reached.or outcome.reached⟩
    else outcome

/-- What a spawned task meets: whether it gets its permits in time, its attempts,
and when it is done. -/
structure ProviderTask where
  permits : Bool
  attempts : Nat → Attempt
  finished : Nat

structure ProviderCall where
  name : String
  outcome : CallOutcome

def ProviderTask.run (caching : Bool) (maxRetries : Nat) (name : String) (task : ProviderTask) :
    ProviderCall where
  name := name
  outcome :=
    if task.permits then retryLoop caching name task.attempts maxRetries 0
    else ⟨some (.error (deadlineExceeded name "provider concurrency deadline exceeded")), none⟩

def ProviderCall.joined (call : ProviderCall) : Joined :=
  call.outcome.result.map (fun result => (call.name, result))

def ProviderCall.ok (call : ProviderCall) : Bool := call.outcome.result.any Except.isOk

/-- What a round of a search meets. -/
structure RoundWorld where
  elapsedAtStart : UInt64
  elapsedAfter : UInt64
  now : String
  tasks : String → ProviderTask

/-- One orchestrator run. The providers of a plan are those of the search, so that
each of them is found by its name. -/
structure SearchInput where
  setup : SearchSetup
  budget : Budget
  caching : String → Bool
  maxRetries : Nat
  world : Nat → RoundWorld

namespace SearchInput

def calls (input : SearchInput) (round : Nat) (selected : List String) : List ProviderCall :=
  let tasks := (input.world round).tasks
  (StableSort.sortBy (fun a b => compare (tasks a).finished (tasks b).finished) selected).map
    fun name => (tasks name).run (input.caching name) input.maxRetries name

section

variable {Url : Type} [UrlCrate Url] [UnicodeTables] [TimeCrate] [Powf]

def environment (input : SearchInput) (state : SearchState Url) : RoundEnvironment :=
  let world := input.world state.round
  let idle : RoundEnvironment := ⟨world.elapsedAtStart, world.elapsedAfter, world.now, []⟩
  let selected := (input.setup.planRound idle state).plan.selectedProviders
  { idle with joined := (input.calls state.round selected).map ProviderCall.joined }

def roundCalls (input : SearchInput) (state : SearchState Url) : List ProviderCall :=
  input.calls state.round
    (input.setup.planRound (input.environment state) state).plan.selectedProviders

def loop (input : SearchInput) : Nat → SearchState Url → SearchState Url × List ProviderCall
  | 0, state => (state, [])
  | fuel + 1, state =>
    match input.setup.searchRound (input.environment state) state with
    | (after, some _) => (after, input.roundCalls state)
    | (after, none) =>
      let rest := input.loop fuel after
      (rest.1, input.roundCalls state ++ rest.2)

variable (Url) in
def run (input : SearchInput) : SearchState Url × List ProviderCall :=
  input.loop (1 + input.setup.adaptive.orderedProviders.length) (input.setup.start input.budget)

end

end SearchInput

def reachedOutcomes (calls : List ProviderCall) : List (String × Bool) :=
  calls.filterMap (fun call => call.outcome.reached.map (fun ok => (call.name, ok)))

/-- What a response has the breaker record. -/
def responseOutcomes (response : ParallelSearchOutput) : List (String × Bool) :=
  response.providersUsed.map (fun provider => (provider, true)) ++
    response.providersFailed.map (fun provider => (provider, false))

/-- What a service is asked for: a search (an answer starts with one too), or a
Deep run, on a search of its own or on given targets, with its subqueries. -/
inductive ServiceRequest where
  | search (input : SearchInput) (now : Int64)
  | deep (input : Option SearchInput) (now : Int64) (subqueries : List SearchInput)

/-- The breaker, what it was told, and what happened at the adapters. -/
structure BreakerLog where
  circuit : ProviderCircuit
  recorded : List (String × Bool)
  reached : List (String × Bool)

namespace BreakerLog

variable (Url : Type) [UrlCrate Url] [UnicodeTables] [TimeCrate] [Powf]

def recordCircuitOutcomes (log : BreakerLog) (response : ParallelSearchOutput) (now : Int64) :
    BreakerLog :=
  { log with
    circuit := (responseOutcomes response).foldl (fun c e => c.record e.1 e.2 now) log.circuit
    recorded := log.recorded ++ responseOutcomes response }

def searchInner (log : BreakerLog) (input : SearchInput) (now : Int64) : BreakerLog :=
  let (state, calls) := input.run Url
  ({ log with reached := log.reached ++ reachedOutcomes calls }).recordCircuitOutcomes
    state.accumulated now

/-- The subquery executor has an orchestrator of its own and no breaker. -/
def subquery (log : BreakerLog) (input : SearchInput) : BreakerLog :=
  { log with reached := log.reached ++ reachedOutcomes (input.run Url).2 }

def serve (log : BreakerLog) : ServiceRequest → BreakerLog
  | .search input now => log.searchInner Url input now
  | .deep input now subqueries =>
    let log := input.elim log (fun input => log.searchInner Url input now)
    subqueries.foldl (fun log input => log.subquery Url input) log

def serveAll (log : BreakerLog) (requests : List ServiceRequest) : BreakerLog :=
  requests.foldl (fun log request => log.serve Url request) log

end BreakerLog

/-! A task that gets to its adapter ends with what the adapter did. -/

/-- The task gets its permits, its first attempt gets to the adapter, and no attempt
is answered from the cache. -/
def ProviderTask.Direct (caching : Bool) (task : ProviderTask) : Prop :=
  task.permits = true ∧ (task.attempts 0).timeLeft = true ∧
    (task.attempts 0).interrupted ≠ some false ∧
    (caching = true → ∀ attempt, (task.attempts attempt).entry = none)

/-- The result is the last outcome at the adapter, or a failure without one. -/
def CallOutcome.Told (outcome : CallOutcome) : Prop :=
  outcome.reached = some (outcome.result.any Except.isOk) ∨
    outcome.reached = none ∧ outcome.result.any Except.isOk = false

theorem Attempt.search_told {caching : Bool} {attempt : Attempt}
    (missed : caching = true → attempt.entry = none) (name : String) :
    (attempt.search caching name).Told := by
  have none_found : (if caching then attempt.entry else none) = none := by
    cases caching with
    | true => exact missed rfl
    | false => rfl
  unfold Attempt.search
  simp only [none_found]
  split
  · exact .inr ⟨rfl, rfl⟩
  · split
    · rename_i called _
      cases called
      · exact .inr ⟨rfl, rfl⟩
      · exact .inl rfl
    · exact .inl rfl

theorem CallOutcome.not_ok_of_retryable {outcome : CallOutcome} (h : outcome.retryable = true) :
    outcome.result.any Except.isOk = false := by
  unfold CallOutcome.retryable at h
  split at h
  · rename_i error failed
    rw [failed]
    rfl
  · cases h

theorem retryLoop_told {caching : Bool} {attempts : Nat → Attempt}
    (missed : caching = true → ∀ attempt, (attempts attempt).entry = none) (name : String)
    (retries attempt : Nat) : (retryLoop caching name attempts retries attempt).Told := by
  induction retries generalizing attempt with
  | zero => exact Attempt.search_told (fun on => missed on attempt) name
  | succ retries ih =>
    have first : ((attempts attempt).search caching name).Told :=
      Attempt.search_told (fun on => missed on attempt) name
    unfold retryLoop
    simp only
    split
    · rename_i again
      rw [Bool.and_eq_true] at again
      have failed := CallOutcome.not_ok_of_retryable again.1
      rcases ih (attempt + 1) with told | ⟨silent, later⟩
      · exact .inl (by simp only [told, Option.some_or])
      · rcases first with told | ⟨none_yet, -⟩
        · exact .inl (by simp only [silent, Option.none_or, told, failed, later])
        · exact .inr ⟨by simp only [silent, Option.none_or, none_yet], later⟩
    · exact first

theorem retryLoop_reached {caching : Bool} {attempts : Nat → Attempt} {name : String}
    {attempt : Nat} (called : ((attempts attempt).search caching name).reached.isSome = true)
    (retries : Nat) : (retryLoop caching name attempts retries attempt).reached.isSome = true := by
  cases retries with
  | zero => exact called
  | succ retries =>
    unfold retryLoop
    simp only
    split
    · simp only [Option.isSome_or, called, Bool.or_true]
    · exact called

theorem ProviderTask.run_direct {caching : Bool} {task : ProviderTask} (h : task.Direct caching)
    (maxRetries : Nat) (name : String) :
    (task.run caching maxRetries name).outcome.reached =
      some (task.run caching maxRetries name).ok := by
  obtain ⟨permits, timeLeft, called, missed⟩ := h
  have first : ((task.attempts 0).search caching name).reached.isSome = true := by
    have none_found : (if caching then (task.attempts 0).entry else none) = none := by
      cases caching with
      | true => exact missed rfl 0
      | false => rfl
    unfold Attempt.search
    simp only [timeLeft, Bool.not_true, Bool.false_eq_true, if_false, none_found]
    split
    · rename_i reached stopped
      cases reached
      · exact absurd stopped called
      · rfl
    · rfl
  have reached := retryLoop_reached first maxRetries
  simp only [ProviderTask.run, ProviderCall.ok, permits, if_true]
  rcases retryLoop_told missed name maxRetries 0 with told | ⟨silent, -⟩
  · exact told
  · rw [silent] at reached
    cases reached

/-! The names in a response are those of the calls, each under its outcome. -/

/-- The calls are to different providers, and their names are in the lists. -/
structure Fed (used failed : List String) (calls : List ProviderCall) : Prop where
  distinct : (calls.map ProviderCall.name).Nodup
  used : ∀ provider, provider ∈ used ↔ ∃ call ∈ calls, call.name = provider ∧ call.ok = true
  failed : ∀ provider, provider ∈ failed ↔ ∃ call ∈ calls, call.name = provider ∧ call.ok = false

theorem foldl_recordJoined (calls : List ProviderCall) (output : ParallelSearchOutput) :
    let after := (calls.map ProviderCall.joined).foldl recordJoined output
    (∀ provider, provider ∈ after.providersUsed ↔ provider ∈ output.providersUsed ∨
      ∃ call ∈ calls, call.name = provider ∧ call.ok = true) ∧
    ∀ provider, provider ∈ after.providersFailed ↔ provider ∈ output.providersFailed ∨
      ∃ call ∈ calls, call.name = provider ∧ ∃ error, call.outcome.result = some (.error error) := by
  induction calls generalizing output with
  | nil => simp
  | cons call calls ih =>
    obtain ⟨used, failed⟩ := ih (recordJoined output call.joined)
    simp only [List.map_cons, List.foldl_cons]
    constructor
    · intro provider
      rw [used]
      cases result : call.outcome.result with
      | none => simp [ProviderCall.joined, ProviderCall.ok, result, recordJoined]
      | some outcome =>
        cases outcome with
        | error error => simp [ProviderCall.joined, ProviderCall.ok, result, recordJoined,
            Except.isOk, Except.toBool]
        | ok value =>
          simp [ProviderCall.joined, ProviderCall.ok, result, recordJoined, Except.isOk,
            Except.toBool, or_assoc, eq_comm (a := provider)]
    · intro provider
      rw [failed]
      cases result : call.outcome.result with
      | none => simp [ProviderCall.joined, result, recordJoined]
      | some outcome =>
        cases outcome with
        | error error =>
          simp [ProviderCall.joined, result, recordJoined, or_assoc, eq_comm (a := provider)]
        | ok value => simp [ProviderCall.joined, result, recordJoined]

/-- One round: whoever did not answer well is among the failed. -/
theorem executeParallel_fed {plan : SearchPlan} {calls : List ProviderCall}
    (distinct : (calls.map ProviderCall.name).Nodup)
    (names : ∀ provider, provider ∈ plan.selectedProviders ↔
      provider ∈ calls.map ProviderCall.name) :
    Fed (executeParallel plan (calls.map ProviderCall.joined)).providersUsed
      (executeParallel plan (calls.map ProviderCall.joined)).providersFailed calls := by
  obtain ⟨used, failed⟩ := foldl_recordJoined calls .empty
  have inUsed : ∀ provider, provider ∈ ((calls.map ProviderCall.joined).foldl recordJoined
      .empty).providersUsed ↔ ∃ call ∈ calls, call.name = provider ∧ call.ok = true := by
    intro provider
    rw [used]
    simp [ParallelSearchOutput.empty]
  have inFailed : ∀ provider, provider ∈ ((calls.map ProviderCall.joined).foldl recordJoined
      .empty).providersFailed ↔
      ∃ call ∈ calls, call.name = provider ∧ ∃ error, call.outcome.result = some (.error error) := by
    intro provider
    rw [failed]
    simp [ParallelSearchOutput.empty]
  have unique : ∀ a ∈ calls, ∀ b ∈ calls, a.name = b.name → a = b := by
    intro a ha b hb same
    exact List.inj_on_of_nodup_map distinct ha hb same
  refine ⟨distinct, fun provider => ?_, fun provider => ?_⟩
  · simp only [executeParallel, sortNames, StableSort.mem_sortBy, inUsed]
  · simp only [executeParallel, sortNames, StableSort.mem_sortBy, List.mem_append, List.mem_filter,
      OrdMap.mem_setOf, names, inFailed]
    constructor
    · rintro (⟨call, mem, name, error, result⟩ | ⟨selected, missing⟩)
      · exact ⟨call, mem, name, by simp [ProviderCall.ok, result, Except.isOk, Except.toBool]⟩
      · obtain ⟨call, mem, name⟩ := List.mem_map.1 selected
        refine ⟨call, mem, name, ?_⟩
        cases ok : call.ok with
        | false => rfl
        | true =>
          have there := (inUsed provider).2 ⟨call, mem, name, ok⟩
          simp [there] at missing
    · rintro ⟨call, mem, name, notOk⟩
      cases result : call.outcome.result with
      | some outcome =>
        cases outcome with
        | error error => exact .inl ⟨call, mem, name, error, result⟩
        | ok value => simp [ProviderCall.ok, result, Except.isOk, Except.toBool] at notOk
      | none =>
        refine .inr ⟨List.mem_map.2 ⟨call, mem, name⟩, ?_⟩
        have notUsed : provider ∉ ((calls.map ProviderCall.joined).foldl recordJoined
            .empty).providersUsed := by
          rw [inUsed]
          rintro ⟨other, mem', name', ok⟩
          cases unique other mem' call mem (name'.trans name.symm)
          rw [notOk] at ok
          cases ok
        have notFailed : provider ∉ ((calls.map ProviderCall.joined).foldl recordJoined
            .empty).providersFailed := by
          rw [inFailed]
          rintro ⟨other, mem', name', error, failed⟩
          cases unique other mem' call mem (name'.trans name.symm)
          rw [result] at failed
          cases failed
        simp [notUsed, notFailed]

theorem Fed.merge {target source : ParallelSearchOutput} {calls more : List ProviderCall}
    (h : Fed target.providersUsed target.providersFailed calls)
    (h' : Fed source.providersUsed source.providersFailed more)
    (apart : ∀ call ∈ calls, ∀ later ∈ more, call.name ≠ later.name) :
    Fed (mergeParallelOutput target source).providersUsed
      (mergeParallelOutput target source).providersFailed (calls ++ more) := by
  refine ⟨?_, fun provider => ?_, fun provider => ?_⟩
  · rw [List.map_append, List.nodup_append]
    refine ⟨h.distinct, h'.distinct, ?_⟩
    intro a ha b hb
    obtain ⟨call, mem, rfl⟩ := List.mem_map.1 ha
    obtain ⟨later, mem', rfl⟩ := List.mem_map.1 hb
    exact apart call mem later mem'
  · simp only [mergeParallelOutput, mergeNames, OrdMap.mem_setOf, List.mem_append, h.used, h'.used]
    grind
  · simp only [mergeParallelOutput, mergeNames, OrdMap.mem_setOf, List.mem_append, h.failed,
      h'.failed]
    grind

namespace SearchInput

theorem map_name_calls (input : SearchInput) (round : Nat) (selected : List String) :
    ((input.calls round selected).map ProviderCall.name).Perm selected := by
  have names : (input.calls round selected).map ProviderCall.name =
      StableSort.sortBy (fun a b => compare ((input.world round).tasks a).finished
        ((input.world round).tasks b).finished) selected := by
    simp only [calls, List.map_map]
    exact List.map_id _
  rw [names]
  exact StableSort.sortBy_perm _ _

section

variable {Url : Type} [UrlCrate Url] [UnicodeTables] [TimeCrate] [Powf]

/-- What the search has accumulated is about the calls it has made. -/
structure SearchFed (state : SearchState Url) (calls : List ProviderCall) : Prop where
  fed : Fed state.accumulated.providersUsed state.accumulated.providersFailed calls
  attempted : ∀ provider, provider ∈ state.attempted ↔ provider ∈ calls.map ProviderCall.name
  usedOnce : state.accumulated.providersUsed.Nodup
  failedOnce : state.accumulated.providersFailed.Nodup

/-- The next round calls nobody twice and nobody again. -/
def Fresh (state : SearchState Url) : Prop :=
  state.nextSelected.Nodup ∧ ∀ provider ∈ state.nextSelected, provider ∉ state.attempted

theorem searchRound_accumulated (setup : SearchSetup) (environment : RoundEnvironment)
    (state : SearchState Url) :
    (setup.searchRound environment state).1.accumulated =
      if (setup.planRound environment state).plan.selectedProviders.isEmpty then
        state.accumulated
      else mergeParallelOutput state.accumulated
        (executeParallel (setup.planRound environment state).plan environment.joined) := by
  simp only [SearchSetup.searchRound]
  split <;> rfl

theorem SearchFed.searchRound (input : SearchInput) {state : SearchState Url}
    {calls : List ProviderCall} (h : SearchFed state calls) (fresh : Fresh state) :
    SearchFed (input.setup.searchRound (input.environment state) state).1
        (calls ++ input.roundCalls state) ∧
      ((input.setup.searchRound (input.environment state) state).2 = none →
        Fresh (input.setup.searchRound (input.environment state) state).1) := by
  obtain ⟨-, -, -, attempted, -, decision⟩ :=
    input.setup.searchRound_cases (input.environment state) state
  have accumulated := searchRound_accumulated input.setup (input.environment state) state
  have next := input.setup.planRound_selected (input.environment state) state
  have perm := input.map_name_calls state.round
    (input.setup.planRound (input.environment state) state).plan.selectedProviders
  have once : (input.setup.planRound (input.environment state) state).plan.selectedProviders.Nodup :=
    fresh.1.filter _
  have fed : Fed _ _ (input.roundCalls state) :=
    executeParallel_fed (perm.nodup_iff.2 once) (fun provider => perm.mem_iff.symm)
  have apart : ∀ call ∈ calls, ∀ later ∈ input.roundCalls state, call.name ≠ later.name := by
    intro call mem later mem' same
    have selected := perm.mem_iff.1 (List.mem_map.2 ⟨later, mem', rfl⟩)
    refine fresh.2 later.name (next selected) ((h.attempted _).2 ?_)
    exact List.mem_map.2 ⟨call, mem, same⟩
  constructor
  · by_cases nobody :
        (input.setup.planRound (input.environment state) state).plan.selectedProviders = []
    · have none_called : input.roundCalls state = [] := by
        rw [roundCalls, nobody]
        rfl
      rw [if_pos (by simp [nobody])] at accumulated
      rw [none_called, List.append_nil]
      refine ⟨?_, fun provider => ?_, ?_, ?_⟩
      · rw [accumulated]
        exact h.fed
      · rw [attempted, nobody, List.append_nil]
        exact h.attempted provider
      · rw [accumulated]
        exact h.usedOnce
      · rw [accumulated]
        exact h.failedOnce
    · rw [if_neg (by simpa using nobody)] at accumulated
      refine ⟨?_, fun provider => ?_, ?_, ?_⟩
      · rw [accumulated]
        exact h.fed.merge fed apart
      · rw [attempted, List.mem_append, List.map_append, List.mem_append, h.attempted]
        exact or_congr_right perm.mem_iff.symm
      · rw [accumulated]
        exact OrdMap.nodup_setOf _
      · rw [accumulated]
        exact OrdMap.nodup_setOf _
  · intro goes_on
    rcases decision with ⟨reason, stops, -⟩ | ⟨choice, -, selected, mem, -⟩
    · rw [stops] at goes_on
      cases goes_on
    · refine ⟨by rw [selected]; exact List.nodup_singleton _, fun provider chosen => ?_⟩
      rw [selected, List.mem_singleton] at chosen
      subst chosen
      simpa [SearchSetup.unattempted] using (List.mem_filter.1 mem).2

theorem SearchFed.loop (input : SearchInput) (fuel : Nat) {state : SearchState Url}
    {calls : List ProviderCall} (h : SearchFed state calls) (fresh : Fresh state) :
    SearchFed (input.loop fuel state).1 (calls ++ (input.loop fuel state).2) := by
  induction fuel generalizing state calls with
  | zero => simpa [SearchInput.loop] using h
  | succ fuel ih =>
    obtain ⟨fed, goes_on⟩ := h.searchRound input fresh
    unfold SearchInput.loop
    split
    · rename_i after reason ended
      rw [ended] at fed
      exact fed
    · rename_i after more
      rw [more] at fed goes_on
      have rest := ih fed (goes_on rfl)
      rw [List.append_assoc] at rest
      exact rest

theorem run_fed (input : SearchInput) (once : input.setup.adaptive.firstRoundProviders.Nodup) :
    SearchFed (input.run Url).1 (input.run Url).2 := by
  have start : SearchFed (input.setup.start input.budget : SearchState Url) [] :=
    ⟨⟨List.nodup_nil, by simp [SearchSetup.start, ParallelSearchOutput.empty],
      by simp [SearchSetup.start, ParallelSearchOutput.empty]⟩, by simp [SearchSetup.start],
      List.nodup_nil, List.nodup_nil⟩
  have fresh : Fresh (input.setup.start input.budget : SearchState Url) :=
    ⟨once, by simp [SearchSetup.start]⟩
  exact start.loop input _ fresh

end

/-- The first round calls no provider twice, and every call gets to its adapter. -/
def Direct (input : SearchInput) : Prop :=
  input.setup.adaptive.firstRoundProviders.Nodup ∧
    ∀ round name, ((input.world round).tasks name).Direct (input.caching name)

end SearchInput

/-- The task gets no permits, or its first attempt is answered from the cache. -/
def ProviderTask.Spared (caching : Bool) (task : ProviderTask) : Prop :=
  task.permits = false ∨ (task.attempts 0).timeLeft = true ∧
    (task.attempts 0).interrupted = none ∧ caching = true ∧
    (task.attempts 0).entry.isSome = true

theorem ProviderTask.run_spared {caching : Bool} {task : ProviderTask} (h : task.Spared caching)
    (maxRetries : Nat) (name : String) :
    (task.run caching maxRetries name).outcome.reached = none := by
  rcases h with refused | ⟨timeLeft, inTime, on, found⟩
  · simp [ProviderTask.run, refused]
  · obtain ⟨result, entry⟩ := Option.isSome_iff_exists.1 found
    have first : (task.attempts 0).search caching name = ⟨some (.ok result), none⟩ := by
      simp [Attempt.search, timeLeft, inTime, on, entry]
    cases permits : task.permits with
    | false => simp [ProviderTask.run, permits]
    | true =>
      cases maxRetries with
      | zero => simp [ProviderTask.run, permits, retryLoop, first]
      | succ retries =>
        simp [ProviderTask.run, permits, retryLoop, first, CallOutcome.retryable]

theorem filter_tagged {names : List String} (once : names.Nodup) (tag : Bool) (name : String) :
    (names.map (fun n => (n, tag))).filter (fun e => e.1 = name) =
      if name ∈ names then [(name, tag)] else [] := by
  induction names with
  | nil => rfl
  | cons first names ih =>
    obtain ⟨fresh, rest⟩ := List.nodup_cons.1 once
    by_cases here : first = name
    · subst here
      simp [ih rest, fresh]
    · simp [ih rest, here, eq_comm (a := name)]

theorem filter_named {calls : List ProviderCall} (once : (calls.map ProviderCall.name).Nodup)
    {call : ProviderCall} (mem : call ∈ calls) :
    (calls.map (fun call => (call.name, call.ok))).filter (fun e => e.1 = call.name) =
      [(call.name, call.ok)] := by
  induction calls with
  | nil => cases mem
  | cons first calls ih =>
    obtain ⟨fresh, rest⟩ := List.nodup_cons.1 once
    rcases List.mem_cons.1 mem with rfl | later
    · have others : (calls.map (fun call => (call.name, call.ok))).filter
          (fun e => e.1 = call.name) = [] := by
        rw [List.filter_eq_nil_iff]
        intro entry there
        obtain ⟨other, mem', rfl⟩ := List.mem_map.1 there
        simpa using fun same => fresh (List.mem_map.2 ⟨other, mem', same⟩)
      simp [others]
    · have apart : first.name ≠ call.name := fun same =>
        fresh (List.mem_map.2 ⟨call, later, same.symm⟩)
      simpa [apart] using ih rest later

section Feed

variable {Url : Type} [UrlCrate Url] [UnicodeTables] [TimeCrate] [Powf]

namespace SearchInput

/-- Every call of a search is the task of its name in some round. -/
theorem mem_loop {input : SearchInput} (fuel : Nat) {state : SearchState Url} {call : ProviderCall}
    (mem : call ∈ (input.loop fuel state).2) :
    ∃ round name, call = ((input.world round).tasks name).run (input.caching name)
      input.maxRetries name := by
  have inRound : ∀ state : SearchState Url, call ∈ input.roundCalls state →
      ∃ round name, call = ((input.world round).tasks name).run (input.caching name)
        input.maxRetries name := by
    intro state mem
    obtain ⟨name, -, rfl⟩ := List.mem_map.1 mem
    exact ⟨state.round, name, rfl⟩
  induction fuel generalizing state with
  | zero => cases mem
  | succ fuel ih =>
    unfold SearchInput.loop at mem
    split at mem
    · exact inRound state mem
    · rcases List.mem_append.1 mem with here | later
      · exact inRound state here
      · exact ih later

theorem reached_of_direct {input : SearchInput} (h : input.Direct) {call : ProviderCall}
    (mem : call ∈ (input.run Url).2) : call.outcome.reached = some call.ok := by
  obtain ⟨round, name, rfl⟩ := mem_loop _ mem
  exact ProviderTask.run_direct (h.2 round name) _ _

/-- A search records of each provider what its adapter did. -/
theorem outcomes_of_direct {input : SearchInput} (h : input.Direct) (provider : String) :
    (responseOutcomes (input.run Url).1.accumulated).filter (fun e => e.1 = provider) =
      (reachedOutcomes (input.run Url).2).filter (fun e => e.1 = provider) := by
  have searched : SearchFed (input.run Url).1 (input.run Url).2 := input.run_fed h.1
  have reached : reachedOutcomes (input.run Url).2 =
      (input.run Url).2.map (fun call => (call.name, call.ok)) := by
    rw [reachedOutcomes, ← List.filterMap_eq_map]
    refine List.filterMap_congr fun call mem => ?_
    rw [reached_of_direct h mem, Option.map_some, Function.comp_apply]
  rw [reached, responseOutcomes, List.filter_append, filter_tagged searched.usedOnce,
    filter_tagged searched.failedOnce]
  by_cases called : ∃ call ∈ (input.run Url).2, call.name = provider
  · obtain ⟨call, mem, rfl⟩ := called
    rw [filter_named searched.fed.distinct mem]
    have only : ∀ other ∈ (input.run Url).2, other.name = call.name → other = call :=
      fun other mem' same => List.inj_on_of_nodup_map searched.fed.distinct mem' mem same
    cases ok : call.ok with
    | true =>
      have used := (searched.fed.used call.name).2 ⟨call, mem, rfl, ok⟩
      have notFailed : call.name ∉ (input.run Url).1.accumulated.providersFailed := by
        rw [searched.fed.failed]
        rintro ⟨other, mem', same, notOk⟩
        rw [only other mem' same, ok] at notOk
        cases notOk
      rw [if_pos used, if_neg notFailed, List.append_nil]
    | false =>
      have failed := (searched.fed.failed call.name).2 ⟨call, mem, rfl, ok⟩
      have notUsed : call.name ∉ (input.run Url).1.accumulated.providersUsed := by
        rw [searched.fed.used]
        rintro ⟨other, mem', same, isOk⟩
        rw [only other mem' same, ok] at isOk
        cases isOk
      rw [if_neg notUsed, if_pos failed, List.nil_append]
  · have notUsed : provider ∉ (input.run Url).1.accumulated.providersUsed := by
      rw [searched.fed.used]
      exact fun ⟨call, mem, name, _⟩ => called ⟨call, mem, name⟩
    have notFailed : provider ∉ (input.run Url).1.accumulated.providersFailed := by
      rw [searched.fed.failed]
      exact fun ⟨call, mem, name, _⟩ => called ⟨call, mem, name⟩
    rw [if_neg notUsed, if_neg notFailed, List.append_nil, eq_comm, List.filter_eq_nil_iff]
    intro entry there
    obtain ⟨call, mem, rfl⟩ := List.mem_map.1 there
    simpa using fun name => called ⟨call, mem, name⟩

/-- The calls of a subquery that are spared leave no trace at the adapters. -/
theorem reached_of_spared {input : SearchInput}
    (h : ∀ round name, ((input.world round).tasks name).Spared (input.caching name)) :
    reachedOutcomes (input.run Url).2 = [] := by
  refine List.filterMap_eq_nil_iff.2 fun call mem => ?_
  obtain ⟨round, name, rfl⟩ := mem_loop _ mem
  rw [ProviderTask.run_spared (h round name), Option.map_none]

end SearchInput

/-- The searches get to their adapters and the subqueries do not. -/
def ServiceRequest.Direct : ServiceRequest → Prop
  | .search input _ => input.Direct
  | .deep input _ subqueries => (∀ search ∈ input, SearchInput.Direct search) ∧
      ∀ subquery ∈ subqueries, ∀ round name,
        ((subquery.world round).tasks name).Spared (subquery.caching name)

namespace BreakerLog

/-- What one request adds to the log. -/
def Extends (log after : BreakerLog) (recorded reached : List (String × Bool)) : Prop :=
  after.recorded = log.recorded ++ recorded ∧ after.reached = log.reached ++ reached ∧
    ∃ now, after.circuit = recorded.foldl (fun c e => c.record e.1 e.2 now) log.circuit

variable (Url) in
theorem extends_searchInner (log : BreakerLog) (input : SearchInput) (now : Int64) :
    log.Extends (log.searchInner Url input now)
      (responseOutcomes (input.run Url).1.accumulated) (reachedOutcomes (input.run Url).2) :=
  ⟨rfl, rfl, now, rfl⟩

theorem foldl_subquery {subqueries : List SearchInput}
    (h : ∀ subquery ∈ subqueries, ∀ round name,
      ((subquery.world round).tasks name).Spared (subquery.caching name)) (log : BreakerLog) :
    subqueries.foldl (fun log input => log.subquery Url input) log = log := by
  induction subqueries with
  | nil => rfl
  | cons subquery rest ih =>
    obtain ⟨here, later⟩ := List.forall_mem_cons.1 h
    have same : log.subquery Url subquery = log := by
      simp [BreakerLog.subquery, SearchInput.reached_of_spared here]
    rw [List.foldl_cons, same, ih later]

variable (Url) in
/-- A request adds to both sides the same outcomes of each provider. -/
theorem serve_direct {request : ServiceRequest} (h : request.Direct) (log : BreakerLog) :
    ∃ recorded reached, log.Extends (log.serve Url request) recorded reached ∧
      ∀ provider, recorded.filter (fun e => e.1 = provider) =
        reached.filter (fun e => e.1 = provider) := by
  cases request with
  | search input now =>
    exact ⟨_, _, extends_searchInner Url log input now, SearchInput.outcomes_of_direct h⟩
  | deep input now subqueries =>
    cases input with
    | none =>
      refine ⟨[], [], ?_, fun _ => rfl⟩
      rw [serve, foldl_subquery h.2]
      exact ⟨(List.append_nil _).symm, (List.append_nil _).symm, now, rfl⟩
    | some input =>
      have step := extends_searchInner Url log input now
      rw [serve, foldl_subquery h.2]
      exact ⟨_, _, step, SearchInput.outcomes_of_direct (h.1 input rfl)⟩

end BreakerLog

/-- Over every sequence of searches and Deep runs whose searches all get to their
adapters and whose subqueries do not: the breaker is told of each provider, in
order, the last outcomes of the calls at its adapter, and a circuit is closed only
by a request with such a success. -/
theorem recorded_eq_reached {log : BreakerLog} (recorded : log.recorded = [])
    (reached : log.reached = []) {requests : List ServiceRequest}
    (direct : ∀ request ∈ requests, request.Direct) :
    (∀ provider, (log.serveAll Url requests).recorded.filter (fun e => e.1 = provider) =
      (log.serveAll Url requests).reached.filter (fun e => e.1 = provider)) ∧
    ∀ before request later, requests = before ++ request :: later → ∀ provider t,
      (log.serveAll Url before).circuit.state provider t ≠ .closed →
      (log.serveAll Url (before ++ [request])).circuit.state provider t = .closed →
      ∃ outcomes, (log.serveAll Url (before ++ [request])).reached =
        (log.serveAll Url before).reached ++ outcomes ∧ (provider, true) ∈ outcomes := by
  constructor
  · intro provider
    have start : log.recorded.filter (fun e => e.1 = provider) =
        log.reached.filter (fun e => e.1 = provider) := by rw [recorded, reached]
    clear recorded reached
    induction requests generalizing log with
    | nil => exact start
    | cons request requests ih =>
      obtain ⟨here, later⟩ := List.forall_mem_cons.1 direct
      obtain ⟨told, done, ⟨eq, eq', -⟩, same⟩ := BreakerLog.serve_direct Url here log
      refine ih later ?_
      rw [eq, eq', List.filter_append, List.filter_append, start, same provider]
  · rintro before request later rfl provider t notClosed closed
    have here := direct request (by simp)
    have last : log.serveAll Url (before ++ [request]) =
        (log.serveAll Url before).serve Url request := by
      simp [BreakerLog.serveAll]
    rw [last] at closed ⊢
    obtain ⟨told, done, ⟨-, eq, now, circuit⟩, same⟩ :=
      BreakerLog.serve_direct Url here (log.serveAll Url before)
    refine ⟨done, eq, ?_⟩
    have success : (provider, true) ∈ told := by
      by_contra failures
      rw [circuit] at closed
      exact ProviderCircuit.state_foldl_record told now _ t notClosed failures closed
    have kept : (provider, true) ∈ done.filter (fun e => e.1 = provider) := by
      rw [← same provider]
      exact List.mem_filter.2 ⟨success, by simp⟩
    exact (List.mem_filter.1 kept).1

end Feed

def braveSearch (attempt : Attempt) : SearchInput where
  setup := searchSetup (plainQuery "lean") .general [webProvider "brave"]
    (fun _ _ => untriedProvider) .default .legacy .default .default none (fun _ => false)
  budget := .new 1 10000
  caching := fun _ => false
  maxRetries := 1
  world := fun _ => ⟨0, 0, "", fun _ => ⟨true, fun _ => attempt, 0⟩⟩

def refusedAttempt : Attempt where
  timeLeft := true
  entry := none
  interrupted := none
  answer := some (.error ⟨"brave", .auth, "unauthorized", none⟩)
  backoffFits := true

def answeredAttempt : Attempt :=
  { refusedAttempt with answer := some (.ok ⟨"brave", .success, [], [], [], [], []⟩) }

theorem braveSearch_direct {attempt : Attempt} (time : attempt.timeLeft = true)
    (uninterrupted : attempt.interrupted = none) :
    letI := asciiTables
    letI := noDates
    letI := integerPowers
    (braveSearch attempt).Direct := by
  let _ := asciiTables
  let _ := noDates
  let _ := integerPowers
  have once : (braveSearch refusedAttempt).setup.adaptive.firstRoundProviders.Nodup := by
    decide +kernel
  refine ⟨once, fun round name => ⟨rfl, time, ?_, fun on => by cases on⟩⟩
  change attempt.interrupted ≠ some false
  simp [uninterrupted]

/-- A gap subquery whose calls get no permits. -/
def heldSubquery : SearchInput :=
  { braveSearch answeredAttempt with
    world := fun _ => ⟨0, 0, "", fun _ => ⟨false, fun _ => answeredAttempt, 0⟩⟩ }

def freshLog : BreakerLog := ⟨.new { CircuitPolicy.default with failureThreshold := 2 }, [], []⟩

/-- Two refusals open the circuit, and the search of a Deep run closes it. -/
theorem refused_recorded :
    letI := asciiTables
    letI := noDates
    letI := integerPowers
    let refused := [ServiceRequest.search (braveSearch refusedAttempt) 10,
      .search (braveSearch refusedAttempt) 20]
    let answered := ServiceRequest.deep (some (braveSearch answeredAttempt)) 1000 [heldSubquery]
    let before := freshLog.serveAll PlainUrl refused
    let after := freshLog.serveAll PlainUrl (refused ++ [answered])
    (after.recorded.filter (fun e => e.1 = "brave") =
        after.reached.filter (fun e => e.1 = "brave") ∧
      ∃ outcomes, after.reached = before.reached ++ outcomes ∧ ("brave", true) ∈ outcomes) ∧
    before.circuit.state "brave" 21 = .opened ∧ before.circuit.state "brave" 1000 = .halfOpen ∧
      after.recorded = [("brave", false), ("brave", false), ("brave", true)] := by
  let _ := asciiTables
  let _ := noDates
  let _ := integerPowers
  intro refused answered before after
  have direct : ∀ request ∈ refused ++ [answered], request.Direct := by
    intro request mem
    simp only [refused, List.cons_append, List.nil_append, List.mem_cons, List.not_mem_nil,
      or_false] at mem
    rcases mem with rfl | rfl | rfl
    · exact braveSearch_direct rfl rfl
    · exact braveSearch_direct rfl rfl
    · refine ⟨fun search searches => ?_, fun subquery mem round name => ?_⟩
      · cases searches
        exact braveSearch_direct rfl rfl
      · cases List.mem_singleton.mp mem
        exact .inl rfl
  have told : (∀ provider, after.recorded.filter (fun e => e.1 = provider) =
      after.reached.filter (fun e => e.1 = provider)) ∧ _ :=
    recorded_eq_reached rfl rfl direct
  exact ⟨⟨told.1 "brave", told.2 refused answered [] rfl "brave" 1000 (by decide +kernel)
    (by decide +kernel)⟩, by decide +kernel, by decide +kernel, by decide +kernel⟩

def cachedAttempt : Attempt :=
  { refusedAttempt with entry := some ⟨"brave", .success, [], [], [], [], []⟩ }

theorem cached_recorded :
    letI := asciiTables
    letI := noDates
    letI := integerPowers
    ¬ ∀ (log : BreakerLog) (requests : List ServiceRequest) (provider : String),
      log.recorded = [] → log.reached = [] →
      (log.serveAll PlainUrl requests).recorded.filter (fun e => e.1 = provider) =
        (log.serveAll PlainUrl requests).reached.filter (fun e => e.1 = provider) := by
  let _ := asciiTables
  let _ := noDates
  let _ := integerPowers
  intro same
  have told := same freshLog
    [.search { braveSearch cachedAttempt with caching := fun _ => true } 10] "brave" rfl rfl
  exact absurd told (by decide +kernel)

end Amatl
