import Amatl.Pipeline
import Amatl.Router

/-! The progressive search loop. A round reserves its providers, runs them, puts
everything accumulated through the pipeline and decides whether another
provider is worth a call. Provider outcomes and clock readings come from the
environment, round by round. -/

namespace Amatl

structure Budget where
  maxProviderCalls : UInt32
  remainingProviderCalls : UInt32
  deadlineMs : UInt64
  deriving DecidableEq, Repr

def Budget.new (maxProviderCalls : UInt32) (deadlineMs : UInt64) : Budget :=
  ⟨maxProviderCalls, maxProviderCalls, deadlineMs⟩

def Budget.reserveProvider (budget : Budget) : Except BudgetExhaustionCause Budget :=
  if budget.remainingProviderCalls = 0 then .error .providerLimit
  else .ok { budget with remainingProviderCalls := budget.remainingProviderCalls - 1 }

/-- One call of `reserve_provider` and the calls that remain after it. -/
structure Reservation where
  provider : String
  granted : Bool
  remaining : UInt32
  deriving DecidableEq, Repr

/-- The reservation loop of `build_search_plan`. -/
def reserveEach (budget : Budget) : List String → List Reservation × Budget
  | [] => ([], budget)
  | provider :: rest =>
    let (granted, budget) := match budget.reserveProvider with
      | .ok budget => (true, budget)
      | .error _ => (false, budget)
    let (reservations, final) := reserveEach budget rest
    (⟨provider, granted, budget.remainingProviderCalls⟩ :: reservations, final)

structure SearchPlan where
  selectedProviders : List String
  providerBudgets : List (String × UInt32)
  deadlineMs : UInt64
  rankingReferenceTime : String
  fallbackPolicy : String
  expansionPolicy : String
  debugReasons : List String
  deriving DecidableEq, Repr

structure Planned where
  plan : SearchPlan
  reservations : List Reservation
  budget : Budget
  deriving DecidableEq, Repr

def buildSearchPlan (selected : List String) (debugReasons : List String) (now : String)
    (budget : Budget) : Planned :=
  let (reservations, budget) := reserveEach budget selected
  let granted := (reservations.filter (fun r => r.granted)).map (fun r => r.provider)
  { plan :=
      { selectedProviders := selected.filter (fun provider => granted.contains provider)
        providerBudgets := OrdMap.ofList (granted.map (fun provider => (provider, 1)))
        deadlineMs := budget.deadlineMs
        rankingReferenceTime := now
        fallbackPolicy := "bootstrap_static"
        expansionPolicy := "search_policy_v1"
        debugReasons }
    reservations, budget }

structure ParallelSearchOutput where
  providerResults : List ProviderResult
  providersUsed : List String
  providersFailed : List String
  providersPartial : List String
  errors : List ProviderError
  deriving DecidableEq

def ParallelSearchOutput.empty : ParallelSearchOutput := ⟨[], [], [], [], []⟩

def sortNames (names : List String) : List String := StableSort.sortBy compare names

/-- One task as it is joined; `none` is a task that panicked. -/
abbrev Joined := Option (String × Except ProviderError ProviderResult)

def recordJoined (output : ParallelSearchOutput) : Joined → ParallelSearchOutput
  | some (name, .ok result) =>
    { output with
      providersUsed := output.providersUsed ++ [name]
      providersPartial := if result.status = .partialSuccess then
          output.providersPartial ++ [name] else output.providersPartial
      errors := output.errors ++ result.errors
      providerResults := output.providerResults ++ [result] }
  | some (name, .error error) =>
    { output with
      providersFailed := output.providersFailed ++ [name]
      errors := output.errors ++ [error] }
  | none => output

/-- The tasks of the selected providers in completion order; whoever was
selected and did not report has failed. -/
def executeParallel (plan : SearchPlan) (joined : List Joined) : ParallelSearchOutput :=
  let output := joined.foldl recordJoined .empty
  let missing := (OrdMap.setOf plan.selectedProviders).filter (fun name =>
    !(output.providersUsed ++ output.providersFailed).contains name)
  { output with
    providersUsed := sortNames output.providersUsed
    providersFailed := sortNames (output.providersFailed ++ missing)
    providersPartial := sortNames output.providersPartial }

def mergeNames (target source : List String) : List String := OrdMap.setOf (target ++ source)

def mergeParallelOutput (target source : ParallelSearchOutput) : ParallelSearchOutput where
  providerResults := target.providerResults ++ source.providerResults
  providersUsed := mergeNames target.providersUsed source.providersUsed
  providersFailed := mergeNames target.providersFailed source.providersFailed
  providersPartial := mergeNames target.providersPartial source.providersPartial
  errors := target.errors ++ source.errors

def requiredFilters (query : Query) : List String :=
  OrdMap.setOf
    ((if query.domains.isEmpty then [] else ["site"]) ++
      (if query.excludedDomains.isEmpty then [] else ["excluded_site"]) ++
      (if query.fileTypes.isEmpty then [] else ["filetype"]) ++
      (if query.language.isSome then ["language"] else []) ++
      (if query.region.isSome then ["region"] else []) ++
      (if query.dateFrom.isSome then ["date_from"] else []) ++
      (if query.dateTo.isSome then ["date_to"] else []))

def pendingExplicitFilters (query : Query) (results : List ProviderResult) : List String :=
  let accepted := results.flatMap (fun result => result.acceptedFilters)
  let covered := if accepted.contains "time_range" then accepted ++ ["date_from", "date_to"]
    else accepted
  (requiredFilters query).filter (fun filter => !covered.contains filter)

structure RoutingDecisionInput where
  coverage : CoverageMetrics
  candidates : List String
  pendingFilters : List String
  remainingMs : UInt64
  remainingProviderCalls : UInt32
  observedGain : Option Nat
  expectedGainByProvider : List (String × ℚ)
  policy : SearchPolicyV1
  coverageExceptionUsed : Bool

structure NextProviderDecision where
  provider : String
  usesCoverageException : Bool
  debugReason : Option String
  deriving DecidableEq, Repr

def RoutingDecisionInput.expectedGain (input : RoutingDecisionInput) (provider : String) : F64 :=
  .finite ((OrdMap.get? provider input.expectedGainByProvider).getD 0)

def decideProgressiveRound (input : RoutingDecisionInput) :
    Except SearchStopReason NextProviderDecision :=
  let expectedGainLow := input.coverage.coverageMinimum && !input.candidates.isEmpty &&
    input.pendingFilters.isEmpty && input.candidates.all (fun provider =>
      F64.lt (input.expectedGain provider) input.policy.minimumExpectedMarginalGain)
  let observedGainLow := input.observedGain.any (fun (gain : Nat) =>
    F64.lt (.finite gain) input.policy.minimumMarginalGain && input.pendingFilters.isEmpty)
  if input.remainingMs = 0 then .error .timeExhausted
  else if input.remainingMs < input.policy.minimumRemainingDeadlineMs then .error .deadlineNear
  else if !input.candidates.isEmpty && input.remainingProviderCalls == 0 then .error .providerLimit
  else if input.coverage.coverageTarget && input.pendingFilters.isEmpty then
    .error .coverageTargetReached
  else if expectedGainLow || observedGainLow then .error .marginalGainLow
  else match input.candidates with
    | [] => .error .providersExhausted
    | first :: _ =>
      if input.coverage.coverageMinimum && !input.coverage.lowDiversity &&
          input.pendingFilters.isEmpty then .error .explicitFilterSatisfied
      else if !input.pendingFilters.isEmpty then .ok
        { provider := first, usesCoverageException := false,
          debugReason := some
            ("explicit_filter_pending:" ++ String.intercalate "," input.pendingFilters) }
      else match input.candidates.find? (fun provider =>
          F64.le input.policy.minimumExpectedMarginalGain (input.expectedGain provider)) with
        | some provider => .ok ⟨provider, false, none⟩
        | none =>
          if !input.coverage.coverageMinimum && !input.coverageExceptionUsed then
            .ok ⟨first, true, some "coverage_exception_once"⟩
          else .error .marginalGainLow

structure ProgressiveRoundTrace where
  round : Nat
  providersConsidered : List String
  providersSelected : List String
  providersSkipped : List String
  coverage : CoverageMetrics
  expectedMarginalGainByProvider : List (String × ℚ)
  observedMarginalGain : Option Nat
  providerRoles : List (String × ProviderRole)
  primaryAvailable : Option Bool
  stopReason : Option SearchStopReason
  debugReasons : List String
  deriving DecidableEq

def roundTrace (round : Nat) (considered selected : List String) (coverage : CoverageMetrics)
    (adaptive : AdaptiveRoutingRecommendation) (roleModelActive : Bool)
    (observedGain : Option Nat) (stopReason : Option SearchStopReason)
    (debugReasons : List String) : ProgressiveRoundTrace where
  round
  providersConsidered := considered
  providersSelected := selected
  providersSkipped := considered.filter (fun provider => !selected.contains provider)
  coverage
  expectedMarginalGainByProvider := OrdMap.ofList (considered.filterMap (fun provider =>
    (OrdMap.get? provider adaptive.expectedMarginalGainByProvider).map (fun gain =>
      (provider, gain))))
  observedMarginalGain := observedGain
  providerRoles := adaptive.providerRoles
  primaryAvailable := if roleModelActive then some adaptive.primaryProvider.isSome else none
  stopReason
  debugReasons

/-- What a round reads from outside: the clock at its start and after the
providers ran, the reference time of the plan, and the joined tasks. -/
structure RoundEnvironment where
  elapsedAtStart : UInt64
  elapsedAfter : UInt64
  now : String
  joined : List Joined

/-- The fixed part of one search. -/
structure SearchSetup where
  query : Query
  adaptive : AdaptiveRoutingRecommendation
  roleModelActive : Bool
  searchPolicy : SearchPolicyV1
  rankingPolicy : RankingPolicyV1
  diversityPolicy : DiversityPolicyV1
  optics : Option OpticsDocument
  trackerDomains : String → Bool

structure SearchState (Url : Type) where
  budget : Budget
  nextSelected : List String
  attempted : List String
  accumulated : ParallelSearchOutput
  pipeline : PipelineOutput Url
  previousResults : List (SearchResult Url)
  referenceTime : Option String
  exceptionUsed : Bool
  round : Nat
  /-- The reservations of all rounds, in order. -/
  reservations : List Reservation
  trace : List ProgressiveRoundTrace
  /-- The decisions of all rounds that went on. -/
  decisions : List NextProviderDecision

/-- `deadline.saturating_sub(elapsed)`. -/
def remainingMs (deadlineMs elapsedMs : UInt64) : UInt64 :=
  if deadlineMs ≤ elapsedMs then 0 else deadlineMs - elapsedMs

section

variable {Url : Type} [UrlCrate Url] [UnicodeTables] [TimeCrate] [Powf]

def PipelineOutput.empty : PipelineOutput Url := ⟨[], [], ⟨0, 0, 0, 0⟩, []⟩

def SearchSetup.start (setup : SearchSetup) (budget : Budget) : SearchState Url where
  budget
  nextSelected := setup.adaptive.firstRoundProviders
  attempted := []
  accumulated := .empty
  pipeline := .empty
  previousResults := []
  referenceTime := none
  exceptionUsed := false
  round := 0
  reservations := []
  trace := []
  decisions := []

def SearchSetup.unattempted (setup : SearchSetup) (attempted : List String) : List String :=
  setup.adaptive.orderedProviders.filter (fun provider => !attempted.contains provider)

/-- The plan of a round, with the fields the loop overwrites. -/
def SearchSetup.planRound (setup : SearchSetup) (environment : RoundEnvironment)
    (state : SearchState Url) : Planned :=
  let planned := buildSearchPlan state.nextSelected setup.adaptive.debugReasons environment.now
    state.budget
  { planned with plan := { planned.plan with
    deadlineMs := remainingMs state.budget.deadlineMs environment.elapsedAtStart
    fallbackPolicy :=
      if setup.adaptive.fallback then "bootstrap_static" else "provider_value_adaptive"
    rankingReferenceTime := state.referenceTime.getD planned.plan.rankingReferenceTime } }

/-- One pass of the loop: the state after it, and the stop reason if it ends. -/
def SearchSetup.searchRound (setup : SearchSetup) (environment : RoundEnvironment)
    (state : SearchState Url) : SearchState Url × Option SearchStopReason :=
  let round := state.round + 1
  let considered := setup.unattempted state.attempted
  let planned := setup.planRound environment state
  let referenceTime := planned.plan.rankingReferenceTime
  let selected := planned.plan.selectedProviders
  let attempted := state.attempted ++ selected
  let accumulated := if selected.isEmpty then state.accumulated
    else mergeParallelOutput state.accumulated (executeParallel planned.plan environment.joined)
  let pipeline := if selected.isEmpty then state.pipeline
    else runPipeline setup.trackerDomains setup.query referenceTime accumulated.providerResults
      setup.rankingPolicy setup.diversityPolicy setup.optics
  let coverage := evaluateCoverage pipeline.results pipeline.diversity setup.searchPolicy
  let observedGain := if 1 < round then
      some (observedMarginalGain state.previousResults pipeline.results) else none
  let decision := decideProgressiveRound
    { coverage
      candidates := setup.unattempted attempted
      pendingFilters := pendingExplicitFilters setup.query accumulated.providerResults
      remainingMs := remainingMs state.budget.deadlineMs environment.elapsedAfter
      remainingProviderCalls := planned.budget.remainingProviderCalls
      observedGain
      expectedGainByProvider := setup.adaptive.expectedMarginalGainByProvider
      policy := setup.searchPolicy
      coverageExceptionUsed := state.exceptionUsed }
  let firstReasons := if round = 1 then setup.adaptive.debugReasons else []
  let traced := fun stopReason reasons => state.trace ++ [roundTrace round considered selected
    coverage setup.adaptive setup.roleModelActive observedGain stopReason reasons]
  let after : SearchState Url :=
    { state with
      budget := planned.budget, attempted, accumulated, pipeline, round,
      referenceTime := some referenceTime,
      reservations := state.reservations ++ planned.reservations }
  match decision with
  | .ok next =>
    ({ after with
      exceptionUsed := state.exceptionUsed || next.usesCoverageException
      previousResults := pipeline.results
      nextSelected := [next.provider]
      trace := traced none (firstReasons ++ next.debugReason.toList)
      decisions := state.decisions ++ [next] }, none)
  | .error reason => ({ after with trace := traced (some reason) firstReasons }, some reason)

/-- At most `fuel` rounds; `none` when they did not end the search. -/
def SearchSetup.searchLoop (setup : SearchSetup) (environment : Nat → RoundEnvironment) :
    Nat → SearchState Url → SearchState Url × Option SearchStopReason
  | 0, state => (state, none)
  | fuel + 1, state =>
    match setup.searchRound (environment state.round) state with
    | (state, some reason) => (state, some reason)
    | (state, none) => setup.searchLoop environment fuel state

end

def searchSetup (query : Query) (category : Category) (providers : List ProviderDescriptor)
    (telemetry : String → Category → ProviderValueSnapshot) (searchPolicy : SearchPolicyV1)
    (roles : RoleAssignment) (rankingPolicy : RankingPolicyV1)
    (diversityPolicy : DiversityPolicyV1) (optics : Option OpticsDocument)
    (trackerDomains : String → Bool) : SearchSetup where
  query
  adaptive := recommendWithRoles query category providers telemetry searchPolicy roles
  roleModelActive := roles.active
  searchPolicy
  rankingPolicy
  diversityPolicy
  optics
  trackerDomains

end Amatl
