import Amatl.ProviderCalls
import Amatl.Query

/-! The response of a search: what the orchestrator makes of the last round, what the
service adds to it, and what its status tells. -/

namespace Amatl

inductive ProviderAvailability where
  | available
  | unavailable (code message : String)
  deriving DecidableEq, Repr

structure Provider where
  name : String
  capabilities : ProviderCapabilities
  availability : ProviderAvailability
  deriving DecidableEq, Repr

def Provider.descriptor (provider : Provider) : ProviderDescriptor where
  name := provider.name
  capabilities := provider.capabilities
  available := provider.availability = .available

def Provider.degradation (provider : Provider) : Option Degradation :=
  match provider.availability with
  | .available => none
  | .unavailable code message => some ⟨code, provider.name, message⟩

def compositeError (error : ProviderError) : CompositeError where
  code := match error.kind with
    | .timeout => "provider_timeout"
    | .rateLimit => "provider_rate_limit"
    | .auth => "provider_auth"
    | .network => "provider_network"
    | .invalidResponse => "provider_invalid_response"
    | .parserError => "provider_parser_error"
    | .quota => "provider_quota"
    | .unavailable => "provider_unavailable"
  message := error.message
  providers := [error.provider]
  recoverable := isRecoverable error.kind

structure SearchOrchestrator where
  budget : Budget
  searchPolicy : SearchPolicyV1
  roleAssignment : RoleAssignment
  rankingPolicy : RankingPolicyV1
  diversityPolicy : DiversityPolicyV1
  optics : Option OpticsDocument
  trackerDomains : String → Bool
  telemetry : String → Category → ProviderValueSnapshot

namespace SearchOrchestrator

def setup (o : SearchOrchestrator) (query : Query) (category : Category)
    (providers : List Provider) : SearchSetup :=
  searchSetup query category (providers.map Provider.descriptor) o.telemetry o.searchPolicy
    o.roleAssignment o.rankingPolicy o.diversityPolicy o.optics o.trackerDomains

def primaryUnavailable (o : SearchOrchestrator) : Degradation where
  code := "primary_provider_unavailable"
  component := "routing"
  message := "configured primary provider '" ++ o.roleAssignment.primaryProvider ++
    "' was not eligible; search ran on expansion providers only"

def availabilityDegradations (o : SearchOrchestrator) (setup : SearchSetup)
    (providers : List Provider) : List Degradation :=
  providers.filterMap Provider.degradation ++
    if o.roleAssignment.active && setup.adaptive.primaryProvider.isNone then [o.primaryUnavailable]
    else []

/-- The reasons to stop that leave the coverage target open. -/
def stopsShort : SearchStopReason → Bool
  | .timeExhausted | .deadlineNear | .providerLimit => true
  | .coverageTargetReached | .marginalGainLow | .providersExhausted | .explicitFilterSatisfied =>
    false

section

variable {Url : Type} [UrlCrate Url]

def stopDegradations (setup : SearchSetup) (pipeline : PipelineOutput Url)
    (reason : SearchStopReason) : List Degradation :=
  let coverage := evaluateCoverage pipeline.results pipeline.diversity setup.searchPolicy
  if !pipeline.results.isEmpty && !coverage.coverageTarget && stopsShort reason then
    [⟨reason.asStr, "routing", "progressive search stopped before target coverage"⟩]
  else []

def responseErrors (state : SearchState Url) : List CompositeError :=
  let errors := state.accumulated.errors.map compositeError
  if state.pipeline.results.isEmpty && state.attempted.isEmpty then
    errors ++ [⟨"no_available_provider", "no approved and configured provider is available", [],
      false⟩]
  else if state.pipeline.results.isEmpty && errors.isEmpty then
    errors ++ [⟨"no_usable_results",
      "providers returned no result that satisfied the Search contract",
      state.accumulated.providersUsed, false⟩]
  else errors

def responseStatus (results : List (SearchResult Url)) (degradations : List Degradation)
    (accumulated : ParallelSearchOutput) : SearchStatus :=
  if results.isEmpty then .failure
  else if !degradations.isEmpty || !accumulated.providersFailed.isEmpty ||
      !accumulated.providersPartial.isEmpty then .partialSuccess
  else .success

/-- The response once the loop has stopped. -/
def respond (o : SearchOrchestrator) (setup : SearchSetup) (providers : List Provider)
    (state : SearchState Url) (reason : SearchStopReason) (elapsedMs : UInt64) :
    SearchResponse Url :=
  let results := state.pipeline.results
  let degradations := state.pipeline.degradations ++ o.availabilityDegradations setup providers ++
    stopDegradations setup state.pipeline reason
  { query := setup.query.rawQuery
    status := responseStatus results degradations state.accumulated
    results
    providersUsed := state.accumulated.providersUsed
    providersFailed := state.accumulated.providersFailed
    providersPartial := state.accumulated.providersPartial
    errors := responseErrors state
    degradations
    elapsedMs
    totalResults := none
    page := none
    pageSize := none }

variable [UnicodeTables] [TimeCrate] [Powf]

/-- A search; no response when the loop does not stop within its rounds. -/
def search (o : SearchOrchestrator) (query : Query) (category : Category)
    (providers : List Provider) (environment : Nat → RoundEnvironment) (elapsedMs : UInt64) :
    Option (SearchResponse Url) :=
  let setup := o.setup query category providers
  match setup.searchLoop environment (1 + setup.adaptive.orderedProviders.length)
      (setup.start o.budget) with
  | (state, some reason) => some (o.respond setup providers state reason elapsedMs)
  | (_, none) => none

end

end SearchOrchestrator

inductive ServiceError where
  | invalidQuery | configuration | storageUnavailable | invalidInput
  | providerNotDeclared (name : String)
  | providerNotRegistered (name : String)
  deriving DecidableEq, Repr

structure ProviderSelection where
  providers : List Provider
  degradations : List Degradation

/-- What a search reads of the service. A declared name has a governance record that
is approved today or is not; a registered one builds its adapter. -/
structure AmatlService where
  mock : Bool
  mockProviders : List Provider
  networkEgress : Bool
  transport : Bool
  enabled : List String
  declared : String → Option Bool
  registered : String → Option Provider
  circuit : ProviderCircuit
  orchestrator : SearchOrchestrator
  storageDegradation : Option Degradation

namespace AmatlService

def notApproved (name : String) : Degradation where
  code := "provider_not_approved"
  component := name
  message := name ++ " is enabled but its governance record is incomplete or expired; " ++
    "the source was not called"

def circuitOpen (name : String) : Degradation where
  code := "provider_circuit_open"
  component := name
  message := name ++ " is in circuit cooldown after consecutive failures; " ++
    "the source was skipped"

def selectProvider (service : AmatlService) (now : Int64) (selection : ProviderSelection)
    (name : String) : Except ServiceError ProviderSelection :=
  match service.declared name, service.registered name with
  | none, _ => .error (.providerNotDeclared name)
  | some _, none => .error (.providerNotRegistered name)
  | some approved, some provider =>
    if !approved then
      .ok { selection with degradations := selection.degradations ++ [notApproved name] }
    else if !service.circuit.allowsCall name now then
      .ok { selection with degradations := selection.degradations ++ [circuitOpen name] }
    else .ok { selection with providers := selection.providers ++ [provider] }

def selectProviders (service : AmatlService) (now : Int64) :
    Except ServiceError ProviderSelection :=
  if service.mock then .ok ⟨service.mockProviders, []⟩
  else if !service.networkEgress then .ok ⟨[], []⟩
  else if !service.transport then .error .configuration
  else service.enabled.foldlM (service.selectProvider now) ⟨[], []⟩

end AmatlService

/-- The limits of a surface that a search reads. -/
structure SearchLimits where
  maxProviderCalls : UInt32
  searchTimeoutMs : UInt64
  maxPageSize : UInt32

namespace SearchResponse

variable {Url : Type}

def degradedBy (response : SearchResponse Url) (added : List Degradation) : SearchResponse Url :=
  if added.isEmpty then response
  else { response with
    degradations := response.degradations ++ added
    status := if response.status = .success then .partialSuccess else response.status }

def paginate (response : SearchResponse Url) (limits : SearchLimits) :
    Option UInt32 → Option UInt32 → SearchResponse Url
  | some page, some pageSize =>
    let pageSize := min (max pageSize 1) limits.maxPageSize
    { response with
      results := (response.results.drop (page.toNat * pageSize.toNat)).take pageSize.toNat
      totalResults := some (UInt64.ofNat response.results.length)
      page := some page
      pageSize := some pageSize }
  | _, _ => response

end SearchResponse

namespace AmatlService

variable {Url : Type} [UrlCrate Url] [UnicodeTables] [TimeCrate] [Powf]

/-- A search of the service before its results are cut into pages. -/
def searchUnpaged (service : AmatlService) (rawQuery : String) (limits : SearchLimits)
    (now : Int64) (category : Category) (environment : Nat → RoundEnvironment)
    (elapsedMs : UInt64) : Except ServiceError (Option (SearchResponse Url)) := do
  let query ← (parseQuery rawQuery).mapError (fun _ => .invalidQuery)
  let selection ← service.selectProviders now
  let orchestrator := { service.orchestrator with
    budget := .new limits.maxProviderCalls limits.searchTimeoutMs }
  let response := orchestrator.search query.toQuery category selection.providers environment
    elapsedMs
  pure (response.map (fun response =>
    (response.degradedBy selection.degradations).degradedBy service.storageDegradation.toList))

def searchInner (service : AmatlService) (rawQuery : String) (limits : SearchLimits)
    (now : Int64) (category : Category) (environment : Nat → RoundEnvironment)
    (elapsedMs : UInt64) (page pageSize : Option UInt32) :
    Except ServiceError (Option (SearchResponse Url)) := do
  let response ← service.searchUnpaged rawQuery limits now category environment elapsedMs
  pure (response.map (fun response => response.paginate limits page pageSize))

end AmatlService

/-! The status of a response. -/

namespace SearchResponse

variable {Url : Type}

/-- Nothing was degraded and every provider answered in full. -/
def Whole (response : SearchResponse Url) : Prop :=
  response.degradations = [] ∧ response.providersFailed = [] ∧ response.providersPartial = []

instance (response : SearchResponse Url) : Decidable response.Whole :=
  inferInstanceAs (Decidable (_ ∧ _ ∧ _))

structure StatusTells (response : SearchResponse Url) : Prop where
  failure : response.status = .failure ↔ response.results = []
  success : response.status = .success ↔ response.results ≠ [] ∧ response.Whole
  partialSuccess : response.status = .partialSuccess ↔ response.results ≠ [] ∧ ¬response.Whole

theorem statusTells_of_eq {response : SearchResponse Url}
    (h : response.status =
      if response.results = [] then .failure
      else if response.Whole then .success else .partialSuccess) : response.StatusTells := by
  by_cases nothing : response.results = []
  · rw [if_pos nothing] at h
    refine ⟨?_, ?_, ?_⟩ <;> simp [h, nothing]
  · rw [if_neg nothing] at h
    by_cases whole : response.Whole
    · rw [if_pos whole] at h
      refine ⟨?_, ?_, ?_⟩ <;> simp [h, nothing, whole]
    · rw [if_neg whole] at h
      refine ⟨?_, ?_, ?_⟩ <;> simp [h, nothing, whole]

theorem degradedBy_statusTells {response : SearchResponse Url} (h : response.StatusTells)
    (added : List Degradation) : (response.degradedBy added).StatusTells := by
  unfold degradedBy
  by_cases nothing : added.isEmpty = true
  · rw [if_pos nothing]
    exact h
  rw [if_neg nothing]
  apply statusTells_of_eq
  rw [if_neg (c := Whole _)]
  · show (if response.status = .success then _ else response.status) =
      if response.results = [] then _ else _
    by_cases empty : response.results = []
    · have failed : response.status = .failure := h.failure.mpr empty
      rw [if_pos empty, failed]
      rfl
    · rw [if_neg empty]
      by_cases succeeded : response.status = .success
      · rw [if_pos succeeded]
      · have failed : response.status ≠ .failure := fun hf => empty (h.failure.mp hf)
        rw [if_neg succeeded]
        cases hstatus : response.status with
        | success => exact absurd hstatus succeeded
        | partialSuccess => rfl
        | failure => exact absurd hstatus failed
  · intro whole
    have nil : added = [] := (List.append_eq_nil_iff.mp whole.1).2
    exact nothing (List.isEmpty_iff.mpr nil)

end SearchResponse

namespace SearchOrchestrator

variable {Url : Type}

theorem responseStatus_eq (results : List (SearchResult Url)) (degradations : List Degradation)
    (accumulated : ParallelSearchOutput) :
    responseStatus results degradations accumulated =
      if results = [] then .failure
      else if degradations = [] ∧ accumulated.providersFailed = [] ∧
        accumulated.providersPartial = [] then .success
      else .partialSuccess := by
  unfold responseStatus
  cases results with
  | nil => rfl
  | cons result results =>
    cases degradations <;> cases accumulated.providersFailed <;>
      cases accumulated.providersPartial <;> simp

theorem respond_statusTells (o : SearchOrchestrator) (setup : SearchSetup)
    (providers : List Provider) (state : SearchState Url) (reason : SearchStopReason)
    (elapsedMs : UInt64) : (o.respond setup providers state reason elapsedMs).StatusTells := by
  apply SearchResponse.statusTells_of_eq
  refine (responseStatus_eq _ _ _).trans ?_
  congr

variable [UrlCrate Url] [UnicodeTables] [TimeCrate] [Powf]

theorem search_ends (o : SearchOrchestrator) {spent : Nat} (accounts : o.budget.Accounts spent)
    (query : Query) (category : Category) (providers : List Provider)
    (environment : Nat → RoundEnvironment) (elapsedMs : UInt64) :
    ∃ response : SearchResponse Url,
      o.search query category providers environment elapsedMs = some response ∧
        response.StatusTells := by
  let setup := o.setup query category providers
  obtain ⟨-, stops⟩ := setup.searchLoop_invariant environment
    (1 + setup.adaptive.orderedProviders.length)
    (setup.start_invariant accounts : SearchInvariant setup _ spent (setup.start _ : SearchState Url))
    (fun hpos => absurd hpos (by simp [SearchSetup.start])) rfl
  unfold search
  cases hloop : setup.searchLoop environment (1 + setup.adaptive.orderedProviders.length)
      (setup.start o.budget : SearchState Url) with
  | mk state reason =>
    cases reason with
    | none => exact absurd (by rw [hloop]) stops
    | some reason =>
      refine ⟨o.respond setup providers state reason elapsedMs, ?_, ?_⟩
      · simp only [setup] at hloop ⊢
        rw [hloop]
      · exact o.respond_statusTells setup providers state reason elapsedMs

end SearchOrchestrator

/-- The orchestrator always responds, and its status tells how it went; the service
either refuses or responds with a status that does. -/
theorem search_statusTells (Url : Type) [UrlCrate Url] [UnicodeTables] [TimeCrate] [Powf]
    (orchestrator : SearchOrchestrator) (spent : Nat)
    (accounts : orchestrator.budget.Accounts spent) (service : AmatlService)
    (query : Query) (rawQuery : String) (category : Category) (providers : List Provider)
    (limits : SearchLimits) (now : Int64) (environment : Nat → RoundEnvironment)
    (elapsedMs : UInt64) :
    (∃ response : SearchResponse Url,
      orchestrator.search query category providers environment elapsedMs = some response ∧
        response.StatusTells) ∧
      ((∃ error, (service.searchUnpaged rawQuery limits now category environment elapsedMs :
          Except ServiceError (Option (SearchResponse Url))) = .error error) ∨
        ∃ response : SearchResponse Url,
          service.searchUnpaged rawQuery limits now category environment elapsedMs =
            .ok (some response) ∧ response.StatusTells) := by
  refine ⟨orchestrator.search_ends accounts query category providers environment elapsedMs, ?_⟩
  unfold AmatlService.searchUnpaged
  cases hparse : parseQuery rawQuery with
  | error error => exact .inl ⟨.invalidQuery, rfl⟩
  | ok query =>
    cases hselect : service.selectProviders now with
    | error error => exact .inl ⟨error, rfl⟩
    | ok selection =>
      have fresh : (Budget.new limits.maxProviderCalls limits.searchTimeoutMs).Accounts 0 := by
        simp [Budget.Accounts, Budget.new]
      obtain ⟨response, hresponse, told⟩ := @SearchOrchestrator.search_ends Url _ _ _ _
        { service.orchestrator with
          budget := .new limits.maxProviderCalls limits.searchTimeoutMs }
        0 fresh query.toQuery category selection.providers environment elapsedMs
      refine .inr ⟨(response.degradedBy selection.degradations).degradedBy
        service.storageDegradation.toList, ?_, ?_⟩
      · show Except.ok (Option.map _ (SearchOrchestrator.search _ _ _ _ _ _)) = _
        rw [hresponse]
        rfl
      · exact SearchResponse.degradedBy_statusTells
          (SearchResponse.degradedBy_statusTells told _) _

/-- Of two enabled sources one has no approved record. -/
def halfApproved : AmatlService where
  mock := false
  mockProviders := []
  networkEgress := true
  transport := true
  enabled := ["brave", "mojeek"]
  declared := fun name => some (name = "brave")
  registered := fun name => some ⟨name, (webProvider name).capabilities, .available⟩
  circuit := .new .default
  orchestrator := ⟨.new 1 10000, .default, .legacy, .default, .default, none, fun _ => false,
    fun _ _ => untriedProvider⟩
  storageDegradation := none

def oneAnswer : RoundEnvironment where
  elapsedAtStart := 0
  elapsedAfter := 0
  now := ""
  joined := [some ("brave", .ok ⟨"brave", .success,
    [⟨some "Lean", "https://lean.example/a", some ⟨1, Rank.one_ne_zero⟩, none, none, none, none, none,
      none, none, []⟩], [], [], [], []⟩)]

theorem halfApproved_statusTells :
    letI := asciiTables
    letI := noDates
    letI := integerPowers
    ∃ response : SearchResponse PlainUrl,
      halfApproved.searchUnpaged "lean" ⟨8, 10000, 100⟩ 0 .general (fun _ => oneAnswer) 5 =
        .ok (some response) ∧ response.degradations = [AmatlService.notApproved "mojeek"] ∧
        response.status = .partialSuccess ∧ response.StatusTells := by
  let _ := asciiTables
  let _ := noDates
  let _ := integerPowers
  have computed : ((halfApproved.searchUnpaged "lean" ⟨8, 10000, 100⟩ 0 .general
      (fun _ => oneAnswer) 5 : Except ServiceError (Option (SearchResponse PlainUrl))).toOption.map
        (fun response => response.map (fun response => (response.degradations, response.status)))) =
      some (some ([AmatlService.notApproved "mojeek"], .partialSuccess)) := by decide +kernel
  obtain ⟨-, refused | ⟨response, responds, told⟩⟩ := search_statusTells PlainUrl
    halfApproved.orchestrator 0 rfl halfApproved (plainQuery "lean") "lean" .general []
    ⟨8, 10000, 100⟩ 0 (fun _ => oneAnswer) 5
  · obtain ⟨error, refused⟩ := refused
    rw [refused] at computed
    cases computed
  · rw [responds] at computed
    obtain ⟨degradations, status⟩ := Prod.mk.inj (Option.some.inj (Option.some.inj computed))
    exact ⟨response, responds, degradations, status, told⟩

end Amatl
