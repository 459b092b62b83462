import Amatl.Canonical
import Amatl.Config.Validate
import Amatl.Deep.Accounting
import Amatl.Deep.Rights
import Amatl.Query
import Amatl.Response

/-! Deep as the service runs it: over the results of a search, or over targets that
the caller selected. The surface of a request narrows what the configuration grants,
the caller may narrow it further, and the run is built from what is left. -/

namespace Amatl

open UrlCrate DeepBudget

inductive ServiceSurfaceKind where
  | cli | api | mcp
  deriving DecidableEq, Repr

structure ExecutionLimits where
  maxProviderCalls : UInt32
  providerTimeoutMs : UInt64
  searchTimeoutMs : UInt64
  deepMaxFetches : UInt32
  deepMaxBytes : UInt64
  deepTimeoutMs : UInt64
  deepMaxSubqueries : UInt32
  deepMaxSubqueryCost : UInt64
  fetchTimeoutMs : UInt64
  fetchMaxBytes : UInt64
  fetchMaxRedirects : UInt32
  maxPageSize : UInt32
  deriving DecidableEq, Repr

namespace ExecutionLimits

/-- What the configuration grants. -/
def base (config : Config) : ExecutionLimits where
  maxProviderCalls := config.budget.maxProviderCalls
  providerTimeoutMs := config.timeouts.providerMs
  searchTimeoutMs := config.timeouts.globalMs
  deepMaxFetches := config.deep.maxFetches
  deepMaxBytes := config.deep.maxBytes
  deepTimeoutMs := config.deep.timeoutMs
  deepMaxSubqueries := config.deep.gaps.maxSubqueries
  deepMaxSubqueryCost := config.deep.gaps.maxCost
  fetchTimeoutMs := min config.deep.extractor.timeoutMs config.deep.timeoutMs
  fetchMaxBytes := max (config.deep.maxBytes / (max config.deep.maxFetches 1).toUInt64) 1
  fetchMaxRedirects := config.deep.maxRedirects
  maxPageSize := 100

def forSurface (config : Config) : ServiceSurfaceKind → ExecutionLimits
  | .cli | .api => base config
  | .mcp =>
    let base := base config
    { maxProviderCalls := min base.maxProviderCalls 2
      providerTimeoutMs := min base.providerTimeoutMs 2500
      searchTimeoutMs := min base.searchTimeoutMs 5000
      deepMaxFetches := min base.deepMaxFetches 3
      deepMaxBytes := min base.deepMaxBytes (2 * 1024 * 1024)
      deepTimeoutMs := min base.deepTimeoutMs 10000
      deepMaxSubqueries := min base.deepMaxSubqueries 1
      deepMaxSubqueryCost := min base.deepMaxSubqueryCost 1
      fetchTimeoutMs := min base.fetchTimeoutMs 3000
      fetchMaxBytes := min base.fetchMaxBytes (256 * 1024)
      fetchMaxRedirects := min base.fetchMaxRedirects 2
      maxPageSize := min base.maxPageSize 25 }

end ExecutionLimits

def validateDeepFetchCap (requested : Option UInt32) (configuredMaximum : UInt32) :
    Except ServiceError Unit :=
  if requested.any (fun value => value == 0 || value > configuredMaximum) then
    .error .invalidInput
  else .ok ()

/-- A search result that the caller selected. -/
structure DeepTarget where
  url : String
  title : Option String
  provider : String
  deriving DecidableEq, Repr

def mockProviders : List String := ["mock-a", "mock-b"]

/-- What Deep reads of a running service. `inference` is the version key of its
inference runtime. -/
structure DeepService where
  config : Config
  mock : Bool
  registered : String → Bool
  storage : Bool
  storageDegradation : Option Degradation
  inference : Option String
  rendererAvailable : Bool

def nativeExtractorVersion : String := "native-html-v1"

/-- The version of the extractor that tries `primary` before the native one. -/
def fallbackVersion (primary : String) : String :=
  "fallback-v1(" ++ primary ++ "+" ++ nativeExtractorVersion ++ ")"

/-- The share of one fetch. The division panics on zero. -/
def perFetchShare (bytes : UInt64) (fetches : UInt32) : Option UInt64 :=
  if fetches = 0 then none else some (max (bytes / fetches.toUInt64) 1)

/-- The errors of the service that a run of Deep can end with. -/
inductive DeepFailure where
  | service (error : ServiceError)
  | inferenceUnavailable
  deriving DecidableEq, Repr

def inferenceMissing : Degradation where
  code := "inference_unavailable"
  component := "inference"
  message := "Inference backend is unavailable; ranking used lexical signals only"

namespace DeepService

variable (service : DeepService)

def targetProviderIsValid (provider : String) : Bool :=
  (service.mock && mockProviders.contains provider) ||
    (service.config.providers.isDeclared provider && service.registered provider)

section Targets

variable {Url : Type} [UrlCrate Url]

/-- The result that a target with an accepted address is canonicalized as. -/
def targetResult (target : DeepTarget) (url : Url) : NormalizedResult Url where
  title := target.title
  rawUrl := target.url
  url
  provider := target.provider
  providerRank := none
  snippet := none
  resultType := .organic
  publishedAt := none
  author := none
  language := none
  fileType := none
  thumbnail := none
  metadata := []
  provenance := []
  degradations := []

def targetRefused (target : DeepTarget) : Bool :=
  target.provider.isEmpty || 128 < Text.utf8Length target.provider.toList ||
    target.title.any (fun title => 512 < Text.utf8Length title.toList) ||
    !service.targetProviderIsValid target.provider

/-- The original and the canonical address of a target, if it is accepted. -/
def targetUrls (target : DeepTarget) : Except ServiceError (Url × Url) :=
  if service.targetRefused target then .error .invalidInput
  else match (validateSearchUrl target.url : Except String Url) with
    | .error _ => .error .invalidInput
    | .ok url =>
      let canonicalized := canonicalize (targetResult target url)
      .ok (canonicalized.originalUrl, canonicalized.canonicalUrl)

def targetCandidate (target : DeepTarget) (originalUrl canonicalUrl : Url) (rank : Rank)
    (domain : String) : DeepCandidate Url where
  result :=
    { rank, title := target.title, originalUrl, canonicalUrl, domain, snippet := none
      providers := [target.provider], publishedAt := none, status := .visible }
  storageRights := !service.mock && service.config.providers.storageRights target.provider

/-- The addresses seen and the candidates made so far. -/
structure Selection (Url : Type) where
  seen : List String
  candidates : List (DeepCandidate Url)

def addTarget (selection : Selection Url) (target : DeepTarget) :
    Except ServiceError (Selection Url) :=
  match (service.targetUrls target : Except ServiceError (Url × Url)) with
  | .error error => .error error
  | .ok (original, canonical) =>
    if OrdMap.setContains (asStr canonical) selection.seen then .ok selection
    else match Rank.new (selection.candidates.length.toUInt32 + 1), hostStr canonical with
      | some rank, some domain =>
        .ok ⟨OrdMap.setInsert (asStr canonical) selection.seen,
          selection.candidates ++ [service.targetCandidate target original canonical rank domain]⟩
      | _, _ => .error .invalidInput

def selectTargets (targets : List DeepTarget) : Except ServiceError (List (DeepCandidate Url)) :=
  if targets.isEmpty || service.config.deep.topK.toNat < targets.length then .error .invalidInput
  else match targets.foldlM service.addTarget (⟨[], []⟩ : Selection Url) with
    | .error error => .error error
    | .ok selection =>
      if selection.candidates.isEmpty then .error .invalidInput else .ok selection.candidates

end Targets

/-- Ranking v2 can be set up, with what is missing for it. -/
def rankingReady : Except DeepFailure (List Degradation) :=
  let config := service.config.deep.rankingV2
  if !config.enabled then .ok []
  else match config.policy.validate with
    | .error _ => .error (.service .configuration)
    | .ok () =>
      let needsSemantic := F64.lt (.finite 0) config.policy.weightSemantic
      let needsReranker := F64.lt (.finite 0) config.policy.weightReranker
      if !needsSemantic && !needsReranker then .ok []
      else match service.inference with
        | none => .ok [inferenceMissing]
        | some _ =>
          let inference := service.config.inference
          if needsReranker && (inference.maxDocuments == 0 ||
              !F64.within (.finite 0) (.finite 1) inference.rerankerPriorWeight) then
            .error .inferenceUnavailable
          else .ok []

/-- The gap analyzer is on for a surface with these limits. -/
def analyzesGaps (limits : ExecutionLimits) : Bool :=
  service.config.deep.gaps.enabled && 0 < limits.deepMaxSubqueries

def gapsReady (limits : ExecutionLimits) (selection : Except ServiceError ProviderSelection) :
    Except DeepFailure Unit :=
  if !service.analyzesGaps limits then .ok ()
  else match service.config.deep.gaps.policy.validate with
    | .error _ => .error (.service .configuration)
    | .ok () => (selection.map (fun _ => ())).mapError .service

def documentCache : Option DocumentCachePolicy :=
  let config := service.config.cache.document
  if service.storage && config.enabled then
    some
      { enabled := config.enabled, ttlSeconds := config.ttlSeconds, maxEntries := config.maxEntries
        maxBytes := config.maxBytes, storeContent := config.storeContent
        modelVersion := service.inference }
  else none

def robots : Option RobotsCache :=
  let config := service.config.deep
  if config.respectRobots && 0 < config.maxDepth then
    some (.new config.robotsTimeoutMs config.robotsMaxBytes)
  else none

def orchestrator (share remainingMs : UInt64) : DeepOrchestrator where
  extractorVersion := fallbackVersion service.config.deep.extractor.version
  rendererAvailable := service.rendererAvailable
  cache := service.documentCache
  timeoutMs := remainingMs
  perFetchBytes := share
  maxRedirects := service.config.deep.maxRedirects
  topK := service.config.deep.topK.toNat
  maxDepth := service.config.deep.maxDepth
  robots := service.robots

def deepBudget (limits : ExecutionLimits) (effective : UInt32) (remainingMs : UInt64) :
    DeepBudget :=
  let config := service.config.deep
  (DeepBudget.new effective limits.deepMaxBytes config.maxRedirects
    config.renderer.maxBrowserCalls config.maxCrawlUrls remainingMs).withGapLimits
      limits.deepMaxSubqueries limits.deepMaxSubqueryCost

/-- Without an analyzer nothing is proposed and nothing is executed. -/
def surround {Url : Type} (limits : ExecutionLimits) (env : Surroundings Url) : Surroundings Url :=
  { env with
    executor := service.analyzesGaps limits
    proposals := if service.analyzesGaps limits then env.proposals else fun _ => [] }

/-- A run of Deep with what it was built from. -/
structure Run (σ Url : Type) where
  orchestrator : DeepOrchestrator
  request : DeepRequest Url
  budget : DeepBudget
  enriched : Enriched σ Url
  /-- What the service adds to the degradations of the run. -/
  added : List Degradation

variable {σ Url : Type} [UrlCrate Url] [Sha256Hex] [ScraperCrate] [DocumentJson Url]

/-- Every run starts with no `robots.txt` entries. `none` is a panic. -/
def deepFromSearch (surface : ServiceSurfaceKind) (requestMaxFetches : Option UInt32)
    (selection : Except ServiceError ProviderSelection) (query : Query)
    (planNormalizedQuery : String) (elapsedMs : UInt64) (results : List (SearchResult Url))
    (fetch : Fetcher σ Url) (env : Surroundings Url) (rows : List (DocumentRow Url)) (fetcher : σ) :
    Option (Except DeepFailure (Run σ Url)) :=
  let limits := ExecutionLimits.forSurface service.config surface
  let effective := requestMaxFetches.getD limits.deepMaxFetches
  let remainingMs := if elapsedMs < limits.deepTimeoutMs then limits.deepTimeoutMs - elapsedMs else 0
  let request : DeepRequest Url :=
    ⟨query, planNormalizedQuery, deepCandidates service.mock service.config.providers results⟩
  let budget := service.deepBudget limits effective remainingMs
  (perFetchShare limits.deepMaxBytes effective).map (fun share =>
    match service.rankingReady, service.gapsReady limits selection with
    | .error error, _ => .error error
    | .ok _, .error error => .error error
    | .ok pending, .ok () =>
      let orchestrator := service.orchestrator share remainingMs
      .ok ⟨orchestrator, request, budget,
        enrich orchestrator fetch (service.surround limits env) request budget rows [] fetcher,
        pending ++ service.storageDegradation.toList⟩)

def deepSelected (surface : ServiceSurfaceKind) (maxFetches : Option UInt32)
    (selection : Except ServiceError ProviderSelection) (rawQuery : String)
    (targets : List DeepTarget) (fetch : Fetcher σ Url) (env : Surroundings Url)
    (rows : List (DocumentRow Url)) (fetcher : σ) : Option (Except DeepFailure (Run σ Url)) :=
  let limits := ExecutionLimits.forSurface service.config surface
  match validateDeepFetchCap maxFetches limits.deepMaxFetches with
  | .error error => some (.error (.service error))
  | .ok () =>
    if targets.isEmpty || service.config.deep.topK.toNat < targets.length then
      some (.error (.service .invalidInput))
    else match parseQuery rawQuery with
      | .error _ => some (.error (.service .invalidQuery))
      | .ok query =>
        match (service.selectTargets targets : Except ServiceError (List (DeepCandidate Url))) with
        | .error error => some (.error (.service error))
        | .ok candidates =>
          service.deepFromSearch surface maxFetches selection query.toQuery query.normalizedQuery 0
            (candidates.map (fun candidate => candidate.result)) fetch env rows fetcher

/-- Deep over the results of a search of its own. -/
def deepWithFetchCap (surface : ServiceSurfaceKind) (maxFetches : Option UInt32)
    (selection : Except ServiceError ProviderSelection)
    (search : Except ServiceError (Query × String × SearchResponse Url)) (fetch : Fetcher σ Url)
    (env : Surroundings Url) (rows : List (DocumentRow Url)) (fetcher : σ) :
    Option (Except DeepFailure (Run σ Url)) :=
  let limits := ExecutionLimits.forSurface service.config surface
  match validateDeepFetchCap maxFetches limits.deepMaxFetches with
  | .error error => some (.error (.service error))
  | .ok () =>
    match search with
    | .error error => some (.error (.service error))
    | .ok (query, planNormalizedQuery, response) =>
      service.deepFromSearch surface maxFetches selection query planNormalizedQuery
        response.elapsedMs response.results fetch env rows fetcher

end DeepService

/-! The limits of a surface. -/

namespace ExecutionLimits

/-- No limit is above that of `other`. -/
structure AtMost (limits other : ExecutionLimits) : Prop where
  maxProviderCalls : limits.maxProviderCalls ≤ other.maxProviderCalls
  providerTimeoutMs : limits.providerTimeoutMs ≤ other.providerTimeoutMs
  searchTimeoutMs : limits.searchTimeoutMs ≤ other.searchTimeoutMs
  deepMaxFetches : limits.deepMaxFetches ≤ other.deepMaxFetches
  deepMaxBytes : limits.deepMaxBytes ≤ other.deepMaxBytes
  deepTimeoutMs : limits.deepTimeoutMs ≤ other.deepTimeoutMs
  deepMaxSubqueries : limits.deepMaxSubqueries ≤ other.deepMaxSubqueries
  deepMaxSubqueryCost : limits.deepMaxSubqueryCost ≤ other.deepMaxSubqueryCost
  fetchTimeoutMs : limits.fetchTimeoutMs ≤ other.fetchTimeoutMs
  fetchMaxBytes : limits.fetchMaxBytes ≤ other.fetchMaxBytes
  fetchMaxRedirects : limits.fetchMaxRedirects ≤ other.fetchMaxRedirects
  maxPageSize : limits.maxPageSize ≤ other.maxPageSize

/-- The most that an agent is ever granted. -/
def agentCeiling : ExecutionLimits where
  maxProviderCalls := 2
  providerTimeoutMs := 2500
  searchTimeoutMs := 5000
  deepMaxFetches := 3
  deepMaxBytes := 2 * 1024 * 1024
  deepTimeoutMs := 10000
  deepMaxSubqueries := 1
  deepMaxSubqueryCost := 1
  fetchTimeoutMs := 3000
  fetchMaxBytes := 256 * 1024
  fetchMaxRedirects := 2
  maxPageSize := 25

theorem min_le_left_u32 (a b : UInt32) : min a b ≤ a := by
  rw [UInt32.le_iff_toNat_le, toNat_min_u32]
  exact Nat.min_le_left _ _

theorem min_le_right_u32 (a b : UInt32) : min a b ≤ b := by
  rw [UInt32.le_iff_toNat_le, toNat_min_u32]
  exact Nat.min_le_right _ _

theorem min_le_left_u64 (a b : UInt64) : min a b ≤ a := by
  rw [UInt64.le_iff_toNat_le, toNat_min_u64]
  exact Nat.min_le_left _ _

theorem min_le_right_u64 (a b : UInt64) : min a b ≤ b := by
  rw [UInt64.le_iff_toNat_le, toNat_min_u64]
  exact Nat.min_le_right _ _

theorem AtMost.refl (limits : ExecutionLimits) : limits.AtMost limits := by
  constructor <;> simp

theorem forSurface_atMost_base (config : Config) (surface : ServiceSurfaceKind) :
    (forSurface config surface).AtMost (base config) := by
  cases surface with
  | cli => exact .refl _
  | api => exact .refl _
  | mcp => constructor <;> first | apply min_le_left_u32 | apply min_le_left_u64

theorem forSurface_mcp_atMost (config : Config) : (forSurface config .mcp).AtMost agentCeiling := by
  constructor <;> first | apply min_le_right_u32 | apply min_le_right_u64

end ExecutionLimits

/-! What is selected. -/

namespace DeepService

variable {service : DeepService} {Url : Type} [UrlCrate Url]

def addressOf (candidate : DeepCandidate Url) : String := asStr candidate.result.canonicalUrl

/-- The candidate stands for the first of the targets with its address. -/
def StandsFor (service : DeepService) (targets : List DeepTarget)
    (candidate : DeepCandidate Url) : Prop :=
  ∃ before target after, ∃ original canonical : Url, ∃ domain, targets = before ++ target :: after ∧
    service.targetUrls target = .ok (original, canonical) ∧ hostStr canonical = some domain ∧
    candidate = service.targetCandidate target original canonical candidate.result.rank domain ∧
    ∀ other ∈ before, ∀ original' canonical' : Url,
      service.targetUrls other = .ok (original', canonical') → asStr canonical' ≠ asStr canonical

/-- One candidate for each address among the targets, ranked in the order of their
first occurrences. -/
structure SelectedFrom (service : DeepService) (targets : List DeepTarget)
    (candidates : List (DeepCandidate Url)) : Prop where
  covered : ∀ target ∈ targets, ∃ original canonical : Url,
    service.targetUrls target = .ok (original, canonical) ∧
      asStr canonical ∈ candidates.map addressOf
  stands : ∀ candidate ∈ candidates, StandsFor service targets candidate
  distinct : (candidates.map addressOf).Nodup
  ranked : ∀ (i : Nat) (candidate : DeepCandidate Url), candidates[i]? = some candidate →
    candidate.result.rank.value.toNat = i + 1
  few : candidates.length ≤ targets.length

structure SelectionSound (service : DeepService) (targets : List DeepTarget)
    (selection : Selection Url) : Prop extends
    SelectedFrom service targets selection.candidates where
  seen : ∀ url, url ∈ selection.seen ↔ url ∈ selection.candidates.map addressOf

theorem addTarget_cases {selection selection' : Selection Url} {target : DeepTarget}
    (h : service.addTarget selection target = .ok selection') :
    ∃ original canonical, service.targetUrls target = .ok (original, canonical) ∧
      (asStr canonical ∈ selection.seen ∧ selection' = selection ∨
        asStr canonical ∉ selection.seen ∧ ∃ rank domain,
          Rank.new (selection.candidates.length.toUInt32 + 1) = some rank ∧
          hostStr canonical = some domain ∧
          selection' = ⟨OrdMap.setInsert (asStr canonical) selection.seen,
            selection.candidates ++
              [service.targetCandidate target original canonical rank domain]⟩) := by
  unfold addTarget at h
  split at h
  · cases h
  · rename_i original canonical accepted
    refine ⟨original, canonical, accepted, ?_⟩
    split at h
    · rename_i known
      cases h
      exact .inl ⟨OrdMap.setContains_iff.mp known, rfl⟩
    · rename_i unknown
      split at h
      · rename_i rank domain ranked hosted
        cases h
        exact .inr ⟨fun known => unknown (OrdMap.setContains_iff.mpr known), rank, domain, ranked,
          hosted, rfl⟩
      · cases h

theorem StandsFor.append {targets : List DeepTarget} {candidate : DeepCandidate Url}
    (stands : StandsFor service targets candidate) (more : List DeepTarget) :
    StandsFor service (targets ++ more) candidate := by
  obtain ⟨before, target, after, original, canonical, domain, rfl, rest⟩ := stands
  exact ⟨before, target, after ++ more, original, canonical, domain, by simp, rest⟩

theorem SelectionSound.start : SelectionSound service [] (⟨[], []⟩ : Selection Url) where
  covered := by simp
  stands := by simp
  distinct := List.nodup_nil
  ranked := by simp
  few := Nat.le_refl _
  seen := by simp

theorem SelectionSound.addTarget {targets : List DeepTarget} {selection selection' : Selection Url}
    {target : DeepTarget} (sound : SelectionSound service targets selection)
    (room : targets.length + 1 < 2 ^ 32)
    (h : service.addTarget selection target = .ok selection') :
    SelectionSound service (targets ++ [target]) selection' := by
  obtain ⟨original, canonical, accepted, ⟨known, rfl⟩ | ⟨unknown, rank, domain, made, hosted, rfl⟩⟩ :=
    addTarget_cases h
  · have few := sound.few
    refine ⟨⟨?_, fun candidate mem => (sound.stands candidate mem).append _, sound.distinct,
      sound.ranked, by simp only [List.length_append, List.length_singleton]; omega⟩, sound.seen⟩
    intro other mem
    rcases List.mem_append.mp mem with earlier | last
    · exact sound.covered other earlier
    · rw [List.mem_singleton.mp last]
      exact ⟨original, canonical, accepted, (sound.seen _).mp known⟩
  · have few := sound.few
    have fresh : asStr canonical ∉ selection.candidates.map addressOf :=
      fun mem => unknown ((sound.seen _).mpr mem)
    obtain ⟨rank', made', value⟩ := Rank.new_index (i := selection.candidates.length) (by omega)
    obtain rfl : rank = rank' := Option.some.inj (made.symm.trans made')
    refine ⟨⟨?_, ?_, ?_, ?_, by simp only [List.length_append, List.length_singleton]; omega⟩, ?_⟩
    · intro other mem
      rcases List.mem_append.mp mem with earlier | last
      · obtain ⟨original', canonical', accepted', covered⟩ := sound.covered other earlier
        exact ⟨original', canonical', accepted', by
          rw [List.map_append]
          exact List.mem_append_left _ covered⟩
      · rw [List.mem_singleton.mp last]
        exact ⟨original, canonical, accepted, by simp [addressOf, targetCandidate]⟩
    · intro candidate mem
      rcases List.mem_append.mp mem with earlier | last
      · exact (sound.stands candidate earlier).append _
      · obtain rfl := List.mem_singleton.mp last
        refine ⟨targets, target, [], original, canonical, domain, rfl, accepted, hosted, rfl, ?_⟩
        intro other earlier original' canonical' accepted' same
        obtain ⟨original₂, canonical₂, accepted₂, covered⟩ := sound.covered other earlier
        rw [accepted'] at accepted₂
        cases accepted₂
        exact fresh (same ▸ covered)
    · rw [List.map_append, List.nodup_append]
      refine ⟨sound.distinct, by simp, ?_⟩
      intro url there url' last same
      have last : url' = asStr canonical := by simpa [addressOf, targetCandidate] using last
      exact fresh (last ▸ same ▸ there)
    · intro i candidate there
      by_cases old : i < selection.candidates.length
      · rw [List.getElem?_append_left old] at there
        exact sound.ranked i candidate there
      · rw [List.getElem?_append_right (by omega)] at there
        obtain ⟨zero, rfl⟩ : i - selection.candidates.length = 0 ∧
            service.targetCandidate target original canonical rank domain = candidate := by
          cases at_ : i - selection.candidates.length with
          | zero => exact ⟨rfl, by simpa [at_] using there⟩
          | succ n => simp [at_] at there
        rw [show i = selection.candidates.length by omega]
        exact value
    · intro url
      simp only [OrdMap.mem_setInsert, List.map_append, List.mem_append, sound.seen]
      simp only [List.map_cons, List.map_nil, List.mem_singleton, addressOf, targetCandidate]
      tauto

theorem foldlM_addTarget {earlier targets : List DeepTarget} {selection selection' : Selection Url}
    (sound : SelectionSound service earlier selection)
    (room : earlier.length + targets.length < 2 ^ 32)
    (h : targets.foldlM service.addTarget selection = .ok selection') :
    SelectionSound service (earlier ++ targets) selection' := by
  induction targets generalizing earlier selection with
  | nil =>
    cases h
    simpa using sound
  | cons target targets ih =>
    rw [List.foldlM_cons] at h
    cases added : service.addTarget selection target with
    | error error =>
      rw [added] at h
      cases h
    | ok next =>
      rw [added] at h
      simp only [List.length_cons] at room
      have later := ih (sound.addTarget (by omega) added)
        (by simp only [List.length_append, List.length_singleton]; omega) h
      simpa using later

theorem selectTargets_ok {targets : List DeepTarget} {candidates : List (DeepCandidate Url)}
    (h : service.selectTargets targets = .ok candidates) :
    targets ≠ [] ∧ targets.length ≤ service.config.deep.topK.toNat ∧
      SelectedFrom service targets candidates := by
  unfold selectTargets at h
  split at h
  · cases h
  · rename_i bounded
    simp only [Bool.or_eq_true, List.isEmpty_iff, decide_eq_true_eq, not_or, not_lt] at bounded
    split at h
    · cases h
    · rename_i selection folded
      split at h
      · cases h
      · cases h
        have small := service.config.deep.topK.toNat_lt
        have sound := foldlM_addTarget .start (by simp only [List.length_nil]; omega) folded
        exact ⟨bounded.1, bounded.2, sound.toSelectedFrom⟩

/-- A target with an address that is accepted and a host of its own. -/
def Acceptable (service : DeepService) (Url : Type) [UrlCrate Url] (target : DeepTarget) : Prop :=
  ∃ original canonical : Url, ∃ domain,
    service.targetUrls target = .ok (original, canonical) ∧ hostStr canonical = some domain

theorem addTarget_accepts (selection : Selection Url) {target : DeepTarget}
    (acceptable : Acceptable service Url target) (room : selection.candidates.length + 1 < 2 ^ 32) :
    ∃ selection', service.addTarget selection target = .ok selection' ∧
      selection'.candidates.length ≤ selection.candidates.length + 1 ∧
      (selection.candidates = [] → selection.seen = [] → selection'.candidates ≠ []) ∧
      (selection.candidates ≠ [] → selection'.candidates ≠ []) := by
  obtain ⟨original, canonical, domain, accepted, hosted⟩ := acceptable
  obtain ⟨rank, made, -⟩ := Rank.new_index room
  simp only [addTarget, accepted]
  by_cases known : OrdMap.setContains (asStr canonical) selection.seen = true
  · refine ⟨selection, if_pos known, Nat.le_succ _, fun _ empty => ?_, id⟩
    rw [empty] at known
    cases known
  · rw [if_neg known, made, hosted]
    exact ⟨_, rfl, by simp, fun _ _ => by simp, fun _ => by simp⟩

theorem foldlM_addTarget_accepts {targets : List DeepTarget} (selection : Selection Url)
    (acceptable : ∀ target ∈ targets, Acceptable service Url target)
    (room : selection.candidates.length + targets.length < 2 ^ 32)
    (some : selection.candidates ≠ []) :
    ∃ selection', targets.foldlM service.addTarget selection = .ok selection' ∧
      selection'.candidates ≠ [] := by
  induction targets generalizing selection with
  | nil => exact ⟨selection, rfl, some⟩
  | cons target targets ih =>
    simp only [List.length_cons] at room
    obtain ⟨next, added, longer, -, more⟩ :=
      addTarget_accepts selection (acceptable target List.mem_cons_self) (by omega)
    obtain ⟨last, folded, nonempty⟩ := ih next
      (fun other mem => acceptable other (List.mem_cons_of_mem _ mem)) (by omega) (more some)
    refine ⟨last, ?_, nonempty⟩
    rw [List.foldlM_cons, added]
    exact folded

theorem selectTargets_accepts {targets : List DeepTarget} (some : targets ≠ [])
    (few : targets.length ≤ service.config.deep.topK.toNat)
    (acceptable : ∀ target ∈ targets, Acceptable service Url target) :
    ∃ candidates : List (DeepCandidate Url), service.selectTargets targets = .ok candidates := by
  have small := service.config.deep.topK.toNat_lt
  cases targets with
  | nil => exact absurd rfl some
  | cons target targets =>
    simp only [List.length_cons] at few
    obtain ⟨first, added, one, fresh, -⟩ := addTarget_accepts ⟨[], []⟩
      (acceptable target List.mem_cons_self) (by simp)
    simp only [List.length_nil] at one
    obtain ⟨last, folded, nonempty⟩ := foldlM_addTarget_accepts first
      (fun other mem => acceptable other (List.mem_cons_of_mem _ mem)) (by omega) (fresh rfl rfl)
    have whole : (target :: targets).foldlM service.addTarget (⟨[], []⟩ : Selection Url) =
        .ok last := by
      rw [List.foldlM_cons, added]
      exact folded
    have bounded : ¬ ((target :: targets).isEmpty ||
        decide (service.config.deep.topK.toNat < (target :: targets).length)) = true := by
      simp only [List.isEmpty_cons, Bool.false_or, decide_eq_true_eq, List.length_cons]
      omega
    refine ⟨last.candidates, ?_⟩
    rw [selectTargets, if_neg bounded, whole]
    simp [nonempty]

/-- The candidates go through `deep_from_search` as they are. -/
theorem deepCandidates_selected {targets : List DeepTarget} {candidates : List (DeepCandidate Url)}
    (stands : ∀ candidate ∈ candidates, StandsFor service targets candidate) :
    deepCandidates service.mock service.config.providers
      (candidates.map (fun candidate => candidate.result)) = candidates := by
  rw [deepCandidates, List.map_map]
  conv_rhs => rw [← List.map_id candidates]
  apply List.map_congr_left
  intro candidate mem
  obtain ⟨before, target, after, original, canonical, domain, -, -, -, made, -⟩ :=
    stands candidate mem
  rw [made]
  simp [targetCandidate]

end DeepService

/-! What a run spends. -/

theorem perFetchShare_eq_some {bytes share : UInt64} {fetches : UInt32}
    (h : perFetchShare bytes fetches = some share) :
    share.toNat * fetches.toNat ≤ max bytes.toNat fetches.toNat := by
  unfold perFetchShare at h
  split at h
  · cases h
  · cases h
    have divided : (bytes / fetches.toUInt64).toNat * fetches.toNat ≤ bytes.toNat := by
      rw [UInt64.toNat_div, UInt32.toNat_toUInt64]
      exact Nat.div_mul_le_self _ _
    generalize bytes / fetches.toUInt64 = share at divided ⊢
    rw [show max share 1 = if share ≤ 1 then 1 else share from rfl]
    split
    · rw [UInt64.toNat_one, Nat.one_mul]
      exact Nat.le_max_right _ _
    · exact divided.trans (Nat.le_max_left _ _)

section

variable {σ Url : Type} [UrlCrate Url] [Sha256Hex] [ScraperCrate] [DocumentJson Url]

/-- A page is requested with no more than the orchestrator grants to one fetch. -/
def Granted (o : DeepOrchestrator) (page : Issued Url) : Prop :=
  page.request.timeoutMs ≤ o.timeoutMs ∧ page.request.maxBytes ≤ o.perFetchBytes ∧
    page.request.maxRedirects ≤ o.maxRedirects

omit [UrlCrate Url] [Sha256Hex] [ScraperCrate] [DocumentJson Url] in
theorem granted_fetchRequest (o : DeepOrchestrator) (deadline : Nat) (pass : Pass)
    (candidate : DeepCandidate Url) (remaining : UInt64) (redirects : UInt32)
    (known : Option (Document Url)) (moment connections : Nat) :
    Granted o ⟨moment, fetchRequest o deadline pass candidate remaining redirects known,
      connections⟩ := by
  refine ⟨?_, ExecutionLimits.min_le_right_u64 _ _, ExecutionLimits.min_le_right_u32 _ _⟩
  rw [UInt64.le_iff_toNat_le]
  have small := o.timeoutMs.toNat_lt
  simp only [fetchRequest, fetchTimeout, UInt64.toNat_ofNat']
  omega

theorem crawlPass_granted (o : DeepOrchestrator) (fetch : Fetcher σ Url) (deadline : Nat)
    (pass : Pass) (s : Crawl σ Url) (granted : ∀ page ∈ s.pages, Granted o page) :
    (crawlPass o fetch deadline pass s).All (fun t => ∀ page ∈ t.pages, Granted o page) := by
  cases crawlPass_passed o fetch deadline pass s with
  | idle empty unasked after =>
    rw [after]
    exact granted
  | late candidate depth queue notes head expired unasked after =>
    rw [after]
    exact granted
  | refused candidate depth queue entries fetcher notes out paid head early unasked turned =>
    rcases turned with again | done
    · rw [again]
      exact granted
    · rw [done]
      exact granted
  | asked candidate depth queue entries fetcher notes out paid reserved rows request t head
      early reservation prepared issued received after =>
    rw [after]
    obtain ⟨hpages, -⟩ := received.requests
    obtain ⟨known, rfl⟩ := prepared
    intro page mem
    rw [hpages] at mem
    rcases List.mem_append.mp mem with earlier | last
    · exact granted page earlier
    · rw [List.mem_singleton.mp last]
      exact granted_fetchRequest _ _ _ _ _ _ _ _ _

theorem enrich_granted (o : DeepOrchestrator) (fetch : Fetcher σ Url) (env : Surroundings Url)
    (request : DeepRequest Url) (budget : DeepBudget) (rows : List (DocumentRow Url))
    (entries : List (String × CacheEntry)) (fetcher : σ) :
    ∀ page ∈ (enrich o fetch env request budget rows entries fetcher).crawl.pages,
      Granted o page :=
  enrich_crawl (P := fun s => ∀ page ∈ s.pages, Granted o page)
    (fun _ _ _ mem => nomatch mem)
    (crawl_invariant (fun pass s => crawlPass_granted o fetch _ pass s) (fun _ mem => nomatch mem))

theorem enrich_accounted (o : DeepOrchestrator) (fetch : Fetcher σ Url) (env : Surroundings Url)
    (request : DeepRequest Url) (budget : DeepBudget) (rows : List (DocumentRow Url))
    (entries : List (String × CacheEntry)) (fetcher : σ) :
    Accounted budget (enrich o fetch env request budget rows entries fetcher).crawl :=
  enrich_crawl (fun _ _ => ⟨le_rfl, le_rfl, rfl, rfl, le_rfl, rfl, rfl, rfl⟩)
    (crawl_invariant (fun pass s => crawlPass_accounted o fetch _ budget pass s)
      (start_accounted o request budget rows entries fetcher))

namespace DeepService

/-- A run spends no more than the limits of its surface, `effective` fetches of them. -/
structure Run.Within (config : Config) (limits : ExecutionLimits) (effective : UInt32)
    (run : Run σ Url) : Prop where
  documents : run.enriched.crawl.documents.length ≤ effective.toNat
  bytes : bytesOf run.enriched.crawl.consumed ≤ limits.deepMaxBytes.toNat
  redirects : redirectsOf run.enriched.crawl.consumed ≤ config.deep.maxRedirects.toNat
  subqueries : (ranSubqueries run.enriched.subqueries).length ≤
    min limits.deepMaxSubqueries.toNat 2
  cost : totalCost (ranSubqueries run.enriched.subqueries) ≤ limits.deepMaxSubqueryCost.toNat
  pages : ∀ page ∈ run.enriched.crawl.pages,
    page.request.timeoutMs.toNat ≤ limits.deepTimeoutMs.toNat ∧
      page.request.maxBytes.toNat * effective.toNat ≤
        max limits.deepMaxBytes.toNat effective.toNat ∧
      page.request.maxRedirects.toNat ≤ config.deep.maxRedirects.toNat

theorem deepFromSearch_within (service : DeepService) {surface : ServiceSurfaceKind}
    {maxFetches : Option UInt32} {selection : Except ServiceError ProviderSelection}
    {query : Query} {planNormalizedQuery : String} {elapsedMs : UInt64}
    {results : List (SearchResult Url)} {fetch : Fetcher σ Url} {env : Surroundings Url}
    {rows : List (DocumentRow Url)} {fetcher : σ} {run : Run σ Url}
    (h : service.deepFromSearch surface maxFetches selection query planNormalizedQuery elapsedMs
      results fetch env rows fetcher = some (.ok run)) :
    let limits := ExecutionLimits.forSurface service.config surface
    run.request.candidates = deepCandidates service.mock service.config.providers results ∧
      run.Within service.config limits (maxFetches.getD limits.deepMaxFetches) := by
  intro limits
  obtain ⟨share, hshare, made⟩ := Option.map_eq_some_iff.mp h
  split at made
  · cases made
  · cases made
  · cases made
    refine ⟨rfl, ?_⟩
    generalize heffective : maxFetches.getD limits.deepMaxFetches = effective
    rw [heffective] at hshare
    generalize hremaining : (if elapsedMs < limits.deepTimeoutMs then
      limits.deepTimeoutMs - elapsedMs else 0) = remainingMs
    have left : remainingMs.toNat ≤ limits.deepTimeoutMs.toNat := by
      rw [← hremaining]
      split
      · rename_i earlier
        rw [UInt64.toNat_sub_of_le _ _ (UInt64.le_of_lt earlier)]
        exact Nat.sub_le _ _
      · exact Nat.zero_le _
    generalize henv : service.surround limits env = surrounded
    generalize hrequest : (⟨query, planNormalizedQuery,
      deepCandidates service.mock service.config.providers results⟩ : DeepRequest Url) = request
    generalize ho : service.orchestrator share remainingMs = o
    generalize hbudget : service.deepBudget limits effective remainingMs = budget
    have account := enrich_accounted o fetch surrounded request budget rows [] fetcher
    have granted := enrich_granted o fetch surrounded request budget rows [] fetcher
    obtain ⟨r, rationed, -, ran⟩ :=
      enrich_rationed o fetch surrounded request budget rows [] fetcher
    generalize enrich o fetch surrounded request budget rows [] fetcher = enriched at *
    have fetches := account.fetches
    have bytes := account.bytes
    have redirects := account.redirects
    have count := rationed.count
    have cost := rationed.cost
    rw [account.subqueries, ran] at count
    rw [account.cost, ran] at cost
    rw [← hbudget] at fetches bytes redirects count cost
    have queries : (min limits.deepMaxSubqueries 2).toNat = min limits.deepMaxSubqueries.toNat 2 :=
      toNat_min_u32 _ _
    simp only [deepBudget, DeepBudget.new, withGapLimits] at fetches bytes redirects count cost
    refine ⟨by simp only; omega, by simp only; omega, by simp only; omega, by simp only; omega,
      by simp only; omega, ?_⟩
    intro page mem
    obtain ⟨timeout, most, follows⟩ := granted page mem
    rw [← ho] at timeout most follows
    rw [UInt64.le_iff_toNat_le] at timeout most
    rw [UInt32.le_iff_toNat_le] at follows
    refine ⟨timeout.trans left, ?_, follows⟩
    exact (Nat.mul_le_mul_right _ most).trans (perFetchShare_eq_some hshare)

/-- A request for Deep over selected targets that is not turned down. -/
structure Admissible (service : DeepService) (Url : Type) [UrlCrate Url]
    (limits : ExecutionLimits) (maxFetches : Option UInt32)
    (selection : Except ServiceError ProviderSelection) (rawQuery : String)
    (targets : List DeepTarget) : Prop where
  cap : validateDeepFetchCap maxFetches limits.deepMaxFetches = .ok ()
  some : targets ≠ []
  few : targets.length ≤ service.config.deep.topK.toNat
  query : ∃ query, parseQuery rawQuery = .ok query
  acceptable : ∀ target ∈ targets, Acceptable service Url target
  ranking : ∃ pending, service.rankingReady = .ok pending
  gaps : service.gapsReady limits selection = .ok ()

omit [UrlCrate Url] [Sha256Hex] [ScraperCrate] [DocumentJson Url] in
theorem validateDeepFetchCap_ok {cap maximum : UInt32}
    (h : validateDeepFetchCap (some cap) maximum = .ok ()) : cap ≠ 0 ∧ cap ≤ maximum := by
  unfold validateDeepFetchCap at h
  split at h
  · cases h
  · rename_i within
    simp only [Option.any_some, Bool.or_eq_true, beq_iff_eq, decide_eq_true_eq, not_or] at within
    exact ⟨within.1, UInt32.not_lt.mp within.2⟩

omit [Sha256Hex] [ScraperCrate] [DocumentJson Url] in
/-- On a valid configuration every surface may make a fetch. -/
theorem deepMaxFetches_ne_zero [TimeCrate] [HttpCrate] {config : Config}
    (valid : config.validate Url = .ok ()) (surface : ServiceSurfaceKind) :
    (ExecutionLimits.forSurface config surface).deepMaxFetches ≠ 0 := by
  have deep := (Config.validate_eq_ok.mp valid).2.2.2.2.2.2.2.2.2.2.2.2.1
  have positive : config.deep.maxFetches ≠ 0 := by
    intro zero
    simp [Config.validateDeep, check_bind_eq_ok, reject_eq_ok, outside, zero] at deep
  cases surface with
  | cli => exact positive
  | api => exact positive
  | mcp =>
    intro zero
    have three : (min config.deep.maxFetches 3).toNat = min config.deep.maxFetches.toNat 3 :=
      toNat_min_u32 _ _
    have none : (min config.deep.maxFetches 3).toNat = 0 := UInt32.toNat_inj.mpr zero
    exact positive (UInt32.toNat_inj.mp (show config.deep.maxFetches.toNat = 0 by omega))

/-- A request is turned down, or its candidates go to `deep_from_search`. -/
theorem deepSelected_cases (service : DeepService) (surface : ServiceSurfaceKind)
    (maxFetches : Option UInt32) (selection : Except ServiceError ProviderSelection)
    (rawQuery : String) (targets : List DeepTarget) (fetch : Fetcher σ Url)
    (env : Surroundings Url) (rows : List (DocumentRow Url)) (fetcher : σ) :
    let limits := ExecutionLimits.forSurface service.config surface
    let answer := service.deepSelected surface maxFetches selection rawQuery targets fetch env rows
      fetcher
    (∃ failure, answer = some (.error failure) ∧
        ¬ Admissible service Url limits maxFetches selection rawQuery targets) ∨
      ∃ (query : ParsedQuery) (candidates : List (DeepCandidate Url)),
        validateDeepFetchCap maxFetches limits.deepMaxFetches = .ok () ∧
        service.selectTargets targets = .ok candidates ∧
        answer = service.deepFromSearch surface maxFetches selection query.toQuery
          query.normalizedQuery 0 (candidates.map (fun candidate => candidate.result)) fetch env
          rows fetcher := by
  intro limits answer
  simp only [answer, deepSelected]
  split
  · rename_i error refused
    refine .inl ⟨_, rfl, fun admissible => ?_⟩
    rw [admissible.cap] at refused
    cases refused
  · rename_i allowed
    split
    · rename_i bounded
      refine .inl ⟨_, rfl, fun admissible => ?_⟩
      have few := admissible.few
      simp only [Bool.or_eq_true, List.isEmpty_iff, decide_eq_true_eq] at bounded
      rcases bounded with none | many
      · exact admissible.some none
      · omega
    · split
      · rename_i error malformed
        refine .inl ⟨_, rfl, fun admissible => ?_⟩
        obtain ⟨query, parsed⟩ := admissible.query
        rw [parsed] at malformed
        cases malformed
      · rename_i query parsed
        split
        · rename_i error refused
          refine .inl ⟨_, rfl, fun admissible => ?_⟩
          obtain ⟨candidates, accepted⟩ :=
            selectTargets_accepts admissible.some admissible.few admissible.acceptable
          rw [accepted] at refused
          cases refused
        · rename_i candidates selected
          exact .inr ⟨query, candidates, allowed, selected, rfl⟩

/-- Deep over results does not panic where a fetch is granted, and runs where its parts are
ready. -/
theorem deepFromSearch_runs (service : DeepService) (surface : ServiceSurfaceKind)
    {maxFetches : Option UInt32} (selection : Except ServiceError ProviderSelection)
    (query : Query) (planNormalizedQuery : String) (elapsedMs : UInt64)
    (results : List (SearchResult Url)) (fetch : Fetcher σ Url) (env : Surroundings Url)
    (rows : List (DocumentRow Url)) (fetcher : σ)
    (granted : maxFetches.getD
      (ExecutionLimits.forSurface service.config surface).deepMaxFetches ≠ 0) :
    ∃ outcome, service.deepFromSearch surface maxFetches selection query planNormalizedQuery
        elapsedMs results fetch env rows fetcher = some outcome ∧
      ((∃ pending, service.rankingReady = .ok pending) →
        service.gapsReady (ExecutionLimits.forSurface service.config surface) selection = .ok () →
        ∃ run, outcome = .ok run) := by
  simp only [deepFromSearch, perFetchShare, if_neg granted, Option.map_some]
  refine ⟨_, rfl, ?_⟩
  rintro ⟨pending, ranking⟩ gaps
  rw [ranking, gaps]
  exact ⟨_, rfl⟩

/-- Deep over selected targets on every surface of a valid configuration: the surface
grants no more than the configuration does, and an agent no more than its ceiling. A
request never panics and is taken up if it is admissible. A run is over one candidate
for each address among the targets, ranked in their order, and spends no more than the
surface grants and the request left of it. -/
theorem deepSelected_governed [TimeCrate] [HttpCrate] (service : DeepService)
    (valid : service.config.validate Url = .ok ()) (surface : ServiceSurfaceKind)
    (maxFetches : Option UInt32) (selection : Except ServiceError ProviderSelection)
    (rawQuery : String) (targets : List DeepTarget) (fetch : Fetcher σ Url)
    (env : Surroundings Url) (rows : List (DocumentRow Url)) (fetcher : σ) :
    let limits := ExecutionLimits.forSurface service.config surface
    let effective := maxFetches.getD limits.deepMaxFetches
    limits.AtMost (.base service.config) ∧ (surface = .mcp → limits.AtMost .agentCeiling) ∧
      ∃ outcome, service.deepSelected surface maxFetches selection rawQuery targets fetch env rows
          fetcher = some outcome ∧
        (Admissible service Url limits maxFetches selection rawQuery targets →
          ∃ run, outcome = .ok run) ∧
        ∀ run, outcome = .ok run → effective ≠ 0 ∧ effective ≤ limits.deepMaxFetches ∧
          targets.length ≤ service.config.deep.topK.toNat ∧
          SelectedFrom service targets run.request.candidates ∧
          run.Within service.config limits effective := by
  intro limits effective
  refine ⟨ExecutionLimits.forSurface_atMost_base _ _, ?_, ?_⟩
  · rintro rfl
    exact ExecutionLimits.forSurface_mcp_atMost _
  rcases service.deepSelected_cases surface maxFetches selection rawQuery targets fetch env rows
    fetcher with ⟨failure, answer, refused⟩ | ⟨query, candidates, cap, selected, answer⟩
  · exact ⟨_, answer, fun admissible => absurd admissible refused, fun run h => nomatch h⟩
  have granted : effective ≠ 0 ∧ effective ≤ limits.deepMaxFetches := by
    cases maxFetches with
    | none => exact ⟨deepMaxFetches_ne_zero valid surface, UInt32.le_refl _⟩
    | some requested => exact validateDeepFetchCap_ok cap
  obtain ⟨-, few, sound⟩ := selectTargets_ok selected
  obtain ⟨outcome, made, runs⟩ := service.deepFromSearch_runs surface selection query.toQuery
    query.normalizedQuery 0 (candidates.map (fun candidate => candidate.result)) fetch env rows
    fetcher granted.1
  refine ⟨outcome, answer.trans made, fun admissible => runs admissible.ranking admissible.gaps, ?_⟩
  rintro run rfl
  obtain ⟨same, within⟩ := service.deepFromSearch_within made
  refine ⟨granted.1, granted.2, few, ?_, within⟩
  rw [same, deepCandidates_selected sound.stands]
  exact sound

end DeepService

end

/-- The default configuration with the providers it declares. -/
def declaredService : DeepService where
  config := .default
  mock := false
  registered name := name == "brave"
  storage := false
  storageDegradation := none
  inference := none
  rendererAvailable := false

def repeatedTargets : List DeepTarget :=
  [⟨"https://example.com/b", none, "brave"⟩, ⟨"https://example.com/", none, "brave"⟩,
    ⟨"https://example.com/b", some "again", "brave"⟩]

/-- Of three targets two are one page: an agent gets two documents. -/
theorem repeatedTargets_governed :
    letI := sampleHex
    letI := plainPages
    letI := plainJson PageUrl
    ∃ run, declaredService.deepSelected .mcp none (.ok ⟨[], []⟩) "example" repeatedTargets
        (siteFetch twoPages) (stillRun PageUrl) [] () = some (.ok run) ∧
      run.request.candidates.map DeepService.addressOf =
        ["https://example.com/b", "https://example.com/"] ∧
      run.enriched.crawl.documents.length = 2 ∧
      run.Within .default (.forSurface .default .mcp) 3 := by
  let _ := sampleHex
  let _ := plainPages
  let _ := plainJson PageUrl
  let _ := noDates
  let _ := plainHeaders
  obtain ⟨-, -, outcome, answer, -, bounds⟩ := DeepService.deepSelected_governed declaredService
    (show declaredService.config.validate PageUrl = .ok () by decide +kernel) .mcp none
    (.ok ⟨[], []⟩) "example" repeatedTargets (siteFetch twoPages) (stillRun PageUrl) [] ()
  have computed : (declaredService.deepSelected .mcp none (.ok ⟨[], []⟩) "example" repeatedTargets
      (siteFetch twoPages) (stillRun PageUrl) [] ()).map (fun outcome => outcome.toOption.map
        (fun run => (run.request.candidates.map DeepService.addressOf,
          run.enriched.crawl.documents.length))) =
      some (some (["https://example.com/b", "https://example.com/"], 2)) := by decide +kernel
  rw [answer] at computed
  cases outcome with
  | error failure => cases computed
  | ok run =>
    obtain ⟨addresses, documents⟩ := Prod.mk.inj (Option.some.inj (Option.some.inj computed))
    obtain ⟨-, -, -, -, within⟩ := bounds run rfl
    exact ⟨run, answer, addresses, documents, within⟩

end Amatl
