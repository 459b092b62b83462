import Amatl.Progressive

/-! Adaptive routing: which providers are candidates, in which order, and who
takes part in the first round. The telemetry is what it reports for a provider
and a category at the time of routing. -/

namespace Amatl

open StableSort

structure ProviderCapabilities where
  pagination : Bool
  language : Bool
  region : Bool
  timeRange : Bool
  siteFilter : Bool
  fileFilter : Bool
  news : Bool
  code : Bool
  docs : Bool
  academic : Bool
  authentication : Bool
  estimatedCost : Option UInt64
  deriving DecidableEq, Repr

structure ProviderDescriptor where
  name : String
  capabilities : ProviderCapabilities
  available : Bool
  deriving DecidableEq, Repr

inductive ProviderValueState where
  | bootstrap | learning | mature
  deriving DecidableEq, Repr

inductive ProviderHealth where
  | healthy | degraded | unavailable
  deriving DecidableEq, Repr

/-- The telemetry figures routing reads. -/
structure ProviderValueSnapshot where
  state : ProviderValueState
  health : ProviderHealth
  sample : UInt64
  successRate : ℚ
  timeoutRate : ℚ
  averageLatencyMs : ℚ
  averageCostUnits : ℚ
  averageUniqueResults : ℚ
  duplicateRatio : ℚ
  topKContribution : ℚ
  diversity : ℚ
  deriving DecidableEq

inductive ProviderRole where
  | primary | expansion
  deriving DecidableEq, Repr

structure RoleAssignment where
  active : Bool
  primaryProvider : String
  expansionProviders : List String
  deriving DecidableEq, Repr

def RoleAssignment.legacy : RoleAssignment := ⟨false, "", []⟩

def RoleAssignment.roleOf (roles : RoleAssignment) (name : String) : Option ProviderRole :=
  if !roles.active then none
  else if name = roles.primaryProvider then some .primary
  else if roles.expansionProviders.contains name then some .expansion
  else none

structure AdaptiveRoutingRecommendation where
  orderedProviders : List String
  firstRoundProviders : List String
  expectedMarginalGainByProvider : List (String × ℚ)
  fallback : Bool
  providerRoles : List (String × ProviderRole)
  primaryProvider : Option String
  expansionProviders : List String
  debugReasons : List String
  deriving DecidableEq

def supportsRequiredFilters (query : Query) (capabilities : ProviderCapabilities) : Bool :=
  (query.domains.isEmpty || capabilities.siteFilter) &&
    (query.fileTypes.isEmpty || capabilities.fileFilter) &&
    (query.language.isNone || capabilities.language) &&
    (query.region.isNone || capabilities.region) &&
    (query.dateFrom.isNone && query.dateTo.isNone || capabilities.timeRange)

def capabilityRelevance (category : Category) (capabilities : ProviderCapabilities) : ℚ :=
  let relevant := match category with
    | .code => capabilities.code
    | .documentation => capabilities.docs
    | .news => capabilities.news
    | .academic => capabilities.academic
    | _ => false
  if relevant then 1 else 0

def expectedMarginalGain (snapshot : ProviderValueSnapshot) : ℚ :=
  if snapshot.state = .bootstrap then 0
  else
    let usefulYield := snapshot.averageUniqueResults * (1 - snapshot.duplicateRatio)
    let boundedYield := usefulYield / (1 + usefulYield)
    let quality := (snapshot.topKContribution + snapshot.diversity + snapshot.successRate) / 3
    let timeoutPenalty := (1 - snapshot.timeoutRate) ^ 2
    let latencyFactor := 1 / (1 + snapshot.averageLatencyMs / 3000)
    let costFactor := 1 / (1 + snapshot.averageCostUnits)
    max (boundedYield * quality * snapshot.successRate * timeoutPenalty * latencyFactor *
      costFactor) 0

structure ScoredProvider where
  index : Nat
  name : String
  snapshot : ProviderValueSnapshot
  expectedGain : ℚ
  explorationDue : Bool
  score : ℚ
  deriving DecidableEq

def compareScored : ScoredProvider → ScoredProvider → Ordering :=
  compareLex (fun left right => compareOfLessAndEq right.score left.score)
    (compareLex (compareOn (fun s => s.index)) (compareOn (fun s => s.name)))

def adaptiveWeight : ProviderValueState → ℚ
  | .bootstrap => 0
  | .learning => 1 / 4
  | .mature => 3 / 4

def healthPenalty : ProviderHealth → ℚ
  | .degraded => 1 / 2
  | .unavailable => 3 / 2
  | .healthy => 0

def scoreProvider (category : Category) (policy : SearchPolicyV1) (providerCount totalSamples : Nat)
    (index : Nat) (provider : ProviderDescriptor) (snapshot : ProviderValueSnapshot) :
    ScoredProvider :=
  let expectedGain := expectedMarginalGain snapshot
  let share : ℚ := snapshot.sample.toNat / totalSamples
  let explorationDue := 0 < totalSamples &&
    (snapshot.sample == 0 || F64.lt (.finite share) policy.minimumExplorationRatio)
  let base : ℚ := ((providerCount - index : Nat) : ℚ) * (1 / 100) +
    capabilityRelevance category provider.capabilities
  let explorationBoost : ℚ := if explorationDue then 2 else 0
  let costPenalty : ℚ := ((provider.capabilities.estimatedCost.getD 0).toNat : ℚ) * (5 / 100)
  { index, name := provider.name, snapshot, expectedGain, explorationDue,
    score := base + expectedGain * adaptiveWeight snapshot.state + explorationBoost -
      healthPenalty snapshot.health - costPenalty }

/-- Primary first, then the expansion tier and the rest, each in score order. -/
def orderByRole (roles : RoleAssignment) (scoreOrdered : List String) : List String :=
  if roles.active then
    scoreOrdered.filter (fun name => roles.roleOf name == some .primary) ++
      scoreOrdered.filter (fun name => roles.roleOf name == some .expansion) ++
      scoreOrdered.filter (fun name => roles.roleOf name == none)
  else scoreOrdered

def firstRound (policy : SearchPolicyV1) (roles : RoleAssignment) (primary : Option String)
    (ordered : List String) : List String :=
  if roles.active then
    match primary with
    | some primary => [primary]
    | none => ordered.take 1
  else ordered.take
    (min (min ordered.length policy.firstRoundMinProviders) policy.firstRoundMaxProviders)

def recommendWithRoles (query : Query) (category : Category) (providers : List ProviderDescriptor)
    (telemetry : String → Category → ProviderValueSnapshot) (policy : SearchPolicyV1)
    (roles : RoleAssignment) : AdaptiveRoutingRecommendation :=
  let policy := policy.effective
  let eligible := (providers.zipIdx.filter (fun p =>
    p.1.available && supportsRequiredFilters query p.1.capabilities)).map
      (fun p => (p.2, p.1, telemetry p.1.name category))
  let totalSamples := (eligible.map (fun e => e.2.2.sample.toNat)).sum
  let fallback := eligible.all (fun e => e.2.2.state == .bootstrap)
  let scored := sortBy compareScored (eligible.map (fun e =>
    scoreProvider category policy providers.length totalSamples e.1 e.2.1 e.2.2))
  let scoreOrdered := scored.map (fun s => s.name)
  let ordered := orderByRole roles scoreOrdered
  let expansion := if roles.active then
      scoreOrdered.filter (fun name => roles.roleOf name == some .expansion)
    else []
  let primary := if roles.active then
      scoreOrdered.find? (fun name => roles.roleOf name == some .primary)
    else none
  let roleReasons := if !roles.active then []
    else (match primary with
      | some primary => ["primary_provider:" ++ primary]
      | none => ["primary_provider_unavailable"]) ++
      (if expansion.isEmpty then [] else
        ["expansion_providers:" ++ String.intercalate "," expansion])
  { orderedProviders := ordered
    firstRoundProviders := firstRound policy roles primary ordered
    expectedMarginalGainByProvider := OrdMap.ofList (scored.map (fun s => (s.name, s.expectedGain)))
    fallback
    providerRoles := OrdMap.ofList (scoreOrdered.filterMap (fun name =>
      (roles.roleOf name).map (fun role => (name, role))))
    primaryProvider := primary
    expansionProviders := expansion
    debugReasons :=
      [if fallback then "bootstrap_static_routing" else "provider_value_adaptive_routing"] ++
        roleReasons ++ (scored.filter (fun s => s.explorationDue)).map
          (fun s => "minimum_exploration:" ++ s.name) }

end Amatl
