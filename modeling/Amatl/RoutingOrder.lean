import Amatl.Router
import Mathlib.Data.List.Nodup
import Mathlib.Tactic.Tauto

/-! The order in which the adaptive router puts the providers. It loses no eligible provider and
names each of the others as excluded; roles come before scores, and scores order each tier. -/

namespace Amatl

open StableSort

/-- A recommendation with what is said of every provider, taken or not. -/
structure RoutingDecision extends AdaptiveRoutingRecommendation where
  providerBudgetRequests : List (String × Nat)
  providerStates : List (String × ProviderValueState)
  excludedProviders : List (String × String)
  deriving DecidableEq

def eligible (query : Query) (provider : ProviderDescriptor) : Bool :=
  provider.available && supportsRequiredFilters query provider.capabilities

def exclude (query : Query) (excluded : List (String × String)) (provider : ProviderDescriptor) :
    List (String × String) :=
  if !provider.available then OrdMap.insert provider.name "provider_unavailable" excluded
  else if !supportsRequiredFilters query provider.capabilities then
    OrdMap.insert provider.name "required_capability_missing" excluded
  else excluded

def excludedProviders (query : Query) (providers : List ProviderDescriptor) :
    List (String × String) :=
  providers.foldl (exclude query) []

def routingCandidates (query : Query) (category : Category) (providers : List ProviderDescriptor)
    (telemetry : String → Category → ProviderValueSnapshot) :
    List (Nat × ProviderDescriptor × ProviderValueSnapshot) :=
  (providers.zipIdx.filter (fun p => eligible query p.1)).map
    (fun p => (p.2, p.1, telemetry p.1.name category))

def scoredProviders (query : Query) (category : Category) (providers : List ProviderDescriptor)
    (telemetry : String → Category → ProviderValueSnapshot) (policy : SearchPolicyV1) :
    List ScoredProvider :=
  let candidates := routingCandidates query category providers telemetry
  let totalSamples := (candidates.map (fun e => e.2.2.sample.toNat)).sum
  sortBy compareScored (candidates.map (fun e =>
    scoreProvider category policy.effective providers.length totalSamples e.1 e.2.1 e.2.2))

def route (query : Query) (category : Category) (providers : List ProviderDescriptor)
    (telemetry : String → Category → ProviderValueSnapshot) (policy : SearchPolicyV1)
    (roles : RoleAssignment) : RoutingDecision :=
  let recommendation := recommendWithRoles query category providers telemetry policy roles
  let scored := scoredProviders query category providers telemetry policy
  { recommendation with
    providerBudgetRequests :=
      OrdMap.ofList (recommendation.orderedProviders.map (fun name => (name, 1)))
    providerStates := OrdMap.ofList (scored.map (fun s => (s.name, s.snapshot.state)))
    excludedProviders := excludedProviders query providers }

/-- The better score, and of equal scores the provider that was named first. -/
def Ahead (a b : ScoredProvider) : Prop :=
  b.score < a.score ∨ a.score = b.score ∧ a.index < b.index

instance : Std.TransCmp compareScored := by
  have reversed : compareScored =
      compareLex (fun left right => compare right.score left.score)
        (compareLex (compareOn (fun s => s.index)) (compareOn (fun s => s.name))) := by
    unfold compareScored
    simp only [LinearOrder.compare_eq_compareOfLessAndEq]
  have byScore : Std.TransCmp (fun left right : ScoredProvider => compare right.score left.score) :=
    inferInstanceAs (Std.TransCmp (fun left right : ScoredProvider =>
      compareOn (fun s => s.score) right left))
  rw [reversed]
  infer_instance

theorem ahead_of_below {a b : ScoredProvider} (below : Below compareScored a b)
    (apart : a.index ≠ b.index) : Ahead a b := by
  unfold Below compareScored compareLex at below
  dsimp only at below
  rw [← LinearOrder.compare_eq_compareOfLessAndEq] at below
  cases scores : compare b.score a.score with
  | lt => exact .inl (compare_lt_iff_lt.mp scores)
  | gt =>
    rw [scores] at below
    cases below
  | eq =>
    rw [scores] at below
    refine .inr ⟨(compare_eq_iff_eq.mp scores).symm, ?_⟩
    cases places : compare a.index b.index with
    | lt => exact compare_lt_iff_lt.mp places
    | eq => exact absurd (compare_eq_iff_eq.mp places) apart
    | gt =>
      unfold compareOn at below
      rw [Ordering.eq_then, places] at below
      cases below

section

variable (query : Query) (category : Category) (providers : List ProviderDescriptor)
  (telemetry : String → Category → ProviderValueSnapshot) (policy : SearchPolicyV1)

theorem scoredProviders_ahead :
    (scoredProviders query category providers telemetry policy).Pairwise Ahead := by
  have apart : (scoredProviders query category providers telemetry policy).Pairwise
      (fun a b => a.index ≠ b.index) := by
    refine (sortBy_perm compareScored _).symm.pairwise ?_ (fun h => Ne.symm h)
    rw [routingCandidates, List.map_map, List.pairwise_map]
    refine (List.pairwise_iff_getElem.mpr ?_ : providers.zipIdx.Pairwise
      (fun p q => p.2 ≠ q.2)).filter _
    intro i j hi hj less
    rw [List.getElem_zipIdx, List.getElem_zipIdx]
    change 0 + i ≠ 0 + j
    omega
  exact ((sortBy_pairwise _).and apart).imp (fun h => ahead_of_below h.1 h.2)

theorem scoredProviders_names :
    ((scoredProviders query category providers telemetry policy).map (fun s => s.name)).Perm
      ((providers.filter (eligible query)).map (fun provider => provider.name)) := by
  have kept : (providers.zipIdx.filter (fun p => eligible query p.1)).map Prod.fst =
      providers.filter (eligible query) := by
    have filtered := List.filter_map (f := Prod.fst) (p := eligible query) (l := providers.zipIdx)
    rw [List.zipIdx_map_fst] at filtered
    exact filtered.symm
  refine ((sortBy_perm compareScored _).map (fun s => s.name)).trans ?_
  rw [← kept, routingCandidates]
  simp only [List.map_map]
  exact .of_eq rfl

theorem orderByRole_perm (roles : RoleAssignment) (names : List String) :
    (orderByRole roles names).Perm names := by
  unfold orderByRole
  by_cases active : roles.active = true
  · rw [if_pos active]
    induction names with
    | nil => exact .nil
    | cons name names ih =>
      cases role : roles.roleOf name with
      | none =>
        simp only [List.filter_cons, role]
        exact List.perm_middle.trans (ih.cons name)
      | some role' =>
        cases role' with
        | primary =>
          simp only [List.filter_cons, role]
          exact ih.cons name
        | expansion =>
          simp only [List.filter_cons, role, List.append_assoc]
          rw [List.append_assoc] at ih
          exact List.perm_middle.trans (ih.cons name)
  · rw [if_neg active]

end

theorem mem_exclude {query : Query} {excluded : List (String × String)}
    {provider : ProviderDescriptor} {name : String} :
    name ∈ OrdMap.keys (exclude query excluded provider) ↔
      eligible query provider = false ∧ provider.name = name ∨ name ∈ OrdMap.keys excluded := by
  unfold exclude eligible
  by_cases available : provider.available = true
  · by_cases supported : supportsRequiredFilters query provider.capabilities = true
    · simp [available, supported]
    · rw [Bool.not_eq_true] at supported
      simp only [available, supported, Bool.not_true, Bool.not_false, Bool.false_eq_true, if_false,
        if_true, Bool.true_and, true_and, OrdMap.insert, OrdMap.mem_keys_upsert]
      rw [eq_comm]
  · rw [Bool.not_eq_true] at available
    simp only [available, Bool.not_false, if_true, Bool.false_and, true_and, OrdMap.insert,
      OrdMap.mem_keys_upsert]
    rw [eq_comm]

theorem exclude_sorted {query : Query} {excluded : List (String × String)}
    (sorted : OrdMap.Sorted excluded) (provider : ProviderDescriptor) :
    OrdMap.Sorted (exclude query excluded provider) := by
  unfold exclude
  split
  · exact sorted.insert _ _
  split
  · exact sorted.insert _ _
  · exact sorted

theorem excludedProviders_spec (query : Query) (providers : List ProviderDescriptor) :
    OrdMap.Sorted (excludedProviders query providers) ∧
      ∀ name, name ∈ OrdMap.keys (excludedProviders query providers) ↔
        ∃ provider ∈ providers, eligible query provider = false ∧ provider.name = name := by
  have run : ∀ (others : List ProviderDescriptor) (excluded : List (String × String)),
      OrdMap.Sorted excluded → OrdMap.Sorted (others.foldl (exclude query) excluded) ∧
        ∀ name, name ∈ OrdMap.keys (others.foldl (exclude query) excluded) ↔
          name ∈ OrdMap.keys excluded ∨
            ∃ provider ∈ others, eligible query provider = false ∧ provider.name = name := by
    intro others
    induction others with
    | nil => exact fun _ sorted => ⟨sorted, fun name => by simp⟩
    | cons provider others ih =>
      intro excluded sorted
      obtain ⟨sorted', keys⟩ := ih _ (exclude_sorted sorted provider)
      refine ⟨sorted', fun name => ?_⟩
      rw [List.foldl_cons, keys, mem_exclude]
      simp only [List.mem_cons, exists_eq_or_imp]
      tauto
  obtain ⟨sorted, keys⟩ := run providers [] List.Pairwise.nil
  refine ⟨sorted, fun name => ?_⟩
  rw [excludedProviders, keys]
  simp [OrdMap.keys]

theorem roleOf_primary {roles : RoleAssignment} {name : String} :
    roles.roleOf name = some .primary ↔ roles.active = true ∧ name = roles.primaryProvider := by
  unfold RoleAssignment.roleOf
  by_cases active : roles.active = true
  · by_cases same : name = roles.primaryProvider
    · simp [active, same]
    · by_cases expansion : name ∈ roles.expansionProviders
      · simp [active, same, expansion]
      · simp [active, same, expansion]
  · simp [active]

def tier (roles : RoleAssignment) (role : Option ProviderRole) (scored : List ScoredProvider) :
    List String :=
  (scored.filter (fun s => roles.roleOf s.name == role)).map (fun s => s.name)

/-- What the router promises about the order of the providers. -/
structure Routed (query : Query) (providers : List ProviderDescriptor) (roles : RoleAssignment)
    (scored : List ScoredProvider) (legacy decision : RoutingDecision) : Prop where
  scoreOrder : scored.Pairwise Ahead
  candidates : (scored.map (fun s => s.name)).Perm
    ((providers.filter (eligible query)).map (fun provider => provider.name))
  ordered : decision.orderedProviders.Perm
    ((providers.filter (eligible query)).map (fun provider => provider.name))
  covers : (decision.orderedProviders ++ OrdMap.keys decision.excludedProviders).Perm
    (providers.map (fun provider => provider.name))
  primary : roles.active = true →
    (∃ provider ∈ providers, eligible query provider = true ∧
      provider.name = roles.primaryProvider) →
    decision.orderedProviders.head? = some roles.primaryProvider ∧
      decision.firstRoundProviders = [roles.primaryProvider]
  tiers : roles.active = true → decision.orderedProviders =
    tier roles (some .primary) scored ++ tier roles (some .expansion) scored ++
      tier roles none scored
  inactive : roles.active = false → decision = legacy

theorem orderByRole_inactive {roles : RoleAssignment} (inactive : roles.active = false)
    (names : List String) : orderByRole roles names = names := by
  rw [orderByRole, if_neg (by rw [inactive]; decide)]

theorem recommendWithRoles_inactive (query : Query) (category : Category)
    (providers : List ProviderDescriptor)
    (telemetry : String → Category → ProviderValueSnapshot) (policy : SearchPolicyV1)
    {roles : RoleAssignment} (inactive : roles.active = false) :
    recommendWithRoles query category providers telemetry policy roles =
      recommendWithRoles query category providers telemetry policy .legacy := by
  have none : ∀ name, roles.roleOf name = RoleAssignment.legacy.roleOf name := by
    intro name
    rw [RoleAssignment.roleOf, inactive]
    rfl
  unfold recommendWithRoles firstRound
  simp only [inactive, none, orderByRole_inactive, RoleAssignment.legacy, Bool.false_eq_true,
    if_false]

theorem names_perm {query : Query} {providers : List ProviderDescriptor}
    (distinct : (providers.map (fun provider => provider.name)).Nodup) {ordered : List String}
    (taken : ordered.Perm ((providers.filter (eligible query)).map (fun provider => provider.name))) :
    (ordered ++ OrdMap.keys (excludedProviders query providers)).Perm
      (providers.map (fun provider => provider.name)) := by
  obtain ⟨sorted, keys⟩ := excludedProviders_spec query providers
  have same : ∀ {p q : ProviderDescriptor}, p ∈ providers → q ∈ providers → p.name = q.name →
      p = q := fun hp hq h => List.inj_on_of_nodup_map distinct hp hq h
  have keysNodup : (OrdMap.keys (excludedProviders query providers)).Nodup := by
    refine List.pairwise_map.mpr (sorted.imp (fun {a b} less equal => ?_))
    rw [equal] at less
    simp at less
  have orderedNodup : ordered.Nodup :=
    taken.symm.nodup (distinct.sublist (List.filter_sublist.map _))
  have mem : ∀ name, name ∈ ordered ↔
      ∃ provider ∈ providers, eligible query provider = true ∧ provider.name = name := by
    intro name
    rw [taken.mem_iff]
    simp [and_assoc]
  refine (List.perm_ext_iff_of_nodup (List.nodup_append.mpr ⟨orderedNodup, keysNodup, ?_⟩)
    distinct).mpr ?_
  · rintro name here _ there rfl
    obtain ⟨p, hp, able, hname⟩ := (mem name).mp here
    obtain ⟨q, hq, unable, rfl⟩ := (keys name).mp there
    rw [same hp hq hname, unable] at able
    cases able
  · intro name
    rw [List.mem_append, mem, keys, List.mem_map]
    constructor
    · rintro (⟨p, hp, -, rfl⟩ | ⟨p, hp, -, rfl⟩)
      · exact ⟨p, hp, rfl⟩
      · exact ⟨p, hp, rfl⟩
    · rintro ⟨p, hp, rfl⟩
      cases able : eligible query p with
      | true => exact .inl ⟨p, hp, able, rfl⟩
      | false => exact .inr ⟨p, hp, able, rfl⟩

theorem route_eq (query : Query) (category : Category) (providers : List ProviderDescriptor)
    (telemetry : String → Category → ProviderValueSnapshot) (policy : SearchPolicyV1)
    {roles : RoleAssignment} (active : roles.active = true) :
    let names := (scoredProviders query category providers telemetry policy).map (fun s => s.name)
    let decision := route query category providers telemetry policy roles
    decision.orderedProviders = orderByRole roles names ∧
      decision.firstRoundProviders =
        match names.find? (fun name => roles.roleOf name == some .primary) with
        | some primary => [primary]
        | none => (orderByRole roles names).take 1 := by
  intro names decision
  refine ⟨rfl, ?_⟩
  have round : ∀ primary, firstRound policy.effective roles primary (orderByRole roles names) =
      match primary with
      | some primary => [primary]
      | none => (orderByRole roles names).take 1 := fun primary => if_pos active
  change firstRound policy.effective roles (if roles.active then
    names.find? (fun name => roles.roleOf name == some .primary) else none)
      (orderByRole roles names) = _
  rw [if_pos active]
  exact round _

/-- Every provider is ordered or excluded; roles come first and scores order each tier. -/
theorem route_routed (query : Query) (category : Category) {providers : List ProviderDescriptor}
    (telemetry : String → Category → ProviderValueSnapshot) (policy : SearchPolicyV1)
    (roles : RoleAssignment)
    (distinct : (providers.map (fun provider => provider.name)).Nodup) :
    Routed query providers roles (scoredProviders query category providers telemetry policy)
      (route query category providers telemetry policy .legacy)
      (route query category providers telemetry policy roles) := by
  have names := scoredProviders_names query category providers telemetry policy
  have taken : (route query category providers telemetry policy roles).orderedProviders.Perm
      ((providers.filter (eligible query)).map (fun provider => provider.name)) :=
    (orderByRole_perm roles _).trans names
  refine ⟨scoredProviders_ahead query category providers telemetry policy, names, taken,
    names_perm distinct taken, ?_, ?_, ?_⟩
  · intro active ⟨provider, mem, able, name⟩
    obtain ⟨ordered, round⟩ := route_eq query category providers telemetry policy active
    have isPrimary : ∀ other, (roles.roleOf other == some .primary) = true ↔
        other = roles.primaryProvider := by
      intro other
      rw [beq_iff_eq, roleOf_primary]
      exact and_iff_right active
    have listed : roles.primaryProvider ∈
        (scoredProviders query category providers telemetry policy).map (fun s => s.name) :=
      names.mem_iff.mpr (List.mem_map.mpr ⟨provider, List.mem_filter.mpr ⟨mem, able⟩, name⟩)
    have found : ((scoredProviders query category providers telemetry policy).map
        (fun s => s.name)).find? (fun name => roles.roleOf name == some .primary) =
        some roles.primaryProvider := by
      cases first : ((scoredProviders query category providers telemetry policy).map
          (fun s => s.name)).find? (fun name => roles.roleOf name == some .primary) with
      | none =>
        exact absurd ((isPrimary _).mpr rfl) (List.find?_eq_none.mp first _ listed)
      | some other =>
        have role : (roles.roleOf other == some .primary) = true := by
          simpa using List.find?_some first
        rw [(isPrimary other).mp role]
    rw [found] at round
    refine ⟨?_, round⟩
    rw [ordered, orderByRole, if_pos active, List.append_assoc, List.head?_append,
      List.head?_filter, found]
    rfl
  · intro active
    obtain ⟨ordered, -⟩ := route_eq query category providers telemetry policy active
    rw [ordered, orderByRole, if_pos active]
    simp only [tier, List.filter_map]
    rfl
  · intro inactive
    unfold route
    rw [recommendWithRoles_inactive query category providers telemetry policy inactive]

/-- The primary answers first although its scores are the worst. -/
theorem route_routed_slowPrimary :
    let capabilities : ProviderCapabilities :=
      ⟨true, true, true, true, true, true, true, true, true, true, false, none⟩
    let providers : List ProviderDescriptor :=
      [⟨"fast", capabilities, true⟩, ⟨"down", capabilities, false⟩, ⟨"slow", capabilities, true⟩]
    let telemetry : String → Category → ProviderValueSnapshot := fun name _ =>
      if name = "slow" then ⟨.mature, .unavailable, 10, 0, 1, 9000, 1, 0, 1, 0, 0⟩
      else ⟨.mature, .healthy, 10, 1, 0, 100, 1, 8, 0, 1, 1⟩
    let roles : RoleAssignment := ⟨true, "slow", ["fast"]⟩
    let query : Query := ⟨"rust", "rust", [], [], [], [], [], none, none, none, none⟩
    Routed query providers roles
      (scoredProviders query .code providers telemetry SearchPolicyV1.default)
      (route query .code providers telemetry SearchPolicyV1.default .legacy)
      (route query .code providers telemetry SearchPolicyV1.default roles) := by
  intro capabilities providers telemetry roles query
  exact route_routed query .code telemetry SearchPolicyV1.default roles (by decide)

end Amatl
