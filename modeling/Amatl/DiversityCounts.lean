import Amatl.Diversity
import Mathlib.Data.List.Dedup

/-! The diversity pass counts the visible results of every group. Its tables are a recount of the
results shown before, and a result is relegated by that recount alone. -/

namespace Amatl

open UrlCrate OrdMap

theorem compare_resultType (a b : ResultType) : compare a b = compare a.ctorIdx b.ctorIdx := by
  cases a <;> cases b <;> rfl

theorem ctorIdx_injective {a b : ResultType} (h : a.ctorIdx = b.ctorIdx) : a = b := by
  cases a <;> cases b <;> first | rfl | cases h

instance : Std.TransOrd ResultType where
  eq_swap {a b} := by
    rw [compare_resultType, compare_resultType]
    exact Std.OrientedCmp.eq_swap
  isLE_trans {a b c} := by
    rw [compare_resultType, compare_resultType, compare_resultType]
    exact Std.TransCmp.isLE_trans

instance : Std.LawfulEqOrd ResultType where
  compare_self {a} := by
    rw [compare_resultType]
    exact Std.ReflCmp.compare_self
  eq_of_compare {a b} h := by
    rw [compare_resultType] at h
    exact ctorIdx_injective (Std.LawfulEqCmp.eq_of_compare h)

section

variable {K : Type} [Ord K]

theorem sum_bump (k : K) (table : List (K × Nat)) :
    (values (bump k table)).sum = (values table).sum + 1 := by
  induction table with
  | nil => rfl
  | cons e table ih =>
    unfold bump upsert values
    unfold bump values at ih
    split
    · simp only [List.map_cons, List.sum_cons, Option.getD_none]
      omega
    · simp only [List.map_cons, List.sum_cons, Option.getD_some]
      omega
    · simp only [List.map_cons, List.sum_cons, ih]
      omega

variable [DecidableEq K]

/-- A table that counts the members of a list. -/
structure Tallies (table : List (K × Nat)) (members : List K) : Prop where
  sorted : Sorted table
  counts : ∀ k, get? k table = if k ∈ members then some (members.count k) else none
  total : (values table).sum = members.length

theorem Tallies.empty : Tallies ([] : List (K × Nat)) [] where
  sorted := List.Pairwise.nil
  counts _ := rfl
  total := rfl

theorem Tallies.getD {table : List (K × Nat)} {members : List K} (h : Tallies table members)
    (k : K) : (get? k table).getD 0 = members.count k := by
  rw [h.counts]
  by_cases mem : k ∈ members
  · rw [if_pos mem]
    rfl
  · rw [if_neg mem, List.count_eq_zero_of_not_mem mem]
    rfl

variable [Std.TransOrd K] [Std.LawfulEqOrd K]

theorem Tallies.bump {table : List (K × Nat)} {members : List K} (h : Tallies table members)
    (k : K) : Tallies (bump k table) (members ++ [k]) where
  sorted := h.sorted.upsert k _
  counts j := by
    rw [Amatl.bump, get?_upsert h.sorted, h.getD k]
    by_cases same : j = k
    · subst same
      rw [if_pos rfl, if_pos (by simp), List.count_append, List.count_singleton_self]
    · rw [if_neg same, h.counts]
      by_cases mem : j ∈ members
      · rw [if_pos mem, if_pos (List.mem_append_left _ mem), List.count_append,
          List.count_eq_zero_of_not_mem (fun bad => same (List.mem_singleton.mp bad))]
        rfl
      · rw [if_neg mem, if_neg]
        intro bad
        rcases List.mem_append.mp bad with bad | bad
        · exact mem bad
        · exact same (List.mem_singleton.mp bad)
  total := by
    rw [sum_bump, h.total, List.length_append, List.length_singleton]

theorem Tallies.foldl_bump {table : List (K × Nat)} {members : List K} (h : Tallies table members)
    (more : List K) :
    Tallies (more.foldl (fun m k => Amatl.bump k m) table) (members ++ more) := by
  induction more generalizing table members with
  | nil => rwa [List.append_nil]
  | cons k more ih =>
    have later := ih (h.bump k)
    rwa [List.append_assoc] at later

omit [Std.TransOrd K] in
theorem Tallies.distinct {table : List (K × Nat)} {members : List K} (h : Tallies table members) :
    table.length = members.dedup.length := by
  have keysNodup : (keys table).Nodup := by
    refine List.pairwise_map.mpr (h.sorted.imp (fun {a b} less same => ?_))
    rw [same] at less
    simp at less
  have same : ∀ k, k ∈ keys table ↔ k ∈ members.dedup := by
    intro k
    rw [← isSome_get?, h.counts, List.mem_dedup]
    by_cases mem : k ∈ members
    · simp [mem]
    · simp [mem]
  have perm := (List.perm_ext_iff_of_nodup keysNodup members.nodup_dedup).mpr same
  rw [← perm.length_eq, keys, List.length_map]

end

section

variable {Url : Type} [UrlCrate Url]

def domainOf (ranked : RankedResult Url) : String := (hostStr ranked.result.canonicalUrl).getD ""

/-- The groups of a result: its domain, the providers that found it and its type. -/
def groupsOf (ranked : RankedResult Url) : List Group :=
  .domain (domainOf ranked) ::
    (ranked.result.providers.map .provider ++ [.resultType ranked.result.resultType])

def DiversityPolicyV1.limitOf (policy : DiversityPolicyV1) : Group → Nat
  | .domain _ => policy.maxVisiblePerDomain
  | .provider _ => policy.maxVisiblePerProvider
  | .resultType _ => policy.maxVisiblePerResultType

def memberships (group : Group) (results : List (RankedResult Url)) : Nat :=
  (results.flatMap groupsOf).count group

/-- The tables hold a recount of the results. -/
structure VisibleCounts.Recount (counts : VisibleCounts) (visible : List (RankedResult Url)) :
    Prop where
  domains : Tallies counts.domains (visible.map domainOf)
  providers : Tallies counts.providers (visible.flatMap (fun ranked => ranked.result.providers))
  resultTypes : Tallies counts.resultTypes (visible.map (fun ranked => ranked.result.resultType))

theorem recount_empty : VisibleCounts.empty.Recount ([] : List (RankedResult Url)) :=
  ⟨.empty, .empty, .empty⟩

theorem VisibleCounts.Recount.record {counts : VisibleCounts} {visible : List (RankedResult Url)}
    (h : counts.Recount visible) (ranked : RankedResult Url) :
    (counts.record (domainOf ranked) ranked).Recount (visible ++ [ranked]) := by
  constructor
  · rw [List.map_append]
    exact h.domains.bump _
  · rw [List.flatMap_append, List.flatMap_singleton]
    exact h.providers.foldl_bump _
  · rw [List.map_append]
    exact h.resultTypes.bump _

theorem memberships_domain (value : String) (results : List (RankedResult Url)) :
    memberships (.domain value) results = (results.map domainOf).count value := by
  induction results with
  | nil => rfl
  | cons ranked results ih =>
    have apart : (ranked.result.providers.map Group.provider ++
        [Group.resultType ranked.result.resultType]).count (Group.domain value) = 0 := by
      rw [List.count_eq_zero]
      intro mem
      rcases List.mem_append.mp mem with bad | bad
      · obtain ⟨_, -, bad⟩ := List.mem_map.mp bad
        cases bad
      · cases List.mem_singleton.mp bad
    have one : ∀ other, (Group.domain other == .domain value) = (other == value) := by
      intro other
      rw [Bool.eq_iff_iff, beq_iff_eq, beq_iff_eq, Group.domain.injEq]
    rw [memberships, List.flatMap_cons, List.count_append, groupsOf, List.count_cons, apart,
      List.map_cons, List.count_cons, one]
    rw [memberships] at ih
    omega

theorem memberships_provider (value : String) (results : List (RankedResult Url)) :
    memberships (.provider value) results =
      (results.flatMap (fun ranked => ranked.result.providers)).count value := by
  induction results with
  | nil => rfl
  | cons ranked results ih =>
    have inside : (ranked.result.providers.map Group.provider).count (Group.provider value) =
        ranked.result.providers.count value :=
      List.count_map_of_injective _ _ (fun _ _ same => Group.provider.inj same) _
    rw [memberships, List.flatMap_cons, List.count_append, groupsOf, List.count_cons,
      List.count_append, inside, List.flatMap_cons, List.count_append]
    rw [memberships] at ih
    simp [ih]

theorem memberships_resultType (value : ResultType) (results : List (RankedResult Url)) :
    memberships (.resultType value) results =
      (results.map (fun ranked => ranked.result.resultType)).count value := by
  induction results with
  | nil => rfl
  | cons ranked results ih =>
    have apart : (ranked.result.providers.map Group.provider).count (Group.resultType value) = 0 := by
      rw [List.count_eq_zero]
      intro mem
      obtain ⟨_, -, bad⟩ := List.mem_map.mp mem
      cases bad
    have one : ∀ kind, (Group.resultType kind == .resultType value) = (kind == value) := by
      intro kind
      rw [Bool.eq_iff_iff, beq_iff_eq, beq_iff_eq, Group.resultType.injEq]
    rw [memberships, List.flatMap_cons, List.count_append, groupsOf, List.count_cons,
      List.count_append, apart, List.count_cons, one, List.map_cons, List.count_cons]
    rw [memberships] at ih
    simp only [List.count_nil]
    have apart' : (Group.domain (domainOf ranked) == Group.resultType value) = false := rfl
    rw [apart']
    simp only [Bool.false_eq_true, if_false]
    omega

/-- A result stands in a group that has reached its limit. -/
def AtLimit (policy : DiversityPolicyV1) (before : List (RankedResult Url))
    (ranked : RankedResult Url) (group : Group) : Prop :=
  group ∈ groupsOf ranked ∧ policy.limitOf group ≤ memberships group before

/-- The score clears that of the next result of the group by the ratio. -/
def Overrides (policy : DiversityPolicyV1) (following : List (RankedResult Url))
    (ranked : RankedResult Url) (group : Group) : Prop :=
  ∃ score, nextComparator following group = some score ∧
    score.value * policy.relevanceOverrideRatio.toRat ≤ ranked.score.value

theorem mem_exceededGroups {policy : DiversityPolicyV1} {counts : VisibleCounts}
    {before : List (RankedResult Url)} (h : counts.Recount before) (ranked : RankedResult Url)
    (group : Group) :
    group ∈ exceededGroups policy counts (domainOf ranked) ranked ↔
      AtLimit policy before ranked group := by
  unfold exceededGroups AtLimit groupsOf
  rw [h.domains.getD, h.resultTypes.getD]
  simp only [h.providers.getD, List.mem_append, List.mem_cons, List.not_mem_nil, or_false,
    List.mem_map, List.mem_filter, decide_eq_true_eq]
  cases group with
  | domain value =>
    rw [memberships_domain, DiversityPolicyV1.limitOf]
    constructor
    · rintro ((mem | ⟨_, -, bad⟩) | mem)
      · split_ifs at mem with full
        · obtain rfl := Group.domain.inj (List.mem_singleton.mp mem)
          exact ⟨.inl rfl, full⟩
        · cases mem
      · cases bad
      · split_ifs at mem <;> simp at mem
    · rintro ⟨here | ⟨_, -, bad⟩ | bad, full⟩
      · obtain rfl := Group.domain.inj here
        exact .inl (.inl (by rw [if_pos full]; exact List.mem_singleton_self _))
      · cases bad
      · cases bad
  | provider value =>
    rw [memberships_provider, DiversityPolicyV1.limitOf]
    constructor
    · rintro ((mem | ⟨_, ⟨mem, full⟩, same⟩) | mem)
      · split_ifs at mem <;> simp at mem
      · cases same
        exact ⟨.inr (.inl ⟨_, mem, rfl⟩), full⟩
      · split_ifs at mem <;> simp at mem
    · rintro ⟨bad | ⟨_, mem, same⟩ | bad, full⟩
      · cases bad
      · cases same
        exact .inl (.inr ⟨_, ⟨mem, full⟩, rfl⟩)
      · cases bad
  | resultType value =>
    rw [memberships_resultType, DiversityPolicyV1.limitOf]
    constructor
    · rintro ((mem | ⟨_, -, bad⟩) | mem)
      · split_ifs at mem <;> simp at mem
      · cases bad
      · split_ifs at mem with full
        · obtain rfl := Group.resultType.inj (List.mem_singleton.mp mem)
          exact ⟨.inr (.inr rfl), full⟩
        · cases mem
    · rintro ⟨bad | ⟨_, -, bad⟩ | here, full⟩
      · cases bad
      · cases bad
      · obtain rfl := Group.resultType.inj here
        exact .inr (by rw [if_pos full]; exact List.mem_singleton_self _)

/-- An override needs every group that has reached its limit. -/
def OverrideApplies (policy : DiversityPolicyV1) (before following : List (RankedResult Url))
    (ranked : RankedResult Url) : Prop :=
  ∀ group, AtLimit policy before ranked group → Overrides policy following ranked group

def shownAs (index : Nat) (ranked : RankedResult Url) (status : ResultStatus) : SearchResult Url where
  rank := positionRank index
  title := ranked.result.title
  originalUrl := ranked.result.originalUrl
  canonicalUrl := ranked.result.canonicalUrl
  domain := domainOf ranked
  snippet := ranked.result.snippet
  providers := ranked.result.providers
  publishedAt := ranked.result.publishedAt
  status

def shows (policy : DiversityPolicyV1) (counts : VisibleCounts) (following : List (RankedResult Url))
    (ranked : RankedResult Url) : Bool :=
  let exceeded := exceededGroups policy counts (domainOf ranked) ranked
  exceeded.isEmpty || (!exceeded.isEmpty && exceeded.all (fun group =>
    (nextComparator following group).any (fun score =>
      score.value * policy.relevanceOverrideRatio.toRat ≤ ranked.score.value)))

theorem shows_iff {policy : DiversityPolicyV1} {counts : VisibleCounts}
    {before : List (RankedResult Url)} (h : counts.Recount before)
    (following : List (RankedResult Url)) (ranked : RankedResult Url) :
    shows policy counts following ranked = true ↔ OverrideApplies policy before following ranked := by
  have each : ∀ group, (nextComparator following group).any (fun score =>
      score.value * policy.relevanceOverrideRatio.toRat ≤ ranked.score.value) = true ↔
      Overrides policy following ranked group := by
    intro group
    unfold Overrides
    cases nextComparator following group with
    | none => simp
    | some score => simp
  unfold shows OverrideApplies
  simp only [← mem_exceededGroups h, ← each]
  cases exceededGroups policy counts (domainOf ranked) ranked with
  | nil => simp
  | cons group groups => simp

def visibleAmong (n : Nat) (results : List (RankedResult Url)) (shown : List (SearchResult Url)) :
    List (RankedResult Url) :=
  (List.range n).filterMap (fun i => (results[i]?).bind (fun ranked => (shown[i]?).bind
    (fun result => if result.status = .visible then some ranked else none)))

omit [UrlCrate Url] in
theorem visibleAmong_cons (n : Nat) (ranked : RankedResult Url) (results : List (RankedResult Url))
    (result : SearchResult Url) (shown : List (SearchResult Url)) :
    visibleAmong (n + 1) (ranked :: results) (result :: shown) =
      (if result.status = .visible then [ranked] else []) ++ visibleAmong n results shown := by
  unfold visibleAmong
  rw [List.range_succ_eq_map, List.filterMap_cons, List.filterMap_map]
  by_cases visible : result.status = .visible
  · simp [visible]
  · simp [visible]

omit [UrlCrate Url] in
theorem visibleAmong_succ {n : Nat} {results : List (RankedResult Url)}
    {shown : List (SearchResult Url)} {ranked : RankedResult Url} {result : SearchResult Url}
    (here : results[n]? = some ranked) (there : shown[n]? = some result) :
    visibleAmong (n + 1) results shown =
      visibleAmong n results shown ++ (if result.status = .visible then [ranked] else []) := by
  unfold visibleAmong
  rw [List.range_succ, List.filterMap_append]
  by_cases visible : result.status = .visible
  · simp [here, there, visible]
  · simp [here, there, visible]

def Decided (policy : DiversityPolicyV1) (before following : List (RankedResult Url))
    (ranked : RankedResult Url) (status : ResultStatus) : Prop :=
  status = .relegatedByDiversity ↔
    (∃ group, AtLimit policy before ranked group) ∧ ¬OverrideApplies policy before following ranked

theorem decided_shows {policy : DiversityPolicyV1} {counts : VisibleCounts}
    {before : List (RankedResult Url)} (h : counts.Recount before)
    (following : List (RankedResult Url)) (ranked : RankedResult Url) :
    Decided policy before following ranked
      (if shows policy counts following ranked then .visible else .relegatedByDiversity) := by
  unfold Decided
  by_cases visible : shows policy counts following ranked = true
  · rw [if_pos visible]
    have applies := (shows_iff h following ranked).mp visible
    constructor
    · intro bad
      cases bad
    · intro denied
      exact absurd applies denied.2
  · rw [if_neg visible]
    rw [shows_iff h] at visible
    refine iff_of_true rfl ⟨?_, visible⟩
    by_contra none
    exact visible (fun group full => absurd ⟨group, full⟩ none)

theorem diversifyFrom_cons (policy : DiversityPolicyV1) (index : Nat) (counts : VisibleCounts)
    (ranked : RankedResult Url) (following : List (RankedResult Url)) :
    let visible := shows policy counts following ranked
    let later := diversifyFrom policy (index + 1)
      (if visible then counts.record (domainOf ranked) ranked else counts) following
    (diversifyFrom policy index counts (ranked :: following)).1 =
        shownAs index ranked (if visible then .visible else .relegatedByDiversity) :: later.1 ∧
      (diversifyFrom policy index counts (ranked :: following)).2.2 = later.2.2 :=
  ⟨rfl, rfl⟩

theorem recount_step {policy : DiversityPolicyV1} {counts : VisibleCounts}
    {before : List (RankedResult Url)} (h : counts.Recount before)
    (following : List (RankedResult Url)) (ranked : RankedResult Url) :
    (if shows policy counts following ranked then counts.record (domainOf ranked) ranked
      else counts).Recount
      (before ++ if (if shows policy counts following ranked then ResultStatus.visible
        else .relegatedByDiversity) = .visible then [ranked] else []) := by
  by_cases visible : shows policy counts following ranked = true
  · simp only [if_pos visible]
    exact h.record ranked
  · simp only [if_neg visible, reduceCtorEq, if_false, List.append_nil]
    exact h

/-- Every position of the pass is decided by the results shown before it. -/
theorem diversifyFrom_at (policy : DiversityPolicyV1) (index : Nat) {counts : VisibleCounts}
    {before results : List (RankedResult Url)} (h : counts.Recount before) {i : Nat}
    {ranked : RankedResult Url} (here : results[i]? = some ranked) :
    ∃ status, (diversifyFrom policy index counts results).1[i]? =
        some (shownAs (index + i) ranked status) ∧
      Decided policy
        (before ++ visibleAmong i results (diversifyFrom policy index counts results).1)
        (results.drop (i + 1)) ranked status := by
  induction results generalizing index counts before i with
  | nil => cases here
  | cons first following ih =>
    obtain ⟨shown, -⟩ := diversifyFrom_cons policy index counts first following
    rw [shown]
    cases i with
    | zero =>
      obtain rfl := Option.some.inj here
      refine ⟨_, rfl, ?_⟩
      rw [visibleAmong, List.range_zero, List.filterMap_nil, List.append_nil]
      exact decided_shows h following first
    | succ i =>
      obtain ⟨status, found, decided⟩ := ih (index + 1)
        (recount_step h following first) here
      refine ⟨status, ?_, ?_⟩
      · rw [List.getElem?_cons_succ, found]
        congr 2
        omega
      · rw [visibleAmong_cons, ← List.append_assoc]
        exact decided

theorem diversifyFrom_recount (policy : DiversityPolicyV1) (index : Nat) {counts : VisibleCounts}
    {before : List (RankedResult Url)} (results : List (RankedResult Url))
    (h : counts.Recount before) :
    (diversifyFrom policy index counts results).1.length = results.length ∧
      (diversifyFrom policy index counts results).2.2.Recount
        (before ++ visibleAmong results.length results
          (diversifyFrom policy index counts results).1) := by
  induction results generalizing index counts before with
  | nil =>
    refine ⟨rfl, ?_⟩
    rw [visibleAmong, List.length_nil, List.range_zero, List.filterMap_nil, List.append_nil]
    exact h
  | cons first following ih =>
    obtain ⟨shown, last⟩ := diversifyFrom_cons policy index counts first following
    obtain ⟨length, recount⟩ := ih (index + 1) (recount_step h following first)
    rw [shown, last]
    refine ⟨by rw [List.length_cons, length, List.length_cons], ?_⟩
    rw [List.length_cons, visibleAmong_cons, ← List.append_assoc]
    exact recount

def shownInLimits (policy : DiversityPolicyV1) (n : Nat) (results : List (RankedResult Url))
    (shown : List (SearchResult Url)) : List (RankedResult Url) :=
  (List.range n).filterMap (fun i => (results[i]?).bind (fun ranked => (shown[i]?).bind
    (fun result => if result.status = .visible ∧ (groupsOf ranked).all (fun group =>
      memberships group (visibleAmong i results shown) < policy.limitOf group) then some ranked
      else none)))

/-- What the pass makes of a list under the policy that is in effect. -/
structure Diversified (policy : DiversityPolicyV1) (results : List (RankedResult Url))
    (output : DiversityOutput Url) : Prop where
  length : output.results.length = results.length
  kept : ∀ i ranked result, results[i]? = some ranked → output.results[i]? = some result →
    result = shownAs i ranked result.status ∧
      (i + 1 < 2 ^ 32 → result.rank.value.toNat = i + 1)
  relegated : ∀ i ranked result, results[i]? = some ranked → output.results[i]? = some result →
    Decided policy (visibleAmong i results output.results) (results.drop (i + 1)) ranked
      result.status
  within : ∀ n group, (shownInLimits policy n results output.results).countP
    (fun ranked => group ∈ groupsOf ranked) ≤ policy.limitOf group
  plain : (∀ ranked ∈ results, ranked.result.providers.Nodup) → ∀ n group,
    memberships group (visibleAmong n results output.results) =
      (visibleAmong n results output.results).countP (fun ranked => group ∈ groupsOf ranked)
  metrics : let visible := visibleAmong results.length results output.results
    output.metrics =
      { visibleResults := visible.length
        uniqueDomains := (visible.map domainOf).dedup.length
        uniqueProviders :=
          (visible.flatMap (fun ranked => ranked.result.providers)).dedup.length
        uniqueResultTypes :=
          (visible.map (fun ranked => ranked.result.resultType)).dedup.length }

theorem positionRank_toNat {i : Nat} (h : i + 1 < 2 ^ 32) : (positionRank i).value.toNat = i + 1 := by
  obtain ⟨rank, new, value⟩ := Rank.new_index h
  rw [positionRank, new]
  exact value

theorem memberships_append (group : Group) (a b : List (RankedResult Url)) :
    memberships group (a ++ b) = memberships group a + memberships group b := by
  rw [memberships, List.flatMap_append, List.count_append]
  rfl

omit [UrlCrate Url] in
theorem mem_visibleAmong {n : Nat} {results : List (RankedResult Url)}
    {shown : List (SearchResult Url)} {ranked : RankedResult Url}
    (mem : ranked ∈ visibleAmong n results shown) : ranked ∈ results := by
  obtain ⟨i, -, found⟩ := List.mem_filterMap.mp mem
  obtain ⟨here, inside, found⟩ := Option.bind_eq_some_iff.mp found
  obtain ⟨result, -, found⟩ := Option.bind_eq_some_iff.mp found
  split at found
  · cases found
    exact List.mem_of_getElem? inside
  · cases found

theorem memberships_plain {visible : List (RankedResult Url)}
    (once : ∀ ranked ∈ visible, ranked.result.providers.Nodup) (group : Group) :
    memberships group visible = visible.countP (fun ranked => group ∈ groupsOf ranked) := by
  induction visible with
  | nil => rfl
  | cons ranked visible ih =>
    have later := ih (fun other mem => once other (List.mem_cons_of_mem ranked mem))
    have nodup : (groupsOf ranked).Nodup := by
      have names : (ranked.result.providers.map Group.provider).Nodup :=
        (once ranked List.mem_cons_self).map (fun _ _ same => Group.provider.inj same)
      simp [groupsOf, List.nodup_append, names]
    rw [memberships, List.flatMap_cons, List.count_append, List.countP_cons]
    rw [memberships] at later
    by_cases mem : group ∈ groupsOf ranked
    · rw [List.count_eq_one_of_mem nodup mem, later, if_pos (by simpa using mem)]
      omega
    · rw [List.count_eq_zero_of_not_mem mem, later, if_neg (by simpa using mem)]
      omega

/-- A recount of the shown results covers those within the limits, and the limit bounds these. -/
theorem shownInLimits_le {policy : DiversityPolicyV1} {results : List (RankedResult Url)}
    {shown : List (SearchResult Url)} (same : shown.length = results.length) (n : Nat)
    (group : Group) :
    (shownInLimits policy n results shown).countP (fun ranked => group ∈ groupsOf ranked) ≤
      memberships group (visibleAmong n results shown) ∧
    (shownInLimits policy n results shown).countP (fun ranked => group ∈ groupsOf ranked) ≤
      policy.limitOf group := by
  induction n with
  | zero => exact ⟨Nat.zero_le _, Nat.zero_le _⟩
  | succ n ih =>
    obtain ⟨covered, bounded⟩ := ih
    have wider : memberships group (visibleAmong n results shown) ≤
        memberships group (visibleAmong (n + 1) results shown) := by
      rw [visibleAmong, visibleAmong, List.range_succ, List.filterMap_append, memberships_append]
      exact Nat.le_add_right _ _
    rw [shownInLimits, List.range_succ, List.filterMap_append, List.countP_append]
    rw [shownInLimits] at covered bounded
    cases here : results[n]? with
    | none =>
      simp only [List.filterMap_cons, List.filterMap_nil, here, Option.bind_none, List.countP_nil]
      omega
    | some ranked =>
      obtain ⟨small, -⟩ := List.getElem?_eq_some_iff.mp here
      have there : shown[n]? = some shown[n] := List.getElem?_eq_getElem (same ▸ small)
      by_cases inside : shown[n].status = .visible ∧ (groupsOf ranked).all (fun group =>
          memberships group (visibleAmong n results shown) < policy.limitOf group)
      · have added := visibleAmong_succ here there
        rw [if_pos inside.1] at added
        simp only [List.filterMap_cons, List.filterMap_nil, here, there, Option.bind_some,
          if_pos inside]
        by_cases mem : group ∈ groupsOf ranked
        · have below := List.all_eq_true.mp inside.2 group mem
          rw [decide_eq_true_eq] at below
          have named : 1 ≤ memberships group [ranked] := by
            rw [memberships, List.flatMap_singleton]
            exact List.count_pos_iff.mpr mem
          rw [added, memberships_append]
          simp only [List.countP_cons, List.countP_nil, mem, decide_true, if_true]
          omega
        · simp only [List.countP_cons, List.countP_nil, mem, decide_false, Bool.false_eq_true,
            if_false]
          omega
      · simp only [List.filterMap_cons, List.filterMap_nil, here, there, Option.bind_some,
          if_neg inside, List.countP_nil]
        omega

/-- The pass keeps every result in its place and relegates by a recount of what it showed before. -/
theorem diversify_diversified (results : List (RankedResult Url)) (policy : DiversityPolicyV1) :
    Diversified policy.effective results (diversify results policy) := by
  have start : VisibleCounts.empty.Recount ([] : List (RankedResult Url)) := recount_empty
  obtain ⟨length, recount⟩ := diversifyFrom_recount policy.effective 0 results start
  have atPosition : ∀ i ranked result, results[i]? = some ranked →
      (diversify results policy).results[i]? = some result →
      ∃ status, result = shownAs i ranked status ∧
        Decided policy.effective (visibleAmong i results (diversify results policy).results)
          (results.drop (i + 1)) ranked status := by
    intro i ranked result here there
    obtain ⟨status, found, decided⟩ := diversifyFrom_at policy.effective 0 start here
    have same := there.symm.trans found
    rw [Nat.zero_add] at same
    exact ⟨status, Option.some.inj same, decided⟩
  refine ⟨length, ?_, ?_, fun n group => (shownInLimits_le length n group).2,
    fun once n group => memberships_plain
      (fun ranked mem => once ranked (mem_visibleAmong mem)) group, ?_⟩
  · intro i ranked result here there
    obtain ⟨status, rfl, -⟩ := atPosition i ranked result here there
    exact ⟨rfl, positionRank_toNat⟩
  · intro i ranked result here there
    obtain ⟨status, rfl, decided⟩ := atPosition i ranked result here there
    exact decided
  · intro visible
    have total := recount.domains.total
    have domains := recount.domains.distinct
    have providers := recount.providers.distinct
    have resultTypes := recount.resultTypes.distinct
    rw [List.length_map] at total
    exact (DiversityMetrics.mk.injEq ..).mpr ⟨total, domains, providers, resultTypes⟩

end

end Amatl
