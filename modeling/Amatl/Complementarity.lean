import Mathlib.Algebra.Order.Field.Rat
import Mathlib.Algebra.Order.Field.Basic
import Amatl.Relevance

/-! What the primary and the expansion providers of a search found, apart and together, and how
much of it is relevant. Both counts go over the same deduplicated results on their own. -/

namespace Amatl

inductive RelevanceAssessmentStatus where
  | notImplemented | assessed | insufficientEvidence
  deriving DecidableEq, Repr

structure RelevanceMetrics where
  status : RelevanceAssessmentStatus := .notImplemented
  relevantPrimary : Option Nat := none
  relevantExpansion : Option Nat := none
  uniqueRelevantPrimary : Option Nat := none
  uniqueRelevantExpansion : Option Nat := none
  possiblyRelevantPrimary : Option Nat := none
  possiblyRelevantExpansion : Option Nat := none
  notRelevantPrimary : Option Nat := none
  notRelevantExpansion : Option Nat := none
  unknownPrimary : Option Nat := none
  unknownExpansion : Option Nat := none
  expansionRelevantRatio : Option ℚ := none
  rawToRelevantExpansionRatio : Option ℚ := none
  expansionConfirmedNoiseRate : Option ℚ := none
  expansionNoiseRate : Option ℚ := none
  deriving DecidableEq

structure ComplementarityMetrics where
  foundPrimary : Nat
  foundExpansion : Nat
  overlapConfirmed : Nat
  overlapPossible : Nat
  uniquePrimary : Nat
  uniqueExpansion : Nat
  primaryUniqueDomains : Nat
  expansionUniqueDomains : Nat
  finalUniqueDomains : Nat
  expansionNewDomains : Nat
  expansionOverlapRatio : Option ℚ
  expansionUniqueRatio : Option ℚ
  relevance : RelevanceMetrics
  deriving DecidableEq

/-- A count over another one, which counts as one where it is zero. -/
def ratio (part whole : Nat) : ℚ := part / max whole 1

theorem ratio_bounds {part whole : Nat} (h : part ≤ whole) :
    0 ≤ ratio part whole ∧ ratio part whole ≤ 1 := by
  have positive : (0 : ℚ) < max whole 1 := by
    have one : 0 < max whole 1 := by omega
    exact_mod_cast one
  have least : part ≤ max whole 1 := by omega
  constructor
  · exact div_nonneg (Nat.cast_nonneg part) positive.le
  · rw [ratio, div_le_one positive]
    exact_mod_cast least

section

variable {Url : Type} [UrlCrate Url]

omit [UrlCrate Url] in
def hasRole (roles : RoleAssignment) (result : DeduplicatedResult Url) (want : ProviderRole) :
    Bool :=
  result.providers.any (fun name => roles.roleOf name == some want)

def hostOf (result : DeduplicatedResult Url) : Option String :=
  (UrlCrate.hostStr result.canonicalUrl).map (fun host =>
    String.ofList (host.toList.map Text.toAsciiLower))

/-! The counts of what was found. -/

structure FoundCounts where
  foundPrimary : Nat := 0
  foundExpansion : Nat := 0
  overlapConfirmed : Nat := 0
  uniquePrimary : Nat := 0
  uniqueExpansion : Nat := 0
  primaryHosts : List String := []
  expansionHosts : List String := []
  allHosts : List String := []

def withHost (host : Option String) (hosts : List String) : List String :=
  match host with
  | some host => OrdMap.setInsert host hosts
  | none => hosts

def FoundCounts.count (roles : RoleAssignment) (c : FoundCounts)
    (result : DeduplicatedResult Url) : FoundCounts :=
  let inPrimary := hasRole roles result .primary
  let inExpansion := hasRole roles result .expansion
  let host := hostOf result
  { foundPrimary := c.foundPrimary + inPrimary.toNat
    foundExpansion := c.foundExpansion + inExpansion.toNat
    overlapConfirmed := c.overlapConfirmed + (inPrimary && inExpansion).toNat
    uniquePrimary := c.uniquePrimary + (inPrimary && !inExpansion).toNat
    uniqueExpansion := c.uniqueExpansion + (!inPrimary && inExpansion).toNat
    primaryHosts := if inPrimary then withHost host c.primaryHosts else c.primaryHosts
    expansionHosts := if inExpansion then withHost host c.expansionHosts else c.expansionHosts
    allHosts := withHost host c.allHosts }

def foundCounts (roles : RoleAssignment) (deduped : List (DeduplicatedResult Url)) : FoundCounts :=
  deduped.foldl (FoundCounts.count roles) {}

omit [UrlCrate Url] in
/-- The results of the primary alone that may be a duplicate of one of the expansion alone. -/
def overlapPossible [DecidableEq Url] (roles : RoleAssignment)
    (deduped : List (DeduplicatedResult Url)) : Nat :=
  let expansionOnly := (deduped.filter (fun r =>
    !hasRole roles r .primary && hasRole roles r .expansion)).map DeduplicatedResult.canonicalUrl
  (deduped.filter (fun r => hasRole roles r .primary && !hasRole roles r .expansion &&
    r.possibleDuplicateWith.any expansionOnly.contains)).length

/-- There is nothing to compare where the roles are not in use. -/
def computeComplementarityMetrics [DecidableEq Url] (deduped : List (DeduplicatedResult Url))
    (roles : RoleAssignment) : Option ComplementarityMetrics :=
  if !roles.active then none
  else
    let c := foundCounts roles deduped
    let added := (c.expansionHosts.filter (fun host => !c.primaryHosts.contains host)).length
    let expansionRan := roles.expansionProviders.any (fun name =>
      deduped.any (fun r => r.providers.contains name)) || 0 < c.foundExpansion
    some {
      foundPrimary := c.foundPrimary
      foundExpansion := c.foundExpansion
      overlapConfirmed := c.overlapConfirmed
      overlapPossible := overlapPossible roles deduped
      uniquePrimary := c.uniquePrimary
      uniqueExpansion := c.uniqueExpansion
      primaryUniqueDomains :=
        (c.primaryHosts.filter (fun host => !c.expansionHosts.contains host)).length
      expansionUniqueDomains := added
      finalUniqueDomains := c.allHosts.length
      expansionNewDomains := added
      expansionOverlapRatio :=
        if expansionRan then some (ratio c.overlapConfirmed c.foundExpansion) else none
      expansionUniqueRatio :=
        if expansionRan then some (ratio c.uniqueExpansion c.foundExpansion) else none
      relevance := {} }

/-! The counts of what is relevant. -/

structure RoleRelevance where
  relevant : Nat := 0
  uniqueRelevant : Nat := 0
  possibly : Nat := 0
  notRelevant : Nat := 0
  exclusiveNotRelevant : Nat := 0
  unknown : Nat := 0

def RoleRelevance.add (classification : RelevanceClassification) (overlap : Bool)
    (r : RoleRelevance) : RoleRelevance :=
  match classification with
  | .relevant =>
    { r with relevant := r.relevant + 1, uniqueRelevant := r.uniqueRelevant + (!overlap).toNat }
  | .possiblyRelevant => { r with possibly := r.possibly + 1 }
  | .notRelevant =>
    { r with
      notRelevant := r.notRelevant + 1
      exclusiveNotRelevant := r.exclusiveNotRelevant + (!overlap).toNat }
  | .unknown => { r with unknown := r.unknown + 1 }

def RoleRelevance.total (r : RoleRelevance) : Nat :=
  r.relevant + r.possibly + r.notRelevant + r.unknown

structure RelevanceCounts where
  primary : RoleRelevance := {}
  expansion : RoleRelevance := {}
  assessable : Nat := 0

variable [UnicodeTables]

/-- One result is assessed, once for both roles. A result of neither role is passed over. -/
def RelevanceCounts.count (query : Query) (roles : RoleAssignment)
    (thresholds : RelevanceThresholds) (c : RelevanceCounts) (result : DeduplicatedResult Url) :
    RelevanceCounts :=
  let inPrimary := hasRole roles result .primary
  let inExpansion := hasRole roles result .expansion
  if !inPrimary && !inExpansion then c
  else
    let overlap := inPrimary && inExpansion
    let assessment := assessResult query result thresholds
    { primary :=
        if inPrimary then c.primary.add assessment.classification overlap else c.primary
      expansion :=
        if inExpansion then c.expansion.add assessment.classification overlap else c.expansion
      assessable := c.assessable + assessment.hadSufficientText.toNat }

def relevanceCounts (query : Query) (roles : RoleAssignment) (thresholds : RelevanceThresholds)
    (deduped : List (DeduplicatedResult Url)) : RelevanceCounts :=
  deduped.foldl (RelevanceCounts.count query roles thresholds) {}

def assessRelevance (query : Query) (deduped : List (DeduplicatedResult Url))
    (roles : RoleAssignment) (complementarity : ComplementarityMetrics)
    (thresholds : RelevanceThresholds) : Option RelevanceMetrics :=
  if !roles.active then none
  else
    let c := relevanceCounts query roles thresholds deduped
    let conclusive := c.expansion.uniqueRelevant + c.expansion.exclusiveNotRelevant
    let noise := ratio c.expansion.exclusiveNotRelevant conclusive
    let withRole := (deduped.filter (fun r =>
      hasRole roles r .primary || hasRole roles r .expansion)).length
    some {
      status :=
        if 0 < withRole && c.assessable * 2 < withRole then .insufficientEvidence else .assessed
      relevantPrimary := some c.primary.relevant
      relevantExpansion := some c.expansion.relevant
      uniqueRelevantPrimary := some c.primary.uniqueRelevant
      uniqueRelevantExpansion := some c.expansion.uniqueRelevant
      possiblyRelevantPrimary := some c.primary.possibly
      possiblyRelevantExpansion := some c.expansion.possibly
      notRelevantPrimary := some c.primary.notRelevant
      notRelevantExpansion := some c.expansion.notRelevant
      unknownPrimary := some c.primary.unknown
      unknownExpansion := some c.expansion.unknown
      expansionRelevantRatio := some (ratio c.expansion.relevant complementarity.foundExpansion)
      rawToRelevantExpansionRatio :=
        some (ratio c.expansion.uniqueRelevant complementarity.uniqueExpansion)
      expansionConfirmedNoiseRate := some noise
      expansionNoiseRate := some noise }

def enrichRelevanceMetrics (query : Query) (deduped : List (DeduplicatedResult Url))
    (roles : RoleAssignment) (thresholds : RelevanceThresholds)
    (metrics : ComplementarityMetrics) : ComplementarityMetrics :=
  match assessRelevance query deduped roles metrics thresholds with
  | some relevance => { metrics with relevance }
  | none => metrics

/-! Both counts agree on every result, so they agree on the list. -/

structure Agree (f : FoundCounts) (r : RelevanceCounts) : Prop where
  primary : f.foundPrimary = f.overlapConfirmed + f.uniquePrimary
  expansion : f.foundExpansion = f.overlapConfirmed + f.uniqueExpansion
  assessedPrimary : r.primary.total = f.foundPrimary
  assessedExpansion : r.expansion.total = f.foundExpansion
  uniquePrimary : r.primary.uniqueRelevant ≤ f.uniquePrimary
  uniqueExpansion : r.expansion.uniqueRelevant ≤ f.uniqueExpansion

omit [UrlCrate Url] [UnicodeTables] in
theorem RoleRelevance.total_add (classification : RelevanceClassification) (overlap : Bool)
    (r : RoleRelevance) : (r.add classification overlap).total = r.total + 1 := by
  cases classification <;> simp only [add, total] <;> omega

omit [UrlCrate Url] [UnicodeTables] in
theorem RoleRelevance.uniqueRelevant_add (classification : RelevanceClassification)
    (overlap : Bool) (r : RoleRelevance) :
    (r.add classification overlap).uniqueRelevant ≤ r.uniqueRelevant + (!overlap).toNat := by
  cases classification <;> simp only [add] <;> omega

theorem agree_count {query : Query} {roles : RoleAssignment} {thresholds : RelevanceThresholds}
    {f : FoundCounts} {r : RelevanceCounts} (h : Agree f r) (result : DeduplicatedResult Url) :
    Agree (f.count roles result) (r.count query roles thresholds result) := by
  obtain ⟨primary, expansion, assessedPrimary, assessedExpansion, uniquePrimary,
    uniqueExpansion⟩ := h
  have total := RoleRelevance.total_add (assessResult query result thresholds).classification
    (hasRole roles result .primary && hasRole roles result .expansion)
  have unique := RoleRelevance.uniqueRelevant_add
    (assessResult query result thresholds).classification
    (hasRole roles result .primary && hasRole roles result .expansion)
  have ofPrimary := total r.primary
  have ofExpansion := total r.expansion
  have morePrimary := unique r.primary
  have moreExpansion := unique r.expansion
  unfold FoundCounts.count RelevanceCounts.count
  cases inPrimary : hasRole roles result .primary <;>
    cases inExpansion : hasRole roles result .expansion <;>
    rw [inPrimary, inExpansion] at ofPrimary ofExpansion morePrimary moreExpansion <;>
    constructor <;>
    simp only [Bool.not_false, Bool.not_true, Bool.and_true, Bool.and_false, Bool.and_self,
      if_true, if_false, Bool.false_eq_true, Bool.toNat_true, Bool.toNat_false] at * <;>
    omega

theorem agree_counts (query : Query) (roles : RoleAssignment) (thresholds : RelevanceThresholds)
    (deduped : List (DeduplicatedResult Url)) :
    Agree (foundCounts roles deduped) (relevanceCounts query roles thresholds deduped) := by
  have run : ∀ (f : FoundCounts) (r : RelevanceCounts), Agree f r →
      Agree (deduped.foldl (FoundCounts.count roles) f)
        (deduped.foldl (RelevanceCounts.count query roles thresholds) r) := by
    induction deduped with
    | nil => exact fun f r h => h
    | cons result rest ih => exact fun f r h => ih _ _ (agree_count h result)
  exact run {} {} ⟨rfl, rfl, rfl, rfl, Nat.le_refl _, Nat.le_refl _⟩

def AddUp (parts : List (Option Nat)) (whole : Nat) : Prop :=
  ∃ counts : List Nat, parts = counts.map some ∧ counts.sum = whole

def AtMost (part : Option Nat) (whole : Nat) : Prop := ∃ count, part = some count ∧ count ≤ whole

/-- What the metrics of a search keep to. -/
structure Conserved (m : ComplementarityMetrics) : Prop where
  primary : m.foundPrimary = m.overlapConfirmed + m.uniquePrimary
  expansion : m.foundExpansion = m.overlapConfirmed + m.uniqueExpansion
  assessedPrimary : AddUp [m.relevance.relevantPrimary, m.relevance.possiblyRelevantPrimary,
    m.relevance.notRelevantPrimary, m.relevance.unknownPrimary] m.foundPrimary
  assessedExpansion : AddUp [m.relevance.relevantExpansion, m.relevance.possiblyRelevantExpansion,
    m.relevance.notRelevantExpansion, m.relevance.unknownExpansion] m.foundExpansion
  uniquePrimary : AtMost m.relevance.uniqueRelevantPrimary m.uniquePrimary
  uniqueExpansion : AtMost m.relevance.uniqueRelevantExpansion m.uniqueExpansion
  ratios : ∀ value : ℚ, some value ∈ [m.expansionOverlapRatio, m.expansionUniqueRatio,
    m.relevance.expansionRelevantRatio, m.relevance.rawToRelevantExpansionRatio,
    m.relevance.expansionConfirmedNoiseRate, m.relevance.expansionNoiseRate] →
      0 ≤ value ∧ value ≤ 1

/-- The metrics are there where the roles are in use, and add up. -/
theorem metrics_conserved [DecidableEq Url] (query : Query)
    (deduped : List (DeduplicatedResult Url)) (roles : RoleAssignment)
    (thresholds : RelevanceThresholds) (active : roles.active = true) :
    ∃ metrics, computeComplementarityMetrics deduped roles = some metrics ∧
      Conserved (enrichRelevanceMetrics query deduped roles thresholds metrics) := by
  have counts := agree_counts query roles thresholds deduped
  unfold computeComplementarityMetrics
  rw [active]
  refine ⟨_, rfl, ?_⟩
  unfold enrichRelevanceMetrics assessRelevance
  rw [active]
  have total := counts.assessedExpansion
  have found := counts.expansion
  have overlap : (foundCounts roles deduped).overlapConfirmed ≤
      (foundCounts roles deduped).foundExpansion := by omega
  have unique : (foundCounts roles deduped).uniqueExpansion ≤
      (foundCounts roles deduped).foundExpansion := by omega
  have relevant : (relevanceCounts query roles thresholds deduped).expansion.relevant ≤
      (foundCounts roles deduped).foundExpansion := by
    unfold RoleRelevance.total at total
    omega
  constructor
  · exact counts.primary
  · exact counts.expansion
  · have assessed := counts.assessedPrimary
    refine ⟨[_, _, _, _], rfl, ?_⟩
    simpa [RoleRelevance.total, Nat.add_assoc] using assessed
  · refine ⟨[_, _, _, _], rfl, ?_⟩
    simpa [RoleRelevance.total, Nat.add_assoc] using total
  · exact ⟨_, rfl, counts.uniquePrimary⟩
  · exact ⟨_, rfl, counts.uniqueExpansion⟩
  · intro value mem
    have noise : (relevanceCounts query roles thresholds deduped).expansion.exclusiveNotRelevant ≤
        (relevanceCounts query roles thresholds deduped).expansion.uniqueRelevant +
          (relevanceCounts query roles thresholds deduped).expansion.exclusiveNotRelevant := by
      omega
    have bounds : ∀ {part whole : Nat}, part ≤ whole → some value = some (ratio part whole) →
        0 ≤ value ∧ value ≤ 1 := by
      intro part whole least same
      rw [Option.some.inj same]
      exact ratio_bounds least
    simp only [List.mem_cons, List.not_mem_nil, or_false] at mem
    rcases mem with shared | alone | most | kept | confirmed | legacy
    · replace shared : some value = if _ then _ else none := shared
      split_ifs at shared
      exact bounds overlap shared
    · replace alone : some value = if _ then _ else none := alone
      split_ifs at alone
      exact bounds unique alone
    · exact bounds relevant most
    · exact bounds counts.uniqueExpansion kept
    · exact bounds noise confirmed
    · exact bounds noise legacy

end

def foundBy (host : String) (providers : List String) : DeduplicatedResult PlainUrl where
  title := none
  originalUrl := ⟨host, "/"⟩
  canonicalUrl := ⟨host, "/"⟩
  originalUrls := [⟨host, "/"⟩]
  providers
  representativeProvider := ""
  providerRanks := []
  snippet := none
  alternateSnippets := []
  resultType := .organic
  publishedAt := none
  author := none
  language := none
  fileType := none
  thumbnail := none
  metadata := []
  observedDates := []
  duplicateStatus := .distinct
  mergeReason := none
  possibleDuplicateWith := []

/-- One result of both roles, one of the expansion and one of neither. -/
theorem metrics_conserved_bothRoles :
    letI := asciiTables
    ∃ metrics, computeComplementarityMetrics [foundBy "a.example" ["p", "q"],
        foundBy "b.example" ["q"], foundBy "c.example" ["r"]] ⟨true, "p", ["q"]⟩ = some metrics ∧
      Conserved (enrichRelevanceMetrics
        ⟨"rust", "rust", [], [], [], [], [], none, none, none, none⟩
        [foundBy "a.example" ["p", "q"], foundBy "b.example" ["q"], foundBy "c.example" ["r"]]
        ⟨true, "p", ["q"]⟩ .default metrics) :=
  letI := asciiTables
  metrics_conserved _ _ _ _ rfl

end Amatl
