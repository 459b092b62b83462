import Amatl.Diversity
import Mathlib.Data.Finset.Card

/-! The policy of the progressive search and the measures it decides on. -/

namespace Amatl

structure SearchPolicyV1 where
  version : String
  firstRoundMinProviders : Nat
  firstRoundMaxProviders : Nat
  minimumUsefulResults : Nat
  targetUsefulResults : Nat
  minimumUniqueDomains : Nat
  targetUniqueDomains : Nat
  lowDiversityDomainRatio : F64
  lowDiversityProviderRatio : F64
  lowDiversityResultTypeRatio : F64
  minimumMarginalGain : F64
  minimumExpectedMarginalGain : F64
  minimumRemainingDeadlineMs : UInt64
  maximumResultsPerDomain : Nat
  maximumResultsPerProvider : Nat
  maximumResultsPerResultType : Nat
  minimumExplorationRatio : F64
  deriving DecidableEq

def SearchPolicyV1.default : SearchPolicyV1 where
  version := "v1"
  firstRoundMinProviders := 2
  firstRoundMaxProviders := 3
  minimumUsefulResults := 8
  targetUsefulResults := 12
  minimumUniqueDomains := 4
  targetUniqueDomains := 6
  lowDiversityDomainRatio := .finite (50 / 100)
  lowDiversityProviderRatio := .finite (20 / 100)
  lowDiversityResultTypeRatio := .finite (20 / 100)
  minimumMarginalGain := .finite (15 / 100)
  minimumExpectedMarginalGain := .finite (15 / 100)
  minimumRemainingDeadlineMs := 750
  maximumResultsPerDomain := 2
  maximumResultsPerProvider := 5
  maximumResultsPerResultType := 6
  minimumExplorationRatio := .finite (10 / 100)

inductive SearchPolicyError where
  | version | limit | ratio
  deriving DecidableEq, Repr

def SearchPolicyError.message : SearchPolicyError → String
  | .version => "search policy version must be v1"
  | .limit => "search policy counts and limits must be positive and ordered"
  | .ratio => "search policy ratios must be finite values between zero and one"

def SearchPolicyV1.validate (p : SearchPolicyV1) : Except SearchPolicyError Unit :=
  if p.version ≠ "v1" then .error .version
  else if p.firstRoundMinProviders = 0 ∨ p.firstRoundMaxProviders < p.firstRoundMinProviders ∨
      p.minimumUsefulResults = 0 ∨ p.targetUsefulResults < p.minimumUsefulResults ∨
      p.minimumUniqueDomains = 0 ∨ p.targetUniqueDomains < p.minimumUniqueDomains ∨
      p.minimumRemainingDeadlineMs = 0 ∨ p.maximumResultsPerDomain = 0 ∨
      p.maximumResultsPerProvider = 0 ∨ p.maximumResultsPerResultType = 0 then .error .limit
  else if [p.lowDiversityDomainRatio, p.lowDiversityProviderRatio, p.lowDiversityResultTypeRatio,
      p.minimumMarginalGain, p.minimumExpectedMarginalGain, p.minimumExplorationRatio].any
      (fun value => !value.isFinite || !F64.within (.finite 0) (.finite 1) value) then .error .ratio
  else .ok ()

def SearchPolicyV1.effective (p : SearchPolicyV1) : SearchPolicyV1 :=
  match p.validate with
  | .ok () => p
  | .error _ => .default

structure CoverageMetrics where
  usefulResults : Nat
  uniqueDomains : Nat
  uniqueProviders : Nat
  uniqueResultTypes : Nat
  visibleResults : Nat
  coverageMinimum : Bool
  coverageTarget : Bool
  lowDiversity : Bool
  deriving DecidableEq, Repr

inductive SearchStopReason where
  | timeExhausted | deadlineNear | providerLimit | coverageTargetReached | marginalGainLow
  | providersExhausted | explicitFilterSatisfied
  deriving DecidableEq, Repr

def SearchStopReason.asStr : SearchStopReason → String
  | .timeExhausted => "time_exhausted"
  | .deadlineNear => "deadline_near"
  | .providerLimit => "provider_limit"
  | .coverageTargetReached => "coverage_target_reached"
  | .marginalGainLow => "marginal_gain_low"
  | .providersExhausted => "providers_exhausted"
  | .explicitFilterSatisfied => "explicit_filter_satisfied"

section

variable {Url : Type}

def evaluateCoverage (results : List (SearchResult Url)) (diversity : DiversityMetrics)
    (policy : SearchPolicyV1) : CoverageMetrics :=
  let policy := policy.effective
  let useful := results.filter (fun result => result.domain != "")
  let uniqueDomains := (useful.map (fun result => result.domain)).toFinset.card
  let visible := diversity.visibleResults
  let below := fun (count : Nat) (ratio : F64) => F64.lt (.finite (count / visible)) ratio
  { usefulResults := useful.length
    uniqueDomains
    uniqueProviders := (useful.flatMap (fun result => result.providers)).toFinset.card
    uniqueResultTypes := diversity.uniqueResultTypes
    visibleResults := visible
    coverageMinimum := policy.minimumUsefulResults ≤ useful.length &&
      policy.minimumUniqueDomains ≤ uniqueDomains
    coverageTarget := policy.targetUsefulResults ≤ useful.length &&
      policy.targetUniqueDomains ≤ uniqueDomains
    lowDiversity := if visible < 3 then false
      else below diversity.uniqueDomains policy.lowDiversityDomainRatio ||
        below diversity.uniqueProviders policy.lowDiversityProviderRatio ||
        below diversity.uniqueResultTypes policy.lowDiversityResultTypeRatio }

/-- How many results have a canonical URL that was not there before. -/
def observedMarginalGain [UrlCrate Url] (previous current : List (SearchResult Url)) : Nat :=
  (current.filter (fun result => !previous.any (fun before =>
    UrlCrate.asStr before.canonicalUrl == UrlCrate.asStr result.canonicalUrl))).length

end

end Amatl
