import Amatl.Dedupe
import Amatl.Lib.F64

/-! Ranking v1: a weighted sum of five signals, exact arithmetic throughout. -/

namespace Amatl

open UrlCrate StableSort

structure RankingPolicyV1 where
  version : String
  rrfK : UInt32
  weightRrf : F64
  weightTitleMatch : F64
  weightSnippetMatch : F64
  weightFreshness : F64
  weightProviderAgreement : F64
  freshnessHalfLifeDays : UInt32
  freshnessUnknown : F64
  deriving DecidableEq

def RankingPolicyV1.default : RankingPolicyV1 where
  version := "v1"
  rrfK := 60
  weightRrf := .finite (35 / 100)
  weightTitleMatch := .finite (30 / 100)
  weightSnippetMatch := .finite (15 / 100)
  weightFreshness := .finite (10 / 100)
  weightProviderAgreement := .finite (10 / 100)
  freshnessHalfLifeDays := 30
  freshnessUnknown := .finite 0

inductive RankingPolicyError where
  | version | positiveInteger | range | weightSum
  deriving DecidableEq, Repr

def RankingPolicyError.message : RankingPolicyError → String
  | .version => "ranking policy version must be v1"
  | .positiveInteger => "rrf_k and freshness_half_life_days must be positive"
  | .range => "ranking weights and freshness_unknown must be in range"
  | .weightSum => "ranking weights must sum to one"

/-- Every weight that reaches the sum has passed the range check and is finite. -/
def RankingPolicyV1.validate (p : RankingPolicyV1) : Except RankingPolicyError Unit :=
  let sum := p.weightRrf.toRat + p.weightTitleMatch.toRat + p.weightSnippetMatch.toRat +
    p.weightFreshness.toRat + p.weightProviderAgreement.toRat
  if p.version ≠ "v1" then .error .version
  else if p.rrfK = 0 ∨ p.freshnessHalfLifeDays = 0 then .error .positiveInteger
  else if [p.weightRrf, p.weightTitleMatch, p.weightSnippetMatch, p.weightFreshness,
      p.weightProviderAgreement, p.freshnessUnknown].any
      (fun value => !F64.within (.finite 0) (.finite 1) value) then .error .range
  else if 1 / 10 ^ 12 < |sum - 1| then .error .weightSum
  else .ok ()

/-- The policy `rank` works with: the given one if it is valid. -/
def RankingPolicyV1.effective (p : RankingPolicyV1) : RankingPolicyV1 :=
  match p.validate with
  | .ok () => p
  | .error _ => .default

section

variable {Url : Type}

def rrf (result : DeduplicatedResult Url) (k : UInt32) : ℚ :=
  let ranks := (OrdMap.values result.providerRanks).filterMap id
  if ranks.isEmpty then 0
  else
    let raw := (ranks.map (fun rank => 1 / ((k.toNat : ℚ) + rank.value.toNat))).sum
    clamp (raw / ranks.length / (1 / ((k.toNat : ℚ) + 1)))

def agreement (providerCount activeProviderCount : Nat) : ℚ :=
  if activeProviderCount ≤ 1 then 0
  else clamp (((providerCount - 1 : Nat) : ℚ) / ((activeProviderCount - 1 : Nat) : ℚ))

def freshness [TimeCrate] [Powf] (publishedAt : Option String) (reference : Option Int)
    (policy : RankingPolicyV1) : ℚ :=
  match reference, publishedAt.bind TimeCrate.parseRfc3339 with
  | some reference, some published =>
    let ageSeconds : Int := max ((reference - published).tdiv 1000000000) 0
    let ageDays : ℚ := ageSeconds / 86400
    Powf.exp2 (-ageDays / policy.freshnessHalfLifeDays.toNat)
  | _, _ => policy.freshnessUnknown.toRat

variable [UnicodeTables]

def textMatch (value : Option String) (queryTokens : List String) (phrases : List (List Char)) :
    ℚ :=
  match value with
  | none => 0
  | some value =>
    if queryTokens.isEmpty then 0
    else
      let prepared := normalizedText value.toList
      let fieldTokens := tokens prepared
      let coverage : ℚ := OrdMap.interCount queryTokens fieldTokens / queryTokens.length
      let phraseBonus : ℚ := if phrases.isEmpty then 0
        else (phrases.filter (fun phrase => Text.contains phrase prepared)).length / phrases.length
      min (85 / 100 * coverage + 15 / 100 * phraseBonus) 1

def rankingQueryTokens (query : Query) : List String :=
  query.quotedTerms.foldl
    (fun output phrase => (tokens phrase.toList).foldl (fun s t => OrdMap.setInsert t s) output)
    (tokens query.normalizedQuery.toList)

/-- Score and title signal descending, then the stable order. -/
def compareRanked : RankedResult Url → RankedResult Url → Ordering :=
  compareLex (fun left right => compareOfLessAndEq right.score.value left.score.value)
    (compareLex (fun left right => compareOfLessAndEq right.titleMatch.value left.titleMatch.value)
      (compareOn (fun r => r.stableOrder)))

def tieBreakAfter (previous current : RankedResult Url) : TieBreakReason :=
  if previous.score = current.score then
    if previous.titleMatch = current.titleMatch then .stableOrder else .titleMatch
  else .combinedScore

/-- Every result but the first is explained against its predecessor. -/
def explainTies : List (RankedResult Url) → List (RankedResult Url)
  | [] => []
  | first :: rest => first :: (List.zip (first :: rest) rest).map (fun pair =>
      { pair.2 with explanation :=
        { pair.2.explanation with tieBreak := tieBreakAfter pair.1 pair.2 } })

variable [UrlCrate Url]

def compareStable : DeduplicatedResult Url → DeduplicatedResult Url → Ordering :=
  compareLex (compareOn (fun r => asStr r.canonicalUrl))
    (compareLex (compareOn (fun r => asStr r.originalUrl))
      (compareOn (fun r => r.representativeProvider)))

variable [TimeCrate] [Powf]

def scoreResult (policy : RankingPolicyV1) (reference : Option Int) (queryTokens : List String)
    (phrases : List (List Char)) (activeProviderCount stableOrder : Nat)
    (result : DeduplicatedResult Url) : RankedResult Url :=
  let rrfValue := rrf result policy.rrfK
  let titleMatch := textMatch result.title queryTokens phrases
  let snippetMatch := textMatch result.snippet queryTokens phrases
  let fresh := freshness result.publishedAt reference policy
  let providerAgreement := agreement result.providers.length activeProviderCount
  let combined := clamp (policy.weightRrf.toRat * rrfValue +
    policy.weightTitleMatch.toRat * titleMatch + policy.weightSnippetMatch.toRat * snippetMatch +
    policy.weightFreshness.toRat * fresh +
    policy.weightProviderAgreement.toRat * providerAgreement)
  { result, score := .bounded combined, titleMatch := .bounded titleMatch, stableOrder,
    explanation :=
      { rankingPolicy := policy.version, rrf := .bounded rrfValue,
        titleMatch := .bounded titleMatch, snippetMatch := .bounded snippetMatch,
        freshness := .bounded fresh, providerAgreement := .bounded providerAgreement,
        combinedScore := .bounded combined, tieBreak := .combinedScore } }

def rank (query : Query) (rankingReferenceTime : String) (activeProviderCount : Nat)
    (results : List (DeduplicatedResult Url)) (policy : RankingPolicyV1) :
    List (RankedResult Url) :=
  let policy := policy.effective
  let reference := TimeCrate.parseRfc3339 rankingReferenceTime
  let queryTokens := rankingQueryTokens query
  let phrases := (query.quotedTerms.map (fun phrase => normalizedText phrase.toList)).filter
    (fun phrase => !phrase.isEmpty)
  let ranked := (sortBy compareStable results).zipIdx.map (fun r =>
    scoreResult policy reference queryTokens phrases activeProviderCount r.2 r.1)
  explainTies (sortBy compareRanked ranked)

end

end Amatl
