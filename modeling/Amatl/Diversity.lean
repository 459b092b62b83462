import Amatl.Adjustments

/-! Diversity limits: a result that exceeds a limit is relegated unless its
score clears the override ratio against the next result of every exceeded
group. -/

namespace Amatl

open UrlCrate

structure DiversityPolicyV1 where
  version : String
  maxVisiblePerDomain : Nat
  maxVisiblePerProvider : Nat
  maxVisiblePerResultType : Nat
  relevanceOverrideRatio : F64
  deriving DecidableEq

def DiversityPolicyV1.default : DiversityPolicyV1 where
  version := "v1"
  maxVisiblePerDomain := 2
  maxVisiblePerProvider := 5
  maxVisiblePerResultType := 6
  relevanceOverrideRatio := .finite (115 / 100)

inductive DiversityPolicyError where
  | version | limit | override
  deriving DecidableEq, Repr

def DiversityPolicyError.message : DiversityPolicyError → String
  | .version => "diversity policy version must be v1"
  | .limit => "diversity limits must be positive"
  | .override => "diversity override ratio must be finite and at least one"

def DiversityPolicyV1.validate (p : DiversityPolicyV1) : Except DiversityPolicyError Unit :=
  if p.version ≠ "v1" then .error .version
  else if p.maxVisiblePerDomain = 0 ∨ p.maxVisiblePerProvider = 0 ∨
      p.maxVisiblePerResultType = 0 then .error .limit
  else if !p.relevanceOverrideRatio.isFinite || F64.lt p.relevanceOverrideRatio (.finite 1) then
    .error .override
  else .ok ()

def DiversityPolicyV1.effective (p : DiversityPolicyV1) : DiversityPolicyV1 :=
  match p.validate with
  | .ok () => p
  | .error _ => .default

inductive Group where
  | domain (value : String)
  | provider (value : String)
  | resultType (value : ResultType)
  deriving DecidableEq, Repr

def Group.limitName : Group → String
  | .domain _ => "domain"
  | .provider _ => "provider"
  | .resultType _ => "result_type"

def ResultType.debugLower : ResultType → String
  | .organic => "organic"
  | .news => "news"
  | .media => "media"
  | .document => "document"
  | .code => "code"
  | .forum => "forum"
  | .social => "social"
  | .commercial => "commercial"
  | .navigation => "navigation"
  | .other => "other"

def Group.value : Group → String
  | .domain value | .provider value => value
  | .resultType value => value.debugLower

structure DiversityDecision where
  rank : Rank
  limit : String
  group : String
  score : RankingScore
  comparatorScore : Option RankingScore
  overrideApplied : Bool
  deriving DecidableEq

structure DiversityMetrics where
  visibleResults : Nat
  uniqueDomains : Nat
  uniqueProviders : Nat
  uniqueResultTypes : Nat
  deriving DecidableEq, Repr

structure DiversityOutput (Url : Type) where
  results : List (SearchResult Url)
  decisions : List DiversityDecision
  metrics : DiversityMetrics
  deriving DecidableEq

/-- Visible results counted by domain, provider and type. -/
structure VisibleCounts where
  domains : List (String × Nat)
  providers : List (String × Nat)
  resultTypes : List (ResultType × Nat)
  deriving DecidableEq, Repr

def VisibleCounts.empty : VisibleCounts := ⟨[], [], []⟩

def bump {K : Type} [Ord K] (key : K) (counts : List (K × Nat)) : List (K × Nat) :=
  OrdMap.upsert key (fun n => n.getD 0 + 1) counts

section

variable {Url : Type} [UrlCrate Url]

def Group.covers (candidate : RankedResult Url) : Group → Bool
  | .domain value => hostStr candidate.result.canonicalUrl == some value
  | .provider value => candidate.result.providers.contains value
  | .resultType value => candidate.result.resultType == value

def nextComparator (following : List (RankedResult Url)) (group : Group) : Option RankingScore :=
  (following.find? (fun candidate => group.covers candidate)).map (fun candidate => candidate.score)

def exceededGroups (policy : DiversityPolicyV1) (counts : VisibleCounts) (domain : String)
    (ranked : RankedResult Url) : List Group :=
  (if policy.maxVisiblePerDomain ≤ (OrdMap.get? domain counts.domains).getD 0 then
    [Group.domain domain] else []) ++
  (ranked.result.providers.filter (fun provider =>
    policy.maxVisiblePerProvider ≤ (OrdMap.get? provider counts.providers).getD 0)).map
      Group.provider ++
  (if policy.maxVisiblePerResultType ≤
      (OrdMap.get? ranked.result.resultType counts.resultTypes).getD 0 then
    [Group.resultType ranked.result.resultType] else [])

def VisibleCounts.record (counts : VisibleCounts) (domain : String) (ranked : RankedResult Url) :
    VisibleCounts where
  domains := bump domain counts.domains
  providers := ranked.result.providers.foldl (fun m provider => bump provider m) counts.providers
  resultTypes := bump ranked.result.resultType counts.resultTypes

def positionRank (index : Nat) : Rank := (Rank.new (index.toUInt32 + 1)).getD Rank.max

/-- The result loop, from position `index` on. -/
def diversifyFrom (policy : DiversityPolicyV1) (index : Nat) (counts : VisibleCounts) :
    List (RankedResult Url) → List (SearchResult Url) × List DiversityDecision × VisibleCounts
  | [] => ([], [], counts)
  | ranked :: following =>
    let domain := (hostStr ranked.result.canonicalUrl).getD ""
    let exceeded := exceededGroups policy counts domain ranked
    let overrideApplied := !exceeded.isEmpty && exceeded.all (fun group =>
      (nextComparator following group).any (fun score =>
        score.value * policy.relevanceOverrideRatio.toRat ≤ ranked.score.value))
    let decided := exceeded.map (fun group =>
      { rank := positionRank index, limit := group.limitName, group := group.value,
        score := ranked.score, comparatorScore := nextComparator following group,
        overrideApplied : DiversityDecision })
    let visible := exceeded.isEmpty || overrideApplied
    let counts := if visible then counts.record domain ranked else counts
    let shown : SearchResult Url :=
      { rank := positionRank index, title := ranked.result.title,
        originalUrl := ranked.result.originalUrl, canonicalUrl := ranked.result.canonicalUrl,
        domain, snippet := ranked.result.snippet, providers := ranked.result.providers,
        publishedAt := ranked.result.publishedAt,
        status := if visible then .visible else .relegatedByDiversity }
    let (results, decisions, counts) := diversifyFrom policy (index + 1) counts following
    (shown :: results, decided ++ decisions, counts)

def diversify (results : List (RankedResult Url)) (policy : DiversityPolicyV1) :
    DiversityOutput Url :=
  let (results, decisions, counts) := diversifyFrom policy.effective 0 .empty results
  { results, decisions,
    metrics :=
      { visibleResults := (OrdMap.values counts.domains).sum,
        uniqueDomains := counts.domains.length, uniqueProviders := counts.providers.length,
        uniqueResultTypes := counts.resultTypes.length } }

end

end Amatl
