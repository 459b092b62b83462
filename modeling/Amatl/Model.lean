import Amatl.Externals
import Amatl.Lib.OrdMap
import Mathlib.Algebra.Order.Ring.Rat

/-! The records that move through a search, from a provider's answer to the
results handed to the caller. `Url` is the URL type of the `url` crate. -/

namespace Amatl

def schemaVersion : String := "1"

/-- What a search or a Deep run ran out of. -/
inductive BudgetExhaustionCause where
  | providerLimit | timeExhausted | deadlineNear | fetchLimit | byteLimit | redirectLimit
  | browserLimit | crawlLimit | costLimit | subqueryLimit
  deriving DecidableEq, Repr

def BudgetExhaustionCause.text : BudgetExhaustionCause → String
  | .providerLimit => "provider_limit"
  | .timeExhausted => "time_exhausted"
  | .deadlineNear => "deadline_near"
  | .fetchLimit => "fetch_limit"
  | .byteLimit => "byte_limit"
  | .redirectLimit => "redirect_limit"
  | .browserLimit => "browser_limit"
  | .crawlLimit => "crawl_limit"
  | .costLimit => "cost_limit"
  | .subqueryLimit => "subquery_limit"

/-- A rank is one-based. -/
structure Rank where
  value : UInt32
  pos : value ≠ 0
  deriving DecidableEq

theorem Rank.one_ne_zero : (1 : UInt32) ≠ 0 := by decide

def Rank.max : Rank := ⟨4294967295, by decide⟩

def Rank.new (value : UInt32) : Option Rank :=
  if h : value ≠ 0 then some ⟨value, h⟩ else none

theorem toNat_toUInt32_add_one (i : Nat) : (i.toUInt32 + 1).toNat = (i + 1) % 2 ^ 32 := by
  rw [UInt32.toNat_add, Nat.toUInt32_eq, UInt32.toNat_ofNat]
  change (i % 2 ^ 32 + 1) % 2 ^ 32 = (i + 1) % 2 ^ 32
  omega

theorem Rank.new_index {i : Nat} (h : i + 1 < 2 ^ 32) :
    ∃ rank, Rank.new (i.toUInt32 + 1) = some rank ∧ rank.value.toNat = i + 1 := by
  have value : (i.toUInt32 + 1).toNat = i + 1 := by
    rw [toNat_toUInt32_add_one]
    omega
  have nonzero : i.toUInt32 + 1 ≠ 0 := by
    intro bad
    rw [bad] at value
    cases value
  exact ⟨⟨i.toUInt32 + 1, nonzero⟩, by rw [Rank.new, dif_pos nonzero], value⟩

def Rank.min (left right : Rank) : Rank := if left.value ≤ right.value then left else right

/-- A score lies between zero and one. -/
structure RankingScore where
  value : ℚ
  nonneg : 0 ≤ value
  le_one : value ≤ 1
  deriving DecidableEq

def clamp (value : ℚ) : ℚ := max 0 (min 1 value)

theorem clamp_nonneg (value : ℚ) : 0 ≤ clamp value := le_max_left _ _

theorem clamp_le_one (value : ℚ) : clamp value ≤ 1 :=
  max_le (by decide +kernel) (min_le_left _ _)

def RankingScore.bounded (value : ℚ) : RankingScore :=
  ⟨clamp value, clamp_nonneg value, clamp_le_one value⟩

inductive ResultStatus where
  | visible
  | relegatedByDiversity
  deriving DecidableEq, Repr

inductive Category where
  | general | technical | code | documentation | news | academic | commercial | forum | social
  | media | navigation
  deriving DecidableEq, Repr

inductive ResultType where
  | organic | news | media | document | code | forum | social | commercial | navigation | other
  deriving DecidableEq, Repr, Ord

inductive ProviderExecutionStatus where
  | success | partialSuccess | failure
  deriving DecidableEq, Repr

inductive ProviderErrorKind where
  | timeout | rateLimit | auth | network | invalidResponse | parserError | quota | unavailable
  deriving DecidableEq, Repr

inductive FieldProvenance where
  | reported | derived
  deriving DecidableEq, Repr

inductive CanonicalizationStatus where
  | complete | degraded
  deriving DecidableEq, Repr

inductive CanonicalTransformation where
  | lowercaseScheme | lowercaseHost | idnToPunycode | removeDefaultPort | addRootPath
  | normalizePercentHex
  | removeTrackingParameter (key : String)
  | removeEmptyFragment
  deriving DecidableEq, Repr

inductive DuplicateStatus where
  | confirmedDuplicate | possibleDuplicate | distinct
  deriving DecidableEq, Repr

inductive MergeReason where
  | originalUrlExact | canonicalUrlExact
  deriving DecidableEq, Repr

inductive TieBreakReason where
  | combinedScore | titleMatch | stableOrder
  deriving DecidableEq, Repr

structure Degradation where
  code : String
  component : String
  message : String
  deriving DecidableEq, Repr

structure Query where
  rawQuery : String
  normalizedQuery : String
  quotedTerms : List String
  excludedTerms : List String
  domains : List String
  excludedDomains : List String
  fileTypes : List String
  language : Option String
  region : Option String
  dateFrom : Option String
  dateTo : Option String
  deriving DecidableEq, Repr

structure ProviderError where
  provider : String
  kind : ProviderErrorKind
  message : String
  retryAfterMs : Option UInt64
  deriving DecidableEq, Repr

structure ProviderItem where
  title : Option String
  url : String
  providerRank : Option Rank
  snippet : Option String
  resultType : Option ResultType
  publishedAt : Option String
  author : Option String
  language : Option String
  fileType : Option String
  thumbnail : Option String
  metadata : List (String × String)
  deriving DecidableEq

structure ProviderResult where
  provider : String
  status : ProviderExecutionStatus
  results : List ProviderItem
  acceptedFilters : List String
  ignoredFilters : List String
  approximatedFilters : List String
  errors : List ProviderError
  deriving DecidableEq

structure NormalizedResult (Url : Type) where
  title : Option String
  rawUrl : String
  url : Url
  provider : String
  providerRank : Option Rank
  snippet : Option String
  resultType : ResultType
  publishedAt : Option String
  author : Option String
  language : Option String
  fileType : Option String
  thumbnail : Option String
  metadata : List (String × String)
  provenance : List (String × FieldProvenance)
  degradations : List Degradation
  deriving DecidableEq

structure CanonicalResult (Url : Type) where
  title : Option String
  originalUrl : Url
  canonicalUrl : Url
  provider : String
  providerRank : Option Rank
  snippet : Option String
  resultType : ResultType
  publishedAt : Option String
  author : Option String
  language : Option String
  fileType : Option String
  thumbnail : Option String
  metadata : List (String × String)
  provenance : List (String × FieldProvenance)
  transformations : List CanonicalTransformation
  canonicalizationStatus : CanonicalizationStatus
  degradations : List Degradation
  deriving DecidableEq

structure DeduplicatedResult (Url : Type) where
  title : Option String
  originalUrl : Url
  canonicalUrl : Url
  originalUrls : List Url
  providers : List String
  representativeProvider : String
  providerRanks : List (String × Option Rank)
  snippet : Option String
  alternateSnippets : List String
  resultType : ResultType
  publishedAt : Option String
  author : Option String
  language : Option String
  fileType : Option String
  thumbnail : Option String
  metadata : List (String × String)
  observedDates : List String
  duplicateStatus : DuplicateStatus
  mergeReason : Option MergeReason
  possibleDuplicateWith : List Url
  deriving DecidableEq

structure RankingExplanation where
  rankingPolicy : String
  rrf : RankingScore
  titleMatch : RankingScore
  snippetMatch : RankingScore
  freshness : RankingScore
  providerAgreement : RankingScore
  combinedScore : RankingScore
  tieBreak : TieBreakReason
  deriving DecidableEq

structure RankedResult (Url : Type) where
  result : DeduplicatedResult Url
  score : RankingScore
  titleMatch : RankingScore
  stableOrder : Nat
  explanation : RankingExplanation
  deriving DecidableEq

structure SearchResult (Url : Type) where
  rank : Rank
  title : Option String
  originalUrl : Url
  canonicalUrl : Url
  domain : String
  snippet : Option String
  providers : List String
  publishedAt : Option String
  status : ResultStatus
  deriving DecidableEq

structure CompositeError where
  code : String
  message : String
  providers : List String
  recoverable : Bool
  deriving DecidableEq, Repr

inductive SearchStatus where
  | success | partialSuccess | failure
  deriving DecidableEq, Repr

structure SearchResponse (Url : Type) where
  query : String
  status : SearchStatus
  results : List (SearchResult Url)
  providersUsed : List String
  providersFailed : List String
  providersPartial : List String
  errors : List CompositeError
  degradations : List Degradation
  elapsedMs : UInt64
  totalResults : Option UInt64
  page : Option UInt32
  pageSize : Option UInt32
  deriving DecidableEq

end Amatl
