import Amatl.Lib.F64
import Amatl.Semantics
import Amatl.Router

/-! The relevance of a result to a query. It is decided by the text of the result and the rank its
providers gave it, by branches in a fixed order. -/

namespace Amatl

open Text UrlCrate

structure RelevanceThresholds where
  relevantTitleCoverage : F64
  relevantCombinedCoverage : F64
  relevantSnippetCoverage : F64
  possiblyRelevantCoverage : F64
  notRelevantCeiling : F64
  minTitleTokensWithoutSnippet : Nat
  semanticMorphology : Bool
  semanticAliases : Bool
  semanticIntent : Bool
  deriving DecidableEq

def RelevanceThresholds.default : RelevanceThresholds where
  relevantTitleCoverage := .finite (75 / 100)
  relevantCombinedCoverage := .finite 1
  relevantSnippetCoverage := .finite (90 / 100)
  possiblyRelevantCoverage := .finite (40 / 100)
  notRelevantCeiling := .finite (25 / 100)
  minTitleTokensWithoutSnippet := 2
  semanticMorphology := true
  semanticAliases := true
  semanticIntent := true

def RelevanceThresholds.anySemantic (t : RelevanceThresholds) : Bool :=
  t.semanticMorphology || t.semanticAliases || t.semanticIntent

inductive RelevanceClassification where
  | relevant | possiblyRelevant | notRelevant | unknown
  deriving DecidableEq, Repr

structure ResultRelevanceAssessment where
  titleTermCoverage : ℚ
  snippetTermCoverage : ℚ
  urlTermCoverage : ℚ
  exactPhraseMatch : Bool
  matchedQueryTerms : Nat
  queryTermsTotal : Nat
  hadSufficientText : Bool
  providerRankIsTop : Option Bool
  classification : RelevanceClassification
  stemmedTermMatches : List String
  aliasMatches : List String
  queryIntent : Option String
  subjectTerms : List String
  subjectMatch : Bool
  entityMatch : Bool
  negativeEvidence : NegativeRelevanceEvidence
  deriving DecidableEq

def NegativeRelevanceEvidence.isBlocking (n : NegativeRelevanceEvidence) : Bool :=
  n.subjectMismatch || n.entityMismatch

def stopWords : List String :=
  ["a", "an", "and", "are", "as", "at", "be", "by", "for", "from", "how", "in", "is", "it", "of",
    "on", "or", "the", "to", "vs", "what", "when", "where", "which", "who", "why", "with"]

/-- `value >= threshold` on a number that is finite. -/
def reaches (threshold : F64) (value : ℚ) : Bool := F64.le threshold (.finite value)

/-- `f64::max`, which passes over what is not a number. -/
def floatMax (a b : F64) : F64 :=
  if a = .nan then b else if b = .nan then a else if F64.le a b then b else a

section

variable [UnicodeTables]

def significantQueryTerms (query : Query) : List String :=
  OrdMap.setOf ((tokens query.normalizedQuery.toList).filter (fun t => !stopWords.contains t) ++
    query.quotedTerms.flatMap (fun phrase => tokens phrase.toList))

def quotedPhrases (query : Query) : List (List Char) :=
  (query.quotedTerms.map (fun phrase => normalizedText phrase.toList)).filter (fun p => !p.isEmpty)

def coverage (field : Option String) (terms : List String) : ℚ × List String :=
  match field with
  | none => (0, [])
  | some field =>
    if terms.isEmpty then (0, [])
    else
      let matched := terms.filter (tokens field.toList).contains
      (matched.length / terms.length, matched)

def exactPhrase (query : Query) (title snippet : Option String) : Bool :=
  (quotedPhrases query).any (fun phrase =>
    Text.contains phrase ((title.map (fun t => normalizedText t.toList)).getD []) ||
      Text.contains phrase ((snippet.map (fun t => normalizedText t.toList)).getD []))

/-- Whether some provider ranked the result first, if any gave it a rank. -/
def rankIsTop (ranks : List (String × Option Rank)) : Option Bool :=
  (ranks.filterMap Prod.snd).foldl
    (fun found rank => some (found.getD false || rank.value == 1)) none

variable {Url : Type} [UrlCrate Url]

def urlTokens (result : DeduplicatedResult Url) : String :=
  let path := (UrlCrate.path result.canonicalUrl).toList.map (fun c =>
    if c = '/' ∨ c = '-' ∨ c = '_' ∨ c = '.' then ' ' else c)
  String.ofList (join [' '] (((hostStr result.canonicalUrl).map String.toList).toList ++ [path]))

/-- What the branches look at. -/
structure RelevanceSignals where
  titleCoverage : ℚ
  snippetCoverage : ℚ
  urlCoverage : ℚ
  combined : ℚ
  matched : List String
  terms : List String
  exactPhraseMatch : Bool
  hasSnippet : Bool
  hadSufficientText : Bool
  providerRankIsTop : Option Bool
  semantic : SemanticAssessment
  morphHits : Nat
  aliasHits : List String
  intentActive : Bool
  subjectMatch : Bool
  entityMatch : Bool
  negative : NegativeRelevanceEvidence
  semanticCoverage : ℚ

/-- The evidence of the families that are switched on. -/
def negativeEvidence (thresholds : RelevanceThresholds) (semantic : SemanticAssessment) :
    NegativeRelevanceEvidence :=
  if thresholds.semanticIntent then semantic.negativeEvidence
  else { aliasConflict := thresholds.semanticAliases && semantic.negativeEvidence.aliasConflict }

def relevanceSignals (query : Query) (result : DeduplicatedResult Url)
    (thresholds : RelevanceThresholds) : RelevanceSignals :=
  let terms := significantQueryTerms query
  let (titleCoverage, titleMatched) := coverage result.title terms
  let (snippetCoverage, snippetMatched) := coverage result.snippet terms
  let urlBlob := urlTokens result
  let (urlCoverage, urlMatched) := coverage (some urlBlob) terms
  let matched := OrdMap.setOf (titleMatched ++ snippetMatched ++ urlMatched)
  let titleTokens := (result.title.map (fun t => (tokens t.toList).length)).getD 0
  let hasSnippet := (result.snippet.map (fun s => !(trim s.toList).isEmpty)).getD false
  let semantic := if thresholds.anySemantic then
      assessSemantics query result.title result.snippet urlBlob matched
    else {}
  let morphHits := if thresholds.semanticMorphology then semantic.stemmedTermMatches.length else 0
  let aliasHits := if thresholds.semanticAliases then semantic.aliasMatches else []
  let intentActive := thresholds.semanticIntent && semantic.queryIntent.isSome
  let semanticMatched := matched.length + morphHits + aliasHits.length
  { titleCoverage, snippetCoverage, urlCoverage
    combined := titleCoverage + 1 / 2 * snippetCoverage
    matched, terms
    exactPhraseMatch := exactPhrase query result.title result.snippet
    hasSnippet
    hadSufficientText :=
      hasSnippet || max thresholds.minTitleTokensWithoutSnippet 1 ≤ titleTokens
    providerRankIsTop := rankIsTop result.providerRanks
    semantic, morphHits, aliasHits, intentActive
    subjectMatch := intentActive && semantic.subjectMatch
    entityMatch := intentActive && semantic.entityMatch
    negative := negativeEvidence thresholds semantic
    semanticCoverage := if terms.isEmpty then 0 else min (semanticMatched / terms.length) 1 }

end

namespace RelevanceSignals

variable (s : RelevanceSignals) (t : RelevanceThresholds)

def blockingNegative : Bool := s.negative.entityMismatch || s.negative.subjectMismatch

def strongSnippet : Bool :=
  reaches t.relevantSnippetCoverage s.snippetCoverage && 2 ≤ s.matched.length

def strongSemanticRescue : Bool :=
  !s.blockingNegative && s.subjectMatch &&
    (!s.aliasHits.isEmpty || s.entityMatch || 75 / 100 ≤ s.semanticCoverage)

def lexicalStrong : Bool :=
  reaches t.relevantTitleCoverage s.titleCoverage ||
    reaches t.relevantCombinedCoverage s.combined || s.strongSnippet t

def lexicalModerate : Bool :=
  !s.lexicalStrong t && (reaches t.possiblyRelevantCoverage s.titleCoverage ||
    reaches t.possiblyRelevantCoverage s.snippetCoverage ||
    reaches t.possiblyRelevantCoverage s.combined || 1 / 2 ≤ s.semanticCoverage)

end RelevanceSignals

/-- Whether an intent with its evidence may lift a result that matches few terms. -/
def intentRescueQualifies (intentTag : Option String) (subjectMatch entityMatch : Bool)
    (aliasHits : List String) (semanticCoverage : ℚ) : Bool :=
  let corroborated := subjectMatch && (!aliasHits.isEmpty || 6 / 10 ≤ semanticCoverage)
  match intentTag with
  | none => false
  | some tag =>
    if tag = "factual_attribution" then entityMatch
    else if tag = "factual_capital" then entityMatch || corroborated
    else corroborated

def demoteWeak (hasSnippet : Bool) (combined : ℚ) (thresholds : RelevanceThresholds) :
    RelevanceClassification :=
  if hasSnippet && F64.le (.finite combined)
      (floatMax thresholds.notRelevantCeiling (.finite (1 / 2))) then .notRelevant
  else if hasSnippet then .possiblyRelevant
  else .unknown

def RelevanceSignals.weakEvidence (s : RelevanceSignals) (t : RelevanceThresholds) : Bool :=
  reaches t.possiblyRelevantCoverage s.titleCoverage ||
    reaches t.possiblyRelevantCoverage s.snippetCoverage ||
    reaches t.possiblyRelevantCoverage s.combined ||
    (reaches t.possiblyRelevantCoverage s.urlCoverage && !s.matched.isEmpty) ||
    (s.providerRankIsTop == some true && !s.matched.isEmpty && 0 < s.combined) ||
    (1 / 2 ≤ s.semanticCoverage && !s.blockingNegative) ||
    (!s.aliasHits.isEmpty && 1 ≤ s.morphHits + s.matched.length && !s.blockingNegative)

/-- The branches behind those that make a result relevant. -/
def RelevanceSignals.weakClassification (s : RelevanceSignals) (t : RelevanceThresholds) :
    RelevanceClassification :=
  if s.weakEvidence t then
    if s.blockingNegative || s.negative.weakGenericMatch then demoteWeak s.hasSnippet s.combined t
    else .possiblyRelevant
  else if s.hasSnippet && F64.le (.finite s.combined) t.notRelevantCeiling then .notRelevant
  else if s.hasSnippet then .possiblyRelevant
  else .unknown

/-- The branches in their order. -/
def RelevanceSignals.classification (s : RelevanceSignals) (t : RelevanceThresholds) :
    RelevanceClassification :=
  if !s.hadSufficientText then .unknown
  else if s.exactPhraseMatch then .relevant
  else if s.lexicalStrong t && s.blockingNegative then
    if s.hasSnippet then .possiblyRelevant else .unknown
  else if s.lexicalStrong t then .relevant
  else if s.lexicalModerate t && s.strongSemanticRescue then .relevant
  else if !s.blockingNegative && s.intentActive && intentRescueQualifies s.semantic.queryIntent
      s.subjectMatch s.entityMatch s.aliasHits s.semanticCoverage then .relevant
  else s.weakClassification t

section

variable [UnicodeTables] {Url : Type} [UrlCrate Url]

def assessResult (query : Query) (result : DeduplicatedResult Url)
    (thresholds : RelevanceThresholds) : ResultRelevanceAssessment :=
  let s := relevanceSignals query result thresholds
  { titleTermCoverage := s.titleCoverage
    snippetTermCoverage := s.snippetCoverage
    urlTermCoverage := s.urlCoverage
    exactPhraseMatch := s.exactPhraseMatch
    matchedQueryTerms := s.matched.length
    queryTermsTotal := s.terms.length
    hadSufficientText := s.hadSufficientText
    providerRankIsTop := s.providerRankIsTop
    classification := s.classification thresholds
    stemmedTermMatches :=
      if thresholds.semanticMorphology then s.semantic.stemmedTermMatches else []
    aliasMatches := if thresholds.semanticAliases then s.semantic.aliasMatches else []
    queryIntent := if thresholds.semanticIntent then s.semantic.queryIntent else none
    subjectTerms := if s.intentActive then s.semantic.subjectTerms else []
    subjectMatch := s.subjectMatch
    entityMatch := s.entityMatch
    negativeEvidence := s.negative }

end

end Amatl
