import Amatl.Config.Deep
import Amatl.Deep.Enrich
import Amatl.FoldText
import Amatl.RankingV2

/-! The gap analyzer: which deficits the documents of a query leave, and the queries that are
recommended to close them. -/

namespace Amatl

open Text UrlCrate

inductive GapSeverity where
  | low | medium | high
  deriving DecidableEq, Repr

inductive GapStatus where
  | detected
  deriving DecidableEq, Repr

structure Gap extends GapProposal where
  severity : GapSeverity
  status : GapStatus
  deriving DecidableEq, Repr

/-- An evidence with what the analyzer reads of it besides the score. -/
structure DatedEvidence extends Evidence where
  verifiedDate : Bool

/-- What the analyzer reads of the classification of a plan. -/
structure PlanClassification where
  primaryCategory : Category
  confidence : F64

structure GapAnalysis where
  gaps : List Gap
  coverageLow : Bool
  difficultQuery : Bool

structure GapAnalyzer where
  policy : GapPolicyV1
  valid : policy.validate = .ok ()

def GapAnalyzer.new (policy : GapPolicyV1) : Except String GapAnalyzer :=
  match h : policy.validate with
  | .ok () => .ok ⟨policy, h⟩
  | .error error => .error error

def namesAny (words terms : List String) : Bool := terms.any (fun term => words.contains term)

def explicitPrimarySource : List String → Bool := namesAny ["official", "primary", "original"]

def requiresRecency (query : Query) (plan : PlanClassification) : Bool :=
  query.dateFrom.isSome || query.dateTo.isSome || plan.primaryCategory == .news

def requiresSpecification : List String → Bool :=
  namesAny ["rfc", "spec", "specification", "standard"]

def requiresDocumentation : List String → Bool := namesAny ["documentation", "docs"]

def requiresCode : List String → Bool := namesAny ["code", "repository", "github", "gitlab"]

def explicitIntent (query : Query) (queryTerms : List String) : Bool :=
  !query.fileTypes.isEmpty || query.dateFrom.isSome || query.dateTo.isSome ||
    query.region.isSome ||
    namesAny ["official", "primary", "original", "documentation", "docs", "rfc", "spec",
      "specification", "standard", "code", "repository", "github", "gitlab"] queryTerms

def severityOrder : GapSeverity → Nat
  | .high => 0
  | .medium => 1
  | .low => 2

def observe (observed : Bool) (found : Gap) : List Gap := if observed then [found] else []

section

variable [UnicodeTables]

open UnicodeTables

/-- Whether the query says a lower-case text itself, as free text or as it was typed. -/
def alreadyAsked (query : Query) (suffix : List Char) : Bool :=
  contains suffix query.normalizedQuery.toList ||
    contains suffix (strToLowercase query.rawQuery.toList)

def gap (kind : GapType) (severity : GapSeverity) (reason : String) (query : Query)
    (suffix : String) (expectedGain : UInt32) : Gap :=
  let suffix := strToLowercase suffix.toList
  let recommended :=
    if alreadyAsked query suffix then query.rawQuery
    else String.ofList (trim query.rawQuery.toList ++ [' '] ++ suffix)
  { gapType := kind
    severity
    reason
    recommendedQuery := some recommended
    estimatedCost := some 1
    expectedGain := some expectedGain
    status := .detected }

variable {Url : Type} [UrlCrate Url]

def documentText (document : Document Url) : List Char :=
  strToLowercase (document.title.getD "" ++ " " ++ document.content.getD "").toList

def hasPrimarySource (documents : List (Document Url)) : Bool :=
  documents.any (fun document =>
    contains "official".toList (documentText document) ||
      (hostStr document.finalUrl).any (fun host => endsWith ".gov" host || endsWith ".edu" host))

def hasDocumentation (documents : List (Document Url)) : Bool :=
  documents.any (fun document =>
    contains "docs".toList (path document.finalUrl).toList ||
      contains "documentation".toList (path document.finalUrl).toList ||
      contains "documentation".toList (documentText document))

def hasPdf (documents : List (Document Url)) : Bool :=
  documents.any (fun document =>
    ".pdf".toList.isSuffixOf (strToLowercase (path document.finalUrl).toList) ||
      document.contentType.any (fun value =>
        contains "application/pdf".toList (strToLowercase value.toList)))

def hasCode (documents : List (Document Url)) : Bool :=
  documents.any (fun document =>
    (hostStr document.finalUrl).any (fun host =>
      ["github.com", "gitlab.com", "codeberg.org"].contains host) ||
      ["```", "fn ", "def ", "class "].any (fun marker =>
        document.content.any (fun content => contains marker.toList content.toList)))

def hasSpecification (documents : List (Document Url)) : Bool :=
  documents.any (fun document =>
    contains "rfc".toList (strToLowercase (path document.finalUrl).toList) ||
      ["specification", "standard", " rfc "].any (fun marker =>
        contains marker.toList (documentText document)))

def coversRegion (documents : List (Document Url)) (region : String) : Bool :=
  documents.any (fun document =>
    (OrdMap.get? "region" document.metadata).any (fun value => eqIgnoreAsciiCase value region))

namespace GapAnalyzer

def uniqueDomains (documents : List (Document Url)) : UInt32 :=
  (OrdMap.setOf (documents.filterMap (fun document => hostStr document.canonicalUrl))).length.toUInt32

def enrichedRatio (documents : List (Document Url)) : ℚ :=
  if documents.isEmpty then 0
  else (documents.filter (fun document => document.content.isSome)).length / documents.length

def averageEvidence (evidence : List DatedEvidence) : ℚ :=
  if evidence.isEmpty then 0
  else (evidence.map (fun value => value.evidenceScore.value)).sum / evidence.length

def analyze (analyzer : GapAnalyzer) (query : Query) (plan : PlanClassification)
    (documents : List (Document Url)) (evidence : List DatedEvidence) : GapAnalysis :=
  let policy := analyzer.policy
  let domains := uniqueDomains documents
  let queryTerms := tokens query.normalizedQuery.toList
  let coverageLow :=
    documents.length < policy.minimumDocuments.toNat || domains < policy.minimumUniqueDomains ||
      F64.lt (.finite (enrichedRatio documents)) policy.minimumEnrichedRatio ||
      F64.lt (.finite (averageEvidence evidence)) policy.minimumAverageEvidence
  let difficultQuery :=
    F64.le plan.confidence policy.difficultConfidenceMax ||
      policy.difficultMinimumTerms.toNat ≤ queryTerms.length || explicitIntent query queryTerms
  let deficit := max (policy.minimumUniqueDomains.toNat - domains.toNat) 1
  let gaps :=
    observe (explicitPrimarySource queryTerms && !hasPrimarySource documents)
      (gap .primarySource .high
        "The query requests a primary or official source, but none is observable"
        query "official primary source" 2) ++
    observe (requiresRecency query plan && !evidence.any (fun value => value.verifiedDate))
      (gap .recency .high
        "No document has a verified publication date for a recency-sensitive query"
        query "recent verified update" 2) ++
    (match query.region with
      | some region =>
        observe (!coversRegion documents region)
          (gap .geographicDiversity .medium
            "The requested region is not represented in document metadata"
            query ("regional source " ++ region) 1)
      | none => []) ++
    observe ((plan.primaryCategory == .documentation || requiresDocumentation queryTerms) &&
        !hasDocumentation documents)
      (gap .documentation .high "A documentation query has no observable documentation source"
        query "official documentation" 2) ++
    observe (query.fileTypes.any (fun value => eqIgnoreAsciiCase value "pdf") &&
        !hasPdf documents)
      (gap .pdf .high "The query requests PDF content, but no PDF document was retrieved"
        query "filetype:pdf" 2) ++
    observe ((plan.primaryCategory == .code || requiresCode queryTerms) && !hasCode documents)
      (gap .code .high "A code query has no observable source-code document"
        query "source code repository" 2) ++
    observe (requiresSpecification queryTerms && !hasSpecification documents)
      (gap .specification .high
        "The query requests a specification, but no specification is observable"
        query "official specification standard" 2) ++
    observe (domains < policy.minimumUniqueDomains)
      (gap .sourceDiversity .medium
        "The Deep result set has insufficient unique source domains"
        query "independent source" (min deficit 2).toUInt32)
  { gaps, coverageLow, difficultQuery }

end GapAnalyzer

end

/-- The gravest gaps come first, and no more than the policy allows. -/
def GapAnalyzer.proposals (analyzer : GapAnalyzer) (analysis : GapAnalysis) : List Gap :=
  if !analysis.coverageLow || !analysis.difficultQuery then []
  else
    (StableSort.sortBy (fun a b => compare (severityOrder a.severity) (severityOrder b.severity))
      (analysis.gaps.filter (fun gap => gap.recommendedQuery.isSome))).take
        analyzer.policy.maxSubqueries.toNat

end Amatl
