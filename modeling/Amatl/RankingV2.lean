import Amatl.Config.Deep
import Amatl.Deep.Documents
import Amatl.DiversityCounts
import Amatl.Semantics

/-! Ranking v2 and its relevance. The weights are taken over the signals that are there, so what
the sum is divided by depends on the backends. -/

namespace Amatl

open StableSort

class NaturalLog where
  ln : ℚ → ℚ

/-- The report counts for the ranking by its verdict. -/
structure RankingBenchmarkReport where
  passed : Bool
  deriving DecidableEq, Repr

inductive RankingV2Error where
  | invalidPolicy | backend
  deriving DecidableEq, Repr

structure Evidence where
  documentId : String
  evidenceScore : RankingScore
  deriving DecidableEq

structure DeepRankingExplanation where
  rankingPolicy : String
  bm25 : RankingScore
  semantic : Option RankingScore
  reranker : Option RankingScore
  relevanceScore : RankingScore
  evidenceScore : RankingScore
  finalScore : RankingScore
  deriving DecidableEq

structure DeepRankedDocument where
  documentId : String
  rank : Rank
  originalRank : Rank
  relevanceScore : RankingScore
  evidenceScore : RankingScore
  finalScore : RankingScore
  explanation : DeepRankingExplanation
  deriving DecidableEq

inductive RankingV2Status where
  | applied | disabled | insufficientDocuments | benchmarkRejected
  deriving DecidableEq, Repr

structure RankingV2Output where
  policyVersion : String
  benchmarkId : String
  status : RankingV2Status
  results : List DeepRankedDocument
  deriving DecidableEq

/-- What is not a finite number counts as zero. -/
def RankingScore.boundedFloat : F64 → RankingScore
  | .finite value => .bounded value
  | _ => .bounded 0

section

variable (Url : Type)

structure SemanticScorer where
  score : Query → List (Document Url) → Except RankingV2Error (List F64)

structure DeepReranker where
  score : Query → List (Document Url) → List F64 → Except RankingV2Error (List F64)

/-- An engine is made from a policy that was validated. -/
structure RankingV2Engine where
  policy : RankingV2Policy
  benchmark : RankingBenchmarkReport
  semantic : Option (SemanticScorer Url)
  reranker : Option (DeepReranker Url)
  valid : policy.validate = .ok ()

end

namespace RankingV2

variable {Url : Type}

section

variable [UnicodeTables]

def terms (value : String) : List (List Char) :=
  ((Text.splitWhitespace (normalizedText value.toList)).map trimMatches).filter
    (fun token => !token.isEmpty)

def documentTerms (document : Document Url) : List (List Char) :=
  terms (document.title.getD "") ++ terms (document.content.getD "")

variable [NaturalLog]

def termScore (policy : RankingV2Policy) (averageLength idf : ℚ) (term : List Char)
    (field : List (List Char)) (score : ℚ) : ℚ :=
  let frequency : ℚ := field.count term
  let lengthRatio : ℚ := field.length / averageLength
  let denominator :=
    frequency + policy.bm25K1.toRat * (1 - policy.bm25B.toRat + policy.bm25B.toRat * lengthRatio)
  if 0 < denominator then score + idf * frequency * (policy.bm25K1.toRat + 1) / denominator
  else score

def inverseFrequency (fields : List (List (List Char))) (term : List Char) : ℚ :=
  let documentFrequency : ℚ := (fields.filter (fun field => field.contains term)).length
  NaturalLog.ln (1 + (fields.length - documentFrequency + 1 / 2) / (documentFrequency + 1 / 2))

def averageLength (fields : List (List (List Char))) : ℚ :=
  (max (fields.map List.length).sum 1 : Nat) / fields.length

def rawScores (policy : RankingV2Policy) (queryTerms : List String)
    (fields : List (List (List Char))) : List ℚ :=
  queryTerms.foldl (fun raw term =>
      List.zipWith (fun field score =>
        termScore policy (averageLength fields) (inverseFrequency fields term.toList) term.toList
          field score) fields raw)
    (List.replicate fields.length 0)

def normalizeScores (raw : List ℚ) : List ℚ :=
  let maximum := raw.foldl max 0
  if maximum = 0 then raw else raw.map (fun value => value / maximum)

def bm25Scores (query : Query) (documents : List (Document Url)) (policy : RankingV2Policy) :
    List ℚ :=
  let queryTerms := OrdMap.setOf ((terms query.normalizedQuery).map String.ofList)
  if queryTerms.isEmpty ∨ documents.isEmpty then List.replicate documents.length 0
  else normalizeScores (rawScores policy queryTerms (documents.map documentTerms))

end

def validateBackendScores (scores : List F64) (expected : Nat) :
    Except RankingV2Error (List ℚ) :=
  if scores.length ≠ expected ∨ scores.any (fun value => !value.isFinite) then .error .backend
  else .ok (scores.map (fun value => clamp value.toRat))

def unitClamp : F64 → F64 := F64.clamp (.finite 0) (.finite 1)

def combined (weightBm25 semanticWeight rerankerWeight : F64) (bm25 semantic reranker : ℚ) : F64 :=
  unitClamp (F64.div
    (F64.add (F64.add (F64.mul weightBm25 (.finite bm25))
      (F64.mul semanticWeight (.finite semantic))) (F64.mul rerankerWeight (.finite reranker)))
    (F64.add (F64.add weightBm25 semanticWeight) rerankerWeight))

/-- A weight counts if its scores are there. -/
def weightOf (scores : Option (List ℚ)) (weight : F64) : F64 :=
  if scores.isSome then weight else .finite 0

def scoreAt (scores : Option (List ℚ)) (index : Nat) : ℚ :=
  (scores.map (fun values => values.getD index 0)).getD 0

def combineRelevance (bm25 : List ℚ) (semantic reranker : Option (List ℚ))
    (policy : RankingV2Policy) : List F64 :=
  bm25.zipIdx.map (fun entry =>
    combined policy.weightBm25 (weightOf semantic policy.weightSemantic)
      (weightOf reranker policy.weightReranker) entry.1 (scoreAt semantic entry.2)
      (scoreAt reranker entry.2))

def output (policy : RankingV2Policy) (status : RankingV2Status)
    (results : List DeepRankedDocument) : RankingV2Output where
  policyVersion := policy.version
  benchmarkId := "ranking-v2-human-labeled-v2"
  status
  results

def rankedDocument (policy : RankingV2Policy) (evidence : List Evidence)
    (originalRanks : List (String × Rank)) (documentId : String) (bm25 : ℚ)
    (semantic reranker : Option ℚ) (relevance : F64) : DeepRankedDocument :=
  let evidenceScore : ℚ := ((OrdMap.get? documentId (OrdMap.ofList
    (evidence.map (fun value => (value.documentId, value.evidenceScore.value))))).getD 0)
  let finalScore := unitClamp (F64.add (F64.mul policy.weightRelevance relevance)
    (F64.mul policy.weightEvidence (.finite evidenceScore)))
  let originalRank := (OrdMap.get? documentId originalRanks).getD Rank.max
  { documentId
    rank := originalRank
    originalRank
    relevanceScore := .boundedFloat relevance
    evidenceScore := .bounded evidenceScore
    finalScore := .boundedFloat finalScore
    explanation :=
      { rankingPolicy := policy.version
        bm25 := .bounded bm25
        semantic := semantic.map .bounded
        reranker := reranker.map .bounded
        relevanceScore := .boundedFloat relevance
        evidenceScore := .bounded evidenceScore
        finalScore := .boundedFloat finalScore } }

/-- Final score and relevance descending, then the original rank and the identifier. -/
def compareDeep : DeepRankedDocument → DeepRankedDocument → Ordering :=
  compareLex (fun left right => compare right.finalScore.value left.finalScore.value)
    (compareLex (fun left right => compare right.relevanceScore.value left.relevanceScore.value)
      (compareLex (compareOn (fun ranked => ranked.originalRank.value.toNat))
        (compareOn (fun ranked => ranked.documentId))))

def renumbered (ranked : List DeepRankedDocument) : List DeepRankedDocument :=
  ranked.zipIdx.map (fun entry => { entry.1 with rank := positionRank entry.2 })

end RankingV2

namespace RankingV2Engine

open RankingV2

variable {Url : Type}

def new (benchmark : RankingV2Policy → RankingBenchmarkReport) (policy : RankingV2Policy) :
    Except RankingV2Error (RankingV2Engine Url) :=
  match valid : policy.validate with
  | .ok () => .ok { policy, benchmark := benchmark policy, semantic := none, reranker := none, valid }
  | .error _ => .error .invalidPolicy

def semanticScores (engine : RankingV2Engine Url) (query : Query)
    (documents : List (Document Url)) : Except RankingV2Error (Option (List ℚ)) :=
  match F64.lt (.finite 0) engine.policy.weightSemantic, engine.semantic with
  | true, some backend => do
    let scores ← backend.score query documents
    (validateBackendScores scores documents.length).map some
  | _, _ => .ok none

def rerankerScores (engine : RankingV2Engine Url) (query : Query)
    (documents : List (Document Url)) (relevance : List F64) :
    Except RankingV2Error (Option (List ℚ)) :=
  match F64.lt (.finite 0) engine.policy.weightReranker, engine.reranker with
  | true, some backend => do
    let scores ← backend.score query documents relevance
    (validateBackendScores scores documents.length).map some
  | _, _ => .ok none

variable [UnicodeTables] [NaturalLog]

def rank (engine : RankingV2Engine Url) (query : Query) (documents : List (Document Url))
    (evidence : List Evidence) (originalRanks : List (String × Rank)) :
    Except RankingV2Error RankingV2Output :=
  if !engine.benchmark.passed then .ok (output engine.policy .benchmarkRejected [])
  else if documents.isEmpty then .ok (output engine.policy .insufficientDocuments [])
  else do
    let bm25 := bm25Scores query documents engine.policy
    let semantic ← engine.semanticScores query documents
    let first := combineRelevance bm25 semantic none engine.policy
    let reranker ← engine.rerankerScores query documents first
    let relevance := combineRelevance bm25 semantic reranker engine.policy
    let ranked := documents.zipIdx.map (fun entry =>
      rankedDocument engine.policy evidence originalRanks entry.1.searchResultId
        (bm25.getD entry.2 0) (semantic.map (fun scores => scores.getD entry.2 0))
        (reranker.map (fun scores => scores.getD entry.2 0)) (relevance.getD entry.2 .nan))
    .ok (output engine.policy .applied (renumbered (sortBy compareDeep ranked)))

end RankingV2Engine

end Amatl
