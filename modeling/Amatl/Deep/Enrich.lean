import Amatl.Deep.Crawl

/-! `enrich`: the checks on the request, the crawl, and the subqueries for the
gaps that the documents leave. Evidence and Ranking v2 are computed in between
and decide nothing here. -/

namespace Amatl

open UrlCrate

inductive GapType where
  | primarySource | recency | geographicDiversity | documentation | pdf | code | specification
  | sourceDiversity
  deriving DecidableEq, Repr

/-- A gap that the analyzer proposes to close. -/
structure GapProposal where
  gapType : GapType
  reason : String
  recommendedQuery : Option String
  estimatedCost : Option UInt64
  expectedGain : Option UInt32
  deriving DecidableEq, Repr

inductive SubQueryStatus where
  | proposed | executed | failed | rejectedBudget | invalid
  deriving DecidableEq, Repr

structure SubQuery (Url : Type) where
  rawQuery : String
  reason : String
  gapType : GapType
  estimatedCost : UInt64
  expectedGain : UInt32
  actualGain : UInt32
  status : SubQueryStatus
  results : List (SearchResult Url)
  errors : List CompositeError
  deriving DecidableEq

/-- What happens to one proposal: the reading before it is run, and how the run
ends. An outer `none` is the deadline passing first. -/
structure SubqueryAttempt (Url : Type) where
  now : Nat
  outcome : Query → Option (Except Unit (SearchResponse Url))

structure Refinement (Url : Type) where
  budget : DeepBudget
  knownUrls : List String
  degradations : List Degradation
  subqueries : List (SubQuery Url)

structure DeepRequest (Url : Type) where
  query : Query
  /-- `normalized_query` of the plan's query. -/
  planNormalizedQuery : String
  candidates : List (DeepCandidate Url)

/-- Everything around one run: the clock when it starts, its passes, what the gap
analyzer proposes for the documents, and how each proposal goes. -/
structure Surroundings (Url : Type) where
  start : Nat
  passes : Nat → Pass
  parseQuery : String → Option Query
  executor : Bool
  proposals : List (Document Url) → List GapProposal
  attempts : Nat → SubqueryAttempt Url

/-- The response of a run, the budget it leaves, and the crawl it made. -/
structure Enriched (σ Url : Type) where
  crawl : Crawl σ Url
  budget : DeepBudget
  degradations : List Degradation
  subqueries : List (SubQuery Url)

/-- The most passes a page at `rest` levels above the last one can cause. -/
def passesFor : Nat → Nat
  | 0 => 1
  | rest + 1 => 1 + 32 * passesFor rest

section

variable {σ Url : Type} [UrlCrate Url]

def queueWeight (o : DeepOrchestrator) (queue : List (DeepCandidate Url × UInt8)) : Nat :=
  (queue.map (fun entry => passesFor (o.maxDepth.toNat - entry.2.toNat))).sum

def newResults : List (SearchResult Url) → List String → List (SearchResult Url) × List String
  | [], known => ([], known)
  | result :: rest, known =>
    let url := asStr result.canonicalUrl
    if OrdMap.setContains url known then newResults rest known
    else
      let later := newResults rest (OrdMap.setInsert url known)
      (result :: later.1, later.2)

def Refinement.add (r : Refinement Url) (subquery : SubQuery Url) : Refinement Url :=
  { r with subqueries := r.subqueries ++ [subquery] }

def Refinement.degrade (r : Refinement Url) (code message : String) : Refinement Url :=
  { r with degradations := r.degradations ++ [deepDegradation code message] }

def finishSubquery (subquery : SubQuery Url)
    (outcome : Option (Except Unit (SearchResponse Url))) (r : Refinement Url) : Refinement Url :=
  match outcome with
  | none =>
    r.add { subquery with
      status := .failed
      errors := subquery.errors ++ [⟨"subquery_timeout",
        "SubQuery execution exceeded the Deep deadline", [], true⟩] }
  | some (.error ()) =>
    r.add { subquery with
      status := .failed
      errors := subquery.errors ++
        [⟨"subquery_failed", "SubQuery execution failed", [], true⟩] }
  | some (.ok expansion) =>
    if expansion.status = .failure then
      r.add { subquery with status := .failed, errors := expansion.errors }
    else
      let results := newResults expansion.results r.knownUrls
      { r with knownUrls := results.2 }.add
        { subquery with
          status := .executed
          errors := expansion.errors
          results := results.1
          actualGain := results.1.length.toUInt32 }

def runProposal (env : Surroundings Url) (deadline : Nat) (attempt : SubqueryAttempt Url)
    (proposal : GapProposal) (r : Refinement Url) : Refinement Url :=
  let rawQuery := proposal.recommendedQuery.getD ""
  let subquery : SubQuery Url :=
    { rawQuery, reason := proposal.reason, gapType := proposal.gapType,
      estimatedCost := proposal.estimatedCost.getD 1, expectedGain := proposal.expectedGain.getD 1,
      actualGain := 0, status := .proposed, results := [], errors := [] }
  match env.parseQuery rawQuery with
  | none => r.add { subquery with status := .invalid }
  | some query =>
    if !env.executor then r.add subquery
    else if deadline ≤ attempt.now then
      (r.degrade "time_exhausted" "SubQuery was rejected because the Deep deadline expired").add
        { subquery with status := .rejectedBudget }
    else match r.budget.reserveSubquery subquery.estimatedCost with
      | (.error cause, _) =>
        (r.degrade cause.text "SubQuery was rejected by Deep Budget").add
          { subquery with status := .rejectedBudget }
      | (.ok (), budget) => finishSubquery subquery (attempt.outcome query) { r with budget }

def runProposals (env : Surroundings Url) (deadline : Nat) :
    Nat → List GapProposal → Refinement Url → Refinement Url
  | _, [], r => r
  | index, proposal :: rest, r =>
    runProposals env deadline (index + 1) rest
      (runProposal env deadline (env.attempts index) proposal r)

variable [Sha256Hex]

def Crawl.start (o : DeepOrchestrator) (request : DeepRequest Url) (budget : DeepBudget)
    (rows : List (DocumentRow Url)) (robotsEntries : List (String × CacheEntry)) (fetcher : σ) :
    Crawl σ Url :=
  let queue := (request.candidates.take o.topK).map (fun candidate => (candidate, 0))
  { queue
    visited := OrdMap.setOf (queue.map (fun entry => asStr entry.1.result.canonicalUrl))
    originalRanks := OrdMap.ofList (request.candidates.map (fun candidate =>
      (searchResultId candidate.result, candidate.result.rank)))
    budget
    documents := []
    errors := []
    degradations := if o.rendererAvailable then [] else [deepDegradation "renderer_unavailable"
      "Optional Chromium renderer is unavailable; Deep continues without it"]
    rows, robotsEntries, fetcher
    pages := [], robotsFiles := [], consumed := [], exhausted := [] }

variable [ScraperCrate] [DocumentJson Url]

/-- The crawl loop to its end: the weight of the queue bounds its passes. -/
def crawl (o : DeepOrchestrator) (fetch : Fetcher σ Url) (deadline : Nat) (passes : Nat → Pass)
    (s : Crawl σ Url) : Crawl σ Url :=
  (Loop.run (fun index => crawlPass o fetch deadline (passes index)) (queueWeight o s.queue + 1) 0
    s).getD s

/-- The deadline fixed when a run starts. -/
def deepDeadline (env : Surroundings Url) (budget : DeepBudget) : Nat :=
  env.start + millis budget.snapshot.deadlineMs

def refuse (s : Crawl σ Url) : Enriched σ Url where
  crawl := s
  budget := s.budget
  degradations := s.degradations
  subqueries := []

def enrich (o : DeepOrchestrator) (fetch : Fetcher σ Url) (env : Surroundings Url)
    (request : DeepRequest Url) (budget : DeepBudget) (rows : List (DocumentRow Url))
    (robotsEntries : List (String × CacheEntry)) (fetcher : σ) : Enriched σ Url :=
  let start := Crawl.start o request budget rows robotsEntries fetcher
  let idle := { start with queue := [], degradations := [] }
  if request.planNormalizedQuery ≠ request.query.normalizedQuery then
    refuse { idle with errors := [⟨"deep_plan_query_mismatch",
      "Deep Query does not match SearchPlan", [], false⟩] }
  else if request.candidates.isEmpty then
    refuse (idle.degrade "deep_no_candidates" "No SearchResult candidates were available")
  else
    let deadline := deepDeadline env budget
    let s := crawl o fetch deadline env.passes start
    let known := OrdMap.setOf (request.candidates.map (fun candidate =>
      asStr candidate.result.canonicalUrl))
    let r := runProposals env deadline 0 (env.proposals s.documents)
      ⟨s.budget, known, s.degradations, []⟩
    ⟨s, r.budget, r.degradations, r.subqueries⟩

end

/-- A pass at one instant, with a store that works and an extractor that takes the
page for its text. -/
def passAt (now : Nat) : Pass where
  now
  robotsNow := 0
  robotsAt := now
  delayNow := now
  fetchAt := now
  latestAccess := ⟨0, true⟩
  getAccess := ⟨0, true⟩
  putAccess := ⟨0, true⟩
  extract body := .ok ⟨String.ofList (Utf8.fromUtf8Lossy body), none, none, none, [], "native_html"⟩
  render _ := .error .unavailable
  extractRendered _ := .error .unavailable

def stillRun (Url : Type) : Surroundings Url where
  start := 0
  passes _ := passAt 0
  parseQuery _ := none
  executor := false
  proposals _ := []
  attempts _ := ⟨0, fun _ => none⟩

def siteFetch (body : String → Option String) : Fetcher Unit PageUrl := fun request _ =>
  let result := match body (asStr request.url) with
    | none => .error .network
    | some body =>
      let bytes := body.toUTF8.data.toList
      if request.maxBytes < bytes.length.toUInt64 then .error .byteLimit
      else .ok
        { finalUrl := request.url, status := 200, headersSafe := [], contentType := none
          body := bytes, size := bytes.length.toUInt64, redirectChain := []
          retrievedAt := "2024-01-01T00:00:00Z" }
  ⟨result, 1, ()⟩

/-- Two pages, the first of which links to the second. -/
def twoPages (url : String) : Option String :=
  if url = "https://example.com/" then some "<a href=/b>b</a>"
  else if url = "https://example.com/b" then some "end"
  else none

def pageCandidate (url : PageUrl) : DeepCandidate PageUrl where
  result :=
    { rank := ⟨1, Rank.one_ne_zero⟩, title := none, originalUrl := url, canonicalUrl := url
      domain := url.host, snippet := none, providers := ["brave"], publishedAt := none
      status := .visible }
  storageRights := true

def pagesRequest (urls : List PageUrl) : DeepRequest PageUrl where
  query :=
    { rawQuery := "example", normalizedQuery := "example", quotedTerms := [], excludedTerms := []
      domains := [], excludedDomains := [], fileTypes := [], language := none, region := none
      dateFrom := none, dateTo := none }
  planNormalizedQuery := "example"
  candidates := urls.map pageCandidate

def homePage : PageUrl := ⟨"example.com", "/", none⟩

def secondPage : PageUrl := ⟨"example.com", "/b", none⟩

/-- A crawl of one level that neither renders nor caches nor asks for consent. -/
def oneLevel : DeepOrchestrator where
  extractorVersion := "1"
  rendererAvailable := false
  cache := none
  timeoutMs := 10000
  perFetchBytes := 1000
  maxRedirects := 3
  topK := 5
  maxDepth := 1
  robots := none

end Amatl
