import Amatl.Deep.Enrich
import Mathlib.Data.List.Dedup

/-! What the executed subqueries of a run report as new: the URLs they keep, against the candidates
of the search, each other and the documents that the run already has. -/

namespace Amatl

open UrlCrate

theorem toUInt32_exact (n : Nat) : n.toUInt32.toNat = n ↔ n < 2 ^ 32 := by
  rw [Nat.toUInt32, UInt32.toNat_ofNat']
  omega

section

variable {σ Url : Type}

def executed (subqueries : List (SubQuery Url)) : List (SubQuery Url) :=
  subqueries.filter (fun subquery => subquery.status = .executed)

theorem executed_append (front back : List (SubQuery Url)) :
    executed (front ++ back) = executed front ++ executed back := List.filter_append ..

def SubQuery.report (subquery : SubQuery Url) : List (SearchResult Url) × UInt32 :=
  (subquery.results, subquery.actualGain)

variable [UrlCrate Url]

def resultUrls (results : List (SearchResult Url)) : List String :=
  results.map (fun result => asStr result.canonicalUrl)

def candidateUrls (request : DeepRequest Url) : List String :=
  resultUrls (request.candidates.map (fun candidate => candidate.result))

def succeeded (outcome : Option (Except Unit (SearchResponse Url))) :
    Option (SearchResponse Url) :=
  match outcome with
  | some (.ok expansion) => if expansion.status = .failure then none else some expansion
  | _ => none

def expansionOf (env : Surroundings Url) (deadline : Nat) (attempt : SubqueryAttempt Url)
    (proposal : GapProposal) (r : Refinement Url) : Option (SearchResponse Url) :=
  match env.parseQuery (proposal.recommendedQuery.getD "") with
  | none => none
  | some query =>
    if !env.executor then none
    else if deadline ≤ attempt.now then none
    else match r.budget.reserveSubquery (proposal.estimatedCost.getD 1) with
      | (.error _, _) => none
      | (.ok (), _) => succeeded (attempt.outcome query)

def expansions (env : Surroundings Url) (deadline : Nat) :
    Nat → List GapProposal → Refinement Url → List (SearchResponse Url)
  | _, [], _ => []
  | index, proposal :: rest, r =>
    (expansionOf env deadline (env.attempts index) proposal r).toList ++
      expansions env deadline (index + 1) rest
        (runProposal env deadline (env.attempts index) proposal r)

def additions : List (SearchResponse Url) → List String → List (List (SearchResult Url))
  | [], _ => []
  | expansion :: rest, known =>
    (newResults expansion.results known).1 ::
      additions rest (newResults expansion.results known).2

/-- No response brings 2 ^ 32 URLs that the ones before it and the known ones lack. -/
def Counted : List (SearchResponse Url) → List String → Prop
  | [], _ => True
  | expansion :: rest, known =>
    ((resultUrls expansion.results).dedup.filter (fun url => url ∉ known)).length < 2 ^ 32 ∧
      Counted rest (known ++ resultUrls expansion.results)

/-! The filter of one response. -/

theorem mem_known (results : List (SearchResult Url)) (known : List String) (url : String) :
    url ∈ (newResults results known).2 ↔ url ∈ known ∨ url ∈ resultUrls results := by
  induction results generalizing known with
  | nil => simp [newResults, resultUrls]
  | cons result results ih =>
    have split : url ∈ resultUrls (result :: results) ↔
        url = asStr result.canonicalUrl ∨ url ∈ resultUrls results := by
      simp [resultUrls]
    simp only [newResults]
    by_cases there : OrdMap.setContains (asStr result.canonicalUrl) known = true
    · rw [if_pos there, ih, split]
      have mem := OrdMap.setContains_iff.mp there
      constructor
      · rintro (old | new)
        · exact .inl old
        · exact .inr (.inr new)
      · rintro (old | rfl | new)
        · exact .inl old
        · exact .inl mem
        · exact .inr new
    · rw [if_neg there, ih, split, OrdMap.mem_setInsert]
      tauto

theorem mem_newResults (results : List (SearchResult Url)) (known : List String) (url : String) :
    url ∈ resultUrls (newResults results known).1 ↔ url ∈ resultUrls results ∧ url ∉ known := by
  induction results generalizing known with
  | nil => simp [newResults, resultUrls]
  | cons result results ih =>
    have split : ∀ rest, url ∈ resultUrls (result :: rest) ↔
        url = asStr result.canonicalUrl ∨ url ∈ resultUrls rest := by
      intro rest
      simp [resultUrls]
    simp only [newResults]
    by_cases there : OrdMap.setContains (asStr result.canonicalUrl) known = true
    · have mem := OrdMap.setContains_iff.mp there
      rw [if_pos there, ih, split]
      constructor
      · exact fun h => ⟨.inr h.1, h.2⟩
      · rintro ⟨rfl | new, missing⟩
        · exact absurd mem missing
        · exact ⟨new, missing⟩
    · have missing := mt OrdMap.setContains_iff.mpr there
      rw [if_neg there, split, ih, split, OrdMap.mem_setInsert]
      by_cases first : url = asStr result.canonicalUrl
      · simp [first, missing]
      · simp [first]

theorem newResults_nodup (results : List (SearchResult Url)) (known : List String) :
    (resultUrls (newResults results known).1).Nodup := by
  induction results generalizing known with
  | nil => exact List.nodup_nil
  | cons result results ih =>
    simp only [newResults]
    by_cases there : OrdMap.setContains (asStr result.canonicalUrl) known = true
    · rw [if_pos there]
      exact ih known
    · rw [if_neg there]
      have later : asStr result.canonicalUrl ∉
          resultUrls (newResults results (OrdMap.setInsert (asStr result.canonicalUrl) known)).1 := by
        intro mem
        have fresh := ((mem_newResults _ _ _).mp mem).2
        exact fresh (OrdMap.mem_setInsert.mpr (.inl rfl))
      exact List.nodup_cons.mpr ⟨later, ih _⟩

theorem newResults_length (results : List (SearchResult Url)) (known : List String) :
    (newResults results known).1.length =
      ((resultUrls results).dedup.filter (fun url => url ∉ known)).length := by
  have same : (resultUrls (newResults results known).1).Perm
      ((resultUrls results).dedup.filter (fun url => url ∉ known)) := by
    apply (List.perm_ext_iff_of_nodup (newResults_nodup results known)
      ((List.nodup_dedup _).filter _)).mpr
    intro url
    rw [mem_newResults]
    simp
  have length := same.length_eq
  rwa [resultUrls, List.length_map] at length

/-! The filters of a whole run, each of which knows what the ones before it found. -/

theorem mem_additions (found : List (SearchResponse Url)) (known : List String) (url : String) :
    url ∈ resultUrls (additions found known).flatten ↔
      url ∈ found.flatMap (fun expansion => resultUrls expansion.results) ∧ url ∉ known := by
  induction found generalizing known with
  | nil => simp [additions, resultUrls]
  | cons expansion found ih =>
    have split : url ∈ resultUrls (additions (expansion :: found) known).flatten ↔
        url ∈ resultUrls (newResults expansion.results known).1 ∨
        url ∈ resultUrls (additions found (newResults expansion.results known).2).flatten := by
      simp [additions, resultUrls]
    rw [split, ih, mem_newResults, mem_known, List.flatMap_cons, List.mem_append]
    tauto

theorem additions_nodup (found : List (SearchResponse Url)) (known : List String) :
    (resultUrls (additions found known).flatten).Nodup := by
  induction found generalizing known with
  | nil => exact List.nodup_nil
  | cons expansion found ih =>
    have parts : resultUrls (additions (expansion :: found) known).flatten =
        resultUrls (newResults expansion.results known).1 ++
        resultUrls (additions found (newResults expansion.results known).2).flatten := by
      simp [additions, resultUrls]
    rw [parts]
    refine List.nodup_append'.mpr ⟨newResults_nodup _ _, ih _, ?_⟩
    intro url first later
    have old := (mem_newResults _ _ _).mp first
    have new := ((mem_additions _ _ _).mp later).2
    exact new ((mem_known _ _ _).mpr (.inr old.1))

theorem additions_counted (found : List (SearchResponse Url)) {known known' : List String}
    (same : ∀ url, url ∈ known ↔ url ∈ known') :
    (∀ kept ∈ additions found known, kept.length < 2 ^ 32) ↔ Counted found known' := by
  induction found generalizing known known' with
  | nil => simp [additions, Counted]
  | cons expansion found ih =>
    have length : (newResults expansion.results known).1.length =
        ((resultUrls expansion.results).dedup.filter (fun url => url ∉ known')).length := by
      rw [newResults_length]
      simp only [same]
    have both : ∀ url, url ∈ (newResults expansion.results known).2 ↔
        url ∈ known' ++ resultUrls expansion.results := by
      intro url
      rw [mem_known, List.mem_append, same]
    have later := ih both
    rw [Counted, ← later, ← length, additions, List.forall_mem_cons]

/-- What a step reports for the response that it executes, if any. -/
def Reports (found : Option (SearchResponse Url)) (r r' : Refinement Url) : Prop :=
  match found with
  | none => r'.knownUrls = r.knownUrls ∧ executed r'.subqueries = executed r.subqueries
  | some expansion =>
    r'.knownUrls = (newResults expansion.results r.knownUrls).2 ∧
    (executed r'.subqueries).map SubQuery.report = (executed r.subqueries).map SubQuery.report ++
      [((newResults expansion.results r.knownUrls).1,
        (newResults expansion.results r.knownUrls).1.length.toUInt32)]

theorem reports_add {r r' : Refinement Url} {subquery : SubQuery Url}
    (status : subquery.status ≠ .executed) (known : r'.knownUrls = r.knownUrls)
    (subqueries : r'.subqueries = r.subqueries) : Reports none r (r'.add subquery) := by
  refine ⟨known, ?_⟩
  rw [Refinement.add, executed_append, subqueries]
  simp [executed, status]

theorem finishSubquery_reports {r r' : Refinement Url} (subquery : SubQuery Url)
    (outcome : Option (Except Unit (SearchResponse Url)))
    (known : r'.knownUrls = r.knownUrls) (subqueries : r'.subqueries = r.subqueries) :
    Reports (succeeded outcome) r (finishSubquery subquery outcome r') := by
  rcases outcome with - | - | expansion
  · exact reports_add (by simp) known subqueries
  · exact reports_add (by simp) known subqueries
  · by_cases failed : expansion.status = .failure
    · simp only [succeeded, finishSubquery, if_pos failed]
      exact reports_add (by simp) known subqueries
    · simp only [succeeded, finishSubquery, if_neg failed]
      refine ⟨by rw [Refinement.add, known], ?_⟩
      rw [Refinement.add, executed_append, List.map_append, subqueries, known]
      rfl

theorem runProposal_reports (env : Surroundings Url) (deadline : Nat)
    (attempt : SubqueryAttempt Url) (proposal : GapProposal) (r : Refinement Url) :
    Reports (expansionOf env deadline attempt proposal r) r
      (runProposal env deadline attempt proposal r) := by
  simp only [expansionOf, runProposal]
  cases env.parseQuery (proposal.recommendedQuery.getD "") with
  | none => exact reports_add (by simp) rfl rfl
  | some query =>
    dsimp only
    by_cases executor : (!env.executor) = true
    · rw [if_pos executor, if_pos executor]
      exact reports_add (by simp) rfl rfl
    · rw [if_neg executor, if_neg executor]
      by_cases late : deadline ≤ attempt.now
      · rw [if_pos late, if_pos late]
        exact reports_add (by simp) rfl rfl
      · rw [if_neg late, if_neg late]
        rcases r.budget.reserveSubquery (proposal.estimatedCost.getD 1) with ⟨- | -, budget⟩
        · exact reports_add (by simp) rfl rfl
        · exact finishSubquery_reports _ _ rfl rfl

/-- A run reports one entry for each response that it executes. -/
theorem runProposals_reports (env : Surroundings Url) (deadline : Nat)
    (proposals : List GapProposal) (index : Nat) (r : Refinement Url) :
    (executed (runProposals env deadline index proposals r).subqueries).map SubQuery.report =
      (executed r.subqueries).map SubQuery.report ++
        (additions (expansions env deadline index proposals r) r.knownUrls).map
          (fun kept => (kept, kept.length.toUInt32)) := by
  induction proposals generalizing index r with
  | nil => simp [runProposals, expansions, additions]
  | cons proposal proposals ih =>
    have step := runProposal_reports env deadline (env.attempts index) proposal r
    rw [runProposals, ih, expansions]
    cases found : expansionOf env deadline (env.attempts index) proposal r with
    | none =>
      rw [found] at step
      rw [step.1, step.2, Option.toList_none, List.nil_append]
    | some expansion =>
      rw [found] at step
      rw [step.1, step.2, Option.toList_some, List.singleton_append, additions, List.map_cons,
        List.append_assoc, List.singleton_append]

/-- The gain of a run is new, where `urlOf` is the URL that a document is known by. -/
structure NewGain (urlOf : Document Url → Url) (request : DeepRequest Url)
    (run : Enriched σ Url) : Prop where
  distinct : (resultUrls ((executed run.subqueries).flatMap SubQuery.results)).Nodup
  candidates : ∀ url ∈ resultUrls ((executed run.subqueries).flatMap SubQuery.results),
    url ∉ candidateUrls request
  documents : ∀ url ∈ resultUrls ((executed run.subqueries).flatMap SubQuery.results),
    url ∉ run.crawl.documents.map (fun document => asStr (urlOf document))
  gain : ∀ subquery ∈ executed run.subqueries,
    subquery.actualGain.toNat = subquery.results.length

/-- A run by what its executed subqueries find. -/
theorem newGain_iff {urlOf : Document Url → Url} {request : DeepRequest Url}
    {run : Enriched σ Url} {found : List (SearchResponse Url)} {known : List String}
    (start : ∀ url, url ∈ known ↔ url ∈ candidateUrls request)
    (reports : (executed run.subqueries).map SubQuery.report =
      (additions found known).map (fun kept => (kept, kept.length.toUInt32))) :
    NewGain urlOf request run ↔
      (∀ expansion ∈ found, ∀ url ∈ resultUrls expansion.results,
        url ∈ run.crawl.documents.map (fun document => asStr (urlOf document)) →
        url ∈ candidateUrls request) ∧
      Counted found (candidateUrls request) := by
  have results : (executed run.subqueries).map SubQuery.results = additions found known := by
    have firsts := congrArg (List.map Prod.fst) reports
    simpa [SubQuery.report, Function.comp_def] using firsts
  have kept : (executed run.subqueries).flatMap SubQuery.results =
      (additions found known).flatten := by
    rw [List.flatMap_def, results]
  have gains : (∀ subquery ∈ executed run.subqueries,
      subquery.actualGain.toNat = subquery.results.length) ↔
      Counted found (candidateUrls request) := by
    rw [← additions_counted found start]
    have entries : (∀ entry ∈ (executed run.subqueries).map SubQuery.report,
        entry.2.toNat = entry.1.length) ↔
        ∀ entry ∈ (additions found known).map (fun kept => (kept, kept.length.toUInt32)),
          entry.2.toNat = entry.1.length := by rw [reports]
    simpa only [List.forall_mem_map, SubQuery.report, toUInt32_exact] using entries
  constructor
  · intro new
    refine ⟨?_, gains.mp new.gain⟩
    intro expansion mem url there document
    by_contra missing
    have mem : url ∈ resultUrls (additions found known).flatten :=
      (mem_additions _ _ _).mpr ⟨List.mem_flatMap.mpr ⟨expansion, mem, there⟩, by rwa [start]⟩
    rw [← kept] at mem
    exact new.documents url mem document
  · intro ⟨apart, counted⟩
    refine ⟨?_, ?_, ?_, gains.mpr counted⟩
    · rw [kept]
      exact additions_nodup found known
    · intro url mem
      rw [kept, mem_additions, start] at mem
      exact mem.2
    · intro url mem document
      rw [kept, mem_additions, start] at mem
      obtain ⟨expansion, there, inside⟩ := List.mem_flatMap.mp mem.1
      exact mem.2 (apart expansion there url inside document)

variable [Sha256Hex] [ScraperCrate] [DocumentJson Url]

/-- The responses that a run executes; a run that is refused executes none. -/
def enrichExpansions (o : DeepOrchestrator) (fetch : Fetcher σ Url) (env : Surroundings Url)
    (request : DeepRequest Url) (budget : DeepBudget) (rows : List (DocumentRow Url))
    (robotsEntries : List (String × CacheEntry)) (fetcher : σ) : List (SearchResponse Url) :=
  if request.planNormalizedQuery ≠ request.query.normalizedQuery ∨
    request.candidates.isEmpty = true then []
  else
    let deadline := deepDeadline env budget
    let s := crawl o fetch deadline env.passes
      (Crawl.start o request budget rows robotsEntries fetcher)
    expansions env deadline 0 (env.proposals s.documents)
      ⟨s.budget, OrdMap.setOf (candidateUrls request), s.degradations, []⟩

theorem enrich_reports (o : DeepOrchestrator) (fetch : Fetcher σ Url) (env : Surroundings Url)
    (request : DeepRequest Url) (budget : DeepBudget) (rows : List (DocumentRow Url))
    (robotsEntries : List (String × CacheEntry)) (fetcher : σ) :
    (executed (enrich o fetch env request budget rows robotsEntries fetcher).subqueries).map
        SubQuery.report =
      (additions (enrichExpansions o fetch env request budget rows robotsEntries fetcher)
        (OrdMap.setOf (candidateUrls request))).map
          (fun kept => (kept, kept.length.toUInt32)) := by
  have urls : request.candidates.map (fun candidate => asStr candidate.result.canonicalUrl) =
      candidateUrls request := by simp [candidateUrls, resultUrls]
  unfold enrich enrichExpansions
  by_cases mismatch : request.planNormalizedQuery ≠ request.query.normalizedQuery
  · rw [if_pos mismatch, if_pos (.inl mismatch)]
    rfl
  · rw [if_neg mismatch]
    by_cases empty : request.candidates.isEmpty = true
    · rw [if_pos empty, if_pos (.inr empty)]
      rfl
    · rw [if_neg empty, if_neg (by tauto)]
      dsimp only
      rw [runProposals_reports, urls]
      rfl

/-- The gain of a run is new exactly when no executed subquery finds a document of the run that is
no candidate, and none finds 2 ^ 32 new URLs. -/
theorem enrich_newGain_iff (urlOf : Document Url → Url) (o : DeepOrchestrator)
    (fetch : Fetcher σ Url) (env : Surroundings Url) (request : DeepRequest Url)
    (budget : DeepBudget) (rows : List (DocumentRow Url))
    (robotsEntries : List (String × CacheEntry)) (fetcher : σ) :
    let run := enrich o fetch env request budget rows robotsEntries fetcher
    let found := enrichExpansions o fetch env request budget rows robotsEntries fetcher
    NewGain urlOf request run ↔
      (∀ expansion ∈ found, ∀ url ∈ resultUrls expansion.results,
        url ∈ run.crawl.documents.map (fun document => asStr (urlOf document)) →
        url ∈ candidateUrls request) ∧
      Counted found (candidateUrls request) := by
  intro run found
  exact newGain_iff (fun url => OrdMap.mem_setOf)
    (enrich_reports o fetch env request budget rows robotsEntries fetcher)

end

/-- A subquery for a second domain, which the search answers with one of the given pages. -/
def independentSource (pages : List PageUrl) : Surroundings PageUrl where
  start := 0
  passes _ := passAt 0
  parseQuery rawQuery := some { (pagesRequest []).query with rawQuery, normalizedQuery := rawQuery }
  executor := true
  proposals _ := [
    { gapType := .sourceDiversity
      reason := "The Deep result set has insufficient unique source domains"
      recommendedQuery := some "example independent source"
      estimatedCost := some 1
      expectedGain := some 1 }]
  attempts _ :=
    { now := 0
      outcome := fun query => some (.ok
        { query := query.rawQuery
          status := .success
          results := pages.map (fun url => (pageCandidate url).result)
          providersUsed := ["brave"], providersFailed := [], providersPartial := []
          errors := [], degradations := [], elapsedMs := 0
          totalResults := none, page := none, pageSize := none }) }

/-- The crawl follows the link to the second page, and the subquery reports that page as a gain. -/
theorem crawledPage_notNewGain :
    letI := sampleHex
    letI := plainPages
    letI := plainJson PageUrl
    let b := (DeepBudget.new 3 1000 2 0 3 10000).withGapLimits 2 2
    let run := enrich oneLevel (siteFetch twoPages) (independentSource [secondPage])
      (pagesRequest [homePage]) b [] [] ()
    run.crawl.documents.map Document.canonicalUrl = [homePage, secondPage] ∧
      run.subqueries.map (fun subquery => (subquery.status, subquery.actualGain)) =
        [(.executed, 1)] ∧
      ¬ NewGain Document.canonicalUrl (pagesRequest [homePage]) run := by
  let _ := sampleHex
  let _ := plainPages
  let _ := plainJson PageUrl
  refine ⟨by decide +kernel, by decide +kernel, ?_⟩
  intro new
  exact new.documents "https://example.com/b" (by decide +kernel) (by decide +kernel)

end Amatl
