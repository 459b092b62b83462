import Amatl.Deep.Reading

/-! The Search ranks that Ranking v2 is handed. Candidates and the pages that a
crawl discovers share one map, and a page takes the rank of the page it was found
on. -/

namespace Amatl

open UrlCrate

section

variable {σ Url : Type} [UrlCrate Url]

/-- The original rank that Ranking v2 reads for a document. -/
def originalRank (run : Enriched σ Url) (documentId : String) : Rank :=
  (OrdMap.get? documentId run.crawl.originalRanks).getD Rank.max

variable [Sha256Hex]

def OwnRanks (candidates : List (DeepCandidate Url)) (run : Enriched σ Url) : Prop :=
  ∀ c ∈ candidates, originalRank run (searchResultId c.result) = c.result.rank

def OneRank (candidates : List (DeepCandidate Url)) : Prop :=
  ∀ c ∈ candidates, ∀ d ∈ candidates, searchResultId c.result = searchResultId d.result →
    c.result.rank = d.result.rank

/-- The ranks of a state hold those of the candidates. -/
def Ranked (candidates : List (DeepCandidate Url)) (ranks : List (String × Rank)) : Prop :=
  ∀ c ∈ candidates, OrdMap.get? (searchResultId c.result) ranks = some c.result.rank

theorem ranked_ofList {candidates : List (DeepCandidate Url)} (one : OneRank candidates) :
    Ranked candidates (OrdMap.ofList (candidates.map (fun c =>
      (searchResultId c.result, c.result.rank)))) := by
  intro c mem
  refine OrdMap.get?_ofList (List.mem_map.mpr ⟨c, mem, rfl⟩) ?_
  intro entry there same
  obtain ⟨d, mem', rfl⟩ := List.mem_map.mp there
  exact one d mem' c mem same

/-- The children of a page keep the ranks of the candidates, where none of them is
a candidate of another rank. -/
theorem Ranked.with {candidates : List (DeepCandidate Url)} {ranks : List (String × Rank)}
    (h : Ranked candidates ranks) (parent : DeepCandidate Url) (links : List Url)
    (apart : ∀ link ∈ links, ∀ c ∈ candidates,
      searchResultId (childResult parent.result link) = searchResultId c.result →
        parent.result.rank = c.result.rank) :
    Ranked candidates (rankedWith parent links ranks) := by
  induction links generalizing ranks with
  | nil => exact h
  | cons link links ih =>
    refine ih ?_ (fun other mem => apart other (List.mem_cons_of_mem _ mem))
    intro c mem
    rw [OrdMap.get?_insert]
    by_cases same : searchResultId c.result = searchResultId (childResult parent.result link)
    · rw [if_pos same, apart link List.mem_cons_self c mem same.symm]
    · rw [if_neg same]
      exact h c mem

variable [ScraperCrate]

/-- No page that a pass queues is a candidate of another rank than the page it was
found on. -/
def Unrivalled (o : DeepOrchestrator) (fetch : Fetcher σ Url) (deadline : Nat)
    (candidates : List (DeepCandidate Url)) (pass : Pass) (s : Crawl σ Url) : Prop :=
  ∀ parent depth fetched, pageRead o fetch deadline pass s = some (parent, depth, fetched) →
    ∀ link ∈ addedLinks o depth fetched s.visited, ∀ c ∈ candidates,
      searchResultId (childResult parent.result link) = searchResultId c.result →
        parent.result.rank = c.result.rank

variable [DocumentJson Url]

theorem crawlPass_ranked {o : DeepOrchestrator} {fetch : Fetcher σ Url} {deadline : Nat}
    {candidates : List (DeepCandidate Url)} {pass : Pass} {s : Crawl σ Url}
    (unrivalled : Unrivalled o fetch deadline candidates pass s)
    (h : Ranked candidates s.originalRanks) :
    (crawlPass o fetch deadline pass s).All (fun t => Ranked candidates t.originalRanks) := by
  refine (crawlPass_follows o fetch deadline pass s).imp ?_
  intro t follows
  cases hread : pageRead o fetch deadline pass s with
  | none =>
    rw [hread] at follows
    rw [follows.2.2]
    exact h
  | some read =>
    obtain ⟨parent, depth, fetched⟩ := read
    rw [hread] at follows
    rw [follows.2.2]
    exact h.with parent _ (unrivalled parent depth fetched hread)

/-- Where no page that is queued is a candidate of another rank, every candidate is
handed over with its own. -/
theorem enrich_ownRanks (o : DeepOrchestrator) (fetch : Fetcher σ Url) (env : Surroundings Url)
    (request : DeepRequest Url) (budget : DeepBudget) (rows : List (DocumentRow Url))
    (entries : List (String × CacheEntry)) (fetcher : σ) (one : OneRank request.candidates)
    (unrivalled : ∀ index s,
      Loop.Reaches (fun index => crawlPass o fetch (deepDeadline env budget) (env.passes index))
        (Crawl.start o request budget rows entries fetcher) index s →
      Unrivalled o fetch (deepDeadline env budget) request.candidates (env.passes index) s) :
    OwnRanks request.candidates (enrich o fetch env request budget rows entries fetcher) := by
  have begins : Ranked request.candidates
      (Crawl.start o request budget rows entries fetcher).originalRanks := ranked_ofList one
  have ends : Ranked request.candidates
      (enrich o fetch env request budget rows entries fetcher).crawl.originalRanks :=
    enrich_crawl (P := fun s => Ranked request.candidates s.originalRanks)
      (fun errors notes => begins)
      (crawl_reached (P := fun s => Ranked request.candidates s.originalRanks)
        (fun index s reached h => crawlPass_ranked (unrivalled index s reached) h) begins)
  intro c mem
  rw [originalRank, ends c mem, Option.getD_some]

end

def rankedRequest (urls : List (PageUrl × Rank)) : DeepRequest PageUrl :=
  { pagesRequest [] with
    candidates := urls.map (fun entry =>
      { result := { (pageCandidate entry.1).result with rank := entry.2 }, storageRights := true }) }

/-- The second page is a candidate that is not taken; the first page, of rank one,
links to it. -/
theorem untakenCandidate_outranked :
    letI := sampleHex
    letI := plainPages
    letI := plainJson PageUrl
    let request := rankedRequest [(homePage, ⟨1, by decide⟩), (secondPage, ⟨2, by decide⟩)]
    let run := enrich { oneLevel with topK := 1 } (siteFetch twoPages) (stillRun PageUrl) request
      (DeepBudget.new 5 1000 2 0 5 10000) [] [] ()
    (request.candidates.map (fun c => originalRank run (searchResultId c.result))).map
        (fun rank => rank.value) = [1, 1] ∧ ¬ OwnRanks request.candidates run := by
  let _ := sampleHex
  let _ := plainPages
  let _ := plainJson PageUrl
  unfold OwnRanks
  decide +kernel

/-- Both pages are taken, so that the link is no discovery. -/
theorem takenCandidates_ranked :
    letI := sampleHex
    letI := plainPages
    letI := plainJson PageUrl
    let request := rankedRequest [(homePage, ⟨1, by decide⟩), (secondPage, ⟨2, by decide⟩)]
    let run := enrich oneLevel (siteFetch twoPages) (stillRun PageUrl) request
      (DeepBudget.new 5 1000 2 0 5 10000) [] [] ()
    run.crawl.documents.length = 2 ∧ OwnRanks request.candidates run := by
  let _ := sampleHex
  let _ := plainPages
  let _ := plainJson PageUrl
  intro request run
  let start := Crawl.start oneLevel request (DeepBudget.new 5 1000 2 0 5 10000) [] [] ()
  let passes := fun index => crawlPass oneLevel (siteFetch twoPages) 10000000000
    ((stillRun PageUrl).passes index)
  have states : (Loop.before passes start 3).isNone = true := by decide +kernel
  have quiet : ∀ index < 3, (Loop.before passes start index).all (fun s =>
      (pageRead oneLevel (siteFetch twoPages) 10000000000 ((stillRun PageUrl).passes index) s).all
        (fun read => (addedLinks oneLevel read.2.1 read.2.2 s.visited).isEmpty)) = true := by
    decide +kernel
  have produced : run.crawl.documents.length = 2 := by decide +kernel
  have one : OneRank request.candidates := by
    unfold OneRank
    decide +kernel
  refine ⟨produced, enrich_ownRanks oneLevel (siteFetch twoPages) (stillRun PageUrl) request
    (DeepBudget.new 5 1000 2 0 5 10000) [] [] () one ?_⟩
  intro index s reached parent depth fetched hread link added
  have hs : Loop.before passes start index = some s := Loop.reaches_iff.mp reached
  have few : index < 3 := by
    by_contra many
    rw [Loop.before_eq_none (Option.isNone_iff_eq_none.mp states) (by omega)] at hs
    cases hs
  have here := quiet index few
  rw [hs, Option.all_some] at here
  have hread' : pageRead oneLevel (siteFetch twoPages) 10000000000
    ((stillRun PageUrl).passes index) s = some (parent, depth, fetched) := hread
  rw [hread', Option.all_some] at here
  rw [List.isEmpty_iff.mp here] at added
  cases added

end Amatl
