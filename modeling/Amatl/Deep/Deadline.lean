import Amatl.Deep.Stages

/-! Requests and the Deep deadline. The time a page request is given is what the
reading at the top of the pass leaves, and a request for `robots.txt` is given its
own time: both keep the deadline exactly where the pass is quick enough. -/

namespace Amatl

open UrlCrate

/-- A request made before the deadline that cannot outlive it. -/
def InTime {Url : Type} (deadline : Nat) (issued : Issued Url) : Prop :=
  issued.moment < deadline ∧ issued.moment + millis issued.request.timeoutMs ≤ deadline

def AllInTime {σ Url : Type} (deadline : Nat) (s : Crawl σ Url) : Prop :=
  ∀ issued ∈ s.pages ++ s.robotsFiles, InTime deadline issued

theorem allInTime_append {deadline : Nat} {σ Url : Type} {s t : Crawl σ Url}
    (pages files : List (Issued Url))
    (hpages : t.pages = s.pages ++ pages) (hfiles : t.robotsFiles = s.robotsFiles ++ files) :
    AllInTime deadline t ↔ AllInTime deadline s ∧ (∀ page ∈ pages, InTime deadline page) ∧
      ∀ file ∈ files, InTime deadline file := by
  unfold AllInTime
  rw [hpages, hfiles]
  simp only [List.mem_append]
  constructor
  · intro all
    refine ⟨?_, fun page mem => all page (.inl (.inr mem)),
      fun file mem => all file (.inr (.inr mem))⟩
    rintro issued (mem | mem)
    · exact all issued (.inl (.inl mem))
    · exact all issued (.inr (.inl mem))
  · rintro ⟨old, newPages, newFiles⟩ issued ((mem | mem) | (mem | mem))
    · exact old issued (.inl mem)
    · exact newPages issued mem
    · exact old issued (.inr mem)
    · exact newFiles issued mem

/-- The clock does not run backwards during a pass. -/
structure Pass.Ordered (pass : Pass) : Prop where
  robots : pass.now ≤ pass.robotsAt
  delay : pass.robotsAt ≤ pass.delayNow
  fetch : pass.delayNow ≤ pass.fetchAt

structure Surroundings.Ordered {Url : Type} (env : Surroundings Url) : Prop where
  start : env.start ≤ (env.passes 0).now
  pass : ∀ index, (env.passes index).Ordered
  next : ∀ index, (env.passes index).fetchAt ≤ (env.passes (index + 1)).now

/-- `elapsed` after the reading of the pass, a request that is given `timeout`
still fits into the time the reading leaves. -/
def Fits (deadline : Nat) (pass : Pass) (elapsed timeout : Nat) : Prop :=
  elapsed < deadline - pass.now ∧ elapsed + timeout ≤ deadline - pass.now

section

variable {σ Url : Type} [UrlCrate Url]

/-- A quick pass: if it has to load a `robots.txt`, the time left at its reading
covers what passes until then and the time `robots.txt` is given; if it asks for a
page, the time left covers what passes until then (loading, waiting, looking into
the cache) and the time the page is given. -/
structure Quick (o : DeepOrchestrator) (fetch : Fetcher σ Url) (deadline : Nat) (pass : Pass)
    (s : Crawl σ Url) : Prop where
  robots : ∀ robots candidate depth queue, o.robots = some robots →
    s.queue = (candidate, depth) :: queue → pass.now < deadline →
    robotsAsked o fetch pass candidate depth s.robotsEntries s.fetcher ≠ [] →
    Fits deadline pass (pass.robotsAt - pass.now) (millis robots.timeoutMs)
  page : (pageAsked o fetch deadline pass s).isSome = true →
    Fits deadline pass (pass.fetchAt - pass.now) (millis (fetchTimeout o deadline pass))

theorem fits_iff {deadline moment : Nat} {pass : Pass} (early : pass.now < deadline)
    (later : pass.now ≤ moment) (timeout : Nat) :
    Fits deadline pass (moment - pass.now) timeout ↔
      moment < deadline ∧ moment + timeout ≤ deadline := by
  unfold Fits
  omega

theorem mem_robotsAsked {o : DeepOrchestrator} {fetch : Fetcher σ Url} {pass : Pass}
    {candidate : DeepCandidate Url} {depth : UInt8} {entries : List (String × CacheEntry)}
    {fetcher : σ} {file : Issued Url}
    (mem : file ∈ robotsAsked o fetch pass candidate depth entries fetcher) :
    ∃ robots, o.robots = some robots ∧ file.moment = pass.robotsAt ∧
      file.request.timeoutMs = robots.timeoutMs := by
  unfold robotsAsked at mem
  split at mem
  · cases mem
  · split at mem
    · cases mem
    · rename_i robots hrobots
      obtain ⟨asked, hasked, rfl⟩ := List.mem_map.mp mem
      refine ⟨robots, hrobots, rfl, ?_⟩
      simp only [RobotsCache.decide, Option.mem_toList] at hasked
      split at hasked
      · cases hasked
      · split at hasked
        · cases hasked
        · split at hasked
          · cases hasked
          · cases hasked
            rfl

theorem robotsAsked_inTime_iff {o : DeepOrchestrator} {fetch : Fetcher σ Url} {deadline : Nat}
    {pass : Pass} {candidate : DeepCandidate Url} {depth : UInt8}
    {entries : List (String × CacheEntry)} {fetcher : σ} (ordered : pass.Ordered)
    (early : pass.now < deadline) :
    (∀ file ∈ robotsAsked o fetch pass candidate depth entries fetcher, InTime deadline file) ↔
      ∀ robots, o.robots = some robots →
        robotsAsked o fetch pass candidate depth entries fetcher ≠ [] →
        Fits deadline pass (pass.robotsAt - pass.now) (millis robots.timeoutMs) := by
  constructor
  · intro all robots hrobots asked
    obtain ⟨file, mem⟩ := List.exists_mem_of_ne_nil _ asked
    obtain ⟨robots', hrobots', hmoment, htimeout⟩ := mem_robotsAsked mem
    have inTime := all file mem
    rw [hrobots] at hrobots'
    cases hrobots'
    rwa [InTime, hmoment, htimeout, ← fits_iff early ordered.robots] at inTime
  · intro quick file mem
    obtain ⟨robots, hrobots, hmoment, htimeout⟩ := mem_robotsAsked mem
    rw [InTime, hmoment, htimeout, ← fits_iff early ordered.robots]
    exact quick robots hrobots (List.ne_nil_of_mem mem)

variable [Sha256Hex] [ScraperCrate] [DocumentJson Url]

/-- The requests of a pass are in time exactly where it is quick. -/
theorem crawlPass_inTime_iff (o : DeepOrchestrator) (fetch : Fetcher σ Url) (deadline : Nat)
    {pass : Pass} (ordered : pass.Ordered) (s : Crawl σ Url) :
    (crawlPass o fetch deadline pass s).All (fun t =>
      AllInTime deadline t ↔ AllInTime deadline s ∧ Quick o fetch deadline pass s) := by
  have later : pass.now ≤ pass.fetchAt := ordered.robots.trans (ordered.delay.trans ordered.fetch)
  -- a pass that asks for no page is quick if it is quick enough for `robots.txt`
  have unpaged : ∀ {candidate : DeepCandidate Url} {depth : UInt8}
      {queue : List (DeepCandidate Url × UInt8)}, s.queue = (candidate, depth) :: queue →
      pass.now < deadline → pageAsked o fetch deadline pass s = none →
      (Quick o fetch deadline pass s ↔ ∀ file ∈ robotsAsked o fetch pass candidate depth
        s.robotsEntries s.fetcher, InTime deadline file) := by
    intro candidate depth queue head early unasked
    rw [robotsAsked_inTime_iff ordered early]
    constructor
    · exact fun quick robots hrobots asked =>
        quick.robots robots candidate depth queue hrobots head early asked
    · intro files
      refine ⟨?_, by simp [unasked]⟩
      intro robots candidate' depth' queue' hrobots head' _ asked
      cases head.symm.trans head'
      exact files robots hrobots asked
  cases crawlPass_passed o fetch deadline pass s with
  | idle empty unasked after =>
    rw [after]
    have quick : Quick o fetch deadline pass s :=
      ⟨by simp [empty], by simp [unasked]⟩
    exact ⟨fun all => ⟨all, quick⟩, fun both => both.1⟩
  | late candidate depth queue notes head expired unasked after =>
    rw [after]
    have quick : Quick o fetch deadline pass s :=
      ⟨fun _ _ _ _ _ _ early => absurd early (by omega), by simp [unasked]⟩
    exact ⟨fun all => ⟨all, quick⟩, fun both => both.1⟩
  | refused candidate depth queue entries fetcher notes out paid head early unasked turned =>
    have same : ∀ t : Crawl σ Url, t.pages = s.pages →
        t.robotsFiles = s.robotsFiles ++ robotsAsked o fetch pass candidate depth s.robotsEntries
          s.fetcher →
        (AllInTime deadline t ↔ AllInTime deadline s ∧ Quick o fetch deadline pass s) := by
      intro t hpages hfiles
      rw [allInTime_append [] _ (by rw [hpages, List.append_nil]) hfiles,
        unpaged head early unasked]
      simp
    rcases turned with again | done
    · rw [again]
      exact same _ rfl rfl
    · rw [done]
      exact same _ rfl rfl
  | asked candidate depth queue entries fetcher notes out paid reserved rows request u head
      early reservation prepared issued received after =>
    rw [after]
    obtain ⟨hpages, hfiles⟩ := received.requests
    obtain ⟨known, hrequest⟩ := prepared
    have timeout : request.timeoutMs = fetchTimeout o deadline pass := by
      rw [hrequest]
      rfl
    have quick : Quick o fetch deadline pass s ↔
        (InTime deadline ⟨pass.fetchAt, request, (fetch request fetcher).connections⟩ ∧
          ∀ file ∈ robotsAsked o fetch pass candidate depth s.robotsEntries s.fetcher,
            InTime deadline file) := by
      rw [robotsAsked_inTime_iff ordered early, InTime, timeout, ← fits_iff early later]
      constructor
      · exact fun quick => ⟨quick.page (by simp [issued]), fun robots hrobots asked =>
          quick.robots robots candidate depth queue hrobots head early asked⟩
      · rintro ⟨page, files⟩
        refine ⟨?_, fun _ => page⟩
        intro robots candidate' depth' queue' hrobots head' _ asked
        cases head.symm.trans head'
        exact files robots hrobots asked
    show AllInTime deadline u ↔ _
    rw [allInTime_append _ _ hpages hfiles, quick, List.forall_mem_singleton]

/-- For a clock that does not run backwards: the requests of a run are all in time
exactly where every pass of it is quick. -/
theorem enrich_inTime_iff (o : DeepOrchestrator) (fetch : Fetcher σ Url) (env : Surroundings Url)
    (ordered : env.Ordered) (request : DeepRequest Url) (budget : DeepBudget)
    (rows : List (DocumentRow Url)) (entries : List (String × CacheEntry)) (fetcher : σ) :
    let deadline := deepDeadline env budget
    let passes := fun index => crawlPass o fetch deadline (env.passes index)
    AllInTime deadline (enrich o fetch env request budget rows entries fetcher).crawl ↔
      (request.planNormalizedQuery = request.query.normalizedQuery → ∀ index s,
        Loop.Reaches passes (Crawl.start o request budget rows entries fetcher) index s →
        Quick o fetch deadline (env.passes index) s) := by
  intro deadline passes
  have step := fun index s =>
    crawlPass_inTime_iff o fetch deadline (ordered.pass index) (s := s)
  have begins : AllInTime deadline (Crawl.start o request budget rows entries fetcher) := by
    simp [AllInTime, Crawl.start]
  constructor
  · intro all matched index s reached
    -- a pass that is not quick leaves a late request, which stays to the end
    by_contra slow
    have stays : ∀ index t, ¬ AllInTime deadline t →
        (passes index t).All (fun t => ¬ AllInTime deadline t) := by
      intro index t late
      exact (step index t).imp (fun _ same inTime => late (same.mp inTime).1)
    have first : (passes index s).All (fun t => ¬ AllInTime deadline t) :=
      (step index s).imp (fun _ same inTime => slow (same.mp inTime).2)
    obtain ⟨fuel, rest⟩ := reached.run (run_eq_crawl o fetch deadline env.passes _)
    have late := Loop.run_after stays first rest
    rcases enrich_crawl_of_matched o fetch env budget rows entries fetcher matched with
      crawled | ⟨none, -⟩
    · rw [crawled] at all
      exact late all
    · rw [crawl_of_empty o fetch deadline env.passes (by simp [Crawl.start, none])] at late
      exact late begins
  · intro quick
    by_cases matched : request.planNormalizedQuery = request.query.normalizedQuery
    · refine enrich_crawl (fun errors notes => begins) (crawl_reached ?_ begins)
      intro index s reached inTime
      exact (step index s).imp (fun _ same => same.mpr ⟨inTime, quick matched index s reached⟩)
    · simp only [enrich, if_pos (show request.planNormalizedQuery ≠ _ from matched)]
      exact begins

end

def politePages (url : String) : Option String :=
  if url = "https://example.com/robots.txt" then some "" else twoPages url

def politeLevel : DeepOrchestrator := { oneLevel with robots := some (.new 5000 65536) }

/-- The first pass takes no time; in the second, after a tenth of a second,
`robots.txt` takes eight tenths to load. -/
def slowConsent : Surroundings PageUrl :=
  { stillRun PageUrl with
    passes := fun
      | 0 => passAt 0
      | index + 1 =>
        { passAt (index * 1000000000 + 100000000) with
          delayNow := index * 1000000000 + 900000000
          fetchAt := index * 1000000000 + 900000000 } }

theorem slowConsent_ordered : slowConsent.Ordered := by
  refine ⟨le_rfl, fun index => ?_, fun index => ?_⟩
  · cases index with
    | zero => exact ⟨le_rfl, le_rfl, le_rfl⟩
    | succ index =>
      refine ⟨le_rfl, ?_, le_rfl⟩
      simp only [slowConsent, passAt]
      omega
  · cases index with
    | zero =>
      simp only [slowConsent, passAt]
      omega
    | succ index =>
      simp only [slowConsent, passAt]
      omega

/-- With one second for the run, `robots.txt` is given five, and the page is asked
for at nine tenths with nine tenths to go. -/
theorem slowConsent_late :
    letI := sampleHex
    letI := plainPages
    letI := plainJson PageUrl
    let budget := DeepBudget.new 3 1000 2 0 3 1000
    let run := enrich politeLevel (siteFetch politePages) slowConsent (pagesRequest [homePage]) budget
      [] [] ()
    slowConsent.Ordered ∧ deepDeadline slowConsent budget = 1000000000 ∧
      run.crawl.pages.map (fun page => (page.moment, page.request.timeoutMs)) =
        [(0, 1000), (900000000, 900)] ∧
      run.crawl.robotsFiles.map (fun file => (file.moment, file.request.timeoutMs)) =
        [(100000000, 5000)] ∧
      ¬ AllInTime (deepDeadline slowConsent budget) run.crawl := by
  let _ := sampleHex
  let _ := plainPages
  let _ := plainJson PageUrl
  refine ⟨slowConsent_ordered, by decide +kernel, by decide +kernel, by decide +kernel, ?_⟩
  unfold AllInTime InTime
  decide +kernel

/-- With a minute for the run, the same passes are quick. -/
theorem slowConsent_quick :
    letI := sampleHex
    letI := plainPages
    letI := plainJson PageUrl
    let budget := DeepBudget.new 3 1000 2 0 3 60000
    let deadline := deepDeadline slowConsent budget
    ∀ index s,
      Loop.Reaches (fun index => crawlPass politeLevel (siteFetch politePages) deadline
        (slowConsent.passes index))
        (Crawl.start politeLevel (pagesRequest [homePage]) budget [] [] ()) index s →
      Quick politeLevel (siteFetch politePages) deadline (slowConsent.passes index) s := by
  let _ := sampleHex
  let _ := plainPages
  let _ := plainJson PageUrl
  refine (enrich_inTime_iff politeLevel (siteFetch politePages) slowConsent slowConsent_ordered
    (pagesRequest [homePage]) (DeepBudget.new 3 1000 2 0 3 60000) [] [] ()).mp ?_ rfl
  unfold AllInTime InTime
  decide +kernel

end Amatl
