import Amatl.Deep.Stages

/-! Resource accounting over a whole run: no counter leaves its range, what was
consumed is what is missing, and every document and every subquery was paid for. -/

namespace Amatl

open UrlCrate DeepBudget

structure DeepBudgetSnapshot.Within (s initial : DeepBudgetSnapshot) : Prop where
  fetches : s.remainingFetches.toNat ≤ initial.remainingFetches.toNat
  bytes : s.remainingBytes.toNat ≤ initial.remainingBytes.toNat
  redirects : s.remainingRedirects.toNat ≤ initial.remainingRedirects.toNat
  browserCalls : s.remainingBrowserCalls.toNat ≤ initial.remainingBrowserCalls.toNat
  crawlUrls : s.remainingCrawlUrls.toNat ≤ initial.remainingCrawlUrls.toNat
  subqueries : s.remainingSubqueries.toNat ≤ initial.remainingSubqueries.toNat
  cost : s.remainingCost.toNat ≤ initial.remainingCost.toNat
  deadline : s.deadlineMs = initial.deadlineMs

theorem DeepBudgetSnapshot.Within.trans {s middle initial : DeepBudgetSnapshot}
    (h : s.Within middle) (h' : middle.Within initial) : s.Within initial where
  fetches := h.fetches.trans h'.fetches
  bytes := h.bytes.trans h'.bytes
  redirects := h.redirects.trans h'.redirects
  browserCalls := h.browserCalls.trans h'.browserCalls
  crawlUrls := h.crawlUrls.trans h'.crawlUrls
  subqueries := h.subqueries.trans h'.subqueries
  cost := h.cost.trans h'.cost
  deadline := h.deadline.trans h'.deadline

/-- The account of a crawl that started with the budget `b`, `due` documents of
which are reserved and not yet produced. -/
structure Owes {σ Url : Type} (b : DeepBudget) (due : Nat) (s : Crawl σ Url) : Prop where
  fetches : s.budget.snapshot.remainingFetches.toNat + s.documents.length + due ≤
    b.snapshot.remainingFetches.toNat
  crawlUrls : s.budget.snapshot.remainingCrawlUrls.toNat + due ≤
    b.snapshot.remainingCrawlUrls.toNat
  bytes : s.budget.snapshot.remainingBytes.toNat + bytesOf s.consumed =
    b.snapshot.remainingBytes.toNat
  redirects : s.budget.snapshot.remainingRedirects.toNat + redirectsOf s.consumed =
    b.snapshot.remainingRedirects.toNat
  browserCalls : s.budget.snapshot.remainingBrowserCalls.toNat ≤
    b.snapshot.remainingBrowserCalls.toNat
  subqueries : s.budget.snapshot.remainingSubqueries = b.snapshot.remainingSubqueries
  cost : s.budget.snapshot.remainingCost = b.snapshot.remainingCost
  deadline : s.budget.snapshot.deadlineMs = b.snapshot.deadlineMs

/-- What the account says of a state by itself. -/
structure Balanced {σ Url : Type} (b : DeepBudget) (s : Crawl σ Url) : Prop where
  within : s.budget.snapshot.Within b.snapshot
  bytes : s.budget.snapshot.remainingBytes.toNat + bytesOf s.consumed =
    b.snapshot.remainingBytes.toNat
  redirects : s.budget.snapshot.remainingRedirects.toNat + redirectsOf s.consumed =
    b.snapshot.remainingRedirects.toNat
  documents : s.documents.length ≤ b.snapshot.remainingFetches.toNat

abbrev Accounted {σ Url : Type} (b : DeepBudget) (s : Crawl σ Url) : Prop := Owes b 0 s

theorem Owes.within {σ Url : Type} {b : DeepBudget} {due : Nat} {s : Crawl σ Url}
    (h : Owes b due s) : s.budget.snapshot.Within b.snapshot where
  fetches := by
    have fetches := h.fetches
    omega
  bytes := by
    have bytes := h.bytes
    omega
  redirects := by
    have redirects := h.redirects
    omega
  browserCalls := h.browserCalls
  crawlUrls := by
    have crawlUrls := h.crawlUrls
    omega
  subqueries := by rw [h.subqueries]
  cost := by rw [h.cost]
  deadline := h.deadline

/-- The budget after a failed fetch: at most one fetch and one URL more. -/
theorem snapshot_after_failure (error : FetchError) (b : DeepBudget) :
    ∃ fetches crawlUrls,
      (if error.released then b.releaseFetch else b).snapshot =
        { b.snapshot with remainingFetches := fetches, remainingCrawlUrls := crawlUrls } ∧
      fetches.toNat ≤ b.snapshot.remainingFetches.toNat + 1 ∧
      crawlUrls.toNat ≤ b.snapshot.remainingCrawlUrls.toNat + 1 := by
  by_cases released : error.released = true
  · rw [if_pos released]
    exact ⟨_, _, rfl, releaseFetch_fetches b, releaseFetch_crawlUrls b⟩
  · rw [if_neg released]
    exact ⟨_, _, rfl, Nat.le_succ _, Nat.le_succ _⟩

theorem Owes.balanced {σ Url : Type} {b : DeepBudget} {due : Nat} {s : Crawl σ Url}
    (h : Owes b due s) : Balanced b s := by
  have fetches := h.fetches
  exact ⟨h.within, h.bytes, h.redirects, by omega⟩

def FailuresKeep {α : Type} (operation : DeepBudget → Except BudgetExhaustionCause α × DeepBudget) :
    Prop :=
  ∀ b cause b', operation b = (.error cause, b') → b' = b

section

variable {σ Url : Type} [UrlCrate Url] [ScraperCrate]

/-- A reserved fetch turns into a document, is given back or is lost. -/
theorem Received.accounted {o : DeepOrchestrator} {candidate : DeepCandidate Url} {depth : UInt8}
    {result : Except FetchError (FetchResult Url)} {s t : Crawl σ Url} {b : DeepBudget}
    (h : Received o candidate depth result s t) (owed : Owes b 1 s) : Accounted b t := by
  have fetches := owed.fetches
  have crawlUrls := owed.crawlUrls
  cases h with
  | failed error errors notes failure after =>
    subst after
    obtain ⟨f, c, hsnapshot, moreFetches, moreUrls⟩ := snapshot_after_failure error s.budget
    refine ⟨?_, ?_, ?_, ?_, ?_, ?_, ?_, ?_⟩ <;> simp only [hsnapshot]
    · omega
    · omega
    · exact owed.bytes
    · exact owed.redirects
    · exact owed.browserCalls
    · exact owed.subqueries
    · exact owed.cost
    · exact owed.deadline
  | answered fetched budget paid notes out documents rows ranks visited links answer spent few
      unpaid frontier after =>
    subst after
    have bytes := owed.bytes
    have redirects := owed.redirects
    have spentBytes := spent.bytes
    have spentRedirects := spent.redirects
    exact
      { fetches := by
          simp only [spent.fetches, List.length_append]
          omega
        crawlUrls := by
          simp only [spent.crawlUrls]
          omega
        bytes := by
          simp only [bytesOf_append]
          omega
        redirects := by
          simp only [redirectsOf_append]
          omega
        browserCalls := spent.browserCalls.trans owed.browserCalls
        subqueries := spent.subqueries.trans owed.subqueries
        cost := spent.cost.trans owed.cost
        deadline := spent.deadline.trans owed.deadline }

variable [Sha256Hex] [DocumentJson Url]

/-- One pass keeps the account. -/
theorem crawlPass_accounted (o : DeepOrchestrator) (fetch : Fetcher σ Url) (deadline : Nat)
    (b : DeepBudget) (pass : Pass) (s : Crawl σ Url) (account : Accounted b s) :
    (crawlPass o fetch deadline pass s).All (Accounted b) := by
  -- a state with the same budget, documents and consumption has the same account
  have same : ∀ t : Crawl σ Url, t.budget = s.budget → t.documents = s.documents →
      t.consumed = s.consumed → Accounted b t := by
    intro t hbudget hdocuments hconsumed
    refine ⟨?_, ?_, ?_, ?_, ?_, ?_, ?_, ?_⟩ <;> simp only [hbudget, hdocuments, hconsumed]
    · exact account.fetches
    · exact account.crawlUrls
    · exact account.bytes
    · exact account.redirects
    · exact account.browserCalls
    · exact account.subqueries
    · exact account.cost
    · exact account.deadline
  cases crawlPass_passed o fetch deadline pass s with
  | idle empty unasked after =>
    rw [after]
    exact account
  | late candidate depth queue notes head expired unasked after =>
    rw [after]
    exact same _ rfl rfl rfl
  | refused candidate depth queue entries fetcher notes out paid head early unasked turned =>
    rcases turned with again | done
    · rw [again]
      exact same _ rfl rfl rfl
    · rw [done]
      exact same _ rfl rfl rfl
  | asked candidate depth queue entries fetcher notes out paid reserved rows request u head
      early reservation prepared issued received after =>
    rw [after]
    obtain ⟨hfetches, hurls, -, hreserved⟩ := reserveFetch_ok reservation
    have oneFetch := toNat_sub_one hfetches
    have oneUrl := toNat_sub_one hurls
    have fetches := account.fetches
    have crawlUrls := account.crawlUrls
    refine received.accounted ⟨?_, ?_, ?_, ?_, ?_, ?_, ?_, ?_⟩ <;> simp only [hreserved]
    · omega
    · omega
    · exact account.bytes
    · exact account.redirects
    · exact account.browserCalls
    · exact account.subqueries
    · exact account.cost
    · exact account.deadline

/-- An answer within the limits of its request can always be paid for. -/
theorem crawlPass_paid {fetch : Fetcher σ Url} (limits : KeepsLimits fetch) (o : DeepOrchestrator)
    (deadline : Nat) (pass : Pass) (s : Crawl σ Url) (paid : Exhaustion.answer ∉ s.exhausted) :
    (crawlPass o fetch deadline pass s).All (fun t => Exhaustion.answer ∉ t.exhausted) := by
  cases crawlPass_passed o fetch deadline pass s with
  | idle empty unasked after =>
    rw [after]
    exact paid
  | late candidate depth queue notes head expired unasked after =>
    rw [after]
    simpa [Loop.Turn.All] using paid
  | refused candidate depth queue entries fetcher notes out unanswered head early unasked turned =>
    rcases turned with again | done
    · rw [again]
      simpa [Loop.Turn.All] using ⟨paid, unanswered⟩
    · rw [done]
      simpa [Loop.Turn.All] using ⟨paid, unanswered⟩
  | asked candidate depth queue entries fetcher notes out unanswered reserved rows request u head
      early reservation prepared issued received after =>
    rw [after]
    cases received with
    | failed error errors notes' failure hafter =>
      rw [hafter]
      simpa [Loop.Turn.All] using ⟨paid, unanswered⟩
    | answered fetched budget spentNow notes' out' documents rows' ranks visited links answer spent
        few unpaid frontier hafter =>
      obtain ⟨known, rfl⟩ := prepared
      obtain ⟨-, -, -, hreserved⟩ := reserveFetch_ok reservation
      obtain ⟨hsize, hredirects⟩ := limits _ _ _ answer
      have fits : Exhaustion.answer ∉ out' := by
        intro failed
        obtain ⟨cause, b, hfailed⟩ := unpaid failed
        have bytesFit : fetched.size ≤ reserved.snapshot.remainingBytes := by
          rw [hreserved, UInt64.le_iff_toNat_le]
          rw [UInt64.le_iff_toNat_le, fetchRequest, toNat_min_u64] at hsize
          simp only
          omega
        have redirectsFit : fetched.redirectChain.length.toUInt32 ≤
            reserved.snapshot.remainingRedirects := by
          rw [hreserved, UInt32.le_iff_toNat_le]
          rw [fetchRequest, toNat_min_u32] at hredirects
          have small := s.budget.snapshot.remainingRedirects.toNat_lt
          simp only [Nat.toUInt32_eq, UInt32.toNat_ofNat']
          omega
        obtain ⟨b', within⟩ := consumeFetch_within bytesFit redirectsFit
        rw [hfailed] at within
        cases (Prod.ext_iff.mp within).1
      rw [hafter]
      simp only [Loop.Turn.All, List.mem_append, not_or]
      exact ⟨⟨paid, unanswered⟩, fits⟩

end

def ranSubqueries {Url : Type} (subqueries : List (SubQuery Url)) : List (SubQuery Url) :=
  subqueries.filter (fun subquery => subquery.status == .executed || subquery.status == .failed)

def totalCost {Url : Type} (subqueries : List (SubQuery Url)) : Nat :=
  (subqueries.map (fun subquery => subquery.estimatedCost.toNat)).sum

/-- The account of the subqueries that started with the budget `b`. -/
structure Rationed {Url : Type} (b : DeepBudget) (r : Refinement Url) : Prop where
  count : r.budget.snapshot.remainingSubqueries.toNat + (ranSubqueries r.subqueries).length =
    b.snapshot.remainingSubqueries.toNat
  cost : r.budget.snapshot.remainingCost.toNat + totalCost (ranSubqueries r.subqueries) =
    b.snapshot.remainingCost.toNat
  rest : r.budget.snapshot =
    { b.snapshot with
      remainingSubqueries := r.budget.snapshot.remainingSubqueries
      remainingCost := r.budget.snapshot.remainingCost }

section

variable {Url : Type}

theorem Rationed.within {b : DeepBudget} {r : Refinement Url} (h : Rationed b r) :
    r.budget.snapshot.Within b.snapshot := by
  have count := h.count
  have cost := h.cost
  rw [h.rest]
  exact ⟨le_rfl, le_rfl, le_rfl, le_rfl, le_rfl, by simp only; omega, by simp only; omega, rfl⟩

theorem Rationed.add_unrun {b : DeepBudget} {r : Refinement Url} (h : Rationed b r)
    {subquery : SubQuery Url} (notes : List Degradation)
    (unrun : ranSubqueries [subquery] = []) :
    Rationed b (Refinement.add { r with degradations := notes } subquery) := by
  have same : ranSubqueries (r.subqueries ++ [subquery]) = ranSubqueries r.subqueries := by
    rw [ranSubqueries, List.filter_append]
    have none : [subquery].filter _ = [] := unrun
    rw [none, List.append_nil]
    rfl
  refine ⟨?_, ?_, h.rest⟩ <;> simp only [Refinement.add, same]
  · exact h.count
  · exact h.cost

theorem Rationed.add_run {b reserved : DeepBudget} {r : Refinement Url} (h : Rationed b r)
    {subquery : SubQuery Url} (known : List String) (run : ranSubqueries [subquery] = [subquery])
    (reservation : r.budget.reserveSubquery subquery.estimatedCost = (.ok (), reserved)) :
    Rationed b (Refinement.add { r with budget := reserved, knownUrls := known } subquery) := by
  obtain ⟨one, paid, hreserved⟩ := reserveSubquery_ok reservation
  have more : ranSubqueries (r.subqueries ++ [subquery]) =
      ranSubqueries r.subqueries ++ [subquery] := by
    rw [ranSubqueries, List.filter_append]
    have kept : [subquery].filter _ = [subquery] := run
    rw [kept]
    rfl
  have count := h.count
  have cost := h.cost
  refine ⟨?_, ?_, ?_⟩
  · simp only [Refinement.add, more, List.length_append, List.length_singleton]
    omega
  · simp only [Refinement.add, more, totalCost, List.map_append, List.sum_append] at cost ⊢
    simp only [List.map_cons, List.map_nil, List.sum_cons, List.sum_nil]
    omega
  · simp only [Refinement.add]
    rw [hreserved, h.rest]

variable [UrlCrate Url]

theorem finishSubquery_rationed {b reserved : DeepBudget} {r : Refinement Url} (h : Rationed b r)
    (subquery : SubQuery Url) (outcome : Option (Except Unit (SearchResponse Url)))
    (reservation : r.budget.reserveSubquery subquery.estimatedCost = (.ok (), reserved)) :
    Rationed b (finishSubquery subquery outcome { r with budget := reserved }) := by
  unfold finishSubquery
  split
  · exact h.add_run r.knownUrls rfl reservation
  · exact h.add_run r.knownUrls rfl reservation
  · split
    · exact h.add_run r.knownUrls rfl reservation
    · exact h.add_run _ rfl reservation

theorem runProposal_rationed {b : DeepBudget} {r : Refinement Url} (h : Rationed b r)
    (env : Surroundings Url) (deadline : Nat) (attempt : SubqueryAttempt Url) (proposal : GapProposal) :
    Rationed b (runProposal env deadline attempt proposal r) := by
  unfold runProposal
  simp only
  split
  · exact h.add_unrun r.degradations rfl
  · split
    · exact h.add_unrun r.degradations rfl
    · split
      · exact h.add_unrun _ rfl
      · split
        · exact h.add_unrun _ rfl
        · rename_i reservation
          exact finishSubquery_rationed h _ _ reservation

theorem runProposals_rationed {b : DeepBudget} (env : Surroundings Url) (deadline : Nat)
    (proposals : List GapProposal) (index : Nat) {r : Refinement Url} (h : Rationed b r) :
    Rationed b (runProposals env deadline index proposals r) := by
  induction proposals generalizing index r with
  | nil => exact h
  | cons proposal proposals ih =>
    exact ih (index + 1) (runProposal_rationed h env deadline (env.attempts index) proposal)

end

section

variable {σ Url : Type} [UrlCrate Url] [Sha256Hex]

theorem start_accounted (o : DeepOrchestrator) (request : DeepRequest Url) (b : DeepBudget)
    (rows : List (DocumentRow Url)) (entries : List (String × CacheEntry)) (fetcher : σ) :
    Accounted b (Crawl.start o request b rows entries fetcher) :=
  ⟨le_rfl, le_rfl, rfl, rfl, le_rfl, rfl, rfl, rfl⟩

variable [ScraperCrate] [DocumentJson Url]

theorem reached_accounted (o : DeepOrchestrator) (fetch : Fetcher σ Url) (deadline : Nat)
    (passes : Nat → Pass) {b : DeepBudget} {start : Crawl σ Url} (account : Accounted b start)
    {index : Nat} {s : Crawl σ Url}
    (reached : Loop.Reaches (fun index => crawlPass o fetch deadline (passes index)) start index
      s) : Accounted b s :=
  reached.keeps (fun index s => crawlPass_accounted o fetch deadline b (passes index) s) account

theorem enrich_rationed (o : DeepOrchestrator) (fetch : Fetcher σ Url) (env : Surroundings Url)
    (request : DeepRequest Url) (b : DeepBudget) (rows : List (DocumentRow Url))
    (entries : List (String × CacheEntry)) (fetcher : σ) :
    let run := enrich o fetch env request b rows entries fetcher
    ∃ r : Refinement Url, Rationed run.crawl.budget r ∧ r.budget = run.budget ∧
      r.subqueries = run.subqueries := by
  intro run
  have unused : ∀ (budget : DeepBudget) (known : List String) (notes : List Degradation),
      Rationed budget (⟨budget, known, notes, []⟩ : Refinement Url) :=
    fun budget known notes => ⟨rfl, rfl, rfl⟩
  simp only [run, enrich]
  split
  · exact ⟨_, unused _ [] [], rfl, rfl⟩
  · split
    · exact ⟨_, unused _ [] [], rfl, rfl⟩
    · exact ⟨_, runProposals_rationed env _ _ 0 (unused _ _ _), rfl, rfl⟩

/-- Over every run and every behaviour of the fetcher, the extractor and the
renderer: in every state and behind the subqueries the counters stay in their
ranges and account for what was consumed, no more documents than fetches are
produced, at most two subqueries run within the cost, a failed operation changes
nothing, a fetcher that keeps its limits is never refused its answer, and the crawl
ends. -/
theorem deep_accounting (o : DeepOrchestrator) (fetch : Fetcher σ Url) (env : Surroundings Url)
    (request : DeepRequest Url) (fetches : UInt32) (bytes : UInt64)
    (redirects browserCalls crawlUrls : UInt32) (deadlineMs : UInt64) (maxSubqueries : UInt32)
    (maxCost : UInt64) (rows : List (DocumentRow Url)) (entries : List (String × CacheEntry))
    (fetcher : σ) :
    let b := (DeepBudget.new fetches bytes redirects browserCalls crawlUrls deadlineMs).withGapLimits
      maxSubqueries maxCost
    let start := Crawl.start o request b rows entries fetcher
    let passes := fun index => crawlPass o fetch (deepDeadline env b) (env.passes index)
    let run := enrich o fetch env request b rows entries fetcher
    (∀ index s, Loop.Reaches passes start index s → Balanced b s) ∧ Balanced b run.crawl ∧
      run.budget.snapshot.Within b.snapshot ∧
      run.budget.snapshot.remainingBytes.toNat + bytesOf run.crawl.consumed = bytes.toNat ∧
      run.budget.snapshot.remainingRedirects.toNat + redirectsOf run.crawl.consumed =
        redirects.toNat ∧ run.crawl.documents.length ≤ fetches.toNat ∧
      (ranSubqueries run.subqueries).length ≤ 2 ∧
      totalCost (ranSubqueries run.subqueries) ≤ maxCost.toNat ∧
      (FailuresKeep reserveFetch ∧ (∀ bytes redirects, FailuresKeep (consumeFetch · bytes redirects)) ∧
        FailuresKeep reserveBrowser ∧ ∀ cost, FailuresKeep (reserveSubquery · cost)) ∧
      (KeepsLimits fetch → Exhaustion.answer ∉ run.crawl.exhausted) ∧
      ∃ last, Loop.run passes (queueWeight o start.queue + 1) 0 start = some last := by
  intro b start passes run
  have account : Accounted b run.crawl :=
    enrich_crawl (fun errors notes => ⟨le_rfl, le_rfl, rfl, rfl, le_rfl, rfl, rfl, rfl⟩)
      (crawl_invariant (fun pass s => crawlPass_accounted o fetch _ b pass s)
        (start_accounted o request b rows entries fetcher))
  obtain ⟨r, rationed, hbudget, hsubqueries⟩ : ∃ r : Refinement Url,
      Rationed run.crawl.budget r ∧ r.budget = run.budget ∧ r.subqueries = run.subqueries :=
    enrich_rationed o fetch env request b rows entries fetcher
  have count := rationed.count
  have cost := rationed.cost
  have within := account.within
  have refined := rationed.within
  rw [hsubqueries] at count cost
  rw [hbudget] at refined
  have untouched := rationed.rest
  rw [hbudget] at untouched
  have fewer : b.snapshot.remainingSubqueries.toNat ≤ 2 := by
    have two : (min maxSubqueries 2).toNat = min maxSubqueries.toNat 2 := toNat_min_u32 _ _
    change (min maxSubqueries 2).toNat ≤ 2
    omega
  refine ⟨fun index s reached => (reached_accounted o fetch _ env.passes
      (start_accounted o request b rows entries fetcher) reached).balanced,
    account.balanced, refined.trans within, ?_, ?_, account.balanced.documents, ?_, ?_,
    ⟨fun _ _ _ => reserveFetch_error, fun _ _ _ _ _ => consumeFetch_error,
      fun _ _ _ => reserveBrowser_error, fun _ _ _ _ => reserveSubquery_error⟩, ?_,
    ⟨_, run_eq_crawl o fetch _ env.passes start⟩⟩
  · rw [untouched]
    exact account.balanced.bytes
  · rw [untouched]
    exact account.balanced.redirects
  · have least := within.subqueries
    omega
  · have least := within.cost
    have most : b.snapshot.remainingCost.toNat = maxCost.toNat := rfl
    omega
  · intro limits
    exact enrich_crawl (fun errors notes => List.not_mem_nil)
      (crawl_invariant (fun pass s => crawlPass_paid limits o _ pass s) List.not_mem_nil)

end

theorem siteFetch_keepsLimits (body : String → Option String) : KeepsLimits (siteFetch body) := by
  intro request f result h
  simp only [siteFetch] at h
  split at h
  · cases h
  · split at h
    · cases h
    · rename_i fits
      cases h
      exact ⟨UInt64.not_lt.mp fits, Nat.zero_le _⟩

/-- Two pages of sixteen and three bytes, fetched with a budget for three. -/
theorem deep_accounting_twoPages :
    letI := sampleHex
    letI := plainPages
    letI := plainJson PageUrl
    let b := (DeepBudget.new 3 1000 2 0 3 10000).withGapLimits 5 7
    let run := enrich oneLevel (siteFetch twoPages) (stillRun PageUrl) (pagesRequest [homePage]) b []
      [] ()
    run.crawl.consumed = [(16, 0), (3, 0)] ∧ run.budget.snapshot.remainingBytes = 981 ∧
      run.crawl.documents.length = 2 ∧ Balanced b run.crawl ∧
      Exhaustion.answer ∉ run.crawl.exhausted := by
  let _ := sampleHex
  let _ := plainPages
  let _ := plainJson PageUrl
  obtain ⟨-, balanced, -, -, -, -, -, -, -, answered, -⟩ := deep_accounting oneLevel (siteFetch twoPages)
    (stillRun PageUrl) (pagesRequest [homePage]) 3 1000 2 0 3 10000 5 7 [] [] ()
  exact ⟨by decide +kernel, by decide +kernel, by decide +kernel, balanced,
    answered (siteFetch_keepsLimits twoPages)⟩

end Amatl
