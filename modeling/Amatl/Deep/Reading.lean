import Amatl.Deep.Visits

/-! The page that a pass reads, if it reads one, and all that the pass adds to the
queue, to the visited links and to the ranks. -/

namespace Amatl

open UrlCrate

def rankedWith {Url : Type} [UrlCrate Url] [Sha256Hex] (candidate : DeepCandidate Url)
    (links : List Url) (ranks : List (String × Rank)) : List (String × Rank) :=
  links.foldl (fun ranks link =>
    OrdMap.insert (searchResultId (childResult candidate.result link)) candidate.result.rank ranks)
    ranks

section

variable {σ Url : Type} [UrlCrate Url] [Sha256Hex] [ScraperCrate]

def readAfter (o : DeepOrchestrator) (pass : Pass) (candidate : DeepCandidate Url)
    (result : Except FetchError (FetchResult Url)) (s : Crawl σ Url) : Option (FetchResult Url) :=
  match result with
  | .error _ => none
  | .ok fetched =>
    match s.budget.consumeFetch fetched.size fetched.redirectChain.length.toUInt32 with
    | (.error _, _) => none
    | (.ok (), _) =>
      if fetched.status = 304 then none
      else if (cacheHit o pass candidate fetched s.rows).1.isSome then none
      else some fetched

/-- The page that a pass reads: the request for it goes out and is answered in full,
and nothing of it is stored. -/
def pageRead (o : DeepOrchestrator) (fetch : Fetcher σ Url) (deadline : Nat) (pass : Pass)
    (s : Crawl σ Url) : Option (DeepCandidate Url × UInt8 × FetchResult Url) :=
  match s.queue with
  | [] => none
  | (candidate, depth) :: queue =>
    let consented := consent o fetch deadline pass candidate depth { s with queue }
    if deadline ≤ pass.now || !consented.1 then none
    else match consented.2.budget.reserveFetch with
      | (.error _, _) => none
      | (.ok remaining, budget) =>
        let known := revalidation o pass candidate consented.2.rows
        let request := fetchRequest o deadline pass candidate remaining
          budget.snapshot.remainingRedirects known.1
        (readAfter o pass candidate (fetch request consented.2.fetcher).result
          { consented.2 with budget, rows := known.2 }).map (fun fetched =>
            (candidate, depth, fetched))

/-- What a pass adds when it reads a page, and that it adds nothing else. -/
def Follows (o : DeepOrchestrator) (read : Option (DeepCandidate Url × UInt8 × FetchResult Url))
    (queue : List (DeepCandidate Url × UInt8)) (s t : Crawl σ Url) : Prop :=
  match read with
  | none => t.queue = queue ∧ t.visited = s.visited ∧ t.originalRanks = s.originalRanks
  | some (candidate, depth, fetched) =>
    t.queue = queue ++ (addedLinks o depth fetched s.visited).map (childOf candidate depth) ∧
      t.visited = (if depth < o.maxDepth then
        visitedAfter s.visited (discoverLinks fetched.body fetched.finalUrl) else s.visited) ∧
      t.originalRanks = rankedWith candidate (addedLinks o depth fetched s.visited) s.originalRanks

omit [ScraperCrate] in
theorem foldl_enqueue_ranks (candidate : DeepCandidate Url) (depth : UInt8) (links : List Url)
    (s : Crawl σ Url) :
    (links.foldl (enqueue candidate depth) s).originalRanks =
      rankedWith candidate (freshLinks s.visited links) s.originalRanks := by
  induction links generalizing s with
  | nil => rfl
  | cons link links ih =>
    rw [List.foldl_cons, ih]
    by_cases seen : OrdMap.setContains (asStr link) s.visited = true
    · simp only [enqueue, seen, if_true, freshLinks]
    · simp only [enqueue, seen, freshLinks, Bool.false_eq_true, if_false, rankedWith,
        List.foldl_cons]
      rfl

theorem expand_follows (o : DeepOrchestrator) (candidate : DeepCandidate Url) (depth : UInt8)
    (fetched : FetchResult Url) (s : Crawl σ Url) :
    Follows o (some (candidate, depth, fetched)) s.queue s (expand o candidate depth fetched s) := by
  obtain ⟨ranks, hexpand⟩ := expand_frame o candidate depth fetched s
  refine ⟨by rw [hexpand], by rw [hexpand], ?_⟩
  unfold expand addedLinks
  by_cases deeper : depth < o.maxDepth
  · rw [if_pos deeper, if_pos deeper]
    exact foldl_enqueue_ranks candidate depth _ s
  · rw [if_neg deeper, if_neg deeper]
    rfl

variable [DocumentJson Url]

theorem produce_follows (o : DeepOrchestrator) (pass : Pass) (candidate : DeepCandidate Url)
    (depth : UInt8) (fetched : FetchResult Url) (s : Crawl σ Url) :
    Follows o (some (candidate, depth, fetched)) s.queue s
      (produce o pass candidate depth fetched s) := by
  obtain ⟨budget, paid, notes, out, hread, -⟩ := readPage_frame o pass fetched s
  obtain ⟨notes', hnote⟩ := noteExtraction_frame (readPage o pass fetched s).2
    (readPage o pass fetched s).1
  obtain ⟨rows, notes'', hkeep⟩ := keep_frame o pass candidate
    (documentOf candidate fetched (readPage o pass fetched s).1) (expand o candidate depth fetched
      ((readPage o pass fetched s).2.noteExtraction (readPage o pass fetched s).1))
  obtain ⟨hqueue, hvisited, hranks⟩ := expand_follows o candidate depth fetched
    ((readPage o pass fetched s).2.noteExtraction (readPage o pass fetched s).1)
  have hproduce : produce o pass candidate depth fetched s =
      (keep o pass candidate (documentOf candidate fetched (readPage o pass fetched s).1)
        (expand o candidate depth fetched
          ((readPage o pass fetched s).2.noteExtraction (readPage o pass fetched s).1))).addDocument
            (documentOf candidate fetched (readPage o pass fetched s).1) := rfl
  rw [hproduce, hkeep]
  refine ⟨?_, ?_, ?_⟩
  · simp only [Crawl.addDocument, hqueue]
    rw [hnote, hread]
  · simp only [Crawl.addDocument, hvisited]
    rw [hnote, hread]
  · simp only [Crawl.addDocument, hranks]
    rw [hnote, hread]

theorem receive_follows (o : DeepOrchestrator) (pass : Pass) (candidate : DeepCandidate Url)
    (depth : UInt8) (known : Option (Document Url))
    (result : Except FetchError (FetchResult Url)) (s : Crawl σ Url) :
    Follows o ((readAfter o pass candidate result s).map (fun fetched =>
      (candidate, depth, fetched))) s.queue s (receive o pass candidate depth known result s) := by
  unfold receive readAfter
  cases result with
  | error error =>
    by_cases released : error.released = true
    · simp only [if_pos released]
      exact ⟨rfl, rfl, rfl⟩
    · simp only [if_neg released]
      exact ⟨rfl, rfl, rfl⟩
  | ok fetched =>
    rcases hconsume : s.budget.consumeFetch fetched.size
      fetched.redirectChain.length.toUInt32 with ⟨cause | ⟨⟩, budget⟩
    · simp only [hconsume]
      exact ⟨rfl, rfl, rfl⟩
    · simp only [hconsume]
      by_cases unmodified : fetched.status = 304
      · rw [accept.eq_def, if_pos unmodified, if_pos unmodified]
        cases known with
        | none => exact ⟨rfl, rfl, rfl⟩
        | some document => exact ⟨rfl, rfl, rfl⟩
      · rw [accept.eq_def, if_neg unmodified, if_neg unmodified]
        simp only
        cases hfound : (cacheHit o pass candidate fetched s.rows).1 with
        | some document => exact ⟨rfl, rfl, rfl⟩
        | none => exact produce_follows o pass candidate depth fetched _

omit [DocumentJson Url] in
theorem Follows.from_like {o : DeepOrchestrator}
    {read : Option (DeepCandidate Url × UInt8 × FetchResult Url)}
    {queue : List (DeepCandidate Url × UInt8)} {s s' t : Crawl σ Url} (h : Follows o read queue s t)
    (visited : s.visited = s'.visited) (ranks : s.originalRanks = s'.originalRanks) :
    Follows o read queue s' t := by
  unfold Follows at h ⊢
  rw [visited, ranks] at h
  exact h

theorem acquire_follows (o : DeepOrchestrator) (fetch : Fetcher σ Url) (deadline : Nat) (pass : Pass)
    (candidate : DeepCandidate Url) (depth : UInt8) (remaining : UInt64) (s : Crawl σ Url) :
    let known := revalidation o pass candidate s.rows
    let request := fetchRequest o deadline pass candidate remaining
      s.budget.snapshot.remainingRedirects known.1
    Follows o ((readAfter o pass candidate (fetch request s.fetcher).result
      { s with rows := known.2 }).map (fun fetched => (candidate, depth, fetched))) s.queue s
      (acquire o fetch deadline pass candidate depth remaining s) := by
  intro known request
  have follows := receive_follows o pass candidate depth known.1 (fetch request s.fetcher).result
    { s with
      rows := known.2
      fetcher := (fetch request s.fetcher).fetcher
      pages := s.pages ++ [⟨pass.fetchAt, request, (fetch request s.fetcher).connections⟩] }
  exact follows.from_like rfl rfl

theorem crawlPass_follows (o : DeepOrchestrator) (fetch : Fetcher σ Url) (deadline : Nat)
    (pass : Pass) (s : Crawl σ Url) :
    (crawlPass o fetch deadline pass s).All
      (Follows o (pageRead o fetch deadline pass s) s.queue.tail s) := by
  unfold crawlPass pageRead
  cases hqueue : s.queue with
  | nil => exact ⟨hqueue, rfl, rfl⟩
  | cons entry queue =>
    obtain ⟨candidate, depth⟩ := entry
    simp only [List.tail_cons]
    by_cases expired : deadline ≤ pass.now
    · rw [if_pos expired, if_pos (by simp [expired])]
      exact ⟨rfl, rfl, rfl⟩
    · rw [if_neg expired]
      have hframe : ∃ entries fetcher files notes out,
          (consent o fetch deadline pass candidate depth { s with queue }).2 =
            { s with
              queue, robotsEntries := entries, fetcher, robotsFiles := files
              degradations := notes, exhausted := out } := by
        obtain ⟨entries, fetcher, notes, out, hconsent, -⟩ :=
          consent_frame o fetch deadline pass candidate depth { s with queue }
        exact ⟨entries, fetcher, _, _, _, hconsent⟩
      generalize consent o fetch deadline pass candidate depth { s with queue } = consented
        at hframe ⊢
      obtain ⟨agreed, after⟩ := consented
      obtain ⟨entries, fetcher, files, notes, out, rfl⟩ := hframe
      cases agreed with
      | false =>
        simp only [Bool.not_false, if_true, Bool.or_true]
        exact ⟨rfl, rfl, rfl⟩
      | true =>
        simp only [Bool.not_true, Bool.false_eq_true, if_false, Bool.or_false, decide_eq_true_eq,
          expired]
        rcases hreserve : s.budget.reserveFetch with ⟨cause | remaining, budget⟩
        · exact ⟨rfl, rfl, rfl⟩
        · have follows := acquire_follows o fetch deadline pass candidate depth remaining
            { s with
              queue, robotsEntries := entries, fetcher, robotsFiles := files
              degradations := notes, exhausted := out, budget }
          exact follows.from_like rfl rfl

omit [ScraperCrate] [DocumentJson Url] in
theorem pageRead_asked {o : DeepOrchestrator} {fetch : Fetcher σ Url} {deadline : Nat} {pass : Pass}
    {s : Crawl σ Url} {candidate : DeepCandidate Url} {depth : UInt8} {fetched : FetchResult Url}
    (h : pageRead o fetch deadline pass s = some (candidate, depth, fetched)) :
    ∃ request f, pageAsked o fetch deadline pass s = some (request, f) ∧
      (fetch request f).result = .ok fetched := by
  unfold pageRead at h
  unfold pageAsked
  cases hqueue : s.queue with
  | nil =>
    rw [hqueue] at h
    cases h
  | cons entry queue =>
    obtain ⟨head, level⟩ := entry
    simp only [hqueue] at h ⊢
    split at h
    · cases h
    · rename_i going
      rw [if_neg going]
      obtain ⟨entries, fetcher, notes, out, hconsent, -⟩ :=
        consent_frame o fetch deadline pass head level { s with queue }
      rw [hconsent] at h ⊢
      rcases hreserve : s.budget.reserveFetch with ⟨cause | remaining, budget⟩
      · simp only [hreserve] at h
        cases h
      · obtain ⟨-, -, -, hbudget⟩ := DeepBudget.reserveFetch_ok hreserve
        have redirects : budget.snapshot.remainingRedirects =
            s.budget.snapshot.remainingRedirects := by rw [hbudget]
        simp only [hreserve, redirects] at h ⊢
        refine ⟨_, _, rfl, ?_⟩
        obtain ⟨read, hread, heq⟩ := Option.map_eq_some_iff.mp h
        obtain ⟨-, heq⟩ := Prod.mk.inj heq
        obtain ⟨-, rfl⟩ := Prod.mk.inj heq
        unfold readAfter at hread
        split at hread
        · cases hread
        · rename_i answer hanswer
          rw [hanswer]
          split at hread
          · cases hread
          · split at hread
            · cases hread
            · split at hread
              · cases hread
              · rw [Option.some.inj hread]

end

end Amatl
