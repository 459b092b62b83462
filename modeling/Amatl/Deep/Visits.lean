import Amatl.Deep.Stages

/-! The pages that a crawl asks for. A link is remembered as it was found, with its
fragment, and asked for without it: the two agree where no two of the URLs in play
differ in their fragment alone. -/

namespace Amatl

open UrlCrate

section

variable {σ Url : Type} [UrlCrate Url]

/-- A URL as it is compared here: without its fragment. -/
def urlKey (url : Url) : String := asStr (setFragment none url)

/-- `set_fragment(None)` on a URL without a fragment changes nothing. -/
def DropsFragment (Url : Type) [UrlCrate Url] : Prop :=
  ∀ url : Url, urlKey (setFragment none url) = urlKey url

/-- The URL that is asked for when `url` was found at depth `depth`. -/
def askedFor (depth : Nat) (url : Url) : Url := if depth = 0 then url else setFragment none url

variable [ScraperCrate]

/-- The URLs a crawl can come to know, with their depths: the candidates it takes
and the links of any page it can be answered with. -/
inductive Discovered (o : DeepOrchestrator) (fetch : Fetcher σ Url)
    (candidates : List (DeepCandidate Url)) : Nat → Url → Prop
  | candidate {c : DeepCandidate Url} (taken : c ∈ candidates.take o.topK) :
      Discovered o fetch candidates 0 c.result.canonicalUrl
  | link {depth : Nat} {url link : Url} {request : TimedRequest Url} {f : σ}
      {fetched : FetchResult Url} (known : Discovered o fetch candidates depth url)
      (deeper : depth < o.maxDepth.toNat) (asked : request.url = askedFor depth url)
      (answer : (fetch request f).result = .ok fetched)
      (linked : link ∈ discoverLinks fetched.body fetched.finalUrl) :
      Discovered o fetch candidates (depth + 1) link

/-- The candidates taken are different, and no two URLs in play differ in their
fragment alone. -/
structure Apart (o : DeepOrchestrator) (fetch : Fetcher σ Url)
    (candidates : List (DeepCandidate Url)) : Prop where
  distinct : ((candidates.take o.topK).map (fun c => asStr c.result.canonicalUrl)).Nodup
  fragments : ∀ {d e : Nat} {u v : Url}, Discovered o fetch candidates d u →
    Discovered o fetch candidates e v → urlKey u = urlKey v → asStr u = asStr v

omit [ScraperCrate] in
theorem mem_visitedAfter {visited : List String} {links : List Url} {key : String} :
    key ∈ visitedAfter visited links ↔ key ∈ visited ∨ ∃ link ∈ links, asStr link = key := by
  induction links generalizing visited with
  | nil => simp [visitedAfter]
  | cons link links ih =>
    have unfolded : visitedAfter visited (link :: links) = visitedAfter
        (if OrdMap.setContains (asStr link) visited then visited
          else OrdMap.setInsert (asStr link) visited) links := rfl
    rw [unfolded, ih]
    by_cases seen : OrdMap.setContains (asStr link) visited = true
    · have there := OrdMap.setContains_iff.mp seen
      rw [if_pos seen]
      constructor
      · rintro (old | ⟨later, mem, same⟩)
        · exact .inl old
        · exact .inr ⟨later, List.mem_cons_of_mem _ mem, same⟩
      · rintro (old | ⟨later, mem, same⟩)
        · exact .inl old
        · rcases List.mem_cons.mp mem with rfl | mem
          · exact .inl (same ▸ there)
          · exact .inr ⟨later, mem, same⟩
    · rw [if_neg seen, OrdMap.mem_setInsert]
      constructor
      · rintro ((new | old) | ⟨later, mem, same⟩)
        · exact .inr ⟨link, List.mem_cons_self, new.symm⟩
        · exact .inl old
        · exact .inr ⟨later, List.mem_cons_of_mem _ mem, same⟩
      · rintro (old | ⟨later, mem, same⟩)
        · exact .inl (.inr old)
        · rcases List.mem_cons.mp mem with rfl | mem
          · exact .inl (.inl same.symm)
          · exact .inr ⟨later, mem, same⟩

omit [ScraperCrate] in
theorem freshLinks_new (visited : List String) (links : List Url) :
    (∀ link ∈ freshLinks visited links, link ∈ links ∧ asStr link ∉ visited) ∧
      ((freshLinks visited links).map asStr).Nodup := by
  induction links generalizing visited with
  | nil => simp [freshLinks]
  | cons link links ih =>
    by_cases seen : OrdMap.setContains (asStr link) visited = true
    · rw [freshLinks, if_pos seen]
      obtain ⟨new, distinct⟩ := ih visited
      exact ⟨fun other mem => ⟨List.mem_cons_of_mem _ (new other mem).1, (new other mem).2⟩,
        distinct⟩
    · rw [freshLinks, if_neg seen]
      obtain ⟨new, distinct⟩ := ih (OrdMap.setInsert (asStr link) visited)
      have later : ∀ other ∈ freshLinks (OrdMap.setInsert (asStr link) visited) links,
          asStr other ≠ asStr link ∧ asStr other ∉ visited := by
        intro other mem
        have unseen := (new other mem).2
        rw [OrdMap.mem_setInsert, not_or] at unseen
        exact unseen
      constructor
      · intro other mem
        rcases List.mem_cons.mp mem with rfl | mem
        · exact ⟨List.mem_cons_self, fun there => seen (OrdMap.setContains_iff.mpr there)⟩
        · exact ⟨List.mem_cons_of_mem _ (new other mem).1, (later other mem).2⟩
      · rw [List.map_cons, List.nodup_cons]
        refine ⟨?_, distinct⟩
        intro mem
        obtain ⟨other, there, same⟩ := List.mem_map.mp mem
        exact (later other there).1 same

/-- The URLs that were found, in order, for the pages asked for and those still
queued. -/
structure Found (o : DeepOrchestrator) (fetch : Fetcher σ Url)
    (candidates : List (DeepCandidate Url)) (pages : List (Issued Url))
    (queue : List (DeepCandidate Url × UInt8)) (visited : List String) (found : List Url) :
    Prop where
  covers : (pages.map (fun page => urlKey page.request.url) ++
    queue.map (fun entry => urlKey entry.1.result.canonicalUrl)).Sublist (found.map urlKey)
  distinct : (found.map asStr).Nodup
  visited : ∀ url ∈ found, asStr url ∈ visited
  discovered : ∀ url ∈ found, ∃ depth, Discovered o fetch candidates depth url
  queued : ∀ entry ∈ queue, ∃ url, Discovered o fetch candidates entry.2.toNat url ∧
    entry.1.result.canonicalUrl = askedFor entry.2.toNat url

section

variable {o : DeepOrchestrator} {fetch : Fetcher σ Url} {candidates : List (DeepCandidate Url)}
  {pages : List (Issued Url)} {queue : List (DeepCandidate Url × UInt8)} {visited : List String}
  {found : List Url}

theorem Found.drop {entry : DeepCandidate Url × UInt8}
    (h : Found o fetch candidates pages (entry :: queue) visited found) :
    Found o fetch candidates pages queue visited found := by
  refine ⟨?_, h.distinct, h.visited, h.discovered, ?_⟩
  · refine List.Sublist.trans ?_ h.covers
    exact List.Sublist.append_left (List.sublist_cons_self _ _) _
  · exact fun other mem => h.queued other (List.mem_cons_of_mem _ mem)

theorem Found.ask {candidate : DeepCandidate Url} {depth : UInt8} (page : Issued Url)
    (h : Found o fetch candidates pages ((candidate, depth) :: queue) visited found)
    (asked : page.request.url = candidate.result.canonicalUrl) :
    Found o fetch candidates (pages ++ [page]) queue visited found := by
  refine ⟨?_, h.distinct, h.visited, h.discovered, ?_⟩
  · simpa [asked] using h.covers
  · exact fun other mem => h.queued other (List.mem_cons_of_mem _ mem)

theorem Found.follow (drops : DropsFragment Url) {candidate : DeepCandidate Url} {depth : UInt8}
    {url : Url} {request : TimedRequest Url} {f : σ} {fetched : FetchResult Url}
    (h : Found o fetch candidates pages queue visited found)
    (known : Discovered o fetch candidates depth.toNat url)
    (asked : request.url = askedFor depth.toNat url)
    (answer : (fetch request f).result = .ok fetched) (deeper : depth < o.maxDepth) :
    let links := discoverLinks fetched.body fetched.finalUrl
    Found o fetch candidates pages
      (queue ++ (freshLinks visited links).map (childOf candidate depth))
      (visitedAfter visited links) (found ++ freshLinks visited links) := by
  intro links
  obtain ⟨new, distinct⟩ := freshLinks_new visited links
  have below := UInt8.lt_iff_toNat_lt.mp deeper
  have hdepth : (depth + 1).toNat = depth.toNat + 1 := by
    have top := o.maxDepth.toNat_lt
    rw [UInt8.toNat_add]
    simp only [UInt8.toNat_one]
    omega
  have linked : ∀ link ∈ freshLinks visited links,
      Discovered o fetch candidates (depth.toNat + 1) link :=
    fun link mem => .link known below asked answer (new link mem).1
  refine ⟨?_, ?_, ?_, ?_, ?_⟩
  · have keys : (freshLinks visited links).map (fun link =>
        urlKey (childOf candidate depth link).1.result.canonicalUrl) =
          (freshLinks visited links).map urlKey :=
      List.map_congr_left (fun link _ => drops link)
    rw [List.map_append, List.map_append, List.map_map, ← List.append_assoc]
    exact List.Sublist.append h.covers (keys ▸ List.Sublist.refl _)
  · rw [List.map_append, List.nodup_append]
    refine ⟨h.distinct, distinct, ?_⟩
    intro key old key' fresh same
    obtain ⟨url', mem', rfl⟩ := List.mem_map.mp old
    obtain ⟨link, mem, rfl⟩ := List.mem_map.mp fresh
    exact (new link mem).2 (same ▸ h.visited url' mem')
  · intro url' mem
    rw [mem_visitedAfter]
    rcases List.mem_append.mp mem with old | fresh
    · exact .inl (h.visited url' old)
    · exact .inr ⟨url', (new url' fresh).1, rfl⟩
  · intro url' mem
    rcases List.mem_append.mp mem with old | fresh
    · exact h.discovered url' old
    · exact ⟨_, linked url' fresh⟩
  · intro entry mem
    rcases List.mem_append.mp mem with old | fresh
    · exact h.queued entry old
    · obtain ⟨link, there, rfl⟩ := List.mem_map.mp fresh
      refine ⟨link, ?_, ?_⟩
      · simpa only [childOf, hdepth] using linked link there
      · simp [childOf, askedFor, hdepth, childResult]

theorem Found.askedOnce (apart : Apart o fetch candidates)
    (h : Found o fetch candidates pages queue visited found) :
    (pages.map (fun page => urlKey page.request.url)).Nodup := by
  have keys : (found.map urlKey).Nodup := by
    have strings := h.distinct
    rw [List.Nodup, List.pairwise_map] at strings ⊢
    refine strings.imp_of_mem ?_
    intro u v hu hv different same
    obtain ⟨d, du⟩ := h.discovered u hu
    obtain ⟨e, ev⟩ := h.discovered v hv
    exact different (apart.fragments du ev same)
  exact (keys.sublist h.covers).sublist (List.sublist_append_left _ _)

end

def AllFound (o : DeepOrchestrator) (fetch : Fetcher σ Url) (candidates : List (DeepCandidate Url))
    (s : Crawl σ Url) : Prop :=
  ∃ found, Found o fetch candidates s.pages s.queue s.visited found

variable [Sha256Hex] [DocumentJson Url]

/-- Every pass accounts for the pages it asks for. -/
theorem crawlPass_found (drops : DropsFragment Url) (o : DeepOrchestrator) (fetch : Fetcher σ Url)
    (candidates : List (DeepCandidate Url)) (deadline : Nat) (pass : Pass) (s : Crawl σ Url)
    (h : AllFound o fetch candidates s) :
    (crawlPass o fetch deadline pass s).All (AllFound o fetch candidates) := by
  obtain ⟨found, hfound⟩ := h
  cases crawlPass_passed o fetch deadline pass s with
  | idle empty unasked after =>
    rw [after]
    exact ⟨found, hfound⟩
  | late candidate depth queue notes head expired unasked after =>
    rw [after]
    rw [head] at hfound
    exact ⟨found, hfound.drop⟩
  | refused candidate depth queue entries fetcher notes out paid head early unasked turned =>
    rw [head] at hfound
    rcases turned with again | done
    · rw [again]
      exact ⟨found, hfound.drop⟩
    · rw [done]
      exact ⟨found, hfound.drop⟩
  | asked candidate depth queue entries fetcher notes out paid reserved rows request u head
      early reservation prepared issued received after =>
    rw [after]
    rw [head] at hfound
    obtain ⟨known, hrequest⟩ := prepared
    have hurl : request.url = candidate.result.canonicalUrl := by
      rw [hrequest]
      rfl
    obtain ⟨url, discovered, hcandidate⟩ := hfound.queued _ List.mem_cons_self
    have asked := hfound.ask ⟨pass.fetchAt, request, (fetch request fetcher).connections⟩ hurl
    cases received with
    | failed error errors notes' failure hafter =>
      rw [hafter]
      exact ⟨found, asked⟩
    | answered fetched budget paid' notes' out' documents rows' ranks visited links answer spent few
        unpaid frontier hafter =>
      rw [hafter]
      rcases frontier with ⟨rfl, rfl⟩ | ⟨deeper, rfl, rfl⟩
      · refine ⟨found, ?_⟩
        simpa using asked
      · exact ⟨_, asked.follow drops discovered (hurl.trans hcandidate) answer deeper⟩

omit [DocumentJson Url] in
theorem start_found {o : DeepOrchestrator} {fetch : Fetcher σ Url} {request : DeepRequest Url}
    (apart : Apart o fetch request.candidates) (budget : DeepBudget)
    (rows : List (DocumentRow Url)) (entries : List (String × CacheEntry)) (fetcher : σ) :
    AllFound o fetch request.candidates
      (Crawl.start o request budget rows entries fetcher) := by
  refine ⟨(request.candidates.take o.topK).map (fun c => c.result.canonicalUrl), ?_, ?_, ?_, ?_,
    ?_⟩
  · simp [Crawl.start, Function.comp_def]
  · rw [List.map_map]
    exact apart.distinct
  · intro url mem
    obtain ⟨c, taken, rfl⟩ := List.mem_map.mp mem
    simp only [Crawl.start, OrdMap.mem_setOf, List.map_map]
    exact List.mem_map.mpr ⟨c, taken, rfl⟩
  · intro url mem
    obtain ⟨c, taken, rfl⟩ := List.mem_map.mp mem
    exact ⟨0, .candidate taken⟩
  · intro entry mem
    obtain ⟨c, taken, rfl⟩ := List.mem_map.mp mem
    exact ⟨c.result.canonicalUrl, .candidate taken, rfl⟩

end

end Amatl
