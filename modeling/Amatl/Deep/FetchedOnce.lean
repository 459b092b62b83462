import Amatl.Deep.Consent

/-! Whether a crawl asks the fetcher for a URL twice. The pages and the `robots.txt` files go
through one fetcher, so a file counts like a page: it is asked for again when its entry has
expired or the cache has been emptied, and as a page when a page links to it. -/

namespace Amatl

open UrlCrate

theorem length_insert_le {K V : Type*} [Ord K] (k : K) (v : V) (m : List (K × V)) :
    (OrdMap.insert k v m).length ≤ m.length + 1 := by
  unfold OrdMap.insert
  induction m with
  | nil => exact le_refl _
  | cons first m ih =>
    simp only [OrdMap.upsert]
    cases compare k first.1 with
    | lt => exact le_refl _
    | eq => exact Nat.le_succ _
    | gt =>
      simp only [List.length_cons]
      omega

section

variable {σ Url : Type} [UrlCrate Url]

/-- The fetcher was asked for no URL twice. -/
def FetchedOnce (s : Crawl σ Url) : Prop :=
  ((s.pages ++ s.robotsFiles).map (fun issued => urlKey issued.request.url)).Nodup

def robotsAddress (origin : String) : Option Url := parse (origin ++ "/robots.txt")

/-- What the `url` crate documents: there is no fragment to drop twice, and the text of an origin is
parsed back to it, so that two origins have two files. -/
structure AddressLaws (Url : Type) [UrlCrate Url] : Prop where
  fragment : DropsFragment Url
  apart : ∀ {u v a b : Url} {origin other : String}, originKey u = some origin →
    originKey v = some other → robotsAddress origin = some a → robotsAddress other = some b →
    urlKey a = urlKey b → origin = other

variable [ScraperCrate]

/-- An origin of the links that a crawl can come to know. -/
def LinkOrigin (o : DeepOrchestrator) (fetch : Fetcher σ Url)
    (candidates : List (DeepCandidate Url)) (origin : String) : Prop :=
  ∃ depth url, 0 < depth ∧ Discovered o fetch candidates depth url ∧
    originKey (askedFor depth url) = some origin

/-- The clock does not move on by more than the time to live, the cache has room for every origin,
and no page is a `robots.txt` that the crawl reads. -/
structure RobotsApart (o : DeepOrchestrator) (fetch : Fetcher σ Url) (passes : Nat → Pass)
    (candidates : List (DeepCandidate Url)) (entries : List (String × CacheEntry))
    (robots : RobotsCache) : Prop where
  readings : ∀ i j, i ≤ j → (passes j).robotsNow - (passes i).robotsNow ≤ robots.ttlSeconds
  room : ∃ origins : List String, entries.length + origins.length ≤ robots.maxEntries ∧
    ∀ origin, LinkOrigin o fetch candidates origin → origin ∈ origins
  pages : ∀ {origin : String} {address url : Url} {depth : Nat},
    LinkOrigin o fetch candidates origin → robotsAddress origin = some address →
    Discovered o fetch candidates depth url → urlKey address ≠ urlKey url

/-- The origins whose files a run has stored before the pass `index`, and what it asked for them. -/
structure FilesAsked (o : DeepOrchestrator) (fetch : Fetcher σ Url) (passes : Nat → Pass)
    (candidates : List (DeepCandidate Url)) (initial : List (String × CacheEntry)) (index : Nat)
    (entries : List (String × CacheEntry)) (files : List Url) (stored : List String) : Prop where
  distinct : stored.Nodup
  asked : files = stored.filterMap robotsAddress
  linked : ∀ origin ∈ stored, LinkOrigin o fetch candidates origin
  held : ∀ origin ∈ stored, ∃ entry i, OrdMap.get? origin entries = some entry ∧ i < index ∧
    entry.fetchedAt = (passes i).robotsNow
  few : entries.length ≤ initial.length + stored.length

section

variable {o : DeepOrchestrator} {fetch : Fetcher σ Url} {passes : Nat → Pass}
  {candidates : List (DeepCandidate Url)} {initial entries : List (String × CacheEntry)}
  {robots : RobotsCache} {index : Nat} {files : List Url} {stored : List String}

theorem FilesAsked.mono
    (h : FilesAsked o fetch passes candidates initial index entries files stored) :
    FilesAsked o fetch passes candidates initial (index + 1) entries files stored := by
  refine ⟨h.distinct, h.asked, h.linked, fun origin mem => ?_, h.few⟩
  obtain ⟨entry, i, found, earlier, since⟩ := h.held origin mem
  exact ⟨entry, i, found, Nat.lt_succ_of_lt earlier, since⟩

/-- An entry of this run has not expired. -/
theorem FilesAsked.cached
    (h : FilesAsked o fetch passes candidates initial index entries files stored)
    (apart : RobotsApart o fetch passes candidates initial robots) {origin : String}
    (mem : origin ∈ stored) :
    ∃ rules, robots.cached entries origin (passes index).robotsNow = some rules := by
  obtain ⟨entry, i, found, earlier, since⟩ := h.held origin mem
  have young := apart.readings i index (Nat.le_of_lt earlier)
  refine ⟨entry.rules, ?_⟩
  rw [RobotsCache.cached, found]
  simp only [since, if_pos young]

/-- There is room for the entry, so that none is dropped for it. -/
theorem FilesAsked.store
    (h : FilesAsked o fetch passes candidates initial index entries files stored)
    (apart : RobotsApart o fetch passes candidates initial robots) {origin : String}
    (new : origin ∉ stored) (linked : LinkOrigin o fetch candidates origin)
    (rules : Option RobotsRules) :
    FilesAsked o fetch passes candidates initial (index + 1)
      (robots.store entries origin rules (passes index).robotsNow)
      (files ++ (robotsAddress origin).toList) (stored ++ [origin]) := by
  have distinct : (stored ++ [origin]).Nodup := by
    rw [List.nodup_append_comm]
    exact List.nodup_cons.mpr ⟨new, h.distinct⟩
  have links : ∀ other ∈ stored ++ [origin], LinkOrigin o fetch candidates other := by
    intro other mem
    rcases List.mem_append.mp mem with old | here
    · exact h.linked other old
    · exact List.mem_singleton.mp here ▸ linked
  obtain ⟨origins, room, all⟩ := apart.room
  have count := (distinct.subperm (fun other mem => all other (links other mem))).length_le
  rw [List.length_append, List.length_singleton] at count
  have few := h.few
  have stays : ¬ robots.maxEntries ≤ entries.length := by omega
  have entry : robots.store entries origin rules (passes index).robotsNow =
      OrdMap.insert origin ⟨rules, (passes index).robotsNow⟩ entries := by
    rw [RobotsCache.store]
    simp only [if_neg stays]
  refine ⟨distinct, ?_, links, ?_, ?_⟩
  · rw [List.filterMap_append, ← h.asked]
    cases parsed : (robotsAddress origin : Option Url) with
    | none => simp [parsed]
    | some address => simp [parsed]
  · intro other mem
    rw [entry, OrdMap.get?_insert]
    rcases List.mem_append.mp mem with old | here
    · have apart : other ≠ origin := fun same => new (same ▸ old)
      rw [if_neg apart]
      exact h.mono.held other old
    · rw [if_pos (List.mem_singleton.mp here)]
      exact ⟨_, index, rfl, Nat.lt_succ_self index, rfl⟩
  · have one := length_insert_le origin
      (⟨rules, (passes index).robotsNow⟩ : CacheEntry) entries
    rw [entry, List.length_append, List.length_singleton]
    omega

/-- A decision asks for the file of an origin that has none stored, and for no other. -/
theorem FilesAsked.decide
    (h : FilesAsked o fetch passes candidates initial index entries files stored)
    (apart : RobotsApart o fetch passes candidates initial robots) (url : Url) (f : σ)
    (linked : ∀ origin, originKey url = some origin → LinkOrigin o fetch candidates origin) :
    let run := robots.decide fetch (passes index).robotsNow url entries f
    ∃ stored, FilesAsked o fetch passes candidates initial (index + 1) run.entries
      (files ++ run.asked.toList.map (fun asked => asked.1.url)) stored := by
  unfold RobotsCache.decide
  cases horigin : originKey url with
  | none => exact ⟨stored, by simpa using h.mono⟩
  | some origin =>
    cases hcached : robots.cached entries origin (passes index).robotsNow with
    | some rules => exact ⟨stored, by simpa [hcached] using h.mono⟩
    | none =>
      have new : origin ∉ stored := by
        intro mem
        obtain ⟨rules, there⟩ := h.cached apart mem
        rw [hcached] at there
        cases there
      refine ⟨stored ++ [origin], ?_⟩
      cases haddress : (parse (origin ++ "/robots.txt") : Option Url) with
      | none =>
        have stores := h.store apart new (linked origin horigin) none
        simpa [robotsAddress, hcached, haddress] using stores
      | some address =>
        have stores := h.store apart new (linked origin horigin)
          (rulesOf (fetch (robots.request address) f).result)
        simpa [robotsAddress, hcached, haddress, RobotsCache.request] using stores

theorem FilesAsked.nodup (laws : AddressLaws Url)
    (h : FilesAsked o fetch passes candidates initial index entries files stored) :
    (files.map urlKey).Nodup := by
  rw [h.asked, List.Nodup, List.pairwise_map, List.pairwise_filterMap]
  refine h.distinct.imp_of_mem ?_
  intro origin other mem mem' different address parsed address' parsed' same
  obtain ⟨d, u, -, -, hu⟩ := h.linked origin mem
  obtain ⟨e, v, -, -, hv⟩ := h.linked other mem'
  exact different (laws.apart hu hv parsed parsed' same)

end

/-- What the passes before `index` asked for, pages and files. -/
def AllAsked (o : DeepOrchestrator) (fetch : Fetcher σ Url) (passes : Nat → Pass)
    (candidates : List (DeepCandidate Url)) (initial : List (String × CacheEntry)) (index : Nat)
    (s : Crawl σ Url) : Prop :=
  AllFound o fetch candidates s ∧ ∃ stored, (o.robots = none → stored = []) ∧
    FilesAsked o fetch passes candidates initial index s.robotsEntries
      (s.robotsFiles.map (fun issued => issued.request.url)) stored

def filesAsked (o : DeepOrchestrator) (fetch : Fetcher σ Url) (deadline : Nat) (pass : Pass)
    (s : Crawl σ Url) : List (Issued Url) :=
  match s.queue with
  | [] => []
  | (candidate, depth) :: _ =>
    if deadline ≤ pass.now then []
    else robotsAsked o fetch pass candidate depth s.robotsEntries s.fetcher

variable [Sha256Hex] [DocumentJson Url]

theorem crawlPass_files (o : DeepOrchestrator) (fetch : Fetcher σ Url) (deadline : Nat)
    (pass : Pass) (s : Crawl σ Url) :
    (crawlPass o fetch deadline pass s).All
      (fun t => t.robotsFiles = s.robotsFiles ++ filesAsked o fetch deadline pass s) := by
  unfold filesAsked
  cases crawlPass_passed o fetch deadline pass s with
  | idle empty unasked after =>
    rw [after, empty]
    exact (List.append_nil _).symm
  | late candidate depth queue notes head expired unasked after =>
    rw [after, head]
    simp only [if_pos expired]
    exact (List.append_nil _).symm
  | refused candidate depth queue entries fetcher notes out paid head early unasked turned =>
    rw [head]
    simp only [if_neg (Nat.not_le.mpr early)]
    rcases turned with again | done
    · rw [again]
      rfl
    · rw [done]
      rfl
  | asked candidate depth queue entries fetcher notes out paid reserved rows request u head
      early reservation prepared issued received after =>
    rw [after, head]
    simp only [if_neg (Nat.not_le.mpr early)]
    exact received.requests.2

theorem crawlPass_allAsked (laws : AddressLaws Url) {o : DeepOrchestrator} {fetch : Fetcher σ Url}
    {passes : Nat → Pass} {candidates : List (DeepCandidate Url)}
    {initial : List (String × CacheEntry)}
    (apart : ∀ robots ∈ o.robots, RobotsApart o fetch passes candidates initial robots)
    (deadline index : Nat) (s : Crawl σ Url)
    (h : AllAsked o fetch passes candidates initial index s) :
    (crawlPass o fetch deadline (passes index) s).All
      (AllAsked o fetch passes candidates initial (index + 1)) := by
  obtain ⟨pages, stored, idle, asked⟩ := h
  have found := crawlPass_found laws.fragment o fetch candidates deadline (passes index) s pages
  have entries := crawlPass_entries o fetch deadline (passes index) s
  have files := crawlPass_files o fetch deadline (passes index) s
  have next : ∃ stored, (o.robots = none → stored = []) ∧ FilesAsked o fetch passes candidates initial (index + 1)
      (entriesAfter o fetch deadline (passes index) s)
      ((s.robotsFiles ++ filesAsked o fetch deadline (passes index) s).map
        (fun issued => issued.request.url)) stored := by
    unfold entriesAfter filesAsked
    cases hqueue : s.queue with
    | nil => exact ⟨stored, idle, by simpa using asked.mono⟩
    | cons entry queue =>
      obtain ⟨candidate, depth⟩ := entry
      by_cases expired : deadline ≤ (passes index).now
      · simp only [if_pos expired, if_pos (Or.inl expired)]
        exact ⟨stored, idle, by simpa using asked.mono⟩
      · by_cases top : depth = 0
        · simp only [if_neg expired, if_pos (Or.inr top), robotsAsked, if_pos top]
          exact ⟨stored, idle, by simpa using asked.mono⟩
        · simp only [if_neg expired, if_neg (not_or.mpr ⟨expired, top⟩), robotsAsked, if_neg top]
          cases hrobots : o.robots with
          | none => exact ⟨stored, fun _ => idle hrobots, by simpa using asked.mono⟩
          | some robots =>
            obtain ⟨list, hfound⟩ := pages
            obtain ⟨url, known, hurl⟩ := hfound.queued (candidate, depth)
              (hqueue ▸ List.mem_cons_self)
            have below : 0 < depth.toNat := Nat.pos_of_ne_zero (fun zero =>
              top (UInt8.toNat_inj.mp zero))
            obtain ⟨stored', after⟩ := asked.decide (apart robots hrobots)
              candidate.result.canonicalUrl s.fetcher
              (fun origin horigin => ⟨depth.toNat, url, below, known, hurl ▸ horigin⟩)
            exact ⟨stored', by simp, by simpa [List.map_map, Function.comp_def] using after⟩
  cases hpass : crawlPass o fetch deadline (passes index) s with
  | again t =>
    rw [hpass] at found entries files
    refine ⟨found, ?_⟩
    rw [show t.robotsEntries = _ from entries, show t.robotsFiles = _ from files]
    exact next
  | done t =>
    rw [hpass] at found entries files
    refine ⟨found, ?_⟩
    rw [show t.robotsEntries = _ from entries, show t.robotsFiles = _ from files]
    exact next

theorem reached_allAsked (laws : AddressLaws Url) {o : DeepOrchestrator} {fetch : Fetcher σ Url}
    {passes : Nat → Pass} {candidates : List (DeepCandidate Url)}
    {initial : List (String × CacheEntry)}
    (apart : ∀ robots ∈ o.robots, RobotsApart o fetch passes candidates initial robots)
    {deadline index : Nat} {start s : Crawl σ Url}
    (first : AllAsked o fetch passes candidates initial 0 start)
    (reached : Reached o fetch deadline passes start index s) :
    AllAsked o fetch passes candidates initial index s := by
  induction reached with
  | start => exact first
  | @again index s t earlier turn ih =>
    have after := crawlPass_allAsked laws apart deadline index s ih
    rw [turn] at after
    exact after

omit [Sha256Hex] [DocumentJson Url] in
theorem AllAsked.fetchedOnce (laws : AddressLaws Url) {o : DeepOrchestrator}
    {fetch : Fetcher σ Url} {passes : Nat → Pass} {candidates : List (DeepCandidate Url)}
    {initial : List (String × CacheEntry)} (apart : Apart o fetch candidates)
    (robotsApart : ∀ robots ∈ o.robots, RobotsApart o fetch passes candidates initial robots)
    {index : Nat} {s : Crawl σ Url}
    (h : AllAsked o fetch passes candidates initial index s) : FetchedOnce s := by
  obtain ⟨⟨found, hfound⟩, stored, idle, asked⟩ := h
  have files := asked.nodup laws
  rw [List.map_map] at files
  rw [FetchedOnce, List.map_append, List.nodup_append]
  refine ⟨hfound.askedOnce apart, files, ?_⟩
  intro key pageKey key' fileKey same
  subst same
  obtain ⟨page, mem, hpage⟩ := List.mem_map.mp
    (hfound.covers.subset (List.mem_append_left _ pageKey))
  obtain ⟨depth, known⟩ := hfound.discovered page mem
  obtain ⟨issued, there, hfile⟩ := List.mem_map.mp fileKey
  have address := List.mem_map_of_mem (f := fun issued => issued.request.url) there
  rw [asked.asked] at address
  obtain ⟨origin, held, parsed⟩ := List.mem_filterMap.mp address
  cases hrobots : o.robots with
  | none =>
    rw [idle hrobots] at held
    cases held
  | some robots =>
    exact (robotsApart robots hrobots).pages (asked.linked origin held) parsed known
      (hfile.trans hpage.symm)

/-- Where the pages differ in more than their fragments, and the files are cached through the run
and are none of the pages, the fetcher is asked for no URL twice. -/
theorem enrich_fetchedOnce (laws : AddressLaws Url) (o : DeepOrchestrator)
    (fetch : Fetcher σ Url) (env : Surroundings Url) (request : DeepRequest Url)
    (apart : Apart o fetch request.candidates) (entries : List (String × CacheEntry))
    (robotsApart : ∀ robots ∈ o.robots,
      RobotsApart o fetch env.passes request.candidates entries robots)
    (budget : DeepBudget) (rows : List (DocumentRow Url)) (fetcher : σ) :
    FetchedOnce (enrich o fetch env request budget rows entries fetcher).crawl := by
  refine enrich_crawl (fun errors notes => List.nodup_nil) ?_
  have first : AllAsked o fetch env.passes request.candidates entries 0
      (Crawl.start o request budget rows entries fetcher) :=
    ⟨start_found apart budget rows entries fetcher, [], fun _ => rfl, List.nodup_nil, rfl,
      fun _ mem => absurd mem List.not_mem_nil, fun _ mem => absurd mem List.not_mem_nil, le_rfl⟩
  refine crawl_reached (fun index t reached _ => ?_) (first.fetchedOnce laws apart robotsApart)
  exact (crawlPass_allAsked laws robotsApart _ index t
    (reached_allAsked laws robotsApart first reached)).imp
      (fun s asked => asked.fetchedOnce laws apart robotsApart)

end

def selfLink (url : String) : Option String :=
  if url = "https://example.com/" then some "<a href=#top>top</a>" else none

/-- The link is remembered as `https://example.com/#top` and asked for as the page
it is on. -/
theorem selfLink_fetchedTwice :
    letI := sampleHex
    letI := plainPages
    letI := plainJson PageUrl
    let run := enrich oneLevel (siteFetch selfLink) (stillRun PageUrl) (pagesRequest [homePage])
      (DeepBudget.new 3 1000 2 0 3 10000) [] [] ()
    run.crawl.pages.map (fun page => asStr page.request.url) =
      ["https://example.com/", "https://example.com/"] ∧ ¬ FetchedOnce run.crawl := by
  let _ := sampleHex
  let _ := plainPages
  let _ := plainJson PageUrl
  unfold FetchedOnce
  decide +kernel

theorem siteUrl_addresses : AddressLaws SiteUrl := by
  have own : ∀ (url : SiteUrl) (origin : String), originKey url = some origin →
      robotsAddress origin = some (if url.secure then SiteUrl.robots else .plainRobots) ∧
        origin = if url.secure then "https://example.com" else "http://example.com" := by
    intro url origin horigin
    cases url <;> cases horigin <;> decide +kernel
  refine ⟨fun url => rfl, ?_⟩
  intro u v a b origin other hu hv ha hb same
  obtain ⟨address, text⟩ := own u origin hu
  obtain ⟨address', text'⟩ := own v other hv
  cases ha.symm.trans address
  cases hb.symm.trans address'
  rw [text, text']
  revert same
  cases u.secure <;> cases v.secure <;> decide +kernel

/-- A fetcher of the pages of one host. -/
def hostFetch (body : SiteUrl → Option String) : Fetcher Unit SiteUrl := fun request _ =>
  let result := match body request.url with
    | none => .error .network
    | some body =>
      let bytes := body.toUTF8.data.toList
      .ok
        { finalUrl := request.url, status := 200, headersSafe := [], contentType := none
          body := bytes, size := bytes.length.toUInt64, redirectChain := []
          retrievedAt := "2024-01-01T00:00:00Z" }
  ⟨result, 1, ()⟩

def linkedHost : SiteUrl → Option String
  | .home => some "<a href=https://example.com/b>b</a>"
  | .second => some "end"
  | .robots => some "User-agent: *
Disallow: /private"
  | _ => none

theorem linkedHost_discovered {depth : Nat} {url : SiteUrl} :
    letI := plainPages
    Discovered politeLevel (hostFetch linkedHost) siteRequest.candidates depth url →
      depth = 0 ∧ url = .home ∨ url = .second := by
  let _ := plainPages
  intro h
  induction h with
  | candidate taken =>
    rw [List.mem_singleton.mp (List.mem_of_mem_take taken)]
    exact .inl ⟨rfl, rfl⟩
  | @link depth url link request f fetched known deeper asked answer linked ih =>
    have whole : askedFor depth url = url := by
      unfold askedFor
      split <;> rfl
    rw [whole] at asked
    simp only [hostFetch, asked] at answer
    rcases ih with ⟨-, rfl⟩ | rfl
    · cases answer
      have links : discoverLinks "<a href=https://example.com/b>b</a>".toUTF8.data.toList
          SiteUrl.home = [.second] := by decide +kernel
      rw [links] at linked
      exact .inr (List.mem_singleton.mp linked)
    · cases answer
      have links : discoverLinks "end".toUTF8.data.toList SiteUrl.second = [] := by decide +kernel
      rw [links] at linked
      cases linked

/-- Two pages and the file of their origin are asked for once each. -/
theorem enrich_fetchedOnce_linkedHost :
    letI := sampleHex
    letI := plainPages
    letI := plainJson SiteUrl
    let run := enrich politeLevel (hostFetch linkedHost) (stillRun SiteUrl) siteRequest
      (DeepBudget.new 3 1000 2 0 3 10000) [] [] ()
    run.crawl.pages.map (fun page => page.request.url) = [.home, .second] ∧
      run.crawl.robotsFiles.map (fun file => file.request.url) = [SiteUrl.robots] ∧
      FetchedOnce run.crawl := by
  let _ := sampleHex
  let _ := plainPages
  let _ := plainJson SiteUrl
  have origin : ∀ origin, LinkOrigin politeLevel (hostFetch linkedHost) siteRequest.candidates
      origin → origin = "https://example.com" := by
    rintro origin ⟨depth, url, below, known, horigin⟩
    rcases linkedHost_discovered known with ⟨rfl, -⟩ | rfl
    · exact absurd below (lt_irrefl 0)
    · have text : originKey (askedFor depth SiteUrl.second) = some "https://example.com" := by
        unfold askedFor
        split <;> decide +kernel
      exact Option.some.inj (horigin.symm.trans text)
  refine ⟨by decide +kernel, by decide +kernel, enrich_fetchedOnce siteUrl_addresses politeLevel
    (hostFetch linkedHost) (stillRun SiteUrl) siteRequest ⟨by decide +kernel, ?_⟩ [] ?_ _ [] ()⟩
  · intro d e u v hu hv same
    rcases linkedHost_discovered hu with ⟨-, rfl⟩ | rfl <;>
      rcases linkedHost_discovered hv with ⟨-, rfl⟩ | rfl <;>
      first | rfl | exact absurd same (by decide +kernel)
  · rintro robots ⟨⟩
    refine ⟨fun i j _ => show (0 - 0 : Int) ≤ 3600 by decide, ⟨["https://example.com"], by decide, ?_⟩, ?_⟩
    · exact fun text linked => List.mem_singleton.mpr (origin text linked)
    · intro text address url depth linked parsed known
      rw [origin text linked] at parsed
      have file : robotsAddress "https://example.com" = some SiteUrl.robots := by decide +kernel
      cases parsed.symm.trans file
      rcases linkedHost_discovered known with ⟨-, rfl⟩ | rfl <;> decide +kernel

/-- A page that links to `robots.txt`: the file is read for the link, and then fetched as a page. -/
example :
    letI := sampleHex
    letI := plainPages
    letI := plainJson SiteUrl
    let site : SiteUrl → Option String
      | .home => some "<a href=https://example.com/robots.txt>r</a>"
      | _ => some "User-agent: *"
    let run := enrich politeLevel (hostFetch site) (stillRun SiteUrl) siteRequest
      (DeepBudget.new 3 1000 2 0 3 10000) [] [] ()
    run.crawl.pages.map (fun page => page.request.url) = [.home, .robots] ∧
      run.crawl.robotsFiles.map (fun file => file.request.url) = [SiteUrl.robots] := by
  decide +kernel

end Amatl
