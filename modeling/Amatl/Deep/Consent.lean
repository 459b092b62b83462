import Amatl.Deep.Deadline
import Amatl.Deep.Reading
import Amatl.Deep.Transparency
import Amatl.Deep.Traffic

/-! Consent to what a crawl discovers by itself: where the rules it goes by come
from, and where the links it follows. The rules are asked about the link alone; the
redirects of its fetch are followed inside the fetcher, and the links of a page are
compared with it by host only. -/

namespace Amatl

open UrlCrate

section

variable {σ Url : Type} [UrlCrate Url]

def SameOrigin (left right : Url) : Prop :=
  scheme left = scheme right ∧ hostStr left = hostStr right ∧ port left = port right

/-- What the `url` crate documents: a fragment is no part of the origin, and the
text of an origin is parsed back to it. -/
structure OriginLaws (Url : Type) [UrlCrate Url] : Prop where
  fragment : ∀ url : Url, SameOrigin (setFragment none url) url
  parsed : ∀ (url address : Url) (origin : String), originKey url = some origin →
    parse (origin ++ "/robots.txt") = some address → SameOrigin address url

/-- What a decision rests on: an entry of the page's own origin, or the answer to a
request for the `robots.txt` of that origin. -/
theorem decide_cases (robots : RobotsCache) (fetch : Fetcher σ Url) (now : Int) (url : Url)
    (entries : List (String × CacheEntry)) (f : σ) :
    let run := robots.decide fetch now url entries f
    (run.entries = entries ∧ ∀ delay, run.decision = .allowed delay →
      ∃ origin entry rules, originKey url = some origin ∧
        OrdMap.get? origin entries = some entry ∧ entry.rules = some rules ∧
        rules.decide (pathAndQuery url).toList = .allowed delay) ∨
    (run.decision = .unavailable ∧ ∃ origin,
      run.entries = robots.store entries origin none now) ∨
    ∃ origin address, originKey url = some origin ∧
      parse (origin ++ "/robots.txt") = some address ∧
      run.asked = some (robots.request address, (fetch (robots.request address) f).connections) ∧
      run.entries = robots.store entries origin
        (rulesOf (fetch (robots.request address) f).result) now ∧
      run.decision = decisionFor (rulesOf (fetch (robots.request address) f).result) url := by
  unfold RobotsCache.decide
  cases horigin : originKey url with
  | none =>
    refine .inl ⟨rfl, ?_⟩
    intro delay h
    cases h
  | some origin =>
    cases hcached : robots.cached entries origin now with
    | some rules =>
      refine .inl ⟨by simp only [hcached], ?_⟩
      intro delay h
      simp only [hcached] at h
      unfold RobotsCache.cached at hcached
      cases hentry : OrdMap.get? origin entries with
      | none =>
        rw [hentry] at hcached
        cases hcached
      | some entry =>
        simp only [hentry] at hcached
        split at hcached
        · cases hrules : rules with
          | none =>
            rw [hrules] at h
            cases h
          | some rules' =>
            rw [hrules] at h
            exact ⟨origin, entry, rules', rfl, hentry, (Option.some.inj hcached).trans hrules, h⟩
        · cases hcached
    | none =>
      cases haddress : (parse (origin ++ "/robots.txt") : Option Url) with
      | none =>
        refine .inr (.inl ⟨?_, origin, ?_⟩)
        · simp only [hcached, haddress]
        · simp only [hcached, haddress]
      | some address =>
        refine .inr (.inr ⟨origin, address, rfl, haddress, ?_, ?_, ?_⟩)
        · simp only [hcached, haddress]
        · simp only [hcached, haddress]
        · simp only [hcached, haddress]

def entriesAfter (o : DeepOrchestrator) (fetch : Fetcher σ Url) (deadline : Nat) (pass : Pass)
    (s : Crawl σ Url) : List (String × CacheEntry) :=
  match s.queue with
  | [] => s.robotsEntries
  | (candidate, depth) :: _ =>
    if deadline ≤ pass.now ∨ depth = 0 then s.robotsEntries
    else match o.robots with
      | none => s.robotsEntries
      | some robots =>
        (robots.decide fetch pass.robotsNow candidate.result.canonicalUrl s.robotsEntries
          s.fetcher).entries

theorem consent_entries (o : DeepOrchestrator) (fetch : Fetcher σ Url) (deadline : Nat) (pass : Pass)
    (candidate : DeepCandidate Url) {depth : UInt8} (deeper : depth ≠ 0) (s : Crawl σ Url)
    {robots : RobotsCache} (hrobots : o.robots = some robots) :
    let run := robots.decide fetch pass.robotsNow candidate.result.canonicalUrl s.robotsEntries
      s.fetcher
    (consent o fetch deadline pass candidate depth s).2.robotsEntries = run.entries ∧
      ((consent o fetch deadline pass candidate depth s).1 = true →
        ∃ delay, run.decision = .allowed delay) := by
  intro run
  simp only [consent, if_neg deeper, hrobots]
  split
  · rename_i delay allowed
    split
    · exact ⟨rfl, fun _ => ⟨delay, allowed⟩⟩
    · exact ⟨rfl, fun _ => ⟨delay, allowed⟩⟩
  · exact ⟨rfl, fun agreed => by cases agreed⟩

variable [Sha256Hex] [ScraperCrate] [DocumentJson Url]

theorem crawlPass_entries (o : DeepOrchestrator) (fetch : Fetcher σ Url) (deadline : Nat)
    (pass : Pass) (s : Crawl σ Url) :
    (crawlPass o fetch deadline pass s).All
      (fun t => t.robotsEntries = entriesAfter o fetch deadline pass s) := by
  unfold crawlPass entriesAfter
  cases hqueue : s.queue with
  | nil => rfl
  | cons entry queue =>
    obtain ⟨candidate, depth⟩ := entry
    simp only
    by_cases expired : deadline ≤ pass.now
    · rw [if_pos expired, if_pos (.inl expired)]
      rfl
    · rw [if_neg expired]
      have hentries : (consent o fetch deadline pass candidate depth
          { s with queue }).2.robotsEntries =
          if deadline ≤ pass.now ∨ depth = 0 then s.robotsEntries
          else match o.robots with
            | none => s.robotsEntries
            | some robots =>
              (robots.decide fetch pass.robotsNow candidate.result.canonicalUrl s.robotsEntries
                s.fetcher).entries := by
        by_cases top : depth = 0
        · rw [if_pos (.inr top)]
          simp only [consent, if_pos top]
        · rw [if_neg (not_or.mpr ⟨expired, top⟩)]
          cases hrobots : o.robots with
          | none => simp only [consent, if_neg top, hrobots]
          | some robots =>
            exact (consent_entries o fetch deadline pass candidate top { s with queue } hrobots).1
      rw [← hentries]
      split
      · rfl
      · split
        · rfl
        · exact (receive_received o pass candidate depth _ _ _).later.1

section

variable (o : DeepOrchestrator) (fetch : Fetcher σ Url) (deadline : Nat) (passes : Nat → Pass)
  (start : Crawl σ Url)

abbrev Reached (index : Nat) (s : Crawl σ Url) : Prop :=
  Loop.Reaches (fun index => crawlPass o fetch deadline (passes index)) start index s

/-- Up to the pass `index` the run asked for the file at `address` and was answered
with the rules. -/
def FileTold (index : Nat) (address : Url) (rules : RobotsRules) : Prop :=
  ∃ robots i s candidate depth queue n, o.robots = some robots ∧ i ≤ index ∧
    Reached o fetch deadline passes start i s ∧ s.queue = (candidate, depth) :: queue ∧
    (passes i).now < deadline ∧
    robotsAsked o fetch (passes i) candidate depth s.robotsEntries s.fetcher =
      [⟨(passes i).robotsAt, robots.request address, n⟩] ∧
    rulesOf (fetch (robots.request address) s.fetcher).result = some rules

/-- The rules that the URL's own origin answered with in this run allow it. -/
def Permitted (index : Nat) (url : Url) : Prop :=
  ∃ origin address rules delay, originKey url = some origin ∧
    parse (origin ++ "/robots.txt") = some address ∧ SameOrigin address url ∧
    FileTold o fetch deadline passes start index address rules ∧
    rules.decide (pathAndQuery url).toList = .allowed delay

/-- Before the pass `index` a page was fetched on which the URL, but for a fragment,
was linked, and whose final URL is `page`. -/
def Linked (index : Nat) (url page : Url) : Prop :=
  ∃ i s request f fetched link, i < index ∧ Reached o fetch deadline passes start i s ∧
    pageAsked o fetch deadline (passes i) s = some (request, f) ∧
    (fetch request f).result = .ok fetched ∧
    link ∈ discoverLinks fetched.body fetched.finalUrl ∧ url = setFragment none link ∧
    page = fetched.finalUrl

variable {o fetch deadline passes start}

theorem FileTold.mono {index later : Nat} {address : Url} {rules : RobotsRules}
    (h : FileTold o fetch deadline passes start index address rules) (le : index ≤ later) :
    FileTold o fetch deadline passes start later address rules := by
  obtain ⟨robots, i, s, candidate, depth, queue, n, hrobots, hi, rest⟩ := h
  exact ⟨robots, i, s, candidate, depth, queue, n, hrobots, hi.trans le, rest⟩

/-- The entries of a reached state hold what their origins answered. -/
def EntriesTold (o : DeepOrchestrator) (fetch : Fetcher σ Url) (deadline : Nat)
    (passes : Nat → Pass) (start : Crawl σ Url) (index : Nat)
    (entries : List (String × CacheEntry)) : Prop :=
  ∀ origin entry rules, OrdMap.get? origin entries = some entry → entry.rules = some rules →
    ∃ address, parse (origin ++ "/robots.txt") = some address ∧
      FileTold o fetch deadline passes start index address rules

theorem EntriesTold.mono {index later : Nat} {entries : List (String × CacheEntry)}
    (h : EntriesTold o fetch deadline passes start index entries) (le : index ≤ later) :
    EntriesTold o fetch deadline passes start later entries := by
  intro origin entry rules found hrules
  obtain ⟨address, parsed, told⟩ := h origin entry rules found hrules
  exact ⟨address, parsed, told.mono le⟩

theorem EntriesTold.store {index : Nat} {entries : List (String × CacheEntry)}
    (h : EntriesTold o fetch deadline passes start index entries) (robots : RobotsCache)
    (origin : String) (rules : Option RobotsRules) (now : Int)
    (told : ∀ rules', rules = some rules' → ∃ address,
      parse (origin ++ "/robots.txt") = some address ∧
        FileTold o fetch deadline passes start index address rules') :
    EntriesTold o fetch deadline passes start index (robots.store entries origin rules now) := by
  intro other entry rules' found hrules
  rw [RobotsCache.store, OrdMap.get?_insert] at found
  by_cases same : other = origin
  · rw [if_pos same] at found
    rw [same]
    refine told rules' ?_
    rw [← Option.some.inj found] at hrules
    exact hrules
  · rw [if_neg same] at found
    split at found
    · cases found
    · exact h other entry rules' found hrules

theorem fileTold_of_asked {index : Nat} {s : Crawl σ Url} {candidate : DeepCandidate Url}
    {depth : UInt8} {queue : List (DeepCandidate Url × UInt8)} {robots : RobotsCache} {address : Url}
    {rules : RobotsRules} {n : Nat} (reached : Reached o fetch deadline passes start index s)
    (head : s.queue = (candidate, depth) :: queue) (early : (passes index).now < deadline)
    (deeper : depth ≠ 0) (hrobots : o.robots = some robots)
    (asked : (robots.decide fetch (passes index).robotsNow candidate.result.canonicalUrl
      s.robotsEntries s.fetcher).asked = some (robots.request address, n))
    (told : rulesOf (fetch (robots.request address) s.fetcher).result = some rules) :
    FileTold o fetch deadline passes start index address rules := by
  refine ⟨robots, index, s, candidate, depth, queue, n, hrobots, le_rfl, reached, head, early, ?_,
    told⟩
  simp only [robotsAsked, if_neg deeper, hrobots, asked]
  rfl

theorem reached_entriesTold (fresh : start.robotsEntries = []) {index : Nat} {s : Crawl σ Url}
    (reached : Reached o fetch deadline passes start index s) :
    EntriesTold o fetch deadline passes start index s.robotsEntries := by
  induction reached with
  | start =>
    rw [fresh]
    intro origin entry rules found
    cases found
  | @again index s t earlier turn ih =>
    have hentries := crawlPass_entries o fetch deadline (passes index) s
    rw [turn] at hentries
    have hafter : t.robotsEntries = entriesAfter o fetch deadline (passes index) s := hentries
    rw [hafter]
    refine EntriesTold.mono ?_ (Nat.le_succ index)
    unfold entriesAfter
    cases hqueue : s.queue with
    | nil => exact ih
    | cons entry queue =>
      obtain ⟨candidate, depth⟩ := entry
      simp only
      by_cases skipped : deadline ≤ (passes index).now ∨ depth = 0
      · rw [if_pos skipped]
        exact ih
      · rw [if_neg skipped]
        obtain ⟨early, deeper⟩ := not_or.mp skipped
        cases hrobots : o.robots with
        | none => exact ih
        | some robots =>
          rcases decide_cases robots fetch (passes index).robotsNow candidate.result.canonicalUrl
            s.robotsEntries s.fetcher with
            ⟨same, -⟩ | ⟨-, origin, stored⟩ | ⟨origin, address, -, parsed, asked, stored, -⟩
          · simp only [same]
            exact ih
          · simp only [stored]
            exact ih.store robots origin none _ (fun rules none => by cases none)
          · simp only [stored]
            refine ih.store robots origin _ _ (fun rules told => ⟨address, parsed, ?_⟩)
            exact fileTold_of_asked earlier hqueue (Nat.lt_of_not_le early) deeper hrobots asked told

/-- A page that a pass asks for below the first level is permitted. -/
theorem asked_permitted (laws : OriginLaws Url) (fresh : start.robotsEntries = []) {index : Nat}
    {s : Crawl σ Url} {robots : RobotsCache} (hrobots : o.robots = some robots)
    (reached : Reached o fetch deadline passes start index s) {candidate : DeepCandidate Url}
    {depth : UInt8} {queue : List (DeepCandidate Url × UInt8)} {request : TimedRequest Url} {f : σ}
    (head : s.queue = (candidate, depth) :: queue) (deeper : depth ≠ 0)
    (issued : pageAsked o fetch deadline (passes index) s = some (request, f)) :
    request.url = candidate.result.canonicalUrl ∧
      Permitted o fetch deadline passes start index request.url := by
  have told := reached_entriesTold fresh reached
  simp only [pageAsked, head] at issued
  split at issued
  · cases issued
  · rename_i going
    simp only [Bool.or_eq_true, decide_eq_true_eq, not_or, Bool.not_eq_true'] at going
    obtain ⟨early, agreed⟩ := going
    have hurl : request.url = candidate.result.canonicalUrl := by
      split at issued
      · cases issued
      · cases issued
        rfl
    refine ⟨hurl, ?_⟩
    rw [hurl]
    have agreed' := Bool.eq_true_of_not_eq_false agreed
    obtain ⟨-, allows⟩ := consent_entries o fetch deadline (passes index) candidate deeper
      { s with queue } hrobots
    obtain ⟨delay, allowed⟩ := allows agreed'
    rcases decide_cases robots fetch (passes index).robotsNow candidate.result.canonicalUrl
      s.robotsEntries s.fetcher with
      ⟨-, cached⟩ | ⟨unavailable, -⟩ | ⟨origin, address, horigin, parsed, asked, -, decision⟩
    · obtain ⟨origin, entry, rules, horigin, found, hrules, hallowed⟩ := cached delay allowed
      obtain ⟨address, parsed, file⟩ := told origin entry rules found hrules
      exact ⟨origin, address, rules, delay, horigin, parsed, laws.parsed _ _ _ horigin parsed, file,
        hallowed⟩
    · cases unavailable.symm.trans allowed
    · rw [decision] at allowed
      cases hrules : rulesOf (fetch (robots.request address) s.fetcher).result with
      | none =>
        rw [hrules] at allowed
        cases allowed
      | some rules =>
        rw [hrules] at allowed
        exact ⟨origin, address, rules, delay, horigin, parsed, laws.parsed _ _ _ horigin parsed,
          fileTold_of_asked reached head (Nat.lt_of_not_le early) deeper hrobots asked hrules,
          allowed⟩

/-- The links that a pass adds to the queue have the scheme and the port of the page
they were found on. -/
def StraightLinks (o : DeepOrchestrator) (fetch : Fetcher σ Url) (deadline : Nat) (pass : Pass)
    (s : Crawl σ Url) : Prop :=
  ∀ candidate depth fetched, pageRead o fetch deadline pass s = some (candidate, depth, fetched) →
    ∀ link ∈ addedLinks o depth fetched s.visited,
      scheme link = scheme fetched.finalUrl ∧ port link = port fetched.finalUrl

omit [Sha256Hex] [DocumentJson Url] in
theorem discoverLinks_host {body : List UInt8} {base link : Url} (h : link ∈ discoverLinks body base) :
    hostStr link = hostStr base := by
  unfold discoverLinks at h
  split at h
  · cases h
  · have kept := (List.mem_filter.mp (List.mem_of_mem_take h)).2
    simp only [Bool.and_eq_true, beq_iff_eq] at kept
    exact kept.2

omit [Sha256Hex] [DocumentJson Url] in
theorem mem_addedLinks {depth : UInt8} {fetched : FetchResult Url} {visited : List String}
    {link : Url} (h : link ∈ addedLinks o depth fetched visited) :
    link ∈ discoverLinks fetched.body fetched.finalUrl := by
  unfold addedLinks at h
  split at h
  · exact ((freshLinks_new visited _).1 link h).1
  · cases h

theorem reached_linked (laws : OriginLaws Url) (level : ∀ entry ∈ start.queue, entry.2 = 0)
    (straight : ∀ index s, Reached o fetch deadline passes start index s →
      StraightLinks o fetch deadline (passes index) s) {index : Nat} {s : Crawl σ Url}
    (reached : Reached o fetch deadline passes start index s) :
    ∀ entry ∈ s.queue, entry.2 ≠ 0 → ∃ page,
      Linked o fetch deadline passes start index entry.1.result.canonicalUrl page ∧
        SameOrigin entry.1.result.canonicalUrl page := by
  induction reached with
  | start =>
    intro entry mem deeper
    exact absurd (level entry mem) deeper
  | @again index s t earlier turn ih =>
    -- what was queued before stays linked
    have kept : ∀ queue : List (DeepCandidate Url × UInt8),
        (∀ entry ∈ queue, entry ∈ s.queue) → ∀ entry ∈ queue, entry.2 ≠ 0 →
        ∃ page, Linked o fetch deadline passes start (index + 1) entry.1.result.canonicalUrl page ∧
          SameOrigin entry.1.result.canonicalUrl page := by
      intro queue sub entry mem deeper
      obtain ⟨page, ⟨i, u, request, f, fetched, link, hi, rest⟩, same⟩ := ih entry (sub entry mem)
        deeper
      exact ⟨page, ⟨i, u, request, f, fetched, link, Nat.lt_succ_of_lt hi, rest⟩, same⟩
    have follows := crawlPass_follows o fetch deadline (passes index) s
    rw [turn] at follows
    have rest := kept s.queue.tail (fun entry mem => List.mem_of_mem_tail mem)
    cases hread : pageRead o fetch deadline (passes index) s with
    | none =>
      have hfollows : Follows o none s.queue.tail s t := hread ▸ follows
      rw [hfollows.1]
      exact rest
    | some read =>
      obtain ⟨candidate, depth, fetched⟩ := read
      have hfollows : Follows o (some (candidate, depth, fetched)) s.queue.tail s t :=
        hread ▸ follows
      obtain ⟨request, f, issued, answer⟩ := pageRead_asked hread
      rw [hfollows.1]
      intro entry mem deeper
      rcases List.mem_append.mp mem with old | new
      · exact rest entry old deeper
      · obtain ⟨link, added, rfl⟩ := List.mem_map.mp new
        have linked := mem_addedLinks added
        obtain ⟨hscheme, hport⟩ := straight index s earlier candidate depth fetched hread link added
        obtain ⟨scheme', host', port'⟩ := laws.fragment link
        refine ⟨fetched.finalUrl, ⟨index, s, request, f, fetched, link, Nat.lt_succ_self _,
          earlier, issued, answer, linked, rfl, rfl⟩, ?_⟩
        exact ⟨scheme'.trans hscheme, host'.trans (discoverLinks_host linked), port'.trans hport⟩

end

end

section

variable {Url : Type} [UrlCrate Url] [HttpCrate]

def SafeFetcher.retrieved (network : Nat → Nat → Hop) (now : Nat → String)
    (request : TimedRequest Url) (f : SafeFetcher) : List Url :=
  (fetchInner request.toFetchRequest (now f.served) (network f.served) f.clients
    (request.maxRedirects.toNat + 1)).connections.map (fun connection => connection.url)

theorem fetchHop_url {request : FetchRequest Url} {now : String} {hop : Hop} {current : Url}
    {redirects : List Url} {cache : ClientCache} {connection : Connection Url}
    (h : (fetchHop request now hop current redirects cache).connection = some connection) :
    connection.url = current := by
  unfold fetchHop at h
  split at h
  · cases h
  · split at h
    · cases h
    · split at h
      · cases h
      · simp only at h
        split at h
        · rw [← Option.some.inj h]
        · split at h
          · rw [← Option.some.inj h]
          · rw [← Option.some.inj h]

theorem fetchLoop_first (request : FetchRequest Url) (now : String) (network : Nat → Hop)
    (fuel index : Nat) (current : Url) (redirects : List Url) (cache : ClientCache) :
    ∀ url ∈ ((fetchLoop request now network fuel index current redirects cache).connections.map
        (fun connection => connection.url)).head?, url = current := by
  cases fuel with
  | zero =>
    intro url h
    cases h
  | succ fuel =>
    intro url h
    simp only [fetchLoop] at h
    cases hsent : (fetchHop request now (network index) current redirects cache).connection with
    | some connection =>
      have hurl := fetchHop_url hsent
      rw [hsent] at h
      split at h
      · exact (Option.some.inj h).symm.trans hurl
      · exact (Option.some.inj h).symm.trans hurl
    | none =>
      rcases fetchHop_cases request now (network index) current redirects cache with
        ⟨error, -, failed⟩ | ⟨connection, -, sent, -⟩
      · rw [failed, hsent] at h
        cases h
      · cases hsent.symm.trans sent

theorem SafeFetcher.retrieved_first (network : Nat → Nat → Hop) (now : Nat → String)
    (request : TimedRequest Url) (f : SafeFetcher) :
    ∀ url ∈ SafeFetcher.retrieved network now request f, url = request.url ∨
      url ∈ (SafeFetcher.retrieved network now request f).tail := by
  intro url mem
  have first : ∀ url ∈ (SafeFetcher.retrieved network now request f).head?, url = request.url := by
    unfold SafeFetcher.retrieved fetchInner
    cases validateHeaders request.headers with
    | error error =>
      intro url h
      cases h
    | ok checked => exact fetchLoop_first _ _ _ _ _ _ _ _
  cases hretrieved : SafeFetcher.retrieved network now request f with
  | nil =>
    rw [hretrieved] at mem
    cases mem
  | cons head rest =>
    rw [hretrieved] at mem first
    rcases List.mem_cons.mp mem with rfl | later
    · exact .inl (first url rfl)
    · exact .inr later

variable [Sha256Hex] [ScraperCrate] [DocumentJson Url]

section

variable (network : Nat → Nat → Hop) (now : Nat → String) (o : DeepOrchestrator) (deadline : Nat)
  (passes : Nat → Pass) (start : Crawl SafeFetcher Url)

/-- What a pass retrieves below the first level was linked on a page of its own
origin, or reached from there by redirects, and its own origin allows it. -/
def Consented (index : Nat) (s : Crawl SafeFetcher Url) : Prop :=
  ∀ candidate depth queue request f, s.queue = (candidate, depth) :: queue → depth ≠ 0 →
    pageAsked o (SafeFetcher.fetch network now) deadline (passes index) s = some (request, f) →
    (∃ page, Linked o (SafeFetcher.fetch network now) deadline passes start index request.url page ∧
      SameOrigin request.url page) ∧
    ∀ url ∈ SafeFetcher.retrieved network now request f,
      Permitted o (SafeFetcher.fetch network now) deadline passes start index url

/-- The links that a pass adds keep the scheme and the port of their page, and a
fetch below the first level is redirected only to what the run knows to be
allowed. -/
structure Straight (index : Nat) (s : Crawl SafeFetcher Url) : Prop where
  links : StraightLinks o (SafeFetcher.fetch network now) deadline (passes index) s
  redirects : ∀ candidate depth queue request f, s.queue = (candidate, depth) :: queue →
    depth ≠ 0 →
    pageAsked o (SafeFetcher.fetch network now) deadline (passes index) s = some (request, f) →
    ∀ url ∈ (SafeFetcher.retrieved network now request f).tail,
      Permitted o (SafeFetcher.fetch network now) deadline passes start index url

end

/-- A run whose passes are straight has the consent of every origin it crawls. -/
theorem crawl_consented (laws : OriginLaws Url) (network : Nat → Nat → Hop) (now : Nat → String)
    (o : DeepOrchestrator) {robots : RobotsCache} (configured : o.robots = some robots)
    (env : Surroundings Url) (request : DeepRequest Url) (budget : DeepBudget)
    (rows : List (DocumentRow Url)) (fetcher : SafeFetcher) :
    let deadline := deepDeadline env budget
    let start := Crawl.start o request budget rows [] fetcher
    let reached := Reached o (SafeFetcher.fetch network now) deadline env.passes start
    (∀ index s, reached index s → Straight network now o deadline env.passes start index s) →
      ∀ index s, reached index s → Consented network now o deadline env.passes start index s := by
  intro deadline start reached straight index s there candidate depth queue request f head deeper
    issued
  have level : ∀ entry ∈ start.queue, entry.2 = 0 := by
    intro entry mem
    obtain ⟨c, -, rfl⟩ := List.mem_map.mp mem
    rfl
  obtain ⟨hurl, permitted⟩ := asked_permitted laws rfl configured there head deeper issued
  refine ⟨?_, ?_⟩
  · rw [hurl]
    exact reached_linked laws level (fun index s h => (straight index s h).links) there
      (candidate, depth) (head ▸ List.mem_cons_self) deeper
  · intro url mem
    rcases SafeFetcher.retrieved_first network now request f url mem with rfl | hop
    · exact permitted
    · exact (straight index s there).redirects candidate depth queue request f head deeper issued
        url hop

end

inductive SiteUrl where
  | home | second | hidden | robots | plain | plainRobots
  deriving DecidableEq, Repr

def SiteUrl.text : SiteUrl → String
  | .home => "https://example.com/"
  | .second => "https://example.com/b"
  | .hidden => "https://example.com/private"
  | .robots => "https://example.com/robots.txt"
  | .plain => "http://example.com/b"
  | .plainRobots => "http://example.com/robots.txt"

def SiteUrl.path : SiteUrl → String
  | .home => "/"
  | .second | .plain => "/b"
  | .hidden => "/private"
  | .robots | .plainRobots => "/robots.txt"

def SiteUrl.secure : SiteUrl → Bool
  | .plain | .plainRobots => false
  | _ => true

def SiteUrl.parse (text : String) : Option SiteUrl :=
  [SiteUrl.home, .second, .hidden, .robots, .plain, .plainRobots].find? (fun url => url.text == text)

instance : UrlCrate SiteUrl where
  parse := SiteUrl.parse
  asStr := SiteUrl.text
  scheme url := if url.secure then "https" else "http"
  username _ := ""
  password _ := none
  host _ := some (.domain "example.com")
  hostStr _ := some "example.com"
  portOrKnownDefault url := some (if url.secure then 443 else 80)
  port _ := none
  path := SiteUrl.path
  query _ := none
  fragment _ := none
  setQuery _ url := url
  setFragment _ url := url
  join _ location := SiteUrl.parse location

theorem siteUrl_laws : OriginLaws SiteUrl := by
  refine ⟨fun url => ⟨rfl, rfl, rfl⟩, ?_⟩
  intro url address origin horigin parsed
  have secureRobots : SiteUrl.parse ("https://example.com" ++ "/robots.txt") = some .robots := by
    decide +kernel
  have plainRobots : SiteUrl.parse ("http://example.com" ++ "/robots.txt") = some .plainRobots := by
    decide +kernel
  have hsecure : (if url.secure then "https" else "http") ++ "://" ++ "example.com" = origin :=
    Option.some.inj horigin
  have hparsed : SiteUrl.parse (origin ++ "/robots.txt") = some address := parsed
  by_cases secure : url.secure = true
  · rw [if_pos secure] at hsecure
    rw [← hsecure, show "https" ++ "://" ++ "example.com" = "https://example.com" by decide +kernel,
      secureRobots] at hparsed
    cases hparsed
    refine ⟨?_, rfl, rfl⟩
    show (if SiteUrl.secure .robots then "https" else "http") = if url.secure then "https" else "http"
    rw [if_pos secure]
    rfl
  · rw [if_neg secure] at hsecure
    rw [← hsecure, show "http" ++ "://" ++ "example.com" = "http://example.com" by decide +kernel,
      plainRobots] at hparsed
    cases hparsed
    refine ⟨?_, rfl, rfl⟩
    show (if SiteUrl.secure .plainRobots then "https" else "http") =
      if url.secure then "https" else "http"
    rw [if_neg secure]
    rfl

def siteRequest : DeepRequest SiteUrl where
  query := (pagesRequest []).query
  planNormalizedQuery := "example"
  candidates := [{
    result :=
      { rank := ⟨1, Rank.one_ne_zero⟩, title := none, originalUrl := .home, canonicalUrl := .home
        domain := "example.com", snippet := none, providers := ["brave"], publishedAt := none
        status := .visible }
    storageRights := true }]

def page (status : UInt16) (body : String) : Hop :=
  publicHop ⟨status, [], [some body.toUTF8.data.toList]⟩

/-- The home page links to a page of the same host without TLS. -/
def downgradingSite : Nat → Nat → Hop
  | 0, _ => page 200 "<a href=http://example.com/b>b</a>"
  | 1, _ => page 404 ""
  | _, _ => page 200 "end"

/-- The page that the home page links to has moved to one that `robots.txt`
disallows. -/
def movingSite : Nat → Nat → Hop
  | 0, _ => page 200 "<a href=https://example.com/b>b</a>"
  | 1, _ => page 200 "User-agent: *\nDisallow: /private"
  | 2, 0 => publicHop ⟨302, [("location", some "https://example.com/private")], []⟩
  | _, _ => page 200 "end"

/-- The page is where the home page links to, and there are no rules. -/
def plainSite : Nat → Nat → Hop
  | 0, _ => page 200 "<a href=https://example.com/b>b</a>"
  | 1, _ => page 404 ""
  | _, _ => page 200 "end"

section

variable (network : Nat → Nat → Hop)

def siteStart : Crawl SafeFetcher SiteUrl :=
  letI := sampleHex
  Crawl.start politeLevel siteRequest (DeepBudget.new 5 1000 2 0 5 60000) [] [] ⟨.empty, 0⟩

def sitePass (index : Nat) : Crawl SafeFetcher SiteUrl → Loop.Turn (Crawl SafeFetcher SiteUrl) :=
  letI := sampleHex
  letI := plainPages
  letI := plainJson SiteUrl
  letI := plainHeaders
  crawlPass politeLevel (SafeFetcher.fetch network (fun _ => "")) 60000000000
    ((stillRun SiteUrl).passes index)

def siteAsked (s : Crawl SafeFetcher SiteUrl) : Option (TimedRequest SiteUrl × SafeFetcher) :=
  letI := sampleHex
  letI := plainPages
  letI := plainJson SiteUrl
  letI := plainHeaders
  pageAsked politeLevel (SafeFetcher.fetch network (fun _ => "")) 60000000000 (passAt 0) s

def siteRead (s : Crawl SafeFetcher SiteUrl) :
    Option (DeepCandidate SiteUrl × UInt8 × FetchResult SiteUrl) :=
  letI := sampleHex
  letI := plainHeaders
  pageRead politeLevel (SafeFetcher.fetch network (fun _ => "")) 60000000000 (passAt 0) s

/-- Every pass of the run has the consent it needs. -/
def SiteConsented : Prop :=
  letI := sampleHex
  letI := plainPages
  letI := plainJson SiteUrl
  letI := plainHeaders
  ∀ index s, Loop.Reaches (sitePass network) siteStart index s →
    Consented network (fun _ => "") politeLevel 60000000000 (stillRun SiteUrl).passes siteStart
      index s

end

theorem downgradingSite_unconsented : ¬ SiteConsented downgradingSite := by
  let _ := sampleHex
  let _ := plainPages
  let _ := plainJson SiteUrl
  let _ := plainHeaders
  intro consented
  have second : ((Loop.before (sitePass downgradingSite) siteStart 1).map (fun s =>
      (s.queue.map Prod.snd, (siteAsked downgradingSite s).map (fun asked => asked.1.url)))) =
        some ([1], some .plain) := by decide +kernel
  have first : (siteAsked downgradingSite siteStart).map (fun asked =>
      ((SafeFetcher.fetch downgradingSite (fun _ => "") asked.1 asked.2).result.toOption.map
        (fun fetched => fetched.finalUrl))) = some (some .home) := by decide +kernel
  obtain ⟨s, hs, hasked⟩ := Option.map_eq_some_iff.mp second
  obtain ⟨hqueue, hurl⟩ := Prod.mk.inj hasked
  obtain ⟨⟨request, f⟩, issued, hrequest⟩ := Option.map_eq_some_iff.mp hurl
  cases hentries : s.queue with
  | nil =>
    rw [hentries] at hqueue
    cases hqueue
  | cons entry queue =>
    obtain ⟨candidate, depth⟩ := entry
    rw [hentries] at hqueue
    have hdepth : depth = 1 := (List.cons.inj hqueue).1
    obtain ⟨⟨page, ⟨i, t, request', f', fetched, link, hi, reached, issued', answer, -, -, rfl⟩,
      same⟩, -⟩ := consented 1 s (Loop.reaches_iff.mpr hs) candidate depth queue request f hentries
        (by rw [hdepth]; decide) issued
    -- the page that linked it is the first of the run
    have zero : i = 0 := by omega
    subst zero
    cases reached
    have hfinal := first
    rw [show siteAsked downgradingSite siteStart = some (request', f') from issued'] at hfinal
    simp only [Option.map_some, answer, Except.toOption, Option.some.injEq] at hfinal
    rw [hfinal, show request.url = SiteUrl.plain from hrequest] at same
    exact absurd same.1 (by decide)

theorem movingSite_unconsented : ¬ SiteConsented movingSite := by
  let _ := sampleHex
  let _ := plainPages
  let _ := plainJson SiteUrl
  let _ := plainHeaders
  intro consented
  have second : ((Loop.before (sitePass movingSite) siteStart 1).map (fun s =>
      (s.queue.map Prod.snd,
        (siteAsked movingSite s).map (fun asked =>
          SafeFetcher.retrieved movingSite (fun _ => "") asked.1 asked.2),
        (rulesOf (SafeFetcher.fetch movingSite (fun _ => "")
          ((RobotsCache.new 5000 65536).request SiteUrl.robots) s.fetcher).result).map (fun rules =>
            rules.decide "/private".toList)))) =
        some ([1], some [.second, .hidden], some .disallowed) := by decide +kernel
  obtain ⟨s, hs, hasked⟩ := Option.map_eq_some_iff.mp second
  obtain ⟨hqueue, hasked⟩ := Prod.mk.inj hasked
  obtain ⟨hretrieved, hrules⟩ := Prod.mk.inj hasked
  obtain ⟨⟨request, f⟩, issued, hurls⟩ := Option.map_eq_some_iff.mp hretrieved
  cases hentries : s.queue with
  | nil =>
    rw [hentries] at hqueue
    cases hqueue
  | cons entry queue =>
    obtain ⟨candidate, depth⟩ := entry
    rw [hentries] at hqueue
    have hdepth : depth = 1 := (List.cons.inj hqueue).1
    obtain ⟨-, permitted⟩ := consented 1 s (Loop.reaches_iff.mpr hs) candidate depth queue request f
      hentries (by rw [hdepth]; decide) issued
    obtain ⟨origin, address, rules, delay, horigin, parsed, -, ⟨robots, i, t, candidate', depth',
      queue', n, configured, hi, reached, head, -, asked, told⟩, allowed⟩ :=
        permitted .hidden (by rw [hurls]; simp)
    have haddress : address = .robots := by
      have own : originKey SiteUrl.hidden = some "https://example.com" := by decide +kernel
      have file : SiteUrl.parse ("https://example.com" ++ "/robots.txt") = some .robots := by
        decide +kernel
      rw [← Option.some.inj (own.symm.trans horigin)] at parsed
      exact Option.some.inj (parsed.symm.trans file)
    have hrobots : robots = RobotsCache.new 5000 65536 := (Option.some.inj configured).symm
    have hwhen : i = 0 ∨ i = 1 := by omega
    rcases hwhen with rfl | rfl
    · -- the first pass asks nobody
      cases reached
      have level : siteStart.queue.map Prod.snd = [0] := by decide +kernel
      rw [head] at level
      have top : depth' = 0 := (List.cons.inj level).1
      rw [robotsAsked, if_pos top] at asked
      cases asked
    · have same : s = t := Option.some.inj (hs.symm.trans (Loop.reaches_iff.mp reached))
      subst same
      rw [hrobots, haddress] at told
      rw [told, Option.map_some, Option.some.injEq] at hrules
      have refused : rules.decide (pathAndQuery SiteUrl.hidden).toList = .disallowed := hrules
      cases allowed.symm.trans refused

/-- A link of another scheme is followed, and so is a redirect that the rules
disallow. -/
theorem crookedSites_unconsented :
    ¬ SiteConsented downgradingSite ∧ ¬ SiteConsented movingSite :=
  ⟨downgradingSite_unconsented, movingSite_unconsented⟩

/-- A site whose links keep their origin and whose pages have not moved. -/
theorem plainSite_consented : SiteConsented plainSite := by
  let _ := sampleHex
  let _ := plainPages
  let _ := plainJson SiteUrl
  let _ := plainHeaders
  have states : (Loop.before (sitePass plainSite) siteStart 3).isNone = true := by decide +kernel
  refine crawl_consented siteUrl_laws plainSite (fun _ => "") politeLevel rfl (stillRun SiteUrl)
    siteRequest (DeepBudget.new 5 1000 2 0 5 60000) [] ⟨.empty, 0⟩ ?_
  intro index s reached
  have hs : Loop.before (sitePass plainSite) siteStart index = some s := Loop.reaches_iff.mp reached
  have few : index < 3 := by
    by_contra many
    rw [Loop.before_eq_none (Option.isNone_iff_eq_none.mp states) (by omega)] at hs
    cases hs
  have checked : ∀ index < 3, (Loop.before (sitePass plainSite) siteStart index).all (fun s =>
      (siteAsked plainSite s).all (fun asked =>
        (SafeFetcher.retrieved plainSite (fun _ => "") asked.1 asked.2).tail.isEmpty) &&
      (siteRead plainSite s).all (fun read =>
        (addedLinks politeLevel read.2.1 read.2.2 s.visited).all (fun link =>
          scheme link == scheme read.2.2.finalUrl &&
            port link == port read.2.2.finalUrl))) = true := by decide +kernel
  have here := checked index few
  rw [hs, Option.all_some, Bool.and_eq_true] at here
  refine ⟨?_, ?_⟩
  · intro candidate depth fetched hread link added
    have hread' : siteRead plainSite s = some (candidate, depth, fetched) := hread
    have straight := here.2
    simp only [hread', Option.all_some, List.all_eq_true, Bool.and_eq_true, beq_iff_eq] at straight
    exact straight link added
  · intro candidate depth queue request f head _ issued url hop
    have hissued : siteAsked plainSite s = some (request, f) := issued
    have unmoved := here.1
    simp only [hissued, Option.all_some, List.isEmpty_iff] at unmoved
    rw [unmoved] at hop
    cases hop

end Amatl
