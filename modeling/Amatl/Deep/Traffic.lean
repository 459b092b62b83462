import Amatl.Deep.Stages

/-! The traffic of a run over the safe fetcher. A reserved fetch is given back for
the errors that stand for "nothing was sent"; the fetcher can return them after a
redirect it followed, and then it is given back for traffic that was real. -/

namespace Amatl

open UrlCrate DeepBudget

section

variable {Url : Type} [UrlCrate Url]

/-- Where the reply of one hop sends the fetch, if its URL and answer passed the
checks. -/
def redirectTarget (current : Url) (hop : Hop) : Option Url :=
  match checkedAnswer current hop, hop.reply with
  | .ok _, some (some response) =>
    if isRedirect response.status then
      (headerText response.headers "location").bind (join current)
    else none
  | _, _ => none

def hopUrl (network : Nat → Hop) (url : Url) : Nat → Option Url
  | 0 => some url
  | index + 1 => (hopUrl network url index).bind (fun current =>
      redirectTarget current (network index))

/-- The URL of a hop, or the answer it is given, is refused. -/
def Refused (url : Url) (hop : Hop) : Prop :=
  ∃ error : FetchError, checkedAnswer url hop = .error error ∧ error.released = true

/-- No redirect within the limit leads to a URL or an address that is refused. -/
def Unsteered (network : Nat → Hop) (request : FetchRequest Url) : Prop :=
  ∀ index url, index < request.maxRedirects.toNat →
    hopUrl network request.url (index + 1) = some url → ¬ Refused url (network (index + 1))

theorem clientFor_error {cache cache' : ClientCache} {hop : Hop} {host : String}
    {answer : List Net.SocketAddr} {error : FetchError}
    (h : clientFor cache hop host answer = (.error error, cache')) : error = .network := by
  unfold clientFor at h
  simp only at h
  split at h
  · cases h
  · split at h
    · cases h
    · cases h
      rfl

theorem readBody_error {maxBytes : UInt64} {chunks : List (Option (List UInt8))}
    {body : List UInt8} {error : FetchError} (h : readBody maxBytes body chunks = .error error) :
    error.released = false := by
  induction chunks generalizing body with
  | nil => cases h
  | cons chunk chunks ih =>
    cases chunk with
    | none =>
      cases h
      rfl
    | some chunk =>
      rw [readBody] at h
      split at h
      · cases h
        rfl
      · exact ih h

theorem executePinned_error {maxBytes : UInt64} {reply : Option Response} {error : FetchError}
    (h : executePinned maxBytes reply = .error error) : error.released = false := by
  unfold executePinned at h
  split at h
  · cases h
    rfl
  · simp only at h
    split at h
    · cases h
    · split at h
      · rename_i failed
        cases h
        exact readBody_error failed
      · cases h

theorem executePinned_ok {maxBytes : UInt64} {reply : Option Response} {response : RawResponse}
    (h : executePinned maxBytes reply = .ok response) :
    ∃ sent, reply = some sent ∧ response.status = sent.status ∧
      response.location = headerText sent.headers "location" := by
  unfold executePinned at h
  split at h
  · cases h
  · rename_i sent
    simp only at h
    split at h
    · cases h
      exact ⟨sent, rfl, rfl, rfl⟩
    · split at h
      · cases h
      · cases h
        exact ⟨sent, rfl, rfl, rfl⟩

/-- What follows a reply: an answer, an error that is not released, or a redirect
within the limit that is refused or followed. -/
theorem followReply_cases (request : FetchRequest Url) (now : String) (current : Url)
    (redirects : List Url) (response : RawResponse) :
    (∃ result, followReply request now current redirects response = .finished (.ok result)) ∨
    (∃ error : FetchError, error.released = false ∧
      followReply request now current redirects response = .finished (.error error)) ∨
    (redirects.length.toUInt32 < request.maxRedirects ∧ isRedirect response.status = true ∧
      ∃ next, response.location.bind (join current) = some next ∧
        ((∃ code, validateDeepUrl next = .error code ∧
          followReply request now current redirects response =
            .finished (.error (.blockedUrl code))) ∨
          followReply request now current redirects response = .redirected next)) := by
  unfold followReply
  split
  · rename_i redirect
    split
    · exact .inr (.inl ⟨_, rfl, rfl⟩)
    · rename_i limit
      cases response.location with
      | none => exact .inr (.inl ⟨_, rfl, rfl⟩)
      | some location =>
        unfold validateRedirect
        cases hjoin : join current location with
        | none => exact .inr (.inl ⟨.invalidRedirect, rfl, by simp only [hjoin]⟩)
        | some next =>
          refine .inr (.inr ⟨UInt32.not_le.mp limit, redirect, next, hjoin, ?_⟩)
          cases hvalid : validateDeepUrl next with
          | error code => exact .inl ⟨code, rfl, by simp only [hjoin, hvalid]⟩
          | ok accepted => exact .inr (by simp only [hjoin, hvalid])
  · exact .inl ⟨_, rfl⟩

variable [HttpCrate]

theorem fetchLoop_unreleased {request : FetchRequest Url} {network : Nat → Hop}
    (unsteered : Unsteered network request) (sendable : headersSendable request.headers = true)
    (now : String) (fuel : Nat) {index : Nat} {current : Url} {redirects : List Url}
    {cache : ClientCache} (hlen : redirects.length = index)
    (small : index ≤ request.maxRedirects.toNat)
    (at_ : hopUrl network request.url index = some current)
    (accepted : ¬ Refused current (network index)) {error : FetchError}
    (h : (fetchLoop request now network fuel index current redirects cache).result =
      some (.error error)) : error.released = false := by
  induction fuel generalizing index current redirects cache with
  | zero => cases h
  | succ fuel ih =>
    simp only [fetchLoop, fetchHop] at h
    cases hanswer : checkedAnswer current (network index) with
    | error failed =>
      rw [hanswer] at h
      cases h
      exact Bool.eq_false_iff.mpr (fun released => accepted ⟨_, hanswer, released⟩)
    | ok checked =>
      obtain ⟨host, answer⟩ := checked
      rcases hclient : clientFor cache (network index) host answer with ⟨failed | client, cache'⟩
      · simp only [hanswer, hclient] at h
        cases h
        rw [clientFor_error hclient]
        rfl
      · cases hreply : (network index).reply with
        | none =>
          simp only [hanswer, hclient, sendable, hreply] at h
          cases h
          rfl
        | some reply =>
          cases hexecute : executePinned request.maxBytes reply with
          | error failed =>
            simp only [hanswer, hclient, sendable, hreply, hexecute] at h
            cases h
            exact executePinned_error hexecute
          | ok response =>
            simp only [hanswer, hclient, sendable, hreply, hexecute] at h
            obtain ⟨sent, hsent, hstatus, hlocation⟩ := executePinned_ok hexecute
            rcases followReply_cases request now current redirects response with
              ⟨result, hfollow⟩ | ⟨failed, unreleased, hfollow⟩ |
                ⟨limit, redirect, next, hjoin, hfollow⟩
            · simp only [hfollow] at h
              cases h
            · simp only [hfollow] at h
              cases h
              exact unreleased
            · have below : index < request.maxRedirects.toNat := by
                have order := UInt32.lt_iff_toNat_lt.mp limit
                have top := request.maxRedirects.toNat_lt
                simp only [hlen, Nat.toUInt32_eq, UInt32.toNat_ofNat'] at order
                omega
              have target : hopUrl network request.url (index + 1) = some next := by
                rw [hopUrl, at_, Option.bind_some, redirectTarget, hanswer, hreply, hsent]
                simp only
                rw [if_pos (hstatus ▸ redirect), ← hlocation, hjoin]
              have open_ := unsteered index next below target
              rcases hfollow with ⟨code, refused, hfollow⟩ | hfollow
              · refine absurd ⟨.blockedUrl code, ?_, rfl⟩ open_
                simp only [checkedAnswer, refused]
              · simp only [hfollow] at h
                exact ih (by simp [hlen]) below target open_ h

theorem fetchLoop_unsent {request : FetchRequest Url} {network : Nat → Hop} {now : String}
    {fuel index : Nat} {current : Url} {redirects : List Url} {cache : ClientCache}
    (h : Refused current (network index) ∨ headersSendable request.headers = false) :
    (fetchLoop request now network fuel index current redirects cache).connections = [] := by
  cases fuel with
  | zero => rfl
  | succ fuel =>
    simp only [fetchLoop, fetchHop]
    cases hanswer : checkedAnswer current (network index) with
    | error failed => rfl
    | ok checked =>
      obtain ⟨host, answer⟩ := checked
      rcases h with ⟨error, refused, -⟩ | unsendable
      · cases hanswer.symm.trans refused
      · rcases hclient : clientFor cache (network index) host answer with
          ⟨failed | client, cache'⟩
        · simp [hclient]
        · simp [hclient, unsendable]

/-- A fetch that is given back opened no connection, unless a server steered it. -/
theorem SafeFetcher.fetch_released {network : Nat → Nat → Hop} {now : Nat → String}
    {request : TimedRequest Url} {f : SafeFetcher} {error : FetchError}
    (unsteered : Unsteered (network f.served) request.toFetchRequest)
    (h : (SafeFetcher.fetch network now request f).result = .error error)
    (released : error.released = true) :
    (SafeFetcher.fetch network now request f).connections = 0 := by
  simp only [SafeFetcher.fetch, fetchInner] at h ⊢
  cases hvalid : validateHeaders request.headers with
  | error failed => rfl
  | ok checked =>
    simp only [hvalid] at h ⊢
    rw [List.length_eq_zero_iff]
    by_cases refused : Refused request.url (network f.served 0)
    · exact fetchLoop_unsent (.inl refused)
    · cases sendable : headersSendable request.headers with
      | false => exact fetchLoop_unsent (.inr sendable)
      | true =>
        obtain ⟨-, -, -, hends⟩ := fetchLoop_safe request.toFetchRequest (now f.served)
          (network f.served) (request.maxRedirects.toNat + 1) 0 request.url [] f.clients (by simp)
        obtain ⟨outcome, houtcome⟩ := Option.ne_none_iff_exists'.mp (hends (by simp))
        rw [houtcome, Option.getD_some] at h
        subst h
        have unreleased := fetchLoop_unreleased unsteered sendable (now f.served) _
          (List.length_nil : ([] : List Url).length = 0) (Nat.zero_le _) rfl refused houtcome
        rw [unreleased] at released
        cases released

end

def connectedPages {σ Url : Type} (s : Crawl σ Url) : Nat :=
  s.pages.countP (fun page => 0 < page.connections)

/-- The connected fetches of a crawl that started with the budget `b` were all
paid for. -/
def Charged {σ Url : Type} (b : DeepBudget) (s : Crawl σ Url) : Prop :=
  s.budget.snapshot.remainingFetches.toNat + connectedPages s ≤
      b.snapshot.remainingFetches.toNat ∧
    s.budget.snapshot.remainingCrawlUrls.toNat + connectedPages s ≤
      b.snapshot.remainingCrawlUrls.toNat

section

variable {Url : Type} [UrlCrate Url] [ScraperCrate]

/-- A pass whose page request, if it makes one, is not steered to a refused
target. -/
def UnsteeredPass [HttpCrate] (network : Nat → Nat → Hop) (now : Nat → String)
    (o : DeepOrchestrator) (deadline : Nat) (pass : Pass) (s : Crawl SafeFetcher Url) : Prop :=
  ∀ request f, pageAsked o (SafeFetcher.fetch network now) deadline pass s = some (request, f) →
    Unsteered (network f.served) request.toFetchRequest

theorem Received.charged {σ : Type} {o : DeepOrchestrator} {candidate : DeepCandidate Url}
    {depth : UInt8} {result : Except FetchError (FetchResult Url)} {s t : Crawl σ Url}
    {b : DeepBudget} (h : Received o candidate depth result s t)
    (fetches : s.budget.snapshot.remainingFetches.toNat + connectedPages s ≤
      b.snapshot.remainingFetches.toNat)
    (crawlUrls : s.budget.snapshot.remainingCrawlUrls.toNat + connectedPages s ≤
      b.snapshot.remainingCrawlUrls.toNat)
    (released : ∀ error, result = .error error → error.released = true →
      s.budget.snapshot.remainingFetches.toNat + 1 + connectedPages s ≤
          b.snapshot.remainingFetches.toNat ∧
        s.budget.snapshot.remainingCrawlUrls.toNat + 1 + connectedPages s ≤
          b.snapshot.remainingCrawlUrls.toNat) : Charged b t := by
  cases h with
  | failed error errors notes failure after =>
    subst after
    by_cases given : error.released = true
    · have moreFetches := releaseFetch_fetches s.budget
      have moreUrls := releaseFetch_crawlUrls s.budget
      have room := released error failure given
      simp only [Charged, connectedPages, if_pos given] at room ⊢
      omega
    · simp only [Charged, connectedPages, if_neg given] at fetches crawlUrls ⊢
      exact ⟨fetches, crawlUrls⟩
  | answered fetched budget paid notes out documents rows ranks visited links answer spent few
      unpaid frontier after =>
    subst after
    simp only [Charged, connectedPages, spent.fetches, spent.crawlUrls] at fetches crawlUrls ⊢
    exact ⟨fetches, crawlUrls⟩

variable [HttpCrate] [Sha256Hex] [DocumentJson Url]

theorem crawlPass_charged {network : Nat → Nat → Hop} {now : Nat → String} {o : DeepOrchestrator}
    {deadline : Nat} {b : DeepBudget} {pass : Pass} {s : Crawl SafeFetcher Url}
    (unsteered : UnsteeredPass network now o deadline pass s) (charged : Charged b s) :
    (crawlPass o (SafeFetcher.fetch network now) deadline pass s).All (Charged b) := by
  cases crawlPass_passed o (SafeFetcher.fetch network now) deadline pass s with
  | idle empty unasked after =>
    rw [after]
    exact charged
  | late candidate depth queue notes head expired unasked after =>
    rw [after]
    exact charged
  | refused candidate depth queue entries fetcher notes out paid head early unasked turned =>
    rcases turned with again | done
    · rw [again]
      exact charged
    · rw [done]
      exact charged
  | asked candidate depth queue entries fetcher notes out paid reserved rows request u head
      early reservation prepared issued received after =>
    rw [after]
    obtain ⟨hfetches, hurls, -, hreserved⟩ := reserveFetch_ok reservation
    have oneFetch := toNat_sub_one hfetches
    have oneUrl := toNat_sub_one hurls
    obtain ⟨fetches, crawlUrls⟩ := charged
    rw [connectedPages] at fetches crawlUrls
    have counted : ∀ page : Issued Url,
        (s.pages ++ [page]).countP (fun page => 0 < page.connections) =
          s.pages.countP (fun page => 0 < page.connections) +
            if 0 < page.connections then 1 else 0 := by
      intro page
      rw [List.countP_append, List.countP_singleton]
      simp
    refine received.charged ?_ ?_ ?_
    · simp only [hreserved, connectedPages, counted]
      split <;> omega
    · simp only [hreserved, connectedPages, counted]
      split <;> omega
    · intro error failure released
      have unsent := SafeFetcher.fetch_released (unsteered request fetcher issued) failure released
      simp only [hreserved, connectedPages, counted, unsent]
      simp only [Nat.lt_irrefl, if_false]
      omega

/-- In every run whose page requests are not steered, the fetches that opened a
connection are at most the fetches and the URLs of the budget. -/
theorem enrich_charged (network : Nat → Nat → Hop) (now : Nat → String) (o : DeepOrchestrator)
    (env : Surroundings Url) (request : DeepRequest Url) (budget : DeepBudget)
    (rows : List (DocumentRow Url)) (entries : List (String × CacheEntry)) (fetcher : SafeFetcher)
    (unsteered : ∀ index s,
      Loop.Reaches (fun index => crawlPass o (SafeFetcher.fetch network now)
        (deepDeadline env budget) (env.passes index))
        (Crawl.start o request budget rows entries fetcher) index s →
      UnsteeredPass network now o (deepDeadline env budget) (env.passes index) s) :
    let run := enrich o (SafeFetcher.fetch network now) env request budget rows entries fetcher
    connectedPages run.crawl ≤ budget.snapshot.remainingFetches.toNat ∧
      connectedPages run.crawl ≤ budget.snapshot.remainingCrawlUrls.toNat := by
  intro run
  have charged : Charged budget run.crawl :=
    enrich_crawl (fun errors notes => ⟨le_rfl, le_rfl⟩)
      (crawl_reached (fun index s reached => crawlPass_charged (unsteered index s reached))
        ⟨le_rfl, le_rfl⟩)
  obtain ⟨fetches, crawlUrls⟩ := charged
  omega

end

/-- A hop that reaches a public server, which sends the given reply. -/
def publicHop (response : Response) : Hop where
  answer := some (.ok [⟨.v4 ⟨93, 184, 216, 34⟩, 443⟩])
  before := []
  between := []
  buildable := true
  reply := some (some response)

def steeringServer : Nat → Nat → Hop
  | 0, _ => publicHop ⟨302, [("location", some "https://localhost/")], []⟩
  | _, _ => publicHop ⟨200, [], [some "end".toUTF8.data.toList]⟩

/-- With a budget of one fetch, two page fetches reach a server. -/
theorem steeringServer_overspends :
    letI := sampleHex
    letI := plainPages
    letI := plainJson PageUrl
    letI := plainHeaders
    let run := enrich oneLevel (SafeFetcher.fetch steeringServer (fun _ => "")) (stillRun PageUrl)
      (pagesRequest [homePage, secondPage]) (DeepBudget.new 1 1000 2 0 1 10000) [] [] ⟨.empty, 0⟩
    run.crawl.pages.map (fun page => page.connections) = [1, 1] ∧
      ¬ (connectedPages run.crawl ≤ 1) := by
  let _ := sampleHex
  let _ := plainPages
  let _ := plainJson PageUrl
  let _ := plainHeaders
  decide +kernel

def movedPages : Nat → Nat → Hop
  | _, 0 => publicHop ⟨302, [("location", some "https://example.com/b")], []⟩
  | _, _ => publicHop ⟨200, [], [some "end".toUTF8.data.toList]⟩

theorem movedPages_unsteered (number : Nat) (request : FetchRequest PageUrl) :
    Unsteered (movedPages number) request := by
  intro index url _ target refused
  cases index with
  | zero =>
    have moved : url = secondPage := by
      simp only [hopUrl, Option.bind_some, redirectTarget, movedPages, publicHop] at target
      split at target
      · rename_i sent
        cases sent
        have parsed : PageUrl.parse "https://example.com/b" = some secondPage := by decide +kernel
        have location : (headerText [("location", some "https://example.com/b")] "location").bind
            (join request.url) = some secondPage := parsed
        rw [if_pos (by decide), location] at target
        exact (Option.some.inj target).symm
      · cases target
    subst moved
    obtain ⟨error, failed, -⟩ := refused
    have checked : checkedAnswer secondPage (movedPages 0 1) =
        .ok ("example.com", [⟨.v4 ⟨93, 184, 216, 34⟩, 443⟩]) := by decide +kernel
    cases checked.symm.trans failed
  | succ index =>
    have stays : ∀ current : PageUrl,
        redirectTarget current (movedPages number (index + 1)) = none := by
      intro current
      simp only [redirectTarget, movedPages, publicHop]
      split
      · rename_i sent
        cases sent
        rfl
      · rfl
    rw [hopUrl] at target
    simp [stays] at target

/-- Two pages, each fetched through a redirect, with a budget for both. -/
theorem movedPages_charged :
    letI := sampleHex
    letI := plainPages
    letI := plainJson PageUrl
    letI := plainHeaders
    let run := enrich oneLevel (SafeFetcher.fetch movedPages (fun _ => "")) (stillRun PageUrl)
      (pagesRequest [homePage, secondPage]) (DeepBudget.new 2 1000 2 0 3 10000) [] [] ⟨.empty, 0⟩
    run.crawl.pages.map (fun page => page.connections) = [2, 2] ∧ connectedPages run.crawl ≤ 2 := by
  let _ := sampleHex
  let _ := plainPages
  let _ := plainJson PageUrl
  let _ := plainHeaders
  refine ⟨by decide +kernel, ?_⟩
  exact (enrich_charged movedPages (fun _ => "") oneLevel (stillRun PageUrl)
    (pagesRequest [homePage, secondPage]) (DeepBudget.new 2 1000 2 0 3 10000) [] [] ⟨.empty, 0⟩
    (fun _ _ _ request f _ => movedPages_unsteered f.served request.toFetchRequest)).1

end Amatl
