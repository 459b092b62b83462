import Amatl.Deep.Selected

/-! A data policy that denies outbound access. The service then starts with a fetcher
that refuses every request and admits no provider, so that no request it is given
afterwards opens a connection. -/

namespace Amatl

open UrlCrate DeepBudget

def DataPolicyConfig.allowsNetworkEgress (policy : DataPolicyConfig) : Bool :=
  policy.profile != .isolated && policy.egress == .governed

/-- `DeniedFetcher`. -/
def deniedFetch {σ Url : Type} : Fetcher σ Url := fun _ fetcher =>
  ⟨.error .egressDenied, 0, fetcher⟩

/-- A running service: what Deep reads of it, and what a search reads of it. -/
structure RunningService where
  deep : DeepService
  search : AmatlService
  sameMock : search.mock = deep.mock
  sameEgress : search.networkEgress = deep.config.dataPolicy.allowsNetworkEgress

/-- A request that may need the network, with what happens around it. -/
inductive NetworkRequest (Url : Type) where
  | search (now : Int64)
  | deep (now : Int64) (surface : ServiceSurfaceKind) (maxFetches : Option UInt32)
    (found : Except ServiceError (Query × String × SearchResponse Url)) (env : Surroundings Url)
  | deepSelected (now : Int64) (surface : ServiceSurfaceKind) (maxFetches : Option UInt32)
    (rawQuery : String) (targets : List DeepTarget) (env : Surroundings Url)
  | fetchPublic (request : TimedRequest Url)

/-- The answer to a request. Of a search it is the providers that are called. -/
inductive NetworkAnswer (σ Url : Type) where
  | search (selection : Except ServiceError ProviderSelection)
  | deep (outcome : Option (Except DeepFailure (DeepService.Run σ Url)))
  | fetchPublic (result : Except FetchError (FetchResult Url)) (connections : Nat)

/-- What requests leave behind: the fetcher and the document cache. -/
structure NetworkState (σ Url : Type) where
  fetcher : σ
  rows : List (DocumentRow Url)

def NetworkAnswer.deepRun {σ Url : Type} : NetworkAnswer σ Url → Option (DeepService.Run σ Url)
  | .deep (some (.ok run)) => some run
  | _ => none

/-- What is connected to through the fetcher. The calls of a search are no part of it: a search
is judged by the providers that it selects. -/
def NetworkAnswer.connections {σ Url : Type} : NetworkAnswer σ Url → Nat
  | .fetchPublic _ connections => connections
  | .deep (some (.ok run)) =>
    ((run.enriched.crawl.pages ++ run.enriched.crawl.robotsFiles).map (·.connections)).sum
  | _ => 0

def NetworkState.after {σ Url : Type} (state : NetworkState σ Url)
    (outcome : Option (Except DeepFailure (DeepService.Run σ Url))) : NetworkState σ Url :=
  match outcome with
  | some (.ok run) => ⟨run.enriched.crawl.fetcher, run.enriched.crawl.rows⟩
  | _ => state

namespace RunningService

variable (service : RunningService) {σ Url : Type}

/-- The fetcher that the service starts with, `safe` being the one of the open network. -/
def fetch (safe : Fetcher σ Url) : Fetcher σ Url :=
  if service.deep.config.dataPolicy.allowsNetworkEgress then safe else deniedFetch

variable [UrlCrate Url] [Sha256Hex] [ScraperCrate] [DocumentJson Url]

def answer (safe : Fetcher σ Url) (state : NetworkState σ Url) :
    NetworkRequest Url → NetworkAnswer σ Url × NetworkState σ Url
  | .search now => (.search (service.search.selectProviders now), state)
  | .deep now surface maxFetches found env =>
    let outcome := service.deep.deepWithFetchCap surface maxFetches
      (service.search.selectProviders now) found (service.fetch safe) env state.rows state.fetcher
    (.deep outcome, state.after outcome)
  | .deepSelected now surface maxFetches rawQuery targets env =>
    let outcome := service.deep.deepSelected surface maxFetches
      (service.search.selectProviders now) rawQuery targets (service.fetch safe) env state.rows
      state.fetcher
    (.deep outcome, state.after outcome)
  | .fetchPublic request =>
    let fetched := service.fetch safe request state.fetcher
    (.fetchPublic fetched.result fetched.connections, { state with fetcher := fetched.fetcher })

def answerAll (safe : Fetcher σ Url) (state : NetworkState σ Url) :
    List (NetworkRequest Url) → List (NetworkAnswer σ Url) × NetworkState σ Url
  | [] => ([], state)
  | request :: requests =>
    let answered := service.answer safe state request
    let rest := answerAll safe answered.2 requests
    (answered.1 :: rest.1, rest.2)

end RunningService

/-! A crawl through the fetcher that refuses. -/

/-- Releases are capped at what the budget was built with. -/
def DeepBudget.Full (b : DeepBudget) : Prop :=
  b.snapshot.remainingFetches ≤ b.maxFetches ∧ b.snapshot.remainingCrawlUrls ≤ b.maxCrawlUrls

theorem min_saturatingSucc_sub_one {n maximum : UInt32} (some : n ≠ 0) (within : n ≤ maximum) :
    min (saturatingSucc (n - 1)) maximum = n := by
  have back := toNat_sub_one some
  have small := n.toNat_lt
  have order := UInt32.le_iff_toNat_le.mp within
  apply UInt32.toNat_inj.mp
  rw [toNat_min_u32, toNat_saturatingSucc]
  omega

/-- A fetch that is reserved and given back costs nothing. -/
theorem DeepBudget.Full.released {b reserved : DeepBudget} {remaining : UInt64} (full : b.Full)
    (h : b.reserveFetch = (.ok remaining, reserved)) : reserved.releaseFetch = b := by
  obtain ⟨fetches, crawlUrls, -, rfl⟩ := reserveFetch_ok h
  simp only [releaseFetch, min_saturatingSucc_sub_one fetches full.1,
    min_saturatingSucc_sub_one crawlUrls full.2]

theorem deepBudget_full (service : DeepService) (limits : ExecutionLimits) (effective : UInt32)
    (remainingMs : UInt64) : (service.deepBudget limits effective remainingMs).Full :=
  ⟨UInt32.le_refl _, UInt32.le_refl _⟩

theorem RunningService.selectProviders_denied {service : RunningService}
    (denied : service.deep.config.dataPolicy.allowsNetworkEgress = false) (now : Int64) :
    service.search.selectProviders now =
      .ok ⟨if service.deep.mock then service.search.mockProviders else [], []⟩ := by
  rw [AmatlService.selectProviders, service.sameMock, service.sameEgress, denied]
  cases service.deep.mock <;> rfl

def egressDegradation : Degradation :=
  deepDegradation (fetchCode .egressDenied) "Fetch failed; the SearchResult remains valid"

/-- A row but for the time of its last access. -/
def forgetAccess {Url : Type} (row : DocumentRow Url) : DocumentRow Url :=
  { row with lastAccessed := 0 }

section

variable {σ Url : Type} [UrlCrate Url]

theorem revalidation_forgets (o : DeepOrchestrator) (pass : Pass) (candidate : DeepCandidate Url)
    (rows : List (DocumentRow Url)) :
    (revalidation o pass candidate rows).2.map forgetAccess = rows.map forgetAccess := by
  unfold revalidation
  cases o.cache with
  | none => rfl
  | some policy =>
    simp only [DocumentCachePolicy.latest, documentCacheGetLatest]
    split
    · rfl
    · split
      · rfl
      · rw [List.map_map]
        apply List.map_congr_left
        intro row _
        simp only [Function.comp_apply]
        split <;> rfl

/-- The pages of `asked` were refused, one after the other, and nothing else came of
them. -/
def RefusedAll (start : Crawl σ Url) (asked : List (DeepCandidate Url))
    (queue : List (DeepCandidate Url × UInt8)) (notes : List Degradation) (out : List Exhaustion)
    (s : Crawl σ Url) : Prop :=
  ∃ pages rows, s =
      { start with
        queue, pages, rows
        errors := start.errors ++ asked.map (fun c => fetchError c.result .egressDenied)
        degradations := start.degradations ++ asked.map (fun _ => egressDegradation) ++ notes
        exhausted := start.exhausted ++ out } ∧
    pages.map (fun page => (page.request.url, page.connections)) =
      start.pages.map (fun page => (page.request.url, page.connections)) ++
        asked.map (fun c => (c.result.canonicalUrl, 0)) ∧
    rows.map forgetAccess = start.rows.map forgetAccess

/-- Between two passes the rest of the queue is still to come. -/
def Refusing (start s : Crawl σ Url) : Prop :=
  ∃ asked queue, start.queue = asked.map (fun candidate => (candidate, 0)) ++ queue ∧
    RefusedAll start asked queue [] [] s

/-- In the end every page was refused, or the deadline or the budget cut the run short. -/
def RefusedInTheEnd (start s : Crawl σ Url) : Prop :=
  ∃ asked queue notes out, RefusedAll start asked queue notes out s ∧
    asked.map (fun candidate => (candidate, 0)) <+: start.queue ∧
    (out = [] → notes = [] ∧ queue = [] ∧
      asked.map (fun candidate => (candidate, 0)) = start.queue)

variable [Sha256Hex] [ScraperCrate] [DocumentJson Url]

/-- What a pass over a page of the queue comes to. -/
theorem crawlPass_denied (o : DeepOrchestrator) (deadline : Nat) (pass : Pass) {s : Crawl σ Url}
    {candidate : DeepCandidate Url} {queue : List (DeepCandidate Url × UInt8)}
    (head : s.queue = (candidate, 0) :: queue) (full : s.budget.Full) :
    (∃ what code message, crawlPass o deniedFetch deadline pass s =
        .done ({ s with queue }.exhaust what code message)) ∨
      ∃ request, request.url = candidate.result.canonicalUrl ∧
        crawlPass o deniedFetch deadline pass s = .again
          { s with
            queue, rows := (revalidation o pass candidate s.rows).2
            pages := s.pages ++ [⟨pass.fetchAt, request, 0⟩]
            errors := s.errors ++ [fetchError candidate.result .egressDenied]
            degradations := s.degradations ++ [egressDegradation] } := by
  unfold crawlPass
  rw [head]
  simp only [consent, if_true]
  by_cases late : deadline ≤ pass.now
  · rw [if_pos late]
    exact .inl ⟨_, _, _, rfl⟩
  · rw [if_neg late]
    simp only [Bool.not_true, Bool.false_eq_true, if_false]
    cases reservation : s.budget.reserveFetch with
    | mk outcome reserved =>
      cases outcome with
      | error cause => exact .inl ⟨_, _, _, rfl⟩
      | ok remaining =>
        refine .inr ⟨fetchRequest o deadline pass candidate remaining
          reserved.snapshot.remainingRedirects (revalidation o pass candidate s.rows).1, rfl, ?_⟩
        simp only [acquire, deniedFetch, receive, FetchError.released, if_true, Crawl.degrade,
          full.released reservation]
        rfl

omit [UrlCrate Url] [Sha256Hex] [ScraperCrate] [DocumentJson Url] in
theorem Refusing.start (s : Crawl σ Url) : Refusing s s :=
  ⟨[], s.queue, rfl, s.pages, s.rows, by simp, by simp, rfl⟩

theorem Refusing.next {o : DeepOrchestrator} {deadline : Nat} {pass : Pass} {start s : Crawl σ Url}
    (full : start.budget.Full) (shallow : ∀ entry ∈ start.queue, entry.2 = 0)
    (refusing : Refusing start s) :
    (∀ t, crawlPass o deniedFetch deadline pass s = .again t → Refusing start t) ∧
      ∀ t, crawlPass o deniedFetch deadline pass s = .done t → RefusedInTheEnd start t := by
  obtain ⟨asked, queue, split, pages, rows, now, asks, same⟩ := refusing
  cases queue with
  | nil =>
    have idle : crawlPass o deniedFetch deadline pass s = .done s := by simp [crawlPass, now]
    rw [idle]
    refine ⟨fun t h => (by cases h), fun t h => ?_⟩
    cases h
    exact ⟨asked, [], [], [], ⟨pages, rows, now, asks, same⟩, by rw [split, List.append_nil],
      fun _ => ⟨rfl, rfl, by rw [split, List.append_nil]⟩⟩
  | cons entry queue =>
    obtain ⟨candidate, depth⟩ := entry
    obtain rfl : depth = 0 := shallow (candidate, depth) (by simp [split])
    have head : s.queue = (candidate, 0) :: queue := by rw [now]
    have full : s.budget.Full := by
      rw [now]
      exact full
    rcases crawlPass_denied o deadline pass head full with
      ⟨what, code, message, after⟩ | ⟨request, url, after⟩
    · rw [after]
      refine ⟨fun t h => (by cases h), fun t h => ?_⟩
      cases h
      refine ⟨asked, queue, [deepDegradation code message], [what], ⟨pages, rows, ?_, asks, same⟩,
        ?_, fun h => (by cases h)⟩
      · simp [now, Crawl.exhaust, Crawl.degrade]
      · rw [split]
        exact List.prefix_append _ _
    · rw [after]
      refine ⟨fun t h => ?_, fun t h => (by cases h)⟩
      cases h
      refine ⟨asked ++ [candidate], queue, by simp [split], s.pages ++ [⟨pass.fetchAt, request, 0⟩],
        (revalidation o pass candidate s.rows).2, ?_, ?_, ?_⟩
      · simp [now]
      · simp [now, asks, url]
      · rw [revalidation_forgets, now]
        exact same

/-- Over every run of the crawl: each page it comes to is refused once, and the budget, the
documents and everything else are left as they were. -/
theorem crawl_denied (o : DeepOrchestrator) (deadline : Nat) (passes : Nat → Pass)
    {start : Crawl σ Url} (full : start.budget.Full)
    (shallow : ∀ entry ∈ start.queue, entry.2 = 0) :
    RefusedInTheEnd start (crawl o deniedFetch deadline passes start) :=
  Loop.run_finishes (P := Refusing start) (Q := RefusedInTheEnd start)
    (fun _ _ _ refusing again => (refusing.next full shallow).1 _ again)
    (fun _ _ _ refusing done => (refusing.next full shallow).2 _ done)
    (Refusing.start start) (run_eq_crawl o deniedFetch deadline passes start)

/-- A run that the policy refused every page of: what it came to, and what it left alone. -/
structure DeniedRun (state : NetworkState σ Url) (run : DeepService.Run σ Url) : Prop where
  documents : run.enriched.crawl.documents = []
  consumed : run.enriched.crawl.consumed = []
  budget : run.enriched.crawl.budget = run.budget
  robots : run.enriched.crawl.robotsFiles = []
  fetcher : run.enriched.crawl.fetcher = state.fetcher
  rows : run.enriched.crawl.rows.map forgetAccess = state.rows.map forgetAccess
  connections : ∀ page ∈ run.enriched.crawl.pages, page.connections = 0
  reported : run.request.planNormalizedQuery = run.request.query.normalizedQuery →
    ∃ asked, asked <+: run.request.candidates.take run.orchestrator.topK ∧
      (run.enriched.crawl.exhausted = [] →
        asked = run.request.candidates.take run.orchestrator.topK) ∧
      run.enriched.crawl.pages.map (fun page => page.request.url) =
        asked.map (fun candidate => candidate.result.canonicalUrl) ∧
      run.enriched.crawl.errors =
        asked.map (fun candidate => fetchError candidate.result .egressDenied) ∧
      asked.length ≤ run.enriched.crawl.degradations.count egressDegradation

omit [ScraperCrate] [DocumentJson Url] in
theorem start_shallow (o : DeepOrchestrator) (request : DeepRequest Url) (budget : DeepBudget)
    (rows : List (DocumentRow Url)) (fetcher : σ) :
    ∀ entry ∈ (Crawl.start o request budget rows [] fetcher).queue, entry.2 = 0 := by
  intro entry mem
  obtain ⟨candidate, -, rfl⟩ := List.mem_map.mp mem
  rfl

/-- What a refused crawl leaves alone. -/
def LeftAlone (budget : DeepBudget) (state : NetworkState σ Url) (s : Crawl σ Url) : Prop :=
  s.documents = [] ∧ s.consumed = [] ∧ s.budget = budget ∧ s.robotsFiles = [] ∧
    s.fetcher = state.fetcher ∧ s.rows.map forgetAccess = state.rows.map forgetAccess ∧
    ∀ page ∈ s.pages, page.connections = 0

theorem crawl_leftAlone (o : DeepOrchestrator) (deadline : Nat) (passes : Nat → Pass)
    (request : DeepRequest Url) {budget : DeepBudget} (full : budget.Full)
    (rows : List (DocumentRow Url)) (fetcher : σ) :
    let start := Crawl.start o request budget rows [] fetcher
    LeftAlone budget ⟨fetcher, rows⟩ (crawl o deniedFetch deadline passes start) := by
  intro start
  obtain ⟨asked, queue, notes, out, ⟨pages, rows', ended, asks, same⟩, -⟩ :=
    crawl_denied o deadline passes full (start_shallow o request budget rows fetcher)
  rw [ended]
  refine ⟨rfl, rfl, rfl, rfl, rfl, same, ?_⟩
  intro page mem
  have shown : (page.request.url, page.connections) ∈
      asked.map (fun c => (c.result.canonicalUrl, 0)) := by
    rw [show asked.map (fun c => (c.result.canonicalUrl, 0)) =
      pages.map (fun page => (page.request.url, page.connections)) by
        rw [asks]
        rfl]
    exact List.mem_map_of_mem mem
  obtain ⟨candidate, -, same⟩ := List.mem_map.mp shown
  exact (Prod.mk.inj same).2.symm

theorem enrich_denied (o : DeepOrchestrator) (env : Surroundings Url) (request : DeepRequest Url)
    {budget : DeepBudget} (full : budget.Full) (rows : List (DocumentRow Url)) (fetcher : σ)
    (added : List Degradation) :
    DeniedRun ⟨fetcher, rows⟩
      ⟨o, request, budget, enrich o deniedFetch env request budget rows [] fetcher, added⟩ := by
  obtain ⟨documents, consumed, spent, robots, memory, same, closed⟩ :=
    enrich_crawl (P := LeftAlone budget ⟨fetcher, rows⟩)
      (fun _ _ => ⟨rfl, rfl, rfl, rfl, rfl, rfl, fun _ mem => nomatch mem⟩)
      (crawl_leftAlone o (deepDeadline env budget) env.passes request full rows fetcher)
  refine ⟨documents, consumed, spent, robots, memory, same, closed, fun matched => ?_⟩
  rcases enrich_crawl_of_matched o deniedFetch env budget rows [] fetcher matched with
    crawled | ⟨none, idle⟩
  · obtain ⟨asked, queue, notes, out, ⟨pages, rows', ended, asks, -⟩, front, whole⟩ :=
      crawl_denied o (deepDeadline env budget) env.passes full
        (start_shallow o request budget rows fetcher)
    simp only [crawled, ended]
    have reads : ∀ l : List (DeepCandidate Url),
        (l.map (fun candidate => (candidate, (0 : UInt8)))).map Prod.fst = l := by
      intro l
      rw [List.map_map]
      exact List.map_id l
    refine ⟨asked, ?_, ?_, ?_, rfl, ?_⟩
    · simpa only [Crawl.start, reads] using front.map Prod.fst
    · intro never
      have all := (whole (by simpa [Crawl.start] using never)).2.2
      simpa only [Crawl.start, reads] using congrArg (List.map Prod.fst) all
    · simpa [Crawl.start, Function.comp_def] using congrArg (List.map Prod.fst) asks
    · simp [List.count_append]
      omega
  · simp only [idle]
    refine ⟨[], List.nil_prefix, fun _ => ?_, rfl, rfl, Nat.zero_le _⟩
    show [] = request.candidates.take o.topK
    rw [none, List.take_nil]

theorem deepFromSearch_denied (service : DeepService) {surface : ServiceSurfaceKind}
    {maxFetches : Option UInt32} {selection : Except ServiceError ProviderSelection}
    {query : Query} {planNormalizedQuery : String} {elapsedMs : UInt64}
    {results : List (SearchResult Url)} {env : Surroundings Url} {state : NetworkState σ Url}
    {run : DeepService.Run σ Url}
    (h : service.deepFromSearch surface maxFetches selection query planNormalizedQuery elapsedMs
      results deniedFetch env state.rows state.fetcher = some (.ok run)) : DeniedRun state run := by
  obtain ⟨share, -, made⟩ := Option.map_eq_some_iff.mp h
  split at made
  · cases made
  · cases made
  · cases made
    exact enrich_denied _ _ _ (deepBudget_full service _ _ _) state.rows state.fetcher _

/-- What a request is answered under a policy that denies egress. -/
def NetworkAnswer.Denied (service : RunningService) (state : NetworkState σ Url) :
    NetworkAnswer σ Url → Prop
  | .search selection =>
    selection = .ok ⟨if service.deep.mock then service.search.mockProviders else [], []⟩
  | .deep outcome => ∀ run, outcome = some (.ok run) → DeniedRun state run
  | .fetchPublic result _ => result = .error .egressDenied

omit [UrlCrate Url] [Sha256Hex] [ScraperCrate] [DocumentJson Url] in
theorem DeniedRun.connections_eq {state : NetworkState σ Url} {run : DeepService.Run σ Url}
    (denied : DeniedRun state run) :
    (NetworkAnswer.deep (some (.ok run))).connections = 0 := by
  rw [NetworkAnswer.connections, denied.robots, List.append_nil, List.sum_eq_zero_iff]
  intro n mem
  obtain ⟨page, there, rfl⟩ := List.mem_map.mp mem
  exact denied.connections page there

/-- No request moves the fetcher or adds to the cache. -/
def NetworkState.Alike (state state' : NetworkState σ Url) : Prop :=
  state'.fetcher = state.fetcher ∧ state'.rows.map forgetAccess = state.rows.map forgetAccess

omit [UrlCrate Url] [Sha256Hex] [ScraperCrate] [DocumentJson Url] in
theorem after_denied {state : NetworkState σ Url}
    {outcome : Option (Except DeepFailure (DeepService.Run σ Url))}
    (denied : ∀ run, outcome = some (.ok run) → DeniedRun state run) :
    (NetworkAnswer.deep outcome).connections = 0 ∧
      state.Alike (state.after outcome) := by
  cases outcome with
  | none => exact ⟨rfl, rfl, rfl⟩
  | some result =>
    cases result with
    | error failure => exact ⟨rfl, rfl, rfl⟩
    | ok run =>
      have run_denied := denied run rfl
      exact ⟨run_denied.connections_eq, run_denied.fetcher, run_denied.rows⟩

namespace RunningService

variable {service : RunningService}

/-- One request opens no connection and leaves the state as it was. -/
theorem answer_denied (denied : service.deep.config.dataPolicy.allowsNetworkEgress = false)
    (safe : Fetcher σ Url) (state : NetworkState σ Url) (request : NetworkRequest Url) :
    let answered := service.answer safe state request
    answered.1.Denied service state ∧ answered.1.connections = 0 ∧ state.Alike answered.2 := by
  have refuses : service.fetch safe = deniedFetch := by simp [fetch, denied]
  cases request with
  | search now => exact ⟨selectProviders_denied denied now, rfl, rfl, rfl⟩
  | fetchPublic request =>
    simp only [answer, refuses]
    exact ⟨rfl, rfl, rfl, rfl⟩
  | deep now surface maxFetches found env =>
    simp only [answer, refuses]
    have each : ∀ run, service.deep.deepWithFetchCap surface maxFetches
        (service.search.selectProviders now) found deniedFetch env state.rows state.fetcher =
          some (.ok run) → DeniedRun state run := by
      intro run h
      unfold DeepService.deepWithFetchCap at h
      simp only at h
      split at h
      · cases h
      · split at h
        · cases h
        · exact deepFromSearch_denied service.deep h
    exact ⟨each, after_denied each⟩
  | deepSelected now surface maxFetches rawQuery targets env =>
    simp only [answer, refuses]
    have each : ∀ run, service.deep.deepSelected surface maxFetches
        (service.search.selectProviders now) rawQuery targets deniedFetch env state.rows
          state.fetcher = some (.ok run) → DeniedRun state run := by
      intro run h
      rcases service.deep.deepSelected_cases surface maxFetches (service.search.selectProviders now)
        rawQuery targets deniedFetch env state.rows state.fetcher with
        ⟨failure, refused, -⟩ | ⟨query, candidates, -, -, goes⟩
      · cases refused.symm.trans h
      · exact deepFromSearch_denied service.deep (goes.symm.trans h)
    exact ⟨each, after_denied each⟩

/-- Under a policy that denies egress, whatever is asked of the service and however often: no
connection is opened, no provider is called but a mock one, every fetch is refused, and every
run of Deep refuses each page it comes to with the budget, the fetcher and the document
cache as they were. -/
theorem denied_opens_nothing
    (denied : service.deep.config.dataPolicy.allowsNetworkEgress = false) (safe : Fetcher σ Url)
    (state : NetworkState σ Url) (requests : List (NetworkRequest Url)) :
    let run := service.answerAll safe state requests
    state.Alike run.2 ∧ run.1.length = requests.length ∧
      (run.1.map NetworkAnswer.connections).sum = 0 ∧
      ∀ answer ∈ run.1, ∃ between, state.Alike between ∧ answer.Denied service between := by
  induction requests generalizing state with
  | nil => exact ⟨⟨rfl, rfl⟩, rfl, rfl, fun _ mem => nomatch mem⟩
  | cons request requests ih =>
    obtain ⟨answered, closed, alike⟩ := answer_denied denied safe state request
    obtain ⟨later, length, none, each⟩ := ih (service.answer safe state request).2
    refine ⟨⟨later.1.trans alike.1, later.2.trans alike.2⟩, ?_, ?_, ?_⟩
    · simp only [answerAll, List.length_cons, length]
    · simp only [answerAll, List.map_cons, List.sum_cons, closed, none]
    · intro answer mem
      rcases List.mem_cons.mp mem with rfl | mem
      · exact ⟨state, ⟨rfl, rfl⟩, answered⟩
      · obtain ⟨between, same, refused⟩ := each answer mem
        exact ⟨between, ⟨same.1.trans alike.1, same.2.trans alike.2⟩, refused⟩

end RunningService

end

/-- A service that an operator isolated. -/
def isolatedService : RunningService where
  deep := { declaredService with
    config := { Config.default with dataPolicy := ⟨.isolated, .deny, .disabled⟩ } }
  search := { halfApproved with networkEgress := false }
  sameMock := rfl
  sameEgress := rfl

/-- A fetch and a run over two pages of a site that would answer. -/
def isolatedRequests : List (NetworkRequest PageUrl) :=
  [.fetchPublic ⟨⟨homePage, 1000, 0, []⟩, 1000⟩,
    .deepSelected 0 .api none "example" repeatedTargets (stillRun PageUrl)]

theorem isolatedService_opens_nothing :
    letI := sampleHex
    letI := plainPages
    letI := plainJson PageUrl
    let run := isolatedService.answerAll (siteFetch twoPages) ⟨(), []⟩ isolatedRequests
    run.1.map (fun answer => answer.deepRun.map (fun run => run.enriched.crawl.errors.length)) =
        [none, some 2] ∧ (run.1.map NetworkAnswer.connections).sum = 0 := by
  let _ := sampleHex
  let _ := plainPages
  let _ := plainJson PageUrl
  exact ⟨by decide +kernel, (RunningService.denied_opens_nothing
    (show isolatedService.deep.config.dataPolicy.allowsNetworkEgress = false from rfl)
    (siteFetch twoPages) ⟨(), []⟩ isolatedRequests).2.2.1⟩

end Amatl
