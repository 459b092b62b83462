import Amatl.Config.Providers
import Amatl.Deep.Stages

/-! Storage rights. A page is stored only if every provider of the search result that it
descends from may keep what it returned, through however many links it was found. -/

namespace Amatl

open UrlCrate

def ProviderConfig.storageRights (config : ProviderConfig) (name : String) : Bool :=
  ((OrdMap.get? name config.declared).map (·.storageRights)).getD false

section

variable {σ Url : Type} [UrlCrate Url]

/-- The candidates that `deep_from_search` makes of the results of a search. -/
def deepCandidates (mock : Bool) (providers : ProviderConfig) (results : List (SearchResult Url)) :
    List (DeepCandidate Url) :=
  results.map (fun result => ⟨result, !mock && result.providers.all providers.storageRights⟩)

/-- A page that a result leads to: its own, or one that a page it leads to links to. -/
inductive Descends (result : SearchResult Url) : SearchResult Url → Prop
  | self : Descends result result
  | link {page : SearchResult Url} (earlier : Descends result page) (url : Url) :
    Descends result (childResult page url)

/-- A row that was there before, but for the time of its last access. -/
def WasThere (rows : List (DocumentRow Url)) (row : DocumentRow Url) : Prop :=
  ∃ old ∈ rows, row = { old with lastAccessed := row.lastAccessed }

variable [Sha256Hex]

def HoldsPage (page : SearchResult Url) (row : DocumentRow Url) : Prop :=
  ∃ candidate fetched reading, candidate.result = page ∧
    (row.payload = documentOf candidate fetched reading ∨
      row.payload = { documentOf candidate fetched reading with content := none })

/-- Each row was there before, or holds a page that descends from a result all of whose
providers have storage rights. -/
def RightfullyStored (providers : ProviderConfig) (results : List (SearchResult Url))
    (before rows : List (DocumentRow Url)) : Prop :=
  ∀ row ∈ rows, WasThere before row ∨
    ∃ result ∈ results, (∀ provider ∈ result.providers, providers.storageRights provider = true) ∧
      ∃ page, Descends result page ∧ HoldsPage page row

/-- A page of the queue with the rights of the result that it descends from. -/
def Inherits (mock : Bool) (providers : ProviderConfig) (results : List (SearchResult Url))
    (candidate : DeepCandidate Url) : Prop :=
  ∃ result ∈ results, Descends result candidate.result ∧
    candidate.storageRights = (!mock && result.providers.all providers.storageRights)

omit [Sha256Hex] in
theorem Inherits.child {mock : Bool} {providers : ProviderConfig}
    {results : List (SearchResult Url)} {candidate : DeepCandidate Url}
    (h : Inherits mock providers results candidate) (depth : UInt8) (link : Url) :
    Inherits mock providers results (childOf candidate depth link).1 := by
  obtain ⟨result, mem, descends, rights⟩ := h
  exact ⟨result, mem, descends.link link, rights⟩

omit [UrlCrate Url] [Sha256Hex] in
theorem wasThere_touch {rows : List (DocumentRow Url)} (now : Int64) (row : DocumentRow Url)
    (h : WasThere rows row) : WasThere rows (touch now row) := by
  obtain ⟨old, mem, same⟩ := h
  exact ⟨old, mem, by rw [touch, same]⟩

variable {P : DocumentRow Url → Prop}

/-! What holds of rows whatever their access times is kept by every stage of a pass, if it
holds of the row that a candidate with rights adds. -/

omit [Sha256Hex] in
theorem revalidation_keeps (touches : ∀ now row, P row → P (touch now row)) (o : DeepOrchestrator)
    (pass : Pass) (candidate : DeepCandidate Url) {rows : List (DocumentRow Url)}
    (keeps : ∀ row ∈ rows, P row) : ∀ row ∈ (revalidation o pass candidate rows).2, P row := by
  unfold revalidation
  cases o.cache with
  | none => exact keeps
  | some policy => exact policy.latest_keeps touches _ _ _ keeps

theorem cacheHit_keeps (touches : ∀ now row, P row → P (touch now row)) (o : DeepOrchestrator)
    (pass : Pass) (candidate : DeepCandidate Url) (fetched : FetchResult Url)
    {rows : List (DocumentRow Url)} (keeps : ∀ row ∈ rows, P row) :
    ∀ row ∈ (cacheHit o pass candidate fetched rows).2, P row := by
  unfold cacheHit
  cases o.cache with
  | none => exact keeps
  | some policy => exact policy.get_keeps touches _ _ _ _ keeps

section Json

variable [DocumentJson Url]

omit [Sha256Hex] in
theorem put_without_rights (policy : DocumentCachePolicy) (access : StoreAccess)
    (rows : List (DocumentRow Url)) (document : Document Url) (extractorVersion : String) :
    policy.put access rows document extractorVersion false = (false, rows) := by
  simp [DocumentCachePolicy.put]

omit [Sha256Hex] in
theorem keep_keeps (o : DeepOrchestrator) (pass : Pass) (candidate : DeepCandidate Url)
    (document : Document Url) {s : Crawl σ Url} (keeps : ∀ row ∈ s.rows, P row)
    (added : candidate.storageRights = true → ∀ row : DocumentRow Url,
      row.payload = document ∨ row.payload = { document with content := none } → P row) :
    ∀ row ∈ (keep o pass candidate document s).rows, P row := by
  unfold keep
  cases o.cache with
  | none => exact keeps
  | some policy =>
    have stored : ∀ row ∈ (policy.put pass.putAccess s.rows document o.extractorVersion
        candidate.storageRights).2, P row := by
      cases rights : candidate.storageRights with
      | false =>
        rw [put_without_rights]
        exact keeps
      | true =>
        exact policy.put_keeps _ document _ _ keeps (fun row _ payload => added rights row payload)
    dsimp only
    split
    · exact stored
    · exact stored

variable [ScraperCrate]

def AddsRows (P : DocumentRow Url → Prop) (candidate : DeepCandidate Url) : Prop :=
  candidate.storageRights = true → ∀ row, HoldsPage candidate.result row → P row

theorem produce_keeps (o : DeepOrchestrator) (pass : Pass) {candidate : DeepCandidate Url}
    (depth : UInt8) (fetched : FetchResult Url) {s : Crawl σ Url} (keeps : ∀ row ∈ s.rows, P row)
    (added : AddsRows P candidate) :
    ∀ row ∈ (produce o pass candidate depth fetched s).rows, P row := by
  obtain ⟨budget, paid, notes, out, hread, -⟩ := readPage_frame o pass fetched s
  obtain ⟨notes', hnote⟩ := noteExtraction_frame (readPage o pass fetched s).2
    (readPage o pass fetched s).1
  obtain ⟨ranks, hexpand⟩ := expand_frame o candidate depth fetched
    ((readPage o pass fetched s).2.noteExtraction (readPage o pass fetched s).1)
  have rows : (expand o candidate depth fetched
      ((readPage o pass fetched s).2.noteExtraction (readPage o pass fetched s).1)).rows =
        s.rows := by
    rw [hexpand, hnote, hread]
  refine keep_keeps o pass candidate _ (by rw [rows]; exact keeps) (fun rights row payload => ?_)
  exact added rights row ⟨candidate, fetched, (readPage o pass fetched s).1, rfl, payload⟩

theorem accept_keeps (touches : ∀ now row, P row → P (touch now row)) (o : DeepOrchestrator)
    (pass : Pass) {candidate : DeepCandidate Url} (depth : UInt8) (known : Option (Document Url))
    (fetched : FetchResult Url) {s : Crawl σ Url} (keeps : ∀ row ∈ s.rows, P row)
    (added : AddsRows P candidate) :
    ∀ row ∈ (accept o pass candidate depth known fetched s).rows, P row := by
  have looked := cacheHit_keeps touches o pass candidate fetched keeps
  unfold accept
  split
  · cases known <;> exact keeps
  · dsimp only
    split
    · exact looked
    · exact produce_keeps o pass depth fetched looked added

theorem receive_keeps (touches : ∀ now row, P row → P (touch now row)) (o : DeepOrchestrator)
    (pass : Pass) {candidate : DeepCandidate Url} (depth : UInt8) (known : Option (Document Url))
    (result : Except FetchError (FetchResult Url)) {s : Crawl σ Url}
    (keeps : ∀ row ∈ s.rows, P row) (added : AddsRows P candidate) :
    ∀ row ∈ (receive o pass candidate depth known result s).rows, P row := by
  unfold receive
  cases result with
  | error error =>
    dsimp only
    split <;> exact keeps
  | ok fetched =>
    dsimp only
    split
    · exact keeps
    · exact accept_keeps touches o pass depth known fetched keeps added

theorem crawlPass_keeps (touches : ∀ now row, P row → P (touch now row)) (o : DeepOrchestrator)
    (fetch : Fetcher σ Url) (deadline : Nat) (pass : Pass) {s : Crawl σ Url}
    (keeps : ∀ row ∈ s.rows, P row) (added : ∀ entry ∈ s.queue, AddsRows P entry.1) :
    (crawlPass o fetch deadline pass s).All (fun t => ∀ row ∈ t.rows, P row) := by
  unfold crawlPass
  split
  · exact keeps
  · rename_i candidate depth queue head
    obtain ⟨entries, fetcher, notes, out, hconsent, -⟩ :=
      consent_frame o fetch deadline pass candidate depth { s with queue }
    dsimp only
    split
    · exact keeps
    · split
      · rw [hconsent]
        exact keeps
      · split
        · rw [hconsent]
          exact keeps
        · rw [hconsent]
          have own := added (candidate, depth) (by rw [head]; exact List.mem_cons_self)
          exact receive_keeps touches o pass depth _ _
            (revalidation_keeps touches o pass candidate keeps) own

/-- A pass takes its candidate off the queue and adds pages that it links to. -/
theorem crawlPass_inherits {mock : Bool} {providers : ProviderConfig}
    {results : List (SearchResult Url)} (o : DeepOrchestrator) (fetch : Fetcher σ Url)
    (deadline : Nat) (pass : Pass) {s : Crawl σ Url}
    (inherits : ∀ entry ∈ s.queue, Inherits mock providers results entry.1) :
    (crawlPass o fetch deadline pass s).All
      (fun t => ∀ entry ∈ t.queue, Inherits mock providers results entry.1) := by
  have rest : ∀ {candidate : DeepCandidate Url} {depth : UInt8}
      {queue : List (DeepCandidate Url × UInt8)}, s.queue = (candidate, depth) :: queue →
        ∀ entry ∈ queue, Inherits mock providers results entry.1 :=
    fun head entry mem => inherits entry (by rw [head]; exact List.mem_cons_of_mem _ mem)
  cases crawlPass_passed o fetch deadline pass s with
  | idle empty unasked after =>
    rw [after]
    exact inherits
  | late candidate depth queue notes head expired unasked after =>
    rw [after]
    exact rest head
  | refused candidate depth queue entries fetcher notes out paid head early unasked turned =>
    rcases turned with again | done
    · rw [again]
      exact rest head
    · rw [done]
      exact rest head
  | asked candidate depth queue entries fetcher notes out paid reserved rows request t head early
      reservation prepared issued received after =>
    rw [after]
    obtain ⟨links, hqueue, -, -⟩ := received.queue_eq
    have own : Inherits mock providers results candidate :=
      inherits (candidate, depth) (by rw [head]; exact List.mem_cons_self)
    intro entry mem
    rw [hqueue] at mem
    rcases List.mem_append.mp mem with earlier | new
    · exact rest head entry earlier
    · obtain ⟨link, -, rfl⟩ := List.mem_map.mp new
      exact own.child depth link

/-- What every state of a crawl has. -/
structure RightsKept (mock : Bool) (providers : ProviderConfig) (results : List (SearchResult Url))
    (before : List (DocumentRow Url)) (s : Crawl σ Url) : Prop where
  queue : ∀ entry ∈ s.queue, Inherits mock providers results entry.1
  rows : RightfullyStored providers results before s.rows

theorem RightsKept.pass {mock : Bool} {providers : ProviderConfig}
    {results : List (SearchResult Url)} {before : List (DocumentRow Url)} {s : Crawl σ Url}
    (h : RightsKept mock providers results before s) (o : DeepOrchestrator)
    (fetch : Fetcher σ Url) (deadline : Nat) (pass : Pass) :
    (crawlPass o fetch deadline pass s).All (RightsKept mock providers results before) := by
  have queue := crawlPass_inherits o fetch deadline pass h.queue
  have added : ∀ entry ∈ s.queue, AddsRows (fun row => WasThere before row ∨
      ∃ result ∈ results, (∀ provider ∈ result.providers, providers.storageRights provider = true) ∧
        ∃ page, Descends result page ∧ HoldsPage page row) entry.1 := by
    intro entry mem rights row holds
    obtain ⟨result, hresult, descends, inherited⟩ := h.queue entry mem
    rw [rights, eq_comm, Bool.and_eq_true, List.all_eq_true] at inherited
    exact .inr ⟨result, hresult, inherited.2, entry.1.result, descends, holds⟩
  have rows := crawlPass_keeps (fun now row kept =>
    kept.imp (wasThere_touch now row) id) o fetch deadline pass h.rows added
  cases turn : crawlPass o fetch deadline pass s with
  | again t =>
    rw [turn] at queue rows
    exact ⟨queue, rows⟩
  | done t =>
    rw [turn] at queue rows
    exact ⟨queue, rows⟩

omit [DocumentJson Url] [ScraperCrate] in
theorem rightsKept_start (mock : Bool) (providers : ProviderConfig)
    (results : List (SearchResult Url)) (o : DeepOrchestrator) (query : Query) (plan : String)
    (budget : DeepBudget) (rows : List (DocumentRow Url)) (entries : List (String × CacheEntry))
    (fetcher : σ) :
    RightsKept mock providers results rows
      (Crawl.start o ⟨query, plan, deepCandidates mock providers results⟩ budget rows entries
        fetcher) := by
  constructor
  · intro entry mem
    obtain ⟨candidate, hcandidate, rfl⟩ := List.mem_map.mp mem
    obtain ⟨result, hresult, rfl⟩ := List.mem_map.mp (List.mem_of_mem_take hcandidate)
    exact ⟨result, hresult, .self, rfl⟩
  · intro row mem
    exact .inl ⟨row, mem, rfl⟩

/-- After every pass of a Deep run and at its end, whatever is stored anew descends from a
result all of whose providers have storage rights. -/
theorem deep_respects_rights (o : DeepOrchestrator) (fetch : Fetcher σ Url)
    (env : Surroundings Url) (query : Query) (plan : String) (mock : Bool)
    (providers : ProviderConfig) (results : List (SearchResult Url)) (budget : DeepBudget)
    (rows : List (DocumentRow Url)) (entries : List (String × CacheEntry)) (fetcher : σ) :
    let request : DeepRequest Url := ⟨query, plan, deepCandidates mock providers results⟩
    (∀ index t, Loop.Reaches
        (fun index => crawlPass o fetch (deepDeadline env budget) (env.passes index))
        (Crawl.start o request budget rows entries fetcher) index t →
      RightfullyStored providers results rows t.rows) ∧
    RightfullyStored providers results rows
      (enrich o fetch env request budget rows entries fetcher).crawl.rows := by
  intro request
  have start := rightsKept_start mock providers results o query plan budget rows entries fetcher
  constructor
  · intro index t reached
    have kept : RightsKept mock providers results rows t := by
      refine reached.keeps (fun index s h => ?_) start
      exact h.pass o fetch (deepDeadline env budget) (env.passes index)
    exact kept.rows
  · have ended : RightsKept mock providers results rows
        (enrich o fetch env request budget rows entries fetcher).crawl := by
      apply enrich_crawl
      · intro errors notes
        exact ⟨fun entry mem => absurd mem (List.not_mem_nil), start.rows⟩
      · exact crawl_invariant (fun pass t h => h.pass o fetch _ pass) start
    exact ended.rows

end Json

end

end Amatl
