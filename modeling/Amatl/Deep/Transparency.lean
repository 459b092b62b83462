import Amatl.Deep.Visits

/-! Whether the document cache can be told from the outside. A crawl of a web that
does not change is compared with one that has no cache at all: both take the same
passes where every page that the cache stands in for has no link left to follow. -/

namespace Amatl

open UrlCrate

/-- A web that does not change: what each address is answered with, in full. -/
structure Web (Url : Type) where
  page : String → Except FetchError (FetchResult Url)
  full : ∀ {address : String} {fetched : FetchResult Url}, page address = .ok fetched →
    fetched.status ≠ 304

/-- The extractor and the renderer, which give the same bytes the same answer. -/
structure Reader where
  extract : List UInt8 → Except ExtractError ExtractionResult
  render : List UInt8 → Except RenderError (List UInt8)

/-- The reader is the one that works during every pass. -/
def Reader.Reads (reader : Reader) (passes : Nat → Pass) : Prop :=
  ∀ index, (passes index).extract = reader.extract ∧ (passes index).render = reader.render ∧
    (passes index).extractRendered = reader.extract

section

variable {Url : Type}

/-- A validator of the request matches the page: an entity tag decides before a
date does. -/
def notModified (headers : List (String × String)) (page : FetchResult Url) : Bool :=
  match OrdMap.get? "if-none-match" headers with
  | some tag => OrdMap.get? "etag" page.headersSafe == some tag
  | none =>
    match OrdMap.get? "if-modified-since" headers with
    | some date => OrdMap.get? "last-modified" page.headersSafe == some date
    | none => false

def FetchResult.unchanged (page : FetchResult Url) : FetchResult Url :=
  { page with status := 304, body := [], size := 0 }

variable [UrlCrate Url]

def Web.answer (web : Web Url) (url : Url) (headers : List (String × String)) :
    Except FetchError (FetchResult Url) :=
  match web.page (asStr url) with
  | .error error => .error error
  | .ok page => if notModified headers page then .ok page.unchanged else .ok page

def Web.fetch (web : Web Url) : Fetcher Unit Url := fun request _ =>
  ⟨web.answer request.url request.headers, 1, ()⟩

def Web.rules (web : Web Url) (origin : String) : Option RobotsRules :=
  match (parse (origin ++ "/robots.txt") : Option Url) with
  | none => none
  | some address => rulesOf (web.page (asStr address))

def RobotsDecision.allows : RobotsDecision → Bool
  | .allowed _ => true
  | _ => false

/-- Whether a page may be crawled as far as its origin is concerned. -/
def Web.consents (web : Web Url) (o : DeepOrchestrator) (url : Url) (depth : UInt8) : Bool :=
  depth == 0 || match o.robots with
    | none => true
    | some _ =>
      match originKey url with
      | none => false
      | some origin => (decisionFor (web.rules origin) url).allows

/-- The retrieved rules are those of their origins. -/
def Web.Ruled (web : Web Url) (entries : List (String × CacheEntry)) : Prop :=
  ∀ origin entry, OrdMap.get? origin entries = some entry → entry.rules = web.rules origin

variable [Sha256Hex]

def Reader.reading (reader : Reader) (o : DeepOrchestrator) (page : FetchResult Url) : Reading :=
  let plain : Reading := ⟨reader.extract page.body, Sha256Hex.hexDigest page.body, page.size, .http⟩
  match reader.extract page.body with
  | .ok _ => plain
  | .error _ =>
    if !o.rendererAvailable then plain
    else match reader.render page.body with
      | .error _ => plain
      | .ok dom =>
        ⟨reader.extract dom, Sha256Hex.hexDigest dom, dom.length.toUInt64, .rendered⟩

def Reader.text (reader : Reader) (o : DeepOrchestrator) (page : FetchResult Url) : Option String :=
  match (reader.reading o page).extraction with
  | .ok value => some value.content
  | .error _ => none

/-- The state of a crawl without a cache: what it still has to do and the texts it
reports, with their URLs. -/
structure Plain (Url : Type) where
  queue : List (DeepCandidate Url × UInt8)
  visited : List String
  texts : List (String × Option String)

def Document.told (document : Document Url) : String × Option String :=
  (asStr document.canonicalUrl, document.content)

variable [ScraperCrate]

def visitedWith (o : DeepOrchestrator) (depth : UInt8) (page : FetchResult Url)
    (visited : List String) : List String :=
  if depth < o.maxDepth then visitedAfter visited (discoverLinks page.body page.finalUrl)
  else visited

/-- One pass of a crawl without a cache. -/
def plainPass (o : DeepOrchestrator) (web : Web Url) (reader : Reader) (p : Plain Url) :
    Loop.Turn (Plain Url) :=
  match p.queue with
  | [] => .done p
  | (candidate, depth) :: queue =>
    let url := candidate.result.canonicalUrl
    if !web.consents o url depth then .again { p with queue }
    else match web.page (asStr url) with
      | .error _ => .again { p with queue }
      | .ok page => .again
        { queue := queue ++ (addedLinks o depth page p.visited).map (childOf candidate depth)
          visited := visitedWith o depth page p.visited
          texts := p.texts ++ [(asStr url, reader.text o page)] }

end

/-! The stages of a pass on such a web. -/

section

variable {Url : Type}

theorem requestHeaders_none (page : FetchResult Url) :
    notModified (requestHeaders (none : Option (Document Url))) page = false := by
  have noTag : OrdMap.get? "if-none-match" defaultHeaders = none := by decide +kernel
  have noDate : OrdMap.get? "if-modified-since" defaultHeaders = none := by decide +kernel
  simp [notModified, requestHeaders, noTag, noDate]

variable [UrlCrate Url]

theorem Web.answer_robots (web : Web Url) (robots : RobotsCache) (address : Url) :
    rulesOf (web.fetch (robots.request address) ()).result = rulesOf (web.page (asStr address)) := by
  have plain : ∀ page : FetchResult Url, notModified (robots.request address).headers page = false := by
    intro page
    have noTag : OrdMap.get? "if-none-match" [("accept", "text/plain"),
      ("user-agent", robotsUserAgent ++ "/0.1 (+safe-deep-fetch)")] = none := by decide +kernel
    have noDate : OrdMap.get? "if-modified-since" [("accept", "text/plain"),
      ("user-agent", robotsUserAgent ++ "/0.1 (+safe-deep-fetch)")] = none := by decide +kernel
    simp [notModified, RobotsCache.request, noTag, noDate]
  have asked : (robots.request address).url = address := rfl
  simp only [Web.fetch, Web.answer, asked, plain]
  cases web.page (asStr address) with
  | error error => rfl
  | ok page => rfl

theorem Web.Ruled.store {web : Web Url} {entries : List (String × CacheEntry)}
    (ruled : web.Ruled entries) (robots : RobotsCache) (origin : String) (now : Int) :
    web.Ruled (robots.store entries origin (web.rules origin) now) := by
  intro other entry h
  rw [RobotsCache.store, OrdMap.get?_insert] at h
  by_cases same : other = origin
  · rw [if_pos same] at h
    rw [← Option.some.inj h, same]
  · rw [if_neg same] at h
    split at h
    · cases h
    · exact ruled other entry h

theorem decide_ruled {web : Web Url} (robots : RobotsCache)
    {entries : List (String × CacheEntry)} (ruled : web.Ruled entries) (now : Int) (url : Url) :
    let run := robots.decide web.fetch now url entries ()
    web.Ruled run.entries ∧ run.decision =
      match originKey url with
      | none => .unavailable
      | some origin => decisionFor (web.rules origin) url := by
  unfold RobotsCache.decide
  cases horigin : originKey url with
  | none => exact ⟨ruled, rfl⟩
  | some origin =>
    simp only
    cases hcached : robots.cached entries origin now with
    | some rules =>
      refine ⟨ruled, ?_⟩
      unfold RobotsCache.cached at hcached
      cases hentry : OrdMap.get? origin entries with
      | none =>
        rw [hentry] at hcached
        cases hcached
      | some entry =>
        simp only [hentry] at hcached
        split at hcached
        · rw [← ruled origin entry hentry, Option.some.inj hcached]
        · cases hcached
    | none =>
      simp only
      cases haddress : (parse (origin ++ "/robots.txt") : Option Url) with
      | none =>
        have none : web.rules origin = none := by rw [Web.rules, haddress]
        refine ⟨none ▸ ruled.store robots origin now, ?_⟩
        rw [none]
        rfl
      | some address =>
        have rules : rulesOf (web.fetch (robots.request address) ()).result = web.rules origin := by
          rw [Web.rules, haddress, web.answer_robots]
        simp only [rules]
        exact ⟨ruled.store robots origin now, trivial⟩

/-- The states agree in everything that decides what a crawl reports. -/
structure Crawl.Like (s t : Crawl Unit Url) : Prop where
  queue : t.queue = s.queue
  visited : t.visited = s.visited
  documents : t.documents = s.documents
  rows : t.rows = s.rows
  exhausted : t.exhausted = s.exhausted

theorem consent_plain {web : Web Url} (o : DeepOrchestrator) (deadline : Nat) (pass : Pass)
    (candidate : DeepCandidate Url) (depth : UInt8) {s : Crawl Unit Url}
    (ruled : web.Ruled s.robotsEntries) :
    let consented := consent o web.fetch deadline pass candidate depth s
    consented.2.exhausted ≠ [] ∨
      (consented.1 = web.consents o candidate.result.canonicalUrl depth ∧ s.Like consented.2 ∧
        web.Ruled consented.2.robotsEntries) := by
  unfold consent Web.consents
  by_cases top : depth = 0
  · simp only [if_pos top]
    exact .inr ⟨by simp [top], ⟨rfl, rfl, rfl, rfl, rfl⟩, ruled⟩
  · simp only [if_neg top]
    cases o.robots with
    | none => exact .inr ⟨by simp, ⟨rfl, rfl, rfl, rfl, rfl⟩, ruled⟩
    | some robots =>
      obtain ⟨hentries, hdecision⟩ := decide_ruled robots ruled pass.robotsNow
        candidate.result.canonicalUrl
      have outcome : (match originKey candidate.result.canonicalUrl with
          | none => false
          | some origin =>
            (decisionFor (web.rules origin) candidate.result.canonicalUrl).allows) =
          (robots.decide web.fetch pass.robotsNow candidate.result.canonicalUrl s.robotsEntries
            s.fetcher).decision.allows := by
        rw [hdecision]
        cases originKey candidate.result.canonicalUrl with
        | none => rfl
        | some origin => rfl
      simp only [beq_eq_false_iff_ne.mpr top, Bool.false_or, outcome]
      split
      · rename_i crawlDelayMs allowed
        split
        · exact .inl (by simp [Crawl.exhaust])
        · refine .inr ⟨?_, ⟨rfl, rfl, rfl, rfl, rfl⟩, hentries⟩
          rw [allowed]
          rfl
      · rename_i refused
        refine .inr ⟨?_, ⟨rfl, rfl, rfl, rfl, rfl⟩, hentries⟩
        cases hdecided : (robots.decide web.fetch pass.robotsNow candidate.result.canonicalUrl
          s.robotsEntries s.fetcher).decision with
        | allowed crawlDelayMs => exact absurd hdecided (refused crawlDelayMs)
        | disallowed => rfl
        | delayTooLong => rfl
        | unavailable => rfl

/-- A row that was there before, whenever it was accessed since. -/
def OldRow (rows : List (DocumentRow Url)) (row : DocumentRow Url) : Prop :=
  ∃ old ∈ rows, row.canonicalUrl = old.canonicalUrl ∧ row.payload = old.payload

omit [UrlCrate Url] in
theorem OldRow.touch {rows : List (DocumentRow Url)} (now : Int64) (row : DocumentRow Url)
    (h : OldRow rows row) : OldRow rows (Amatl.touch now row) := h

omit [UrlCrate Url] in
theorem OldRow.trans {rows rows' : List (DocumentRow Url)} {row : DocumentRow Url}
    (h : OldRow rows' row) (old : ∀ row ∈ rows', OldRow rows row) : OldRow rows row := by
  obtain ⟨middle, mem, url, payload⟩ := h
  obtain ⟨first, mem', url', payload'⟩ := old middle mem
  exact ⟨first, mem', url.trans url', payload.trans payload'⟩

theorem revalidation_old (o : DeepOrchestrator) (pass : Pass) (candidate : DeepCandidate Url)
    (rows : List (DocumentRow Url)) :
    (∀ row ∈ (revalidation o pass candidate rows).2, OldRow rows row) ∧
      ∀ document, (revalidation o pass candidate rows).1 = some document →
        document.content.isSome ∧ ∃ row ∈ rows,
          row.canonicalUrl = asStr candidate.result.canonicalUrl ∧ row.payload = document := by
  have same : ∀ row ∈ rows, OldRow rows row := fun row mem => ⟨row, mem, rfl, rfl⟩
  unfold revalidation
  cases o.cache with
  | none => exact ⟨same, fun document h => by cases h⟩
  | some policy =>
    refine ⟨policy.latest_keeps OldRow.touch _ _ _ same, ?_⟩
    intro document h
    obtain ⟨found, content⟩ := Option.filter_eq_some_iff.mp h
    exact ⟨content, DocumentCachePolicy.latest_found found⟩

variable [Sha256Hex]

theorem cacheHit_old (o : DeepOrchestrator) (pass : Pass) (candidate : DeepCandidate Url)
    (fetched : FetchResult Url) (rows : List (DocumentRow Url)) :
    (∀ row ∈ (cacheHit o pass candidate fetched rows).2, OldRow rows row) ∧
      ∀ document, (cacheHit o pass candidate fetched rows).1 = some document →
        document.content.isSome ∧ ∃ row ∈ rows,
          row.canonicalUrl = asStr candidate.result.canonicalUrl ∧ row.payload = document := by
  have same : ∀ row ∈ rows, OldRow rows row := fun row mem => ⟨row, mem, rfl, rfl⟩
  unfold cacheHit
  cases o.cache with
  | none => exact ⟨same, fun document h => by cases h⟩
  | some policy =>
    refine ⟨policy.get_keeps OldRow.touch _ _ _ _ same, ?_⟩
    intro document h
    obtain ⟨found, content⟩ := Option.filter_eq_some_iff.mp h
    exact ⟨content, DocumentCachePolicy.get_found found⟩

omit [UrlCrate Url] in
/-- A page is read the same way in every pass, unless the budget runs out. -/
theorem readPage_reading {reader : Reader} {o : DeepOrchestrator} {pass : Pass}
    (reads : pass.extract = reader.extract ∧ pass.render = reader.render ∧
      pass.extractRendered = reader.extract) (page : FetchResult Url) (s : Crawl Unit Url)
    (enough : (readPage o pass page s).2.exhausted = []) :
    (readPage o pass page s).1 = reader.reading o page := by
  obtain ⟨hextract, hrender, hrendered⟩ := reads
  unfold readPage at enough ⊢
  unfold Reader.reading
  simp only [hextract, hrender, hrendered] at enough ⊢
  cases hplain : reader.extract page.body with
  | ok value => rfl
  | error error =>
    simp only [hplain] at enough ⊢
    by_cases off : (!o.rendererAvailable) = true
    · rw [if_pos off, if_pos off]
    · rw [if_neg off] at enough ⊢
      rw [if_neg off]
      split at enough
      · simp [Crawl.exhaust] at enough
      · rename_i budget hreserve
        cases hdom : reader.render page.body with
        | error error => rfl
        | ok dom =>
          simp only [hdom] at enough ⊢
          split at enough
          · simp [Crawl.exhaust] at enough
          · rfl

theorem documentOf_told (reader : Reader) (o : DeepOrchestrator) (candidate : DeepCandidate Url)
    (page : FetchResult Url) :
    (documentOf candidate page (reader.reading o page)).told =
      (asStr candidate.result.canonicalUrl, reader.text o page) := by
  unfold documentOf Document.told Reader.text
  cases (reader.reading o page).extraction with
  | ok value => rfl
  | error error => rfl

/-- A row that a page's own document was stored in. -/
def RowOf (url : String) (text : Option String) (row : DocumentRow Url) : Prop :=
  row.canonicalUrl = url ∧ asStr row.payload.canonicalUrl = url ∧
    (row.payload.content = none ∨ row.payload.content = text)

omit [Sha256Hex] in
theorem keep_rows [DocumentJson Url] (o : DeepOrchestrator) (pass : Pass)
    (candidate : DeepCandidate Url) (document : Document Url) (s : Crawl Unit Url) :
    ∀ row ∈ (keep o pass candidate document s).rows, OldRow s.rows row ∨
      RowOf (asStr document.canonicalUrl) document.content row := by
  have same : ∀ row ∈ s.rows, OldRow s.rows row ∨
      RowOf (asStr document.canonicalUrl) document.content row :=
    fun row mem => .inl ⟨row, mem, rfl, rfl⟩
  unfold keep
  cases o.cache with
  | none => exact same
  | some policy =>
    have stored := policy.put_keeps pass.putAccess document o.extractorVersion
      candidate.storageRights same (fun row url payload => .inr ⟨url, by
        rcases payload with whole | bare
        · exact ⟨by rw [whole], .inr (by rw [whole])⟩
        · exact ⟨by rw [bare], .inl (by rw [bare])⟩⟩)
    simp only
    split
    · exact stored
    · exact stored

variable [ScraperCrate] [DocumentJson Url]

theorem produce_plain {reader : Reader} {o : DeepOrchestrator} {pass : Pass}
    (reads : pass.extract = reader.extract ∧ pass.render = reader.render ∧
      pass.extractRendered = reader.extract) (candidate : DeepCandidate Url) (depth : UInt8)
    (page : FetchResult Url) (s : Crawl Unit Url)
    (enough : (produce o pass candidate depth page s).exhausted = []) :
    let t := produce o pass candidate depth page s
    let url := asStr candidate.result.canonicalUrl
    t.queue = s.queue ++ (addedLinks o depth page s.visited).map (childOf candidate depth) ∧
      t.visited = visitedWith o depth page s.visited ∧ t.robotsEntries = s.robotsEntries ∧
      t.documents.map Document.told = s.documents.map Document.told ++
        [(url, reader.text o page)] ∧
      ∀ row ∈ t.rows, OldRow s.rows row ∨ RowOf url (reader.text o page) row := by
  intro t url
  have hproduce : t = (keep o pass candidate
      (documentOf candidate page (readPage o pass page s).1)
      (expand o candidate depth page
        ((readPage o pass page s).2.noteExtraction (readPage o pass page s).1))).addDocument
          (documentOf candidate page (readPage o pass page s).1) := rfl
  obtain ⟨budget, paid, notes, out, hread, -⟩ := readPage_frame o pass page s
  obtain ⟨notes', hnote⟩ := noteExtraction_frame (readPage o pass page s).2
    (readPage o pass page s).1
  obtain ⟨ranks, hexpand⟩ := expand_frame o candidate depth page
    ((readPage o pass page s).2.noteExtraction (readPage o pass page s).1)
  obtain ⟨rows, notes'', hkeep⟩ := keep_frame o pass candidate
    (documentOf candidate page (readPage o pass page s).1) (expand o candidate depth page
      ((readPage o pass page s).2.noteExtraction (readPage o pass page s).1))
  have hrows := keep_rows o pass candidate (documentOf candidate page (readPage o pass page s).1)
    (expand o candidate depth page
      ((readPage o pass page s).2.noteExtraction (readPage o pass page s).1))
  have hexhausted : t.exhausted = (readPage o pass page s).2.exhausted := by
    rw [hproduce, hkeep, hexpand, hnote]
    rfl
  have hreading := readPage_reading reads page s (hexhausted.symm.trans enough)
  have htold := documentOf_told reader o candidate page
  rw [← hreading] at htold
  have hkept : (expand o candidate depth page
      ((readPage o pass page s).2.noteExtraction (readPage o pass page s).1)).rows = s.rows := by
    rw [hexpand, hnote, hread]
  refine ⟨?_, ?_, ?_, ?_, ?_⟩
  · rw [hproduce, hkeep, hexpand, hnote, hread]
    rfl
  · rw [hproduce, hkeep, hexpand, hnote, hread]
    rfl
  · rw [hproduce, hkeep, hexpand, hnote, hread]
    rfl
  · rw [hproduce, hkeep, hexpand, hnote, Crawl.addDocument, List.map_append, List.map_singleton,
      htold, hread]
  · intro row mem
    have origin := hrows row (by rw [hproduce] at mem; exact mem)
    rw [hkept] at origin
    have content : (documentOf candidate page (readPage o pass page s).1).content =
        reader.text o page := congrArg Prod.snd htold
    have address : asStr (documentOf candidate page (readPage o pass page s).1).canonicalUrl =
        url := congrArg Prod.fst htold
    rw [content, address] at origin
    exact origin

/-- The cache stands in for a page: the origin confirms the stored document, or the
body's document is stored. -/
def standsIn (o : DeepOrchestrator) (pass : Pass) (candidate : DeepCandidate Url)
    (page : FetchResult Url) (rows : List (DocumentRow Url)) : Bool :=
  let known := revalidation o pass candidate rows
  notModified (requestHeaders known.1) page || (cacheHit o pass candidate page known.2).1.isSome

/-- What the request for a page leads to on a web that does not change. -/
inductive Acquired (o : DeepOrchestrator) (web : Web Url) (reader : Reader) (pass : Pass)
    (candidate : DeepCandidate Url) (depth : UInt8) (s t : Crawl Unit Url) : Prop
  | exhausted (short : t.exhausted ≠ [])
  | failed (error : FetchError)
      (missing : web.page (asStr candidate.result.canonicalUrl) = .error error)
      (queue : t.queue = s.queue) (visited : t.visited = s.visited)
      (told : t.documents.map Document.told = s.documents.map Document.told)
      (rows : ∀ row ∈ t.rows, OldRow s.rows row)
  | served (page : FetchResult Url) (row : DocumentRow Url) (text : String)
      (there : web.page (asStr candidate.result.canonicalUrl) = .ok page)
      (stands : standsIn o pass candidate page s.rows = true) (stored : row ∈ s.rows)
      (address : row.canonicalUrl = asStr candidate.result.canonicalUrl)
      (content : row.payload.content = some text)
      (queue : t.queue = s.queue) (visited : t.visited = s.visited)
      (told : t.documents.map Document.told = s.documents.map Document.told ++
        [(asStr row.payload.canonicalUrl, some text)])
      (rows : ∀ row ∈ t.rows, OldRow s.rows row)
  | produced (page : FetchResult Url)
      (there : web.page (asStr candidate.result.canonicalUrl) = .ok page)
      (queue : t.queue = s.queue ++
        (addedLinks o depth page s.visited).map (childOf candidate depth))
      (visited : t.visited = visitedWith o depth page s.visited)
      (told : t.documents.map Document.told = s.documents.map Document.told ++
        [(asStr candidate.result.canonicalUrl, reader.text o page)])
      (rows : ∀ row ∈ t.rows, OldRow s.rows row ∨
        RowOf (asStr candidate.result.canonicalUrl) (reader.text o page) row)

theorem produce_acquired {web : Web Url} {reader : Reader} {o : DeepOrchestrator} {pass : Pass}
    (reads : pass.extract = reader.extract ∧ pass.render = reader.render ∧
      pass.extractRendered = reader.extract) (candidate : DeepCandidate Url) (depth : UInt8)
    {page : FetchResult Url} (s s' : Crawl Unit Url) (queue : s'.queue = s.queue)
    (visited : s'.visited = s.visited) (documents : s'.documents = s.documents)
    (rows : ∀ row ∈ s'.rows, OldRow s.rows row)
    (there : web.page (asStr candidate.result.canonicalUrl) = .ok page) :
    Acquired o web reader pass candidate depth s (produce o pass candidate depth page s') := by
  by_cases enough : (produce o pass candidate depth page s').exhausted = []
  · obtain ⟨hqueue, hvisited, -, htold, hadded⟩ :=
      produce_plain reads candidate depth page s' enough
    rw [queue, visited] at hqueue
    rw [visited] at hvisited
    rw [documents] at htold
    refine .produced page there hqueue hvisited htold ?_
    intro row mem
    rcases hadded row mem with old | new
    · exact .inl (old.trans rows)
    · exact .inr new
  · exact .exhausted enough

theorem receive_acquired {web : Web Url} {reader : Reader} {o : DeepOrchestrator} {pass : Pass}
    (reads : pass.extract = reader.extract ∧ pass.render = reader.render ∧
      pass.extractRendered = reader.extract) (candidate : DeepCandidate Url) (depth : UInt8)
    (s s' : Crawl Unit Url) (queue : s'.queue = s.queue) (visited : s'.visited = s.visited)
    (documents : s'.documents = s.documents)
    (rows : s'.rows = (revalidation o pass candidate s.rows).2) :
    let known := (revalidation o pass candidate s.rows).1
    Acquired o web reader pass candidate depth s (receive o pass candidate depth known
      (web.answer candidate.result.canonicalUrl (requestHeaders known)) s') := by
  intro known
  obtain ⟨hold, hknown⟩ := revalidation_old o pass candidate s.rows
  rw [← rows] at hold
  cases hpage : web.page (asStr candidate.result.canonicalUrl) with
  | error error =>
    have hanswer : web.answer candidate.result.canonicalUrl (requestHeaders known) =
        .error error := by rw [Web.answer, hpage]
    rw [hanswer, receive]
    by_cases released : error.released = true
    · simp only [if_pos released]
      exact .failed error hpage queue visited (congrArg _ documents) hold
    · simp only [if_neg released]
      exact .failed error hpage queue visited (congrArg _ documents) hold
  | ok page =>
    have whole := web.full hpage
    by_cases same : notModified (requestHeaders known) page = true
    · -- the origin confirms a document, so there is one
      have hanswer : web.answer candidate.result.canonicalUrl (requestHeaders known) =
          .ok page.unchanged := by
        rw [Web.answer, hpage]
        exact if_pos same
      have stands : standsIn o pass candidate page s.rows = true := by
        simp only [standsIn, Bool.or_eq_true]
        exact .inl same
      obtain ⟨document, hdocument⟩ : ∃ document, known = some document := by
        cases hrevalidation : known with
        | some document => exact ⟨document, rfl⟩
        | none =>
          rw [hrevalidation, requestHeaders_none] at same
          cases same
      obtain ⟨hcontent, row, mem, address, payload⟩ := hknown document hdocument
      obtain ⟨text, htext⟩ := Option.isSome_iff_exists.mp hcontent
      rw [hanswer, receive]
      split
      · exact .exhausted (by simp [Crawl.exhaust])
      · have status : page.unchanged.status = 304 := rfl
        rw [accept.eq_def, if_pos status, hdocument]
        refine .served page row text hpage stands mem address (payload ▸ htext) queue visited ?_ hold
        rw [payload, ← documents]
        simp [Crawl.addDocument, Document.told, htext]
    · have hanswer : web.answer candidate.result.canonicalUrl (requestHeaders known) =
          .ok page := by
        rw [Web.answer, hpage]
        exact if_neg same
      obtain ⟨hold', hhit⟩ := cacheHit_old o pass candidate page s'.rows
      have hrows : ∀ row ∈ (cacheHit o pass candidate page s'.rows).2, OldRow s.rows row :=
        fun row mem => (hold' row mem).trans hold
      rw [hanswer, receive]
      split
      · exact .exhausted (by simp [Crawl.exhaust])
      · rw [accept.eq_def, if_neg whole]
        simp only
        cases hfound : (cacheHit o pass candidate page s'.rows).1 with
        | some document =>
          have stands : standsIn o pass candidate page s.rows = true := by
            simp only [standsIn, ← rows, hfound, Option.isSome_some, Bool.or_true]
          obtain ⟨hcontent, row, mem, address, payload⟩ := hhit document hfound
          obtain ⟨old, mem', address', payload'⟩ := hold row mem
          obtain ⟨text, htext⟩ := Option.isSome_iff_exists.mp hcontent
          refine .served page old text hpage stands mem' (address' ▸ address)
            (payload' ▸ payload ▸ htext) queue visited ?_ hrows
          rw [← payload', payload, ← documents]
          simp [Crawl.addDocument, Document.told, htext]
        | none =>
          exact produce_acquired reads candidate depth s _ queue visited documents hrows hpage

theorem acquire_acquired {web : Web Url} {reader : Reader} {o : DeepOrchestrator} {pass : Pass}
    (reads : pass.extract = reader.extract ∧ pass.render = reader.render ∧
      pass.extractRendered = reader.extract) (deadline : Nat) (candidate : DeepCandidate Url)
    (depth : UInt8) (remaining : UInt64) {s s' : Crawl Unit Url} (like : s.Like s') :
    Acquired o web reader pass candidate depth s
      (acquire o web.fetch deadline pass candidate depth remaining s') := by
  have known : revalidation o pass candidate s'.rows = revalidation o pass candidate s.rows := by
    rw [like.rows]
  unfold acquire
  simp only [known]
  exact receive_acquired reads candidate depth s _ like.queue like.visited like.documents rfl

/-- What one pass does on a web that does not change, unless something runs out. -/
inductive WebPassed (o : DeepOrchestrator) (web : Web Url) (reader : Reader) (pass : Pass)
    (s : Crawl Unit Url) (turn : Loop.Turn (Crawl Unit Url)) : Prop
  | exhausted (short : turn.All (fun t => t.exhausted ≠ []))
  | idle (empty : s.queue = []) (after : turn = .done s)
  | refused (candidate : DeepCandidate Url) (depth : UInt8)
      (queue : List (DeepCandidate Url × UInt8)) (t : Crawl Unit Url)
      (head : s.queue = (candidate, depth) :: queue)
      (refusal : web.consents o candidate.result.canonicalUrl depth = false)
      (like : ({ s with queue } : Crawl Unit Url).Like t) (ruled : web.Ruled t.robotsEntries)
      (after : turn = .again t)
  | asked (candidate : DeepCandidate Url) (depth : UInt8)
      (queue : List (DeepCandidate Url × UInt8)) (t : Crawl Unit Url)
      (head : s.queue = (candidate, depth) :: queue)
      (consent : web.consents o candidate.result.canonicalUrl depth = true)
      (acquired : Acquired o web reader pass candidate depth { s with queue } t)
      (enough : t.exhausted = []) (ruled : web.Ruled t.robotsEntries)
      (after : turn = .again t)

omit [Sha256Hex] [DocumentJson Url] in
theorem Received.later {σ : Type} {o : DeepOrchestrator} {candidate : DeepCandidate Url}
    {depth : UInt8} {result : Except FetchError (FetchResult Url)} {s t : Crawl σ Url}
    (h : Received o candidate depth result s t) :
    t.robotsEntries = s.robotsEntries ∧ (t.exhausted = [] → s.exhausted = []) := by
  cases h with
  | failed error errors notes failure after =>
    rw [after]
    exact ⟨rfl, id⟩
  | answered fetched budget paid notes out documents rows ranks visited links answer spent few
      unpaid frontier after =>
    rw [after]
    exact ⟨rfl, fun enough => (List.append_eq_nil_iff.mp enough).1⟩

theorem crawlPass_webPassed {web : Web Url} {reader : Reader} {o : DeepOrchestrator} {pass : Pass}
    (reads : pass.extract = reader.extract ∧ pass.render = reader.render ∧
      pass.extractRendered = reader.extract) (deadline : Nat) {s : Crawl Unit Url}
    (ruled : web.Ruled s.robotsEntries) :
    WebPassed o web reader pass s (crawlPass o web.fetch deadline pass s) := by
  unfold crawlPass
  split
  · rename_i empty
    exact .idle empty rfl
  · rename_i candidate depth queue head
    simp only
    split
    · exact .exhausted (by simp [Crawl.exhaust, Loop.Turn.All])
    · have hconsented := consent_plain o deadline pass candidate depth
        (s := { s with queue }) ruled
      generalize hc : consent o web.fetch deadline pass candidate depth { s with queue } =
        consented at hconsented ⊢
      split
      · rename_i refusal
        rcases hconsented with short | ⟨hconsent, like, hruled⟩
        · exact .exhausted short
        · refine .refused candidate depth queue consented.2 head ?_ like hruled rfl
          rw [← hconsent]
          simpa using refusal
      · rename_i agreed
        split
        · exact .exhausted (by simp [Crawl.exhaust, Loop.Turn.All])
        · rename_i remaining budget hreserve
          -- only a pass that leaves nothing exhausted has something to say
          have hlater : Received o candidate depth _ _ (acquire o web.fetch deadline pass candidate
              depth remaining { consented.2 with budget }) := receive_received o pass candidate depth
            _ _ _
          by_cases enough : (acquire o web.fetch deadline pass candidate depth remaining
              { consented.2 with budget }).exhausted = []
          · have before := hlater.later.2 enough
            rcases hconsented with short | ⟨hconsent, like, hruled⟩
            · exact absurd before short
            · refine .asked candidate depth queue _ head ?_ ?_ enough ?_ rfl
              · rw [← hconsent]
                simpa using agreed
              · refine acquire_acquired reads deadline candidate depth remaining ?_
                exact ⟨like.queue, like.visited, like.documents, like.rows, like.exhausted⟩
              · rw [hlater.later.1]
                exact hruled
          · exact .exhausted enough

/-- Stored texts are those of their pages. -/
def Web.Stored (web : Web Url) (reader : Reader) (o : DeepOrchestrator)
    (rows : List (DocumentRow Url)) : Prop :=
  ∀ row ∈ rows, ∀ text, row.payload.content = some text →
    asStr row.payload.canonicalUrl = row.canonicalUrl ∧
      ∃ page, web.page row.canonicalUrl = .ok page ∧ reader.text o page = some text

omit [ScraperCrate] [DocumentJson Url] in
theorem Web.Stored.of_old {web : Web Url} {reader : Reader} {o : DeepOrchestrator}
    {rows rows' : List (DocumentRow Url)} (stored : web.Stored reader o rows)
    (old : ∀ row ∈ rows', OldRow rows row) : web.Stored reader o rows' := by
  intro row mem text content
  obtain ⟨before, mem', url, payload⟩ := old row mem
  rw [url, payload]
  exact stored before mem' text (payload ▸ content)

omit [ScraperCrate] [DocumentJson Url] in
theorem Web.Stored.of_produced {web : Web Url} {reader : Reader} {o : DeepOrchestrator}
    {rows rows' : List (DocumentRow Url)} {url : String} {page : FetchResult Url}
    (stored : web.Stored reader o rows) (there : web.page url = .ok page)
    (added : ∀ row ∈ rows', OldRow rows row ∨ RowOf url (reader.text o page) row) :
    web.Stored reader o rows' := by
  intro row mem text content
  rcases added row mem with ⟨before, mem', address, payload⟩ | ⟨address, own, nothing | own'⟩
  · rw [address, payload]
    exact stored before mem' text (payload ▸ content)
  · rw [nothing] at content
    cases content
  · rw [address]
    exact ⟨own, page, there, own' ▸ content⟩

/-- A crawl and one without a cache have the same to do and have told the same. -/
structure Mirrors (o : DeepOrchestrator) (web : Web Url) (reader : Reader) (s : Crawl Unit Url)
    (p : Plain Url) : Prop where
  queue : p.queue = s.queue
  visited : p.visited = s.visited
  told : p.texts = s.documents.map Document.told
  stored : web.Stored reader o s.rows
  ruled : web.Ruled s.robotsEntries

/-- A page above the last level that the cache stands in for has no link left to
follow. -/
def Complete (o : DeepOrchestrator) (web : Web Url) (pass : Pass) (s : Crawl Unit Url) : Prop :=
  ∀ candidate depth queue page, s.queue = (candidate, depth) :: queue → depth < o.maxDepth →
    web.consents o candidate.result.canonicalUrl depth = true →
    web.page (asStr candidate.result.canonicalUrl) = .ok page →
    standsIn o pass candidate page s.rows = true →
    ∀ link ∈ discoverLinks page.body page.finalUrl, asStr link ∈ s.visited

omit [Sha256Hex] [ScraperCrate] [DocumentJson Url] in
theorem follow_visited {visited : List String} {links : List Url}
    (seen : ∀ link ∈ links, asStr link ∈ visited) :
    freshLinks visited links = [] ∧ visitedAfter visited links = visited := by
  induction links with
  | nil => exact ⟨rfl, rfl⟩
  | cons link links ih =>
    have first : OrdMap.setContains (asStr link) visited = true :=
      OrdMap.setContains_iff.mpr (seen link List.mem_cons_self)
    obtain ⟨fresh, after⟩ := ih (fun other mem => seen other (List.mem_cons_of_mem _ mem))
    refine ⟨?_, ?_⟩
    · rw [freshLinks, if_pos first, fresh]
    · rw [visitedAfter, List.foldl_cons, if_pos first]
      exact after

/-- Every pass is one of a crawl without a cache, unless something runs out. -/
theorem crawlPass_mirrors {web : Web Url} {reader : Reader} {o : DeepOrchestrator} {pass : Pass}
    (reads : pass.extract = reader.extract ∧ pass.render = reader.render ∧
      pass.extractRendered = reader.extract) (deadline : Nat) {s : Crawl Unit Url} {p : Plain Url}
    (h : Mirrors o web reader s p) (complete : Complete o web pass s) :
    (crawlPass o web.fetch deadline pass s).All (fun t => t.exhausted ≠ []) ∨
      Loop.Turn.Related (Mirrors o web reader) (crawlPass o web.fetch deadline pass s)
        (plainPass o web reader p) := by
  cases crawlPass_webPassed reads deadline (s := s) h.ruled with
  | exhausted short => exact .inl short
  | idle empty after =>
    rw [after, plainPass, h.queue, empty]
    exact .inr (.done h)
  | refused candidate depth queue t head refusal like ruled after =>
    rw [after, plainPass, h.queue, head]
    simp only [refusal, Bool.not_false, if_true]
    refine .inr (.again ⟨like.queue.symm, ?_, ?_, ?_, ruled⟩)
    · rw [like.visited]
      exact h.visited
    · rw [like.documents]
      exact h.told
    · rw [like.rows]
      exact h.stored
  | asked candidate depth queue t head consent acquired enough ruled after =>
    refine .inr ?_
    rw [after, plainPass, h.queue, head]
    simp only [consent, Bool.not_true, Bool.false_eq_true, if_false]
    cases acquired with
    | exhausted short => exact absurd enough short
    | failed error missing hqueue hvisited htold hrows =>
      rw [missing]
      exact .again ⟨hqueue.symm, h.visited.trans hvisited.symm, h.told.trans htold.symm,
        h.stored.of_old hrows, ruled⟩
    | served page row text there stands stored address content hqueue hvisited htold hrows =>
      rw [there]
      obtain ⟨own, page', there', htext⟩ := h.stored row stored text content
      rw [address] at own there'
      obtain rfl : page = page' := Except.ok.inj (there.symm.trans there')
      have nothing : addedLinks o depth page p.visited = [] ∧
          visitedWith o depth page p.visited = p.visited := by
        unfold addedLinks visitedWith
        by_cases deeper : depth < o.maxDepth
        · rw [if_pos deeper, if_pos deeper]
          refine follow_visited ?_
          rw [h.visited]
          exact complete candidate depth queue page head deeper consent there stands
        · rw [if_neg deeper, if_neg deeper]
          exact ⟨rfl, rfl⟩
      refine .again ⟨?_, ?_, ?_, h.stored.of_old hrows, ruled⟩
      · simp only [nothing.1, List.map_nil, List.append_nil]
        exact hqueue.symm
      · rw [nothing.2, hvisited]
        exact h.visited
      · rw [htold, h.told, own, htext]
    | produced page there hqueue hvisited htold hrows =>
      rw [there]
      refine .again ⟨?_, ?_, ?_, h.stored.of_produced there hrows, ruled⟩
      · rw [hqueue, h.visited]
      · rw [hvisited, h.visited]
      · rw [htold, h.told]

omit [ScraperCrate] [DocumentJson Url] in
theorem standsIn_row {o : DeepOrchestrator} {pass : Pass} {candidate : DeepCandidate Url}
    {page : FetchResult Url} {rows : List (DocumentRow Url)}
    (h : standsIn o pass candidate page rows = true) :
    ∃ row ∈ rows, row.canonicalUrl = asStr candidate.result.canonicalUrl ∧
      row.payload.content.isSome := by
  obtain ⟨hold, hknown⟩ := revalidation_old o pass candidate rows
  obtain ⟨hold', hhit⟩ := cacheHit_old o pass candidate page (revalidation o pass candidate rows).2
  unfold standsIn at h
  rcases Bool.or_eq_true_iff.mp h with same | hit
  · cases hrevalidation : (revalidation o pass candidate rows).1 with
    | none =>
      rw [hrevalidation, requestHeaders_none] at same
      cases same
    | some document =>
      obtain ⟨content, row, mem, address, payload⟩ := hknown document hrevalidation
      exact ⟨row, mem, address, payload ▸ content⟩
  · obtain ⟨document, hfound⟩ := Option.isSome_iff_exists.mp hit
    obtain ⟨content, row, mem, address, payload⟩ := hhit document hfound
    obtain ⟨old, mem', address', payload'⟩ := hold row mem
    exact ⟨old, mem', address' ▸ address, payload' ▸ payload ▸ content⟩

/-- What a run that started with an empty cache knows of its rows: the links of
their pages are visited, or none is followed any more. The queue is ordered by
depth. -/
structure Explored (o : DeepOrchestrator) (web : Web Url) (s : Crawl Unit Url) : Prop where
  ordered : s.queue.Pairwise (fun a b => a.2.toNat ≤ b.2.toNat ∧ b.2.toNat ≤ a.2.toNat + 1)
  explored : ∀ row ∈ s.rows, ∀ page, row.payload.content.isSome →
    web.page row.canonicalUrl = .ok page →
    (∀ link ∈ discoverLinks page.body page.finalUrl, asStr link ∈ s.visited) ∨
      ∀ entry ∈ s.queue, o.maxDepth ≤ entry.2

omit [DocumentJson Url] in
theorem Explored.complete {o : DeepOrchestrator} {web : Web Url} {s : Crawl Unit Url}
    (h : Explored o web s) (pass : Pass) : Complete o web pass s := by
  intro candidate depth queue page head deeper _ there stands
  obtain ⟨row, mem, address, content⟩ := standsIn_row stands
  rcases h.explored row mem page content (address ▸ there) with visited | last
  · exact visited
  · have deep := last (candidate, depth) (by rw [head]; exact List.mem_cons_self)
    exact absurd deeper (UInt8.not_lt.mpr deep)

omit [Sha256Hex] [DocumentJson Url] in
theorem Explored.skip {o : DeepOrchestrator} {web : Web Url} {s t : Crawl Unit Url}
    {entry : DeepCandidate Url × UInt8} {queue : List (DeepCandidate Url × UInt8)}
    (h : Explored o web s) (head : s.queue = entry :: queue) (hqueue : t.queue = queue)
    (hvisited : t.visited = s.visited) (hrows : ∀ row ∈ t.rows, OldRow s.rows row) :
    Explored o web t := by
  have hordered := h.ordered
  rw [head] at hordered
  refine ⟨hqueue ▸ hordered.of_cons, ?_⟩
  intro row mem page content there
  obtain ⟨old, mem', address, payload⟩ := hrows row mem
  rw [hvisited, hqueue]
  rcases h.explored old mem' page (payload ▸ content) (address ▸ there) with visited | last
  · exact .inl visited
  · exact .inr (fun other later => last other (by rw [head]; exact List.mem_cons_of_mem _ later))

omit [Sha256Hex] [DocumentJson Url] in
theorem Explored.read {o : DeepOrchestrator} {web : Web Url} {s t : Crawl Unit Url}
    {candidate : DeepCandidate Url} {depth : UInt8} {queue : List (DeepCandidate Url × UInt8)}
    {page : FetchResult Url} {text : Option String} (h : Explored o web s)
    (head : s.queue = (candidate, depth) :: queue)
    (there : web.page (asStr candidate.result.canonicalUrl) = .ok page)
    (hqueue : t.queue = queue ++
      (addedLinks o depth page s.visited).map (childOf candidate depth))
    (hvisited : t.visited = visitedWith o depth page s.visited)
    (hrows : ∀ row ∈ t.rows, OldRow s.rows row ∨
      RowOf (asStr candidate.result.canonicalUrl) text row) : Explored o web t := by
  have hordered := h.ordered
  rw [head, List.pairwise_cons] at hordered
  obtain ⟨hhead, hrest⟩ := hordered
  by_cases deeper : depth < o.maxDepth
  · have below := UInt8.lt_iff_toNat_lt.mp deeper
    have hdepth : (depth + 1).toNat = depth.toNat + 1 := by
      have top := o.maxDepth.toNat_lt
      rw [UInt8.toNat_add]
      simp only [UInt8.toNat_one]
      omega
    have children : ∀ child ∈ (addedLinks o depth page s.visited).map (childOf candidate depth),
        child.2.toNat = depth.toNat + 1 := by
      intro child mem
      obtain ⟨link, -, rfl⟩ := List.mem_map.mp mem
      exact hdepth
    rw [visitedWith, if_pos deeper] at hvisited
    refine ⟨?_, ?_⟩
    · rw [hqueue, List.pairwise_append]
      refine ⟨hrest, ?_, ?_⟩
      · refine List.pairwise_of_forall_mem_list ?_
        intro a ha b hb
        have first := children a ha
        have second := children b hb
        omega
      · intro a ha b hb
        have first := hhead a ha
        have second := children b hb
        simp only at first
        omega
    · intro row mem page' content there'
      refine .inl ?_
      rw [hvisited]
      intro link linked
      rw [mem_visitedAfter]
      rcases hrows row mem with ⟨old, mem', address, payload⟩ | ⟨address, -, -⟩
      · rcases h.explored old mem' page' (payload ▸ content) (address ▸ there') with visited | last
        · exact .inl (visited link linked)
        · have deep := last (candidate, depth) (by rw [head]; exact List.mem_cons_self)
          exact absurd deeper (UInt8.not_lt.mpr deep)
      · rw [address] at there'
        obtain rfl : page = page' := Except.ok.inj (there.symm.trans there')
        exact .inr ⟨link, linked, rfl⟩
  · have none : addedLinks o depth page s.visited = [] := by rw [addedLinks, if_neg deeper]
    rw [none, List.map_nil, List.append_nil] at hqueue
    rw [visitedWith, if_neg deeper] at hvisited
    refine ⟨hqueue ▸ hrest, ?_⟩
    intro row mem page' content there'
    refine .inr ?_
    rw [hqueue]
    intro entry later
    have deep := (hhead entry later).1
    have last := UInt8.le_iff_toNat_le.mp (UInt8.not_lt.mp deeper)
    exact UInt8.le_iff_toNat_le.mpr (last.trans deep)

theorem crawlPass_explored {web : Web Url} {reader : Reader} {o : DeepOrchestrator} {pass : Pass}
    (reads : pass.extract = reader.extract ∧ pass.render = reader.render ∧
      pass.extractRendered = reader.extract) (deadline : Nat) {s : Crawl Unit Url}
    (ruled : web.Ruled s.robotsEntries) (h : Explored o web s) :
    (crawlPass o web.fetch deadline pass s).All (fun t => t.exhausted ≠ []) ∨
      (crawlPass o web.fetch deadline pass s).All (Explored o web) := by
  cases crawlPass_webPassed (o := o) reads deadline ruled with
  | exhausted short => exact .inl short
  | idle empty after =>
    rw [after]
    exact .inr h
  | refused candidate depth queue t head refusal like ruled' after =>
    rw [after]
    refine .inr (h.skip head like.queue like.visited ?_)
    rw [like.rows]
    exact fun row mem => ⟨row, mem, rfl, rfl⟩
  | asked candidate depth queue t head consent acquired enough ruled' after =>
    rw [after]
    refine .inr ?_
    cases acquired with
    | exhausted short => exact absurd enough short
    | failed error missing hqueue hvisited htold hrows => exact h.skip head hqueue hvisited hrows
    | served page row text there stands stored address content hqueue hvisited htold hrows =>
      exact h.skip head hqueue hvisited hrows
    | produced page there hqueue hvisited htold hrows =>
      exact h.read head there hqueue hvisited hrows

theorem crawlPass_short (o : DeepOrchestrator) (fetch : Fetcher Unit Url) (deadline : Nat)
    (pass : Pass) (s : Crawl Unit Url) (short : s.exhausted ≠ []) :
    (crawlPass o fetch deadline pass s).All (fun t => t.exhausted ≠ []) := by
  cases crawlPass_passed o fetch deadline pass s with
  | idle empty unasked after =>
    rw [after]
    exact short
  | late candidate depth queue notes head expired unasked after =>
    rw [after]
    simp [Loop.Turn.All]
  | refused candidate depth queue entries fetcher notes out paid head early unasked turned =>
    rcases turned with again | done
    · rw [again]
      exact fun enough => short (List.append_eq_nil_iff.mp enough).1
    · rw [done]
      exact fun enough => short (List.append_eq_nil_iff.mp enough).1
  | asked candidate depth queue entries fetcher notes out paid reserved rows request u head
      early reservation prepared issued received after =>
    rw [after]
    intro enough
    exact short (List.append_eq_nil_iff.mp (received.later.2 enough)).1

theorem crawlPass_visited (o : DeepOrchestrator) (fetch : Fetcher Unit Url) (deadline : Nat)
    (pass : Pass) (s : Crawl Unit Url) {key : String} (seen : key ∈ s.visited) :
    (crawlPass o fetch deadline pass s).All (fun t => key ∈ t.visited) := by
  cases crawlPass_passed o fetch deadline pass s with
  | idle empty unasked after =>
    rw [after]
    exact seen
  | late candidate depth queue notes head expired unasked after =>
    rw [after]
    exact seen
  | refused candidate depth queue entries fetcher notes out paid head early unasked turned =>
    rcases turned with again | done
    · rw [again]
      exact seen
    · rw [done]
      exact seen
  | asked candidate depth queue entries fetcher notes out paid reserved rows request u head
      early reservation prepared issued received after =>
    rw [after]
    cases received with
    | failed error errors notes' failure hafter =>
      rw [hafter]
      exact seen
    | answered fetched budget paid' notes' out' documents rows' ranks visited links answer spent few
        unpaid frontier hafter =>
      rw [hafter]
      rcases frontier with ⟨-, rfl⟩ | ⟨-, -, rfl⟩
      · exact seen
      · exact mem_visitedAfter.mpr (.inl seen)

def plainCrawl (o : DeepOrchestrator) (web : Web Url) (reader : Reader) (request : DeepRequest Url) :
    Option (Plain Url) :=
  let queue := (request.candidates.take o.topK).map (fun candidate => (candidate, 0))
  Loop.run (fun _ => plainPass o web reader) (queueWeight o queue + 1) 0
    ⟨queue, OrdMap.setOf (queue.map (fun entry => asStr entry.1.result.canonicalUrl)), []⟩

omit [ScraperCrate] [DocumentJson Url] in
theorem start_mirrors {o : DeepOrchestrator} {web : Web Url} {reader : Reader}
    (request : DeepRequest Url) (budget : DeepBudget) {rows : List (DocumentRow Url)}
    (stored : web.Stored reader o rows) :
    let queue := (request.candidates.take o.topK).map (fun candidate => (candidate, 0))
    Mirrors o web reader (Crawl.start o request budget rows [] ())
      ⟨queue, OrdMap.setOf (queue.map (fun entry => asStr entry.1.result.canonicalUrl)), []⟩ :=
  ⟨rfl, rfl, rfl, stored, fun origin entry h => by cases h⟩

/-- A crawl that nothing cut short tells what one without a cache tells, where
every pass it takes is complete. -/
theorem crawl_mirrors {o : DeepOrchestrator} {web : Web Url} {reader : Reader}
    {env : Surroundings Url} (reads : reader.Reads env.passes) (request : DeepRequest Url)
    (budget : DeepBudget) {rows : List (DocumentRow Url)} (stored : web.Stored reader o rows)
    (complete : ∀ index s,
      Loop.Reaches (fun index => crawlPass o web.fetch (deepDeadline env budget) (env.passes index))
        (Crawl.start o request budget rows [] ()) index s → Complete o web (env.passes index) s)
    (enough : (crawl o web.fetch (deepDeadline env budget) env.passes
      (Crawl.start o request budget rows [] ())).exhausted = []) :
    ∃ p, plainCrawl o web reader request = some p ∧
      Mirrors o web reader (crawl o web.fetch (deepDeadline env budget) env.passes
        (Crawl.start o request budget rows [] ())) p :=
  Loop.run_simulated
    (fun index s short => crawlPass_short o web.fetch _ (env.passes index) s short)
    (fun index s _ reached now =>
      crawlPass_mirrors (reads index) _ now (complete index s reached))
    .start (start_mirrors request budget stored) (run_eq_crawl o web.fetch _ env.passes _)
    (fun short => short enough)

/-- The first run of all, whose cache is empty, is always complete. -/
theorem crawl_mirrors_cold {o : DeepOrchestrator} {web : Web Url} {reader : Reader}
    {env : Surroundings Url} (reads : reader.Reads env.passes) (request : DeepRequest Url)
    (budget : DeepBudget)
    (enough : (crawl o web.fetch (deepDeadline env budget) env.passes
      (Crawl.start o request budget [] [] ())).exhausted = []) :
    ∃ p, plainCrawl o web reader request = some p ∧
      Mirrors o web reader (crawl o web.fetch (deepDeadline env budget) env.passes
        (Crawl.start o request budget [] [] ())) p := by
  have level : Explored o web (Crawl.start o request budget [] [] ()) := by
    refine ⟨?_, fun row mem => by cases mem⟩
    refine List.pairwise_of_forall_mem_list ?_
    intro a ha b hb
    obtain ⟨c, -, rfl⟩ := List.mem_map.mp ha
    obtain ⟨d, -, rfl⟩ := List.mem_map.mp hb
    exact ⟨Nat.le_refl 0, Nat.zero_le 1⟩
  have empty : web.Stored reader o [] := fun row mem => by cases mem
  have step : ∀ index s p,
      Loop.Reaches (fun index => crawlPass o web.fetch (deepDeadline env budget) (env.passes index))
        (Crawl.start o request budget [] [] ()) index s →
      Mirrors o web reader s p ∧ Explored o web s →
      (crawlPass o web.fetch (deepDeadline env budget) (env.passes index) s).All
          (fun t => t.exhausted ≠ []) ∨
        Loop.Turn.Related (fun s p => Mirrors o web reader s p ∧ Explored o web s)
          (crawlPass o web.fetch (deepDeadline env budget) (env.passes index) s)
          (plainPass o web reader p) := by
    intro index s p _ now
    rcases crawlPass_explored (o := o) (reads index) (deepDeadline env budget) now.1.ruled now.2
      with short | explored
    · exact .inl short
    · rcases crawlPass_mirrors (reads index) (deepDeadline env budget) now.1
        (now.2.complete (env.passes index)) with short | related
      · exact .inl short
      · exact .inr (related.and_left explored)
  obtain ⟨p, hrun, hp, -⟩ := Loop.run_simulated
    (fun index s short => crawlPass_short o web.fetch _ (env.passes index) s short) step
    .start ⟨start_mirrors request budget empty, level⟩
    (run_eq_crawl o web.fetch (deepDeadline env budget) env.passes _) (fun short => short enough)
  exact ⟨p, hrun, hp⟩

/-- The documents of two runs are for the same URLs, with the same content. -/
def SameDocuments (left right : Enriched Unit Url) : Prop :=
  ∀ told, told ∈ left.crawl.documents.map Document.told ↔
    told ∈ right.crawl.documents.map Document.told

/-- The documents of a run do not tell whether its cache was filled by an earlier
one, where no pass is served a page with a link that was not visited. -/
theorem enrich_transparent (o : DeepOrchestrator) (web : Web Url) (reader : Reader)
    (env env' : Surroundings Url) (reads : reader.Reads env.passes)
    (reads' : reader.Reads env'.passes) (request : DeepRequest Url) (budget : DeepBudget) :
    let cold := enrich o web.fetch env request budget [] [] ()
    let warm := enrich o web.fetch env' request budget cold.crawl.rows [] ()
    cold.crawl.exhausted = [] → warm.crawl.exhausted = [] →
    (∀ index s, Loop.Reaches
        (fun index => crawlPass o web.fetch (deepDeadline env' budget) (env'.passes index))
        (Crawl.start o request budget cold.crawl.rows [] ()) index s →
      Complete o web (env'.passes index) s) →
    SameDocuments warm cold := by
  intro cold warm enough enough' complete
  by_cases mismatch : request.planNormalizedQuery ≠ request.query.normalizedQuery
  · have none : cold.crawl.documents = [] := by simp [cold, enrich, mismatch, refuse, Crawl.start]
    have none' : warm.crawl.documents = [] := by simp [warm, enrich, mismatch, refuse, Crawl.start]
    rw [SameDocuments, none, none']
    simp
  · by_cases empty : request.candidates.isEmpty = true
    · have none : cold.crawl.documents = [] := by
        simp [cold, enrich, mismatch, empty, refuse, Crawl.start, Crawl.degrade]
      have none' : warm.crawl.documents = [] := by
        simp [warm, enrich, mismatch, empty, refuse, Crawl.start, Crawl.degrade]
      rw [SameDocuments, none, none']
      simp
    · have hcold : cold.crawl = crawl o web.fetch (deepDeadline env budget) env.passes
          (Crawl.start o request budget [] [] ()) := by simp [cold, enrich, mismatch, empty]
      have hwarm : warm.crawl = crawl o web.fetch (deepDeadline env' budget) env'.passes
          (Crawl.start o request budget cold.crawl.rows [] ()) := by
        simp [warm, enrich, mismatch, empty]
      obtain ⟨p, hp, mirrors⟩ := crawl_mirrors_cold reads request budget (hcold ▸ enough)
      rw [← hcold] at mirrors
      obtain ⟨p', hp', mirrors'⟩ := crawl_mirrors reads' request budget mirrors.stored complete
        (hwarm ▸ enough')
      rw [← hwarm] at mirrors'
      obtain rfl : p = p' := Option.some.inj (hp.symm.trans hp')
      intro told
      rw [← mirrors.told, ← mirrors'.told]

end

def siteWeb (body : String → Option String) : Web PageUrl where
  page address :=
    match body address, (parse address : Option PageUrl) with
    | some body, some url =>
      let bytes := body.toUTF8.data.toList
      .ok
        { finalUrl := url, status := 200, headersSafe := [], contentType := none
          body := bytes, size := bytes.length.toUInt64, redirectChain := []
          retrievedAt := "2024-01-01T00:00:00Z" }
    | _, _ => .error .network
  full := by
    intro address fetched h
    split at h
    · cases h
      exact of_decide_eq_true rfl
    · cases h

def plainReader : Reader where
  extract := (passAt 0).extract
  render := (passAt 0).render

def readRun : Surroundings PageUrl :=
  { stillRun PageUrl with
    passes := fun _ => { passAt 0 with extractRendered := plainReader.extract } }

def cachingLevel : DeepOrchestrator :=
  { oneLevel with cache := some ⟨true, 3600, 100, 100000, true, none⟩ }

/-- The warm run finds the first page in its cache and does not look at its links. -/
theorem twoPages_hidden :
    letI := sampleHex
    letI := plainPages
    letI := plainJson PageUrl
    let web := siteWeb twoPages
    let budget := DeepBudget.new 5 1000 2 0 5 10000
    let cold := enrich cachingLevel web.fetch readRun (pagesRequest [homePage]) budget
      [] [] ()
    let warm := enrich cachingLevel web.fetch readRun (pagesRequest [homePage]) budget
      cold.crawl.rows [] ()
    plainReader.Reads readRun.passes ∧ cold.crawl.exhausted = [] ∧
      warm.crawl.exhausted = [] ∧
      cold.crawl.documents.map Document.told =
        [("https://example.com/", some "<a href=/b>b</a>"), ("https://example.com/b", some "end")] ∧
      warm.crawl.documents.map Document.told =
        [("https://example.com/", some "<a href=/b>b</a>")] ∧
      ¬ SameDocuments warm cold := by
  let _ := sampleHex
  let _ := plainPages
  let _ := plainJson PageUrl
  intro web budget cold warm
  have runs : cold.crawl.exhausted = [] ∧ warm.crawl.exhausted = [] ∧
      cold.crawl.documents.map Document.told =
        [("https://example.com/", some "<a href=/b>b</a>"), ("https://example.com/b", some "end")] ∧
      warm.crawl.documents.map Document.told =
        [("https://example.com/", some "<a href=/b>b</a>")] := by decide +kernel
  obtain ⟨enough, enough', first, second⟩ := runs
  refine ⟨fun index => ⟨rfl, rfl, rfl⟩, enough, enough', first, second, ?_⟩
  intro same
  have there := (same ("https://example.com/b", some "end")).mpr (by rw [first]; simp)
  rw [second] at there
  revert there
  decide

theorem twoPages_links {address : String} {page : FetchResult PageUrl} {link : PageUrl} :
    letI := plainPages
    (siteWeb twoPages).page address = .ok page →
      link ∈ discoverLinks page.body page.finalUrl → link = secondPage := by
  let _ := plainPages
  intro there linked
  by_cases home : address = "https://example.com/"
  · subst home
    have found : (siteWeb twoPages).page "https://example.com/" = .ok
        { finalUrl := homePage, status := 200, headersSafe := [], contentType := none
          body := "<a href=/b>b</a>".toUTF8.data.toList, size := 16, redirectChain := []
          retrievedAt := "2024-01-01T00:00:00Z" } := by decide +kernel
    have links : discoverLinks "<a href=/b>b</a>".toUTF8.data.toList homePage = [secondPage] := by
      decide +kernel
    cases Except.ok.inj (there.symm.trans found)
    rw [links] at linked
    exact List.mem_singleton.mp linked
  · by_cases second : address = "https://example.com/b"
    · subst second
      have found : (siteWeb twoPages).page "https://example.com/b" = .ok
          { finalUrl := secondPage, status := 200, headersSafe := [], contentType := none
            body := "end".toUTF8.data.toList, size := 3, redirectChain := []
            retrievedAt := "2024-01-01T00:00:00Z" } := by decide +kernel
      have links : discoverLinks "end".toUTF8.data.toList secondPage = [] := by decide +kernel
      cases Except.ok.inj (there.symm.trans found)
      rw [links] at linked
      cases linked
    · have nothing : twoPages address = none := by simp [twoPages, home, second]
      simp only [siteWeb, nothing] at there
      cases there

/-- Both pages are candidates, so that no link is left to follow. -/
theorem twoPages_transparent :
    letI := sampleHex
    letI := plainPages
    letI := plainJson PageUrl
    let web := siteWeb twoPages
    let budget := DeepBudget.new 5 1000 2 0 5 10000
    let request := pagesRequest [homePage, secondPage]
    let cold := enrich cachingLevel web.fetch readRun request budget [] [] ()
    let warm := enrich cachingLevel web.fetch readRun request budget cold.crawl.rows [] ()
    cold.crawl.rows.length = 2 ∧ SameDocuments warm cold := by
  let _ := sampleHex
  let _ := plainPages
  let _ := plainJson PageUrl
  intro web budget request cold warm
  have runs : cold.crawl.rows.length = 2 ∧ cold.crawl.exhausted = [] ∧
      warm.crawl.exhausted = [] := by decide +kernel
  obtain ⟨rows, enough, enough'⟩ := runs
  refine ⟨rows, enrich_transparent cachingLevel web plainReader readRun readRun
    (fun index => ⟨rfl, rfl, rfl⟩) (fun index => ⟨rfl, rfl, rfl⟩) request budget enough enough' ?_⟩
  intro index s reached candidate depth queue page head deeper agreed there stands link linked
  obtain rfl := twoPages_links there linked
  exact reached.keeps
    (fun index s seen => crawlPass_visited _ _ _ (readRun.passes index) s seen) (by decide +kernel)

end Amatl
