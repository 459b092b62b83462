import Amatl.Deep.Budget
import Amatl.Deep.Documents
import Amatl.Deep.Robots
import Amatl.Lib.Loop

/-! The crawl loop of `enrich`. The queue, the visited links, the budget, the
response so far and everything the run shares with its surroundings (the document
cache, the `robots.txt` entries, the fetcher) are one state; what the clocks, the
extractor and the renderer do during a pass is given by the environment. -/

namespace Amatl

open UrlCrate

/-- SHA-256 of bytes in lower-case hexadecimal, from the `sha2` crate. -/
class Sha256Hex where
  hexDigest : List UInt8 → String

@[reducible] def sampleHex : Sha256Hex where
  hexDigest bytes := (([
    ("https://example.com/", "0f115db062b7c0dd030b16878c99dea5c354b49dc37b38eb8846179c7783e9d7"),
    ("https://example.com/b", "d7fe568b31ae0fb9ee8a1311409b521aeb6a1b50f459bdf15c6f4a3f29dde53b"),
    ("<a href=#top>top</a>", "76bb7f9d6118864f8c76577a796f2a5ccdbf78d7b4fdc40c6e694995d267a6da"),
    ("http://example.com/b", "042d7954292c1f4368071906f2dba5a9f850d1890ae5f7fdccb4b6af09f77d39"),
    ("<a href=http://example.com/b>b</a>",
      "77bb848675b64dd3f92f77685e7ea310179b7eeda5d987939656bc330e13e01b"),
    ("<a href=https://example.com/b>b</a>",
      "3808f687a6fd12d40131ce90e3abeb57dc2942d28077f63b91c4a0d459c0a8c4"),
    ("<a href=/b>b</a>", "109a59a2a0f31697092df2309b3af67c94690ca3ccdc7cca883ea27684a243f4"),
    ("end", "361e48d0308f20e32dba5fb56328baf18d72ef0ccb43b84f5c262d2a6a1fc6c8")].find?
      (fun entry => entry.1.toUTF8.data.toList == bytes)).map Prod.snd).getD ""

/-- The `scraper` crate: the `href` of every `a[href]` element of a page, in
document order. -/
class ScraperCrate where
  hrefs : String → List String

def hrefsIn : Nat → List Char → List String
  | 0, _ => []
  | fuel + 1, text =>
    match Text.splitOnce "<a href=".toList text with
    | none => []
    | some (_, rest) => String.ofList (rest.takeWhile (· != '>')) :: hrefsIn fuel rest

@[reducible] def plainPages : ScraperCrate where
  hrefs html := hrefsIn html.length html.toList

inductive ExtractError where
  | unavailable | timeout | outputLimit | failed | invalidOutput
  deriving DecidableEq, Repr

structure ExtractionResult where
  content : String
  title : Option String
  author : Option String
  publishedAt : Option String
  metadata : List (String × String)
  extractorUsed : String
  deriving DecidableEq, Repr

inductive RenderError where
  | unavailable | timeout | blocked | failed | atCapacity
  deriving DecidableEq, Repr

def RenderError.text : RenderError → String
  | .unavailable => "renderer_unavailable"
  | .timeout => "renderer_timeout"
  | .blocked => "renderer_blocked"
  | .failed => "renderer_failed"
  | .atCapacity => "renderer_at_capacity"

structure DeepCandidate (Url : Type) where
  result : SearchResult Url
  storageRights : Bool
  deriving DecidableEq

/-- The settings of an orchestrator; its budget is part of the state. -/
structure DeepOrchestrator where
  extractorVersion : String
  rendererAvailable : Bool
  cache : Option DocumentCachePolicy
  timeoutMs : UInt64
  perFetchBytes : UInt64
  maxRedirects : UInt32
  topK : Nat
  maxDepth : UInt8
  robots : Option RobotsCache
  deriving DecidableEq

/-- What happens during one pass. Instants are nanoseconds of the monotonic
clock. -/
structure Pass where
  /-- The reading at the top of the pass. -/
  now : Nat
  robotsNow : Int
  /-- When a request for `robots.txt` is made, if one is. -/
  robotsAt : Nat
  /-- The reading that a crawl delay is added to. -/
  delayNow : Nat
  /-- When the page is requested, if it is. -/
  fetchAt : Nat
  latestAccess : StoreAccess
  getAccess : StoreAccess
  putAccess : StoreAccess
  extract : List UInt8 → Except ExtractError ExtractionResult
  render : List UInt8 → Except RenderError (List UInt8)
  extractRendered : List UInt8 → Except ExtractError ExtractionResult

/-- A request that was made, when, and how many connections it opened. -/
structure Issued (Url : Type) where
  moment : Nat
  request : TimedRequest Url
  connections : Nat

/-- Where the budget, a limit or the deadline cut the run short: at the top of a
pass, before a crawl delay, before a fetch, after an answer, before a rendering
and after one. -/
inductive Exhaustion where
  | time | crawlDelay | fetch | answer | browser | rendering
  deriving DecidableEq, Repr

/-- The state between two passes. The last four fields record what the run did:
the pages and the `robots.txt` files it asked for, what was consumed and what ran
out. -/
structure Crawl (σ Url : Type) where
  queue : List (DeepCandidate Url × UInt8)
  visited : List String
  originalRanks : List (String × Rank)
  budget : DeepBudget
  documents : List (Document Url)
  errors : List CompositeError
  degradations : List Degradation
  rows : List (DocumentRow Url)
  robotsEntries : List (String × CacheEntry)
  fetcher : σ
  pages : List (Issued Url)
  robotsFiles : List (Issued Url)
  consumed : List (UInt64 × UInt32)
  exhausted : List Exhaustion

def deepDegradation (code message : String) : Degradation where
  code
  component := "deep"
  message

def Crawl.degrade {σ Url : Type} (s : Crawl σ Url) (code message : String) : Crawl σ Url :=
  { s with degradations := s.degradations ++ [deepDegradation code message] }

def Crawl.exhaust {σ Url : Type} (s : Crawl σ Url) (what : Exhaustion) (code message : String) :
    Crawl σ Url :=
  { s.degrade code message with exhausted := s.exhausted ++ [what] }

def Crawl.addDocument {σ Url : Type} (s : Crawl σ Url) (document : Document Url) : Crawl σ Url :=
  { s with documents := s.documents ++ [document] }

def fetchCode : FetchError → String
  | .egressDenied => "egress_denied"
  | .blockedUrl _ | .addressBlocked => "fetch_blocked"
  | .byteLimit => "byte_limit"
  | .redirectLimit => "redirect_limit"
  | .timeout => "fetch_timeout"
  | _ => "fetch_failed"

def extractCode : ExtractError → String
  | .unavailable => "extractor_unavailable"
  | .timeout => "extractor_timeout"
  | _ => "extractor_failed"

/-- The errors after which a reserved fetch is given back. -/
def FetchError.released : FetchError → Bool
  | .egressDenied | .blockedUrl _ | .addressBlocked | .headerBlocked => true
  | _ => false

def defaultHeaders : List (String × String) :=
  [("accept", "text/html,application/xhtml+xml,text/plain;q=0.9"),
    ("user-agent", "AMATL/0.1 (+safe-deep-fetch)")]

def millis (ms : UInt64) : Nat := ms.toNat * 1000000

section

variable {σ Url : Type} [UrlCrate Url]

def fetchError (result : SearchResult Url) (error : FetchError) : CompositeError where
  code := fetchCode error
  message := "Deep fetch failed for " ++ result.domain
  providers := result.providers
  recoverable := true

def searchResultId [Sha256Hex] (result : SearchResult Url) : String :=
  Sha256Hex.hexDigest (asStr result.canonicalUrl).toUTF8.data.toList

def discoverLinks [ScraperCrate] (body : List UInt8) (base : Url) : List Url :=
  match Utf8.fromUtf8 body with
  | none => []
  | some html =>
    (((ScraperCrate.hrefs (String.ofList html)).filterMap (join base)).filter (fun url =>
      (scheme url == "http" || scheme url == "https") && hostStr url == hostStr base)).take 32

def childResult (parent : SearchResult Url) (url : Url) : SearchResult Url :=
  let url := setFragment none url
  { rank := parent.rank, title := none, originalUrl := url, canonicalUrl := url,
    domain := (hostStr url).getD "", snippet := none, providers := parent.providers,
    publishedAt := none, status := parent.status }

/-- The origin's consent to a discovered link, waited for if it asks for a delay.
`false` leaves the link out. -/
def consent (o : DeepOrchestrator) (fetch : Fetcher σ Url) (deadline : Nat) (pass : Pass)
    (candidate : DeepCandidate Url) (depth : UInt8) (s : Crawl σ Url) : Bool × Crawl σ Url :=
  if depth = 0 then (true, s)
  else match o.robots with
    | none => (true, s)
    | some robots =>
      let run := robots.decide fetch pass.robotsNow candidate.result.canonicalUrl s.robotsEntries
        s.fetcher
      let s :=
        { s with
          robotsEntries := run.entries
          fetcher := run.fetcher
          robotsFiles := s.robotsFiles ++
            run.asked.toList.map (fun asked => ⟨pass.robotsAt, asked.1, asked.2⟩) }
      match run.decision with
      | .allowed crawlDelayMs =>
        if 0 < crawlDelayMs ∧ deadline ≤ pass.delayNow + millis crawlDelayMs then
          (false, s.exhaust .crawlDelay "robots_crawl_delay_too_long"
            "Declared crawl delay exceeded the remaining Deep deadline")
        else (true, s)
      | refusal =>
        (false, s.degrade refusal.asStr ("Discovered link was not crawled: the origin's " ++
          "robots.txt refused it or could not be read"))

/-- The cached document that may be revalidated, and the rows after the lookup. -/
def revalidation (o : DeepOrchestrator) (pass : Pass) (candidate : DeepCandidate Url)
    (rows : List (DocumentRow Url)) : Option (Document Url) × List (DocumentRow Url) :=
  match o.cache with
  | none => (none, rows)
  | some policy =>
    let found := policy.latest pass.latestAccess rows (asStr candidate.result.canonicalUrl)
      o.extractorVersion
    (found.1.filter (fun document => document.content.isSome), found.2)

def requestHeaders (document : Option (Document Url)) : List (String × String) :=
  match document with
  | none => defaultHeaders
  | some document =>
    let headers := match OrdMap.get? "http_etag" document.metadata with
      | some etag => OrdMap.insert "if-none-match" etag defaultHeaders
      | none => defaultHeaders
    match OrdMap.get? "http_last_modified" document.metadata with
    | some lastModified => OrdMap.insert "if-modified-since" lastModified headers
    | none => headers

/-- The time left at the reading of the top of the pass, in whole milliseconds. -/
def fetchTimeout (o : DeepOrchestrator) (deadline : Nat) (pass : Pass) : UInt64 :=
  UInt64.ofNat (min ((deadline - pass.now) / 1000000) o.timeoutMs.toNat)

def fetchRequest (o : DeepOrchestrator) (deadline : Nat) (pass : Pass)
    (candidate : DeepCandidate Url) (remaining : UInt64) (redirects : UInt32)
    (document : Option (Document Url)) : TimedRequest Url where
  url := candidate.result.canonicalUrl
  timeoutMs := fetchTimeout o deadline pass
  maxBytes := min remaining o.perFetchBytes
  maxRedirects := min redirects o.maxRedirects
  headers := requestHeaders document

/-- The text of a page: extracted from its bytes or, where that fails and a
renderer is there, from the rendered page. -/
structure Reading where
  extraction : Except ExtractError ExtractionResult
  contentHash : String
  size : UInt64
  fetchMethod : FetchMethod

variable [Sha256Hex]

def readPage (o : DeepOrchestrator) (pass : Pass) (fetched : FetchResult Url) (s : Crawl σ Url) :
    Reading × Crawl σ Url :=
  let plain : Reading := ⟨pass.extract fetched.body, Sha256Hex.hexDigest fetched.body, fetched.size,
    .http⟩
  match plain.extraction with
  | .ok _ => (plain, s)
  | .error _ =>
    if !o.rendererAvailable then (plain, s)
    else match s.budget.reserveBrowser with
      | (.error cause, _) => (plain, s.exhaust .browser cause.text "Browser budget exhausted")
      | (.ok (), budget) =>
        let s := { s with budget }
        match pass.render fetched.body with
        | .error error =>
          let s := if error = .unavailable then { s with budget := s.budget.releaseBrowser } else s
          (plain, s.degrade error.text
            "Optional renderer failed; the superficial Document is retained")
        | .ok dom =>
          match s.budget.consumeFetch dom.length.toUInt64 0 with
          | (.error _, _) =>
            (plain, s.exhaust .rendering "renderer_blocked"
              "Rendered output exceeded the remaining Deep budget")
          | (.ok (), budget) =>
            (⟨pass.extractRendered dom, Sha256Hex.hexDigest dom, dom.length.toUInt64, .rendered⟩,
              { s with budget, consumed := s.consumed ++ [(dom.length.toUInt64, 0)] })

def addMetadata (fetched : FetchResult Url) (providers : List String)
    (metadata : List (String × String)) : List (String × String) :=
  let metadata := match OrdMap.get? "etag" fetched.headersSafe with
    | some etag => OrdMap.insert "http_etag" etag metadata
    | none => metadata
  let metadata := match OrdMap.get? "last-modified" fetched.headersSafe with
    | some lastModified => OrdMap.insert "http_last_modified" lastModified metadata
    | none => metadata
  OrdMap.insert "search_providers" (",".intercalate providers) metadata

def documentOf (candidate : DeepCandidate Url) (fetched : FetchResult Url) (reading : Reading) :
    Document Url :=
  let base : Document Url :=
    { searchResultId := searchResultId candidate.result
      originalUrl := candidate.result.originalUrl
      canonicalUrl := candidate.result.canonicalUrl
      finalUrl := fetched.finalUrl
      contentHash := reading.contentHash
      fetchMethod := reading.fetchMethod
      extractorUsed := none
      contentType := fetched.contentType
      size := reading.size
      retrievedAt := fetched.retrievedAt
      status := .superficial
      content := none
      title := candidate.result.title
      author := none
      publishedAt := candidate.result.publishedAt
      metadata := addMetadata fetched candidate.result.providers [] }
  match reading.extraction with
  | .error _ => base
  | .ok value =>
    { base with
      extractorUsed := some value.extractorUsed
      status := .enriched
      content := some value.content
      title := value.title
      author := value.author
      publishedAt := value.publishedAt
      metadata := addMetadata fetched candidate.result.providers value.metadata }

def Crawl.noteExtraction (s : Crawl σ Url) (reading : Reading) : Crawl σ Url :=
  match reading.extraction with
  | .ok _ => s
  | .error error => s.degrade (extractCode error)
      "Advanced extraction is unavailable; a superficial Document was retained"

def enqueue (candidate : DeepCandidate Url) (depth : UInt8) (s : Crawl σ Url) (link : Url) :
    Crawl σ Url :=
  if OrdMap.setContains (asStr link) s.visited then s
  else
    let child := childResult candidate.result link
    { s with
      visited := OrdMap.setInsert (asStr link) s.visited
      originalRanks := OrdMap.insert (searchResultId child) child.rank s.originalRanks
      queue := s.queue ++ [(⟨child, candidate.storageRights⟩, depth + 1)] }

variable [ScraperCrate]

def expand (o : DeepOrchestrator) (candidate : DeepCandidate Url) (depth : UInt8)
    (fetched : FetchResult Url) (s : Crawl σ Url) : Crawl σ Url :=
  if depth < o.maxDepth then
    (discoverLinks fetched.body fetched.finalUrl).foldl (enqueue candidate depth) s
  else s

variable [DocumentJson Url]

def keep (o : DeepOrchestrator) (pass : Pass) (candidate : DeepCandidate Url)
    (document : Document Url) (s : Crawl σ Url) : Crawl σ Url :=
  match o.cache with
  | none => s
  | some policy =>
    let stored := policy.put pass.putAccess s.rows document o.extractorVersion
      candidate.storageRights
    let s := { s with rows := stored.2 }
    if !stored.1 && candidate.storageRights then
      s.degrade "document_cache_write_failed"
        "Document cache write was skipped or failed; current Document is unaffected"
    else s

/-- A page that neither the cache nor the origin vouched for: it is read, its
links are queued, and its document is stored and reported. -/
def produce (o : DeepOrchestrator) (pass : Pass) (candidate : DeepCandidate Url) (depth : UInt8)
    (fetched : FetchResult Url) (s : Crawl σ Url) : Crawl σ Url :=
  let read := readPage o pass fetched s
  let document := documentOf candidate fetched read.1
  let s := expand o candidate depth fetched (read.2.noteExtraction read.1)
  (keep o pass candidate document s).addDocument document

/-- The document cached for exactly this body, and the rows after the lookup. -/
def cacheHit (o : DeepOrchestrator) (pass : Pass) (candidate : DeepCandidate Url)
    (fetched : FetchResult Url) (rows : List (DocumentRow Url)) :
    Option (Document Url) × List (DocumentRow Url) :=
  match o.cache with
  | none => (none, rows)
  | some policy =>
    let found := policy.get pass.getAccess rows (asStr candidate.result.canonicalUrl)
      (Sha256Hex.hexDigest fetched.body) o.extractorVersion
    (found.1.filter (fun document => document.content.isSome), found.2)

/-- What a paid answer leads to. -/
def accept (o : DeepOrchestrator) (pass : Pass) (candidate : DeepCandidate Url) (depth : UInt8)
    (known : Option (Document Url)) (fetched : FetchResult Url) (s : Crawl σ Url) : Crawl σ Url :=
  if fetched.status = 304 then
    match known with
    | some document =>
      s.addDocument { document with
        finalUrl := fetched.finalUrl, retrievedAt := fetched.retrievedAt }
    | none => s.degrade "unexpected_not_modified"
        "Origin returned 304 without a reusable cached Document"
  else
    let hit := cacheHit o pass candidate fetched s.rows
    let s := { s with rows := hit.2 }
    match hit.1 with
    | some document => s.addDocument document
    | none => produce o pass candidate depth fetched s

/-- The answer to a page request: errors give the fetch back or not, an answer
is paid for. -/
def receive (o : DeepOrchestrator) (pass : Pass) (candidate : DeepCandidate Url) (depth : UInt8)
    (known : Option (Document Url)) (result : Except FetchError (FetchResult Url))
    (s : Crawl σ Url) : Crawl σ Url :=
  match result with
  | .error error =>
    let s := if error.released then { s with budget := s.budget.releaseFetch } else s
    { s with errors := s.errors ++ [fetchError candidate.result error] }.degrade (fetchCode error)
      "Fetch failed; the SearchResult remains valid"
  | .ok fetched =>
    match s.budget.consumeFetch fetched.size fetched.redirectChain.length.toUInt32 with
    | (.error cause, _) =>
      s.exhaust .answer cause.text "Fetch result exceeded remaining Deep budget"
    | (.ok (), budget) =>
      accept o pass candidate depth known fetched
        { s with
          budget
          consumed := s.consumed ++ [(fetched.size, fetched.redirectChain.length.toUInt32)] }

/-- The request for a page whose fetch is reserved, and what follows. -/
def acquire (o : DeepOrchestrator) (fetch : Fetcher σ Url) (deadline : Nat) (pass : Pass)
    (candidate : DeepCandidate Url) (depth : UInt8) (remaining : UInt64) (s : Crawl σ Url) :
    Crawl σ Url :=
  let known := revalidation o pass candidate s.rows
  let request := fetchRequest o deadline pass candidate remaining
    s.budget.snapshot.remainingRedirects known.1
  let answer := fetch request s.fetcher
  receive o pass candidate depth known.1 answer.result
    { s with
      rows := known.2
      fetcher := answer.fetcher
      pages := s.pages ++ [⟨pass.fetchAt, request, answer.connections⟩] }

/-- One pass of the loop. -/
def crawlPass (o : DeepOrchestrator) (fetch : Fetcher σ Url) (deadline : Nat) (pass : Pass)
    (s : Crawl σ Url) : Loop.Turn (Crawl σ Url) :=
  match s.queue with
  | [] => .done s
  | (candidate, depth) :: queue =>
    let s := { s with queue }
    if deadline ≤ pass.now then
      .done (s.exhaust .time "time_exhausted" "Deep global deadline was exhausted")
    else
      let consented := consent o fetch deadline pass candidate depth s
      let s := consented.2
      if !consented.1 then .again s
      else match s.budget.reserveFetch with
        | (.error cause, _) => .done (s.exhaust .fetch cause.text "Deep resource budget exhausted")
        | (.ok remaining, budget) =>
          .again (acquire o fetch deadline pass candidate depth remaining { s with budget })

end

end Amatl
