import Amatl.Deep.Fetcher
import Amatl.Lib.F64
import Amatl.Lib.Utf8

/-! `robots.txt` for the links that a crawl discovers: the rules of an origin,
what they say of a path, and the cache that retrieves them. -/

namespace Amatl

open UrlCrate

def robotsUserAgent : String := "amatl"

def maximumCrawlDelayMs : UInt64 := 5000

inductive RobotsDecision where
  | allowed (crawlDelayMs : UInt64)
  | disallowed
  | delayTooLong
  | unavailable
  deriving DecidableEq, Repr

def RobotsDecision.asStr : RobotsDecision → String
  | .allowed _ => "allowed"
  | .disallowed => "robots_disallowed"
  | .delayTooLong => "robots_crawl_delay_too_long"
  | .unavailable => "robots_unavailable"

/-- Path patterns with whether they allow, in declaration order. -/
structure RobotsRules where
  rules : List (List Char × Bool)
  crawlDelayMs : Option UInt64
  empty : Bool
  deriving DecidableEq, Repr

def RobotsRules.allowAll : RobotsRules where
  rules := []
  crawlDelayMs := none
  empty := true

structure RobotsGroup where
  rules : List (List Char × Bool)
  crawlDelayMs : Option UInt64
  touched : Bool
  deriving DecidableEq, Repr

def RobotsGroup.default : RobotsGroup where
  rules := []
  crawlDelayMs := none
  touched := false

/-- A float as an unsigned integer: `as` cuts at both ends. -/
def asU64 : F64 → UInt64
  | .finite value => UInt64.ofNat (min ⌊value⌋.toNat (2 ^ 64 - 1))
  | .infinity negative => if negative then 0 else UInt64.ofNat (2 ^ 64 - 1)
  | .nan => 0

/-- `f64::round` of a float that is not negative: halves go up. -/
def roundHalfUp : F64 → F64
  | .finite value => .finite ⌊value + 1 / 2⌋
  | other => other

def parseDelayMs (value : List Char) : Option UInt64 :=
  match F64.parse value with
  | some (.finite seconds) =>
    if seconds < 0 then none else some (asU64 (roundHalfUp (F64.ofRat (seconds * 1000))))
  | _ => none

def RobotsGroup.apply (group : RobotsGroup) (field value : List Char) : RobotsGroup :=
  let group :=
    if field = "allow".toList then
      if value.isEmpty then group else { group with rules := group.rules ++ [(value, true)] }
    else if field = "disallow".toList then
      if value.isEmpty then group else { group with rules := group.rules ++ [(value, false)] }
    else { group with crawlDelayMs := parseDelayMs value }
  { group with touched := true }

/-- The parser between two lines. -/
structure RobotsParser where
  specific : RobotsGroup
  wildcard : RobotsGroup
  current : List (List Char)
  collectingAgents : Bool
  deriving DecidableEq

def RobotsParser.start : RobotsParser where
  specific := .default
  wildcard := .default
  current := []
  collectingAgents := false

def RobotsParser.applyTo (userAgent field value : List Char) (p : RobotsParser)
    (agent : List Char) : RobotsParser :=
  if agent = userAgent.map Text.toAsciiLower then
    { p with specific := p.specific.apply field value }
  else if agent = "*".toList then { p with wildcard := p.wildcard.apply field value }
  else p

def RobotsParser.line (userAgent : List Char) (p : RobotsParser) (line : List Char) :
    RobotsParser :=
  let line := Text.trim (line.takeWhile (· != '#'))
  if line.isEmpty then p
  else match Text.splitOnce [':'] line with
    | none => p
    | some (field, value) =>
      let field := (Text.trim field).map Text.toAsciiLower
      let value := Text.trim value
      if field = "user-agent".toList then
        let current := if p.collectingAgents then p.current else []
        { p with current := current ++ [value.map Text.toAsciiLower], collectingAgents := true }
      else if field = "allow".toList ∨ field = "disallow".toList ∨ field = "crawl-delay".toList then
        p.current.foldl (RobotsParser.applyTo userAgent field value)
          { p with collectingAgents := false }
      else { p with collectingAgents := false }

def RobotsRules.parse (body userAgent : List Char) : RobotsRules :=
  let p := (Text.lines body).foldl (RobotsParser.line userAgent) .start
  let group := if p.specific.touched then p.specific else p.wildcard
  { rules := group.rules, crawlDelayMs := group.crawlDelayMs, empty := !group.touched }

/-- What is left of the path after the segments, each found as early as possible. -/
def afterSegments : List (List Char) → List Char → Option (List Char)
  | [], rest => some rest
  | segment :: segments, rest =>
    if segment.isEmpty then afterSegments segments rest
    else match Text.splitOnce segment rest with
      | none => none
      | some (_, rest) => afterSegments segments rest

def matchLength (pattern path : List Char) : Option Nat :=
  let anchored := pattern.getLast? == some '$'
  let pattern := if anchored then pattern.dropLast else pattern
  match Text.splitBy (· == '*') pattern with
  | [] => none
  | first :: segments =>
    if !first.isPrefixOf path then none
    else match afterSegments segments (path.drop first.length) with
      | none => none
      | some rest => if anchored && !rest.isEmpty then none else some (Text.utf8Length pattern)

/-- The longest match so far; of two equally long ones an allowing one. -/
def betterMatch (path : List Char) (best : Option (Nat × Bool)) (rule : List Char × Bool) :
    Option (Nat × Bool) :=
  match matchLength rule.1 path with
  | none => best
  | some length =>
    match best with
    | none => some (length, rule.2)
    | some (bestLength, bestAllowed) =>
      if bestLength < length || (length == bestLength && rule.2 && !bestAllowed) then
        some (length, rule.2)
      else best

def RobotsRules.decide (rules : RobotsRules) (pathAndQuery : List Char) : RobotsDecision :=
  let delay := rules.crawlDelayMs.getD 0
  if maximumCrawlDelayMs < delay then .delayTooLong
  else if rules.empty then .allowed delay
  else match rules.rules.foldl (betterMatch pathAndQuery) none with
    | some (_, false) => .disallowed
    | _ => .allowed delay

structure CacheEntry where
  rules : Option RobotsRules
  fetchedAt : Int
  deriving DecidableEq

/-- The settings of the cache; its entries are part of the crawl's state. -/
structure RobotsCache where
  timeoutMs : UInt64
  maxBytes : UInt64
  ttlSeconds : Int
  maxEntries : Nat
  deriving DecidableEq

def RobotsCache.new (timeoutMs maxBytes : UInt64) : RobotsCache where
  timeoutMs
  maxBytes
  ttlSeconds := 3600
  maxEntries := 64

section

variable {σ Url : Type} [UrlCrate Url]

def originKey (url : Url) : Option String :=
  (hostStr url).map (fun host =>
    match port url with
    | some port => scheme url ++ "://" ++ host ++ ":" ++ toString port
    | none => scheme url ++ "://" ++ host)

def pathAndQuery (url : Url) : String :=
  match query url with
  | some query => path url ++ "?" ++ query
  | none => path url

def RobotsCache.request (robots : RobotsCache) (url : Url) : TimedRequest Url where
  url
  timeoutMs := robots.timeoutMs
  maxBytes := robots.maxBytes
  maxRedirects := 1
  headers :=
    [("accept", "text/plain"), ("user-agent", robotsUserAgent ++ "/0.1 (+safe-deep-fetch)")]

/-- The rules an answer stands for; `none` is "could not be retrieved". -/
def rulesOf (result : Except FetchError (FetchResult Url)) : Option RobotsRules :=
  match result with
  | .error _ => none
  | .ok response =>
    if 400 ≤ response.status && response.status < 500 then some .allowAll
    else if response.status == 200 then
      some (.parse (Utf8.fromUtf8Lossy response.body) robotsUserAgent.toList)
    else none

def RobotsCache.cached (robots : RobotsCache) (entries : List (String × CacheEntry)) (origin : String)
    (now : Int) : Option (Option RobotsRules) :=
  match OrdMap.get? origin entries with
  | none => none
  | some entry => if now - entry.fetchedAt ≤ robots.ttlSeconds then some entry.rules else none

def RobotsCache.store (robots : RobotsCache) (entries : List (String × CacheEntry)) (origin : String)
    (rules : Option RobotsRules) (now : Int) : List (String × CacheEntry) :=
  let entries := if robots.maxEntries ≤ entries.length then [] else entries
  OrdMap.insert origin ⟨rules, now⟩ entries

/-- What a decision leaves: the entries, the fetcher, and the request that was
made for it if one was. -/
structure RobotsRun (σ Url : Type) where
  decision : RobotsDecision
  entries : List (String × CacheEntry)
  fetcher : σ
  asked : Option (TimedRequest Url × Nat)

def decisionFor (rules : Option RobotsRules) (url : Url) : RobotsDecision :=
  match rules with
  | some rules => rules.decide (pathAndQuery url).toList
  | none => .unavailable

/-- `RobotsCache::decide` at the Unix time `now`. -/
def RobotsCache.decide (robots : RobotsCache) (fetch : Fetcher σ Url) (now : Int) (url : Url)
    (entries : List (String × CacheEntry)) (f : σ) : RobotsRun σ Url :=
  match originKey url with
  | none => ⟨.unavailable, entries, f, none⟩
  | some origin =>
    match robots.cached entries origin now with
    | some rules => ⟨decisionFor rules url, entries, f, none⟩
    | none =>
      match (parse (origin ++ "/robots.txt") : Option Url) with
      | none => ⟨.unavailable, robots.store entries origin none now, f, none⟩
      | some address =>
        let request := robots.request address
        let answer := fetch request f
        let rules := rulesOf answer.result
        ⟨decisionFor rules url, robots.store entries origin rules now, answer.fetcher,
          some (request, answer.connections)⟩

end

end Amatl
