import Amatl.Lib.NetText
import Amatl.Lib.OrdMap
import Amatl.Lib.StableSort
import Amatl.Security

/-! The safe fetcher: every hop of a redirect chain is validated, resolved,
checked and sent through a client pinned to the answer that was checked. What
the network does at each hop is given by the environment. -/

namespace Amatl

open Net UrlCrate

inductive FetchError where
  | egressDenied
  | blockedUrl (code : String)
  | dns | addressBlocked | headerBlocked | redirectLimit | invalidRedirect | byteLimit | timeout
  | network
  deriving DecidableEq, Repr

structure FetchRequest (Url : Type) where
  url : Url
  maxBytes : UInt64
  maxRedirects : UInt32
  headers : List (String × String)

structure FetchResult (Url : Type) where
  finalUrl : Url
  status : UInt16
  headersSafe : List (String × String)
  contentType : Option String
  body : List UInt8
  size : UInt64
  redirectChain : List Url
  retrievedAt : String
  deriving DecidableEq

/-- A client that connects to `host` at the pinned addresses and follows no
redirect. -/
@[ext]
structure Client where
  host : String
  addresses : List SocketAddr
  deriving DecidableEq

/-- `sort_unstable` of socket addresses: IPv4 before IPv6, then address, then port. -/
def compareSocketAddr : SocketAddr → SocketAddr → Ordering :=
  let family := fun x : SocketAddr => match x.ip with
    | .v4 _ => 0
    | .v6 _ => 1
  let octets := fun x : SocketAddr => match x.ip with
    | .v4 address => [address.a, address.b, address.c, address.d].map UInt8.toNat
    | .v6 address => address.segments.map UInt16.toNat
  compareLex (compareOn family) (compareLex (compareOn octets) (compareOn (fun x => x.port)))

def dedupAfter {α : Type} [DecidableEq α] (previous : α) : List α → List α
  | [] => []
  | x :: rest => if x = previous then dedupAfter previous rest else x :: dedupAfter x rest

/-- `Vec::dedup`: of equal neighbours the first stays. -/
def dedup {α : Type} [DecidableEq α] : List α → List α
  | [] => []
  | x :: rest => x :: dedupAfter x rest

def sortedAddresses (addresses : List SocketAddr) : List SocketAddr :=
  dedup (StableSort.sortBy compareSocketAddr addresses)

def cacheKey (client : Client) : List Char :=
  client.host.toList ++ '|' :: debugAddresses client.addresses

/-- The pinned-client cache, shared by all clones of a fetcher. Every client is
stored under its own key. -/
structure ClientCache where
  entries : List (List Char × Client)
  keyed : ∀ entry ∈ entries, entry.1 = cacheKey entry.2

namespace ClientCache

def empty : ClientCache := ⟨[], by simp⟩

def get? (cache : ClientCache) (key : List Char) : Option Client :=
  (cache.entries.find? (fun entry => entry.1 == key)).map Prod.snd

/-- A full cache is cleared before the client is stored. -/
def insert (cache : ClientCache) (client : Client) : ClientCache where
  entries := (cacheKey client, client) ::
    (if 64 ≤ cache.entries.length then []
      else cache.entries.filter (fun entry => entry.1 != cacheKey client))
  keyed := by
    intro entry h
    rcases List.mem_cons.mp h with rfl | h
    · rfl
    · split at h
      · cases h
      · exact cache.keyed entry (List.mem_of_mem_filter h)

/-- Clients stored by other fetches meanwhile. -/
def interfere (cache : ClientCache) (clients : List Client) : ClientCache :=
  clients.foldl insert cache

end ClientCache

theorem cacheKey_injective : Function.Injective cacheKey := by
  intro x y h
  obtain ⟨hhost, haddresses⟩ := Text.append_cons_inj_right (bar_notMem_debugAddresses _)
    (bar_notMem_debugAddresses _) h
  exact Client.ext (String.toList_injective hhost) (debugAddresses_injective haddresses)

theorem ClientCache.get?_cacheKey {cache : ClientCache} {wanted client : Client}
    (h : cache.get? (cacheKey wanted) = some client) : client = wanted := by
  obtain ⟨entry, hfind, rfl⟩ := Option.map_eq_some_iff.mp h
  have hkey : entry.1 = cacheKey wanted := by simpa using List.find?_some hfind
  have hkeyed := cache.keyed entry (List.mem_of_find?_eq_some hfind)
  exact cacheKey_injective (hkeyed.symm.trans hkey)

theorem mem_dedupAfter {α : Type} [DecidableEq α] {x : α} (previous : α) (l : List α) :
    x ∈ previous :: dedupAfter previous l ↔ x ∈ previous :: l := by
  induction l generalizing previous with
  | nil => simp [dedupAfter]
  | cons y l ih =>
    by_cases hy : y = previous
    · rw [dedupAfter, if_pos hy, ih previous, hy]
      simp
    · rw [dedupAfter, if_neg hy, List.mem_cons, ih y, List.mem_cons (b := previous)]

theorem mem_sortedAddresses {x : SocketAddr} {addresses : List SocketAddr} :
    x ∈ sortedAddresses addresses ↔ x ∈ addresses := by
  have sorted : x ∈ StableSort.sortBy compareSocketAddr addresses ↔ x ∈ addresses :=
    StableSort.mem_sortBy
  rw [← sorted, sortedAddresses]
  cases StableSort.sortBy compareSocketAddr addresses with
  | nil => rfl
  | cons y l => exact mem_dedupAfter y l

structure Response where
  status : UInt16
  /-- Names in lower case; a value that is not text is `none`. -/
  headers : List (String × Option String)
  /-- The body's chunks; `none` is a read that failed. -/
  chunks : List (Option (List UInt8))
  deriving DecidableEq, Repr

/-- What happens during one hop: the lookup, other fetches' clients before and
after the look into the cache, whether a client can be built, and the reply. An
outer `none` is the deadline passing first. -/
structure Hop where
  answer : Option (Except FetchError (List SocketAddr))
  before : List Client
  between : List Client
  buildable : Bool
  reply : Option (Option Response)

structure RawResponse where
  status : UInt16
  location : Option String
  headersSafe : List (String × String)
  contentType : Option String
  body : List UInt8
  deriving DecidableEq, Repr

def isRedirect (status : UInt16) : Bool :=
  status == 301 || status == 302 || status == 303 || status == 307 || status == 308

def allowedHeaders : List String :=
  ["accept", "accept-language", "if-modified-since", "if-none-match", "user-agent"]

def validateHeaders (headers : List (String × String)) : Except FetchError Unit :=
  if headers.all (fun header => allowedHeaders.contains (Text.asciiLowercase header.1)) then .ok ()
  else .error .headerBlocked

def safeHeaders : List String :=
  ["content-type", "content-length", "last-modified", "etag", "cache-control"]

def headerText (headers : List (String × Option String)) (name : String) : Option String :=
  (headers.lookup name).join

def safeResponseHeaders (headers : List (String × Option String)) : List (String × String) :=
  OrdMap.ofList (safeHeaders.filterMap (fun name =>
    (headerText headers name).map (fun value => (name, value))))

def readBody (maxBytes : UInt64) (body : List UInt8) :
    List (Option (List UInt8)) → Except FetchError (List UInt8)
  | [] => .ok body
  | none :: _ => .error .network
  | some chunk :: rest =>
    if maxBytes.toNat < body.length + chunk.length then .error .byteLimit
    else readBody maxBytes (body ++ chunk) rest

/-- `execute_pinned` from the moment the request is sent. -/
def executePinned (maxBytes : UInt64) (reply : Option Response) : Except FetchError RawResponse :=
  match reply with
  | none => .error .network
  | some response =>
    let headersSafe := safeResponseHeaders response.headers
    let raw : RawResponse :=
      { status := response.status, location := headerText response.headers "location",
        headersSafe, contentType := OrdMap.get? "content-type" headersSafe, body := [] }
    if isRedirect response.status then .ok raw
    else match readBody maxBytes [] response.chunks with
      | .error error => .error error
      | .ok body => .ok { raw with body }

/-- The client for a checked answer, from the cache or newly built. -/
def clientFor (cache : ClientCache) (hop : Hop) (host : String) (addresses : List SocketAddr) :
    Except FetchError Client × ClientCache :=
  let wanted : Client := ⟨host, sortedAddresses addresses⟩
  let cache := cache.interfere hop.before
  match cache.get? (cacheKey wanted) with
  | some client => (.ok client, cache.interfere hop.between)
  | none =>
    let cache := cache.interfere hop.between
    if hop.buildable then (.ok wanted, cache.insert wanted) else (.error .network, cache)

/-- A request put on the wire: the URL, the answer it was checked against and
the client that carries it. -/
structure Connection (Url : Type) where
  url : Url
  answer : List SocketAddr
  client : Client
  deriving DecidableEq

inductive HopOutcome (Url : Type) where
  | finished (result : Except FetchError (FetchResult Url))
  | redirected (next : Url)

structure HopRun (Url : Type) where
  connection : Option (Connection Url)
  cache : ClientCache
  outcome : HopOutcome Url

section

variable {Url : Type} [UrlCrate Url]

def validateRedirect (current : Url) (location : String) : Except FetchError Url :=
  match join current location with
  | none => .error .invalidRedirect
  | some next =>
    match validateDeepUrl next with
    | .error code => .error (.blockedUrl code)
    | .ok () => .ok next

/-- The checks made before anything is sent: the answer that may be used. -/
def checkedAnswer (current : Url) (hop : Hop) : Except FetchError (String × List SocketAddr) :=
  match validateDeepUrl current with
  | .error code => .error (.blockedUrl code)
  | .ok () =>
    match hostStr current, portOrKnownDefault current with
    | none, _ => .error (.blockedUrl "missing_host")
    | some _, none => .error (.blockedUrl "missing_port")
    | some host, some _ =>
      match hop.answer with
      | none => .error .timeout
      | some (.error error) => .error error
      | some (.ok addresses) =>
        match validateResolvedAddresses (addresses.map (fun address => address.ip)) with
        | .error _ => .error .addressBlocked
        | .ok () => .ok (host, addresses)

/-- What follows the reply: the result, or the next URL of the chain. -/
def followReply (request : FetchRequest Url) (now : String) (current : Url) (redirects : List Url)
    (response : RawResponse) : HopOutcome Url :=
  if isRedirect response.status then
    if request.maxRedirects ≤ redirects.length.toUInt32 then .finished (.error .redirectLimit)
    else match response.location with
      | none => .finished (.error .invalidRedirect)
      | some location =>
        match validateRedirect current location with
        | .error error => .finished (.error error)
        | .ok next => .redirected next
  else .finished (.ok
    { finalUrl := current, status := response.status, headersSafe := response.headersSafe,
      contentType := response.contentType, body := response.body,
      size := response.body.length.toUInt64, redirectChain := redirects, retrievedAt := now })

variable [HttpCrate]

def headersSendable (headers : List (String × String)) : Bool :=
  headers.all (fun header => HttpCrate.headerName header.1 && HttpCrate.headerValue header.2)

def fetchHop (request : FetchRequest Url) (now : String) (hop : Hop) (current : Url)
    (redirects : List Url) (cache : ClientCache) : HopRun Url :=
  match checkedAnswer current hop with
  | .error error => ⟨none, cache, .finished (.error error)⟩
  | .ok (host, answer) =>
    match clientFor cache hop host answer with
    | (.error error, cache) => ⟨none, cache, .finished (.error error)⟩
    | (.ok client, cache) =>
      if !headersSendable request.headers then ⟨none, cache, .finished (.error .headerBlocked)⟩
      else
        let connection := some ⟨current, answer, client⟩
        match hop.reply with
        | none => ⟨connection, cache, .finished (.error .timeout)⟩
        | some reply =>
          match executePinned request.maxBytes reply with
          | .error error => ⟨connection, cache, .finished (.error error)⟩
          | .ok response => ⟨connection, cache, followReply request now current redirects response⟩

structure FetchRun (Url : Type) where
  connections : List (Connection Url)
  cache : ClientCache
  /-- `none` when the given number of passes did not end the loop. -/
  result : Option (Except FetchError (FetchResult Url))

/-- At most `fuel` passes of the loop, of which `index` is the first. -/
def fetchLoop (request : FetchRequest Url) (now : String) (network : Nat → Hop) :
    (fuel index : Nat) → Url → List Url → ClientCache → FetchRun Url
  | 0, _, _, _, cache => ⟨[], cache, none⟩
  | fuel + 1, index, current, redirects, cache =>
    let hop := fetchHop request now (network index) current redirects cache
    match hop.outcome with
    | .finished result => ⟨hop.connection.toList, hop.cache, some result⟩
    | .redirected next =>
      let rest := fetchLoop request now network fuel (index + 1) next (redirects ++ [current])
        hop.cache
      { rest with connections := hop.connection.toList ++ rest.connections }

def fetchInner (request : FetchRequest Url) (now : String) (network : Nat → Hop)
    (cache : ClientCache) (fuel : Nat) : FetchRun Url :=
  match validateHeaders request.headers with
  | .error error => ⟨[], cache, some (.error error)⟩
  | .ok () => fetchLoop request now network fuel 0 request.url [] cache

end

end Amatl
