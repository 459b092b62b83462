import Amatl.Config.Validate
import Mathlib.Data.Nat.Bitwise

/-! Who may reach a route: the accepted credentials, the scope of each route and
the checks every request passes before a handler sees it. -/

namespace Amatl

inductive ErrorCode where
  | invalidRequest | unauthorized | scopeDenied | invalidHost | invalidOrigin | rateLimited
  | bodyTooLarge | headersTooLarge | notFound | conflict | configurationInvalid
  deriving DecidableEq, Repr

/-- The SHA-256 of a bearer token. -/
abbrev Digest := Vector UInt8 32

/-- One credential, resolved to the digest that requests are compared with. -/
structure AuthorizedClient where
  id : String
  digest : Digest
  expiresAt : Option String
  scopes : List Scope
  tools : List String
  deriving DecidableEq

def minimumTokenBytes : Nat := 32

def usableToken (token : Option String) : Option String :=
  token.filter (fun value => minimumTokenBytes ≤ value.utf8ByteSize)

/-- Two hexadecimal digits to a byte. -/
def hexBytes : List Char → Option (List UInt8)
  | [] => some []
  | high :: low :: rest => do
    let byte ← Text.parseUnsigned 16 256 [high, low]
    return UInt8.ofNat byte :: (← hexBytes rest)
  | [_] => none

def digestFromHex (value : String) : Option Digest :=
  match hexBytes value.toList with
  | none => none
  | some bytes => if h : bytes.length = 32 then some ⟨bytes.toArray, by simpa using h⟩ else none

/-- The environment a process reads its secrets from. -/
abbrev Environment := String → Option String

section Credentials

variable [Sha256]

def tokenDigest (token : String) : Digest := Sha256.digest token

/-- The digest of a declared client; a client whose secret is missing has none. -/
def ServerClient.resolve (env : Environment) (declared : ServerClient) : Option Digest :=
  match declared.tokenEnv, declared.tokenSha256 with
  | some name, _ => (usableToken (env name)).map tokenDigest
  | none, some hex => digestFromHex hex
  | none, none => none

def defaultClient (token : String) : AuthorizedClient where
  id := "default"
  digest := tokenDigest token
  expiresAt := none
  scopes := Scope.all
  tools := mcpTools

def ServerClient.authorize (env : Environment) (declared : ServerClient) :
    Option AuthorizedClient :=
  (declared.resolve env).map fun digest =>
    { id := declared.id, digest, expiresAt := declared.expiresAt, scopes := declared.scopes,
      tools := declared.tools }

/-- The bearer token of the whole process, given to it or found in the
environment. -/
def ServerConfig.processToken (server : ServerConfig) (env : Environment)
    (explicitToken : Option String) : Option String :=
  usableToken (explicitToken <|> env server.tokenEnv)

/-- The accepted credentials, none of them when authentication is off. Otherwise
there is at least one, or the server has no token. -/
def resolveClients (env : Environment) (config : Config) (explicitToken : Option String) :
    Option (List AuthorizedClient) :=
  if config.server.noAuth then some []
  else
    let process := (config.server.processToken env explicitToken).map defaultClient
    let clients := process.toList ++ config.server.clients.filterMap (·.authorize env)
    if clients.isEmpty then none else some clients

/-- Some credential of the configuration can be presented. -/
def ServerConfig.hasCredential (server : ServerConfig) (env : Environment)
    (explicitToken : Option String) : Bool :=
  (server.processToken env explicitToken).isSome ||
    server.clients.any (fun client => (client.resolve env).isSome)

theorem resolveClients_isSome {env : Environment} {config : Config}
    {explicitToken : Option String} :
    (resolveClients env config explicitToken).isSome ↔
      config.server.noAuth = true ∨ config.server.hasCredential env explicitToken = true := by
  cases off : config.server.noAuth with
  | true => simp [resolveClients, off]
  | false =>
    have none_iff : config.server.clients.filterMap (·.authorize env) = [] ↔
        ∀ client ∈ config.server.clients, client.resolve env = none := by
      simp [List.filterMap_eq_nil_iff, ServerClient.authorize]
    cases token : config.server.processToken env explicitToken with
    | some token => simp [resolveClients, ServerConfig.hasCredential, off, token]
    | none =>
      simp only [resolveClients, ServerConfig.hasCredential, off, token, Bool.false_eq_true,
        if_false, false_or, Option.map_none, Option.toList_none, List.nil_append,
        Option.isSome_none, Bool.false_or, List.isEmpty_iff, none_iff, List.any_eq_true,
        Option.isSome_iff_ne_none]
      split <;> simp_all

theorem resolveClients_eq_nil {env : Environment} {config : Config}
    {explicitToken : Option String} {clients : List AuthorizedClient}
    (h : resolveClients env config explicitToken = some clients) :
    clients = [] ↔ config.server.noAuth = true := by
  unfold resolveClients at h
  split at h
  · cases h
    exact ⟨fun _ => by assumption, fun _ => rfl⟩
  · rename_i on
    simp only at h
    split at h
    · cases h
    · rename_i some_client
      cases h
      simp only [on, Bool.false_eq_true, iff_false]
      rintro empty
      simp [empty] at some_client

end Credentials

/-- Every byte is looked at, whatever the bytes before it were. -/
def byteDifference (left right : List UInt8) : Nat → Nat
  | 0 => left.length ^^^ right.length
  | index + 1 => byteDifference left right index |||
      (left.getD index 0 ^^^ right.getD index 0).toNat

def constantTimeEq (left right : List UInt8) : Bool :=
  byteDifference left right (max left.length right.length) == 0

theorem byteDifference_eq_zero {left right : List UInt8} {count : Nat} :
    byteDifference left right count = 0 ↔
      left.length = right.length ∧ ∀ index < count, left.getD index 0 = right.getD index 0 := by
  induction count with
  | zero => simp [byteDifference]
  | succ count ih =>
    have byte : (left.getD count 0 ^^^ right.getD count 0).toNat = 0 ↔
        left.getD count 0 = right.getD count 0 := by
      rw [UInt8.toNat_xor, Nat.xor_eq_zero_iff, UInt8.toNat_inj]
    rw [byteDifference, Nat.or_eq_zero_iff, ih, byte, and_assoc]
    refine and_congr_right fun _ => ⟨fun h index hi => ?_, fun h => ?_⟩
    · rcases Nat.lt_succ_iff_lt_or_eq.1 hi with lt | rfl
      · exact h.1 index lt
      · exact h.2
    · exact ⟨fun index hi => h index (Nat.lt_succ_of_lt hi), h count (Nat.lt_succ_self count)⟩

theorem constantTimeEq_iff {left right : List UInt8} :
    constantTimeEq left right = true ↔ left = right := by
  rw [constantTimeEq, beq_iff_eq, byteDifference_eq_zero]
  constructor
  · rintro ⟨length, bytes⟩
    refine List.ext_getElem length fun index hl hr => ?_
    have same := bytes index (lt_max_of_lt_left hl)
    rwa [List.getD_eq_getElem _ _ hl, List.getD_eq_getElem _ _ hr] at same
  · rintro rfl
    exact ⟨rfl, fun _ _ => rfl⟩

inductive Method where
  | get | head | post | put | delete | connect | options | trace | patch
  | extension (name : String)
  deriving DecidableEq

structure Request where
  method : Method
  path : String
  headers : List (String × List UInt8)
  peer : Option Net.IpAddr
  deriving DecidableEq

namespace Request

/-- The first value of a header, under its lower-case name. -/
def header (request : Request) (name : String) : Option (List UInt8) :=
  (request.headers.find? (fun entry => entry.1 == name)).map Prod.snd

/-- `HeaderValue::to_str`: visible ASCII, spaces and tabs. -/
def textOf (value : List UInt8) : Option String :=
  if value.all (fun byte => (32 ≤ byte && byte < 127) || byte == 9) then
    some (String.ofList (value.map (fun byte => Char.ofNat byte.toNat)))
  else none

def headerText (request : Request) (name : String) : Option String :=
  (request.header name).bind textOf

def headerSize (request : Request) : Nat :=
  (request.headers.map (fun entry => entry.1.utf8ByteSize + entry.2.length)).sum

def clientIp (request : Request) : Net.IpAddr := request.peer.getD (.v4 ⟨127, 0, 0, 1⟩)

def bearer (request : Request) : Option String :=
  (request.headerText "authorization").bind (Text.stripStart "Bearer ")

end Request

def isAsset (path : String) : Bool :=
  ["/", "/index.html", "/styles.css", "/app.js", "/i18n.js", "/brand-icon.png",
    "/favicon.png"].contains path

/-- The capability a route requires; no capability means the route is public. -/
def requiredScope (method : Method) (path : String) : Option Scope :=
  let mutating := method == .post || method == .put || method == .delete
  let patching := method == .patch
  if ["/health", "/ready", "/metrics"].contains path || isAsset path then none
  else if path == "/search" then some .search
  else if path == "/deep" then some .deep
  else if path == "/answer" && patching then some .admin
  else if path == "/answer" then some .deep
  else if ["/providers", "/status"].contains path then some .read
  else if ["/history", "/saved"].contains path && mutating then some .write
  else if ["/history", "/saved"].contains path then some .read
  else if ["/security-events", "/reload", "/answer/enabled"].contains path then some .admin
  else if Text.startsWith "/providers/" path && Text.endsWith "/enabled" path then some .admin
  else if Text.startsWith "/providers/" path && patching then some .admin
  else if Text.startsWith "/providers/" path then some .read
  else if path == "/server/clients" then some .admin
  else if Text.startsWith "/server/clients/" path then some .admin
  else if path == "/server/pending-config" && patching then some .admin
  else if path == "/server/pending-config" then some .read
  else if path == "/data-policy" then some .admin
  else if path == "/inference" then some .admin
  else if path == "/policies" then some .read
  else if Text.startsWith "/policies/" path then some .admin
  else if path == "/persistence" && patching then some .admin
  else if ["/persistence", "/persistence/backups"].contains path then some .read
  else if path == "/persistence/backup" then some .admin
  else if path == "/circuits" then some .read
  else if path == "/circuits/reset" then some .admin
  else if path == "/telemetry" && patching then some .admin
  else if path == "/telemetry" then some .read
  else if path == "/deep/limits" && patching then some .admin
  else if path == "/deep/limits" then some .read
  else if ["/deep/extractor", "/deep/renderer"].contains path then some .admin
  else if path == "/mcp" then some .mcp
  else if Text.startsWith "/mcp/" path then some .mcp
  else if Text.startsWith "/history/" path || Text.startsWith "/saved/" path then some .write
  else some .admin

def isProtected (method : Method) (path : String) : Bool := (requiredScope method path).isSome

/-- Everything the middleware needs for one request. -/
structure SecurityState where
  clients : List AuthorizedClient
  allowedHosts : List String
  allowedOrigins : List String
  maxHeaderBytes : UInt64
  maxBodyBytes : UInt64
  timeoutMs : UInt64
  rateLimitPerMinute : UInt32
  https : Bool
  deriving DecidableEq

/-- The declared origins, or one for each allowed host. -/
def effectiveOrigins (server : ServerConfig) (https : Bool) : List String :=
  if server.allowedOrigins.isEmpty then
    let scheme := if https then "https" else "http"
    server.allowedHosts.map (fun host => scheme ++ "://" ++ host ++ ":" ++ toString server.port)
  else server.allowedOrigins

def SecurityState.build (clients : List AuthorizedClient) (server : ServerConfig) :
    SecurityState where
  clients := clients
  allowedHosts := server.allowedHosts
  allowedOrigins := effectiveOrigins server server.tls.certPath.isSome
  maxHeaderBytes := server.maxHeaderBytes
  maxBodyBytes := server.maxBodyBytes
  timeoutMs := server.requestTimeoutMs
  rateLimitPerMinute := server.rateLimitPerMinute
  https := server.tls.certPath.isSome

inductive Authentication where
  | anonymous
  | client (client : AuthorizedClient)
  | expired (id : String)
  | rejected
  deriving DecidableEq

/-- The last of the credentials with the digest of the token. -/
def matchedClient (digest : Digest) (clients : List AuthorizedClient) : Option AuthorizedClient :=
  clients.foldl
    (fun found client =>
      if constantTimeEq digest.toList client.digest.toList then some client else found) none

theorem matchedClient_spec {digest : Digest} {clients : List AuthorizedClient}
    {client : AuthorizedClient} (h : matchedClient digest clients = some client) :
    client ∈ clients ∧ client.digest = digest := by
  -- The accumulator is a client that has already been matched.
  have go : ∀ (rest : List AuthorizedClient) (found : Option AuthorizedClient),
      rest.foldl (fun found client =>
        if constantTimeEq digest.toList client.digest.toList then some client else found) found
        = some client →
      found = some client ∨ client ∈ rest ∧ client.digest = digest := by
    intro rest
    induction rest with
    | nil => exact fun found h => .inl h
    | cons head rest ih =>
      intro found h
      rcases ih _ h with here | ⟨mem, same⟩
      · simp only at here
        split at here
        · rename_i eq
          cases here
          have same := Vector.toList_inj.1 (constantTimeEq_iff.1 eq)
          exact .inr ⟨List.mem_cons_self, same.symm⟩
        · exact .inl here
      · exact .inr ⟨List.mem_cons_of_mem _ mem, same⟩
  rcases go clients none h with none | spec
  · cases none
  · exact spec

section Middleware

variable [TimeCrate] [Sha256]

def AuthorizedClient.unexpired (client : AuthorizedClient) (today : String) : Bool :=
  ServerClient.unexpiredOn { ServerClient.default with expiresAt := client.expiresAt } today

def authenticate (request : Request) (security : SecurityState) (today : String) :
    Authentication :=
  if security.clients.isEmpty then .anonymous
  else match request.bearer with
    | none => .rejected
    | some presented =>
      match matchedClient (tokenDigest presented) security.clients with
      | none => .rejected
      | some client => if client.unexpired today then .client client else .expired client.id

theorem authenticate_eq_anonymous {request : Request} {security : SecurityState}
    {today : String} :
    authenticate request security today = .anonymous ↔ security.clients = [] := by
  unfold authenticate
  split
  · simp_all
  · rename_i some_client
    have nonempty : security.clients ≠ [] := by simpa using some_client
    simp only [nonempty, iff_false]
    split
    · simp
    · split
      · simp
      · split <;> simp

theorem authenticate_eq_client {request : Request} {security : SecurityState} {today : String}
    {client : AuthorizedClient} (h : authenticate request security today = .client client) :
    client ∈ security.clients ∧
      ∃ token, request.bearer = some token ∧ tokenDigest token = client.digest := by
  unfold authenticate at h
  split at h
  · cases h
  · split at h
    · cases h
    · rename_i presented bearer
      split at h
      · cases h
      · rename_i found hm
        split at h
        · cases h
          obtain ⟨mem, same⟩ := matchedClient_spec hm
          exact ⟨mem, presented, bearer, same.symm⟩
        · cases h

theorem authenticate_unexpired {request : Request} {security : SecurityState} {today : String}
    {client : AuthorizedClient} (h : authenticate request security today = .client client) :
    client.unexpired today = true := by
  unfold authenticate at h
  split at h
  · cases h
  · split at h
    · cases h
    · split at h
      · cases h
      · split at h
        · cases h
          assumption
        · cases h

variable [HttpCrate]

def validHost (request : Request) (allowed : List String) : Bool :=
  match request.headerText "host" with
  | none => false
  | some authority => HttpCrate.authority authority && allowed.any (fun entry =>
      Text.eqIgnoreAsciiCase entry authority ||
        Text.eqIgnoreAsciiCase entry (HttpCrate.authorityHost authority) ||
        (entry == "[::1]" && HttpCrate.authorityHost authority == "[::1]"))

def validOrigin (request : Request) (allowed : List String) : Bool :=
  match request.header "origin" with
  | none => true
  | some value => (Request.textOf value).any (fun origin => allowed.contains origin)

structure RateWindow where
  started : Nat
  count : Nat
  deriving DecidableEq

/-- One window for each address; times are nanoseconds of a monotonic clock. -/
structure RateLimiter where
  windows : List (Net.IpAddr × RateWindow)
  lastCleanup : Nat
  deriving DecidableEq

def minute : Nat := 60 * 10 ^ 9

def RateLimiter.cleaned (limiter : RateLimiter) (now : Nat) : RateLimiter :=
  if minute ≤ now - limiter.lastCleanup then
    { windows := limiter.windows.filter (fun entry => decide (now - entry.2.started < minute))
      lastCleanup := now }
  else limiter

def withinRateLimit (request : Request) (limit : UInt32) (now : Nat) (limiter : RateLimiter) :
    Bool × RateLimiter :=
  let limiter := limiter.cleaned now
  let ip := request.clientIp
  let others := limiter.windows.filter (fun entry => entry.1 != ip)
  let window := (limiter.windows.lookup ip).getD { started := now, count := 0 }
  if limit.toNat ≤ window.count then
    (false, { limiter with windows := (ip, window) :: others })
  else
    (true, { limiter with windows := (ip, { window with count := window.count + 1 }) :: others })

structure ClientIdentity where
  id : String
  tools : List String
  deriving DecidableEq

def ClientIdentity.unauthenticated : ClientIdentity where
  id := "anonymous"
  tools := mcpTools

/-- What the middleware hands to the layers behind it. -/
structure Admission where
  identity : ClientIdentity
  timeoutMs : UInt64
  deriving DecidableEq

/-- Authenticate, then compare the scopes of the identity with the route's. -/
def authorize (request : Request) (security : SecurityState) (today : String) :
    Except ErrorCode ClientIdentity :=
  if isProtected request.method request.path && request.method != .options then
    match authenticate request security today with
    | .anonymous => .ok .unauthenticated
    | .client client =>
      let required := (requiredScope request.method request.path).getD .admin
      if client.scopes.contains required then .ok { id := client.id, tools := client.tools }
      else .error .scopeDenied
    | .expired _ => .error .unauthorized
    | .rejected => .error .unauthorized
  else .ok .unauthenticated

def declaresBodyOver (request : Request) (limit : UInt64) : Bool :=
  ((request.headerText "content-length").bind
    (fun value => Text.parseUnsigned 10 (2 ^ 64) value.toList)).any (fun length =>
      decide (limit.toNat < length))

/-- The checks in order, on one snapshot of the security state. -/
def securityMiddleware (security : SecurityState) (today : String) (now : Nat)
    (request : Request) (limiter : RateLimiter) : Except ErrorCode Admission × RateLimiter :=
  if security.maxHeaderBytes.toNat < request.headerSize then (.error .headersTooLarge, limiter)
  else if declaresBodyOver request security.maxBodyBytes then (.error .bodyTooLarge, limiter)
  else if !validHost request security.allowedHosts then (.error .invalidHost, limiter)
  else if !validOrigin request security.allowedOrigins then (.error .invalidOrigin, limiter)
  else
    let verdict := (authorize request security today).map fun identity =>
      { identity, timeoutMs := security.timeoutMs : Admission }
    if request.method == .options then (verdict, limiter)
    else match withinRateLimit request security.rateLimitPerMinute now limiter with
      | (false, limiter) => (.error .rateLimited, limiter)
      | (true, limiter) => (verdict, limiter)

theorem securityMiddleware_authorized {security : SecurityState} {today : String} {now : Nat}
    {request : Request} {limiter : RateLimiter} {admission : Admission}
    (h : (securityMiddleware security today now request limiter).1 = .ok admission) :
    authorize request security today = .ok admission.identity := by
  have admitted : (authorize request security today).map
        (fun identity => { identity, timeoutMs := security.timeoutMs : Admission })
        = .ok admission →
      authorize request security today = .ok admission.identity := by
    cases authorize request security today with
    | error code => exact fun h => nomatch h
    | ok identity =>
      rintro ⟨⟩
      rfl
  unfold securityMiddleware at h
  split at h
  · cases h
  split at h
  · cases h
  split at h
  · cases h
  split at h
  · cases h
  split at h
  · exact admitted h
  · simp only at h
    split at h
    · cases h
    · exact admitted h

/-- Where there is a credential, a protected route is reached by presenting one
whose scopes cover the route. -/
theorem securityMiddleware_bearer {security : SecurityState} {today : String} {now : Nat}
    {request : Request} {limiter : RateLimiter} {admission : Admission}
    (some_client : security.clients ≠ [])
    (isProtected : isProtected request.method request.path = true)
    (method : request.method ≠ .options)
    (h : (securityMiddleware security today now request limiter).1 = .ok admission) :
    ∃ client ∈ security.clients, ∃ token, request.bearer = some token ∧
      tokenDigest token = client.digest := by
  have authorized := securityMiddleware_authorized h
  unfold authorize at authorized
  rw [if_pos (by simp [isProtected, method])] at authorized
  cases outcome : authenticate request security today with
  | anonymous => exact absurd (authenticate_eq_anonymous.1 outcome) some_client
  | client client =>
    obtain ⟨mem, presented⟩ := authenticate_eq_client outcome
    exact ⟨client, mem, presented⟩
  | expired id => simp [outcome] at authorized
  | rejected => simp [outcome] at authorized

end Middleware

end Amatl
