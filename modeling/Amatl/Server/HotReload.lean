import Amatl.Server.FileValidity

/-! A reload against a restart. The security state is replaced by both; the CORS
layer and the MCP service keep the lists they were wired with. -/

namespace Amatl

open Toml

inductive ReloadKind where
  | hot
  | cold
  deriving DecidableEq

def ReloadKind.of (group key : String) : ReloadKind :=
  if group == "server" &&
      ["bind", "port", "max_connections", "max_body_bytes", "idle_timeout_ms"].contains key then
    .cold
  else if group == "server.tls" && ["cert_path", "key_path"].contains key then .cold
  else .hot

/-- Two records of a group differ in hot fields only. -/
def SameCold {S : Type} (group : String) (fields : List (RecordField S)) (a b : S) : Prop :=
  ∀ f ∈ fields, ReloadKind.of group f.key = .cold → f.get a = f.get b

/-- Every field of the other sections is hot. -/
def Config.SameCold (a b : Config) : Prop :=
  Amatl.SameCold "server" ServerConfig.fields a.server b.server ∧
    Amatl.SameCold "server.tls" TlsConfig.fields a.server.tls b.server.tls

theorem Config.sameCold_iff {a b : Config} :
    a.SameCold b ↔
      (a.server.bind = b.server.bind ∧ a.server.port = b.server.port ∧
        a.server.maxBodyBytes = b.server.maxBodyBytes ∧
        a.server.idleTimeoutMs = b.server.idleTimeoutMs ∧
        a.server.maxConnections = b.server.maxConnections) ∧
      a.server.tls.certPath = b.server.tls.certPath ∧
      a.server.tls.keyPath = b.server.tls.keyPath := by
  simp [Config.SameCold, Amatl.SameCold, ServerConfig.fields, TlsConfig.fields, field,
    ReloadKind.of]

/-- The `tower-http` and `rmcp` crates, as far as they decide on a request. -/
class LayerCrates where
  /-- `CorsLayer` on its origins: the value of `access-control-allow-origin`. -/
  allowOrigin : List String → Request → Option (List UInt8)
  /-- `StreamableHttpService` on its hosts and its origins. -/
  mcpAdmits : List String → List String → Request → Bool

/-- The request is handed to the MCP service. -/
def Request.isMcp (request : Request) : Bool :=
  request.path == "/mcp" || Text.startsWith "/mcp/" request.path

/-- What becomes of a request before a handler or a tool sees it. -/
inductive Decision where
  | refused (code : ErrorCode)
  /-- `CorsLayer` answers every `OPTIONS` request itself. -/
  | preflight (admission : Admission) (allowOrigin : Option (List UInt8))
  | passed (admission : Admission) (rateLimitPerMinute : UInt32)
      (allowOrigin : Option (List UInt8)) (mcpAdmits : Option Bool) (bodyLimit : UInt64)
      (maxConnections : UInt64)
  deriving DecidableEq

section Decide

variable [TimeCrate] [Sha256] [HttpCrate] [LayerCrates]

/-- The middleware is the outermost layer. -/
def ServerState.decide (s : ServerState) (today : String) (now : Nat) (limiter : RateLimiter)
    (request : Request) : Decision :=
  match (securityMiddleware s.security today now request limiter).1 with
  | .error code => .refused code
  | .ok admission =>
    let allowOrigin := LayerCrates.allowOrigin s.layers.corsOrigins request
    if request.method = .options then .preflight admission allowOrigin
    else
      let mcp := if request.isMcp then
          some (LayerCrates.mcpAdmits s.layers.mcpAllowedHosts s.layers.mcpAllowedOrigins request)
        else none
      .passed admission s.security.rateLimitPerMinute allowOrigin mcp
        (if request.isMcp then s.layers.mcpMaxRequestBodyBytes else s.layers.bodyLimit)
        s.layers.maxConnections

omit [LayerCrates] in
theorem securityMiddleware_valid {security : SecurityState} {today : String} {now : Nat}
    {request : Request} {limiter : RateLimiter} {admission : Admission}
    (h : (securityMiddleware security today now request limiter).1 = .ok admission) :
    validHost request security.allowedHosts = true ∧
      validOrigin request security.allowedOrigins = true := by
  unfold securityMiddleware at h
  split at h
  · cases h
  split at h
  · cases h
  split at h
  · cases h
  split at h
  · cases h
  rename_i host origin
  exact ⟨by simpa using host, by simpa using origin⟩

/-- `AllowOrigin::list`: an origin in the list is echoed, and no other gets the header. -/
def CorsEchoes : Prop :=
  ∀ (origins : List String) (request : Request), LayerCrates.allowOrigin origins request =
    (request.header "origin").filter (fun _ => validOrigin request origins)

/-- The MCP service admits the hosts and the origins it was given. -/
def McpAdmitsListed : Prop :=
  ∀ (hosts origins : List String) (request : Request), validHost request hosts = true →
    validOrigin request origins = true → LayerCrates.mcpAdmits hosts origins request = true

/-- The lists that the layers were wired with let the request through: its origin, if it has one,
is in them, and the MCP service admits it if it is handed to it. -/
def ServerConfig.Admits (server : ServerConfig) (request : Request) : Prop :=
  validOrigin request (effectiveOrigins server server.tls.certPath.isSome) = true ∧
    (request.isMcp = true → request.method ≠ .options →
      LayerCrates.mcpAdmits server.allowedHosts
        (effectiveOrigins server server.tls.certPath.isSome) request = true)

omit [TimeCrate] [Sha256] in
theorem ServerConfig.admits_of_listed (mcp : McpAdmitsListed) {server : ServerConfig}
    {request : Request} (host : validHost request server.allowedHosts = true)
    (origin : validOrigin request (effectiveOrigins server server.tls.certPath.isSome) = true) :
    server.Admits request :=
  ⟨origin, fun _ _ => mcp _ _ request host origin⟩

omit [TimeCrate] [Sha256] [HttpCrate] in
/-- Two lists that an origin is checked against answer it alike when both or neither have it. -/
theorem allowOrigin_eq_iff (cors : CorsEchoes) {request : Request} (origins : List String)
    {origins' : List String} (valid : validOrigin request origins' = true) :
    LayerCrates.allowOrigin origins request = LayerCrates.allowOrigin origins' request ↔
      validOrigin request origins = true := by
  rw [cors, cors]
  cases present : request.header "origin" with
  | none => simp [validOrigin, present]
  | some value => cases validOrigin request origins <;> simp [valid, Option.filter]

variable (Url : Type) [UrlCrate Url]

/-- From every start on one configuration and every reload of another that
differs in hot fields: a request is decided as by a server freshly started on the second exactly
when the middleware refuses it, or the lists of the first let it through. -/
theorem reload_decides_as_restart (cors : CorsEchoes) (mcp : McpAdmitsListed)
    {env : Environment} {w : World} {before after : Config} {explicitToken : Option String}
    {file file' : Option ConfigFile} {listener listener' : Net.SocketAddr}
    {s reloaded fresh : ServerState}
    (started : buildRouterWithReload Url env before explicitToken file listener = some s)
    (hot : before.SameCold after)
    (source : ({ s with file := file' }).source Url = .ok after)
    (reload : ({ s with file := file' }).reload Url w = .ok reloaded)
    (restarted : buildRouterWithReload Url w.env after explicitToken file' listener' = some fresh)
    (today : String) (now : Nat) (limiter : RateLimiter) (request : Request) :
    reloaded.decide today now limiter request = fresh.decide today now limiter request ↔
      (∃ code, (securityMiddleware fresh.security today now request limiter).1 = .error code) ∨
        before.server.Admits request := by
  obtain ⟨-, -, clients, -, rfl⟩ := (buildRouterWithReload_eq_some Url).1 started
  obtain ⟨-, -, clients', resolved, rfl⟩ := (buildRouterWithReload_eq_some Url).1 restarted
  obtain ⟨config, clients'', loads, -, resolved', -, rfl⟩ := (ServerState.reload_eq_ok Url).1 reload
  obtain rfl : config = after := Except.ok.inj (loads.symm.trans source)
  obtain rfl : clients'' = clients' := Option.some.inj (resolved'.symm.trans resolved)
  obtain ⟨⟨-, -, body, -, connections⟩, -⟩ := Config.sameCold_iff.1 hot
  unfold ServerState.decide
  cases verdict : (securityMiddleware (.build clients'' config.server) today now request
      limiter).1 with
  | error code => simp
  | ok admission =>
    obtain ⟨host, origin⟩ := securityMiddleware_valid verdict
    have echoes := allowOrigin_eq_iff cors
      (effectiveOrigins before.server before.server.tls.certPath.isSome) origin
    have admits := mcp _ _ request host origin
    simp only [SecurityState.build] at echoes admits
    by_cases method : request.method = .options
    · simp [ServerConfig.Admits, Layers.build, method, echoes]
    · cases handed : request.isMcp with
      | false => simp [ServerConfig.Admits, Layers.build, method, handed, body, connections, echoes]
      | true =>
        simp [ServerConfig.Admits, Layers.build, method, handed, body, connections, echoes, admits]

end Decide

@[reducible] def listedLayers [HttpCrate] : LayerCrates where
  allowOrigin origins request :=
    (request.header "origin").filter (fun _ => validOrigin request origins)
  mcpAdmits hosts origins request := validHost request hosts && validOrigin request origins

theorem listedLayers_echoes [HttpCrate] : @CorsEchoes listedLayers := by
  intro origins request
  rfl

theorem listedLayers_admits [HttpCrate] : @McpAdmitsListed _ listedLayers := by
  intro hosts origins request host origin
  show (validHost request hosts && validOrigin request origins) = true
  rw [host, origin, Bool.and_self]

def serverDoc (lines : Table) : Table :=
  [("server", .table (lines ++ [("tls", .table
    [("cert_path", .string "/etc/amatl/cert.pem"), ("key_path", .string "/etc/amatl/key.pem")])]))]

def plainConfig : Config :=
  letI := noDates
  letI := plainHeaders
  (Config.loadOptional PlainUrl (.document (serverDoc []))).toOption.get (by decide +kernel)

def loopbackListener : Net.SocketAddr := ⟨.v4 ⟨127, 0, 0, 1⟩, 8080⟩

def plainServer : ServerState :=
  letI := noDates
  letI := plainHeaders
  letI := sampleSha256
  (buildRouterWithReload PlainUrl tokenWorld.env plainConfig none (some (.document (serverDoc [])))
    loopbackListener).get (by decide +kernel)

def extendedDoc : Table :=
  serverDoc
    [("allowed_origins",
      .array [.string "https://localhost:8080", .string "https://ui.example"]),
     ("request_timeout_ms", .integer 500)]

def extendedConfig : Config :=
  letI := noDates
  letI := plainHeaders
  (Config.loadOptional PlainUrl (.document extendedDoc)).toOption.get (by decide +kernel)

def extendedServer : ServerState :=
  letI := noDates
  letI := plainHeaders
  letI := sampleSha256
  (buildRouterWithReload PlainUrl tokenWorld.env extendedConfig none
    (some (.document extendedDoc)) loopbackListener).get (by decide +kernel)

def pageRequest (origin : String) : Request where
  method := .get
  path := "/"
  headers := [("host", "localhost".toUTF8.toList), ("origin", origin.toUTF8.toList)]
  peer := none

/-- A call of an MCP tool with the token of the process. -/
def toolRequest (origin : String) : Request where
  method := .post
  path := "/mcp"
  headers :=
    [("host", "localhost".toUTF8.toList), ("origin", origin.toUTF8.toList),
     ("authorization", ("Bearer " ++ sampleToken).toUTF8.toList)]
  peer := none

def emptyLimiter : RateLimiter := ⟨[], 0⟩

/-- The reload adds an origin. Tool calls from the old one and pages asked for from a strange one
are decided as before, the first with the new time limit. -/
theorem plainServer_extended :
    letI := noDates
    letI := plainHeaders
    letI := sampleSha256
    letI := listedLayers
    ∃ reloaded, ({ plainServer with file := some (.document extendedDoc) }).reload PlainUrl tokenWorld
        = .ok reloaded ∧
      (∀ request ∈ [toolRequest "https://localhost:8080", pageRequest "https://evil.example"],
        reloaded.decide "2025-01-01" 0 emptyLimiter request =
          extendedServer.decide "2025-01-01" 0 emptyLimiter request) ∧
      reloaded.decide "2025-01-01" 0 emptyLimiter (toolRequest "https://ui.example") ≠
        extendedServer.decide "2025-01-01" 0 emptyLimiter (toolRequest "https://ui.example") := by
  let _ := noDates
  let _ := plainHeaders
  let _ := sampleSha256
  let _ := listedLayers
  have started : buildRouterWithReload PlainUrl tokenWorld.env plainConfig none
      (some (.document (serverDoc []))) loopbackListener = some plainServer :=
    (Option.some_get _).symm
  have restarted : buildRouterWithReload PlainUrl tokenWorld.env extendedConfig none
      (some (.document extendedDoc)) loopbackListener = some extendedServer :=
    (Option.some_get _).symm
  have source : ({ plainServer with file := some (.document extendedDoc) }).source PlainUrl
      = .ok extendedConfig := by decide +kernel
  have reload := (ServerState.reload_eq_ok PlainUrl (w := tokenWorld)).2
    ⟨extendedConfig, extendedServer.security.clients, source, by decide +kernel,
      by decide +kernel, rfl, rfl⟩
  have decides := reload_decides_as_restart PlainUrl listedLayers_echoes listedLayers_admits
    started (Config.sameCold_iff.2 (by decide +kernel)) source reload restarted "2025-01-01" 0
    emptyLimiter
  refine ⟨_, reload, fun request mem => ?_, fun same => ?_⟩
  · rcases List.mem_pair.mp mem with rfl | rfl
    · exact (decides _).2 (.inr (ServerConfig.admits_of_listed listedLayers_admits
        (by decide +kernel) (by decide +kernel)))
    · exact (decides _).2 (.inl ⟨.invalidOrigin, by decide +kernel⟩)
  · rcases (decides _).1 same with ⟨code, refused⟩ | ⟨origin, -⟩
    · have passed : (securityMiddleware extendedServer.security "2025-01-01" 0
          (toolRequest "https://ui.example") emptyLimiter).1.isOk = true := by decide +kernel
      rw [refused] at passed
      cases passed
    · exact absurd origin (by decide +kernel)

def widenedDoc : Table := serverDoc [("allowed_origins", .array [.string "https://ui.example"])]

def widenedConfig : Config :=
  letI := noDates
  letI := plainHeaders
  (Config.loadOptional PlainUrl (.document widenedDoc)).toOption.get (by decide +kernel)

def widenedServer : ServerState :=
  letI := noDates
  letI := plainHeaders
  letI := sampleSha256
  (buildRouterWithReload PlainUrl tokenWorld.env widenedConfig none
    (some (.document widenedDoc)) loopbackListener).get (by decide +kernel)

/-- The reloaded server lets the request in, without the header the browser of
the script waits for. -/
theorem plainServer_widened :
    letI := noDates
    letI := plainHeaders
    letI := sampleSha256
    letI := listedLayers
    ¬ ∀ (env : Environment) (w : World) (before after : Config) (file file' : Option ConfigFile)
      (listener : Net.SocketAddr) (s reloaded fresh : ServerState),
      buildRouterWithReload PlainUrl env before none file listener = some s →
      before.SameCold after → ({ s with file := file' }).source PlainUrl = .ok after →
      ({ s with file := file' }).reload PlainUrl w = .ok reloaded →
      buildRouterWithReload PlainUrl w.env after none file' listener = some fresh →
      ∀ (today : String) (now : Nat) (limiter : RateLimiter) (request : Request),
        reloaded.decide today now limiter request = fresh.decide today now limiter request := by
  let _ := noDates
  let _ := plainHeaders
  let _ := sampleSha256
  let _ := listedLayers
  intro same
  have started : buildRouterWithReload PlainUrl tokenWorld.env plainConfig none
      (some (.document (serverDoc []))) loopbackListener = some plainServer :=
    (Option.some_get _).symm
  have restarted : buildRouterWithReload PlainUrl tokenWorld.env widenedConfig none
      (some (.document widenedDoc)) loopbackListener = some widenedServer :=
    (Option.some_get _).symm
  have source : ({ plainServer with file := some (.document widenedDoc) }).source PlainUrl
      = .ok widenedConfig := by decide +kernel
  have reload := (ServerState.reload_eq_ok PlainUrl (w := tokenWorld)).2
    ⟨widenedConfig, widenedServer.security.clients, source, by decide +kernel,
      by decide +kernel, rfl, rfl⟩
  have agree := same _ tokenWorld _ _ _ _ _ _ _ _ started
    (Config.sameCold_iff.2 (by decide +kernel)) source reload restarted "2025-01-01" 0 emptyLimiter
    (pageRequest "https://ui.example")
  exact absurd agree (by decide +kernel)

end Amatl
