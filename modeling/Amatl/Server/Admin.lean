import Amatl.Config.Edits
import Amatl.Server.Access

/-! The running server: its configuration file, the reload that takes the file
in, and the handlers that rewrite the file. -/

namespace Amatl

open Toml

/-- What the configuration path holds. -/
inductive ConfigFile where
  | missing
  | unreadable
  | malformed (error : String)
  | document (doc : Table)

/-- What a writer hands to `std::fs::write`. A missing file is the default configuration to the
reader and an error to the writer. -/
def ConfigFile.edit (write : Table → Except ConfigError Table) :
    ConfigFile → Except ConfigError ConfigFile
  | .missing => .error .read
  | .unreadable => .error .read
  | .malformed error => .error (.policy ("invalid TOML: " ++ error))
  | .document doc => (write doc).map .document

theorem ConfigFile.edit_eq_ok {write : Table → Except ConfigError Table} {file file' : ConfigFile} :
    file.edit write = .ok file' ↔
      ∃ doc doc', file = .document doc ∧ write doc = .ok doc' ∧ file' = .document doc' := by
  cases file with
  | document doc => cases h : write doc <;> simp [edit, h, Except.map, eq_comm]
  | _ => simp [edit]

def ConfigFile.read : ConfigFile → Except ConfigError Config
  | .missing => .ok .default
  | .unreadable => .error .read
  | .malformed _ => .error .parse
  | .document doc =>
    match Config.fromToml doc with
    | none => .error .parse
    | some config => .ok config

theorem ConfigFile.read_document {doc : Table} {config : Config} :
    (ConfigFile.document doc).read = .ok config ↔ Config.fromToml doc = some config := by
  cases h : Config.fromToml doc <;> simp [read, h]

/-- How `std::fs::write` ends. It truncates the file before it writes, so that an error may leave
the file as it was, where it could not be opened, or cut short, as on a full disk. -/
inductive WriteOutcome where
  | whole
  | refused
  | cut (left : ConfigFile)

/-- What a request finds around the server: the environment of the process, whether
the blocking task that rebuilds the service comes to its end, and how a write of the file ends. -/
structure World where
  env : Environment
  joined : Bool
  write : WriteOutcome := .whole

/-- The layers and the MCP service, which are wired once and never swapped. -/
structure Layers where
  corsOrigins : List String
  mcpAllowedHosts : List String
  mcpAllowedOrigins : List String
  mcpMaxRequestBodyBytes : UInt64
  maxConnections : UInt64
  bodyLimit : UInt64
  deriving DecidableEq

def Layers.build (server : ServerConfig) : Layers :=
  let allowedOrigins := effectiveOrigins server server.tls.certPath.isSome
  { corsOrigins := allowedOrigins
    mcpAllowedHosts := server.allowedHosts
    mcpAllowedOrigins := allowedOrigins
    mcpMaxRequestBodyBytes := server.maxBodyBytes
    maxConnections := server.maxConnections
    bodyLimit := server.maxBodyBytes }

/-- A server that listens. Its file is missing from the state when it was started
without one. -/
structure ServerState where
  file : Option ConfigFile
  running : Config
  security : SecurityState
  layers : Layers
  explicitToken : Option String
  listener : Net.SocketAddr

section Reload

variable (Url : Type) [UrlCrate Url] [TimeCrate] [HttpCrate]

def Config.loadOptional (file : ConfigFile) : Except ConfigError Config := do
  let config ← file.read
  config.validate Url
  return config

theorem Config.loadOptional_eq_ok {file : ConfigFile} {config : Config} :
    Config.loadOptional Url file = .ok config ↔
      file.read = .ok config ∧ config.validate Url = .ok () := by
  constructor
  · intro h
    obtain ⟨read, hr, h⟩ := bind_eq_ok.1 h
    obtain ⟨⟨⟩, valid, h⟩ := bind_eq_ok.1 h
    cases h
    exact ⟨hr, valid⟩
  · rintro ⟨read, valid⟩
    simp [Config.loadOptional, read, valid, bind, Except.bind, pure, Except.pure]

variable [Sha256]

/-- The router of a validated configuration, on the address it will listen on. -/
def buildRouterWithReload (env : Environment) (config : Config) (explicitToken : Option String)
    (file : Option ConfigFile) (listener : Net.SocketAddr) : Option ServerState := do
  (config.validate Url).toOption
  let clients ← resolveClients env config explicitToken
  let layers := Layers.build config.server
  if layers.corsOrigins.all HttpCrate.headerValue then
    some { file, running := config, security := .build clients config.server, layers,
           explicitToken, listener }
  else none

def serveWithConfigPath (env : Environment) (config : Config) (file : Option ConfigFile) :
    Option ServerState := do
  let ip ← Net.parseIpAddr config.server.bind
  buildRouterWithReload Url env config none file { ip, port := config.server.port }

/-- Start on a file, with the address and the port of the command line over those
of the file. -/
def serveCommand (env : Environment) (file : ConfigFile) (bind : Option String)
    (port : Option UInt16) : Option ServerState := do
  let config ← (Config.loadOptional Url file).toOption
  let config := { config with
    server := { config.server with
      bind := bind.getD config.server.bind
      port := port.getD config.server.port } }
  (config.validate Url).toOption
  serveWithConfigPath Url env config (some file)

/-- Everything a started server stands on. -/
theorem buildRouterWithReload_eq_some {env : Environment} {config : Config}
    {explicitToken : Option String} {file : Option ConfigFile} {listener : Net.SocketAddr}
    {s : ServerState} :
    buildRouterWithReload Url env config explicitToken file listener = some s ↔
      config.validate Url = .ok () ∧
      (Layers.build config.server).corsOrigins.all HttpCrate.headerValue = true ∧
      ∃ clients, resolveClients env config explicitToken = some clients ∧
        s = { file, running := config, security := .build clients config.server,
              layers := .build config.server, explicitToken, listener } := by
  unfold buildRouterWithReload
  cases valid : config.validate Url with
  | error error => simp [Except.toOption]
  | ok done =>
    cases resolved : resolveClients env config explicitToken with
    | none => simp [Except.toOption]
    | some clients =>
      cases allowed : (Layers.build config.server).corsOrigins.all HttpCrate.headerValue with
      | false => simp [Except.toOption, allowed]
      | true =>
        simp only [Except.toOption, Option.bind_some, bind, allowed, if_true, Option.some.injEq,
          true_and, exists_eq_left']
        exact eq_comm

theorem serveCommand_eq_some {env : Environment} {file : ConfigFile} {bind : Option String}
    {port : Option UInt16} {s : ServerState}
    (h : serveCommand Url env file bind port = some s) :
    (∃ loaded, Config.loadOptional Url file = .ok loaded) ∧
    ∃ config ip, Net.parseIpAddr config.server.bind = some ip ∧
      buildRouterWithReload Url env config none (some file) ⟨ip, config.server.port⟩ = some s := by
  obtain ⟨loaded, loads, h⟩ := Option.bind_eq_some_iff.1 h
  obtain ⟨⟨⟩, -, h⟩ := Option.bind_eq_some_iff.1 h
  obtain ⟨ip, parsed, h⟩ := Option.bind_eq_some_iff.1 h
  refine ⟨⟨loaded, ?_⟩, _, ip, parsed, h⟩
  cases result : Config.loadOptional Url file with
  | error error => simp [result, Except.toOption] at loads
  | ok config => simpa [result, Except.toOption] using loads

namespace ServerState

def source (s : ServerState) : Except ConfigError Config :=
  match s.file with
  | none => .ok s.running
  | some file => Config.loadOptional Url file

/-- The replacement is built in full before anything is swapped. -/
def reload (w : World) (s : ServerState) : Except ErrorCode ServerState :=
  match s.source Url with
  | .error _ => .error .configurationInvalid
  | .ok config =>
    match resolveClients w.env config s.explicitToken with
    | none => .error .configurationInvalid
    | some clients =>
      if w.joined && (config.validate Url).isOk then
        .ok { s with running := config, security := .build clients config.server }
      else .error .configurationInvalid

/-- Everything a reload can do. -/
theorem reload_eq_ok {w : World} {s s' : ServerState} :
    s.reload Url w = .ok s' ↔
      ∃ config clients, s.source Url = .ok config ∧ config.validate Url = .ok () ∧
        resolveClients w.env config s.explicitToken = some clients ∧ w.joined = true ∧
        s' = { s with running := config, security := .build clients config.server } := by
  unfold reload
  cases read : s.source Url with
  | error error => simp
  | ok config =>
    cases resolved : resolveClients w.env config s.explicitToken with
    | none => simp [resolved]
    | some clients =>
      cases valid : config.validate Url with
      | error error => simp [valid, resolved, Except.isOk, Except.toBool]
      | ok done => cases w.joined <;> simp [valid, resolved, Except.isOk, Except.toBool, eq_comm]

end ServerState

end Reload

/-- A change of the configuration: what the handler validates before it writes,
what it writes, and whether it applies the file itself. -/
structure ConfigChange where
  candidate : Option Config
  write : Table → Except ConfigError Table
  reloads : Bool := true

/-- What a handler makes of a request against the running configuration. -/
abbrev Handler := Config → Except ErrorCode ConfigChange

def answerToggle (enabled : Bool) : Handler := fun running =>
  .ok {
    candidate := some { running with answer := { running.answer with enabled := enabled } }
    write := setAnswerEnabled enabled }

/-- The candidate drops every occurrence of a disabled name. -/
def withProvider (name : String) (enabled : Bool) (names : List String) : List String :=
  if enabled && !names.contains name then names ++ [name]
  else if !enabled then names.filter (fun existing => existing != name)
  else names

def providerToggle (name : String) (enabled : Bool) : Handler := fun running =>
  .ok {
    candidate := some { running with
      providers := { running.providers with
        enabled := withProvider name enabled running.providers.enabled } }
    write := setProviderEnabled name enabled }

structure ProviderRecordParams where
  adapterVersion : Option String := none
  approvalStatus : Option ApprovalStatus := none
  reviewedAt : Option String := none
  reviewer : Option String := none
  termsUrl : Option String := none
  termsVersionOrDate : Option String := none
  allowedAccessMethod : Option String := none
  planOrContract : Option String := none
  rateLimit : Option String := none
  costModel : Option String := none
  credentialEnv : Option String := none
  storageRights : Option Bool := none
  supportedRegions : Option (List String) := none
  supportedFilters : Option (List String) := none
  dataHandlingNotes : Option String := none
  operationalRisk : Option String := none

def clearablePatchField (current incoming : Option String) : Option String :=
  incoming.elim current clearable

def applyProviderRecordParams (existing : ProviderRuntimeConfig) (params : ProviderRecordParams) :
    ProviderRuntimeConfig where
  adapterVersion := clearablePatchField existing.adapterVersion params.adapterVersion
  approvalStatus := params.approvalStatus.getD existing.approvalStatus
  reviewedAt := clearablePatchField existing.reviewedAt params.reviewedAt
  reviewer := clearablePatchField existing.reviewer params.reviewer
  termsUrl := clearablePatchField existing.termsUrl params.termsUrl
  termsVersionOrDate := clearablePatchField existing.termsVersionOrDate params.termsVersionOrDate
  allowedAccessMethod :=
    clearablePatchField existing.allowedAccessMethod params.allowedAccessMethod
  planOrContract := clearablePatchField existing.planOrContract params.planOrContract
  rateLimit := clearablePatchField existing.rateLimit params.rateLimit
  costModel := clearablePatchField existing.costModel params.costModel
  credentialEnv := clearablePatchField existing.credentialEnv params.credentialEnv
  storageRights := params.storageRights.getD existing.storageRights
  supportedRegions := params.supportedRegions.getD existing.supportedRegions
  supportedFilters := params.supportedFilters.getD existing.supportedFilters
  dataHandlingNotes := clearablePatchField existing.dataHandlingNotes params.dataHandlingNotes
  operationalRisk := clearablePatchField existing.operationalRisk params.operationalRisk

def ProviderConfig.declare (name : String) (record : ProviderRuntimeConfig)
    (config : ProviderConfig) : ProviderConfig :=
  { config with declared := OrdMap.insert name record config.declared }

def updateProviderRecord (name : String) (params : ProviderRecordParams) : Handler :=
  fun running =>
    let existing := (OrdMap.get? name running.providers.declared).getD .default
    let updated := applyProviderRecordParams existing params
    .ok {
      candidate := some { running with providers := running.providers.declare name updated }
      write := upsertProviderRecord name updated }

def digestToHex (digest : Digest) : String :=
  String.join (digest.toList.map (fun byte =>
    String.ofList [Nat.digitChar (byte.toNat / 16), Nat.digitChar (byte.toNat % 16)]))

def Config.withClients (c : Config) (clients : List ServerClient) : Config :=
  { c with server := { c.server with clients := clients } }

structure CreateServerClientParams where
  id : String
  scopes : List Scope
  tools : List String
  expiresAt : Option String

/-- A missing expiry leaves the old one, an explicit `null` clears it. -/
structure UpdateServerClientParams where
  scopes : Option (List Scope)
  tools : Option (List String)
  expiresAt : Option (Option String)

section Clients

variable [Sha256]

/-- The random bytes are those of a fresh token, whose digest alone is kept. -/
def mintedDigest (random : Digest) : String := digestToHex (tokenDigest (digestToHex random))

def createServerClient (params : CreateServerClientParams) (random : Digest) : Handler :=
  fun running =>
    let client : ServerClient :=
      { id := params.id, tokenEnv := none, tokenSha256 := some (mintedDigest random),
        expiresAt := params.expiresAt, scopes := params.scopes, tools := params.tools }
    if running.server.clients.any (fun existing => existing.id == client.id) then .error .conflict
    else .ok {
      candidate := some (running.withClients (running.server.clients ++ [client]))
      write := upsertServerClient client }

def replaceClient (id : String) (update : ServerClient → ServerClient) : Handler :=
  fun running =>
    match running.server.clients.find? (fun client => client.id == id) with
    | none => .error .notFound
    | some existing => .ok {
        candidate := some (running.withClients (running.server.clients.map
          (fun client => if client.id == id then update existing else client)))
        write := upsertServerClient (update existing) }

def updateServerClient (id : String) (params : UpdateServerClientParams) : Handler :=
  replaceClient id fun existing =>
    { existing with
      expiresAt := params.expiresAt.getD existing.expiresAt
      scopes := params.scopes.getD existing.scopes
      tools := params.tools.getD existing.tools }

def rotateServerClientToken (id : String) (random : Digest) : Handler :=
  replaceClient id fun existing =>
    { existing with tokenEnv := none, tokenSha256 := some (mintedDigest random) }

/-- The one handler that writes without a candidate. -/
def deleteServerClient (id : String) : Handler := fun running =>
  if running.server.clients.any (fun client => client.id == id) then
    .ok { candidate := none, write := fun doc => .ok (removeServerClient id doc) }
  else .error .notFound

end Clients

/-- A patch of one section, validated in memory and written to the file. -/
def patchSection (patch : SectionPatch) : Handler := fun running =>
  .ok { candidate := some (patch.apply running), write := patch.write }

def dataPolicyUpdate (patch : DataPolicyConfigPatch) : Handler := patchSection (.dataPolicy patch)

def updateInference (patch : InferenceConfigPatch) : Handler := patchSection (.inference patch)

def updateAnswerFields (patch : AnswerConfigPatch) : Handler := patchSection (.answer patch)

def updatePersistence (patch : PersistenceConfigPatch) : Handler :=
  patchSection (.persistence patch)

def updateTelemetry (patch : TelemetryConfigPatch) : Handler := patchSection (.telemetry patch)

def updateDeep (patch : DeepConfigPatch) : Handler := patchSection (.deep patch)

def updateDeepExtractor (patch : ExtractorConfigPatch) : Handler := patchSection (.extractor patch)

def updateDeepRenderer (patch : RendererConfigPatch) : Handler := patchSection (.renderer patch)

/-- The one handler that leaves the running configuration behind the file. -/
def updateServerPendingConfig (patch : ServerConfigPatch) : Handler := fun running =>
  .ok {
    candidate := some ((SectionPatch.server patch).apply running)
    write := (SectionPatch.server patch).write
    reloads := false }

/-- A JSON body as each kind of policy reads it. -/
structure PolicyBody where
  ranking : Option RankingPolicyV1
  diversity : Option DiversityPolicyV1
  search : Option SearchPolicyV1
  rankingV2 : Option RankingV2Policy
  gaps : Option GapPolicyV1

/-- The policy a path names, in the shape its body has to have. -/
def PolicyBody.policy (name : String) (body : PolicyBody) : Except ErrorCode ResultPolicy :=
  let decoded := fun (policy : Option ResultPolicy) => policy.elim (.error .invalidRequest) .ok
  match name with
  | "ranking" => decoded (body.ranking.map .ranking)
  | "diversity" => decoded (body.diversity.map .diversity)
  | "search" => decoded (body.search.map .search)
  | "ranking_v2" => decoded (body.rankingV2.map .rankingV2)
  | "gaps" => decoded (body.gaps.map .gaps)
  | _ => .error .notFound

def updatePolicy (name : String) (body : PolicyBody) : Handler := fun running =>
  match body.policy name with
  | .error code => .error code
  | .ok policy => .ok { candidate := some (policy.apply running), write := policy.write }

/-- The admin requests that change the configuration. A body that the JSON
extractor refuses reaches no handler. -/
inductive AdminRequest where
  | malformed
  | reload
  | answerToggle (enabled : Bool)
  | providerToggle (name : String) (enabled : Bool)
  | updateProviderRecord (name : String) (params : ProviderRecordParams)
  | createServerClient (params : CreateServerClientParams) (random : Digest)
  | updateServerClient (id : String) (params : UpdateServerClientParams)
  | deleteServerClient (id : String)
  | rotateServerClientToken (id : String) (random : Digest)
  | dataPolicyUpdate (patch : DataPolicyConfigPatch)
  | updateInference (patch : InferenceConfigPatch)
  | updateAnswerFields (patch : AnswerConfigPatch)
  | updatePolicy (name : String) (body : PolicyBody)
  | updatePersistence (patch : PersistenceConfigPatch)
  | updateTelemetry (patch : TelemetryConfigPatch)
  | updateDeep (patch : DeepConfigPatch)
  | updateDeepExtractor (patch : ExtractorConfigPatch)
  | updateDeepRenderer (patch : RendererConfigPatch)
  | updateServerPendingConfig (patch : ServerConfigPatch)

/-- The handler a request is routed to, for the requests that rewrite the file. -/
def AdminRequest.handler [Sha256] : AdminRequest → Option Handler
  | .malformed => none
  | .reload => none
  | .answerToggle enabled => some (Amatl.answerToggle enabled)
  | .providerToggle name enabled => some (Amatl.providerToggle name enabled)
  | .updateProviderRecord name params => some (Amatl.updateProviderRecord name params)
  | .createServerClient params random => some (Amatl.createServerClient params random)
  | .updateServerClient id params => some (Amatl.updateServerClient id params)
  | .deleteServerClient id => some (Amatl.deleteServerClient id)
  | .rotateServerClientToken id random => some (Amatl.rotateServerClientToken id random)
  | .dataPolicyUpdate patch => some (Amatl.dataPolicyUpdate patch)
  | .updateInference patch => some (Amatl.updateInference patch)
  | .updateAnswerFields patch => some (Amatl.updateAnswerFields patch)
  | .updatePolicy name body => some (Amatl.updatePolicy name body)
  | .updatePersistence patch => some (Amatl.updatePersistence patch)
  | .updateTelemetry patch => some (Amatl.updateTelemetry patch)
  | .updateDeep patch => some (Amatl.updateDeep patch)
  | .updateDeepExtractor patch => some (Amatl.updateDeepExtractor patch)
  | .updateDeepRenderer patch => some (Amatl.updateDeepRenderer patch)
  | .updateServerPendingConfig patch => some (Amatl.updateServerPendingConfig patch)

section Handle

variable (Url : Type) [UrlCrate Url] [TimeCrate] [HttpCrate] [Sha256]

/-- The file as a handler writes it: the running configuration gives the
candidate, the candidate is validated, and the file is edited. -/
def Handler.rewrite (handler : Handler) (running : Config) (file : ConfigFile) :
    Except ErrorCode (ConfigFile × Bool) :=
  match handler running with
  | .error code => .error code
  | .ok change =>
    if change.candidate.all (fun candidate => (candidate.validate Url).isOk) then
      match file.edit change.write with
      | .error _ => .error .configurationInvalid
      | .ok file => .ok (file, change.reloads)
    else .error .configurationInvalid

namespace ServerState

def applied (w : World) (s : ServerState) : Except ErrorCode Unit × ServerState :=
  match s.reload Url w with
  | .error code => (.error code, s)
  | .ok s' => (.ok (), s')

/-- A handler under the write lock: validate, write, reload. -/
def rewritten (w : World) (handler : Handler) (s : ServerState) :
    Except ErrorCode Unit × ServerState :=
  match s.file with
  | none => (.error .configurationInvalid, s)
  | some file =>
    match handler.rewrite Url s.running file, w.write with
    | .error code, _ => (.error code, s)
    | .ok _, .refused => (.error .configurationInvalid, s)
    | .ok _, .cut left => (.error .configurationInvalid, { s with file := some left })
    | .ok (file, false), .whole => (.ok (), { s with file := some file })
    | .ok (file, true), .whole => { s with file := some file }.applied Url w

def handle (w : World) (request : AdminRequest) (s : ServerState) :
    Except ErrorCode Unit × ServerState :=
  match request.handler with
  | some handler => s.rewritten Url w handler
  | none =>
    match request with
    | .reload => s.applied Url w
    | _ => (.error .invalidRequest, s)

end ServerState

end Handle

end Amatl
