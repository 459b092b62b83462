import Amatl.Server.Admin

/-! The route table against the scopes: which handler a path leads to, and what a
request has shown when it gets there. -/

namespace Amatl

/-- A piece of a registered path: fixed, `{name}`, or `{*name}` for all that is
left. -/
inductive Segment where
  | exact (text : String)
  | param (name : String)
  | rest (name : String)
  deriving DecidableEq

abbrev Pattern := List Segment

def Segment.fill (values : String → String) : Segment → String
  | .exact text => text
  | .param name => values name
  | .rest name => values name

/-- The path that a pattern and the values of its parameters make. -/
def Pattern.fill (values : String → String) : Pattern → String
  | [] => ""
  | s :: pattern => "/" ++ s.fill values ++ Pattern.fill values pattern

/-- The matcher behind `Router::route`: the registered pattern of a path, and the
values of its parameters. -/
class RouterCrate where
  matched : List Pattern → String → Option (Pattern × (String → String))

/-- A path is matched to a registered pattern that it fills. -/
def RouterCrate.Sound [RouterCrate] : Prop :=
  ∀ (patterns : List Pattern) (path : String) (pattern : Pattern) (values : String → String),
    matched patterns path = some (pattern, values) → pattern ∈ patterns ∧
      path = pattern.fill values

/-- The handlers of the public routes. -/
inductive Endpoint where
  | search | searchPost | deep | deepPost | answerPost | updateAnswerFields | providers | status
  | history | purgeHistory | deleteHistoryEntry | savedDocuments | saveDocument
  | deleteSavedDocument | reload | answerToggle | providerToggle | providerRecord
  | updateProviderRecord | updateInference | listServerClients | createServerClient
  | updateServerClient | deleteServerClient | rotateServerClientToken | serverPendingConfig
  | updateServerPendingConfig | dataPolicyUpdate | policies | updatePolicy | persistenceConfig
  | updatePersistence | listBackups | createBackup | circuits | resetCircuits | telemetryConfig
  | updateTelemetry | deepConfig | updateDeep | updateDeepExtractor | updateDeepRenderer
  | securityEvents | health | ready | metrics
  deriving DecidableEq

structure Route where
  path : Pattern
  methods : List (Method × Endpoint)

def publicRoutes : List Route :=
  [⟨[.exact "search"], [(.get, .search), (.post, .searchPost)]⟩,
   ⟨[.exact "deep"], [(.get, .deep), (.post, .deepPost)]⟩,
   ⟨[.exact "answer"], [(.post, .answerPost), (.patch, .updateAnswerFields)]⟩,
   ⟨[.exact "providers"], [(.get, .providers)]⟩,
   ⟨[.exact "status"], [(.get, .status)]⟩,
   ⟨[.exact "history"], [(.get, .history), (.delete, .purgeHistory)]⟩,
   ⟨[.exact "history", .param "id"], [(.delete, .deleteHistoryEntry)]⟩,
   ⟨[.exact "saved"], [(.get, .savedDocuments), (.post, .saveDocument)]⟩,
   ⟨[.exact "saved", .param "id"], [(.delete, .deleteSavedDocument)]⟩,
   ⟨[.exact "reload"], [(.post, .reload)]⟩,
   ⟨[.exact "answer", .exact "enabled"], [(.post, .answerToggle)]⟩,
   ⟨[.exact "providers", .param "name", .exact "enabled"], [(.post, .providerToggle)]⟩,
   ⟨[.exact "providers", .param "name"],
     [(.get, .providerRecord), (.patch, .updateProviderRecord)]⟩,
   ⟨[.exact "inference"], [(.patch, .updateInference)]⟩,
   ⟨[.exact "server", .exact "clients"],
     [(.get, .listServerClients), (.post, .createServerClient)]⟩,
   ⟨[.exact "server", .exact "clients", .param "id"],
     [(.patch, .updateServerClient), (.delete, .deleteServerClient)]⟩,
   ⟨[.exact "server", .exact "clients", .param "id", .exact "rotate"],
     [(.post, .rotateServerClientToken)]⟩,
   ⟨[.exact "server", .exact "pending-config"],
     [(.get, .serverPendingConfig), (.patch, .updateServerPendingConfig)]⟩,
   ⟨[.exact "data-policy"], [(.post, .dataPolicyUpdate)]⟩,
   ⟨[.exact "policies"], [(.get, .policies)]⟩,
   ⟨[.exact "policies", .param "name"], [(.patch, .updatePolicy)]⟩,
   ⟨[.exact "persistence"], [(.get, .persistenceConfig), (.patch, .updatePersistence)]⟩,
   ⟨[.exact "persistence", .exact "backups"], [(.get, .listBackups)]⟩,
   ⟨[.exact "persistence", .exact "backup"], [(.post, .createBackup)]⟩,
   ⟨[.exact "circuits"], [(.get, .circuits)]⟩,
   ⟨[.exact "circuits", .exact "reset"], [(.post, .resetCircuits)]⟩,
   ⟨[.exact "telemetry"], [(.get, .telemetryConfig), (.patch, .updateTelemetry)]⟩,
   ⟨[.exact "deep", .exact "limits"], [(.get, .deepConfig), (.patch, .updateDeep)]⟩,
   ⟨[.exact "deep", .exact "extractor"], [(.patch, .updateDeepExtractor)]⟩,
   ⟨[.exact "deep", .exact "renderer"], [(.patch, .updateDeepRenderer)]⟩,
   ⟨[.exact "security-events"], [(.get, .securityEvents)]⟩,
   ⟨[.exact "health"], [(.get, .health)]⟩,
   ⟨[.exact "ready"], [(.get, .ready)]⟩,
   ⟨[.exact "metrics"], [(.get, .metrics)]⟩]

/-- The patterns under which `nest_service` mounts the MCP service. -/
def mcpPatterns : List Pattern := [[.exact "mcp"], [.exact "mcp", .rest "tail"]]

/-- What the router hands a request to. -/
inductive Target where
  | handler (endpoint : Endpoint)
  | mcp
  | methodNotAllowed
  | staticAsset
  deriving DecidableEq

/-- `GET` handlers also answer `HEAD`. -/
def Route.endpoint (route : Route) (method : Method) : Option Endpoint :=
  route.methods.lookup method <|> if method = .head then route.methods.lookup .get else none

def routed [RouterCrate] (request : Request) : Target :=
  match RouterCrate.matched (publicRoutes.map Route.path ++ mcpPatterns) request.path with
  | none => .staticAsset
  | some (pattern, _) =>
    if pattern ∈ mcpPatterns then .mcp
    else match publicRoutes.find? (fun route => decide (route.path = pattern)) with
      | none => .staticAsset
      | some route => (route.endpoint request.method).elim .methodNotAllowed .handler

inductive Effect where
  | rewritesConfiguration | managesCredentials | reloads | resetsCircuits | writesBackup
  | recordsHistory | deletesHistory | storesDocument | deletesDocument
  deriving DecidableEq

/-- The searches leave an entry in the history when it is enabled. -/
def Endpoint.effects : Endpoint → List Effect
  | .search | .searchPost | .deep | .deepPost | .answerPost => [.recordsHistory]
  | .purgeHistory | .deleteHistoryEntry => [.deletesHistory]
  | .saveDocument => [.storesDocument]
  | .deleteSavedDocument => [.deletesDocument]
  | .reload => [.reloads]
  | .answerToggle | .providerToggle | .updateProviderRecord | .updateInference
  | .updateAnswerFields | .dataPolicyUpdate | .updatePolicy | .updatePersistence
  | .updateTelemetry | .updateDeep | .updateDeepExtractor | .updateDeepRenderer =>
    [.rewritesConfiguration, .reloads]
  | .updateServerPendingConfig => [.rewritesConfiguration]
  | .listServerClients => [.managesCredentials]
  | .createServerClient | .updateServerClient | .deleteServerClient
  | .rotateServerClientToken => [.rewritesConfiguration, .managesCredentials, .reloads]
  | .createBackup => [.writesBackup]
  | .resetCircuits => [.resetsCircuits]
  | .providers | .status | .history | .savedDocuments | .providerRecord | .serverPendingConfig
  | .policies | .persistenceConfig | .listBackups | .circuits | .telemetryConfig | .deepConfig
  | .securityEvents | .health | .ready | .metrics => []

def AdminRequest.endpoint : AdminRequest → Option Endpoint
  | .malformed => none
  | .reload => some .reload
  | .answerToggle _ => some .answerToggle
  | .providerToggle _ _ => some .providerToggle
  | .updateProviderRecord _ _ => some .updateProviderRecord
  | .createServerClient _ _ => some .createServerClient
  | .updateServerClient _ _ => some .updateServerClient
  | .deleteServerClient _ => some .deleteServerClient
  | .rotateServerClientToken _ _ => some .rotateServerClientToken
  | .dataPolicyUpdate _ => some .dataPolicyUpdate
  | .updateInference _ => some .updateInference
  | .updateAnswerFields _ => some .updateAnswerFields
  | .updatePolicy _ _ => some .updatePolicy
  | .updatePersistence _ => some .updatePersistence
  | .updateTelemetry _ => some .updateTelemetry
  | .updateDeep _ => some .updateDeep
  | .updateDeepExtractor _ => some .updateDeepExtractor
  | .updateDeepRenderer _ => some .updateDeepRenderer
  | .updateServerPendingConfig _ => some .updateServerPendingConfig

/-- The scopes that stand for an effect. A search needs its own scope, and no other
for the entry it leaves. -/
def Effect.scopes : Effect → List Scope
  | .rewritesConfiguration | .managesCredentials | .reloads | .resetsCircuits
  | .writesBackup => [.admin]
  | .deletesHistory | .storesDocument | .deletesDocument => [.write]
  | .recordsHistory => [.search, .deep]

/-- The path asks for a scope of everything the handler does. -/
def Guarded (method : Method) (path : String) (endpoint : Endpoint) : Prop :=
  ∀ effect ∈ endpoint.effects, ∃ scope ∈ effect.scopes, requiredScope method path = some scope

instance (method : Method) (path : String) (endpoint : Endpoint) :
    Decidable (Guarded method path endpoint) :=
  inferInstanceAs (Decidable (∀ effect ∈ endpoint.effects, ∃ scope ∈ effect.scopes, _))

theorem requiredScope_eq_none {method : Method} {path : String} :
    requiredScope method path = none ↔
      path ∈ ["/health", "/ready", "/metrics"] ∨ isAsset path = true := by
  unfold requiredScope
  by_cases h : (["/health", "/ready", "/metrics"].contains path || isAsset path) = true
  · rw [if_pos h]
    simpa using h
  · rw [if_neg h]
    simp only [Bool.or_eq_true, List.contains_iff_mem] at h
    simp only [h, iff_false, ← ne_eq, ← Option.isSome_iff_ne_none, apply_ite Option.isSome,
      Option.isSome_some, ite_self]

/-! The scopes of the paths with parameters. -/

theorem requiredScope_providerToggle (method : Method) (name : String) :
    requiredScope method ("/providers/" ++ (name ++ "/enabled")) = some .admin := by
  have ends : Text.endsWith "/enabled" ("/providers/" ++ (name ++ "/enabled")) = true := by
    rw [← String.append_assoc]
    exact Text.endsWith_append _ _
  simp (disch := decide) [requiredScope, isAsset, Text.append_ne_of_clash, Text.startsWith_append,
    ends]

theorem requiredScope_updateProviderRecord (name : String) :
    requiredScope .patch ("/providers/" ++ name) = some .admin := by
  simp (disch := decide) [requiredScope, isAsset, Text.append_ne_of_clash, Text.startsWith_append]

theorem requiredScope_serverClients (method : Method) (id : String) :
    requiredScope method ("/server/clients/" ++ id) = some .admin := by
  simp (disch := decide) [requiredScope, isAsset, Text.append_ne_of_clash, Text.startsWith_append,
    Text.startsWith_append_of_clash]

theorem requiredScope_updatePolicy (method : Method) (name : String) :
    requiredScope method ("/policies/" ++ name) = some .admin := by
  simp (disch := decide) [requiredScope, isAsset, Text.append_ne_of_clash, Text.startsWith_append,
    Text.startsWith_append_of_clash]

theorem requiredScope_history (method : Method) (id : String) :
    requiredScope method ("/history/" ++ id) = some .write := by
  simp (disch := decide) [requiredScope, isAsset, Text.append_ne_of_clash, Text.startsWith_append,
    Text.startsWith_append_of_clash]

theorem requiredScope_saved (method : Method) (id : String) :
    requiredScope method ("/saved/" ++ id) = some .write := by
  simp (disch := decide) [requiredScope, isAsset, Text.append_ne_of_clash, Text.startsWith_append,
    Text.startsWith_append_of_clash]

theorem requiredScope_mcp (method : Method) (tail : String) :
    requiredScope method ("/mcp/" ++ tail) = some .mcp := by
  simp (disch := decide) [requiredScope, isAsset, Text.append_ne_of_clash, Text.startsWith_append,
    Text.startsWith_append_of_clash]

def Segment.isExact : Segment → Bool
  | .exact _ => true
  | _ => false

theorem Pattern.fill_of_exact {pattern : Pattern} (h : pattern.all Segment.isExact = true)
    (values values' : String → String) : pattern.fill values = pattern.fill values' := by
  induction pattern with
  | nil => rfl
  | cons s pattern ih =>
    simp only [List.all_cons, Bool.and_eq_true] at h
    cases s with
    | exact text => simp only [Pattern.fill, Segment.fill, ih h.2]
    | param name => cases h.1
    | rest name => cases h.1

def paramRoutes : List Route :=
  publicRoutes.filter (fun route => !route.path.all Segment.isExact)

theorem Route.endpoint_eq_some {route : Route} {method : Method} {endpoint : Endpoint}
    (h : route.endpoint method = some endpoint) :
    (method, endpoint) ∈ route.methods ∨ method = .head ∧ (.get, endpoint) ∈ route.methods := by
  have listed : ∀ m : Method, route.methods.lookup m = some endpoint →
      (m, endpoint) ∈ route.methods := by
    intro m found
    obtain ⟨before, after, eq, -⟩ := List.lookup_eq_some_iff.1 found
    simp [eq]
  unfold Route.endpoint at h
  cases found : route.methods.lookup method with
  | some other =>
    simp only [found, HOrElse.hOrElse, OrElse.orElse, Option.orElse] at h
    exact .inl (listed method (found.trans h))
  | none =>
    simp only [found, HOrElse.hOrElse, OrElse.orElse, Option.orElse,
      Option.ite_none_right_eq_some] at h
    exact .inr ⟨h.1, listed _ h.2⟩

theorem guarded_fixed : ∀ route ∈ publicRoutes, route.path.all Segment.isExact = true →
    ∀ entry ∈ route.methods,
      Guarded entry.1 (route.path.fill (fun _ => "")) entry.2 ∧
        (entry.1 = .get → Guarded .head (route.path.fill (fun _ => "")) entry.2) := by
  decide +kernel

theorem guarded_of_scope {method : Method} {path : String} {endpoint : Endpoint} (scope : Scope)
    (h : requiredScope method path = some scope)
    (stands : ∀ effect ∈ endpoint.effects, scope ∈ effect.scopes) :
    Guarded method path endpoint :=
  fun effect mem => ⟨scope, stands effect mem, h⟩

theorem guarded_param (values : String → String) : ∀ route ∈ paramRoutes,
    ∀ entry ∈ route.methods,
      Guarded entry.1 (route.path.fill values) entry.2 ∧
        (entry.1 = .get → Guarded .head (route.path.fill values) entry.2) := by
  have routes : paramRoutes =
      [⟨[.exact "history", .param "id"], [(.delete, .deleteHistoryEntry)]⟩,
       ⟨[.exact "saved", .param "id"], [(.delete, .deleteSavedDocument)]⟩,
       ⟨[.exact "providers", .param "name", .exact "enabled"], [(.post, .providerToggle)]⟩,
       ⟨[.exact "providers", .param "name"],
         [(.get, .providerRecord), (.patch, .updateProviderRecord)]⟩,
       ⟨[.exact "server", .exact "clients", .param "id"],
         [(.patch, .updateServerClient), (.delete, .deleteServerClient)]⟩,
       ⟨[.exact "server", .exact "clients", .param "id", .exact "rotate"],
         [(.post, .rotateServerClientToken)]⟩,
       ⟨[.exact "policies", .param "name"], [(.patch, .updatePolicy)]⟩] := by rfl
  simp only [routes, List.mem_cons, List.not_mem_nil, or_false, forall_eq_or_imp, forall_eq,
    Pattern.fill, Segment.fill, String.append_empty, ← String.append_assoc, String.reduceAppend]
  refine ⟨⟨?_, nofun⟩, ⟨?_, nofun⟩, ⟨?_, nofun⟩, ⟨⟨?_, fun _ => ?_⟩, ?_, nofun⟩,
    ⟨⟨?_, nofun⟩, ?_, nofun⟩, ⟨?_, nofun⟩, ?_, nofun⟩
  · exact guarded_of_scope .write (requiredScope_history _ _) (by decide)
  · exact guarded_of_scope .write (requiredScope_saved _ _) (by decide)
  · rw [String.append_assoc]
    exact guarded_of_scope .admin (requiredScope_providerToggle _ _) (by decide)
  · exact nofun
  · exact nofun
  · exact guarded_of_scope .admin (requiredScope_updateProviderRecord _) (by decide)
  · exact guarded_of_scope .admin (requiredScope_serverClients _ _) (by decide)
  · exact guarded_of_scope .admin (requiredScope_serverClients _ _) (by decide)
  · rw [String.append_assoc]
    exact guarded_of_scope .admin (requiredScope_serverClients _ _) (by decide)
  · exact guarded_of_scope .admin (requiredScope_updatePolicy _ _) (by decide)

/-- Every path of every route asks for the scope of what its handler does. -/
theorem guarded_route {route : Route} (mem : route ∈ publicRoutes) {method : Method}
    {endpoint : Endpoint} (h : route.endpoint method = some endpoint) (values : String → String) :
    Guarded method (route.path.fill values) endpoint := by
  have entries : ∀ entry ∈ route.methods,
      Guarded entry.1 (route.path.fill values) entry.2 ∧
        (entry.1 = .get → Guarded .head (route.path.fill values) entry.2) := by
    by_cases exact : route.path.all Segment.isExact = true
    · rw [Pattern.fill_of_exact exact values (fun _ => "")]
      exact guarded_fixed route mem exact
    · exact guarded_param values route (List.mem_filter.2 ⟨mem, by simpa using exact⟩)
  rcases Route.endpoint_eq_some h with listed | ⟨rfl, listed⟩
  · exact (entries _ listed).1
  · exact (entries _ listed).2 rfl

theorem requiredScope_of_mcp {pattern : Pattern} (h : pattern ∈ mcpPatterns) (method : Method)
    (values : String → String) : requiredScope method (pattern.fill values) = some .mcp := by
  simp only [mcpPatterns, List.mem_cons, List.not_mem_nil, or_false] at h
  rcases h with rfl | rfl
  · have providers : Text.startsWith "/providers/" "/mcp" = false := by decide
    have clients : Text.startsWith "/server/clients/" "/mcp" = false := by decide
    have policies : Text.startsWith "/policies/" "/mcp" = false := by decide
    simp [Pattern.fill, Segment.fill, requiredScope, isAsset, providers, clients, policies]
  · have path : Pattern.fill values [.exact "mcp", .rest "tail"] = "/mcp/" ++ values "tail" := by
      simp only [Pattern.fill, Segment.fill, String.append_empty, ← String.append_assoc,
        String.reduceAppend]
    rw [path]
    exact requiredScope_mcp _ _

section Reach

variable [RouterCrate]

/-- A request that reaches a handler has a path that asks for the handler's scopes. -/
theorem guarded_of_routed (sound : RouterCrate.Sound) {request : Request} {endpoint : Endpoint}
    (h : routed request = .handler endpoint) : Guarded request.method request.path endpoint := by
  unfold routed at h
  split at h
  · cases h
  · rename_i pattern values found
    obtain ⟨-, path⟩ := sound _ _ _ _ found
    split at h
    · cases h
    · split at h
      · cases h
      · rename_i route listed
        have mem := List.mem_of_find?_eq_some listed
        have same := List.find?_some listed
        cases at_method : route.endpoint request.method with
        | none => simp [at_method] at h
        | some other =>
          simp only [at_method, Option.elim_some, Target.handler.injEq] at h
          subst h
          rw [path, ← of_decide_eq_true same]
          exact guarded_route mem at_method values

theorem requiredScope_of_routed_mcp (sound : RouterCrate.Sound) {request : Request}
    (h : routed request = .mcp) : requiredScope request.method request.path = some .mcp := by
  unfold routed at h
  split at h
  · cases h
  · rename_i pattern values found
    obtain ⟨-, path⟩ := sound _ _ _ _ found
    split at h
    · rename_i listed
      rw [path]
      exact requiredScope_of_mcp listed _ _
    · split at h
      · cases h
      · rename_i route listed
        cases at_method : route.endpoint request.method <;> simp [at_method] at h

variable [TimeCrate] [Sha256] [HttpCrate]

/-- The request carries the token of a client that has the scope and has not
expired. -/
def Presents (clients : List AuthorizedClient) (today : String) (request : Request)
    (scope : Scope) : Prop :=
  ∃ client ∈ clients, ∃ token, request.bearer = some token ∧ tokenDigest token = client.digest ∧
    client.unexpired today = true ∧ scope ∈ client.scopes

omit [RouterCrate] in
theorem presents_of_admitted {security : SecurityState} {today : String} {now : Nat}
    {request : Request} {limiter : RateLimiter} {admission : Admission} {scope : Scope}
    (required : requiredScope request.method request.path = some scope)
    (method : request.method ≠ .options)
    (admitted : (securityMiddleware security today now request limiter).1 = .ok admission) :
    security.clients = [] ∨ Presents security.clients today request scope := by
  have authorized := securityMiddleware_authorized admitted
  unfold authorize at authorized
  rw [if_pos (by simp [isProtected, required, method])] at authorized
  cases outcome : authenticate request security today with
  | anonymous => exact .inl (authenticate_eq_anonymous.1 outcome)
  | client client =>
    simp only [outcome, required, Option.getD_some] at authorized
    split at authorized
    · rename_i holds
      obtain ⟨mem, token, bearer, digest⟩ := authenticate_eq_client outcome
      exact .inr ⟨client, mem, token, bearer, digest, authenticate_unexpired outcome,
        by simpa using holds⟩
    · cases authorized
  | expired id => simp [outcome] at authorized
  | rejected => simp [outcome] at authorized

/-- Every request other than `OPTIONS` that reaches a handler or the MCP service
has shown a scope that stands for what it can do there, unless authentication is
off; and the only public paths are the probes and the user interface. -/
theorem routed_authorized (sound : RouterCrate.Sound) {env : Environment} {config : Config}
    {explicitToken : Option String} {clients : List AuthorizedClient}
    (resolved : resolveClients env config explicitToken = some clients) {today : String}
    {now : Nat} {request : Request} {limiter : RateLimiter} {admission : Admission}
    (method : request.method ≠ .options)
    (admitted : (securityMiddleware (.build clients config.server) today now request limiter).1
      = .ok admission) :
    (∀ endpoint, routed request = .handler endpoint → ∀ effect ∈ endpoint.effects,
      config.server.noAuth = true ∨
        ∃ scope ∈ effect.scopes, Presents clients today request scope) ∧
    (routed request = .mcp → config.server.noAuth = true ∨ Presents clients today request .mcp) ∧
    ∀ (m : Method) (path : String), requiredScope m path = none →
      path ∈ ["/health", "/ready", "/metrics"] ∨ isAsset path = true := by
  have shown : ∀ scope, requiredScope request.method request.path = some scope →
      config.server.noAuth = true ∨ Presents clients today request scope := by
    intro scope required
    rcases presents_of_admitted required method admitted with off | presents
    · exact .inl ((resolveClients_eq_nil resolved).1 off)
    · exact .inr presents
  refine ⟨fun endpoint reached effect mem => ?_, fun reached => ?_, fun m path => ?_⟩
  · obtain ⟨scope, stands, required⟩ := guarded_of_routed sound reached effect mem
    exact (shown scope required).imp_right (fun presents => ⟨scope, stands, presents⟩)
  · exact shown .mcp (requiredScope_of_routed_mcp sound reached)
  · exact requiredScope_eq_none.1

end Reach

/-- The values a path gives to the parameters of a pattern, segment by segment. -/
def Pattern.valuesOf (pattern : Pattern) (path : String) : String → String := fun name =>
  let segments := (Text.splitBy (· == '/') (path.toList.drop 1)).map String.ofList
  ((pattern.zip segments).find? (fun entry => entry.1 = .param name)).elim "" Prod.snd

/-- The first pattern that a path fills. -/
@[reducible] def segmentRouter : RouterCrate where
  matched patterns path := patterns.findSome? fun pattern =>
    let values := pattern.valuesOf path
    if path = pattern.fill values then some (pattern, values) else none

theorem segmentRouter_sound : @RouterCrate.Sound segmentRouter := by
  intro patterns path pattern values h
  obtain ⟨other, mem, found⟩ := List.exists_of_findSome?_eq_some h
  simp only [Option.ite_none_right_eq_some, Option.some.injEq, Prod.mk.injEq] at found
  obtain ⟨path, rfl, rfl⟩ := found
  exact ⟨mem, path⟩

def searchClient : ServerClient :=
  { ServerClient.default with id := "reader", tokenEnv := some "READER_TOKEN", scopes := [.search] }

def searchConfig : Config := Config.default.withClients [searchClient]

def searchEnv : Environment := fun name => if name = "READER_TOKEN" then some sampleToken else none

def searchClients : List AuthorizedClient :=
  letI := sampleSha256
  (resolveClients searchEnv searchConfig none).get (by decide +kernel)

def bearerRequest (method : Method) (path : String) : Request where
  method := method
  path := path
  headers := [("host", "localhost".toUTF8.toList),
    ("authorization", ("Bearer " ++ sampleToken).toUTF8.toList)]
  peer := none

def processEnv : Environment := fun name =>
  if name = "AMATL_SERVER_TOKEN" then some sampleToken else none

def processClients : List AuthorizedClient :=
  letI := sampleSha256
  (resolveClients processEnv .default none).get (by decide +kernel)

theorem rotate_authorized :
    letI := noDates
    letI := plainHeaders
    letI := sampleSha256
    letI := segmentRouter
    routed (bearerRequest .post "/server/clients/ci/rotate") = .handler .rotateServerClientToken ∧
      Presents processClients "2025-01-01" (bearerRequest .post "/server/clients/ci/rotate")
        .admin := by
  let _ := noDates
  let _ := plainHeaders
  let _ := sampleSha256
  let _ := segmentRouter
  have reached : routed (bearerRequest .post "/server/clients/ci/rotate")
      = .handler .rotateServerClientToken := by decide +kernel
  have admitted : (securityMiddleware (.build processClients Config.default.server) "2025-01-01" 0
      (bearerRequest .post "/server/clients/ci/rotate") ⟨[], 0⟩).1
      = .ok ⟨⟨"default", mcpTools⟩, Config.default.server.requestTimeoutMs⟩ := by decide +kernel
  have shown := (routed_authorized segmentRouter_sound (Option.some_get _).symm (by decide)
    admitted).1 _ reached .managesCredentials (by decide)
  obtain ⟨scope, stands, presents⟩ := shown.resolve_left (by decide +kernel)
  cases List.mem_singleton.1 stands
  exact ⟨reached, presents⟩

/-- A search leaves an entry in the history, and its client may not write. -/
theorem search_records_without_write :
    letI := noDates
    letI := plainHeaders
    letI := sampleSha256
    letI := segmentRouter
    ¬ ∀ (env : Environment) (config : Config) (clients : List AuthorizedClient) (today : String)
      (now : Nat) (request : Request) (limiter : RateLimiter) (admission : Admission)
      (endpoint : Endpoint), resolveClients env config none = some clients →
      request.method ≠ .options →
      (securityMiddleware (.build clients config.server) today now request limiter).1
        = .ok admission →
      routed request = .handler endpoint →
      ((config.persistence.historyEnabled = true ∧ .recordsHistory ∈ endpoint.effects) ∨
        .deletesHistory ∈ endpoint.effects ∨ .storesDocument ∈ endpoint.effects ∨
        .deletesDocument ∈ endpoint.effects) →
      config.server.noAuth = true ∨ Presents clients today request .write := by
  let _ := noDates
  let _ := plainHeaders
  let _ := sampleSha256
  let _ := segmentRouter
  intro only_write
  have admitted : (securityMiddleware (.build searchClients searchConfig.server) "2025-01-01" 0
      (bearerRequest .get "/search") ⟨[], 0⟩).1
      = .ok ⟨⟨"reader", []⟩, searchConfig.server.requestTimeoutMs⟩ := by decide +kernel
  have shown := only_write searchEnv searchConfig searchClients "2025-01-01" 0 _ _ _ .search
    (Option.some_get _).symm (by decide) admitted (by decide +kernel)
    (.inl ⟨by decide +kernel, by decide⟩)
  rcases shown with off | ⟨client, mem, -, -, -, -, writes⟩
  · exact absurd off (by decide +kernel)
  · have none_writes : ∀ client ∈ searchClients, .write ∉ client.scopes := by decide +kernel
    exact none_writes client mem writes

end Amatl
