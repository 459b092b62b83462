import Amatl.Config.Load

/-! `Config::validate`: the rules of each section in the order the program checks
them, then the rules that span several sections. -/

namespace Amatl

open UrlCrate

theorem bind_eq_ok {ε α β : Type} {x : Except ε α} {f : α → Except ε β} {b : β} :
    (x >>= f) = .ok b ↔ ∃ a, x = .ok a ∧ f a = .ok b := by
  cases x with
  | error e => exact ⟨fun h => (by cases h), fun ⟨_, h, _⟩ => (by cases h)⟩
  | ok a => exact ⟨fun h => ⟨a, rfl, h⟩, fun ⟨_, h, hf⟩ => (by cases h; exact hf)⟩

theorem check_bind_eq_ok {ε β : Type} {x : Except ε Unit} {f : Unit → Except ε β} {b : β} :
    (x >>= f) = .ok b ↔ x = .ok () ∧ f () = .ok b :=
  bind_eq_ok.trans ⟨fun ⟨⟨⟩, h⟩ => h, fun h => ⟨(), h⟩⟩

def reject (refused : Bool) (message : String) : Except ConfigError Unit :=
  if refused then .error (.policy message) else .ok ()

theorem reject_eq_ok {refused : Bool} {message : String} :
    reject refused message = .ok () ↔ refused = false := by
  cases refused <;> simp [reject]

/-- A failed check of a sub-policy is reported under its own message. -/
def policyCheck {ε : Type} (message : ε → String) (check : Except ε Unit) :
    Except ConfigError Unit :=
  match check with
  | .ok () => .ok ()
  | .error error => .error (.policy (message error))

def isProviderKey (name : String) : Bool :=
  name ≠ "" && name.toList.all (fun c => Text.isAsciiLower c || Text.isAsciiDigit c || c == '_')

def blank (value : String) : Bool := (Text.trim value.toList).isEmpty

/-- `Path::is_absolute` on Unix. -/
def isAbsolute (path : String) : Bool := path.toList.head? == some '/'

/-- `!(low..=high).contains(&value)`. -/
def outside {α : Type} [LT α] [DecidableLT α] (low high value : α) : Bool :=
  value < low || high < value

section

variable (Url : Type) [UrlCrate Url]

/-- The refusal of an endpoint that is not HTTPS, or HTTP on loopback, without
credentials. -/
def remoteEndpointError (value : String) : Option String :=
  match (parse value : Option Url) with
  | none => some "endpoint is not an absolute URL"
  | some url =>
    let loopback := hostStr url == some "localhost" || hostStr url == some "127.0.0.1" ||
      hostStr url == some "[::1]"
    if username url ≠ "" || (password url).isSome then some "endpoint must not embed credentials"
    else if scheme url == "https" || (scheme url == "http" && loopback) then none
    else some "endpoint must be https, or http on loopback"

def validateRemoteEndpoint (value : String) : Except ConfigError Unit :=
  match remoteEndpointError Url value with
  | none => .ok ()
  | some reason => .error (.policy ("remote inference endpoint is invalid: " ++ reason))

end

namespace Config

variable (c : Config)

def validateSchemaVersion : Except ConfigError Unit :=
  reject (c.schemaVersion ≠ Amatl.schemaVersion) ("config schema_version '" ++ c.schemaVersion ++
    "' does not match binary schema_version '" ++ Amatl.schemaVersion ++ "'")

def validateProviderNames : Except ConfigError Unit :=
  match (OrdMap.keys c.providers.declared).find? (fun name => !isProviderKey name) with
  | none => .ok ()
  | some name => .error (.policy ("invalid provider name: " ++ name ++
      "; use lowercase ascii, digits and underscore"))

def validateEnabled : Except ConfigError Unit :=
  match c.providers.enabled.find? (fun name => !c.providers.isDeclared name) with
  | none => .ok ()
  | some name => .error (.policy ("unknown enabled provider: " ++ name))

def validateBackend : Except ConfigError Unit :=
  if c.inference.backend = localEmbeddingBackendId then .ok ()
  else if c.inference.backend = localModelBackendId then
    match c.inference.localModelPath.filter (fun path => !blank path) with
    | none => .error (.policy ("inference.local_model_path is required with backend = " ++
        localModelBackendId))
    | some path =>
      reject (!isAbsolute path) "inference.local_model_path must be an absolute path"
  else .error (.policy ("unknown inference backend: " ++ c.inference.backend ++ " (expected " ++
    localEmbeddingBackendId ++ " or " ++ localModelBackendId ++
    "; the remote backend is selected by data_policy.inference)"))

def validateRemoteInference (Url : Type) [UrlCrate Url] : Except ConfigError Unit :=
  if c.dataPolicy.inference = .remoteExplicit then
    if !c.dataPolicy.allowsRemoteInference then
      .error (.policy "remote_explicit inference requires a standard profile with governed egress")
    else match c.inference.remoteEndpoint with
      | none => .error (.policy "remote_explicit inference requires inference.remote_endpoint")
      | some endpoint => do
        validateRemoteEndpoint Url endpoint
        reject (c.inference.remoteModel.all (· == ""))
          "remote_explicit inference requires inference.remote_model"
  else .ok ()

def validateInference (Url : Type) [UrlCrate Url] : Except ConfigError Unit := do
  c.validateBackend
  c.validateRemoteInference Url
  reject (outside 32 4096 c.inference.embeddingDimensions ||
    outside 1 1000000 c.inference.maxDocuments ||
    outside 1 100000000 c.inference.maxInputChars ||
    outside 1 1000000 c.inference.localCacheCapacity ||
    outside 1 256 c.inference.remoteMaxBatch ||
    outside 100 60000 c.inference.remoteTimeoutMs ||
    !c.inference.rerankerPriorWeight.isFinite ||
    !F64.within (.finite 0) (.finite 1) c.inference.rerankerPriorWeight) "invalid inference limit"
  let policy := c.deep.rankingV2.policy
  let needsBackend := c.deep.rankingV2.enabled &&
    (F64.lt (.finite 0) policy.weightSemantic || F64.lt (.finite 0) policy.weightReranker)
  reject (needsBackend && c.dataPolicy.inference == .disabled)
    "semantic or reranker ranking weights require an enabled inference mode"

def validateAnswer (Url : Type) [UrlCrate Url] : Except ConfigError Unit := do
  reject (outside 100 60000 c.answer.timeoutMs || outside 1 32 c.answer.maxSources ||
    outside 1 10000000 c.answer.maxSourceChars || outside 1 1000000 c.answer.maxAnswerTokens)
    "invalid answer limit"
  if c.answer.enabled then
    reject (!c.dataPolicy.allowsRemoteInference)
      ("answer.enabled requires a standard profile, governed egress and " ++
        "data_policy.inference = \"remote_explicit\"")
    match c.answer.endpoint with
    | none => .error (.policy "answer.enabled requires answer.endpoint")
    | some endpoint => validateRemoteEndpoint Url endpoint
    reject (c.answer.model.all (· == "")) "answer.enabled requires answer.model"

def validateExecution : Except ConfigError Unit := do
  reject (c.execution.globalConcurrency == 0 || c.execution.perProviderConcurrency == 0 ||
    c.execution.perProviderConcurrency > c.execution.globalConcurrency ||
    c.execution.maxRetries > 2 || c.execution.retryJitterMs > 1000)
    "invalid parallel search execution limit"
  policyCheck id c.circuitBreaker.validate

def validateBackups : Except ConfigError Unit := do
  reject (c.persistence.autoBackupIntervalSeconds < 3600)
    "persistence.auto_backup_interval_seconds must be >= 3600 (1 hour)"
  reject (c.persistence.autoBackupMaxCount == 0 || c.persistence.autoBackupMaxCount > 365)
    "persistence.auto_backup_max_count must be between 1 and 365"
  match c.persistence.backupDirectory with
  | none => .ok ()
  | some directory => do
    reject (blank directory) "persistence.backup_directory must not be empty"
    reject (!isAbsolute directory) "persistence.backup_directory must be an absolute path"

def validatePersistence : Except ConfigError Unit := do
  reject (outside 1 auditMaxRetentionDays c.persistence.auditRetentionDays)
    "persistence.audit_retention_days must be between 1 and 365"
  reject (c.persistence.historyRetentionDays > 365)
    "persistence.history_retention_days must be between 0 and 365"
  reject (c.persistence.cacheRetentionDays > 365)
    "persistence.cache_retention_days must be between 0 and 365"
  reject (c.persistence.documentCacheRetentionDays > 365)
    "persistence.document_cache_retention_days must be between 0 and 365"
  reject (c.persistence.purgeIntervalSeconds > 30 * 86400 ||
    (c.persistence.purgeIntervalSeconds > 0 && c.persistence.purgeIntervalSeconds < 60))
    "persistence.purge_interval_seconds must be 0 (disabled) or between 60 and 2592000 (30 days)"
  reject (c.persistence.autoBackupIntervalSeconds > 30 * 86400)
    "persistence.auto_backup_interval_seconds must be at most 2592000 (30 days)"
  reject (c.persistence.autoBackupMaxCount > 365)
    "persistence.auto_backup_max_count must be at most 365"
  if c.persistence.autoBackupEnabled then c.validateBackups
  reject (c.persistence.savedDocumentMaxBytes == 0 ||
    c.persistence.savedDocumentMaxBytes > 16 * 1024 * 1024)
    "persistence.saved_document_max_bytes must be between 1 and 16777216"

def validateRankingPolicies : Except ConfigError Unit := do
  policyCheck RankingPolicyError.message c.rankingPolicy.validate
  policyCheck DiversityPolicyError.message c.diversityPolicy.validate
  policyCheck SearchPolicyError.message c.searchPolicy.validate
  reject (c.searchPolicy.maximumResultsPerDomain != c.diversityPolicy.maxVisiblePerDomain ||
    c.searchPolicy.maximumResultsPerProvider != c.diversityPolicy.maxVisiblePerProvider ||
    c.searchPolicy.maximumResultsPerResultType != c.diversityPolicy.maxVisiblePerResultType)
    "search policy and diversity policy limits must agree"

def validateExpansionNames (primary : String) :
    List String → List String → Except ConfigError Unit
  | _, [] => .ok ()
  | seen, entry :: rest => do
    let name := String.ofList (Text.trim entry.toList)
    reject (name == "") "expansion.expansion_providers must not contain an empty name"
    reject (!c.providers.isDeclared name) ("expansion.expansion_providers entry '" ++ name ++
      "' is not a declared provider")
    reject (name == primary) ("provider '" ++ name ++ "' cannot be both primary and expansion")
    reject (seen.contains name) ("expansion.expansion_providers repeats '" ++ name ++ "'")
    validateExpansionNames primary (name :: seen) rest

def validateExpansion : Except ConfigError Unit := do
  let primary := String.ofList (Text.trim c.expansion.primaryProvider.toList)
  reject (primary == "") "expansion.primary_provider must not be empty"
  reject (!c.providers.isDeclared primary) ("expansion.primary_provider '" ++ primary ++
    "' is not a declared provider")
  c.validateExpansionNames primary [] c.expansion.expansionProviders
  reject (c.expansion.roleModelActive && c.expansion.expansionProviders.isEmpty)
    "expansion.mode = \"primary_expansion\" requires at least one expansion provider"

def validateCache : Except ConfigError Unit :=
  reject (c.cache.providerSearch.ttlSeconds == 0 || c.cache.providerSearch.maxEntries == 0 ||
    c.cache.providerSearch.maxBytes == 0 || c.cache.document.ttlSeconds == 0 ||
    c.cache.document.maxEntries == 0 || c.cache.document.maxBytes == 0)
    "cache limits must be positive"

def validateTelemetry : Except ConfigError Unit :=
  reject (outside telemetryMinRetentionDays telemetryMaxRetentionDays c.telemetry.retentionDays)
    "telemetry retention_days must be between 7 and 365"

def validateStorage : Except ConfigError Unit := do
  reject ((c.cache.providerSearch.enabled || c.telemetry.persistenceEnabled) &&
    !c.persistence.enabled)
    "SQLite persistence must be enabled for persistent cache or telemetry"
  reject (c.cache.document.enabled && !c.persistence.enabled)
    "SQLite persistence must be enabled for document cache"

def validateDeep : Except ConfigError Unit := do
  reject (outside 100 30000 c.deep.robotsTimeoutMs || outside 1024 1048576 c.deep.robotsMaxBytes)
    "invalid robots.txt retrieval limit"
  reject (outside 1 1000 c.deep.topK || outside 1 1000 c.deep.maxFetches ||
    outside 1 (4 * 1024 * 1024 * 1024) c.deep.maxBytes || outside 0 100 c.deep.maxRedirects ||
    outside 1 10000 c.deep.maxCrawlUrls || c.deep.maxDepth > 2 ||
    outside 1 86400000 c.deep.timeoutMs || outside 1 86400000 c.deep.extractor.timeoutMs ||
    outside 1 (4 * 1024 * 1024 * 1024) c.deep.extractor.maxOutputBytes ||
    outside 1 1000000 c.deep.renderer.maxBrowserCalls ||
    outside 1 86400000 c.deep.renderer.timeoutMs ||
    outside 1 86400000 c.deep.renderer.shutdownGraceMs ||
    outside 1 1048576 c.deep.renderer.maxMemoryMb || outside 0 100 c.deep.renderer.maxRedirects ||
    outside 1 (4 * 1024 * 1024 * 1024) c.deep.renderer.maxDomBytes) "invalid Deep safety limit"
  policyCheck id c.deep.rankingV2.policy.validate
  policyCheck id c.deep.gaps.policy.validate
  reject (c.deep.gaps.maxSubqueries > 2 || c.deep.gaps.maxCost == 0 ||
    c.deep.gaps.maxProviderCallsPerSubquery == 0 || c.deep.gaps.timeoutMs == 0)
    "invalid Gap Analyzer safety limit"

def validateProfile (bind : Net.IpAddr) : Except ConfigError Unit := do
  let isolated := c.dataPolicy.profile == .isolated
  reject (isolated && c.dataPolicy.egress != .deny)
    "isolated profile requires denied network egress"
  reject (isolated && c.dataPolicy.inference == .remoteExplicit)
    "isolated profile forbids remote inference"
  reject (isolated && !bind.isLoopback) "isolated profile requires a loopback server bind"
  reject (isolated && c.deep.renderer.enabled) "isolated profile forbids the unsandboxed renderer"
  reject (c.dataPolicy.egress == .deny && !c.providers.enabled.isEmpty)
    "providers cannot be enabled while network egress is denied"
  reject (c.dataPolicy.egress == .deny && c.dataPolicy.inference == .remoteExplicit)
    "remote inference requires governed network egress"

end Config

def isSha256Hex (value : String) : Bool :=
  value.toList.length == 64 &&
    value.toList.all (fun c => Text.isAsciiDigit c || ('a' ≤ c && c ≤ 'f'))

namespace ServerClient

variable (client : ServerClient)

def validateToken : Except ConfigError Unit :=
  match client.tokenEnv, client.tokenSha256 with
  | some name, none =>
    reject (blank name) ("client " ++ client.id ++
      " must declare exactly one of token_env or token_sha256")
  | none, some digest =>
    reject (!isSha256Hex digest) ("client " ++ client.id ++
      " token_sha256 must be a lowercase hex SHA-256 digest")
  | _, _ => .error (.policy ("client " ++ client.id ++
      " must declare exactly one of token_env or token_sha256"))

def validate [TimeCrate] : Except ConfigError Unit := do
  client.validateToken
  reject client.scopes.isEmpty ("client " ++ client.id ++
    " declares no scope; a credential without capability is never useful")
  reject (client.expiresAt.any (fun expiry => (TimeCrate.parseIsoDate expiry).isNone))
    ("client " ++ client.id ++ " has an invalid expires_at; use YYYY-MM-DD")
  match client.tools.find? (fun tool => !mcpTools.contains tool) with
  | none => .ok ()
  | some tool => .error (.policy ("client " ++ client.id ++ " allows unknown MCP tool: " ++ tool))
  reject (!client.tools.isEmpty && !client.scopes.contains .mcp)
    ("client " ++ client.id ++ " allows MCP tools without the mcp scope")

end ServerClient

def validateClients [TimeCrate] : List String → List ServerClient → Except ConfigError Unit
  | _, [] => .ok ()
  | seen, client :: rest => do
    reject (blank client.id || !isProviderKey client.id) ("invalid server client id: " ++
      client.id ++ "; use lowercase ascii, digits and underscore")
    reject (seen.contains client.id) ("duplicate server client id: " ++ client.id)
    client.validate
    validateClients (client.id :: seen) rest

section Server

variable (Url : Type) [UrlCrate Url] [TimeCrate] [HttpCrate]

def isExactOrigin (origin : String) : Bool :=
  match (parse origin : Option Url) with
  | none => false
  | some url => (scheme url == "http" || scheme url == "https") && (hostStr url).isSome &&
      path url == "/" && (query url).isNone && (fragment url).isNone

namespace ServerConfig

variable (server : ServerConfig)

def tlsComplete : Bool := server.tls.certPath.isSome && server.tls.keyPath.isSome

def tlsPartial : Bool := server.tls.certPath.isSome != server.tls.keyPath.isSome

def limitsRefused : Bool :=
  server.port == 0 || blank server.tokenEnv || server.allowedHosts.isEmpty ||
    outside 1 (1024 * 1024) server.maxBodyBytes || outside 1 (64 * 1024) server.maxHeaderBytes ||
    outside 1 86400000 server.requestTimeoutMs || outside 1 86400000 server.idleTimeoutMs ||
    outside 1 1000000 server.rateLimitPerMinute || outside 1 10000 server.maxConnections ||
    server.tlsPartial

def hostsRefused : Bool :=
  server.allowedHosts.any (fun host =>
    blank host || host.toList.contains '*' || !HttpCrate.authority host)

def originsRefused : Bool := server.allowedOrigins.any (fun origin => !isExactOrigin Url origin)

end ServerConfig

def validateServer (server : ServerConfig) (bind : Net.IpAddr) : Except ConfigError Unit := do
  reject server.limitsRefused "invalid HTTP server safety limit"
  validateClients [] server.clients
  reject (!bind.isLoopback && (server.noAuth || !server.tlsComplete))
    "remote HTTP bind requires authentication and TLS"
  reject (server.noAuth && !bind.isLoopback) "no-auth development mode is loopback-only"
  reject server.hostsRefused "server allowed_hosts must contain exact HTTP authorities"
  reject (server.originsRefused Url) "server allowed_origins must contain exact HTTP origins"

/-- The rules that need the parsed `server.bind`. -/
def Config.validateBound (c : Config) : Except ConfigError Unit :=
  match Net.parseIpAddr c.server.bind with
  | none => .error (.policy "server bind must be an IP address")
  | some bind => do
    c.validateProfile bind
    validateServer Url c.server bind

def Config.validate (c : Config) : Except ConfigError Unit := do
  c.validateSchemaVersion
  c.validateProviderNames
  c.validateEnabled
  c.validateInference Url
  c.validateAnswer Url
  c.validateExecution
  c.validatePersistence
  c.validateRankingPolicies
  c.validateExpansion
  c.validateCache
  c.validateTelemetry
  c.validateStorage
  c.validateDeep
  c.validateBound Url

variable {Url}

theorem Config.validate_eq_ok {c : Config} :
    c.validate Url = .ok () ↔
      c.validateSchemaVersion = .ok () ∧ c.validateProviderNames = .ok () ∧
      c.validateEnabled = .ok () ∧ c.validateInference Url = .ok () ∧
      c.validateAnswer Url = .ok () ∧ c.validateExecution = .ok () ∧
      c.validatePersistence = .ok () ∧ c.validateRankingPolicies = .ok () ∧
      c.validateExpansion = .ok () ∧ c.validateCache = .ok () ∧ c.validateTelemetry = .ok () ∧
      c.validateStorage = .ok () ∧ c.validateDeep = .ok () ∧ c.validateBound Url = .ok () := by
  simp only [Config.validate, check_bind_eq_ok]

theorem Config.validateBound_eq_ok {c : Config} :
    c.validateBound Url = .ok () ↔ ∃ bind, Net.parseIpAddr c.server.bind = some bind ∧
      c.validateProfile bind = .ok () ∧ validateServer Url c.server bind = .ok () := by
  unfold Config.validateBound
  cases Net.parseIpAddr c.server.bind with
  | none => simp
  | some bind => simp [check_bind_eq_ok]

theorem validateServer_eq_ok {server : ServerConfig} {bind : Net.IpAddr} :
    validateServer Url server bind = .ok () ↔
      server.limitsRefused = false ∧ validateClients [] server.clients = .ok () ∧
      (!bind.isLoopback && (server.noAuth || !server.tlsComplete)) = false ∧
      (server.noAuth && !bind.isLoopback) = false ∧
      server.hostsRefused = false ∧ server.originsRefused Url = false := by
  simp only [validateServer, check_bind_eq_ok, reject_eq_ok]

/-- A valid configuration turns authentication off only on a loopback address. -/
theorem Config.noAuth_loopback {config : Config} {ip : Net.IpAddr}
    (valid : config.validate Url = .ok ()) (parsed : Net.parseIpAddr config.server.bind = some ip)
    (off : config.server.noAuth = true) : ip.isLoopback = true := by
  obtain ⟨-, -, -, -, -, -, -, -, -, -, -, -, -, bound⟩ := Config.validate_eq_ok.1 valid
  obtain ⟨bind, same, -, server⟩ := Config.validateBound_eq_ok.1 bound
  cases parsed.symm.trans same
  obtain ⟨-, -, -, loopback, -, -⟩ := validateServer_eq_ok.1 server
  simpa [off] using loopback

end Server

end Amatl
