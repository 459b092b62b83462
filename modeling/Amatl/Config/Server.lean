import Amatl.Lib.TomlEdit
import Amatl.Externals

/-! The section `[server]`: the listener, its limits and the named clients. -/

namespace Amatl

open Toml

/-- The capability a route requires. -/
inductive Scope where
  | search | deep | read | write | admin | mcp
  deriving DecidableEq, Repr

def Scope.asStr : Scope → String
  | .search => "search"
  | .deep => "deep"
  | .read => "read"
  | .write => "write"
  | .admin => "admin"
  | .mcp => "mcp"

def Scope.all : List Scope := [.search, .deep, .read, .write, .admin, .mcp]

def Scope.names : List (String × Scope) :=
  [("search", .search), ("deep", .deep), ("read", .read), ("write", .write), ("admin", .admin),
    ("mcp", .mcp)]

def mcpTools : List String := ["search", "deep_search", "fetch", "providers", "status", "answer"]

structure ServerClient where
  id : String
  tokenEnv : Option String
  tokenSha256 : Option String
  expiresAt : Option String
  scopes : List Scope
  tools : List String
  deriving DecidableEq

def ServerClient.default : ServerClient where
  id := ""
  tokenEnv := none
  tokenSha256 := none
  expiresAt := none
  scopes := []
  tools := []

def ServerClient.fields : List (RecordField ServerClient) :=
  [field "id" text (·.id) (fun v c => { c with id := v }),
   field "token_env" (optional text) (·.tokenEnv) (fun v c => { c with tokenEnv := v }),
   field "token_sha256" (optional text) (·.tokenSha256) (fun v c => { c with tokenSha256 := v }),
   field "expires_at" (optional text) (·.expiresAt) (fun v c => { c with expiresAt := v }),
   field "scopes" (list (variant Node.isUnit Scope.names)) (·.scopes)
     (fun v c => { c with scopes := v }),
   field "tools" (list text) (·.tools) (fun v c => { c with tools := v })]

theorem ServerClient.lawful : Lawful ServerClient.fields := by
  constructor
  · simp [ServerClient.fields, field]
  · simp [ServerClient.fields, RecordField.apart_field]
  · rintro ⟨⟩ ⟨⟩
    simp [ServerClient.fields, field]

/-- An expiry that is not a date has passed. -/
def ServerClient.unexpiredOn [TimeCrate] (client : ServerClient) (today : String) : Bool :=
  match client.expiresAt with
  | none => true
  | some expiry =>
    match TimeCrate.parseIsoDate expiry, TimeCrate.parseIsoDate today with
    | some expiry, some today => today ≤ expiry
    | _, _ => false

structure TlsConfig where
  certPath : Option String
  keyPath : Option String
  deriving DecidableEq

def TlsConfig.default : TlsConfig where
  certPath := none
  keyPath := none

def TlsConfig.fields : List (RecordField TlsConfig) :=
  [field "cert_path" (optional text) (·.certPath) (fun v c => { c with certPath := v }),
   field "key_path" (optional text) (·.keyPath) (fun v c => { c with keyPath := v })]

theorem TlsConfig.lawful : Lawful TlsConfig.fields := by
  constructor
  · simp [TlsConfig.fields, field]
  · simp [TlsConfig.fields, RecordField.apart_field]
  · rintro ⟨⟩ ⟨⟩
    simp [TlsConfig.fields, field]

structure ServerConfig where
  bind : String
  port : UInt16
  tokenEnv : String
  noAuth : Bool
  clients : List ServerClient
  allowedHosts : List String
  allowedOrigins : List String
  maxBodyBytes : UInt64
  maxHeaderBytes : UInt64
  requestTimeoutMs : UInt64
  idleTimeoutMs : UInt64
  rateLimitPerMinute : UInt32
  maxConnections : UInt64
  tls : TlsConfig
  deriving DecidableEq

def ServerConfig.default : ServerConfig where
  bind := "127.0.0.1"
  port := 8080
  tokenEnv := "AMATL_SERVER_TOKEN"
  noAuth := false
  clients := []
  allowedHosts := ["127.0.0.1", "localhost", "[::1]"]
  allowedOrigins := []
  maxBodyBytes := 64 * 1024
  maxHeaderBytes := 16 * 1024
  requestTimeoutMs := 30000
  idleTimeoutMs := 30000
  rateLimitPerMinute := 60
  maxConnections := 64
  tls := .default

def ServerConfig.fields : List (RecordField ServerConfig) :=
  [field "bind" text (·.bind) (fun v c => { c with bind := v }),
   field "port" uint16 (·.port) (fun v c => { c with port := v }),
   field "token_env" text (·.tokenEnv) (fun v c => { c with tokenEnv := v }),
   field "no_auth" flag (·.noAuth) (fun v c => { c with noAuth := v }),
   field "clients" (list (record ServerClient.fields .default)) (·.clients)
     (fun v c => { c with clients := v }),
   field "allowed_hosts" (list text) (·.allowedHosts) (fun v c => { c with allowedHosts := v }),
   field "allowed_origins" (list text) (·.allowedOrigins)
     (fun v c => { c with allowedOrigins := v }),
   field "max_body_bytes" uint64 (·.maxBodyBytes) (fun v c => { c with maxBodyBytes := v }),
   field "max_header_bytes" uint64 (·.maxHeaderBytes) (fun v c => { c with maxHeaderBytes := v }),
   field "request_timeout_ms" uint64 (·.requestTimeoutMs)
     (fun v c => { c with requestTimeoutMs := v }),
   field "idle_timeout_ms" uint64 (·.idleTimeoutMs) (fun v c => { c with idleTimeoutMs := v }),
   field "rate_limit_per_minute" uint32 (·.rateLimitPerMinute)
     (fun v c => { c with rateLimitPerMinute := v }),
   field "max_connections" uint64 (·.maxConnections) (fun v c => { c with maxConnections := v }),
   field "tls" (record TlsConfig.fields .default) (·.tls) (fun v c => { c with tls := v })]

theorem ServerConfig.lawful : Lawful ServerConfig.fields := by
  constructor
  · simp [ServerConfig.fields, field]
  · simp [ServerConfig.fields, RecordField.apart_field]
  · rintro ⟨⟩ ⟨⟩
    simp [ServerConfig.fields, field]

end Amatl
