import Amatl.Server.ErrorAtomicity

/-! Whole runs of a server: admin requests, edits of the file from outside and
signals. The socket keeps the address it was bound to, while each reload replaces
the credentials. -/

namespace Amatl

open Toml

inductive ServerStep where
  | request (request : AdminRequest)
  /-- Someone else writes the configuration file. -/
  | edit (file : ConfigFile)
  /-- `SIGHUP`. -/
  | hangup

/-- One step, and what it finds around the server. -/
abbrev ServerEvent := World × ServerStep

namespace ServerState

def isRemote (s : ServerState) : Bool := !s.listener.ip.isLoopback

section Steps

variable (Url : Type) [UrlCrate Url] [TimeCrate] [HttpCrate] [Sha256]

def step (s : ServerState) : ServerEvent → ServerState
  | (w, .request request) => (s.handle Url w request).2
  | (_, .edit file) => { s with file := s.file.map (fun _ => file) }
  | (w, .hangup) => (s.applied Url w).2

def run (s : ServerState) (events : List ServerEvent) : ServerState := events.foldl (step Url) s

/-- The file that a step's reload reads: the one on disk, or the one the request
has just written. -/
def reads (s : ServerState) (w : World) : ServerStep → Option ConfigFile
  | .request .reload => s.file
  | .request request =>
    request.handler.bind fun handler => s.file.bind fun file =>
      match handler.rewrite Url s.running file, w.write with
      | .ok (file, true), .whole => some file
      | _, _ => none
  | .edit _ => none
  | .hangup => s.file

/-- On a remote listener the step does not take in a file with authentication
off. -/
def Guarded (s : ServerState) : ServerEvent → Prop
  | (w, step) => s.isRemote = true → w.joined = true → ∀ file ∈ s.reads Url w step, ∀ config,
      Config.loadOptional Url file = .ok config → config.server.noAuth = false

/-- Every step of a run is guarded, in the state it is taken in. -/
def GuardedRun (s : ServerState) : List ServerEvent → Prop
  | [] => True
  | event :: rest => s.Guarded Url event ∧ (s.step Url event).GuardedRun rest

/-- On a remote listener nobody is anonymous, and a protected route is reached
only with the token of an accepted client. -/
def Authenticated (s : ServerState) : Prop :=
  s.isRemote = true →
    (∀ request today, authenticate request s.security today ≠ .anonymous) ∧
    ∀ today now request limiter admission,
      isProtected request.method request.path = true → request.method ≠ .options →
      (securityMiddleware s.security today now request limiter).1 = .ok admission →
      ∃ client ∈ s.security.clients, ∃ token, request.bearer = some token ∧
        tokenDigest token = client.digest

end Steps

variable {Url : Type} [UrlCrate Url] [TimeCrate] [HttpCrate] [Sha256] {s : ServerState}

theorem authenticated_iff :
    s.Authenticated ↔ (s.isRemote = true → s.security.clients ≠ []) := by
  constructor
  · intro safe remote empty
    exact (safe remote).1 ⟨.get, "/", [], none⟩ "" (authenticate_eq_anonymous.2 empty)
  · intro accepted remote
    refine ⟨fun request today h => accepted remote (authenticate_eq_anonymous.1 h), ?_⟩
    intro today now request limiter admission needs method admitted
    exact securityMiddleware_bearer (accepted remote) needs method admitted

/-- Credentials are lost exactly by a reload that succeeds on a file with
authentication off. -/
theorem applied_clients {w : World} {file : ConfigFile} (h : s.file = some file)
    (accepted : s.security.clients ≠ []) :
    (s.applied Url w).2.security.clients = [] ↔
      w.joined = true ∧ ∃ config, Config.loadOptional Url file = .ok config ∧
        config.server.noAuth = true := by
  have succeeds : (∃ s', s.reload Url w = .ok s') ↔
      w.joined = true ∧ file.Usable Url w s.explicitToken := reload_isOk_iff h
  cases result : s.reload Url w with
  | error code =>
    simp only [applied, result, accepted, false_iff]
    rintro ⟨joined, config, loads, off⟩
    obtain ⟨s', done⟩ := succeeds.2 ⟨joined, config, loads, .inl off⟩
    cases result.symm.trans done
  | ok s' =>
    have joined := (succeeds.1 ⟨s', result⟩).1
    obtain ⟨config, clients, source, -, resolved, -, rfl⟩ := (reload_eq_ok Url).1 result
    have loads : Config.loadOptional Url file = .ok config := by
      simpa [ServerState.source, h] using source
    simp only [applied, result, SecurityState.build, resolveClients_eq_nil resolved, joined, loads,
      true_and, Except.ok.injEq, exists_eq_left']

theorem applied_frame {w : World} :
    (s.applied Url w).2.listener = s.listener ∧ (s.applied Url w).2.file = s.file := by
  unfold applied
  cases result : s.reload Url w with
  | error code => exact ⟨rfl, rfl⟩
  | ok s' =>
    obtain ⟨config, clients, -, -, -, -, rfl⟩ := (reload_eq_ok Url).1 result
    exact ⟨rfl, rfl⟩

theorem step_of_reads {w : World} {step : ServerStep} {file : ConfigFile}
    (h : s.reads Url w step = some file) :
    s.step Url (w, step) = (({ s with file := some file } : ServerState).applied Url w).2 := by
  have onDisk : s.file = some file → { s with file := some file } = s := by
    intro hf
    rw [← hf]
  -- Without a handler there is only the reload of the file on disk.
  have rewrites : ∀ {request : AdminRequest} {handler : Handler},
      request.handler = some handler →
      (s.file.bind fun file => match handler.rewrite Url s.running file, w.write with
        | .ok (file, true), .whole => some file
        | _, _ => none) = some file →
      s.step Url (w, .request request)
        = (({ s with file := some file } : ServerState).applied Url w).2 := by
    intro request handler routed h
    obtain ⟨old, hf, h⟩ := Option.bind_eq_some_iff.1 h
    split at h
    · rename_i new result written
      cases h
      simp [ServerState.step, handle_of_handler routed, rewritten, hf, result, written]
    · cases h
  cases step with
  | edit file => cases h
  | hangup =>
    rw [onDisk h]
    rfl
  | request request =>
    cases routed : request.handler with
    | some handler =>
      refine rewrites routed ?_
      cases request with
      | malformed => cases routed
      | reload => cases routed
      | _ => simpa only [reads, routed, Option.bind_some] using h
    | none =>
      cases request with
      | malformed => cases h
      | reload =>
        rw [onDisk h]
        rfl
      | _ => cases routed

theorem step_of_not_reads {w : World} {step : ServerStep} (hf : s.file.isSome)
    (h : s.reads Url w step = none) :
    (s.step Url (w, step)).security = s.security ∧
      (s.step Url (w, step)).listener = s.listener ∧ (s.step Url (w, step)).file.isSome := by
  obtain ⟨file, hf⟩ := Option.isSome_iff_exists.1 hf
  have rewrites : ∀ {request : AdminRequest} {handler : Handler},
      request.handler = some handler →
      (s.file.bind fun file => match handler.rewrite Url s.running file, w.write with
        | .ok (file, true), .whole => some file
        | _, _ => none) = none →
      (s.handle Url w request).2.security = s.security ∧
        (s.handle Url w request).2.listener = s.listener ∧
        (s.handle Url w request).2.file.isSome := by
    intro request handler routed h
    rw [handle_of_handler routed, rewritten, hf]
    rw [hf, Option.bind_some] at h
    cases result : handler.rewrite Url s.running file with
    | error code => simp [result, hf]
    | ok done =>
      obtain ⟨new, reloads⟩ := done
      cases written : w.write with
      | refused => simp [result, hf]
      | cut left => simp [result]
      | whole =>
        cases reloads with
        | false => simp [result]
        | true => simp [result, written] at h
  cases step with
  | edit file => simp [ServerState.step, hf]
  | hangup => cases hf.symm.trans h
  | request request =>
    cases routed : request.handler with
    | some handler =>
      refine rewrites routed ?_
      cases request with
      | malformed => cases routed
      | reload => cases routed
      | _ => simpa only [reads, routed, Option.bind_some] using h
    | none =>
      cases request with
      | malformed => simp [ServerState.step, handle, AdminRequest.handler, hf]
      | reload => cases hf.symm.trans h
      | _ => cases routed

theorem step_frame {event : ServerEvent} (hf : s.file.isSome) :
    (s.step Url event).isRemote = s.isRemote ∧ (s.step Url event).file.isSome := by
  obtain ⟨w, step⟩ := event
  cases read : s.reads Url w step with
  | none =>
    obtain ⟨-, listener, file⟩ := step_of_not_reads (w := w) hf read
    exact ⟨by rw [isRemote, isRemote, listener], file⟩
  | some file =>
    rw [step_of_reads read]
    obtain ⟨listener, file⟩ :=
      @applied_frame Url _ _ _ _ { s with file := some file } w
    exact ⟨by rw [isRemote, isRemote, listener], by simp [file]⟩

/-- The step lemma: an authenticated server stays so exactly by a guarded step. -/
theorem step_authenticated_iff {event : ServerEvent} (hf : s.file.isSome)
    (safe : s.Authenticated) : (s.step Url event).Authenticated ↔ s.Guarded Url event := by
  obtain ⟨w, step⟩ := event
  rw [authenticated_iff] at safe
  rw [authenticated_iff, (step_frame hf).1]
  cases read : s.reads Url w step with
  | none =>
    rw [(step_of_not_reads (w := w) hf read).1]
    simp only [Guarded, read, Option.mem_def, reduceCtorEq, false_imp_iff, implies_true, iff_true]
    exact safe
  | some file =>
    simp only [step_of_reads read, Guarded, read, Option.mem_def, Option.some.injEq, forall_eq']
    refine forall_congr' fun remote => ?_
    rw [Ne, applied_clients (s := { s with file := some file }) rfl (safe remote), not_and]
    simp only [not_exists, not_and, Bool.not_eq_true]

/-- The run lemma, over every state the run passes through. -/
theorem run_authenticated_iff {events : List ServerEvent} (hf : s.file.isSome)
    (safe : s.Authenticated) :
    (∀ before, before <+: events → (s.run Url before).Authenticated) ↔
      s.GuardedRun Url events := by
  induction events generalizing s with
  | nil =>
    simp only [List.prefix_nil, forall_eq, GuardedRun, iff_true]
    exact safe
  | cons event rest ih =>
    have split : (∀ before, before <+: event :: rest → (s.run Url before).Authenticated) ↔
        ∀ before, before <+: rest → ((s.step Url event).run Url before).Authenticated := by
      constructor
      · intro all before prefixed
        exact all (event :: before) (List.prefix_cons_inj event |>.2 prefixed)
      · intro all before prefixed
        cases before with
        | nil => exact safe
        | cons first before =>
          obtain ⟨rfl, tail⟩ := List.cons_prefix_cons.1 prefixed
          exact all before tail
    rw [split, GuardedRun, ← step_authenticated_iff hf safe]
    constructor
    · intro all
      have next := all [] List.nil_prefix
      exact ⟨next, (ih (step_frame hf).2 next).1 all⟩
    · rintro ⟨next, guarded⟩
      exact (ih (step_frame hf).2 next).2 guarded

end ServerState

section Start

variable {Url : Type} [UrlCrate Url] [TimeCrate] [HttpCrate] [Sha256]

theorem serveCommand_authenticated {env : Environment} {file : ConfigFile} {bind : Option String}
    {port : Option UInt16} {s : ServerState}
    (starts : serveCommand Url env file bind port = some s) :
    s.Authenticated ∧ s.file = some file := by
  obtain ⟨-, config, ip, parsed, built⟩ := serveCommand_eq_some Url starts
  obtain ⟨valid, -, clients, resolved, rfl⟩ := (buildRouterWithReload_eq_some Url).1 built
  refine ⟨ServerState.authenticated_iff.2 fun remote empty => ?_, rfl⟩
  have off := (resolveClients_eq_nil resolved).1 empty
  simp [ServerState.isRemote, Config.noAuth_loopback valid parsed off] at remote

/-- From every start and over every finite sequence of admin requests, edits of
the file and reloads: authentication stays on in every state passed through,
exactly when no reload on a remote listener takes in a file with `no_auth`. -/
theorem listener_authenticated_iff {env : Environment} {file : ConfigFile}
    {bind : Option String} {port : Option UInt16} {s : ServerState}
    (starts : serveCommand Url env file bind port = some s) (events : List ServerEvent) :
    (∀ before, before <+: events → (s.run Url before).Authenticated) ↔
      s.GuardedRun Url events := by
  obtain ⟨safe, hf⟩ := serveCommand_authenticated starts
  exact ServerState.run_authenticated_iff (by simp [hf]) safe

end Start

def tlsDoc : Table :=
  [("server", .table [("tls", .table
    [("cert_path", .string "/etc/amatl/cert.pem"), ("key_path", .string "/etc/amatl/key.pem")])])]

def tokenWorld : World where
  env name := if name = "AMATL_SERVER_TOKEN" then some sampleToken else none
  joined := true

def remoteServer : ServerState :=
  letI := noDates
  letI := plainHeaders
  letI := sampleSha256
  (serveCommand PlainUrl tokenWorld.env (.document tlsDoc) (some "0.0.0.0") none).get
    (by decide +kernel)

theorem remoteServer_starts :
    letI := noDates
    letI := plainHeaders
    letI := sampleSha256
    serveCommand PlainUrl tokenWorld.env (.document tlsDoc) (some "0.0.0.0") none
      = some remoteServer :=
  (Option.some_get _).symm

/-- Reloads alone keep the authentication of this server. -/
theorem remoteServer_hangup_authenticated :
    letI := noDates
    letI := plainHeaders
    letI := sampleSha256
    remoteServer.isRemote = true ∧
      (remoteServer.run PlainUrl [(tokenWorld, .hangup)]).Authenticated := by
  let _ := noDates
  let _ := plainHeaders
  let _ := sampleSha256
  refine ⟨by decide +kernel,
    (listener_authenticated_iff remoteServer_starts [(tokenWorld, .hangup)]).2 ⟨?_, trivial⟩ _
      (List.prefix_refl _)⟩
  rintro - - file read config loads
  cases (serveCommand_authenticated remoteServer_starts).2.symm.trans read
  have read : (ConfigFile.document tlsDoc).read = .ok config :=
    ((Config.loadOptional_eq_ok PlainUrl).1 loads).1
  have on : (ConfigFile.document tlsDoc).read.toOption.map (·.server.noAuth) = some false := by
    decide +kernel
  rw [read] at on
  exact Option.some.inj on

/-- The first reload forgets the address of the command line, so that the change
to `no_auth` passes as one of a loopback server; the second one applies it. -/
def openingRun : List ServerEvent :=
  [(tokenWorld, .request .reload),
   (tokenWorld, .request (.updateServerPendingConfig { noAuth := some true })),
   (tokenWorld, .request .reload)]

theorem remoteServer_opens :
    letI := noDates
    letI := plainHeaders
    letI := sampleSha256
    ¬ ∀ (env : Environment) (file : ConfigFile) (bind : Option String) (port : Option UInt16)
      (s : ServerState) (events : List ServerEvent),
      serveCommand PlainUrl env file bind port = some s → (s.run PlainUrl events).Authenticated := by
  let _ := noDates
  let _ := plainHeaders
  let _ := sampleSha256
  intro safe
  have accepted := safe _ _ _ _ remoteServer openingRun remoteServer_starts
  exact ServerState.authenticated_iff.1 accepted (by decide +kernel) (by decide +kernel)

end Amatl
