import Amatl.Deep.Selected
import Amatl.Lib.Interleaving
import Amatl.Server.Routes

/-! The tools of the MCP surface. A call is admitted by the middleware under the security
state of its arrival and done later, by the service of that moment: reloads may come in
between, in any order. -/

namespace Amatl

open Interleaving UrlCrate

/-- The arguments of a call, under the name of the tool. -/
inductive ToolInput where
  | search (query : String) (page pageSize : Option UInt32)
  | deepSearch (query : String)
  | answer (query : String)
  | fetch (url : String)
  | providers
  | status
  deriving DecidableEq

def ToolInput.tool : ToolInput → String
  | .search .. => "search"
  | .deepSearch _ => "deep_search"
  | .answer _ => "answer"
  | .fetch _ => "fetch"
  | .providers => "providers"
  | .status => "status"

/-- What a call is refused with before it asks anything of the service. -/
inductive ToolCode where
  | unauthorized | scopeDenied | invalidQuery | invalidUrl
  deriving DecidableEq

/-- What a tool asks of the service, and within which limits. -/
inductive ToolWork (Url : Type) where
  | search (query : String) (limits : ExecutionLimits) (page pageSize : Option UInt32)
  | deep (query : String) (limits : ExecutionLimits)
  | answer (query : String) (limits : ExecutionLimits)
  | fetch (request : TimedRequest Url)
  | providers
  | status (limits : ExecutionLimits)

def ClientIdentity.allowsTool (identity : ClientIdentity) (tool : String) : Bool :=
  identity.tools.any (fun allowed => allowed == tool)

/-- No identity means that the request never crossed the middleware. -/
def authorizeTool (identity : Option ClientIdentity) (tool : String) : Except ToolCode Unit :=
  match identity with
  | none => .error .unauthorized
  | some identity => if identity.allowsTool tool then .ok () else .error .scopeDenied

def validQuery (query : String) : Bool :=
  !(Text.trim query.toList).isEmpty && Text.utf8Length query.toList ≤ 2048

/-- `Ord::clamp`. -/
def clampPage (limits : ExecutionLimits) (pageSize : UInt32) : UInt32 :=
  if pageSize < 1 then 1 else if limits.maxPageSize < pageSize then limits.maxPageSize else pageSize

section

variable {Url : Type} [UrlCrate Url]

def callTool (config : Config) (identity : Option ClientIdentity) (input : ToolInput) :
    Except ToolCode (ToolWork Url) :=
  let limits := ExecutionLimits.forSurface config .mcp
  match authorizeTool identity input.tool with
  | .error code => .error code
  | .ok () =>
    match input with
    | .search query page pageSize =>
      if !validQuery query then .error .invalidQuery
      else
        let pageSize := pageSize.map (clampPage limits)
        .ok (.search query limits (page <|> pageSize.map (fun _ => 0)) pageSize)
    | .deepSearch query =>
      if !validQuery query then .error .invalidQuery else .ok (.deep query limits)
    | .answer query =>
      if !validQuery query then .error .invalidQuery else .ok (.answer query limits)
    | .fetch url =>
      match (parse url : Option Url) with
      | none => .error .invalidUrl
      | some url =>
        .ok (.fetch ⟨⟨url, limits.fetchMaxBytes, limits.fetchMaxRedirects, []⟩,
          limits.fetchTimeoutMs⟩)
    | .providers => .ok .providers
    | .status => .ok (.status limits)

end

/-- An admitted call, with what it was admitted under. -/
structure ToolCall where
  identity : ClientIdentity
  input : ToolInput
  security : SecurityState
  today : String
  request : Request

structure ToolDone (Url : Type) where
  call : ToolCall
  config : Config
  result : Except ToolCode (ToolWork Url)

/-- The server as tool calls see it. `secured` lists the security states that were in
force. -/
structure ToolSite (Url : Type) where
  config : Config
  security : SecurityState
  limiter : RateLimiter
  inFlight : List ToolCall
  done : List (ToolDone Url)
  secured : List SecurityState

inductive ToolEvent where
  | storeService (config : Config)
  | storeSecurity (security : SecurityState)
  | arrive (today : String) (now : Nat) (request : Request) (input : ToolInput)
  | cancel (index : Nat)
  | call (index : Nat)

namespace ToolSite

variable {Url : Type} [UrlCrate Url] [TimeCrate] [HttpCrate] [Sha256] [RouterCrate]

def start (config : Config) (security : SecurityState) (limiter : RateLimiter) : ToolSite Url :=
  ⟨config, security, limiter, [], [], [security]⟩

/-- The tools that `run_cancellable` waits for. -/
def cancellable : ToolInput → Bool
  | .deepSearch _ | .answer _ => true
  | _ => false

/-- Calls arrive by `POST` on a path of the MCP service. -/
def step (site : ToolSite Url) : ToolEvent → Option (ToolSite Url)
  | .storeService config => some { site with config }
  | .storeSecurity security =>
    some { site with security, secured := site.secured ++ [security] }
  | .arrive today now request input =>
    if request.method = .post ∧ routed request = .mcp then
      match securityMiddleware site.security today now request site.limiter with
      | (.error _, limiter) => some { site with limiter }
      | (.ok admission, limiter) =>
        some { site with
          limiter
          inFlight := site.inFlight ++
            [⟨admission.identity, input, site.security, today, request⟩] }
    else none
  | .cancel index =>
    match site.inFlight[index]? with
    | none => none
    | some call =>
      if cancellable call.input then
        some { site with inFlight := site.inFlight.eraseIdx index }
      else none
  | .call index =>
    match site.inFlight[index]? with
    | none => none
    | some call =>
      some { site with
        inFlight := site.inFlight.eraseIdx index
        done := site.done ++
          [⟨call, site.config, callTool site.config (some call.identity) call.input⟩] }

end ToolSite

/-! What a call may do. -/

section

variable {Url : Type} [TimeCrate] [Sha256]

/-- Authentication was off when the call arrived, or it showed the token of a client that had
not expired and has the scope, and bears the identity of that client. -/
def ToolCall.Justified (call : ToolCall) : Prop :=
  (call.security.clients = [] ∧ call.identity = .unauthenticated) ∨
    ∃ client ∈ call.security.clients,
      (∃ token, call.request.bearer = some token ∧ tokenDigest token = client.digest) ∧
      client.unexpired call.today = true ∧ Scope.mcp ∈ client.scopes ∧
      call.identity = ⟨client.id, client.tools⟩

/-- Nothing beyond what an agent is granted at most. -/
def ToolWork.Bounded : ToolWork Url → Prop
  | .search query limits _ pageSize => validQuery query = true ∧ limits.AtMost .agentCeiling ∧
      ∀ size ∈ pageSize, 1 ≤ size.toNat ∧ size.toNat ≤ 25
  | .deep query limits => validQuery query = true ∧ limits.AtMost .agentCeiling
  | .answer query limits => validQuery query = true ∧ limits.AtMost .agentCeiling
  | .fetch request => request.timeoutMs ≤ 3000 ∧ request.maxBytes ≤ 256 * 1024 ∧
      request.maxRedirects ≤ 2 ∧ request.headers = []
  | .providers => True
  | .status limits => limits.AtMost .agentCeiling

end

theorem clampPage_bounds (config : Config) (pageSize : UInt32) :
    1 ≤ (clampPage (.forSurface config .mcp) pageSize).toNat ∧
      (clampPage (.forSurface config .mcp) pageSize).toNat ≤ 25 := by
  have most : (ExecutionLimits.forSurface config .mcp).maxPageSize = 25 := by
    show min (100 : UInt32) 25 = 25
    decide
  unfold clampPage
  rw [most]
  split
  · decide
  · rename_i positive
    split
    · decide
    · rename_i within
      rw [UInt32.lt_iff_toNat_lt] at positive within
      simp only [UInt32.toNat_one, UInt32.reduceToNat] at positive within
      omega

section

variable {Url : Type} [UrlCrate Url]

theorem authorizeTool_ok {identity : ClientIdentity} {tool : String}
    (h : authorizeTool (some identity) tool = .ok ()) : tool ∈ identity.tools := by
  simp only [authorizeTool] at h
  split at h
  · rename_i allowed
    simpa [ClientIdentity.allowsTool] using allowed
  · cases h

/-- A call that is let through asks for no more than an agent is granted. -/
theorem callTool_ok {config : Config} {identity : ClientIdentity} {input : ToolInput}
    {work : ToolWork Url} (h : callTool config (some identity) input = .ok work) :
    input.tool ∈ identity.tools ∧ work.Bounded := by
  have ceiling := ExecutionLimits.forSurface_mcp_atMost config
  unfold callTool at h
  simp only at h
  split at h
  · cases h
  · rename_i allowed
    refine ⟨authorizeTool_ok allowed, ?_⟩
    cases input with
    | search query page pageSize =>
      simp only at h
      split at h
      · cases h
      · rename_i valid
        cases h
        refine ⟨by simpa using valid, ceiling, ?_⟩
        intro size mem
        obtain ⟨asked, -, rfl⟩ := Option.mem_map.mp mem
        exact clampPage_bounds config asked
    | deepSearch query =>
      simp only at h
      split at h
      · cases h
      · rename_i valid
        cases h
        exact ⟨by simpa using valid, ceiling⟩
    | answer query =>
      simp only at h
      split at h
      · cases h
      · rename_i valid
        cases h
        exact ⟨by simpa using valid, ceiling⟩
    | fetch url =>
      simp only at h
      split at h
      · cases h
      · cases h
        exact ⟨ceiling.fetchTimeoutMs, ceiling.fetchMaxBytes, ceiling.fetchMaxRedirects, rfl⟩
    | providers =>
      cases h
      trivial
    | status =>
      cases h
      exact ceiling

end

section

variable [TimeCrate] [Sha256]

theorem authorize_justified {request : Request} {security : SecurityState} {today : String}
    {identity : ClientIdentity} (input : ToolInput) (method : request.method ≠ .options)
    (required : requiredScope request.method request.path = some .mcp)
    (h : authorize request security today = .ok identity) :
    (⟨identity, input, security, today, request⟩ : ToolCall).Justified := by
  unfold authorize at h
  rw [if_pos (by simp [isProtected, required, method])] at h
  cases outcome : authenticate request security today with
  | anonymous =>
    simp only [outcome, Except.ok.injEq] at h
    exact .inl ⟨authenticate_eq_anonymous.1 outcome, h.symm⟩
  | client client =>
    simp only [outcome, required, Option.getD_some] at h
    split at h
    · rename_i holds
      cases h
      obtain ⟨mem, token⟩ := authenticate_eq_client outcome
      exact .inr ⟨client, mem, token, authenticate_unexpired outcome, by simpa using holds, rfl⟩
    · cases h
  | expired id => simp [outcome] at h
  | rejected => simp [outcome] at h

variable {Url : Type}

/-- Admitted under a security state that was in force, by what that state asks for. -/
def ToolSite.Vouches (site : ToolSite Url) (call : ToolCall) : Prop :=
  call.security ∈ site.secured ∧ call.Justified

variable [UrlCrate Url]

structure ToolSite.Vouched (site : ToolSite Url) : Prop where
  current : site.security ∈ site.secured
  waiting : ∀ call ∈ site.inFlight, site.Vouches call
  answered : ∀ entry ∈ site.done, site.Vouches entry.call ∧
    entry.result = callTool entry.config (some entry.call.identity) entry.call.input

theorem ToolSite.Vouched.weaken {site other : ToolSite Url} (vouched : site.Vouched)
    (more : ∀ security ∈ site.secured, security ∈ other.secured)
    (current : other.security ∈ other.secured)
    (fewer : ∀ call ∈ other.inFlight, call ∈ site.inFlight) (done : other.done = site.done) :
    other.Vouched where
  current := current
  waiting call mem :=
    have vouches := vouched.waiting call (fewer call mem)
    ⟨more _ vouches.1, vouches.2⟩
  answered entry mem := by
    rw [done] at mem
    obtain ⟨vouches, result⟩ := vouched.answered entry mem
    exact ⟨⟨more _ vouches.1, vouches.2⟩, result⟩

variable [HttpCrate] [RouterCrate]

theorem ToolSite.step_vouched (sound : RouterCrate.Sound) (site : ToolSite Url) (event : ToolEvent)
    (next : ToolSite Url) (vouched : site.Vouched) (h : site.step event = some next) :
    next.Vouched := by
  cases event with
  | storeService config =>
    cases h
    exact vouched.weaken (fun _ mem => mem) vouched.current (fun _ mem => mem) rfl
  | storeSecurity security =>
    cases h
    exact vouched.weaken (fun _ mem => List.mem_append_left _ mem) (by simp) (fun _ mem => mem) rfl
  | arrive today now request input =>
    simp only [ToolSite.step] at h
    split at h
    · rename_i reached
      obtain ⟨post, toMcp⟩ := reached
      split at h
      · cases h
        exact vouched.weaken (fun _ mem => mem) vouched.current (fun _ mem => mem) rfl
      · rename_i admission limiter outcome
        cases h
        have admitted : (securityMiddleware site.security today now request site.limiter).1 =
            .ok admission := by rw [outcome]
        have justified := authorize_justified input (by rw [post]; decide)
          (requiredScope_of_routed_mcp sound toMcp) (securityMiddleware_authorized admitted)
        refine ⟨vouched.current, ?_, vouched.answered⟩
        intro call mem
        rcases List.mem_append.mp mem with there | here
        · exact vouched.waiting call there
        · cases List.mem_singleton.mp here
          exact ⟨vouched.current, justified⟩
    · cases h
  | cancel index =>
    simp only [ToolSite.step] at h
    split at h
    · cases h
    · split at h
      · cases h
        exact vouched.weaken (fun _ mem => mem) vouched.current
          (fun _ mem => List.mem_of_mem_eraseIdx mem) rfl
      · cases h
  | call index =>
    simp only [ToolSite.step] at h
    split at h
    · cases h
    · rename_i call there
      cases h
      have vouches := vouched.waiting call (List.mem_of_getElem? there)
      refine ⟨vouched.current, ?_, ?_⟩
      · intro other mem
        exact vouched.waiting other (List.mem_of_mem_eraseIdx mem)
      · intro entry mem
        rcases List.mem_append.mp mem with before | here
        · exact vouched.answered entry before
        · cases List.mem_singleton.mp here
          exact ⟨vouches, rfl⟩

/-- Whatever reloads, arrivals and cancellations come in between, a tool asks something of the
service only for a caller whom the security state of the arrival let in, with that tool on the
list, and within the limits of an agent. -/
theorem ToolSite.tool_work_authorized (sound : RouterCrate.Sound) (config : Config)
    (security : SecurityState) (limiter : RateLimiter) (events : List ToolEvent) :
    let site : ToolSite Url := run ToolSite.step (ToolSite.start config security limiter) events
    ∀ entry ∈ site.done, ∀ work, entry.result = .ok work →
      entry.call.security ∈ site.secured ∧ entry.call.Justified ∧
        entry.call.input.tool ∈ entry.call.identity.tools ∧ work.Bounded := by
  intro site entry mem work ok
  have start : (ToolSite.start config security limiter : ToolSite Url).Vouched :=
    ⟨by simp [ToolSite.start], by simp [ToolSite.start], by simp [ToolSite.start]⟩
  have vouched : site.Vouched := run_keeps (ToolSite.step_vouched sound) start events
  obtain ⟨⟨secured, justified⟩, result⟩ := vouched.answered entry mem
  obtain ⟨allowed, bounded⟩ := callTool_ok (result.symm.trans ok)
  exact ⟨secured, justified, allowed, bounded⟩

end

/-- The credentials are revoked between the arrival and the call: the call goes on, the next
one does not arrive. -/
def revokedCalls : List ToolEvent :=
  [.arrive "2025-01-01" 0 (bearerRequest .post "/mcp") (.search "lean" none (some 500)),
   .storeSecurity (.build searchClients searchConfig.server),
   .call 0,
   .arrive "2025-01-01" 0 (bearerRequest .post "/mcp") .providers,
   .call 0]

theorem ToolSite.revokedCalls_authorized :
    letI := noDates
    letI := plainHeaders
    letI := sampleSha256
    letI := segmentRouter
    let site : ToolSite PageUrl := run ToolSite.step
      (ToolSite.start .default (.build processClients Config.default.server) ⟨[], 0⟩) revokedCalls
    site.done.map (fun entry => (entry.call.input, entry.result.toBool)) =
        [(.search "lean" none (some 500), true)] ∧
      ∀ entry ∈ site.done, ∀ work, entry.result = .ok work →
        entry.call.Justified ∧ work.Bounded := by
  let _ := noDates
  let _ := plainHeaders
  let _ := sampleSha256
  let _ := segmentRouter
  refine ⟨by decide +kernel, ?_⟩
  intro entry mem work ok
  obtain ⟨-, justified, -, bounded⟩ :=
    ToolSite.tool_work_authorized segmentRouter_sound _ _ _ _ entry mem work ok
  exact ⟨justified, bounded⟩

end Amatl
