import Amatl.AuditTrail
import Amatl.Lib.NetText
import Amatl.Server.Access

/-! The checks at the edge with what they leave behind: counters, the limiter and one
recorded event for every request that gets no answer of its own. -/

namespace Amatl

open Net

def displayIp : IpAddr → String
  | .v4 address => String.ofList address.display
  | .v6 address => String.ofList address.display

/-- The counters of the server that the middleware touches. -/
structure EdgeMetrics where
  rateLimitedTotal : Nat
  unauthorizedTotal : Nat
  requestTimeoutTotal : Nat

structure EdgeState where
  limiter : RateLimiter
  metrics : EdgeMetrics
  recorded : List SecurityEventInput

/-- A request as it reaches the server, and whether its handler is done in time. -/
structure EdgeRequest where
  request : Request
  requestId : String
  today : String
  now : Nat
  inTime : Bool

/-- What goes back: an error of the edge, or what the handler answers. -/
inductive EdgeResponse where
  | refused (code : ErrorCode)
  | timedOut
  | handled (admission : Admission)

namespace EdgeResponse

def isHandled : EdgeResponse → Bool
  | .handled _ => true
  | .refused _ | .timedOut => false

def isRateLimited : EdgeResponse → Bool
  | .refused .rateLimited => true
  | _ => false

def isUnauthorized : EdgeResponse → Bool
  | .refused .unauthorized | .refused .scopeDenied => true
  | _ => false

def isTimedOut : EdgeResponse → Bool
  | .timedOut => true
  | _ => false

/-- The answer to a request on which the checks have decided. -/
def of (r : EdgeRequest) : Except ErrorCode Admission → EdgeResponse
  | .error code => .refused code
  | .ok admission => if r.inTime then .handled admission else .timedOut

end EdgeResponse

namespace EdgeState

def auditSecurityEventContext (state : EdgeState) (event requestId path : String)
    (clientIp : IpAddr) (clientId : Option String) : EdgeState :=
  { state with recorded := state.recorded ++ [⟨event, some requestId, clientId, some path,
    some (displayIp clientIp)⟩] }

def auditSecurityEvent (state : EdgeState) (event : String) (r : EdgeRequest) : EdgeState :=
  state.auditSecurityEventContext event r.requestId r.request.path r.request.clientIp none

def auditSecurityEventForClient (state : EdgeState) (event : String) (r : EdgeRequest)
    (clientId : String) : EdgeState :=
  state.auditSecurityEventContext event r.requestId r.request.path r.request.clientIp
    (some clientId)

def countRateLimited (state : EdgeState) : EdgeState :=
  { state with metrics.rateLimitedTotal := state.metrics.rateLimitedTotal + 1 }

def countUnauthorized (state : EdgeState) : EdgeState :=
  { state with metrics.unauthorizedTotal := state.metrics.unauthorizedTotal + 1 }

def countTimeout (state : EdgeState) : EdgeState :=
  { state with metrics.requestTimeoutTotal := state.metrics.requestTimeoutTotal + 1 }

section

variable [TimeCrate] [HttpCrate] [Sha256]

/-- The handler under the timeout of the request. -/
def handle (state : EdgeState) (security : SecurityState) (r : EdgeRequest)
    (identity : ClientIdentity) : EdgeResponse × EdgeState :=
  if r.inTime then (.handled ⟨identity, security.timeoutMs⟩, state)
  else (.timedOut, state.countTimeout.auditSecurityEvent "request_timeout" r)

/-- The identity of the request and its scopes, then the handler. -/
def authorizeAndHandle (state : EdgeState) (security : SecurityState) (r : EdgeRequest) :
    EdgeResponse × EdgeState :=
  let request := r.request
  if isProtected request.method request.path && request.method != .options then
    match authenticate request security r.today with
    | .anonymous => state.handle security r .unauthenticated
    | .client client =>
      let required := (requiredScope request.method request.path).getD .admin
      if !client.scopes.contains required then
        (.refused .scopeDenied,
          state.countUnauthorized.auditSecurityEventForClient "scope_denied" r client.id)
      else state.handle security r ⟨client.id, client.tools⟩
    | .expired id =>
      (.refused .unauthorized,
        state.countUnauthorized.auditSecurityEventForClient "credential_expired" r id)
    | .rejected =>
      (.refused .unauthorized, state.countUnauthorized.auditSecurityEvent "unauthorized" r)
  else state.handle security r .unauthenticated

/-- `security_middleware` with its effects. -/
def serve (state : EdgeState) (security : SecurityState) (r : EdgeRequest) :
    EdgeResponse × EdgeState :=
  let request := r.request
  if security.maxHeaderBytes.toNat < request.headerSize then
    (.refused .headersTooLarge, state.auditSecurityEvent "headers_too_large" r)
  else if declaresBodyOver request security.maxBodyBytes then
    (.refused .bodyTooLarge, state.auditSecurityEvent "body_too_large" r)
  else if !validHost request security.allowedHosts then
    (.refused .invalidHost, state.auditSecurityEvent "invalid_host" r)
  else if !validOrigin request security.allowedOrigins then
    (.refused .invalidOrigin, state.auditSecurityEvent "invalid_origin" r)
  else if request.method == .options then state.authorizeAndHandle security r
  else
    match withinRateLimit request security.rateLimitPerMinute r.now state.limiter with
    | (false, limiter) => (.refused .rateLimited,
        { state with limiter }.countRateLimited.auditSecurityEvent "rate_limited" r)
    | (true, limiter) => { state with limiter }.authorizeAndHandle security r

def serveAll (security : SecurityState) (state : EdgeState) :
    List EdgeRequest → List EdgeResponse × EdgeState
  | [] => ([], state)
  | r :: rest =>
    let served := state.serve security r
    let later := serveAll security served.2 rest
    (served.1 :: later.1, later.2)

/-! What one request leaves behind. -/

/-- The response with its traces: one event of the request unless it is handled, and the
counter of its kind. -/
structure Leaves (state : EdgeState) (r : EdgeRequest) (limiter : RateLimiter)
    (response : EdgeResponse) (after : EdgeState) : Prop where
  limiter : after.limiter = limiter
  recorded : ∃ events : List SecurityEventInput, after.recorded = state.recorded ++ events ∧
    events.map SecurityEventInput.requestId =
      if response.isHandled then [] else [some r.requestId]
  rateLimited : after.metrics.rateLimitedTotal =
    state.metrics.rateLimitedTotal + response.isRateLimited.toNat
  unauthorized : after.metrics.unauthorizedTotal =
    state.metrics.unauthorizedTotal + response.isUnauthorized.toNat
  timedOut : after.metrics.requestTimeoutTotal =
    state.metrics.requestTimeoutTotal + response.isTimedOut.toNat

omit [TimeCrate] [HttpCrate] [Sha256] in
theorem leaves_handle (state : EdgeState) (security : SecurityState) (r : EdgeRequest)
    (identity : ClientIdentity) (limiter : RateLimiter) :
    let served := { state with limiter }.handle security r identity
    served.1 = .of r (.ok ⟨identity, security.timeoutMs⟩) ∧
      Leaves state r limiter served.1 served.2 := by
  cases inTime : r.inTime with
  | true =>
    simp only [handle, EdgeResponse.of, inTime, if_true]
    exact ⟨trivial, rfl, ⟨[], (List.append_nil _).symm, rfl⟩, rfl, rfl, rfl⟩
  | false =>
    simp only [handle, EdgeResponse.of, inTime, Bool.false_eq_true, if_false]
    exact ⟨trivial, rfl, ⟨_, rfl, rfl⟩, rfl, rfl, rfl⟩

omit [HttpCrate] in
theorem leaves_authorize (state : EdgeState) (security : SecurityState) (r : EdgeRequest)
    (limiter : RateLimiter) :
    let served := { state with limiter }.authorizeAndHandle security r
    served.1 = .of r ((authorize r.request security r.today).map fun identity =>
        { identity, timeoutMs := security.timeoutMs : Admission }) ∧
      Leaves state r limiter served.1 served.2 := by
  unfold authorizeAndHandle authorize
  simp only
  split
  · cases authenticate r.request security r.today with
    | anonymous => exact leaves_handle state security r _ limiter
    | client client =>
      simp only
      cases client.scopes.contains ((requiredScope r.request.method r.request.path).getD .admin) with
      | true => exact leaves_handle state security r _ limiter
      | false => exact ⟨rfl, rfl, ⟨_, rfl, rfl⟩, rfl, rfl, rfl⟩
    | expired id => exact ⟨rfl, rfl, ⟨_, rfl, rfl⟩, rfl, rfl, rfl⟩
    | rejected => exact ⟨rfl, rfl, ⟨_, rfl, rfl⟩, rfl, rfl, rfl⟩
  · exact leaves_handle state security r _ limiter

/-- The checks decide as they do without their effects, and each of them leaves its trace. -/
theorem serve_leaves (state : EdgeState) (security : SecurityState) (r : EdgeRequest) :
    let verdict := securityMiddleware security r.today r.now r.request state.limiter
    (state.serve security r).1 = .of r verdict.1 ∧
      Leaves state r verdict.2 (state.serve security r).1 (state.serve security r).2 := by
  unfold serve securityMiddleware
  simp only
  split
  · exact ⟨rfl, rfl, ⟨_, rfl, rfl⟩, rfl, rfl, rfl⟩
  split
  · exact ⟨rfl, rfl, ⟨_, rfl, rfl⟩, rfl, rfl, rfl⟩
  split
  · exact ⟨rfl, rfl, ⟨_, rfl, rfl⟩, rfl, rfl, rfl⟩
  split
  · exact ⟨rfl, rfl, ⟨_, rfl, rfl⟩, rfl, rfl, rfl⟩
  split
  · exact leaves_authorize state security r state.limiter
  · obtain ⟨within, limiter⟩ :=
      withinRateLimit r.request security.rateLimitPerMinute r.now state.limiter
    cases within with
    | false => exact ⟨rfl, rfl, ⟨_, rfl, rfl⟩, rfl, rfl, rfl⟩
    | true => exact leaves_authorize state security r limiter

/-- What the checks say of each request of a run. -/
def verdicts (security : SecurityState) (limiter : RateLimiter) :
    List EdgeRequest → List (Except ErrorCode Admission)
  | [] => []
  | r :: rest =>
    let verdict := securityMiddleware security r.today r.now r.request limiter
    verdict.1 :: verdicts security verdict.2 rest

def unhandledIds (requests : List EdgeRequest) (responses : List EdgeResponse) :
    List (Option String) :=
  ((requests.zip responses).filter (fun served => !served.2.isHandled)).map
    (fun served => some served.1.requestId)

/-- The traces of a run, in the order of its requests. -/
structure Accounts (security : SecurityState) (state : EdgeState) (requests : List EdgeRequest)
    (responses : List EdgeResponse) (after : EdgeState) : Prop where
  answered : responses = List.zipWith EdgeResponse.of requests
    (verdicts security state.limiter requests)
  recorded : after.recorded.map SecurityEventInput.requestId =
    state.recorded.map SecurityEventInput.requestId ++ unhandledIds requests responses
  rateLimited : after.metrics.rateLimitedTotal =
    state.metrics.rateLimitedTotal + responses.countP EdgeResponse.isRateLimited
  unauthorized : after.metrics.unauthorizedTotal =
    state.metrics.unauthorizedTotal + responses.countP EdgeResponse.isUnauthorized
  timedOut : after.metrics.requestTimeoutTotal =
    state.metrics.requestTimeoutTotal + responses.countP EdgeResponse.isTimedOut

omit [TimeCrate] [HttpCrate] [Sha256] in
theorem countP_cons_toNat {α : Type*} (p : α → Bool) (a : α) (l : List α) :
    (a :: l).countP p = (p a).toNat + l.countP p := by
  cases h : p a with
  | true => simp [h, Nat.add_comm]
  | false => simp [h]

theorem serveAll_accounts (security : SecurityState) (state : EdgeState)
    (requests : List EdgeRequest) :
    Accounts security state requests (serveAll security state requests).1
      (serveAll security state requests).2 := by
  induction requests generalizing state with
  | nil => exact ⟨rfl, (List.append_nil _).symm, rfl, rfl, rfl⟩
  | cons r rest ih =>
    obtain ⟨response, leaves⟩ := serve_leaves state security r
    have later := ih (state.serve security r).2
    simp only [serveAll]
    refine ⟨?_, ?_, ?_, ?_, ?_⟩
    · rw [verdicts, List.zipWith_cons_cons, ← response, ← leaves.limiter, ← later.answered]
    · obtain ⟨events, appended, ids⟩ := leaves.recorded
      rw [later.recorded, appended, List.map_append, ids, List.append_assoc]
      cases handled : (state.serve security r).1.isHandled <;> simp [unhandledIds, handled]
    · rw [later.rateLimited, leaves.rateLimited, countP_cons_toNat, Nat.add_assoc]
    · rw [later.unauthorized, leaves.unauthorized, countP_cons_toNat, Nat.add_assoc]
    · rw [later.timedOut, leaves.timedOut, countP_cons_toNat, Nat.add_assoc]

theorem length_unhandledIds (security : SecurityState) (state : EdgeState)
    (requests : List EdgeRequest) :
    (unhandledIds requests (serveAll security state requests).1).length =
      (serveAll security state requests).1.countP (fun response => !response.isHandled) := by
  induction requests generalizing state with
  | nil => rfl
  | cons r rest ih =>
    have later := ih (state.serve security r).2
    simp only [serveAll, unhandledIds, List.zip_cons_cons, List.length_map] at later ⊢
    cases handled : (state.serve security r).1.isHandled <;> simp [handled, later]

/-- Over every run of requests: the edge answers as its checks decide, counts what it
refuses, and records one event of each request that is not handled. However the calls of
the recorder then interleave, each of these requests ends as one row, one failed write or
one counted drop, and every new row is that of such a request. -/
theorem refusals_recorded (security : SecurityState) {state : EdgeState}
    (fresh : state.recorded = []) (requests : List EdgeRequest) {earlier : List SecurityEvent}
    {sequence : Nat} (ordered : (earlier.map SecurityEvent.id).Pairwise (· < ·))
    (known : ∀ row ∈ earlier, row.id ≤ sequence) (retentionDays : UInt32)
    (steps : List AuditStep) :
    let served := serveAll security state requests
    let site := (AuditSite.start true retentionDays earlier sequence served.2.recorded).run steps
    Accounts security state requests served.1 served.2 ∧
      ((∀ recorder ∈ site.recorders, recorder.isOver = true) →
        served.1.countP (fun response => !response.isHandled) =
          site.dropped + (site.recorders.filterMap Recorder.stored).length +
            site.recorders.countP Recorder.failed) ∧
      ∀ row ∈ site.rows, row ∈ earlier ∨ row.requestId ∈ unhandledIds requests served.1 := by
  have accounts := serveAll_accounts security state requests
  have events : (serveAll security state requests).2.recorded.map SecurityEventInput.requestId =
      unhandledIds requests (serveAll security state requests).1 := by
    rw [accounts.recorded, fresh, List.map_nil, List.nil_append]
  have sound := AuditSite.sound_run ordered known true retentionDays
    (serveAll security state requests).2.recorded steps
  refine ⟨accounts, fun ended => ?_, fun row mem => ?_⟩
  · rw [← length_unhandledIds, ← events, List.length_map]
    exact sound.conserved ended
  · obtain ⟨made, gone, sub, -, stored⟩ := sound.rows
    rcases List.mem_append.mp (sub.subset mem) with there | new
    · exact .inl there
    · obtain ⟨recorder, ofSite, shown⟩ := List.mem_filterMap.mp
        (stored.mem_iff.mp (List.mem_map_of_mem new))
      have asked : recorder.input ∈ (serveAll security state requests).2.recorded := by
        rw [← sound.inputs]
        exact List.mem_map_of_mem ofSite
      have same : recorder.input = row.toSecurityEventInput := by
        obtain ⟨input, stage⟩ := recorder
        unfold Recorder.stored at shown
        split at shown <;> simp_all
      rw [← events]
      exact .inr (same ▸ List.mem_map_of_mem asked)

end

end EdgeState

def foreignHost : EdgeRequest where
  request := ⟨.get, "/search", [("host", "other.example".toUTF8.toList)], none⟩
  requestId := "r-1"
  today := "2025-01-01"
  now := 0
  inTime := true

def localRequest (id : String) (inTime : Bool) : EdgeRequest where
  request := ⟨.get, "/search", [("host", "localhost".toUTF8.toList)], none⟩
  requestId := id
  today := "2025-01-01"
  now := 0
  inTime := inTime

def edgeAtStart : EdgeState := ⟨⟨[], 0⟩, ⟨0, 0, 0⟩, []⟩

/-- One request is refused, one runs out of time and one is handled. -/
def mixedRequests : List EdgeRequest :=
  [foreignHost, localRequest "r-2" false, localRequest "r-3" true]

/-- The event that was recorded last is stored first, and the insertion of the other fails. -/
def crossedWrites : List AuditStep :=
  [.recorder 1 (.enter 200100), .recorder 0 (.enter 200101), .recorder 1 .lock,
    .recorder 1 (.insert true 1), .maintain 200102, .recorder 1 (.prune true),
    .recorder 1 .finish, .recorder 0 .lock, .recorder 0 (.insert false 0), .recorder 0 .finish]

theorem mixedRequests_recorded :
    letI := noDates
    letI := plainHeaders
    letI := sampleSha256
    let served := EdgeState.serveAll (.build [] Config.default.server) edgeAtStart mixedRequests
    let site := (AuditSite.start true 1 storedEvents 9 served.2.recorded).run crossedWrites
    EdgeState.Accounts (.build [] Config.default.server) edgeAtStart mixedRequests served.1
        served.2 ∧
      2 = site.dropped + (site.recorders.filterMap Recorder.stored).length +
        site.recorders.countP Recorder.failed ∧
      (∀ row ∈ site.rows, row ∈ storedEvents ∨
        row.requestId ∈ EdgeState.unhandledIds mixedRequests served.1) ∧
      served.2.recorded.map SecurityEventInput.event = ["invalid_host", "request_timeout"] ∧
      EdgeState.unhandledIds mixedRequests served.1 = [some "r-1", some "r-2"] ∧
      site.rows.map (fun row => row.requestId) = [some "r", some "r-2"] := by
  let _ := noDates
  let _ := plainHeaders
  let _ := sampleSha256
  intro served site
  have ordered : (storedEvents.map SecurityEvent.id).Pairwise (· < ·) := by decide
  have known : ∀ row ∈ storedEvents, row.id ≤ 9 := by decide
  have ended : ∀ recorder ∈ site.recorders, recorder.isOver = true := by decide +kernel
  have refused : served.1.countP (fun response => !response.isHandled) = 2 := by decide +kernel
  have fresh : edgeAtStart.recorded = [] := rfl
  obtain ⟨accounts, conserved, rows⟩ := EdgeState.refusals_recorded
    (.build [] Config.default.server) fresh mixedRequests ordered known 1 crossedWrites
  exact ⟨accounts, refused.symm.trans (conserved ended), rows, by decide +kernel, by decide +kernel,
    by decide +kernel⟩

end Amatl
