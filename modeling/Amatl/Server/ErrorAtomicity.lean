import Amatl.Config.ListAgreement
import Amatl.Server.Admin

/-! A request that answers with an error: what it may already have changed. -/

namespace Amatl

open Toml

section Atomicity

variable (Url : Type) [UrlCrate Url] [TimeCrate] [HttpCrate] [Sha256]

/-- A file that a reload can take in: it loads, it validates, and either it turns
authentication off or one of its credentials can be presented. -/
def ConfigFile.Usable (w : World) (explicitToken : Option String) (file : ConfigFile) : Prop :=
  ∃ config, Config.loadOptional Url file = .ok config ∧
    (config.server.noAuth = true ∨ config.server.hasCredential w.env explicitToken = true)

namespace ServerState

variable {Url} {w : World} {s : ServerState}

theorem reload_isOk_iff {file : ConfigFile} (h : s.file = some file) :
    (∃ s', s.reload Url w = .ok s') ↔ w.joined = true ∧ file.Usable Url w s.explicitToken := by
  have source : s.source Url = Config.loadOptional Url file := by simp [ServerState.source, h]
  simp only [reload_eq_ok, source, ConfigFile.Usable, ← resolveClients_isSome]
  constructor
  · rintro ⟨-, config, clients, loads, -, resolved, joined, -⟩
    exact ⟨joined, config, loads, by simp [resolved]⟩
  · rintro ⟨joined, config, loads, resolved⟩
    obtain ⟨clients, resolved⟩ := Option.isSome_iff_exists.1 resolved
    exact ⟨_, config, clients, loads, ((Config.loadOptional_eq_ok Url).1 loads).2, resolved,
      joined, rfl⟩

theorem applied_error {code : ErrorCode} (h : (s.applied Url w).1 = .error code) :
    (s.applied Url w).2 = s ∧ ∀ s', s.reload Url w ≠ .ok s' := by
  unfold applied at h ⊢
  cases result : s.reload Url w with
  | error code => exact ⟨rfl, fun s' h => nomatch h⟩
  | ok s' => simp [result] at h

/-- What an error can leave behind: nothing, the file that a failing write cut short, or a file
that the reload could not take in. -/
theorem rewritten_error {handler : Handler} {code : ErrorCode}
    (h : (s.rewritten Url w handler).1 = .error code) :
    (s.rewritten Url w handler).2 = s ∨
    ∃ file file' reloads left, s.file = some file ∧
      handler.rewrite Url s.running file = .ok (file', reloads) ∧
      (s.rewritten Url w handler).2 = { s with file := some left } ∧
      (w.write = .cut left ∨ w.write = .whole ∧ reloads = true ∧ left = file' ∧
        ¬ (w.joined = true ∧ file'.Usable Url w s.explicitToken)) := by
  unfold rewritten at h ⊢
  cases hf : s.file with
  | none => exact .inl rfl
  | some file =>
    simp only [hf] at h ⊢
    cases hr : handler.rewrite Url s.running file with
    | error code => exact .inl rfl
    | ok result =>
      obtain ⟨file', reloads⟩ := result
      cases hw : w.write with
      | refused => exact .inl rfl
      | cut left => exact .inr ⟨file, file', reloads, left, rfl, hr, rfl, .inl rfl⟩
      | whole =>
        simp only [hr, hw] at h ⊢
        cases reloads with
        | false => cases h
        | true =>
          obtain ⟨same, fails⟩ := applied_error h
          refine .inr ⟨file, file', true, file', rfl, hr, same, .inr ⟨trivial, rfl, rfl, ?_⟩⟩
          intro usable
          obtain ⟨s', done⟩ := (reload_isOk_iff (s := { s with file := some file' }) rfl).2 usable
          exact fails s' done

theorem handle_of_handler {request : AdminRequest} {handler : Handler}
    (h : request.handler = some handler) : s.handle Url w request = s.rewritten Url w handler := by
  simp [handle, h]

theorem handle_error_of_no_handler {request : AdminRequest} {code : ErrorCode}
    (h : request.handler = none) (failed : (s.handle Url w request).1 = .error code) :
    (s.handle Url w request).2 = s := by
  cases request with
  | malformed => rfl
  | reload => exact (applied_error failed).1
  | _ => cases h

/-- A request reports an error only with everything as it was. -/
def ErrorAtomic (Url : Type) [UrlCrate Url] (w : World) (request : AdminRequest)
    (s : ServerState) : Prop :=
  ∀ code, (s.handle Url w request).1 = .error code →
    (s.handle Url w request).2.file = s.file ∧
    (s.handle Url w request).2.running = s.running ∧
    (s.handle Url w request).2.security.clients = s.security.clients

end ServerState

/-- An error leaves everything as it was exactly when a write that fails leaves the file as it
was, and a file that the request has rewritten, and would apply, is either what it was before or
one that a reload can take in. -/
theorem errorAtomic_iff (w : World) (request : AdminRequest) (s : ServerState) :
    s.ErrorAtomic Url w request ↔
      ∀ handler file file' reloads, request.handler = some handler → s.file = some file →
        handler.rewrite Url s.running file = .ok (file', reloads) →
        (∀ left, w.write = .cut left → left = file) ∧
        (w.write = .whole → reloads = true →
          file' = file ∨ w.joined = true ∧ file'.Usable Url w s.explicitToken) := by
  constructor
  · intro atomic handler file file' reloads routed hf rewrites
    have result : s.handle Url w request = s.rewritten Url w handler :=
      ServerState.handle_of_handler routed
    constructor
    · intro left failed
      have handled : s.handle Url w request =
          (.error .configurationInvalid, { s with file := some left }) := by
        simp [result, ServerState.rewritten, hf, rewrites, failed]
      obtain ⟨same, -, -⟩ := atomic .configurationInvalid (by rw [handled])
      rw [handled, hf] at same
      exact Option.some.inj same
    · rintro written rfl
      by_contra half
      rw [not_or] at half
      have rewritten : s.handle Url w request
          = ({ s with file := some file' } : ServerState).applied Url w := by
        simp [result, ServerState.rewritten, hf, rewrites, written]
      have stuck : ∀ s', ({ s with file := some file' } : ServerState).reload Url w ≠ .ok s' :=
        fun s' done => half.2 ((ServerState.reload_isOk_iff
          (s := { s with file := some file' }) rfl).1 ⟨s', done⟩)
      cases reloaded : ({ s with file := some file' } : ServerState).reload Url w with
      | ok s' => exact stuck s' reloaded
      | error code =>
        obtain ⟨same, -, -⟩ := atomic code (by simp [rewritten, ServerState.applied, reloaded])
        simp only [rewritten, ServerState.applied, reloaded, hf, Option.some.injEq] at same
        exact half.1 same
  · intro usable code failed
    cases routed : request.handler with
    | none =>
      rw [ServerState.handle_error_of_no_handler routed failed]
      exact ⟨rfl, rfl, rfl⟩
    | some handler =>
      rw [ServerState.handle_of_handler routed] at failed ⊢
      rcases ServerState.rewritten_error failed with
        same | ⟨file, file', reloads, left, hf, rewrites, after, cause⟩
      · rw [same]
        exact ⟨rfl, rfl, rfl⟩
      · obtain ⟨short, fine⟩ := usable handler file file' reloads routed hf rewrites
        have unchanged : left = file := by
          rcases cause with failing | ⟨written, applies, rfl, stuck⟩
          · exact short left failing
          · exact (fine written applies).resolve_right stuck
        rw [after, unchanged]
        exact ⟨hf.symm, rfl, rfl⟩

end Atomicity

def clientsDoc : Table :=
  [("server", .table [("clients", .arrayOfTables [serverClientToTable ciClient])])]

def clientWorld : World where
  env name := if name = "CI_TOKEN" then some sampleToken else none
  joined := true

def clientServer : ServerState :=
  letI := noDates
  letI := plainHeaders
  letI := sampleSha256
  (serveCommand PlainUrl clientWorld.env (.document clientsDoc) none none).get (by decide +kernel)

/-- Deleting the last client is reported as an error, and the client is gone from
the file. -/
theorem deleteServerClient_last :
    letI := noDates
    letI := plainHeaders
    letI := sampleSha256
    serveCommand PlainUrl clientWorld.env (.document clientsDoc) none none = some clientServer ∧
      ¬ clientServer.ErrorAtomic PlainUrl clientWorld (.deleteServerClient "ci") := by
  let _ := noDates
  let _ := plainHeaders
  let _ := sampleSha256
  refine ⟨(Option.some_get _).symm, fun atomic => ?_⟩
  obtain ⟨same, -, -⟩ := atomic .configurationInvalid (by decide +kernel)
  have clients := congrArg (fun file => file.map (fun file : ConfigFile =>
    file.read.toOption.map (fun config => config.server.clients.length))) same
  exact absurd clients (by decide +kernel)

/-- The write of a harmless change fails on a full disk, and the error leaves an empty file. -/
example :
    letI := noDates
    letI := plainHeaders
    letI := sampleSha256
    let full : World := { clientWorld with write := .cut (.document []) }
    let answer := clientServer.handle PlainUrl full (.providerToggle "brave" true)
    answer.1.toOption = none ∧ answer.2.file.map (fun file =>
      file.read.toOption.map (fun config => config.server.clients.length)) = some (some 0) := by
  decide +kernel

end Amatl
