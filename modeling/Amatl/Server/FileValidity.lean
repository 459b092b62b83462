import Amatl.Config.EditAgreement
import Amatl.Server.ListenerAuth

/-! The file on disk over a sequence of admin requests. Each handler validates a
candidate built from the running configuration and then edits the file; the file
stays valid as long as the two are the same configuration. -/

namespace Amatl

open Toml

/-! The rules are kept by removing clients or enabled providers, and by turning
the answers off. -/

theorem Config.validateEnabled_eq_ok {c : Config} :
    c.validateEnabled = .ok () ↔
      ∀ name ∈ c.providers.enabled, c.providers.isDeclared name = true := by
  unfold Config.validateEnabled
  cases find : c.providers.enabled.find? (fun name => !c.providers.isDeclared name) with
  | none => simpa [List.find?_eq_none] using find
  | some name =>
    have unknown := List.find?_some find
    simp only [reduceCtorEq, false_iff, not_forall]
    exact ⟨name, List.mem_of_find?_eq_some find, by simpa using unknown⟩

theorem Config.validateExpansion_of_eq {c c' : Config} (h : c.validateExpansion = .ok ())
    (declared : ∀ name, c'.providers.isDeclared name = c.providers.isDeclared name)
    (same : c'.expansion = c.expansion) : c'.validateExpansion = .ok () := by
  have names : ∀ primary seen list,
      c'.validateExpansionNames primary seen list = c.validateExpansionNames primary seen list := by
    intro primary seen list
    induction list generalizing seen with
    | nil => rfl
    | cons entry list ih => simp only [validateExpansionNames, declared, ih]
  simpa only [validateExpansion, names, declared, same] using h

theorem validateClients_eq_ok [TimeCrate] {seen : List String} {clients : List ServerClient} :
    validateClients seen clients = .ok () ↔
      (∀ client ∈ clients, isProviderKey client.id = true ∧ blank client.id = false ∧
        client.validate = .ok () ∧ client.id ∉ seen) ∧ (clients.map (·.id)).Nodup := by
  induction clients generalizing seen with
  | nil => simp [validateClients]
  | cons client clients ih =>
    simp only [validateClients, check_bind_eq_ok, reject_eq_ok, ih, Bool.or_eq_false_iff,
      Bool.not_eq_false', List.mem_cons, not_or, forall_eq_or_imp, List.map_cons,
      List.nodup_cons, List.mem_map, not_exists, not_and]
    grind

section Rules

variable {Url : Type} [UrlCrate Url] [TimeCrate] [HttpCrate] {c : Config}

theorem Config.validClients (valid : c.validate Url = .ok ()) :
    validateClients [] c.server.clients = .ok () := by
  obtain ⟨-, -, -, -, -, -, -, -, -, -, -, -, -, bound⟩ := Config.validate_eq_ok.1 valid
  obtain ⟨bind, -, -, server⟩ := Config.validateBound_eq_ok.1 bound
  exact (validateServer_eq_ok.1 server).2.1

theorem Config.clients_named (valid : c.validate Url = .ok ()) :
    ∀ client ∈ c.server.clients, client.id ≠ "" := by
  intro client mem empty
  have key := ((validateClients_eq_ok.1 (Config.validClients valid)).1 client mem).1
  simp [isProviderKey, empty] at key

theorem Config.clients_nodup (valid : c.validate Url = .ok ()) :
    (c.server.clients.map (·.id)).Nodup :=
  (validateClients_eq_ok.1 (Config.validClients valid)).2

theorem Config.validate_of_sublist {clients : List ServerClient}
    (sub : clients.Sublist c.server.clients) (valid : c.validate Url = .ok ()) :
    (c.withClients clients).validate Url = .ok () := by
  have all := validateClients_eq_ok.1 (Config.validClients valid)
  have kept : validateClients [] clients = .ok () :=
    validateClients_eq_ok.2 ⟨fun client mem => all.1 client (sub.subset mem),
      all.2.sublist (sub.map _)⟩
  obtain ⟨h1, h2, h3, h4, h5, h6, h7, h8, h9, h10, h11, h12, h13, bound⟩ :=
    Config.validate_eq_ok.1 valid
  obtain ⟨bind, parsed, profile, server⟩ := Config.validateBound_eq_ok.1 bound
  obtain ⟨limits, -, remote, loopback, hosts, origins⟩ := validateServer_eq_ok.1 server
  exact Config.validate_eq_ok.2 ⟨h1, h2, h3, h4, h5, h6, h7, h8,
    Config.validateExpansion_of_eq h9 (fun _ => rfl) rfl, h10, h11, h12, h13,
    Config.validateBound_eq_ok.2 ⟨bind, parsed, profile,
      validateServer_eq_ok.2 ⟨limits, kept, remote, loopback, hosts, origins⟩⟩⟩

theorem Config.validate_of_enabled_subset {enabled : List String}
    (sub : enabled ⊆ c.providers.enabled) (valid : c.validate Url = .ok ()) :
    ({ c with providers := { c.providers with enabled := enabled } } : Config).validate Url
      = .ok () := by
  obtain ⟨h1, h2, declared, h4, h5, h6, h7, h8, h9, h10, h11, h12, h13, bound⟩ :=
    Config.validate_eq_ok.1 valid
  obtain ⟨bind, parsed, profile, server⟩ := Config.validateBound_eq_ok.1 bound
  refine Config.validate_eq_ok.2 ⟨h1, h2, ?_, h4, h5, h6, h7, h8,
    Config.validateExpansion_of_eq h9 (fun _ => rfl) rfl, h10, h11, h12, h13,
    Config.validateBound_eq_ok.2 ⟨bind, parsed, ?_, server⟩⟩
  · exact Config.validateEnabled_eq_ok.2 fun name mem =>
      Config.validateEnabled_eq_ok.1 declared name (sub mem)
  · simp only [Config.validateProfile, check_bind_eq_ok, reject_eq_ok] at profile ⊢
    obtain ⟨p1, p2, p3, p4, denied, p6⟩ := profile
    refine ⟨p1, p2, p3, p4, ?_, p6⟩
    cases enabled with
    | nil => simp
    | cons name names =>
      have some_name : c.providers.enabled ≠ [] := List.ne_nil_of_mem (sub List.mem_cons_self)
      cases hc : c.providers.enabled with
      | nil => exact absurd hc some_name
      | cons first rest => simpa [hc] using denied

theorem Config.validate_of_answer_off (valid : c.validate Url = .ok ()) :
    ({ c with answer := { c.answer with enabled := false } } : Config).validate Url = .ok () := by
  obtain ⟨h1, h2, h3, h4, answer, h6, h7, h8, h9, h10, h11, h12, h13, bound⟩ :=
    Config.validate_eq_ok.1 valid
  refine Config.validate_eq_ok.2 ⟨h1, h2, h3, h4, ?_, h6, h7, h8,
    Config.validateExpansion_of_eq h9 (fun _ => rfl) rfl, h10, h11, h12, h13, bound⟩
  simp only [Config.validateAnswer, check_bind_eq_ok] at answer ⊢
  exact ⟨answer.1, rfl⟩

end Rules

theorem replaceOrPush_of_absent {α : Type} {p : α → Bool} {item : α} {items : List α}
    (absent : ∀ a ∈ items, p a = false) : replaceOrPush p item items = items ++ [item] := by
  induction items with
  | nil => rfl
  | cons a items ih =>
    simp [replaceOrPush, absent a List.mem_cons_self,
      ih fun b mem => absent b (List.mem_cons_of_mem _ mem)]

theorem replaceOrPush_of_nodup {clients : List ServerClient} {client : ServerClient}
    (nodup : (clients.map (·.id)).Nodup) (present : client.id ∈ clients.map (·.id)) :
    replaceOrPush (fun k => k.id == client.id) client clients
      = clients.map (fun k => if k.id == client.id then client else k) := by
  induction clients with
  | nil => simp at present
  | cons k clients ih =>
    obtain ⟨fresh, nodup⟩ := List.nodup_cons.1 nodup
    by_cases same : k.id = client.id
    · have others : ∀ other ∈ clients,
          (if other.id == client.id then client else other) = other := by
        intro other mem
        have ne : other.id ≠ client.id := by
          intro eq
          exact fresh (List.mem_map.2 ⟨other, mem, eq.trans same.symm⟩)
        simp [ne]
      rw [List.map_cons, List.map_congr_left others]
      simp [replaceOrPush, same]
    · have later : client.id ∈ clients.map (·.id) := by
        simpa [Ne.symm same] using present
      simp [replaceOrPush, same, ih nodup later]

section Files

variable (Url : Type) [UrlCrate Url] [TimeCrate] [HttpCrate]

/-- The file can be read, and what it says is valid. -/
def ConfigFile.Loads (file : ConfigFile) : Prop :=
  ∃ config, Config.loadOptional Url file = .ok config

variable {Url}

theorem ConfigFile.loads_of_read {doc : Table} {config : Config}
    (read : Config.fromToml doc = some config) (valid : config.validate Url = .ok ()) :
    (ConfigFile.document doc).Loads Url :=
  ⟨config, (Config.loadOptional_eq_ok Url).2 ⟨ConfigFile.read_document.2 read, valid⟩⟩

theorem Handler.rewrite_eq_ok {handler : Handler} {running : Config} {file file' : ConfigFile}
    {reloads : Bool} (h : handler.rewrite Url running file = .ok (file', reloads)) :
    ∃ change doc doc', handler running = .ok change ∧
      (∀ candidate ∈ change.candidate, candidate.validate Url = .ok ()) ∧
      file = .document doc ∧ change.write doc = .ok doc' ∧ file' = .document doc' := by
  unfold Handler.rewrite at h
  split at h
  · cases h
  · rename_i change made
    split at h
    · rename_i passed
      split at h
      · cases h
      · rename_i new edited
        cases h
        obtain ⟨doc, doc', rfl, written, rfl⟩ := ConfigFile.edit_eq_ok.1 edited
        refine ⟨change, doc, doc', made, ?_, rfl, written, rfl⟩
        intro candidate mem
        rw [Option.mem_def] at mem
        rw [mem, Option.all_some] at passed
        cases valid : candidate.validate Url with
        | ok done => rfl
        | error error => simp [valid, Except.isOk, Except.toBool] at passed
    · cases h

/-- The request writes what its candidate says of the running configuration.
Deleting and turning off only remove from the file. -/
def AdminRequest.trustsRunning : AdminRequest → Bool
  | .malformed => false
  | .reload => false
  | .deleteServerClient _ => false
  | .answerToggle enabled => enabled
  | .providerToggle _ enabled => enabled
  | _ => true

/-- The request writes a key that the loader takes for another field: a record
named like the list of enabled names, or a field beside its legacy name. -/
def AdminRequest.misfiled (request : AdminRequest) (file : ConfigFile) : Bool :=
  match request, file with
  | .updateProviderRecord name _, _ => name == "enabled"
  | .updateInference patch, .document doc => (SectionPatch.inference patch).aliasClash doc
  | _, _ => false

section Handlers

variable {doc doc' : Table} {c : Config} {change : ConfigChange}

theorem loads_of_candidate {candidate : Config} (made : change.candidate = some candidate)
    (valid : ∀ candidate ∈ change.candidate, candidate.validate Url = .ok ())
    (read : Config.fromToml doc' = some candidate) : (ConfigFile.document doc').Loads Url :=
  ConfigFile.loads_of_read read (valid candidate made)

theorem patchSection_loads {patch : SectionPatch} (loads : Config.fromToml doc = some c)
    (made : patchSection patch c = .ok change)
    (valid : ∀ candidate ∈ change.candidate, candidate.validate Url = .ok ())
    (plain : patch.aliasClash doc = false) (written : change.write doc = .ok doc') :
    (ConfigFile.document doc').Loads Url := by
  cases made
  exact loads_of_candidate rfl valid ((patch.write_agrees_iff loads written).2 plain)

theorem replaceClient_loads {id : String} {update : ServerClient → ServerClient}
    (loads : Config.fromToml doc = some c) (ok : c.validate Url = .ok ())
    (made : replaceClient id update c = .ok change)
    (keeps : ∀ client, (update client).id = client.id)
    (valid : ∀ candidate ∈ change.candidate, candidate.validate Url = .ok ())
    (written : change.write doc = .ok doc') : (ConfigFile.document doc').Loads Url := by
  unfold replaceClient at made
  split at made
  · cases made
  · rename_i existing found
    cases made
    have same : existing.id = id := by simpa using List.find?_some found
    have present : (update existing).id ∈ c.server.clients.map (·.id) :=
      List.mem_map.2 ⟨existing, List.mem_of_find?_eq_some found, (keeps existing).symm⟩
    have read := upsertServerClient_placed loads (Config.clients_named ok) written
    rw [replaceOrPush_of_nodup (Config.clients_nodup ok) present, keeps, same] at read
    exact loads_of_candidate rfl valid read

end Handlers

variable [Sha256]

/-- The step lemma: a file that loads is rewritten to one that loads. -/
theorem rewrite_loads {request : AdminRequest} {handler : Handler} {running : Config}
    {file file' : ConfigFile} {reloads : Bool} (routed : request.handler = some handler)
    (loads : file.Loads Url)
    (current : request.trustsRunning = true → Config.loadOptional Url file = .ok running)
    (filed : request.misfiled file = false)
    (rewrites : handler.rewrite Url running file = .ok (file', reloads)) : file'.Loads Url := by
  obtain ⟨change, doc, doc', made, valid, rfl, written, rfl⟩ := Handler.rewrite_eq_ok rewrites
  obtain ⟨c, hc⟩ := loads
  have same : request.trustsRunning = true → running = c :=
    fun trusts => Except.ok.inj ((current trusts).symm.trans hc)
  obtain ⟨read, ok⟩ := (Config.loadOptional_eq_ok Url).1 hc
  rw [ConfigFile.read_document] at read
  cases request with
  | malformed => cases routed
  | reload => cases routed
  | answerToggle enabled =>
    cases routed
    cases made
    have after := setAnswerEnabled_reads read written
    cases enabled with
    | false => exact ConfigFile.loads_of_read after (Config.validate_of_answer_off ok)
    | true => exact loads_of_candidate rfl valid (same rfl ▸ after)
  | providerToggle name enabled =>
    cases routed
    cases made
    have after := setProviderEnabled_reads read written
    cases enabled with
    | false =>
      exact ConfigFile.loads_of_read after
        (Config.validate_of_enabled_subset List.erase_subset ok)
    | true =>
      refine loads_of_candidate rfl valid ?_
      have listed : toggled name true c.providers.enabled
          = withProvider name true running.providers.enabled := by
        by_cases mem : name ∈ c.providers.enabled <;> simp [toggled, withProvider, same rfl, mem]
      rw [after, listed, same rfl]
  | updateProviderRecord name params =>
    cases routed
    cases made
    have reserved : name ≠ "enabled" := by simpa [AdminRequest.misfiled] using filed
    have after := upsertProviderRecord_reads reserved read written
    exact loads_of_candidate rfl valid (same rfl ▸ after)
  | createServerClient params random =>
    cases routed
    simp only [createServerClient] at made
    split at made
    · cases made
    · rename_i fresh
      cases made
      have after := upsertServerClient_placed read (Config.clients_named ok) written
      rw [replaceOrPush_of_absent (by simpa [same rfl] using fresh)] at after
      exact loads_of_candidate rfl valid (same rfl ▸ after)
  | updateServerClient id params =>
    cases routed
    rw [same rfl] at made
    exact replaceClient_loads read ok made (fun _ => rfl) valid written
  | rotateServerClientToken id random =>
    cases routed
    rw [same rfl] at made
    exact replaceClient_loads read ok made (fun _ => rfl) valid written
  | deleteServerClient id =>
    cases routed
    simp only [deleteServerClient] at made
    split at made
    · cases made
      cases written
      obtain ⟨clients, sub, after⟩ :=
        removeServerClient_sublist id read (Config.clients_named ok)
      exact ConfigFile.loads_of_read after (Config.validate_of_sublist sub ok)
    · cases made
  | updatePolicy name body =>
    cases routed
    simp only [updatePolicy] at made
    split at made
    · cases made
    · rename_i policy decoded
      cases made
      have after := ResultPolicy.write_reads read written
      exact loads_of_candidate rfl valid (same rfl ▸ after)
  | updateServerPendingConfig patch =>
    cases routed
    cases made
    have after := ((SectionPatch.server patch).write_agrees_iff read written).2 rfl
    exact loads_of_candidate rfl valid (same rfl ▸ after)
  | updateInference patch =>
    cases routed
    rw [same rfl] at made
    exact patchSection_loads read made valid filed written
  | _ =>
    cases routed
    rw [same rfl] at made
    exact patchSection_loads read made valid rfl written

namespace ServerState

variable {s : ServerState} {w : World}

/-- The file after a request: as it was, as the handler rewrote it, or cut short by a write that
failed. -/
theorem handle_file (Url : Type) [UrlCrate Url] (s : ServerState) (w : World)
    (request : AdminRequest) :
    (s.handle Url w request).2.file = s.file ∨ (∃ left, w.write = .cut left) ∨
    ∃ handler file file' reloads, request.handler = some handler ∧ s.file = some file ∧
      handler.rewrite Url s.running file = .ok (file', reloads) ∧
      (s.handle Url w request).2.file = some file' := by
  cases routed : request.handler with
  | none =>
    cases request with
    | malformed => exact .inl rfl
    | reload => exact .inl applied_frame.2
    | _ => cases routed
  | some handler =>
    rw [handle_of_handler routed, rewritten]
    cases hf : s.file with
    | none => exact .inl hf
    | some file =>
      cases result : handler.rewrite Url s.running file with
      | error code =>
        left
        simp only [result]
        exact hf
      | ok done =>
        obtain ⟨file', reloads⟩ := done
        cases written : w.write with
        | refused => exact .inl (by simp [result, hf])
        | cut left => exact .inr (.inl ⟨left, rfl⟩)
        | whole =>
          refine .inr (.inr ⟨handler, file, file', reloads, rfl, rfl, result, ?_⟩)
          cases reloads with
          | false => simp [result]
          | true =>
            simp only [result]
            exact applied_frame.2

def FileLoads (Url : Type) [UrlCrate Url] (s : ServerState) : Prop :=
  ∃ file, s.file = some file ∧ file.Loads Url

/-- What a request needs of the state it is handled in: the running configuration
is the one in the file where the request builds on it, no key is misfiled, and no write is cut
short. -/
def Fit (Url : Type) [UrlCrate Url] (s : ServerState) (w : World) (request : AdminRequest) : Prop :=
  (request.trustsRunning = true → s.source Url = .ok s.running) ∧
    (∀ file ∈ s.file, request.misfiled file = false) ∧ ∀ left, w.write ≠ .cut left

theorem handle_fileLoads {request : AdminRequest} (loads : s.FileLoads Url)
    (fit : s.Fit Url w request) : (s.handle Url w request).2.FileLoads Url := by
  rcases s.handle_file Url w request with
    same | ⟨left, short⟩ | ⟨handler, file, file', reloads, routed, hf, rewrites, after⟩
  · obtain ⟨file, hf, loads⟩ := loads
    exact ⟨file, same.trans hf, loads⟩
  · exact absurd short (fit.2.2 left)
  · obtain ⟨old, hold, loads⟩ := loads
    cases hf.symm.trans hold
    refine ⟨file', after, rewrite_loads routed loads (fun trusts => ?_) (fit.2.1 file hf) rewrites⟩
    simpa [source, hf] using fit.1 trusts

def handleAll (Url : Type) [UrlCrate Url] (s : ServerState) (requests : List (World × AdminRequest)) :
    ServerState :=
  requests.foldl (fun s request => (s.handle Url request.1 request.2).2) s

/-- Every request fits the state it is handled in. -/
def FitRun (Url : Type) [UrlCrate Url] (s : ServerState) : List (World × AdminRequest) → Prop
  | [] => True
  | (w, request) :: rest => s.Fit Url w request ∧ (s.handle Url w request).2.FitRun Url rest

end ServerState

/-- From every file that loads, after each of any number of requests the file
still loads, as long as every request that builds on the running configuration
finds it in the file, none misfiles a key and no write is cut short. -/
theorem fileLoads_handleAll {s : ServerState} (loads : s.FileLoads Url)
    {requests : List (World × AdminRequest)} (fit : s.FitRun Url requests) :
    ∀ before, before <+: requests → (s.handleAll Url before).FileLoads Url := by
  induction requests generalizing s with
  | nil =>
    intro before prefixed
    rw [List.prefix_nil.1 prefixed]
    exact loads
  | cons request rest ih =>
    intro before prefixed
    cases before with
    | nil => exact loads
    | cons first before =>
      obtain ⟨rfl, tail⟩ := List.cons_prefix_cons.1 prefixed
      exact ih (ServerState.handle_fileLoads loads fit.1) fit.2 before tail

theorem serveCommand_fileLoads {env : Environment} {file : ConfigFile} {bind : Option String}
    {port : Option UInt16} {s : ServerState}
    (starts : serveCommand Url env file bind port = some s) : s.FileLoads Url :=
  ⟨file, (serveCommand_authenticated starts).2, (serveCommand_eq_some Url starts).1⟩

end Files

def loopbackServer : ServerState :=
  letI := noDates
  letI := plainHeaders
  letI := sampleSha256
  (serveCommand PlainUrl tokenWorld.env (.document tlsDoc) none none).get (by decide +kernel)

theorem loopbackServer_starts :
    letI := noDates
    letI := plainHeaders
    letI := sampleSha256
    serveCommand PlainUrl tokenWorld.env (.document tlsDoc) none none = some loopbackServer :=
  (Option.some_get _).symm

def fittingRequests : List (World × AdminRequest) :=
  [(tokenWorld, .providerToggle "brave" true),
   (tokenWorld, .updateServerPendingConfig { bind := some "0.0.0.0" }),
   (tokenWorld, .reload)]

theorem loopbackServer_fileLoads :
    letI := noDates
    letI := plainHeaders
    letI := sampleSha256
    (loopbackServer.handleAll PlainUrl fittingRequests).FileLoads PlainUrl := by
  let _ := noDates
  let _ := plainHeaders
  let _ := sampleSha256
  have fit : loopbackServer.FitRun PlainUrl fittingRequests := by
    have whole : ∀ left, tokenWorld.write ≠ .cut left := fun left short => by cases short
    refine ⟨⟨fun _ => ?_, fun _ _ => rfl, whole⟩, ⟨fun _ => ?_, fun _ _ => rfl, whole⟩,
      ⟨fun trusts => absurd trusts (by decide), fun _ _ => rfl, whole⟩, trivial⟩
    · decide +kernel
    · decide +kernel
  exact fileLoads_handleAll (serveCommand_fileLoads loopbackServer_starts) fit _
    (List.prefix_refl _)

/-- Each change is valid on the running configuration, and the file has both. -/
def driftingRequests : List (World × AdminRequest) :=
  [(tokenWorld, .updateServerPendingConfig { bind := some "0.0.0.0" }),
   (tokenWorld, .updateServerPendingConfig { noAuth := some true })]

theorem loopbackServer_drifts :
    letI := noDates
    letI := plainHeaders
    letI := sampleSha256
    ¬ ∀ (s : ServerState) (requests : List (World × AdminRequest)), s.FileLoads PlainUrl →
      s.source PlainUrl = .ok s.running → (s.handleAll PlainUrl requests).FileLoads PlainUrl := by
  let _ := noDates
  let _ := plainHeaders
  let _ := sampleSha256
  intro stays
  obtain ⟨file, hf, config, loads⟩ := stays loopbackServer driftingRequests
    (serveCommand_fileLoads loopbackServer_starts) (by decide +kernel)
  have refused : (loopbackServer.handleAll PlainUrl driftingRequests).file.map
      (fun file => (Config.loadOptional PlainUrl file).isOk) = some false := by decide +kernel
  rw [hf, Option.map_some, loads] at refused
  cases refused

end Amatl
