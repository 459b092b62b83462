import Amatl.Config.Edits
import Amatl.Lib.Traverse

/-! What the list writers leave in the file: the enabled providers and the named
clients, read back. -/

namespace Amatl

open Toml Traverse

theorem text_eq_some {node : Node} {value : String} : text node = some value ↔
    node = .string value := by
  cases node <;> simp [text]

theorem mapM_text {items : List Node} {values : List String} :
    items.mapM text = some values ↔ items = values.map .string := by
  rw [mapM_eq_some]
  constructor
  · intro h
    induction h with
    | nil => rfl
    | cons head _ ih => rw [text_eq_some.1 head, ih, List.map_cons]
  · rintro rfl
    induction values with
    | nil => exact .nil
    | cons value values ih => exact .cons rfl ih

section Providers

variable {doc doc' : Table} {c : Config} {name : String}

def toggled (name : String) (present : Bool) (names : List String) : List String :=
  if present then if name ∈ names then names else names ++ [name]
  else names.erase name

theorem withMembership_strings (present : Bool) (names : List String) :
    withMembership name present (names.map .string) = (toggled name present names).map .string := by
  have isItem : (fun node => text node == some name) ∘ Node.string = (· == name) := by
    funext value
    simp [text]
  have any : (names.map Node.string).any (fun node => text node == some name)
      = decide (name ∈ names) := by
    rw [List.any_map, isItem, List.any_beq', List.contains_eq_mem]
  have erase : (names.map Node.string).eraseP (fun node => text node == some name)
      = (names.erase name).map .string := by
    rw [List.eraseP_map, isItem, List.erase_eq_eraseP']
  cases present <;> by_cases h : name ∈ names <;>
    simp [withMembership, toggled, any, erase, h, List.erase_of_not_mem]

theorem read_providers {t : Table} (sec : SectionAt doc "providers" t)
    (loads : Config.fromToml doc = some c) : ProviderConfig.ofEntries t = some c.providers := by
  have read := inTable_field.1 (Config.lawful.readFields_eq_some.1 loads
    (field "providers" ProviderConfig.read (·.providers) (fun v c => { c with providers := v }))
    (List.mem_of_getElem? (i := 4) rfl))
  rcases sec with ⟨hg, rfl⟩ | hg
  · rw [hg] at read
    rw [ProviderConfig.ofEntries_nil]
    exact read
  · rw [hg] at read
    exact read

theorem insert_providers {t : Table} {providers : ProviderConfig}
    (loads : Config.fromToml doc = some c) (read : ProviderConfig.ofEntries t = some providers) :
    Config.fromToml (insert "providers" (.table t) doc) = some { c with providers := providers } :=
  (Config.lawful.readFields_insert
    (g := field "providers" ProviderConfig.read (·.providers) (fun v c => { c with providers := v }))
    (List.mem_of_getElem? (i := 4) rfl) rfl loads).2 read

theorem setProviderEnabled_reads {present : Bool} (loads : Config.fromToml doc = some c)
    (written : setProviderEnabled name present doc = .ok doc') :
    Config.fromToml doc' = some { c with providers :=
      { c.providers with enabled := toggled name present c.providers.enabled } } := by
  unfold setProviderEnabled at written
  split at written
  · obtain ⟨t, t', sec, ht, rfl⟩ := tableAt_cons written
    obtain ⟨he, records, hr, hd⟩ := ProviderConfig.ofEntries_eq_some.1 (read_providers sec loads)
    have place : ∀ items : List Node, items = c.providers.enabled.map .string →
        t' = insert "enabled" (.array (withMembership name present items)) t →
        ProviderConfig.ofEntries t'
          = some { c.providers with enabled := toggled name present c.providers.enabled } := by
      rintro items rfl rfl
      refine ProviderConfig.ofEntries_eq_some.2 ⟨?_, records, ?_, hd⟩
      · rw [get?_insert_self, withMembership_strings]
        exact mapM_text.2 rfl
      · rw [providerRecords, remove_insert_self]
        exact hr
    apply insert_providers loads
    simp only [tableAt] at ht
    split at ht
    · rename_i absent
      rw [absent] at he
      cases ht
      have empty : c.providers.enabled = [] := (Option.some.inj he).symm
      exact place [] (by rw [empty]; rfl) rfl
    · rename_i items present
      rw [present] at he
      cases ht
      exact place items (mapM_text.1 he) rfl
    · cases ht
  · cases written

end Providers

section Clients

variable {doc doc' : Table} {c : Config} {id : String} {client : ServerClient}
variable {t server : Table} {tables : List Table} {clients : List ServerClient}

def readClient (t : Table) : Option ServerClient :=
  readFields (.map t) ServerClient.fields 0 .default

def ReadClients (tables : List Table) (clients : List ServerClient) : Prop :=
  List.Forall₂ (fun t client => readClient t = some client) tables clients

theorem Scope.read_asStr (scope : Scope) :
    variant Node.isUnit Scope.names (.string scope.asStr) = some scope := by
  cases scope <;> rfl

theorem list_scopes (scopes : List Scope) :
    list (variant Node.isUnit Scope.names) (strings (scopes.map Scope.asStr)) = some scopes := by
  simp only [strings, list, mapM_eq_some]
  induction scopes with
  | nil => exact .nil
  | cons scope scopes ih => exact .cons (Scope.read_asStr scope) ih

theorem readClient_toTable (client : ServerClient) :
    readClient (serverClientToTable client) = some client := by
  obtain ⟨id, tokenEnv, tokenSha256, expiresAt, scopes, tools⟩ := client
  rw [readClient, ServerClient.lawful.readFields_eq_some]
  simp only [ServerClient.fields, List.forall_mem_cons]
  cases tokenEnv <;> cases tokenSha256 <;> cases expiresAt <;>
    exact ⟨rfl, rfl, rfl, rfl, inTable_field.2 (list_scopes scopes),
      inTable_field.2 (list_text_strings tools), List.forall_mem_nil _⟩

theorem readClient_id (h : readClient t = some client) :
    declaredId t = some client.id ∨ get? "id" t = none ∧ client.id = "" := by
  have read := inTable_field.1 (ServerClient.lawful.readFields_eq_some.1 h
    (field "id" text (·.id) (fun v c => { c with id := v })) (List.mem_of_getElem? (i := 0) rfl))
  cases hg : get? "id" t with
  | none =>
    rw [hg] at read
    exact .inr ⟨rfl, (Option.some.inj read).symm⟩
  | some node =>
    rw [hg] at read
    exact .inl (by rw [declaredId, hg]; exact read)

theorem readClients_of_section (sec : SectionAt doc "server" server)
    (loads : Config.fromToml doc = some c) :
    (get? "clients" server).elim (some []) (list (record ServerClient.fields .default))
      = some c.server.clients := by
  have read := Config.lawful.readFields_eq_some.1 loads
    (field "server" (record ServerConfig.fields .default) (·.server)
      (fun v c => { c with server := v })) (List.mem_of_getElem? (i := 18) rfl)
  have inner := ServerConfig.lawful.readFields_eq_some.1
    (sec.readFields ServerConfig.lawful rfl read)
  exact inTable_field.1 (inner
    (field "clients" (list (record ServerClient.fields .default)) (·.clients)
      (fun v c => { c with clients := v })) (List.mem_of_getElem? (i := 4) rfl))

theorem insert_clients (sec : SectionAt doc "server" server)
    (loads : Config.fromToml doc = some c) (read : ReadClients tables clients) :
    Config.fromToml
        (insert "server" (.table (insert "clients" (.arrayOfTables tables) server)) doc)
      = some { c with server := { c.server with clients := clients } } := by
  have outer := Config.lawful.readFields_eq_some.1 loads
    (field "server" (record ServerConfig.fields .default) (·.server)
      (fun v c => { c with server := v })) (List.mem_of_getElem? (i := 18) rfl)
  have inner := sec.readFields ServerConfig.lawful rfl outer
  have placed : readFields (.map (insert "clients" (.arrayOfTables tables) server))
      ServerConfig.fields 0 .default = some { c.server with clients := clients } :=
    (ServerConfig.lawful.readFields_insert (g := field "clients"
      (list (record ServerClient.fields .default)) (·.clients) (fun v c => { c with clients := v }))
      (List.mem_of_getElem? (i := 4) rfl) rfl inner).2 (mapM_eq_some.2 read)
  exact (Config.lawful.readFields_insert (g := field "server"
    (record ServerConfig.fields .default) (·.server) (fun v c => { c with server := v }))
    (List.mem_of_getElem? (i := 18) rfl) rfl loads).2 placed

def clientTables (doc : Table) : List Table :=
  match get? "server" doc with
  | some (.table server) =>
    match get? "clients" server with
    | some (.arrayOfTables tables) => tables
    | _ => []
  | _ => []

def declaredCount (doc : Table) (id : String) : Nat :=
  (clientTables doc).countP (fun t => declaredId t == some id)

def clientCount (clients : List ServerClient) (id : String) : Nat :=
  clients.countP (fun client => client.id == id)

theorem declared_id (h : readClient t = some client) (hd : declaredId t = some id) :
    client.id = id := by
  rcases readClient_id h with same | ⟨none, -⟩
  · exact Option.some.inj (same.symm.trans hd)
  · simp [declaredId, none] at hd

theorem declared_le_clientCount (id : String) (read : ReadClients tables clients) :
    tables.countP (fun t => declaredId t == some id) ≤ clientCount clients id := by
  induction read with
  | nil => exact Nat.le_refl 0
  | @cons t client tables clients head _ ih =>
    by_cases hd : declaredId t = some id
    · simpa [clientCount, hd, declared_id head hd] using ih
    · simp only [List.countP_cons, clientCount, hd, beq_iff_eq, if_false, Nat.add_zero]
      exact Nat.le_add_right_of_le ih

theorem readClients_filter (id : String) (read : ReadClients tables clients) :
    ∃ rest, ReadClients (tables.filter (fun t => declaredId t != some id)) rest ∧
      (clients.filter (fun client => client.id != id)).Sublist rest ∧
      rest.length + tables.countP (fun t => declaredId t == some id) = clients.length := by
  induction read with
  | nil => exact ⟨[], .nil, .slnil, rfl⟩
  | @cons t client tables clients head _ ih =>
    obtain ⟨rest, hr, sub, len⟩ := ih
    by_cases hd : declaredId t = some id
    · refine ⟨rest, by simpa [hd] using hr, ?_, ?_⟩
      · simpa [declared_id head hd] using sub
      · simp [hd]
        omega
    · refine ⟨client :: rest, by simpa [hd] using .cons head hr, ?_, ?_⟩
      · by_cases same : client.id = id
        · simpa [same] using sub.cons client
        · simpa [same] using sub.cons_cons client
      · simp [hd]
        omega

theorem readClients_replaceOrPush (client : ServerClient) (read : ReadClients tables clients) :
    ∃ rest, ReadClients (replaceOrPush (fun t => declaredId t == some client.id)
        (serverClientToTable client) tables) rest ∧ client ∈ rest ∧
      rest.filter (fun k => k.id != client.id) = clients.filter (fun k => k.id != client.id) ∧
      clientCount rest client.id = clientCount clients client.id +
        if tables.countP (fun t => declaredId t == some client.id) = 0 then 1 else 0 := by
  induction read with
  | nil =>
    exact ⟨[client], .cons (readClient_toTable client) .nil, by simp, by simp,
      by simp [clientCount]⟩
  | @cons t k tables clients head tail ih =>
    by_cases hd : declaredId t = some client.id
    · have same := declared_id head hd
      refine ⟨client :: clients, ?_, by simp, by simp [same], ?_⟩
      · simpa [replaceOrPush, hd] using .cons (readClient_toTable client) tail
      · simp [clientCount, hd, same]
    · obtain ⟨rest, hr, mem, other, count⟩ := ih
      refine ⟨k :: rest, ?_, List.mem_cons_of_mem _ mem, ?_, ?_⟩
      · simpa [replaceOrPush, hd] using .cons head hr
      · by_cases same : k.id = client.id <;> simp [same, other]
      · simp only [clientCount, List.countP_cons, hd, beq_iff_eq, if_false, Nat.add_zero] at count ⊢
        omega

def Config.withoutClient (c : Config) (id : String) : Config :=
  { c with server :=
    { c.server with clients := c.server.clients.filter (fun client => client.id != id) } }

/-- `c'` is `c` with exactly this client under its id. -/
structure Config.WithClient (client : ServerClient) (c c' : Config) : Prop where
  only : c' = { c with server := { c.server with clients := c'.server.clients } }
  here : c'.server.clients.filter (fun k => k.id == client.id) = [client]
  others : c'.server.clients.filter (fun k => k.id != client.id)
    = c.server.clients.filter (fun k => k.id != client.id)

/-- A document either has its clients in `[[server.clients]]`, or has none there
and the writer leaves it alone. -/
theorem clientTables_cases (loads : Config.fromToml doc = some c) (id : String) :
    (∃ server, SectionAt doc "server" server ∧ ReadClients (clientTables doc) c.server.clients ∧
      removeServerClient id doc = insert "server" (.table (insert "clients" (.arrayOfTables
        ((clientTables doc).filter (fun t => declaredId t != some id))) server)) doc) ∨
    clientTables doc = [] ∧ removeServerClient id doc = doc := by
  cases hs : get? "server" doc with
  | none => exact .inr (by simp [clientTables, removeServerClient, hs])
  | some node =>
    cases node with
    | table server =>
      have sec : SectionAt doc "server" server := .inr hs
      cases hc : get? "clients" server with
      | none => exact .inr (by simp [clientTables, removeServerClient, hs, hc])
      | some node =>
        cases node with
        | arrayOfTables tables =>
          have read := readClients_of_section sec loads
          rw [hc] at read
          refine .inl ⟨server, sec, ?_, by simp [clientTables, removeServerClient, hs, hc]⟩
          have tables_eq : clientTables doc = tables := by simp [clientTables, hs, hc]
          rw [tables_eq]
          exact mapM_eq_some.1 read
        | _ => exact .inr (by simp [clientTables, removeServerClient, hs, hc])
    | _ => exact .inr (by simp [clientTables, removeServerClient, hs])

theorem filter_length_add_clientCount (clients : List ServerClient) (id : String) :
    (clients.filter (fun client => client.id != id)).length + clientCount clients id
      = clients.length := by
  induction clients with
  | nil => rfl
  | cons client clients ih =>
    by_cases h : client.id = id <;> simp [clientCount, h] at ih ⊢ <;> omega

theorem removeServerClient_iff (loads : Config.fromToml doc = some c) (id : String) :
    Config.fromToml (removeServerClient id doc) = some (c.withoutClient id) ↔
      declaredCount doc id = clientCount c.server.clients id := by
  have total := filter_length_add_clientCount c.server.clients id
  rcases clientTables_cases loads id with ⟨server, sec, read, removed⟩ | ⟨none, removed⟩
  · obtain ⟨rest, hr, sub, len⟩ := readClients_filter id read
    have result := insert_clients sec loads hr
    rw [removed, result]
    simp only [Config.withoutClient, Option.some.injEq, Config.mk.injEq, true_and,
      ServerConfig.mk.injEq, and_true]
    constructor
    · intro same
      rw [same] at len
      simp only [declaredCount]
      omega
    · intro counts
      simp only [declaredCount] at counts
      exact (sub.eq_of_length (by omega)).symm
  · rw [removed, loads]
    simp only [Config.withoutClient, Option.some.injEq, declaredCount, none, List.countP_nil]
    constructor
    · intro same
      have same : c.server.clients
          = c.server.clients.filter (fun client => client.id != id) :=
        congrArg (fun c => c.server.clients) same
      rw [← same] at total
      omega
    · intro none
      have same : c.server.clients.filter (fun client => client.id != id) = c.server.clients :=
        List.filter_sublist.eq_of_length (by omega)
      rw [same]

theorem upsertServerClient_reads (loads : Config.fromToml doc = some c)
    (written : upsertServerClient client doc = .ok doc') :
    ∃ server, SectionAt doc "server" server ∧ ReadClients (clientTables doc) c.server.clients ∧
      doc' = insert "server" (.table (insert "clients" (.arrayOfTables
        (replaceOrPush (fun t => declaredId t == some client.id) (serverClientToTable client)
          (clientTables doc))) server)) doc := by
  obtain ⟨server, server', sec, hw, rfl⟩ := tableAt_cons written
  have read := readClients_of_section sec loads
  have tables_of : ∀ node, get? "clients" server = some node →
      get? "server" doc = some (.table server) := by
    intro node hc
    rcases sec with ⟨-, rfl⟩ | hs
    · simp [get?] at hc
    · exact hs
  refine ⟨server, sec, ?_⟩
  simp only [tableAt] at hw
  split at hw
  · rename_i hc
    cases hw
    have none : clientTables doc = [] := by
      rcases sec with ⟨hs, -⟩ | hs <;> simp [clientTables, hs, hc]
    rw [hc] at read
    rw [none, ← Option.some.inj read]
    exact ⟨.nil, rfl⟩
  · rename_i tables hc
    cases hw
    have tables_eq : clientTables doc = tables := by
      simp [clientTables, tables_of _ hc, hc]
    rw [hc] at read
    rw [tables_eq]
    exact ⟨mapM_eq_some.1 read, rfl⟩
  · cases hw

theorem upsertServerClient_iff (loads : Config.fromToml doc = some c)
    (written : upsertServerClient client doc = .ok doc') :
    (∃ c', Config.fromToml doc' = some c' ∧ Config.WithClient client c c') ↔
      declaredCount doc client.id = clientCount c.server.clients client.id ∧
      declaredCount doc client.id ≤ 1 := by
  obtain ⟨server, sec, read, rfl⟩ := upsertServerClient_reads loads written
  obtain ⟨rest, hr, mem, others, count⟩ := readClients_replaceOrPush client read
  have result := insert_clients sec loads hr
  have le := declared_le_clientCount client.id read
  change declaredCount doc client.id ≤ _ at le
  have single : rest.filter (fun k => k.id == client.id) = [client] ↔
      clientCount rest client.id = 1 := by
    have hf : client ∈ rest.filter (fun k => k.id == client.id) := by simp [mem]
    rw [clientCount, List.countP_eq_length_filter]
    constructor
    · intro h
      rw [h]
      rfl
    · intro one
      obtain ⟨only, ho⟩ := List.length_eq_one_iff.1 one
      rw [ho] at hf ⊢
      rw [List.mem_singleton.1 hf]
  rw [show (clientTables doc).countP (fun t => declaredId t == some client.id)
    = declaredCount doc client.id from rfl] at count
  constructor
  · rintro ⟨c', hc, spec⟩
    rw [result] at hc
    cases hc
    have one := single.1 spec.here
    split at count <;> omega
  · rintro ⟨same, small⟩
    refine ⟨_, result, rfl, single.2 ?_, others⟩
    split at count <;> omega

end Clients

/-- `c'` is `c` with the name enabled exactly when `present`. -/
structure Config.WithProvider (name : String) (present : Bool) (c c' : Config) : Prop where
  only : c' = { c with providers := { c.providers with enabled := c'.providers.enabled } }
  here : name ∈ c'.providers.enabled ↔ present = true
  others : c'.providers.enabled.filter (fun other => other != name)
    = c.providers.enabled.filter (fun other => other != name)

theorem toggled_others (name : String) (present : Bool) (names : List String) :
    (toggled name present names).filter (fun other => other != name)
      = names.filter (fun other => other != name) := by
  cases present with
  | true => by_cases h : name ∈ names <;> simp [toggled, h]
  | false =>
    induction names with
    | nil => rfl
    | cons a names ih =>
      by_cases h : a = name
      · simp [toggled, h]
      · simpa [toggled, h] using ih

theorem mem_toggled (name : String) (present : Bool) (names : List String) :
    (name ∈ toggled name present names ↔ present = true) ↔
      present = true ∨ names.count name ≤ 1 := by
  cases present with
  | true => by_cases h : name ∈ names <;> simp [toggled, h]
  | false =>
    have count : (names.erase name).count name = names.count name - 1 := List.count_erase_self
    rw [toggled, ← List.count_pos_iff]
    simp only [Bool.false_eq_true, if_false, iff_false, false_or]
    omega

theorem setProviderEnabled_iff {doc doc' : Table} {c : Config} {name : String} {present : Bool}
    (loads : Config.fromToml doc = some c)
    (written : setProviderEnabled name present doc = .ok doc') :
    (∃ c', Config.fromToml doc' = some c' ∧ Config.WithProvider name present c c') ↔
      present = true ∨ c.providers.enabled.count name ≤ 1 := by
  have result := setProviderEnabled_reads loads written
  rw [← mem_toggled]
  constructor
  · rintro ⟨c', hc, spec⟩
    rw [result] at hc
    cases hc
    exact spec.here
  · intro mem
    exact ⟨_, result, rfl, mem, toggled_others name present _⟩

/-- Every file that loads, every client and every provider name: a removal is seen
when each client of the id stands in a `[[server.clients]]` table that declares
it, an upsert when there is at most one and it does, and a disabled provider when
its name was listed once. -/
theorem listWriters_agree_iff {doc : Table} {c : Config} (loads : Config.fromToml doc = some c) :
    (∀ id, Config.fromToml (removeServerClient id doc) = some (c.withoutClient id) ↔
      declaredCount doc id = clientCount c.server.clients id) ∧
    (∀ client doc', upsertServerClient client doc = .ok doc' →
      ((∃ c', Config.fromToml doc' = some c' ∧ Config.WithClient client c c') ↔
        declaredCount doc client.id = clientCount c.server.clients client.id ∧
        declaredCount doc client.id ≤ 1)) ∧
    (∀ name present doc', setProviderEnabled name present doc = .ok doc' →
      ((∃ c', Config.fromToml doc' = some c' ∧ Config.WithProvider name present c c') ↔
        present = true ∨ c.providers.enabled.count name ≤ 1)) :=
  ⟨removeServerClient_iff loads, fun _ _ written => upsertServerClient_iff loads written,
    fun _ _ _ written => setProviderEnabled_iff loads written⟩

def ciClient : ServerClient where
  id := "ci"
  tokenEnv := some "CI_TOKEN"
  tokenSha256 := none
  expiresAt := none
  scopes := [.admin]
  tools := []

/-- One client and one provider, written the way the program writes them. -/
def tablesDoc : Table :=
  [("providers", .table [("enabled", strings ["brave"])]),
   ("server", .table [("clients", .arrayOfTables [serverClientToTable ciClient])])]

/-- The same client in an inline array, and the provider listed twice. -/
def inlineDoc : Table :=
  [("providers", .table [("enabled", strings ["brave", "brave"])]),
   ("server", .table [("clients", .array [.inlineTable (serverClientToTable ciClient)])])]

def ciConfig (enabled : List String) : Config :=
  { Config.default with
    providers := { ProviderConfig.default with enabled := enabled }
    server := { ServerConfig.default with clients := [ciClient] } }

theorem listWriters_tablesDoc :
    Config.fromToml (removeServerClient "ci" tablesDoc)
      = some ((ciConfig ["brave"]).withoutClient "ci") ∧
    ∃ c', Config.fromToml [("providers", .table [("enabled", strings [])]),
        ("server", .table [("clients", .arrayOfTables [serverClientToTable ciClient])])] = some c' ∧
      Config.WithProvider "brave" false (ciConfig ["brave"]) c' :=
  have agrees := @listWriters_agree_iff tablesDoc (ciConfig ["brave"]) rfl
  ⟨(agrees.1 "ci").2 (by decide), (agrees.2.2 "brave" false _ rfl).2 (by decide)⟩

theorem listWriters_inlineDoc :
    ¬ ∀ (doc : Table) (c : Config), Config.fromToml doc = some c →
      (∀ id, Config.fromToml (removeServerClient id doc) = some (c.withoutClient id)) ∧
      (∀ client doc', upsertServerClient client doc = .ok doc' →
        ∃ c', Config.fromToml doc' = some c' ∧ Config.WithClient client c c') ∧
      (∀ name present doc', setProviderEnabled name present doc = .ok doc' →
        ∃ c', Config.fromToml doc' = some c' ∧ Config.WithProvider name present c c') := by
  intro agrees
  have removed := (agrees inlineDoc (ciConfig ["brave", "brave"]) rfl).1 "ci"
  exact absurd ((removeServerClient_iff rfl "ci").1 removed) (by decide)

end Amatl
