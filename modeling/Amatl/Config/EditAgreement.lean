import Amatl.Config.ListAgreement
import Amatl.Config.PatchAgreement

/-! What the writers of single values, governance records, clients and whole
policies leave in the file, read back as a configuration. -/

namespace Amatl

open Toml Traverse

variable {doc doc' : Table} {c : Config}

theorem insert_enabled {t : Table} {answer : AnswerConfig} {enabled : Bool}
    (read : readFields (.map t) AnswerConfig.fields 0 .default = some answer) :
    readFields (.map (insert "enabled" (.boolean enabled) t)) AnswerConfig.fields 0 .default
      = some { answer with enabled := enabled } :=
  (AnswerConfig.lawful.readFields_insert
    (g := field "enabled" flag (·.enabled) (fun v c => { c with enabled := v }))
    (List.mem_of_getElem? (i := 0) rfl) rfl read).2 rfl

theorem setAnswerEnabled_reads {enabled : Bool} (loads : Config.fromToml doc = some c)
    (written : setAnswerEnabled enabled doc = .ok doc') :
    Config.fromToml doc' = some { c with answer := { c.answer with enabled := enabled } } := by
  have read := inTable_field.1 (Config.lawful.readFields_eq_some.1 loads
    (field "answer" (record AnswerConfig.fields .default) (·.answer)
      (fun v c => { c with answer := v })) (List.mem_of_getElem? (i := 3) rfl))
  have insert_answer : ∀ {node answer}, record AnswerConfig.fields .default node = some answer →
      Config.fromToml (insert "answer" node doc) = some { c with answer := answer } :=
    fun read => (Config.lawful.readFields_insert
      (g := field "answer" (record AnswerConfig.fields .default) (·.answer)
        (fun v c => { c with answer := v })) (List.mem_of_getElem? (i := 3) rfl) rfl loads).2 read
  unfold setAnswerEnabled setScalarField at written
  split at written
  · rename_i absent
    cases written
    rw [absent] at read
    rw [show c.answer = .default from (Option.some.inj read).symm]
    exact insert_answer (insert_enabled AnswerConfig.lawful.readFields_nil)
  · rename_i t present
    cases written
    rw [present] at read
    exact insert_answer (insert_enabled read)
  · rename_i t present
    cases written
    rw [present] at read
    exact insert_answer (insert_enabled read)
  · cases written

/-! Governance records. -/

theorem get?_optionalEntry {key other : String} {value : Option String} :
    get? other (optionalEntry key value) = if key = other then value.map .string else none := by
  cases value <;> simp [optionalEntry, get?]

theorem get?_listEntry {key other : String} {values : List String} :
    get? other (listEntry key values)
      = if key = other then if values.isEmpty then none else some (strings values) else none := by
  cases values <;> simp [listEntry, get?]

section Entries

variable {S : Type} {s : S} {t : Table} {key : String}

theorem inTable_optionalEntry {get : S → Option String} {put : Option String → S → S}
    {value : Option String} (absent : get s = none) (here : get? key t = value.map .string) :
    (field key (optional text) get put).inTable t s = some value := by
  rw [inTable_field, here, absent]
  cases value <;> rfl

theorem inTable_listEntry {get : S → List String} {put : List String → S → S}
    {values : List String} (absent : get s = [])
    (here : get? key t = if values.isEmpty then none else some (strings values)) :
    (field key (list text) get put).inTable t s = some values := by
  rw [inTable_field, here, absent]
  cases values with
  | nil => rfl
  | cons value values => exact list_text_strings (value :: values)

end Entries

theorem ApprovalStatus.read_asStr (status : ApprovalStatus) :
    variant Node.isEmptyTable ApprovalStatus.names (.string status.asStr) = some status := by
  cases status <;> rfl

theorem providerRecord_reads (record : ProviderRuntimeConfig) :
    bufferedRecord ProviderRuntimeConfig.fields .default (.table (providerRecordToTable record))
      = some record := by
  rw [bufferedRecord, Toml.record, ProviderRuntimeConfig.lawful.readFields_eq_some]
  · simp only [ProviderRuntimeConfig.fields, List.forall_mem_cons]
    refine ⟨?_, inTable_field.2 ?_, ?_, ?_, ?_, ?_, ?_, ?_, ?_, ?_, ?_, inTable_field.2 ?_, ?_, ?_,
      ?_, ?_, List.forall_mem_nil _⟩
    case refine_2 =>
      simp [providerRecordToTable, get?_append, get?_optionalEntry, get?,
        ApprovalStatus.read_asStr, field]
    case refine_12 =>
      simp [providerRecordToTable, get?_append, get?_optionalEntry, get?, flag, field]
    case refine_13 | refine_14 =>
      exact inTable_listEntry rfl (by
        simp [providerRecordToTable, get?_append, get?_optionalEntry, get?_listEntry, get?, field])
    all_goals
      exact inTable_optionalEntry rfl (by
        simp [providerRecordToTable, get?_append, get?_optionalEntry, get?_listEntry, get?, field])
  · simp
  · simp

theorem get?_foldr_insert {V : Type} {key : String} {l base : List (String × V)} :
    OrdMap.get? key (l.foldr (fun e m => OrdMap.insert e.1 e.2 m) base)
      = (Toml.get? key l).or (OrdMap.get? key base) := by
  induction l with
  | nil => simp [Toml.get?]
  | cons e l ih =>
    rw [List.foldr_cons, OrdMap.get?_insert, ih, Toml.get?]
    by_cases h : e.1 = key
    · simp [h]
    · simp [h, Ne.symm h]

theorem foldr_insert_insert {V : Type} {key : String} {value : V} {l base : List (String × V)}
    (sorted : OrdMap.Sorted base) :
    (Toml.insert key value l).foldr (fun e m => OrdMap.insert e.1 e.2 m) base
      = OrdMap.insert key value (l.foldr (fun e m => OrdMap.insert e.1 e.2 m) base) := by
  refine (sorted.foldr_insert _).ext ((sorted.foldr_insert l).insert key value) fun k => ?_
  rw [get?_foldr_insert, OrdMap.get?_insert, get?_foldr_insert]
  by_cases h : k = key
  · simp [h]
  · simp [h, get?_insert_of_ne h]

theorem providerRecords_insert {name : String} {record : ProviderRuntimeConfig} {t : Table}
    {records : List (String × ProviderRuntimeConfig)} (reserved : name ≠ "enabled")
    (read : providerRecords t = some records) :
    providerRecords (insert name (.table (providerRecordToTable record)) t)
      = some (insert name record records) := by
  unfold providerRecords at read ⊢
  rw [remove_insert_of_ne reserved]
  generalize remove "enabled" t = entries at read ⊢
  rw [mapM_eq_some] at read ⊢
  induction read with
  | nil => exact .cons (by rw [providerRecord_reads]; rfl) .nil
  | @cons entry e entries records head tail ih =>
    obtain ⟨key, node⟩ := entry
    obtain ⟨r, hr, rfl⟩ := Option.map_eq_some_iff.1 head
    by_cases h : key = name
    · simp only [Toml.insert, h, if_true]
      exact .cons (by simp [providerRecord_reads]) tail
    · simp only [Toml.insert, h, if_false]
      exact .cons head ih

/-- `enabled` is the one key of the section that is not a record. -/
theorem upsertProviderRecord_reads {name : String} {record : ProviderRuntimeConfig}
    (reserved : name ≠ "enabled") (loads : Config.fromToml doc = some c)
    (written : upsertProviderRecord name record doc = .ok doc') :
    Config.fromToml doc' = some { c with providers :=
      { c.providers with declared := OrdMap.insert name record c.providers.declared } } := by
  unfold upsertProviderRecord at written
  split at written
  · obtain ⟨t, t', sec, ht, rfl⟩ := tableAt_cons written
    cases ht
    obtain ⟨enabled, records, read, declared⟩ :=
      ProviderConfig.ofEntries_eq_some.1 (read_providers sec loads)
    refine insert_providers loads (ProviderConfig.ofEntries_eq_some.2 ⟨?_, _,
      providerRecords_insert reserved read, ?_⟩)
    · rw [get?_insert_of_ne (Ne.symm reserved)]
      exact enabled
    · rw [builtinProviderRecords, foldr_insert_insert (OrdMap.sorted_ofList _), declared]
      rfl
  · cases written

/-! Whole policies. -/

section Policies

variable {S V : Type} {p : S} {key : String} {read : Node → Option V} {get : S → V}
variable {put : V → S → S}

theorem encodes_written {encode : V → Node} (law : ∀ v, read (encode v) = some v) :
    Encodes p (key, written encode (get p)) (field key read get put) where
  key := rfl
  single := rfl
  put h := by
    cases h
    exact ⟨_, rfl, law _⟩

theorem encodes_serialized {toNat : V → Nat}
    (law : ∀ {v i}, signed (toNat v) = some i → read (.integer i) = some v) :
    Encodes p (key, serialized toNat (get p)) (field key read get put) where
  key := rfl
  single := rfl
  put {done} h := by
    cases hs : signed (toNat (get p)) with
    | none => simp [serialized, Edit.setInteger, hs] at h
    | some i =>
      simp only [serialized, Option.map_some, Edit.setInteger, hs, Except.ok.injEq] at h
      exact ⟨_, h.symm, law hs⟩

theorem usize_integer {value : Nat} {i : Int64} (h : signed (id value) = some i) :
    usize (.integer i) = some value := by
  refine unsigned_integer h ?_
  unfold signed at h
  split at h
  · rename_i small
    exact Nat.lt_of_lt_of_le small (by decide)
  · cases h

theorem encodes_text {get : S → String} {put : String → S → S} :
    Encodes p (key, written .string (get p)) (field key text get put) :=
  encodes_written fun _ => rfl

theorem encodes_float {get : S → F64} {put : F64 → S → S} :
    Encodes p (key, written .float (get p)) (field key number get put) :=
  encodes_written fun _ => rfl

theorem RankingPolicyV1.edits_encode (p : RankingPolicyV1) :
    List.Forall₂ (Encodes p) p.edits RankingPolicyV1.fields :=
  .cons encodes_text <| .cons (encodes_serialized uint32_integer) <| .cons encodes_float <|
  .cons encodes_float <| .cons encodes_float <| .cons encodes_float <| .cons encodes_float <|
  .cons (encodes_serialized uint32_integer) <| .cons encodes_float .nil

theorem DiversityPolicyV1.edits_encode (p : DiversityPolicyV1) :
    List.Forall₂ (Encodes p) p.edits DiversityPolicyV1.fields :=
  .cons encodes_text <| .cons (encodes_serialized usize_integer) <|
  .cons (encodes_serialized usize_integer) <| .cons (encodes_serialized usize_integer) <|
  .cons encodes_float .nil

theorem SearchPolicyV1.edits_encode (p : SearchPolicyV1) :
    List.Forall₂ (Encodes p) p.edits SearchPolicyV1.fields :=
  .cons encodes_text <| .cons (encodes_serialized usize_integer) <|
  .cons (encodes_serialized usize_integer) <| .cons (encodes_serialized usize_integer) <|
  .cons (encodes_serialized usize_integer) <| .cons (encodes_serialized usize_integer) <|
  .cons (encodes_serialized usize_integer) <| .cons encodes_float <| .cons encodes_float <|
  .cons encodes_float <| .cons encodes_float <| .cons encodes_float <|
  .cons (encodes_serialized uint64_integer) <| .cons (encodes_serialized usize_integer) <|
  .cons (encodes_serialized usize_integer) <| .cons (encodes_serialized usize_integer) <|
  .cons encodes_float .nil

theorem RankingV2Policy.edits_encode (p : RankingV2Policy) :
    List.Forall₂ (Encodes p) p.edits RankingV2Policy.fields :=
  .cons encodes_text <| .cons encodes_float <| .cons encodes_float <| .cons encodes_float <|
  .cons encodes_float <| .cons encodes_float <| .cons encodes_float <| .cons encodes_float <|
  .cons encodes_float <| .cons encodes_float .nil

theorem GapPolicyV1.edits_encode (p : GapPolicyV1) :
    List.Forall₂ (Encodes p) p.edits GapPolicyV1.fields :=
  .cons encodes_text <| .cons (encodes_serialized uint32_integer) <|
  .cons (encodes_serialized uint32_integer) <| .cons encodes_float <| .cons encodes_float <|
  .cons encodes_float <| .cons (encodes_serialized uint32_integer) <|
  .cons (encodes_serialized uint32_integer) .nil

theorem replaceTable_reads {T : Type} {outer : List (RecordField S)}
    {inner : List (RecordField T)} {s c : S} {d : T} {policy : T}
    {edits : ConfigEdits} {t t' : Table} {leaf : String} {get : S → T} {put : T → S → S} (i : Nat)
    (outerLaw : Lawful outer) (innerLaw : Lawful inner)
    (at_i : outer[i]? = some (field leaf (record inner d) get put))
    (distinct : (edits.map Prod.fst).Nodup) (encodes : List.Forall₂ (Encodes policy) edits inner)
    (h : readFields (.map t) outer 0 s = some c) (serialized : write edits [] = .ok t') :
    readFields (.map (insert leaf (.table t') t)) outer 0 s = some (put policy c) :=
  (outerLaw.readFields_insert (List.mem_of_getElem? at_i) rfl h).2
    (write_encodes innerLaw distinct encodes serialized)

theorem ResultPolicy.write_reads {policy : ResultPolicy} (loads : Config.fromToml doc = some c)
    (written : policy.write doc = .ok doc') : Config.fromToml doc' = some (policy.apply c) := by
  cases policy with
  | ranking policy =>
    obtain ⟨t', serialized, written⟩ := bind_eq_ok.1 written
    cases written
    have read := replaceTable_reads 8 Config.lawful RankingPolicyV1.lawful rfl
      (by simp [RankingPolicyV1.edits]) policy.edits_encode loads serialized
    exact read
  | diversity policy =>
    obtain ⟨t', serialized, written⟩ := bind_eq_ok.1 written
    cases written
    have read := replaceTable_reads 10 Config.lawful DiversityPolicyV1.lawful rfl
      (by simp [DiversityPolicyV1.edits]) policy.edits_encode loads serialized
    exact read
  | search policy =>
    obtain ⟨t', serialized, written⟩ := bind_eq_ok.1 written
    cases written
    have read := replaceTable_reads 11 Config.lawful SearchPolicyV1.lawful rfl
      (by simp [SearchPolicyV1.edits]) policy.edits_encode loads serialized
    exact read
  | rankingV2 policy =>
    obtain ⟨t', serialized, written⟩ := bind_eq_ok.1 written
    obtain ⟨t, deep, -, ht, hr, lift⟩ :=
      tableAt_record 17 Config.lawful DeepConfig.lawful rfl rfl loads written
    obtain ⟨u, ranking, -, hu, hr, inner⟩ :=
      tableAt_record 12 DeepConfig.lawful RankingV2Config.lawful rfl rfl hr ht
    cases hu
    exact (lift _).2 ((inner _).2 (replaceTable_reads 1 RankingV2Config.lawful
      RankingV2Policy.lawful rfl (by simp [RankingV2Policy.edits]) policy.edits_encode hr
      serialized))
  | gaps policy =>
    obtain ⟨t', serialized, written⟩ := bind_eq_ok.1 written
    obtain ⟨t, deep, -, ht, hr, lift⟩ :=
      tableAt_record 17 Config.lawful DeepConfig.lawful rfl rfl loads written
    obtain ⟨u, gaps, -, hu, hr, inner⟩ :=
      tableAt_record 13 DeepConfig.lawful GapConfig.lawful rfl rfl hr ht
    cases hu
    exact (lift _).2 ((inner _).2 (replaceTable_reads 5 GapConfig.lawful
      GapPolicyV1.lawful rfl (by simp [GapPolicyV1.edits]) policy.edits_encode hr serialized))

end Policies

/-! Clients whose tables all declare their ids. -/

section Clients

variable {tables : List Table} {clients : List ServerClient} {client : ServerClient} {id : String}

theorem declaredId_of_named {t : Table} (read : readClient t = some client)
    (named : client.id ≠ "") : declaredId t = some client.id := by
  rcases readClient_id read with same | ⟨-, empty⟩
  · exact same
  · exact absurd empty named

theorem readClients_place (read : ReadClients tables clients) (named : ∀ k ∈ clients, k.id ≠ "") :
    ReadClients
      (replaceOrPush (fun t => declaredId t == some client.id) (serverClientToTable client) tables)
      (replaceOrPush (fun k => k.id == client.id) client clients) := by
  induction read with
  | nil => exact .cons (readClient_toTable client) .nil
  | @cons t k tables clients head tail ih =>
    have declared := declaredId_of_named head (named k List.mem_cons_self)
    by_cases same : k.id = client.id
    · simp only [replaceOrPush, declared, same, beq_self_eq_true, if_true]
      exact .cons (readClient_toTable client) tail
    · have rest := ih fun k mem => named k (List.mem_cons_of_mem _ mem)
      simp only [replaceOrPush, declared, Option.some_beq_some, beq_eq_false_iff_ne.2 same,
        Bool.false_eq_true, if_false]
      exact .cons head rest

theorem readClients_drop (read : ReadClients tables clients) (named : ∀ k ∈ clients, k.id ≠ "") :
    ReadClients (tables.filter (fun t => declaredId t != some id))
      (clients.filter (fun k => k.id != id)) := by
  induction read with
  | nil => exact .nil
  | @cons t k tables clients head tail ih =>
    have declared := declaredId_of_named head (named k List.mem_cons_self)
    have rest := ih fun k mem => named k (List.mem_cons_of_mem _ mem)
    by_cases same : k.id = id
    · simpa [declared, same] using rest
    · rw [List.filter_cons_of_pos (by simpa [declared] using same),
        List.filter_cons_of_pos (by simpa using same)]
      exact .cons head rest

theorem upsertServerClient_placed (loads : Config.fromToml doc = some c)
    (named : ∀ k ∈ c.server.clients, k.id ≠ "")
    (written : upsertServerClient client doc = .ok doc') :
    Config.fromToml doc' = some { c with server := { c.server with
      clients := replaceOrPush (fun k => k.id == client.id) client c.server.clients } } := by
  obtain ⟨server, sec, read, rfl⟩ := upsertServerClient_reads loads written
  exact insert_clients sec loads (readClients_place read named)

theorem removeServerClient_sublist (id : String) (loads : Config.fromToml doc = some c)
    (named : ∀ k ∈ c.server.clients, k.id ≠ "") :
    ∃ clients, clients.Sublist c.server.clients ∧
      Config.fromToml (removeServerClient id doc)
        = some { c with server := { c.server with clients := clients } } := by
  rcases clientTables_cases loads id with ⟨server, sec, read, removed⟩ | ⟨-, removed⟩
  · rw [removed]
    exact ⟨_, List.filter_sublist, insert_clients sec loads (readClients_drop read named)⟩
  · rw [removed]
    exact ⟨_, .refl _, loads⟩

end Clients

end Amatl
