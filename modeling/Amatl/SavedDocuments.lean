import Amatl.Response

/-! Documents saved for later sessions. A put answers with the row id that its
connection inserted last, which an update leaves as it was and which an insert into
any other table changes. -/

namespace Amatl

open Text

/-- The columns of the unique index. -/
structure DocumentKey where
  canonicalUrl : String
  contentHash : String
  extractorVersion : String
  deriving DecidableEq, Repr

structure NewDocument where
  key : DocumentKey
  title : Option String
  snippet : Option String
  payload : String
  sourceQuery : Option String
  tags : String
  deriving DecidableEq, Repr

structure SavedDocument extends NewDocument where
  id : Nat
  sizeBytes : Nat
  savedAt : Int64
  deriving DecidableEq, Repr

def NewDocument.saved (document : NewDocument) (now : Int64) (id : Nat) : SavedDocument where
  toNewDocument := document
  id := id
  sizeBytes := document.payload.utf8ByteSize
  savedAt := now

/-- The table, the largest id that `AUTOINCREMENT` has handed out, and the row id that
each connection of the pool inserted last. -/
structure SavedStore where
  rows : List SavedDocument
  sequence : Nat
  lastInsertRowid : Nat → Nat

def SavedStore.opened : SavedStore := ⟨[], 0, fun _ => 0⟩

namespace SavedStore

def inserted (store : SavedStore) (connection rowid : Nat) : Nat → Nat :=
  fun other => if other = connection then rowid else store.lastInsertRowid other

/-- A put on a connection of the pool, with the id it answers. The sequence may skip
ids. -/
def savedDocumentPut (store : SavedStore) (connection skipped : Nat) (document : NewDocument)
    (now : Int64) : Nat × SavedStore :=
  if store.rows.any (fun row => row.key = document.key) then
    (store.lastInsertRowid connection,
      { store with
        rows := store.rows.map (fun row =>
          if row.key = document.key then document.saved now row.id else row)
        sequence := store.sequence + skipped })
  else
    let id := store.sequence + skipped + 1
    (id,
      { rows := store.rows ++ [document.saved now id]
        sequence := id
        lastInsertRowid := store.inserted connection id })

def savedDocumentDelete (store : SavedStore) (id : Nat) : Bool × SavedStore :=
  (store.rows.any (fun row => row.id = id),
    { store with rows := store.rows.filter (fun row => row.id ≠ id) })

end SavedStore

/-- What happens to the connections and the table. -/
inductive SavedOperation where
  | put (connection skipped : Nat) (document : NewDocument) (now : Int64)
  | delete (id : Nat)
  /-- A row goes into another table. -/
  | insertElsewhere (connection rowid : Nat)
  /-- The pool replaces a connection. -/
  | reconnect (connection : Nat)

def SavedStore.run (store : SavedStore) : SavedOperation → SavedStore
  | .put connection skipped document now =>
    (store.savedDocumentPut connection skipped document now).2
  | .delete id => (store.savedDocumentDelete id).2
  | .insertElsewhere connection rowid =>
    { store with lastInsertRowid := store.inserted connection rowid }
  | .reconnect connection => { store with lastInsertRowid := store.inserted connection 0 }

structure SaveDocumentInput where
  canonicalUrl : String
  title : Option String
  snippet : Option String
  contentHash : String
  extractorVersion : String
  payload : String
  sourceQuery : Option String
  tags : List String

def isSha256 (value : String) : Bool :=
  value.utf8ByteSize == 64 && value.toList.all isAsciiHexDigit

def boundedText (value : String) (maximum : Nat) : String :=
  String.ofList (value.toList.take maximum)

/-- What the service asks of a document before it reaches the table. -/
def checkedDocument (Url : Type) [UrlCrate Url] (maxBytes : UInt64) (input : SaveDocumentInput) :
    Except ServiceError NewDocument :=
  match (UrlCrate.parse input.canonicalUrl : Option Url) with
  | none => .error .invalidInput
  | some url =>
    if UrlCrate.scheme url ≠ "http" ∧ UrlCrate.scheme url ≠ "https" then .error .invalidInput
    else if !isSha256 input.contentHash then .error .invalidInput
    else if input.extractorVersion.isEmpty || 128 < input.extractorVersion.utf8ByteSize then
      .error .invalidInput
    else if maxBytes.toNat < input.payload.utf8ByteSize then .error .invalidInput
    else if 16 < input.tags.length || input.tags.any (fun tag => 64 < tag.utf8ByteSize) then
      .error .invalidInput
    else .ok
      { key := ⟨UrlCrate.asStr url, input.contentHash, input.extractorVersion⟩
        title := input.title.map (boundedText · 300)
        snippet := input.snippet.map (boundedText · 2000)
        payload := input.payload
        sourceQuery := input.sourceQuery.map (boundedText · 2048)
        tags := String.ofList (join [','] (input.tags.map String.toList)) }

/-- `None` is a service without storage. -/
def saveDocument (Url : Type) [UrlCrate Url] (maxBytes : UInt64) (store : Option SavedStore)
    (connection skipped : Nat) (input : SaveDocumentInput) (now : Int64) :
    Except ServiceError (Nat × SavedStore) :=
  match store with
  | none => .error .storageUnavailable
  | some store => do
    let document ← checkedDocument Url maxBytes input
    pure (store.savedDocumentPut connection skipped document now)

namespace SavedStore

/-- Ids and keys are unique, and every id was handed out. -/
structure Valid (store : SavedStore) : Prop where
  ids : (store.rows.map (fun row => row.id)).Nodup
  keys : (store.rows.map (fun row => row.key)).Nodup
  handedOut : ∀ row ∈ store.rows, row.id ≤ store.sequence

theorem map_updated {α : Type} (read : SavedDocument → α) (rows : List SavedDocument)
    (document : NewDocument) (now : Int64)
    (same : ∀ row ∈ rows, row.key = document.key → read (document.saved now row.id) = read row) :
    (rows.map (fun row => if row.key = document.key then document.saved now row.id else row)).map
      read = rows.map read := by
  rw [List.map_map]
  refine List.map_congr_left (fun row mem => ?_)
  by_cases h : row.key = document.key
  · simp only [Function.comp, if_pos h]
    exact same row mem h
  · simp only [Function.comp, if_neg h]

theorem savedDocumentPut_valid {store : SavedStore} (h : store.Valid)
    (connection skipped : Nat) (document : NewDocument) (now : Int64) :
    (store.savedDocumentPut connection skipped document now).2.Valid := by
  unfold savedDocumentPut
  simp only
  split
  · refine ⟨?_, ?_, ?_⟩
    · have ids := map_updated (fun row => row.id) store.rows document now
        (fun _ _ _ => rfl)
      exact ids ▸ h.ids
    · have keys := map_updated (fun row => row.key) store.rows document now
        (fun _ _ same => same.symm)
      exact keys ▸ h.keys
    · intro row mem
      obtain ⟨old, hold, rfl⟩ := List.mem_map.mp mem
      have before := h.handedOut old hold
      show (if old.key = document.key then _ else old).id ≤ store.sequence + skipped
      split <;> exact before.trans (Nat.le_add_right _ _)
  · rename_i absent
    have fresh : ∀ row ∈ store.rows, row.key ≠ document.key := by
      intro row mem same
      exact absent (List.any_eq_true.mpr ⟨row, mem, by simpa using same⟩)
    refine ⟨?_, ?_, ?_⟩
    · rw [List.map_append, List.map_singleton]
      refine List.nodup_append.mpr ⟨h.ids, List.nodup_singleton _, ?_⟩
      rintro id mem other hother rfl
      obtain ⟨row, hrow, rfl⟩ := List.mem_map.mp mem
      have before := h.handedOut row hrow
      have new : row.id = store.sequence + skipped + 1 := List.mem_singleton.mp hother
      omega
    · rw [List.map_append, List.map_singleton]
      refine List.nodup_append.mpr ⟨h.keys, List.nodup_singleton _, ?_⟩
      rintro key mem other hother rfl
      obtain ⟨row, hrow, rfl⟩ := List.mem_map.mp mem
      exact fresh row hrow (List.mem_singleton.mp hother)
    · intro row mem
      rcases List.mem_append.mp mem with old | new
      · have before := h.handedOut row old
        simp only
        omega
      · rw [List.mem_singleton.mp new]
        exact Nat.le_refl _

theorem run_valid {store : SavedStore} (h : store.Valid) (operation : SavedOperation) :
    (store.run operation).Valid := by
  cases operation with
  | put connection skipped document now =>
    exact savedDocumentPut_valid h connection skipped document now
  | delete id =>
    exact ⟨h.ids.sublist (List.filter_sublist.map _), h.keys.sublist (List.filter_sublist.map _),
      fun row mem => h.handedOut row (List.mem_of_mem_filter mem)⟩
  | insertElsewhere connection rowid => exact ⟨h.ids, h.keys, h.handedOut⟩
  | reconnect connection => exact ⟨h.ids, h.keys, h.handedOut⟩

theorem foldl_run_valid (operations : List SavedOperation) {store : SavedStore}
    (h : store.Valid) : (operations.foldl run store).Valid := by
  induction operations generalizing store with
  | nil => exact h
  | cons operation operations ih => exact ih (run_valid h operation)

/-- The id is that of the row with the key, and deleting by it removes that row only. -/
def Identifies (store : SavedStore) (id : Nat) (key : DocumentKey) : Prop :=
  (∃ row ∈ store.rows, row.key = key ∧ row.id = id) ∧
    (store.savedDocumentDelete id).2.rows = store.rows.filter (fun row => row.key ≠ key)

theorem identifies_iff {store : SavedStore} (h : store.Valid) {id : Nat} {key : DocumentKey} :
    store.Identifies id key ↔ ∃ row ∈ store.rows, row.key = key ∧ row.id = id := by
  refine ⟨And.left, fun found => ⟨found, ?_⟩⟩
  obtain ⟨row, mem, rfl, rfl⟩ := found
  refine List.filter_congr (fun other hother => ?_)
  have sameId : other.id = row.id → other = row := List.inj_on_of_nodup_map h.ids hother mem
  have sameKey : other.key = row.key → other = row := List.inj_on_of_nodup_map h.keys hother mem
  by_cases same : other = row
  · simp [same]
  · have ids : other.id ≠ row.id := fun eq => same (sameId eq)
    have keys : other.key ≠ row.key := fun eq => same (sameKey eq)
    simp [ids, keys]

/-- The document is new, or its row is the one that the connection inserted last. -/
def Answers (store : SavedStore) (connection : Nat) (key : DocumentKey) : Prop :=
  ∀ row ∈ store.rows, row.key = key → row.id = store.lastInsertRowid connection

theorem savedDocumentPut_identifies_iff {store : SavedStore} (h : store.Valid)
    (connection skipped : Nat) (document : NewDocument) (now : Int64) :
    let put := store.savedDocumentPut connection skipped document now
    put.2.Identifies put.1 document.key ↔ store.Answers connection document.key := by
  intro put
  rw [identifies_iff (savedDocumentPut_valid h connection skipped document now)]
  by_cases present : store.rows.any (fun row => row.key = document.key) = true
  · obtain ⟨row, mem, same⟩ := List.any_eq_true.mp present
    replace same : row.key = document.key := by simpa using same
    have unique : ∀ other ∈ store.rows, other.key = document.key → other = row :=
      fun other hother eq => List.inj_on_of_nodup_map h.keys hother mem (eq.trans same.symm)
    have answered : put.1 = store.lastInsertRowid connection := by
      simp only [put, savedDocumentPut, if_pos present]
    have updated : put.2.rows = store.rows.map (fun row => if row.key = document.key then
        document.saved now row.id else row) := by
      simp only [put, savedDocumentPut, if_pos present]
    constructor
    · rintro ⟨found, hfound, key, id⟩ other hother eq
      rw [updated] at hfound
      obtain ⟨old, hold, rfl⟩ := List.mem_map.mp hfound
      by_cases oldKey : old.key = document.key
      · rw [if_pos oldKey] at id
        rw [unique other hother eq, ← unique old hold oldKey, ← answered]
        exact id
      · rw [if_neg oldKey] at key
        exact absurd key oldKey
    · intro answers
      refine ⟨document.saved now row.id, ?_, rfl, ?_⟩
      · rw [updated]
        exact List.mem_map.mpr ⟨row, mem, if_pos same⟩
      · rw [answered]
        exact answers row mem same
  · have absent : ∀ row ∈ store.rows, row.key ≠ document.key := by
      intro row mem same
      exact present (List.any_eq_true.mpr ⟨row, mem, by simpa using same⟩)
    refine ⟨fun _ row mem same => absurd same (absent row mem), fun _ => ?_⟩
    have inserted : put = (store.sequence + skipped + 1,
        { rows := store.rows ++ [document.saved now (store.sequence + skipped + 1)]
          sequence := store.sequence + skipped + 1
          lastInsertRowid := store.inserted connection (store.sequence + skipped + 1) }) := by
      simp only [put, savedDocumentPut, if_neg present]
    show ∃ row ∈ put.2.rows, row.key = document.key ∧ row.id = put.1
    rw [inserted]
    exact ⟨document.saved now (store.sequence + skipped + 1),
      List.mem_append_right _ (List.mem_singleton_self _), rfl, rfl⟩

end SavedStore

theorem saveDocument_identifies_iff (Url : Type) [UrlCrate Url] {maxBytes : UInt64}
    {store after : SavedStore} (h : store.Valid) {connection skipped id : Nat}
    {input : SaveDocumentInput} {now : Int64}
    (saved : saveDocument Url maxBytes (some store) connection skipped input now =
      .ok (id, after)) :
    ∃ document, checkedDocument Url maxBytes input = .ok document ∧
      (after.Identifies id document.key ↔ store.Answers connection document.key) := by
  unfold saveDocument at saved
  cases checked : checkedDocument Url maxBytes input with
  | error error =>
    rw [checked] at saved
    cases saved
  | ok document =>
    rw [checked] at saved
    have put : store.savedDocumentPut connection skipped document now = (id, after) :=
      Except.ok.inj saved
    refine ⟨document, rfl, ?_⟩
    have told := SavedStore.savedDocumentPut_identifies_iff h connection skipped document now
    rw [put] at told
    exact told

/-- After any operations, a put answers with the id of its document exactly when the
document is new or its row is the one that the connection inserted last, and so does the
service for a document that it accepts. -/
theorem savedDocuments_identified (operations : List SavedOperation) (connection skipped : Nat)
    (document : NewDocument) (now : Int64) :
    let store := operations.foldl SavedStore.run .opened
    let put := store.savedDocumentPut connection skipped document now
    (put.2.Identifies put.1 document.key ↔ store.Answers connection document.key) ∧
      ∀ (Url : Type) [UrlCrate Url] (maxBytes : UInt64) (input : SaveDocumentInput) (id : Nat)
        (after : SavedStore),
        saveDocument Url maxBytes (some store) connection skipped input now = .ok (id, after) →
          ∃ document, checkedDocument Url maxBytes input = .ok document ∧
            (after.Identifies id document.key ↔ store.Answers connection document.key) := by
  have opened : SavedStore.opened.Valid := ⟨List.nodup_nil, List.nodup_nil, nofun⟩
  have valid := SavedStore.foldl_run_valid operations opened
  exact ⟨SavedStore.savedDocumentPut_identifies_iff valid connection skipped document now,
    fun Url _ maxBytes input id after saved => saveDocument_identifies_iff Url valid saved⟩

def plainSaved (url : String) : NewDocument where
  key := ⟨url, "0", "1"⟩
  title := none
  snippet := none
  payload := "text"
  sourceQuery := none
  tags := ""

/-- Two documents are saved and the first is saved again on the same connection: the
answer is the id of the second, and deleting by it removes the second. -/
theorem savedAgain_misidentified :
    let store := [.put 0 0 (plainSaved "https://a.example/") 10,
      .put 0 0 (plainSaved "https://b.example/") 11].foldl SavedStore.run .opened
    let put := store.savedDocumentPut 0 0 (plainSaved "https://a.example/") 12
    put.1 = 2 ∧
      ¬put.2.Identifies put.1 (plainSaved "https://a.example/").key ∧
      (put.2.savedDocumentDelete put.1).2.rows.map (fun row => row.key.canonicalUrl) =
        ["https://a.example/"] := by
  refine ⟨by decide +kernel, ?_, by decide +kernel⟩
  rintro ⟨-, removed⟩
  revert removed
  decide +kernel

end Amatl
