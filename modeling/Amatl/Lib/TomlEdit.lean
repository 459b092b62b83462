import Amatl.Lib.Toml
import Amatl.Lib.Traverse

/-! Edits of single keys, the tables they are made in, and what a reader of the
edited document sees. -/

namespace Toml

/-- The empty text stands for no value. -/
def clearable (value : String) : Option String := if value = "" then none else some value

inductive Edit where
  | keep
  | put (node : Node)
  | drop

namespace Edit

def run (edit : Edit) (key : String) (t : Table) : Table :=
  match edit with
  | .keep => t
  | .put node => insert key node t
  | .drop => remove key t

def after (edit : Edit) (old : Option Node) : Option Node :=
  match edit with
  | .keep => old
  | .put node => some node
  | .drop => none

@[simp] theorem get?_run_self (edit : Edit) (key : String) (t : Table) :
    get? key (edit.run key t) = edit.after (get? key t) := by
  cases edit <;> simp [run, after]

theorem get?_run_of_ne (edit : Edit) {key other : String} (t : Table) (h : other ≠ key) :
    get? other (edit.run key t) = get? other t := by
  cases edit with
  | keep => rfl
  | put node => exact get?_insert_of_ne h
  | drop => exact get?_remove_of_ne h

/-- Write a value that is given, and leave the key alone otherwise. -/
def set {α : Type} (encode : α → Node) (value : Option α) : Edit :=
  match value with
  | none => .keep
  | some value => .put (encode value)

/-- The empty text removes the key. -/
def setOrClear (value : Option String) : Edit :=
  match value with
  | none => .keep
  | some value => if value = "" then .drop else .put (.string value)

end Edit

def strings (values : List String) : Node := .array (values.map .string)

theorem list_text_strings (values : List String) : list text (strings values) = some values := by
  rw [strings, list]
  exact Traverse.mapM_written (fun _ _ => rfl)

/-- An unsigned value as a TOML integer, if it is in range. -/
def signed (value : Nat) : Option Int64 :=
  if value < 2 ^ 63 then some (Int64.ofNat value) else none

/-- Write an integer that is given; one out of range is an error. -/
def Edit.setInteger {ε : Type} (tooLarge : ε) (value : Option Nat) : Except ε Edit :=
  match value with
  | none => .ok .keep
  | some value =>
    match signed value with
    | none => .error tooLarge
    | some i => .ok (.put (.integer i))

theorem unsigned_integer {bound value : Nat} {i : Int64} (h : signed value = some i)
    (hb : value < bound) : unsigned bound (.integer i) = some value := by
  unfold signed at h
  split at h
  · cases h
    have hi : (Int64.ofNat value).toInt = value :=
      Int64.toInt_ofNat_of_lt (by assumption)
    simp [unsigned, hi, hb]
  · cases h

theorem uint8_integer {value : UInt8} {i : Int64} (h : signed value.toNat = some i) :
    uint8 (.integer i) = some value := by
  simp [uint8, unsigned_integer h value.toNat_lt]

theorem uint16_integer {value : UInt16} {i : Int64} (h : signed value.toNat = some i) :
    uint16 (.integer i) = some value := by
  simp [uint16, unsigned_integer h value.toNat_lt]

theorem uint32_integer {value : UInt32} {i : Int64} (h : signed value.toNat = some i) :
    uint32 (.integer i) = some value := by
  simp [uint32, unsigned_integer h value.toNat_lt]

theorem uint64_integer {value : UInt64} {i : Int64} (h : signed value.toNat = some i) :
    uint64 (.integer i) = some value := by
  simp [uint64, unsigned_integer h value.toNat_lt]

section Write

variable {ε S : Type} {edits : List (String × Except ε Edit)} {t t' : Table}

theorem inTable_field {V : Type} {key : String} {read : Node → Option V} {get : S → V}
    {put : V → S → S} {s : S} {x : V} :
    (field key read get put).inTable t s = some x ↔
      (get? key t).elim (some (get s)) read = some x := by
  cases h : get? key t <;> simp [RecordField.inTable, field, h]

def write : List (String × Except ε Edit) → Table → Except ε Table
  | [], t => .ok t
  | (key, edit) :: edits, t =>
    match edit with
    | .ok edit => write edits (edit.run key t)
    | .error error => .error error

/-- What a write of distinct keys leaves behind. -/
structure Written (edits : List (String × Except ε Edit)) (t t' : Table) : Prop where
  inside : ∀ {key edit}, (key, edit) ∈ edits →
    ∃ done, edit = .ok done ∧ get? key t' = done.after (get? key t)
  outside : ∀ {key}, key ∉ edits.map Prod.fst → get? key t' = get? key t

theorem write_written (distinct : (edits.map Prod.fst).Nodup) (h : write edits t = .ok t') :
    Written edits t t' := by
  induction edits generalizing t with
  | nil =>
    cases h
    exact ⟨fun mem => absurd mem List.not_mem_nil, fun _ => rfl⟩
  | cons first edits ih =>
    obtain ⟨key, edit⟩ := first
    cases edit with
    | error error => simp [write] at h
    | ok done =>
      have hd := List.nodup_cons.1 distinct
      have rest : Written edits (done.run key t) t' := ih hd.2 h
      refine ⟨?_, ?_⟩
      · intro other edit mem
        rcases List.mem_cons.1 mem with same | later
        · cases same
          exact ⟨done, rfl, by rw [rest.outside hd.1, Edit.get?_run_self]⟩
        · obtain ⟨edit, he, hg⟩ := rest.inside later
          have hne : other ≠ key := by
            rintro rfl
            exact hd.1 (List.mem_map.2 ⟨_, later, rfl⟩)
          exact ⟨edit, he, by rw [hg, Edit.get?_run_of_ne _ _ hne]⟩
      · intro other hout
        rw [List.map_cons, List.mem_cons, not_or] at hout
        rw [rest.outside hout.2, Edit.get?_run_of_ne _ _ hout.1]

namespace Written

variable (w : Written edits t t') {s : S}

include w

variable {V : Type} {key : String} {read : Node → Option V} {get : S → V} {put : V → S → S}
variable {x : V}

theorem set (i : Nat) {encode : V → Node} {value : Option V} (law : ∀ v, read (encode v) = some v)
    (at_i : edits[i]? = some (key, .ok (.set encode value)))
    (h : (field key read get put).inTable t s = some x) :
    (field key read get put).inTable t' s = some (value.getD x) := by
  obtain ⟨done, hd, hg⟩ := w.inside (List.mem_of_getElem? at_i)
  cases hd
  cases value with
  | none =>
    rw [inTable_field] at h ⊢
    simpa only [hg, Edit.set, Edit.after, Option.getD_none] using h
  | some value => simp [inTable_field, hg, Edit.set, Edit.after, law]

theorem kept (hk : key ∉ edits.map Prod.fst)
    (h : (field key read get put).inTable t s = some x) :
    (field key read get put).inTable t' s = some x := by
  rw [inTable_field] at h ⊢
  rwa [w.outside hk]

theorem setSome (i : Nat) {encode : V → Node} {get : S → Option V} {put : Option V → S → S}
    {value x : Option V} (law : ∀ v, read (encode v) = some v)
    (at_i : edits[i]? = some (key, .ok (.set encode value)))
    (h : (field key (optional read) get put).inTable t s = some x) :
    (field key (optional read) get put).inTable t' s = some (value.elim x some) := by
  obtain ⟨done, hd, hg⟩ := w.inside (List.mem_of_getElem? at_i)
  cases hd
  cases value with
  | none =>
    rw [inTable_field] at h ⊢
    simpa only [hg, Edit.set, Edit.after, Option.elim_none] using h
  | some value => simp [inTable_field, hg, Edit.set, Edit.after, optional, law]

theorem setInteger (i : Nat) {tooLarge : ε} {toNat : V → Nat} {value : Option V}
    (law : ∀ {v i}, signed (toNat v) = some i → read (.integer i) = some v)
    (at_i : edits[i]? = some (key, Edit.setInteger tooLarge (value.map toNat)))
    (h : (field key read get put).inTable t s = some x) :
    (field key read get put).inTable t' s = some (value.getD x) := by
  obtain ⟨done, hd, hg⟩ := w.inside (List.mem_of_getElem? at_i)
  cases value with
  | none =>
    cases hd
    rw [inTable_field] at h ⊢
    simpa only [hg, Edit.after, Option.getD_none] using h
  | some value =>
    rcases hs : signed (toNat value) with _ | i
    · simp [Edit.setInteger, hs] at hd
    · simp only [Option.map_some, Edit.setInteger, hs, Except.ok.injEq] at hd
      subst hd
      simp [inTable_field, hg, Edit.after, law hs]

/-- A field that may stand under a second name is written under its first, which
is a duplicate wherever the second is in use. -/
theorem setInteger_aliased (i : Nat) {f : RecordField S} {other : String} {x : f.Value}
    {tooLarge : ε} {toNat : f.Value → Nat} {value : Option f.Value}
    (named : f.alternative = some other) (hk : other ∉ edits.map Prod.fst)
    (law : ∀ {v i}, signed (toNat v) = some i → f.read (.integer i) = some v)
    (at_i : edits[i]? = some (f.key, Edit.setInteger tooLarge (value.map toNat)))
    (h : f.inTable t s = some x) :
    f.inTable t' s = some (value.getD x) ↔ ¬ (value.isSome ∧ (get? other t).isSome) := by
  obtain ⟨done, hd, hg⟩ := w.inside (List.mem_of_getElem? at_i)
  cases value with
  | none =>
    cases hd
    simp only [RecordField.inTable, named, Option.bind_some] at h
    simp [RecordField.inTable, named, w.outside hk, hg, Edit.after, h]
  | some value =>
    rcases hs : signed (toNat value) with _ | i
    · simp [Edit.setInteger, hs] at hd
    · simp only [Option.map_some, Edit.setInteger, hs, Except.ok.injEq] at hd
      subst hd
      cases ho : get? other t <;>
        simp [RecordField.inTable, named, w.outside hk, hg, ho, Edit.after, law hs]

theorem setOrClear (i : Nat) {get : S → Option String} {put : Option String → S → S}
    {value x : Option String} (absent : get s = none)
    (at_i : edits[i]? = some (key, .ok (.setOrClear value)))
    (h : (field key (optional text) get put).inTable t s = some x) :
    (field key (optional text) get put).inTable t' s = some (value.elim x clearable) := by
  obtain ⟨done, hd, hg⟩ := w.inside (List.mem_of_getElem? at_i)
  cases hd
  cases value with
  | none =>
    rw [inTable_field] at h ⊢
    simpa only [hg, Edit.setOrClear, Edit.after, Option.elim_none] using h
  | some value =>
    by_cases empty : value = ""
    · simp [inTable_field, hg, Edit.setOrClear, Edit.after, clearable, empty, absent]
    · simp [inTable_field, hg, Edit.setOrClear, Edit.after, clearable, empty, optional, text]

end Written

/-- An entry that writes the value of a field of `p`, or fails. -/
structure Encodes (p : S) (entry : String × Except ε Edit) (f : RecordField S) : Prop where
  key : entry.1 = f.key
  single : f.alternative = none
  put : ∀ {done}, entry.2 = .ok done → ∃ node, done = .put node ∧ f.read node = some (f.get p)

/-- A record written field by field into a fresh table is read back. -/
theorem write_encodes {fields : List (RecordField S)} {p s : S} (law : Lawful fields)
    (distinct : (edits.map Prod.fst).Nodup) (encodes : List.Forall₂ (Encodes p) edits fields)
    (h : write edits [] = .ok t) : readFields (.map t) fields 0 s = some p := by
  rw [law.readFields_eq_some]
  intro f hf
  obtain ⟨entry, mem, he⟩ : ∃ entry ∈ edits, Encodes p entry f := by
    obtain ⟨i, hi, rfl⟩ := List.mem_iff_getElem.1 hf
    have bound : i < edits.length := encodes.length_eq ▸ hi
    exact ⟨edits[i], List.getElem_mem bound, encodes.get bound hi⟩
  obtain ⟨done, ok, written⟩ := (write_written distinct h).inside mem
  obtain ⟨node, rfl, read⟩ := he.put ok
  simp only [he.key, Edit.after] at written
  simp [RecordField.inTable, he.single, written, read]

end Write

section Sections

variable {ε S T : Type} {notTable : String → ε} {edit : Table → Except ε Table}
variable {key : String} {path : List String} {doc doc' : Table}

/-- Edit the table at a path, creating the tables on the way that are missing. -/
def tableAt (notTable : String → ε) (edit : Table → Except ε Table) :
    List String → Table → Except ε Table
  | [], doc => edit doc
  | key :: path, doc =>
    match get? key doc with
    | none => (tableAt notTable edit path []).map (fun t => insert key (.table t) doc)
    | some (.table t) =>
      (tableAt notTable edit path t).map (fun t => insert key (.table t) doc)
    | some _ => .error (notTable key)

/-- `t` is the table at `key`; a missing table counts as empty. -/
def SectionAt (doc : Table) (key : String) (t : Table) : Prop :=
  get? key doc = none ∧ t = [] ∨ get? key doc = some (.table t)

theorem tableAt_cons (h : tableAt notTable edit (key :: path) doc = .ok doc') :
    ∃ t t', SectionAt doc key t ∧ tableAt notTable edit path t = .ok t' ∧
      doc' = insert key (.table t') doc := by
  have finish : ∀ t, SectionAt doc key t →
      (tableAt notTable edit path t).map (fun t => insert key (.table t) doc) = .ok doc' →
      ∃ t t', SectionAt doc key t ∧ tableAt notTable edit path t = .ok t' ∧
        doc' = insert key (.table t') doc := by
    intro t ht hm
    cases hr : tableAt notTable edit path t with
    | error error => simp [hr, Except.map] at hm
    | ok t' =>
      simp only [hr, Except.map, Except.ok.injEq] at hm
      exact ⟨t, t', ht, hr, hm.symm⟩
  unfold tableAt at h
  split at h
  · exact finish [] (.inl ⟨by assumption, rfl⟩) h
  · exact finish _ (.inr (by assumption)) h
  · cases h

theorem RecordField.inTable_insert_of_ne {f : RecordField S} {s : S} {node : Node}
    (hk : f.key ≠ key) (ha : key ∉ f.alternative) :
    f.inTable (insert key node doc) s = f.inTable doc s := by
  have other : f.alternative.bind (get? · (insert key node doc))
      = f.alternative.bind (get? · doc) := by
    cases hn : f.alternative with
    | none => rfl
    | some name =>
      have hne : name ≠ key := fun same => ha (by simp [hn, same])
      simp [get?_insert_of_ne hne]
  simp only [RecordField.inTable, get?_insert_of_ne hk, other]

variable {outer : List (RecordField S)} {inner : List (RecordField T)} {s c : S} {d : T}
variable {get : S → T} {put : T → S → S} {t t' : Table}

theorem SectionAt.readFields (sec : SectionAt doc key t) (law : Lawful inner) (hd : get s = d)
    {x : T} (h : (field key (record inner d) get put).inTable doc s = some x) :
    readFields (.map t) inner 0 d = some x := by
  rw [inTable_field] at h
  rcases sec with ⟨hg, rfl⟩ | hg
  · rw [law.readFields_nil, ← hd]
    simpa only [hg, Option.elim_none] using h
  · simpa only [hg, Option.elim_some, record] using h

theorem Lawful.readFields_insert (law : Lawful outer) {g : RecordField S} {node : Node}
    {x : g.Value} (hg : g ∈ outer) (single : g.alternative = none)
    (h : Toml.readFields (.map doc) outer 0 s = some c) :
    Toml.readFields (.map (insert g.key node doc)) outer 0 s = some (g.set x c) ↔
      g.read node = some x := by
  have self : g.inTable (insert g.key node doc) s = g.read node := by
    simp [RecordField.inTable, single]
  rw [law.readFields_eq_some] at h ⊢
  constructor
  · intro read
    rw [← self, read g hg, law.get_set g hg]
  · intro hx f hf
    rcases law.eq_or_apart hf hg with rfl | apart
    · rw [self, hx, law.get_set f hf]
    · rw [RecordField.inTable_insert_of_ne apart.keys apart.rightKey, h f hf, apart.left]

/-- Editing the table of a section edits that part of the record and no other. -/
theorem tableAt_record (i : Nat) (outerLaw : Lawful outer) (innerLaw : Lawful inner)
    (at_i : outer[i]? = some (field key (record inner d) get put)) (hd : get s = d)
    (h : readFields (.map doc) outer 0 s = some c)
    (hw : tableAt notTable edit (key :: path) doc = .ok doc') :
    ∃ t t', SectionAt doc key t ∧ tableAt notTable edit path t = .ok t' ∧
      readFields (.map t) inner 0 d = some (get c) ∧
      ∀ x, readFields (.map doc') outer 0 s = some (put x c) ↔
        readFields (.map t') inner 0 d = some x := by
  obtain ⟨t, t', sec, ht, rfl⟩ := tableAt_cons hw
  have mem := List.mem_of_getElem? at_i
  refine ⟨t, t', sec, ht, sec.readFields innerLaw hd (outerLaw.readFields_eq_some.1 h _ mem), ?_⟩
  intro x
  exact outerLaw.readFields_insert mem rfl h

end Sections

end Toml
