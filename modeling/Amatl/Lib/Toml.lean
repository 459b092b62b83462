import Amatl.Lib.F64
import Mathlib.Data.List.Pairwise
import Mathlib.Tactic.MkIffOfInductiveProp

/-! TOML documents as trees, the typed readers of a deserializer that fills
absent fields from a default, and edits of single keys in a table. -/

namespace Toml

inductive Node where
  | string (value : String)
  | integer (value : Int64)
  | float (value : F64)
  | boolean (value : Bool)
  | datetime (text : String)
  | array (items : List Node)
  | inlineTable (entries : List (String × Node))
  | table (entries : List (String × Node))
  | arrayOfTables (tables : List (List (String × Node)))

abbrev Table := List (String × Node)

section Table

variable {V : Type} {key other : String} {value : V} {t : List (String × V)}

def get? (key : String) : List (String × V) → Option V
  | [] => none
  | (k, value) :: t => if k = key then some value else get? key t

/-- Replace the value at its place, or append a new entry. -/
def insert (key : String) (value : V) : List (String × V) → List (String × V)
  | [] => [(key, value)]
  | (k, old) :: t => if k = key then (k, value) :: t else (k, old) :: insert key value t

def remove (key : String) (t : List (String × V)) : List (String × V) :=
  t.filter (fun entry => entry.1 ≠ key)

@[simp] theorem get?_insert_self : get? key (insert key value t) = some value := by
  induction t with
  | nil => simp [insert, get?]
  | cons entry t ih =>
    by_cases h : entry.1 = key
    · simp [insert, get?, h]
    · simpa [insert, get?, h] using ih

theorem get?_insert_of_ne (h : other ≠ key) :
    get? other (insert key value t) = get? other t := by
  induction t with
  | nil => simp [insert, get?, h.symm]
  | cons entry t ih =>
    by_cases hk : entry.1 = key
    · have hne : entry.1 ≠ other := fun same => h (same.symm.trans hk)
      simp [insert, get?, hk, h.symm]
    · simp only [insert, get?, hk, if_false, ih]

@[simp] theorem get?_remove_self : get? key (remove key t) = none := by
  induction t with
  | nil => rfl
  | cons entry t ih =>
    by_cases h : entry.1 = key
    · simpa [remove, h] using ih
    · simpa [remove, get?, h] using ih

theorem get?_remove_of_ne (h : other ≠ key) : get? other (remove key t) = get? other t := by
  induction t with
  | nil => rfl
  | cons entry t ih =>
    by_cases hk : entry.1 = key
    · have hne : ¬ key = other := fun same => h same.symm
      simpa [remove, get?, hk, hne] using ih
    · by_cases ho : entry.1 = other
      · simp [remove, get?, ho, h]
      · simpa [remove, get?, hk, ho] using ih

theorem remove_insert_self : remove key (insert key value t) = remove key t := by
  induction t with
  | nil => simp [insert, remove]
  | cons entry t ih =>
    by_cases h : entry.1 = key
    · simp [insert, remove, h]
    · simpa [insert, remove, h] using ih

theorem remove_insert_of_ne (h : other ≠ key) :
    remove key (insert other value t) = insert other value (remove key t) := by
  induction t with
  | nil => simp [insert, remove, h]
  | cons entry t ih =>
    by_cases ho : entry.1 = other
    · simp [insert, remove, ho, h]
    · by_cases hk : entry.1 = key
      · simpa [insert, remove, ho, hk, h.symm] using ih
      · simpa [insert, remove, ho, hk] using ih

theorem get?_append {u : List (String × V)} :
    get? key (t ++ u) = (get? key t).or (get? key u) := by
  induction t with
  | nil => rfl
  | cons entry t ih => by_cases h : entry.1 = key <;> simp [get?, h, ih]

end Table

/-! Readers of single values. -/

def text : Node → Option String
  | .string value => some value
  | _ => none

def flag : Node → Option Bool
  | .boolean value => some value
  | _ => none

def unsigned (bound : Nat) : Node → Option Nat
  | .integer value =>
    if 0 ≤ value.toInt ∧ value.toInt < bound then some value.toInt.toNat else none
  | _ => none

def uint8 (node : Node) : Option UInt8 := (unsigned (2 ^ 8) node).map UInt8.ofNat

def uint16 (node : Node) : Option UInt16 := (unsigned (2 ^ 16) node).map UInt16.ofNat

def uint32 (node : Node) : Option UInt32 := (unsigned (2 ^ 32) node).map UInt32.ofNat

def uint64 (node : Node) : Option UInt64 := (unsigned (2 ^ 64) node).map UInt64.ofNat

def number : Node → Option F64
  | .float value => some value
  | .integer value => some (F64.ofInt value.toInt)
  | _ => none

def optional {α : Type} (read : Node → Option α) (node : Node) : Option (Option α) :=
  (read node).map some

def list {α : Type} (read : Node → Option α) : Node → Option (List α)
  | .array items => items.mapM read
  | .arrayOfTables tables => tables.mapM (fun t => read (.table t))
  | _ => none

def Node.isEmptyTable : Node → Bool
  | .table [] => true
  | .inlineTable [] => true
  | _ => false

def Node.isEmptyArray : Node → Bool
  | .array [] => true
  | .arrayOfTables [] => true
  | _ => false

def Node.isUnit (node : Node) : Bool := node.isEmptyTable || node.isEmptyArray

/-- A unit variant: its name, or the name as the only key of a table that maps
it to nothing. -/
def variant {α : Type} (unit : Node → Bool) (names : List (String × α)) : Node → Option α
  | .string name => get? name names
  | .table [(name, content)] => if unit content then get? name names else none
  | .inlineTable [(name, content)] => if unit content then get? name names else none
  | _ => none

/-! Readers of records. -/

/-- A field of the record type `S`: its names in a document, the reader of its
value and its place in the record. -/
structure RecordField (S : Type) where
  Value : Type
  key : String
  alternative : Option String
  read : Node → Option Value
  get : S → Value
  set : Value → S → S

def field {S V : Type} (key : String) (read : Node → Option V) (get : S → V)
    (set : V → S → S) : RecordField S where
  Value := V
  key := key
  alternative := none
  read := read
  get := get
  set := set

/-- What a record is read from: entries by name, or items by position. -/
inductive Source where
  | map (entries : Table)
  | seq (items : List Node)

section Record

variable {S : Type}

/-- The value of a field in a table. An absent field keeps the value of `s`, and
a field under both its names is a duplicate. -/
def RecordField.inTable (f : RecordField S) (t : Table) (s : S) : Option f.Value :=
  match get? f.key t, f.alternative.bind (get? · t) with
  | none, none => some (f.get s)
  | some node, none => f.read node
  | none, some node => f.read node
  | some _, some _ => none

def RecordField.value (f : RecordField S) (source : Source) (position : Nat) (s : S) : Option f.Value :=
  match source with
  | .map entries => f.inTable entries s
  | .seq items =>
    match items[position]? with
    | none => some (f.get s)
    | some node => f.read node

def readFields (source : Source) : List (RecordField S) → Nat → S → Option S
  | [], _, s => some s
  | f :: fields, position, s =>
    (f.value source position s).bind
      (fun value => readFields source fields (position + 1) (f.set value s))

/-- The key under which a datetime presents itself to a record. -/
def datetimeField : String := "$__toml_private_datetime"

def record (fields : List (RecordField S)) (default : S) : Node → Option S
  | .table entries => readFields (.map entries) fields 0 default
  | .inlineTable entries => readFields (.map entries) fields 0 default
  | .array items => readFields (.seq items) fields 0 default
  | .arrayOfTables tables => readFields (.seq (tables.map .table)) fields 0 default
  | .datetime text => readFields (.map [(datetimeField, .string text)]) fields 0 default
  | _ => none

/-- A record read from a buffered value, where surplus items are an error. -/
def bufferedRecord (fields : List (RecordField S)) (default : S) : Node → Option S
  | .array items =>
    if items.length ≤ fields.length then readFields (.seq items) fields 0 default else none
  | .arrayOfTables tables =>
    if tables.length ≤ fields.length then readFields (.seq (tables.map .table)) fields 0 default
    else none
  | node => record fields default node

/-- Two fields with different names, where setting one leaves the other. -/
@[mk_iff] structure RecordField.Apart (f g : RecordField S) : Prop where
  left : ∀ value s, f.get (g.set value s) = f.get s
  right : ∀ value s, g.get (f.set value s) = g.get s
  keys : f.key ≠ g.key
  leftKey : f.key ∉ g.alternative
  rightKey : g.key ∉ f.alternative

theorem RecordField.apart_field {V W : Type} {key key' : String} {read : Node → Option V}
    {read' : Node → Option W} {get : S → V} {get' : S → W} {set : V → S → S} {set' : W → S → S} :
    (field key read get set).Apart (field key' read' get' set') ↔
      ((∀ value s, get (set' value s) = get s) ∧ ∀ value s, get' (set value s) = get' s) ∧
        key ≠ key' := by
  rw [RecordField.apart_iff]
  simp [field, and_assoc]

theorem RecordField.Apart.symm {f g : RecordField S} (h : f.Apart g) : g.Apart f :=
  ⟨h.right, h.left, h.keys.symm, h.rightKey, h.leftKey⟩

/-- The fields are independent and together make up the record. -/
structure Lawful (fields : List (RecordField S)) : Prop where
  get_set : ∀ f ∈ fields, ∀ value s, f.get (f.set value s) = value
  apart : fields.Pairwise RecordField.Apart
  ext : ∀ s s', (∀ f ∈ fields, f.get s = f.get s') → s = s'

variable {fields : List (RecordField S)} {t : Table} {position : Nat} {s c : S}

theorem RecordField.inTable_set_apart {f g : RecordField S} (h : f.Apart g) (value : g.Value) :
    f.inTable t (g.set value s) = f.inTable t s := by
  simp only [RecordField.inTable, h.left]

theorem readFields_get {f : RecordField S} (h : readFields (.map t) fields position s = some c)
    (apart : ∀ g ∈ fields, f.Apart g) : f.get c = f.get s := by
  induction fields generalizing position s with
  | nil => cases h; rfl
  | cons g fields ih =>
    obtain ⟨value, -, h⟩ := Option.bind_eq_some_iff.1 h
    rw [ih h (fun g hg => apart g (List.mem_cons_of_mem _ hg))]
    exact (apart g List.mem_cons_self).left value s

theorem readFields_inTable (get_set : ∀ f ∈ fields, ∀ value s, f.get (f.set value s) = value)
    (apart : fields.Pairwise RecordField.Apart) (h : readFields (.map t) fields position s = some c) :
    ∀ f ∈ fields, f.inTable t s = some (f.get c) := by
  induction fields generalizing position s with
  | nil => simp
  | cons g fields ih =>
    obtain ⟨value, hv, h⟩ := Option.bind_eq_some_iff.1 h
    have ha := List.pairwise_cons.1 apart
    intro f hf
    rcases List.mem_cons.1 hf with rfl | hf
    · rw [readFields_get h ha.1, get_set f List.mem_cons_self]
      exact hv
    · have later := ih (fun f hf => get_set f (List.mem_cons_of_mem _ hf)) ha.2 h f hf
      rwa [RecordField.inTable_set_apart (ha.1 f hf).symm] at later

theorem readFields_of_inTable (position : Nat)
    (get_set : ∀ f ∈ fields, ∀ value s, f.get (f.set value s) = value)
    (apart : fields.Pairwise RecordField.Apart)
    (h : ∀ f ∈ fields, f.inTable t s = some (f.get c)) :
    ∃ c', readFields (.map t) fields position s = some c' ∧ ∀ f ∈ fields, f.get c' = f.get c := by
  induction fields generalizing position s with
  | nil => exact ⟨s, rfl, by simp⟩
  | cons g fields ih =>
    have ha := List.pairwise_cons.1 apart
    have hg := h g List.mem_cons_self
    obtain ⟨c', hr, hc⟩ := ih (s := g.set (g.get c) s) (position + 1)
      (fun f hf => get_set f (List.mem_cons_of_mem _ hf)) ha.2 (fun f hf => by
        rw [RecordField.inTable_set_apart (ha.1 f hf).symm]
        exact h f (List.mem_cons_of_mem _ hf))
    refine ⟨c', Option.bind_eq_some_iff.2 ⟨g.get c, hg, hr⟩, ?_⟩
    intro f hf
    rcases List.mem_cons.1 hf with rfl | hf
    · rw [readFields_get hr ha.1, get_set f List.mem_cons_self]
    · exact hc f hf

/-- A table reads as `c` exactly when each field reads as its part of `c`. -/
theorem Lawful.readFields_eq_some (law : Lawful fields) :
    readFields (.map t) fields 0 s = some c ↔ ∀ f ∈ fields, f.inTable t s = some (f.get c) := by
  constructor
  · exact readFields_inTable law.get_set law.apart
  · intro h
    obtain ⟨c', hr, hc⟩ := readFields_of_inTable 0 law.get_set law.apart h
    rw [hr, law.ext c' c hc]

theorem Lawful.readFields_nil (law : Lawful fields) :
    readFields (.map []) fields 0 s = some s := by
  refine law.readFields_eq_some.2 (fun f _ => ?_)
  cases ha : f.alternative <;> simp [RecordField.inTable, get?, ha]

theorem Lawful.eq_or_apart (law : Lawful fields) {f g : RecordField S} (hf : f ∈ fields)
    (hg : g ∈ fields) : f = g ∨ f.Apart g := by
  by_cases h : f = g
  · exact .inl h
  · have : Std.Symm (RecordField.Apart (S := S)) := ⟨fun _ _ h => h.symm⟩
    exact .inr (law.apart.forall hf hg h)

end Record

end Toml
