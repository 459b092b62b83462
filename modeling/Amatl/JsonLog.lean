import Amatl.Lib.F64
import Amatl.Lib.JsonTree
import Amatl.Lib.OrdMap

/-! The log in JSON: a line for each event, with the values of sensitive fields and the spans of
dependencies left out. -/

namespace Amatl

open Json

/-- The shortest decimal text of a finite number. -/
class FloatText where
  text : ℚ → Number

/-- What a field of an event records. -/
inductive FieldValue where
  | debug (text : String)
  | str (text : String)
  | i64 (value : Int64)
  | u64 (value : UInt64)
  | bool (value : Bool)
  | f64 (value : F64)

structure LogSpan where
  target : String
  name : String
  fields : String
  deriving DecidableEq

/-- The scope begins at the root. -/
structure LogEvent where
  secs : Nat
  millis : Nat
  level : String
  target : String
  name : String
  fields : List (String × FieldValue)
  scope : List LogSpan

def natNumber (n : Nat) : Number where
  chars := Nat.toDigits 10 n
  nonempty := Nat.toDigits_ne_nil
  plain c mem := by
    simp [numberChar, Nat.isDigit_of_mem_toDigits (by decide) (by decide) mem]

def intNumber (n : Int) : Number :=
  if n < 0 then
    { chars := '-' :: (natNumber n.natAbs).chars
      nonempty := List.cons_ne_nil _ _
      plain := fun c mem => by
        rcases List.mem_cons.mp mem with rfl | digit
        · decide
        · exact (natNumber n.natAbs).plain c digit }
  else natNumber n.natAbs

def sensitiveLogField (name : String) : Bool :=
  ["api_key", "authorization", "cookie", "key", "password", "secret", "token"].contains
    (Text.asciiLowercase name)

def trustedLogTarget (target : String) : Bool :=
  target == "amatl" || Text.startsWith "amatl::" target || Text.startsWith "amatl_" target

def textTree (text : String) : Tree := .text text.toList

section

variable [FloatText]

def FieldValue.json : FieldValue → Tree
  | .debug text | .str text => textTree text
  | .i64 value => .number (intNumber value.toInt)
  | .u64 value => .number (natNumber value.toNat)
  | .bool value => .bool value
  | .f64 (.finite value) => .number (FloatText.text value)
  | .f64 _ => .null

/-- `JsonFieldVisitor`. -/
def recordValue (fields : List (String × Tree)) (field : String × FieldValue) :
    List (String × Tree) :=
  OrdMap.insert field.1
    (if sensitiveLogField field.1 then textTree "[redacted]" else field.2.json) fields

/-- What is written of an event. -/
structure LogRecord where
  ts : String
  level : String
  target : String
  msg : Tree
  context : List (String × Tree)
  spans : List (String × String)

def threeDigits (n : Nat) : String :=
  String.ofList (List.replicate (3 - (Nat.toDigits 10 n).length) '0') ++ toString n

def LogEvent.record (event : LogEvent) : LogRecord :=
  let fields := event.fields.foldl recordValue []
  { ts := toString event.secs ++ "." ++ threeDigits event.millis ++ "Z"
    level := event.level
    target := event.target
    msg := (OrdMap.get? "message" fields).getD (textTree event.name)
    context := OrdMap.erase "message" fields
    spans := (event.scope.filter (fun span => trustedLogTarget span.target)).map (fun span =>
      (span.name, span.fields)) }

omit [FloatText] in
/-- The keys of an object are in order. There are no spans where nothing was entered. -/
def LogRecord.tree (record : LogRecord) : Tree :=
  let spans := record.spans.map (fun span =>
    Tree.object [("fields".toList, textTree span.2), ("name".toList, textTree span.1)])
  .object ([("context".toList, .object (record.context.map (fun e => (e.1.toList, e.2)))),
      ("level".toList, textTree record.level), ("msg".toList, record.msg)] ++
    (if spans.isEmpty then [] else [("spans".toList, .array spans)]) ++
    [("target".toList, textTree record.target), ("ts".toList, textTree record.ts)])

/-- The events that pass the filters of the log. -/
def logged (filter : LogEvent → Bool) (events : List LogEvent) : List LogEvent :=
  events.filter (fun event => filter event && trustedLogTarget event.target)

def jsonLog (filter : LogEvent → Bool) (events : List LogEvent) : List Char :=
  writeLines ((logged filter events).map (fun event => event.record.tree))

omit [FloatText] in
theorem textTree_injective : Function.Injective textTree := by
  intro s t h
  exact String.toList_injective (Tree.text.inj h)

omit [FloatText] in
theorem LogRecord.tree_injective : Function.Injective LogRecord.tree := by
  intro r s h
  have pairs : Function.Injective (fun e : String × Tree => (e.1.toList, e.2)) := by
    intro e f same
    simp only [Prod.mk.injEq, String.toList_inj] at same
    exact Prod.ext same.1 same.2
  have spans : Function.Injective (fun span : String × String =>
      Tree.object [("fields".toList, textTree span.2), ("name".toList, textTree span.1)]) := by
    intro e f same
    simp only [Tree.object.injEq, List.cons.injEq, Prod.mk.injEq, true_and, and_true] at same
    exact Prod.ext (textTree_injective same.2) (textTree_injective same.1)
  obtain ⟨ts, level, target, msg, context, entered⟩ := r
  obtain ⟨ts', level', target', msg', context', entered'⟩ := s
  simp only [LogRecord.tree, Tree.object.injEq] at h
  obtain ⟨fields, rest⟩ := List.cons.inj h
  have sameContext : context = context' :=
    List.map_injective_iff.mpr pairs (by simpa using fields)
  obtain ⟨sameLevel, rest⟩ := List.cons.inj rest
  obtain ⟨sameMsg, rest⟩ := List.cons.inj rest
  have tails := List.append_inj' rest rfl
  have sameSpans : entered = entered' := by
    apply List.map_injective_iff.mpr spans
    cases entered <;> cases entered' <;> simp_all
  have ends := tails.2
  simp only [List.cons.injEq, Prod.mk.injEq, true_and, and_true] at ends sameLevel sameMsg
  rw [textTree_injective ends.1, textTree_injective ends.2, textTree_injective sameLevel, sameMsg,
    sameContext, sameSpans]

/-! What the log does not show. -/

/-- Events that differ in the values of sensitive fields, and in the spans of dependencies. -/
def Alike (event other : LogEvent) : Prop :=
  event.secs = other.secs ∧ event.millis = other.millis ∧ event.level = other.level ∧
    event.target = other.target ∧ event.name = other.name ∧
    List.Forall₂ (fun field field' : String × FieldValue =>
      field.1 = field'.1 ∧ (sensitiveLogField field.1 = false → field.2 = field'.2))
      event.fields other.fields ∧
    event.scope.filter (fun span => trustedLogTarget span.target) =
      other.scope.filter (fun span => trustedLogTarget span.target)

theorem recordValue_alike {fields : List (String × Tree)} {field field' : String × FieldValue}
    (name : field.1 = field'.1) (value : sensitiveLogField field.1 = false → field.2 = field'.2) :
    recordValue fields field = recordValue fields field' := by
  unfold recordValue
  rw [← name]
  split
  · rfl
  · rename_i shown
    rw [value (by simpa using shown)]

theorem foldl_recordValue_alike {fields fields' : List (String × FieldValue)}
    (each : List.Forall₂ (fun field field' : String × FieldValue =>
      field.1 = field'.1 ∧ (sensitiveLogField field.1 = false → field.2 = field'.2)) fields fields')
    (start : List (String × Tree)) :
    fields.foldl recordValue start = fields'.foldl recordValue start := by
  induction each generalizing start with
  | nil => rfl
  | cons first rest ih =>
    rw [List.foldl_cons, List.foldl_cons, recordValue_alike first.1 first.2, ih]

theorem Alike.record {event other : LogEvent} (alike : Alike event other) :
    event.record = other.record := by
  obtain ⟨secs, millis, level, target, name, fields, spans⟩ := alike
  have folded := foldl_recordValue_alike fields []
  simp only [LogEvent.record, secs, millis, level, target, name, folded, spans]

theorem map_record_alike {events others : List LogEvent}
    (each : List.Forall₂ Alike others events) :
    others.map LogEvent.record = events.map LogEvent.record := by
  induction each with
  | nil => rfl
  | cons first rest ih => rw [List.map_cons, List.map_cons, first.record, ih]

/-- A sensitive field is in the context of its event, and says nothing. -/
theorem get?_foldl_recordValue (fields : List (String × FieldValue)) (start : List (String × Tree))
    {name : String} (sensitive : sensitiveLogField name = true)
    (there : name ∈ fields.map Prod.fst ∨ OrdMap.get? name start = some (textTree "[redacted]")) :
    OrdMap.get? name (fields.foldl recordValue start) = some (textTree "[redacted]") := by
  induction fields generalizing start with
  | nil => exact there.resolve_left List.not_mem_nil
  | cons field fields ih =>
    rw [List.foldl_cons]
    apply ih
    by_cases here : name = field.1
    · right
      rw [recordValue, OrdMap.get?_insert, if_pos here, ← here, if_pos sensitive]
    · refine there.imp (fun mem => ?_) (fun before => ?_)
      · exact (List.mem_cons.mp mem).resolve_left here
      · rw [recordValue, OrdMap.get?_insert, if_neg here, before]

/-- The log is read back a line for each event, with nothing but the record of the event in it;
and the record does not depend on what a sensitive field holds or on the spans of dependencies. -/
theorem jsonLog_reads_back (filter : LogEvent → Bool) (events : List LogEvent) :
    Text.lines (jsonLog filter events) =
        (logged filter events).map (fun event => write event.record.tree) ∧
      (∀ others, jsonLog filter others = jsonLog filter events ↔
        (logged filter others).map LogEvent.record =
          (logged filter events).map LogEvent.record) ∧
      (∀ others, List.Forall₂ Alike (logged filter others) (logged filter events) →
        jsonLog filter others = jsonLog filter events) ∧
      ∀ event ∈ logged filter events, ∀ field ∈ event.fields,
        sensitiveLogField field.1 = true →
          OrdMap.get? field.1 event.record.context = some (textTree "[redacted]") := by
  have recorded : ∀ others, jsonLog filter others = jsonLog filter events ↔
      (logged filter others).map LogEvent.record = (logged filter events).map LogEvent.record := by
    intro others
    have split : ∀ events : List LogEvent, events.map (fun event => event.record.tree) =
        (events.map LogEvent.record).map LogRecord.tree := by
      intro events
      rw [List.map_map]
      rfl
    unfold jsonLog
    rw [writeLines_injective.eq_iff, split, split,
      (List.map_injective_iff.mpr LogRecord.tree_injective).eq_iff]
  refine ⟨?_, recorded, ?_, ?_⟩
  · rw [jsonLog, lines_writeLines, List.map_map]
    rfl
  · intro others alike
    exact (recorded others).mpr (map_record_alike alike)
  · intro event _ field mem sensitive
    have other : field.1 ≠ "message" := by
      intro same
      rw [same] at sensitive
      exact absurd sensitive (by decide)
    rw [LogEvent.record, OrdMap.get?_erase, if_neg other]
    exact get?_foldl_recordValue event.fields [] sensitive
      (.inl (List.mem_map_of_mem mem))

end

end Amatl
