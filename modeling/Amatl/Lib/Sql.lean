import Mathlib.Data.List.Nodup
import Mathlib.Logic.Function.Basic
import Mathlib.Tactic.SplitIfs

/-! A small database: tables with their columns and rows, indexes, a version number, and the
statements that a schema script is made of. -/

namespace Sql

inductive Value where
  | null
  | integer (value : Int)
  | real (bits : UInt64)
  | text (value : String)
  | blob (bytes : List UInt8)
  deriving DecidableEq, Repr

inductive Affinity where
  | integer | real | text
  deriving DecidableEq, Repr

/-- What a column makes of a value that it stores. -/
class Storing where
  store : Affinity → Value → Value
  store_store : ∀ affinity value, store affinity (store affinity value) = store affinity value
  store_null : ∀ affinity value, store affinity value = .null ↔ value = .null
  store_integer : ∀ value, store .integer (.integer value) = .integer value

structure Column where
  name : String
  affinity : Affinity
  notNull : Bool := false
  default : Value := .null
  deriving DecidableEq, Repr

structure Shape where
  columns : List Column
  key : List String
  distinct : (columns.map Column.name).Nodup := by decide
  keyed : ∀ name ∈ key, name ∈ columns.map Column.name := by decide
  deriving DecidableEq, Repr

def Shape.names (shape : Shape) : List String := shape.columns.map Column.name

theorem Shape.find?_name (shape : Shape) {column : Column} (mem : column ∈ shape.columns) :
    shape.columns.find? (fun other => other.name == column.name) = some column := by
  have found : (shape.columns.find? (fun other => other.name == column.name)).isSome := by
    rw [List.find?_isSome]
    exact ⟨column, mem, by simp⟩
  obtain ⟨other, hother⟩ := Option.isSome_iff_exists.mp found
  have named : other.name = column.name := by simpa using List.find?_some hother
  rw [hother, List.inj_on_of_nodup_map shape.distinct (List.mem_of_find?_eq_some hother) mem named]

/-- A column can be added if it is new and has a value for the rows that are there. -/
def Shape.Takes (shape : Shape) (column : Column) : Prop :=
  column.name ∉ shape.names ∧ (column.notNull = true → column.default ≠ .null)

instance (shape : Shape) (column : Column) : Decidable (shape.Takes column) :=
  inferInstanceAs (Decidable (_ ∧ _))

def Shape.withColumn (shape : Shape) (column : Column) (h : shape.Takes column) : Shape where
  columns := shape.columns ++ [column]
  key := shape.key
  distinct := by
    rw [List.map_append, List.nodup_append]
    refine ⟨shape.distinct, by simp, fun name mem other single => ?_⟩
    rintro rfl
    rw [List.map_singleton, List.mem_singleton] at single
    exact h.1 (single ▸ mem)
  keyed := by
    intro name mem
    rw [List.map_append]
    exact List.mem_append_left _ (shape.keyed name mem)

abbrev Row := String → Value

/-- Rows that differ in unique columns, where no null is like another. -/
def Apart (columns : List String) (a b : Row) : Prop :=
  columns ≠ [] → columns.map a = columns.map b → .null ∈ columns.map a

instance (columns : List String) (a b : Row) : Decidable (Apart columns a b) :=
  inferInstanceAs (Decidable (_ → _ → _))

theorem Apart.congr {columns : List String} {a b a' b' : Row}
    (left : ∀ name ∈ columns, a' name = a name) (right : ∀ name ∈ columns, b' name = b name)
    (h : Apart columns a b) : Apart columns a' b' := by
  unfold Apart at h ⊢
  rwa [List.map_congr_left left, List.map_congr_left right]

structure Index where
  name : String
  table : String
  columns : List String
  unique : Bool := false
  deriving DecidableEq, Repr

inductive Statement where
  | createTable (name : String) (ifNotExists : Bool) (shape : Shape)
  | dropTable (name : String) (ifExists : Bool)
  | renameTable (name new : String)
  | addColumn (name : String) (column : Column)
  | insertSelect (name source : String) (columns : List String)
  | insert (name : String) (values : List (String × Value))
  | deleteWhere (name column : String) (value : Value)
  | createIndex (ifNotExists : Bool) (index : Index)
  | dropIndex (name : String) (ifExists : Bool)
  | setUserVersion (version : Int)

section Tables

variable [Storing]

open Storing

def Column.Holds (column : Column) (value : Value) : Prop :=
  store column.affinity value = value ∧ (column.notNull = true → value ≠ .null)

structure Table where
  shape : Shape
  rows : List Row
  holds : ∀ row ∈ rows, ∀ column ∈ shape.columns, column.Holds (row column.name)
  apart : rows.Pairwise (Apart shape.key)

def Table.empty (shape : Shape) : Table := ⟨shape, [], nofun, .nil⟩

/-- A row as it is stored: the columns that are given with their values, the others with their
defaults. -/
def Shape.stored (shape : Shape) (columns : List String) (row : Row) : Row := fun name =>
  match shape.columns.find? (fun column => column.name == name) with
  | some column =>
    store column.affinity (if columns.contains name then row name else column.default)
  | none => .null

theorem Shape.stored_name (shape : Shape) {column : Column} (mem : column ∈ shape.columns)
    (columns : List String) (row : Row) :
    shape.stored columns row column.name = store column.affinity
      (if columns.contains column.name then row column.name else column.default) := by
  rw [Shape.stored, shape.find?_name mem]

/-- A stored row that meets the constraints of the table. -/
structure Table.Accepts (table : Table) (uniques : List (List String)) (new : Row) : Prop where
  notNull : ∀ column ∈ table.shape.columns, column.notNull = true → new column.name ≠ .null
  key : ∀ other ∈ table.rows, Apart table.shape.key other new
  unique : ∀ unique ∈ uniques, ∀ other ∈ table.rows, Apart unique other new

instance (table : Table) (uniques : List (List String)) (new : Row) :
    Decidable (table.Accepts uniques new) :=
  decidable_of_iff ((∀ column ∈ table.shape.columns, column.notNull = true →
      new column.name ≠ .null) ∧ (∀ other ∈ table.rows, Apart table.shape.key other new) ∧
      ∀ unique ∈ uniques, ∀ other ∈ table.rows, Apart unique other new)
    ⟨fun h => ⟨h.1, h.2.1, h.2.2⟩, fun h => ⟨h.notNull, h.key, h.unique⟩⟩

def Table.push (table : Table) {uniques : List (List String)} (columns : List String) (row : Row)
    (h : table.Accepts uniques (table.shape.stored columns row)) : Table where
  shape := table.shape
  rows := table.rows ++ [table.shape.stored columns row]
  holds := by
    intro other mem column there
    rcases List.mem_append.mp mem with old | added
    · exact table.holds other old column there
    · rw [List.mem_singleton.mp added]
      refine ⟨?_, h.notNull column there⟩
      rw [table.shape.stored_name there, store_store]
  apart := by
    rw [List.pairwise_append]
    refine ⟨table.apart, List.pairwise_singleton _ _, fun other mem added single => ?_⟩
    rw [List.mem_singleton.mp single]
    exact h.key other mem

def Table.insert (table : Table) (uniques : List (List String)) (columns : List String)
    (row : Row) : Option Table :=
  if h : table.Accepts uniques (table.shape.stored columns row) then
    some (table.push columns row h)
  else none

def Table.insertAll (table : Table) (uniques : List (List String)) (columns : List String)
    (rows : List Row) : Option Table :=
  rows.foldlM (fun table row => table.insert uniques columns row) table

def Table.deleteWhere (table : Table) (column : String) (value : Value) : Table where
  shape := table.shape
  rows := table.rows.filter (fun row => !(row column == value && value != .null))
  holds := fun row mem => table.holds row (List.mem_of_mem_filter mem)
  apart := table.apart.filter _

def Table.addColumn (table : Table) (column : Column) : Option Table :=
  if h : table.shape.Takes column then
    some {
      shape := table.shape.withColumn column h
      rows := table.rows.map (fun row =>
        Function.update row column.name (store column.affinity column.default))
      holds := by
        intro row mem other there
        obtain ⟨old, hold, rfl⟩ := List.mem_map.mp mem
        rcases List.mem_append.mp there with before | added
        · have apart : other.name ≠ column.name := by
            intro same
            exact h.1 (same ▸ List.mem_map_of_mem before)
          rw [Function.update_of_ne apart]
          exact table.holds old hold other before
        · rw [List.mem_singleton.mp added, Function.update_self]
          exact ⟨store_store _ _, fun required null =>
            h.2 required ((store_null column.affinity column.default).mp null)⟩
      apart := by
        have same : ∀ row : Row, table.shape.key.map (Function.update row column.name
            (store column.affinity column.default)) = table.shape.key.map row := by
          intro row
          apply List.map_congr_left
          intro name mem
          apply Function.update_of_ne
          rintro rfl
          exact h.1 (table.shape.keyed _ mem)
        rw [List.pairwise_map]
        refine table.apart.imp (fun {a b} apart nonempty equal => ?_)
        change List.map _ table.shape.key = List.map _ table.shape.key at equal
        change Value.null ∈ List.map _ table.shape.key
        rw [same a, same b] at equal
        rw [same a]
        exact apart nonempty equal }
  else none

theorem rows_addColumn {table wider : Table} {column : Column}
    (h : table.addColumn column = some wider) :
    wider.rows = table.rows.map (fun row =>
      Function.update row column.name (store column.affinity column.default)) := by
  unfold Table.addColumn at h
  split at h
  · cases h
    rfl
  · cases h

structure Database where
  tables : String → Option Table
  indexes : List Index
  userVersion : Int

def Database.setTable (db : Database) (name : String) (table : Option Table) : Database :=
  { db with tables := Function.update db.tables name table }

/-- The columns of a table that unique indexes are on. -/
def Database.uniques (db : Database) (name : String) : List (List String) :=
  (db.indexes.filter (fun index => index.table == name && index.unique)).map Index.columns

def Database.hasIndex (db : Database) (name : String) : Bool :=
  db.indexes.any (fun index => index.name == name)

def Database.exec (db : Database) : Statement → Option Database
  | .createTable name ifNotExists shape =>
    if (db.tables name).isSome then if ifNotExists then some db else none
    else if db.hasIndex name then none
    else some (db.setTable name (some (Table.empty shape)))
  | .dropTable name ifExists =>
    if (db.tables name).isSome || ifExists then
      some { db.setTable name none with
        indexes := db.indexes.filter (fun index => index.table != name) }
    else none
  | .renameTable name new =>
    if (db.tables name).isSome && (db.tables new).isNone && !db.hasIndex new then
      some { (db.setTable name none).setTable new (db.tables name) with
        indexes := db.indexes.map (fun index =>
          if index.table = name then { index with table := new } else index) }
    else none
  | .addColumn name column => do
    let table ← db.tables name
    let table ← table.addColumn column
    some (db.setTable name (some table))
  | .insertSelect name source columns => do
    let table ← db.tables name
    let source ← db.tables source
    if columns.all (table.shape.names.contains ·) && columns.all (source.shape.names.contains ·) then
      let table ← table.insertAll (db.uniques name) columns source.rows
      some (db.setTable name (some table))
    else none
  | .insert name values => do
    let table ← db.tables name
    if values.all (fun value => table.shape.names.contains value.1) then
      let table ← table.insert (db.uniques name) (values.map Prod.fst)
        (fun column => (values.lookup column).getD .null)
      some (db.setTable name (some table))
    else none
  | .deleteWhere name column value => do
    let table ← db.tables name
    if table.shape.names.contains column then
      some (db.setTable name (some (table.deleteWhere column value)))
    else none
  | .createIndex ifNotExists index =>
    if db.hasIndex index.name then if ifNotExists then some db else none
    else do
      let table ← db.tables index.table
      if (db.tables index.name).isNone && index.columns.all (table.shape.names.contains ·) &&
          (!index.unique || decide (table.rows.Pairwise (Apart index.columns))) then
        some { db with indexes := db.indexes ++ [index] }
      else none
  | .dropIndex name ifExists =>
    if db.hasIndex name || ifExists then
      some { db with indexes := db.indexes.filter (fun index => index.name != name) }
    else none
  | .setUserVersion version => some { db with userVersion := version }

def Database.run (db : Database) (script : List Statement) : Option Database :=
  script.foldlM Database.exec db

/-! What a statement does to the shapes of the tables, the indexes and the version, whatever rows
there are. -/

abbrev Catalog := String → Option Shape

def Database.catalog (db : Database) : Catalog := fun name => (db.tables name).map Table.shape

def Statement.reshape (c : Catalog) : Statement → Catalog
  | .createTable name _ shape => if (c name).isSome then c else Function.update c name (some shape)
  | .dropTable name _ => Function.update c name none
  | .renameTable name new => Function.update (Function.update c name none) new (c name)
  | .addColumn name column => Function.update c name ((c name).bind (fun shape =>
      if h : shape.Takes column then some (shape.withColumn column h) else none))
  | _ => c

def Statement.touched : Statement → List String
  | .createTable name _ _ | .dropTable name _ | .addColumn name _ | .insertSelect name _ _
  | .insert name _ | .deleteWhere name _ _ => [name]
  | .renameTable name new => [name, new]
  | _ => []

/-- The statement makes no index but those that are known. -/
def Statement.within (known : List Index) : Statement → Bool
  | .createIndex _ index => known.contains index
  | .renameTable name _ => known.all (fun index => index.table != name)
  | _ => true

def Statement.versionAfter (version : Int) : Statement → Int
  | .setUserVersion new => new
  | _ => version

def Database.Within (db : Database) (known : List Index) : Prop :=
  ∀ index ∈ db.indexes, index ∈ known

/-- What can be said of a statement that succeeds. -/
structure Effect (db : Database) (s : Statement) (after : Database) : Prop where
  catalog : after.catalog = s.reshape db.catalog
  version : after.userVersion = s.versionAfter db.userVersion
  frame : ∀ name ∉ s.touched, after.tables name = db.tables name
  indexes : ∀ known, db.Within known → s.within known = true → after.Within known

theorem catalog_setTable (db : Database) (name : String) (table : Option Table) :
    (db.setTable name table).catalog = Function.update db.catalog name (table.map Table.shape) := by
  funext other
  change Option.map Table.shape (Function.update db.tables name table other) = _
  by_cases same : other = name
  · rw [same, Function.update_self, Function.update_self]
  · rw [Function.update_of_ne same, Function.update_of_ne same]
    rfl

theorem catalog_setTable_same {db : Database} {name : String} {table new : Table}
    (found : db.tables name = some table) (same : new.shape = table.shape) :
    (db.setTable name (some new)).catalog = db.catalog := by
  rw [catalog_setTable, Function.update_eq_self_iff]
  simp [Database.catalog, found, same]

theorem setTable_of_ne (db : Database) {name other : String} (table : Option Table)
    (h : other ∉ [name]) : (db.setTable name table).tables other = db.tables other :=
  Function.update_of_ne (by simpa using h) _ _

theorem shape_insert {table new : Table} {uniques : List (List String)} {columns : List String}
    {row : Row} (h : table.insert uniques columns row = some new) : new.shape = table.shape := by
  unfold Table.insert at h
  split at h
  · cases h
    rfl
  · cases h

theorem shape_insertAll {uniques : List (List String)} {columns : List String} {rows : List Row}
    {table new : Table} (h : table.insertAll uniques columns rows = some new) :
    new.shape = table.shape := by
  unfold Table.insertAll at h
  induction rows generalizing table with
  | nil =>
    cases h
    rfl
  | cons row rows ih =>
    rw [List.foldlM_cons] at h
    obtain ⟨next, inserted, later⟩ := Option.bind_eq_some_iff.mp h
    rw [ih later, shape_insert inserted]

theorem exec_effect {db after : Database} {s : Statement} (h : db.exec s = some after) :
    Effect db s after := by
  cases s with
  | createTable name ifNotExists shape =>
    rw [Database.exec] at h
    by_cases there : (db.tables name).isSome = true
    · have found : (db.catalog name).isSome = true := by simpa [Database.catalog] using there
      rw [if_pos there] at h
      split at h
      · cases h
        exact ⟨by rw [Statement.reshape, if_pos found], rfl, fun _ _ => rfl, fun _ known _ => known⟩
      · cases h
    · have missing : ¬(db.catalog name).isSome = true := by simpa [Database.catalog] using there
      rw [if_neg there] at h
      split at h
      · cases h
      · cases h
        refine ⟨?_, rfl, fun other => setTable_of_ne db _, fun _ known _ => known⟩
        rw [Statement.reshape, if_neg missing, catalog_setTable]
        rfl
  | dropTable name ifExists =>
    rw [Database.exec] at h
    split at h
    · cases h
      refine ⟨catalog_setTable db name none, rfl, fun other => setTable_of_ne db _, ?_⟩
      intro known old _ index mem
      exact old index (List.mem_of_mem_filter mem)
    · cases h
  | renameTable name new =>
    rw [Database.exec] at h
    split at h
    · cases h
      refine ⟨?_, rfl, ?_, ?_⟩
      · have moved := catalog_setTable (db.setTable name none) new (db.tables name)
        rw [catalog_setTable db name none] at moved
        exact moved
      · intro other untouched
        rw [Statement.touched, List.mem_cons, not_or] at untouched
        have first := setTable_of_ne (db.setTable name none) (db.tables name) untouched.2
        exact first.trans (setTable_of_ne db none (by simpa using untouched.1))
      · intro known old within index mem
        obtain ⟨before, hbefore, rfl⟩ := List.mem_map.mp mem
        simp only [Statement.within, List.all_eq_true, bne_iff_ne] at within
        have elsewhere := within before (old before hbefore)
        rw [if_neg elsewhere]
        exact old before hbefore
    · cases h
  | addColumn name column =>
    simp only [Database.exec, Option.bind_eq_bind, Option.bind_eq_some_iff, Option.some.injEq] at h
    obtain ⟨table, found, new, added, rfl⟩ := h
    refine ⟨?_, rfl, fun other => setTable_of_ne db _, fun _ known _ => known⟩
    rw [catalog_setTable, Statement.reshape]
    congr 1
    unfold Table.addColumn at added
    split at added
    · rename_i takes
      cases added
      simp [Database.catalog, found, takes]
    · cases added
  | insertSelect name source columns =>
    simp only [Database.exec, Option.bind_eq_bind, Option.bind_eq_some_iff] at h
    obtain ⟨table, found, origin, -, h⟩ := h
    split at h
    · obtain ⟨new, inserted, h⟩ := Option.bind_eq_some_iff.mp h
      cases h
      exact ⟨catalog_setTable_same found (shape_insertAll inserted), rfl,
        fun other => setTable_of_ne db _, fun _ known _ => known⟩
    · cases h
  | insert name values =>
    simp only [Database.exec, Option.bind_eq_bind, Option.bind_eq_some_iff] at h
    obtain ⟨table, found, h⟩ := h
    split at h
    · obtain ⟨new, inserted, h⟩ := Option.bind_eq_some_iff.mp h
      cases h
      exact ⟨catalog_setTable_same found (shape_insert inserted), rfl,
        fun other => setTable_of_ne db _, fun _ known _ => known⟩
    · cases h
  | deleteWhere name column value =>
    simp only [Database.exec, Option.bind_eq_bind, Option.bind_eq_some_iff] at h
    obtain ⟨table, found, h⟩ := h
    split at h
    · cases h
      exact ⟨catalog_setTable_same found rfl, rfl, fun other => setTable_of_ne db _,
        fun _ known _ => known⟩
    · cases h
  | createIndex ifNotExists index =>
    rw [Database.exec] at h
    split at h
    · split at h
      · cases h
        exact ⟨rfl, rfl, fun _ _ => rfl, fun _ known _ => known⟩
      · cases h
    · simp only [Option.bind_eq_bind, Option.bind_eq_some_iff] at h
      obtain ⟨table, -, h⟩ := h
      split at h
      · cases h
        refine ⟨rfl, rfl, fun _ _ => rfl, ?_⟩
        intro known old within other mem
        rcases List.mem_append.mp mem with before | added
        · exact old other before
        · rw [List.mem_singleton.mp added]
          simpa [Statement.within] using within
      · cases h
  | dropIndex name ifExists =>
    rw [Database.exec] at h
    split at h
    · cases h
      exact ⟨rfl, rfl, fun _ _ => rfl,
        fun known old _ index mem => old index (List.mem_of_mem_filter mem)⟩
    · cases h
  | setUserVersion version =>
    cases h
    exact ⟨rfl, rfl, fun _ _ => rfl, fun _ known _ => known⟩

/-! A script, statement by statement. -/

theorem run_cons {db after : Database} {s : Statement} {script : List Statement}
    (h : db.exec s = some after) : db.run (s :: script) = after.run script := by
  rw [Database.run, List.foldlM_cons, h]
  rfl

theorem run_append {db after : Database} {first : List Statement} (h : db.run first = some after)
    (second : List Statement) : db.run (first ++ second) = after.run second := by
  unfold Database.run at h ⊢
  rw [List.foldlM_append, h]
  rfl

def reshapeAll (c : Catalog) (script : List Statement) : Catalog :=
  script.foldl (fun c s => s.reshape c) c

omit [Storing] in
theorem reshape_untouched {s : Statement} {name : String} (c : Catalog) (h : name ∉ s.touched) :
    s.reshape c name = c name := by
  cases s with
  | createTable other ifNotExists shape =>
    rw [Statement.reshape]
    split
    · rfl
    · exact Function.update_of_ne (by simpa [Statement.touched] using h) _ _
  | dropTable other ifExists =>
    exact Function.update_of_ne (by simpa [Statement.touched] using h) _ _
  | renameTable other new =>
    simp only [Statement.touched, List.mem_cons, List.not_mem_nil, or_false, not_or] at h
    exact (Function.update_of_ne h.2 _ _).trans (Function.update_of_ne h.1 _ _)
  | addColumn other column =>
    exact Function.update_of_ne (by simpa [Statement.touched] using h) _ _
  | _ => rfl

omit [Storing] in
theorem reshapeAll_untouched {script : List Statement} {name : String} (c : Catalog)
    (h : ∀ s ∈ script, name ∉ s.touched) : reshapeAll c script name = c name := by
  unfold reshapeAll
  induction script generalizing c with
  | nil => rfl
  | cons s script ih =>
    rw [List.foldl_cons, ih _ (fun s mem => h s (List.mem_cons_of_mem _ mem)),
      reshape_untouched c (h s List.mem_cons_self)]

def touchedNames (script : List Statement) : List String := script.flatMap Statement.touched

omit [Storing] in
theorem not_touched {script : List Statement} {name : String} (h : name ∉ touchedNames script) :
    ∀ s ∈ script, name ∉ s.touched :=
  fun s mem touched => h (List.mem_flatMap.mpr ⟨s, mem, touched⟩)

omit [Storing] in
/-- A script undoes another if it does so at the tables that one of them touches. -/
theorem reshapeAll_undo {c : Catalog} {up down : List Statement}
    (check : (touchedNames up ++ touchedNames down).all (fun name =>
      reshapeAll (reshapeAll c up) down name == c name) = true) :
    reshapeAll (reshapeAll c up) down = c := by
  funext name
  by_cases touched : name ∈ touchedNames up ++ touchedNames down
  · simpa using List.all_eq_true.mp check name touched
  · rw [List.mem_append, not_or] at touched
    rw [reshapeAll_untouched _ (not_touched touched.2),
      reshapeAll_untouched _ (not_touched touched.1)]

structure ScriptEffect (db : Database) (script : List Statement) (after : Database) : Prop where
  catalog : after.catalog = reshapeAll db.catalog script
  version : after.userVersion = script.foldl Statement.versionAfter db.userVersion
  frame : ∀ name, (∀ s ∈ script, name ∉ s.touched) → after.tables name = db.tables name
  indexes : ∀ known, db.Within known → (∀ s ∈ script, s.within known = true) → after.Within known

theorem run_effect {db after : Database} {script : List Statement}
    (h : db.run script = some after) : ScriptEffect db script after := by
  induction script generalizing db with
  | nil =>
    cases h
    exact ⟨rfl, rfl, fun _ _ => rfl, fun _ known _ => known⟩
  | cons s script ih =>
    rw [Database.run, List.foldlM_cons] at h
    obtain ⟨next, first, later⟩ := Option.bind_eq_some_iff.mp h
    have now := exec_effect first
    have then' := ih later
    refine ⟨?_, ?_, ?_, ?_⟩
    · rw [then'.catalog, now.catalog]
      rfl
    · rw [then'.version, now.version]
      rfl
    · intro name untouched
      rw [then'.frame name (fun s mem => untouched s (List.mem_cons_of_mem _ mem)),
        now.frame name (untouched s List.mem_cons_self)]
    · intro known old within
      exact then'.indexes known (now.indexes known old (within s List.mem_cons_self))
        (fun s mem => within s (List.mem_cons_of_mem _ mem))

/-- Statements that succeed on tables of the given shapes, whatever rows they hold. Only of the
fresh tables it is known that they hold none. -/
def Statement.fits (known : List Index) (fresh : List String) (c : Catalog) : Statement → Bool
  | .createTable name ifNotExists _ =>
    ((c name).isNone || ifNotExists) && known.all (fun index => index.name != name)
  | .dropTable name ifExists => (c name).isSome || ifExists
  | .renameTable name new =>
    (c name).isSome && (c new).isNone && known.all (fun index => index.name != new)
  | .addColumn name column => (c name).any (fun shape => shape.Takes column)
  | .deleteWhere name column _ => (c name).any (fun shape => shape.names.contains column)
  | .createIndex ifNotExists index =>
    ifNotExists && (!index.unique || fresh.contains index.table) && (c index.name).isNone &&
      (c index.table).any (fun shape => index.columns.all (shape.names.contains ·))
  | .dropIndex _ ifExists => ifExists
  | .setUserVersion _ => true
  | .insertSelect _ _ _ | .insert _ _ => false

theorem hasIndex_false {db : Database} {known : List Index} {name : String} (h : db.Within known)
    (other : known.all (fun index => index.name != name) = true) : db.hasIndex name = false := by
  rw [Database.hasIndex, List.any_eq_false]
  intro index mem
  simpa using List.all_eq_true.mp other index (h index mem)

def Database.Fresh (db : Database) (fresh : List String) : Prop :=
  ∀ name ∈ fresh, ∀ table, db.tables name = some table → table.rows = []

theorem fresh_nil (db : Database) : db.Fresh [] :=
  fun _ mem => absurd mem List.not_mem_nil

theorem exec_of_fits {db : Database} {known : List Index} {fresh : List String} {s : Statement}
    (h : db.Within known) (new : db.Fresh fresh) (fits : s.fits known fresh db.catalog = true) :
    ∃ after, db.exec s = some after := by
  have found : ∀ {name : String} {p : Shape → Bool}, (db.catalog name).any p = true →
      ∃ table, db.tables name = some table ∧ p table.shape = true := by
    intro name p holds
    cases there : db.tables name with
    | none => simp [Database.catalog, there] at holds
    | some table => exact ⟨table, rfl, by simpa [Database.catalog, there] using holds⟩
  have isSome : ∀ name, (db.catalog name).isSome = (db.tables name).isSome := by
    simp [Database.catalog]
  have isNone : ∀ name, (db.catalog name).isNone = (db.tables name).isNone := by
    simp [Database.catalog]
  cases s with
  | createTable name ifNotExists shape =>
    simp only [Statement.fits, Bool.and_eq_true, isNone] at fits
    have free := hasIndex_false h fits.2
    rw [Database.exec, free]
    by_cases there : (db.tables name).isSome = true
    · have twice : ifNotExists = true := by
        have either := fits.1
        cases table : db.tables name with
        | none => simp [table] at there
        | some _ => simpa [table] using either
      exact ⟨db, by simp [there, twice]⟩
    · exact ⟨_, by rw [if_neg there, if_neg Bool.false_ne_true]⟩
  | dropTable name ifExists =>
    rw [Statement.fits, isSome] at fits
    exact ⟨_, if_pos fits⟩
  | renameTable name new =>
    simp only [Statement.fits, Bool.and_eq_true, isSome, isNone] at fits
    have free := hasIndex_false h fits.2
    exact ⟨_, if_pos (by simp [fits.1, free])⟩
  | addColumn name column =>
    obtain ⟨table, there, takes⟩ := found fits
    have added : table.addColumn column = some _ := dif_pos (by simpa using takes)
    exact ⟨_, by rw [Database.exec, there, Option.bind_eq_bind, Option.bind_some, added]; rfl⟩
  | deleteWhere name column value =>
    obtain ⟨table, there, known⟩ := found fits
    refine ⟨db.setTable name (some (table.deleteWhere column value)), ?_⟩
    rw [Database.exec, there, Option.bind_eq_bind, Option.bind_some, if_pos known]
  | createIndex ifNotExists index =>
    simp only [Statement.fits, Bool.and_eq_true, isNone] at fits
    obtain ⟨⟨⟨twice, plain⟩, free⟩, columns⟩ := fits
    obtain ⟨table, there, named⟩ := found columns
    by_cases old : db.hasIndex index.name = true
    · exact ⟨db, by simp [Database.exec, old, twice]⟩
    · refine ⟨{ db with indexes := db.indexes ++ [index] }, ?_⟩
      have apart : (!index.unique || decide (table.rows.Pairwise (Apart index.columns))) = true := by
        rcases Bool.or_eq_true_iff.mp plain with several | empty
        · rw [several, Bool.true_or]
        · have none := new index.table (by simpa using empty) table there
          rw [none, decide_eq_true List.Pairwise.nil, Bool.or_true]
      rw [Database.exec, if_neg old, there, Option.bind_eq_bind, Option.bind_some, free, named,
        apart]
      rfl
  | dropIndex name ifExists =>
    exact ⟨_, if_pos (by rw [show ifExists = true from fits, Bool.or_true])⟩
  | setUserVersion version => exact ⟨_, rfl⟩
  | insertSelect name source columns => cases fits
  | insert name values => cases fits

def Statement.freshAfter (fresh : List String) (c : Catalog) : Statement → List String
  | .createTable name _ _ => if (c name).isNone then name :: fresh else fresh
  | .renameTable _ _ | .insertSelect _ _ _ | .insert _ _ => []
  | _ => fresh

theorem exec_fresh {db after : Database} {fresh : List String} {s : Statement}
    (h : db.Fresh fresh) (exec : db.exec s = some after) :
    after.Fresh (s.freshAfter fresh db.catalog) := by
  have effect := exec_effect exec
  have others : ∀ name ∉ s.touched, ∀ table, name ∈ fresh → after.tables name = some table →
      table.rows = [] :=
    fun name untouched table mem found =>
      h name mem table ((effect.frame name untouched).symm.trans found)
  cases s with
  | createTable name ifNotExists shape =>
    rw [Database.exec] at exec
    intro other mem table found
    by_cases there : (db.tables name).isSome = true
    · have listed : (db.catalog name).isNone = false := by simpa [Database.catalog] using there
      rw [Statement.freshAfter, listed, if_neg Bool.false_ne_true] at mem
      rw [if_pos there] at exec
      split at exec
      · cases exec
        exact h other mem table found
      · cases exec
    · rw [if_neg there] at exec
      split at exec
      · cases exec
      · cases exec
        by_cases same : other = name
        · subst same
          have made := (Function.update_self _ _ _).symm.trans found
          cases made
          rfl
        · refine others other (by simpa [Statement.touched] using same) table ?_ found
          rw [Statement.freshAfter] at mem
          split at mem
          · exact (List.mem_cons.mp mem).resolve_left same
          · exact mem
  | dropTable name ifExists =>
    intro other mem table found
    by_cases same : other = name
    · rw [Database.exec] at exec
      split at exec
      · cases exec
        subst same
        cases (Function.update_self _ _ _).symm.trans found
      · cases exec
    · exact others other (by simpa [Statement.touched] using same) table mem found
  | addColumn name column =>
    intro other mem table found
    by_cases same : other = name
    · simp only [Database.exec, Option.bind_eq_bind, Option.bind_eq_some_iff,
        Option.some.injEq] at exec
      obtain ⟨old, hold, wider, added, rfl⟩ := exec
      subst same
      cases (Function.update_self _ _ _).symm.trans found
      rw [rows_addColumn added, h other mem old hold]
      rfl
    · exact others other (by simpa [Statement.touched] using same) table mem found
  | deleteWhere name column value =>
    intro other mem table found
    by_cases same : other = name
    · simp only [Database.exec, Option.bind_eq_bind, Option.bind_eq_some_iff] at exec
      obtain ⟨old, hold, exec⟩ := exec
      split at exec
      · cases exec
        subst same
        cases (Function.update_self _ _ _).symm.trans found
        change old.rows.filter _ = []
        rw [h other mem old hold]
        rfl
      · cases exec
    · exact others other (by simpa [Statement.touched] using same) table mem found
  | createIndex ifNotExists index => exact fun name mem table => others name nofun table mem
  | dropIndex name ifExists => exact fun name mem table => others name nofun table mem
  | setUserVersion version => exact fun name mem table => others name nofun table mem
  | renameTable name new => nofun
  | insertSelect name source columns => nofun
  | insert name values => nofun

def fitsAll (known : List Index) : List String → Catalog → List Statement → Bool
  | _, _, [] => true
  | fresh, c, s :: script => s.fits known fresh c && s.within known &&
    fitsAll known (s.freshAfter fresh c) (s.reshape c) script

theorem run_of_fits {db : Database} {known : List Index} {fresh : List String}
    {script : List Statement} (h : db.Within known) (new : db.Fresh fresh)
    (fits : fitsAll known fresh db.catalog script = true) : ∃ after, db.run script = some after := by
  induction script generalizing db fresh with
  | nil => exact ⟨db, rfl⟩
  | cons s script ih =>
    simp only [fitsAll, Bool.and_eq_true] at fits
    obtain ⟨next, first⟩ := exec_of_fits h new fits.1.1
    have effect := exec_effect first
    have later := fits.2
    rw [← effect.catalog] at later
    obtain ⟨after, rest⟩ := ih (effect.indexes known h fits.1.2) (exec_fresh new first) later
    exact ⟨after, by rw [run_cons first, rest]⟩

/-! Rows that stay. -/

def restrict (columns : List String) (row : Row) : Row := fun name =>
  if columns.contains name then row name else .null

def Table.project (table : Table) (columns : List String) : List Row :=
  table.rows.map (restrict columns)

/-- The table is still there, and its rows agree in the columns. -/
def Keeps (name : String) (columns : List String) (before after : Database) : Prop :=
  ∃ old new, before.tables name = some old ∧ after.tables name = some new ∧
    new.project columns = old.project columns

theorem Keeps.trans {name : String} {columns : List String} {a b c : Database}
    (first : Keeps name columns a b) (second : Keeps name columns b c) :
    Keeps name columns a c := by
  obtain ⟨old, middle, hold, hmiddle, rows⟩ := first
  obtain ⟨middle', new, hmiddle', hnew, later⟩ := second
  rw [hmiddle, Option.some.injEq] at hmiddle'
  subst hmiddle'
  exact ⟨old, new, hold, hnew, later.trans rows⟩

theorem Keeps.mono {name : String} {columns fewer : List String} {a b : Database}
    (h : Keeps name columns a b) (sub : ∀ column ∈ fewer, column ∈ columns) :
    Keeps name fewer a b := by
  obtain ⟨old, new, hold, hnew, rows⟩ := h
  refine ⟨old, new, hold, hnew, ?_⟩
  have twice : ∀ row, restrict fewer (restrict columns row) = restrict fewer row := by
    intro row
    funext column
    by_cases mem : column ∈ fewer
    · simp [restrict, mem, sub column mem]
    · simp [restrict, mem]
  have through : ∀ table : Table,
      table.project fewer = (table.project columns).map (restrict fewer) := by
    intro table
    rw [Table.project, Table.project, List.map_map]
    apply List.map_congr_left
    intro row _
    exact (twice row).symm
  rw [through, through, rows]

theorem keeps_of_eq {name : String} (columns : List String) {a b : Database} {table : Table}
    (found : a.tables name = some table) (same : b.tables name = a.tables name) :
    Keeps name columns a b :=
  ⟨table, table, found, same.trans found, rfl⟩

theorem keeps_addColumn {name : String} {columns : List String} {a b : Database}
    {column : Column} (new : column.name ∉ columns)
    (h : a.exec (.addColumn name column) = some b) : Keeps name columns a b := by
  simp only [Database.exec, Option.bind_eq_bind, Option.bind_eq_some_iff, Option.some.injEq] at h
  obtain ⟨old, hold, wider, added, rfl⟩ := h
  refine ⟨old, wider, hold, Function.update_self _ _ _, ?_⟩
  rw [Table.project, Table.project, rows_addColumn added, List.map_map]
  apply List.map_congr_left
  intro row _
  funext name
  by_cases mem : name ∈ columns
  · have other : name ≠ column.name := by
      rintro rfl
      exact new mem
    simp [restrict, mem, Function.update_of_ne other]
  · simp [restrict, mem]

/-- The statement leaves the rows of a table alone, or adds a column that is not asked for. -/
def Statement.keeps (name : String) (columns : List String) : Statement → Bool
  | .addColumn other column => other != name || !columns.contains column.name
  | s => !s.touched.contains name

theorem keeps_run {name : String} {columns : List String} {script : List Statement}
    {db after : Database} (found : (db.tables name).isSome) (h : db.run script = some after)
    (check : script.all (fun s => s.keeps name columns) = true) : Keeps name columns db after := by
  obtain ⟨table, there⟩ := Option.isSome_iff_exists.mp found
  induction script generalizing db table with
  | nil =>
    cases h
    exact keeps_of_eq columns there rfl
  | cons s script ih =>
    rw [Database.run, List.foldlM_cons] at h
    obtain ⟨next, first, later⟩ := Option.bind_eq_some_iff.mp h
    rw [List.all_cons, Bool.and_eq_true] at check
    have stays : Keeps name columns db next := by
      have frame : name ∉ s.touched → Keeps name columns db next :=
        fun untouched => keeps_of_eq columns there ((exec_effect first).frame name untouched)
      cases s with
      | addColumn other column =>
        by_cases same : other = name
        · subst same
          exact keeps_addColumn (by simpa [Statement.keeps] using check.1) first
        · exact frame (by simpa [Statement.touched] using Ne.symm same)
      | _ => exact frame (by simpa [Statement.keeps] using check.1)
    obtain ⟨-, new, -, hnew, -⟩ := id stays
    exact stays.trans (ih (by rw [hnew]; rfl) later check.2 new hnew)

/-- The tables of the shapes keep their rows, those of one name apart. -/
def keepsTables (c : Catalog) (apart : List String) (script : List Statement) : Bool :=
  (touchedNames script).all (fun name => apart.contains name ||
    (c name).all (fun shape => script.all (fun s => s.keeps name shape.names)))

theorem keeps_of_keepsTables {c : Catalog} {apart : List String} {script : List Statement}
    {db after : Database} (h : db.run script = some after)
    (check : keepsTables c apart script = true) {name : String} {shape : Shape}
    (found : (db.tables name).isSome) (listed : c name = some shape) (other : name ∉ apart) :
    Keeps name shape.names db after := by
  apply keeps_run found h
  by_cases touched : name ∈ touchedNames script
  · have kept := List.all_eq_true.mp check name touched
    simpa [other, listed] using kept
  · rw [List.all_eq_true]
    intro s mem
    have untouched := not_touched touched s mem
    cases s with
    | addColumn wide column =>
      have elsewhere : wide ≠ name := by
        rintro rfl
        exact untouched (by simp [Statement.touched])
      simp [Statement.keeps, elsewhere]
    | _ => simpa [Statement.keeps] using untouched

def Database.rows (db : Database) (name : String) : List Row :=
  ((db.tables name).map Table.rows).getD []

def Statement.deletes (name : String) (row : Row) : Statement → Bool
  | .deleteWhere other column value => other == name && row column == value && value != .null
  | _ => false

def Statement.onlyDeletes (name : String) : Statement → Bool
  | .deleteWhere _ _ _ => true
  | s => !s.touched.contains name

theorem rows_exec_delete {name : String} {s : Statement} {db after : Database}
    (h : db.exec s = some after) (only : s.onlyDeletes name = true) :
    after.rows name = (db.rows name).filter (fun row => !s.deletes name row) := by
  have frame : name ∉ s.touched → after.rows name = db.rows name := by
    intro untouched
    rw [Database.rows, (exec_effect h).frame name untouched]
    rfl
  cases s with
  | deleteWhere other column value =>
    by_cases same : other = name
    · subst same
      simp only [Database.exec, Option.bind_eq_bind, Option.bind_eq_some_iff] at h
      obtain ⟨table, found, h⟩ := h
      split at h
      · cases h
        simp [Database.rows, Database.setTable, found, Table.deleteWhere, Statement.deletes]
      · cases h
    · rw [frame (by simpa [Statement.touched] using Ne.symm same)]
      have elsewhere : (other == name) = false := by simpa using same
      simp [Statement.deletes, elsewhere]
  | _ =>
    rw [frame (by simpa [Statement.onlyDeletes] using only)]
    simp [Statement.deletes]

theorem rows_run_delete {name : String} {script : List Statement} {db after : Database}
    (h : db.run script = some after) (only : script.all (fun s => s.onlyDeletes name) = true) :
    after.rows name =
      (db.rows name).filter (fun row => !script.any (fun s => s.deletes name row)) := by
  induction script generalizing db with
  | nil =>
    cases h
    simp
  | cons s script ih =>
    rw [Database.run, List.foldlM_cons] at h
    obtain ⟨next, first, later⟩ := Option.bind_eq_some_iff.mp h
    rw [List.all_cons, Bool.and_eq_true] at only
    rw [ih later only.2, rows_exec_delete first only.1, List.filter_filter]
    apply List.filter_congr
    intro row _
    rw [List.any_cons, Bool.not_or, Bool.and_comm]

/-! Rows that are copied. -/

/-- Every column of the shape is a column of the other, and the keys are the same. -/
structure Shape.Part (shape wider : Shape) : Prop where
  columns : ∀ column ∈ shape.columns, column ∈ wider.columns
  key : shape.key = wider.key

theorem Shape.restrict_stored {shape : Shape} {row : Row}
    (holds : ∀ column ∈ shape.columns, column.Holds (row column.name)) :
    ∀ name ∈ shape.names, shape.stored shape.names row name = row name := by
  intro name mem
  obtain ⟨column, there, rfl⟩ := List.mem_map.mp mem
  have given : shape.names.contains column.name = true := by simpa using mem
  rw [shape.stored_name there, if_pos given]
  exact (holds column there).1

/-- Rows that meet the constraints of a shape can all be inserted. -/
theorem insertAll_copy {shape : Shape} {rows : List Row}
    (holds : ∀ row ∈ rows, ∀ column ∈ shape.columns, column.Holds (row column.name))
    (apart : rows.Pairwise (Apart shape.key)) {table : Table} (same : table.shape = shape)
    (new : ∀ other ∈ table.rows, ∀ row ∈ rows, Apart shape.key other row) :
    ∃ filled, table.insertAll [] shape.names rows = some filled ∧ filled.shape = shape ∧
      filled.rows = table.rows ++ rows.map (shape.stored shape.names) := by
  unfold Table.insertAll
  induction rows generalizing table with
  | nil => exact ⟨table, rfl, same, by simp⟩
  | cons row rows ih =>
    obtain ⟨before, later⟩ := List.pairwise_cons.mp apart
    have here := holds row List.mem_cons_self
    have stays := Shape.restrict_stored here
    have key : ∀ name ∈ shape.key, shape.stored shape.names row name = row name :=
      fun name mem => stays name (shape.keyed name mem)
    have accepts : table.Accepts [] (table.shape.stored shape.names row) := by
      rw [same]
      refine ⟨?_, ?_, nofun⟩
      · intro column mem required
        rw [same] at mem
        rw [stays column.name (List.mem_map_of_mem mem)]
        exact (here column mem).2 required
      · intro other mem
        rw [same]
        exact (new other mem row List.mem_cons_self).congr (fun _ _ => rfl) key
    have inserted : table.insert [] shape.names row = some (table.push shape.names row accepts) :=
      dif_pos accepts
    obtain ⟨filled, run, hshape, hrows⟩ := ih
      (fun row mem => holds row (List.mem_cons_of_mem _ mem)) later
      (show (table.push shape.names row accepts).shape = shape from same) (by
        intro other mem next there
        rcases List.mem_append.mp mem with old | added
        · exact new other old next (List.mem_cons_of_mem _ there)
        · rw [List.mem_singleton.mp added, same]
          exact (before next there).congr key (fun _ _ => rfl))
    refine ⟨filled, ?_, hshape, ?_⟩
    · rw [List.foldlM_cons, inserted]
      exact run
    · rw [hrows, List.map_cons]
      change (table.rows ++ [table.shape.stored shape.names row]) ++ _ = _
      rw [same, List.append_assoc]
      rfl

/-- A table is made anew with some of its columns: its rows are copied to a table that then takes
its place. -/
def rebuild (name temporary : String) (ifNotExists : Bool) (shape : Shape) : List Statement :=
  [.createTable temporary ifNotExists shape, .insertSelect temporary name shape.names,
    .dropTable name false, .renameTable temporary name]

theorem uniques_nil {db : Database} {known : List Index} {name : String} (h : db.Within known)
    (other : known.all (fun index => index.table != name) = true) : db.uniques name = [] := by
  rw [Database.uniques, List.map_eq_nil_iff, List.filter_eq_nil_iff]
  intro index mem
  have elsewhere := List.all_eq_true.mp other index (h index mem)
  simp only [bne_iff_ne] at elsewhere
  simp [elsewhere]

theorem run_rebuild {db : Database} {known : List Index} {name temporary : String} {table : Table}
    {shape : Shape} (ifNotExists : Bool) (h : db.Within known)
    (names : known.all (fun index => index.name != temporary && index.name != name &&
      index.table != temporary) = true) (other : temporary ≠ name)
    (found : db.tables name = some table) (free : db.tables temporary = none)
    (part : shape.Part table.shape) :
    ∃ after, db.run (rebuild name temporary ifNotExists shape) = some after ∧
      Keeps name shape.names db after := by
  simp only [List.all_eq_true, Bool.and_eq_true] at names
  have unnamed := hasIndex_false h
    (List.all_eq_true.mpr (fun index mem => (names index mem).1.1))
  have created : db.exec (.createTable temporary ifNotExists shape) =
      some (db.setTable temporary (some (Table.empty shape))) := by
    simp [Database.exec, free, unnamed]
  obtain ⟨filled, inserted, -, rows⟩ := insertAll_copy
    (fun row mem column there => table.holds row mem column (part.columns column there))
    (part.key ▸ table.apart) (show (Table.empty shape).shape = shape from rfl) nofun
  let db₁ := db.setTable temporary (some (Table.empty shape))
  have found₁ : db₁.tables name = some table :=
    (Function.update_of_ne other.symm _ _).trans found
  have empty₁ : db₁.tables temporary = some (Table.empty shape) := Function.update_self _ _ _
  have plain : db₁.uniques temporary = [] :=
    uniques_nil h (List.all_eq_true.mpr (fun index mem => (names index mem).2))
  have columns : ∀ column ∈ shape.names, column ∈ table.shape.names := by
    intro column mem
    obtain ⟨c, there, rfl⟩ := List.mem_map.mp mem
    exact List.mem_map_of_mem (part.columns c there)
  have copied : db₁.exec (.insertSelect temporary name shape.names) =
      some (db₁.setTable temporary (some filled)) := by
    have own : shape.names.all ((Table.empty shape).shape.names.contains ·) = true := by
      simp [Table.empty]
    have theirs : shape.names.all (table.shape.names.contains ·) = true := by
      simpa using columns
    simp only [Database.exec, empty₁, found₁, Option.bind_eq_bind, Option.bind_some, own, theirs,
      plain, inserted]
    rfl
  let db₂ := db₁.setTable temporary (some filled)
  have found₂ : db₂.tables name = some table :=
    (Function.update_of_ne other.symm _ _).trans found₁
  have filled₂ : db₂.tables temporary = some filled := Function.update_self _ _ _
  let db₃ : Database := { db₂.setTable name none with
    indexes := db₂.indexes.filter (fun index => index.table != name) }
  have dropped : db₂.exec (.dropTable name false) = some db₃ :=
    if_pos (by rw [found₂]; rfl)
  have gone₃ : db₃.tables name = none := Function.update_self _ _ _
  have filled₃ : db₃.tables temporary = some filled :=
    (Function.update_of_ne other _ _).trans filled₂
  have within₃ : db₃.Within known := fun index mem => h index (List.mem_of_mem_filter mem)
  have unnamed₃ := hasIndex_false within₃
    (List.all_eq_true.mpr (fun index mem => (names index mem).1.2))
  let db₄ : Database := { (db₃.setTable temporary none).setTable name (db₃.tables temporary) with
    indexes := db₃.indexes.map (fun index =>
      if index.table = temporary then { index with table := name } else index) }
  have renamed : db₃.exec (.renameTable temporary name) = some db₄ :=
    if_pos (by rw [filled₃, gone₃, unnamed₃]; rfl)
  have filled₄ : db₄.tables name = some filled := (Function.update_self _ _ _).trans filled₃
  refine ⟨db₄, ?_, table, filled, found, filled₄, ?_⟩
  · rw [rebuild, run_cons created, run_cons copied, run_cons dropped, run_cons renamed]
    rfl
  · rw [Table.project, Table.project, rows]
    simp only [Table.empty, List.nil_append, List.map_map]
    apply List.map_congr_left
    intro row mem
    have stays := Shape.restrict_stored
      (fun column there => table.holds row mem column (part.columns column there))
    funext column
    by_cases named : column ∈ shape.names
    · simp [restrict, named, stays column named]
    · simp [restrict, named]

end Tables

end Sql
