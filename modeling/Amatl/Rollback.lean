import Amatl.Migrations

/-! A database that is taken back to an earlier schema version and opened again. -/

namespace Amatl

open Sql

/-- The tables of a schema version: what the migrations up to it make of an empty database. -/
def catalogAt (version : Int) : Catalog :=
  reshapeAll (fun _ => none) (createSchemaMigrations ::
    (migrations.filter (fun migration => migration.version ≤ version)).flatMap Migration.script)

def schemaIndexes : List Index :=
  (migrations.flatMap Migration.script).filterMap (fun
    | .createIndex _ index => some index
    | _ => none)

/-- The script that leaves a version, with the record of it. -/
def undoing (version : Int) : List Statement :=
  (downgradeScript version).getD [] ++
    [.deleteWhere schemaMigrations "version" (.integer version)]

/-! What the scripts do to the shapes, checked version by version. -/

theorem catalogAt_version : ∀ migration ∈ migrations,
    catalogAt migration.version =
      reshapeAll (catalogAt (migration.version - 1)) migration.script := by
  simp only [migrations, List.forall_mem_cons]
  exact ⟨rfl, rfl, rfl, rfl, rfl, rfl, rfl, nofun⟩

theorem catalogAt_undoing {migration : Migration} (mem : migration ∈ migrations.tail) :
    reshapeAll (catalogAt migration.version) (undoing migration.version) =
      catalogAt (migration.version - 1) := by
  have checked : ∀ migration ∈ migrations.tail,
      (touchedNames migration.script ++ touchedNames (undoing migration.version)).all (fun name =>
        reshapeAll (reshapeAll (catalogAt (migration.version - 1)) migration.script)
          (undoing migration.version) name == catalogAt (migration.version - 1) name) = true := by
    decide +kernel
  rw [catalogAt_version migration (List.mem_of_mem_tail mem)]
  exact reshapeAll_undo (checked migration mem)

/-- A later version has the tables of an earlier one, with their columns. -/
theorem catalogAt_grows {migration : Migration} (mem : migration ∈ migrations)
    {name : String} {shape : Shape} (found : catalogAt (migration.version - 1) name = some shape) :
    ∃ wider, catalogAt migration.version name = some wider ∧
      ∀ column ∈ shape.names, column ∈ wider.names := by
  have checked : ∀ migration ∈ migrations, (touchedNames migration.script).all (fun name =>
      (catalogAt (migration.version - 1) name).all (fun shape =>
        (catalogAt migration.version name).any (fun wider =>
          shape.names.all (wider.names.contains ·)))) = true := by
    decide +kernel
  by_cases touched : name ∈ touchedNames migration.script
  · have wider := List.all_eq_true.mp (checked migration mem) name touched
    rw [found, Option.all_some, Option.any_eq_true] at wider
    obtain ⟨shape', found', columns⟩ := wider
    exact ⟨shape', found', by simpa using columns⟩
  · refine ⟨shape, ?_, fun _ there => there⟩
    rw [catalogAt_version migration mem, reshapeAll_untouched _ (not_touched touched), found]

theorem migration_of_version {version : Int} (low : 1 ≤ version) (high : version ≤ 7) :
    ∃ migration ∈ migrations, migration.version = version ∧
      pendingMigrations (version - 1) = migration :: pendingMigrations version ∧
      (2 ≤ version → migration ∈ migrations.tail) := by
  have numbers : version = 1 ∨ version = 2 ∨ version = 3 ∨ version = 4 ∨ version = 5 ∨
      version = 6 ∨ version = 7 := by omega
  rcases numbers with rfl | rfl | rfl | rfl | rfl | rfl | rfl
  · exact ⟨migrations[0], by simp [migrations], rfl, rfl, fun two => absurd two (by decide)⟩
  · exact ⟨migrations[1], by simp [migrations], rfl, rfl, fun _ => by simp [migrations]⟩
  · exact ⟨migrations[2], by simp [migrations], rfl, rfl, fun _ => by simp [migrations]⟩
  · exact ⟨migrations[3], by simp [migrations], rfl, rfl, fun _ => by simp [migrations]⟩
  · exact ⟨migrations[4], by simp [migrations], rfl, rfl, fun _ => by simp [migrations]⟩
  · exact ⟨migrations[5], by simp [migrations], rfl, rfl, fun _ => by simp [migrations]⟩
  · exact ⟨migrations[6], by simp [migrations], rfl, rfl, fun _ => by simp [migrations]⟩

theorem versionsAbove_succ (target : Int) (n : Nat) :
    versionsAbove target (target + (n + 1 : Nat)) =
      (target + (n + 1 : Nat)) :: versionsAbove target (target + n) := by
  have more : (target + (n + 1 : Nat) - target).toNat = n + 1 := by omega
  have less : (target + (n : Nat) - target).toNat = n := by omega
  rw [versionsAbove, versionsAbove, more, less, List.range_succ_eq_map, List.map_cons, List.map_map]
  congr 1
  · simp
  · apply List.map_congr_left
    intro k _
    simp only [Function.comp_apply]
    omega

def recordsAbove (low high : Int) (row : Row) : Bool :=
  match row "version" with
  | .integer version => low < version && version ≤ high
  | _ => false

theorem recordsAbove_iff {low high : Int} {row : Row} :
    recordsAbove low high row = true ↔
      ∃ version, row "version" = .integer version ∧ low < version ∧ version ≤ high := by
  unfold recordsAbove
  cases row "version" <;> simp

theorem recordsAbove_succ (low high : Int) (h : low ≤ high) (row : Row) :
    recordsAbove low (high + 1) row =
      (row "version" == .integer (high + 1) || recordsAbove low high row) := by
  unfold recordsAbove
  cases row "version" with
  | integer version =>
    rw [Bool.eq_iff_iff]
    simp only [Bool.or_eq_true, Bool.and_eq_true, decide_eq_true_eq, beq_iff_eq,
      Value.integer.injEq]
    omega
  | _ => simp

section Runs

variable [Storing]

/-- A database with the tables of a schema version, whatever rows they hold. -/
structure AtVersion (version : Int) (db : Database) : Prop where
  catalog : db.catalog = catalogAt version
  indexes : db.Within schemaIndexes
  version : db.userVersion = version

theorem AtVersion.found {version : Int} {db : Database} (h : AtVersion version db) {name : String}
    {shape : Shape} (listed : catalogAt version name = some shape) :
    ∃ table, db.tables name = some table ∧ table.shape = shape := by
  rw [← h.catalog, Database.catalog, Option.map_eq_some_iff] at listed
  exact listed

/-- The tables of a version keep their rows in the columns that they have there. -/
def KeepsTables (version : Int) (before after : Database) : Prop :=
  ∀ name shape, catalogAt version name = some shape → name ≠ schemaMigrations →
    Keeps name shape.names before after

theorem KeepsTables.trans {version : Int} {a b c : Database} (first : KeepsTables version a b)
    (second : KeepsTables version b c) : KeepsTables version a c :=
  fun name shape listed other =>
    (first name shape listed other).trans (second name shape listed other)

theorem KeepsTables.mono {migration : Migration} (mem : migration ∈ migrations)
    {a b : Database} (h : KeepsTables migration.version a b) :
    KeepsTables (migration.version - 1) a b := by
  intro name shape listed other
  obtain ⟨wider, found, columns⟩ := catalogAt_grows mem listed
  exact (h name wider found other).mono columns

theorem KeepsTables.refl {version : Int} {db : Database} (h : AtVersion version db) :
    KeepsTables version db db := by
  intro name shape listed _
  obtain ⟨table, there, -⟩ := h.found listed
  exact keeps_of_eq shape.names there rfl

/-! One version back. -/

theorem undoing_effect {migration : Migration} (mem : migration ∈ migrations.tail)
    {db after : Database} (h : AtVersion migration.version db)
    (run : db.run (undoing migration.version) = some after) :
    AtVersion (migration.version - 1) after ∧
      after.rows schemaMigrations = (db.rows schemaMigrations).filter
        (fun row => !(row "version" == .integer migration.version)) := by
  have checked : ∀ migration ∈ migrations.tail,
      (undoing migration.version).all (fun s => s.within schemaIndexes) = true ∧
      (undoing migration.version).foldl Statement.versionAfter migration.version =
        migration.version - 1 ∧
      (undoing migration.version).all (fun s => s.onlyDeletes schemaMigrations) = true := by
    decide +kernel
  obtain ⟨within, version, only⟩ := checked migration mem
  have effect := run_effect run
  refine ⟨⟨?_, ?_, ?_⟩, ?_⟩
  · rw [effect.catalog, h.catalog, catalogAt_undoing mem]
  · exact effect.indexes schemaIndexes h.indexes (List.all_eq_true.mp within)
  · rw [effect.version, h.version, version]
  · rw [rows_run_delete run only]
    apply List.filter_congr
    intro row _
    have deletes : (undoing migration.version).any (fun s => s.deletes schemaMigrations row) =
        (row "version" == .integer migration.version) := by
      simp only [migrations, List.tail_cons, List.mem_cons, List.not_mem_nil, or_false] at mem
      rcases mem with rfl | rfl | rfl | rfl | rfl | rfl <;>
        simp [undoing, downgradeScript, Statement.deletes, schemaMigrations]
    rw [deletes]

theorem AtVersion.isSome_earlier {migration : Migration} (mem : migration ∈ migrations)
    {db : Database} (h : AtVersion migration.version db) {name : String} {shape : Shape}
    (listed : catalogAt (migration.version - 1) name = some shape) :
    (db.tables name).isSome = true := by
  obtain ⟨wider, found, -⟩ := catalogAt_grows mem listed
  obtain ⟨table, there, -⟩ := h.found found
  rw [there]
  rfl

/-- A script that copies no rows. -/
theorem undoing_runs_plain {migration : Migration} (mem : migration ∈ migrations.tail)
    (fits : fitsAll schemaIndexes [] (catalogAt migration.version) (undoing migration.version) = true)
    (keeps : keepsTables (catalogAt (migration.version - 1)) [schemaMigrations]
      (undoing migration.version) = true) {db : Database} (h : AtVersion migration.version db) :
    ∃ after, db.run (undoing migration.version) = some after ∧
      KeepsTables (migration.version - 1) db after := by
  rw [← h.catalog] at fits
  obtain ⟨after, run⟩ := run_of_fits h.indexes (fresh_nil db) fits
  refine ⟨after, run, fun name shape listed other => ?_⟩
  have there := h.isSome_earlier (List.mem_of_mem_tail mem) listed
  exact keeps_of_keepsTables run keeps there listed (by simpa using other)

/-- A script that makes a table anew without its newest columns. -/
theorem undoing_runs_rebuild {migration : Migration} (mem : migration ∈ migrations.tail)
    {name temporary : String} {ifNotExists : Bool} {shape wider : Shape} {rest : List Statement}
    (script : undoing migration.version = rebuild name temporary ifNotExists shape ++ rest)
    (names : schemaIndexes.all (fun index => index.name != temporary && index.name != name &&
      index.table != temporary) = true ∧ temporary ≠ name)
    (before : catalogAt migration.version name = some wider ∧
      catalogAt migration.version temporary = none)
    (behind : catalogAt (migration.version - 1) name = some shape)
    (part : shape.columns.all (wider.columns.contains ·) = true ∧ shape.key = wider.key)
    (fits : fitsAll schemaIndexes []
      (reshapeAll (catalogAt migration.version) (rebuild name temporary ifNotExists shape)) rest = true)
    (stays : rest.all (fun s => s.keeps name shape.names) = true)
    (keeps : keepsTables (catalogAt (migration.version - 1)) [schemaMigrations, name]
      (undoing migration.version) = true) {db : Database} (h : AtVersion migration.version db) :
    ∃ after, db.run (undoing migration.version) = some after ∧
      KeepsTables (migration.version - 1) db after := by
  obtain ⟨table, found, hshape⟩ := h.found before.1
  have free : db.tables temporary = none := by
    have missing := before.2
    rwa [← h.catalog, Database.catalog, Option.map_eq_none_iff] at missing
  have narrower : shape.Part table.shape := by
    rw [hshape]
    exact ⟨by simpa using part.1, part.2⟩
  obtain ⟨middle, rebuilt, kept⟩ :=
    run_rebuild ifNotExists h.indexes names.1 names.2 found free narrower
  have effect := run_effect rebuilt
  have within : middle.Within schemaIndexes := by
    refine effect.indexes schemaIndexes h.indexes ?_
    have tables : schemaIndexes.all (fun index => index.table != temporary) = true := by
      rw [List.all_eq_true]
      intro index there
      have each := List.all_eq_true.mp names.1 index there
      exact (Bool.and_eq_true_iff.mp each).2
    intro s there
    simp only [rebuild, List.mem_cons, List.not_mem_nil, or_false] at there
    rcases there with rfl | rfl | rfl | rfl
    · rfl
    · rfl
    · rfl
    · exact tables
  rw [← h.catalog, ← effect.catalog] at fits
  obtain ⟨after, finished⟩ := run_of_fits within (fresh_nil middle) fits
  have run : db.run (undoing migration.version) = some after := by
    rw [script, run_append rebuilt, finished]
  refine ⟨after, run, fun other shape' listed notRecord => ?_⟩
  by_cases same : other = name
  · subst same
    rw [behind, Option.some.injEq] at listed
    subst listed
    obtain ⟨-, new, -, there, -⟩ := id kept
    exact kept.trans (keeps_run (by rw [there]; rfl) finished stays)
  · exact keeps_of_keepsTables run keeps (h.isSome_earlier (List.mem_of_mem_tail mem) listed) listed
      (by simpa using ⟨notRecord, same⟩)

theorem undoing_runs {migration : Migration} (mem : migration ∈ migrations.tail) {db : Database}
    (h : AtVersion migration.version db) :
    ∃ after, db.run (undoing migration.version) = some after ∧
      KeepsTables (migration.version - 1) db after := by
  have cases := mem
  simp only [migrations, List.tail_cons, List.mem_cons, List.not_mem_nil, or_false] at cases
  rcases cases with rfl | rfl | rfl | rfl | rfl | rfl
  · exact undoing_runs_plain mem (by decide +kernel) (by decide +kernel) h
  · exact undoing_runs_plain mem (by decide +kernel) (by decide +kernel) h
  · exact undoing_runs_rebuild mem (by rfl) (by decide +kernel) ⟨by rfl, by rfl⟩ (by rfl)
      (by decide +kernel) (by decide +kernel) (by decide +kernel) (by decide +kernel) h
  · exact undoing_runs_rebuild mem (by rfl) (by decide +kernel) ⟨by rfl, by rfl⟩ (by rfl)
      (by decide +kernel) (by decide +kernel) (by decide +kernel) (by decide +kernel) h
  · exact undoing_runs_plain mem (by decide +kernel) (by decide +kernel) h
  · exact undoing_runs_plain mem (by decide +kernel) (by decide +kernel) h

theorem KeepsTables.below {low : Int} (n : Nat) (positive : 0 ≤ low) (high : low + n ≤ 7)
    {a b : Database} (h : KeepsTables (low + n) a b) : KeepsTables low a b := by
  induction n with
  | zero => simpa using h
  | succ n ih =>
    obtain ⟨migration, mem, version, -⟩ :=
      migration_of_version (show 1 ≤ low + (n + 1 : Nat) by omega) high
    rw [← version] at h
    have lower := h.mono mem
    rw [version] at lower
    have one : low + (n + 1 : Nat) - 1 = low + n := by omega
    rw [one] at lower
    exact ih (by omega) lower

theorem downgradeStep_undoing {migration : Migration} (mem : migration ∈ migrations.tail)
    (db : Database) :
    downgradeStep db migration.version = db.run (undoing migration.version) := by
  simp only [migrations, List.tail_cons, List.mem_cons, List.not_mem_nil, or_false] at mem
  rcases mem with rfl | rfl | rfl | rfl | rfl | rfl <;> rfl

/-- The way back to a version from a later one. -/
theorem downgradeSteps_back (n : Nat) {target : Int} (low : 1 ≤ target) (high : target + n ≤ 7)
    {db : Database} (h : AtVersion (target + n) db) :
    ∃ after, downgradeSteps (versionsAbove target (target + n)) db = (.ok (), after) ∧
      AtVersion target after ∧ KeepsTables target db after ∧
      after.rows schemaMigrations = (db.rows schemaMigrations).filter
        (fun row => !recordsAbove target (target + n) row) := by
  induction n generalizing db with
  | zero =>
    have target_eq : target + (0 : Nat) = target := by omega
    rw [target_eq] at h ⊢
    have none : versionsAbove target target = [] := by simp [versionsAbove]
    refine ⟨db, by rw [none]; rfl, h, KeepsTables.refl h, ?_⟩
    symm
    rw [List.filter_eq_self]
    intro row _
    unfold recordsAbove
    cases row "version" with
    | integer version =>
      have either : version ≤ target ∨ target < version := by omega
      simpa using either
    | _ => rfl
  | succ n ih =>
    obtain ⟨migration, -, version, -, later⟩ :=
      migration_of_version (show 1 ≤ target + (n + 1 : Nat) by omega) high
    have mem := later (by omega)
    rw [← version] at h
    obtain ⟨middle, run, kept⟩ := undoing_runs mem h
    obtain ⟨there, rows⟩ := undoing_effect mem h run
    have one : migration.version - 1 = target + n := by omega
    rw [one] at there kept
    obtain ⟨after, back, reached, stays, records⟩ := ih (by omega) there
    have step : downgradeStep db migration.version = some middle := by
      rw [downgradeStep_undoing mem, run]
    refine ⟨after, ?_, reached, (kept.below n (by omega) (by omega)).trans stays, ?_⟩
    · rw [versionsAbove_succ, ← version, downgradeSteps, step]
      exact back
    · rw [records, rows, List.filter_filter, ← version]
      apply List.filter_congr
      intro row _
      have next := recordsAbove_succ target (target + n) (by omega) row
      have number : target + n + 1 = migration.version := by omega
      rw [number] at next
      rw [next, Bool.not_or, Bool.and_comm]

/-! One version up. -/

theorem script_runs {migration : Migration} (mem : migration ∈ migrations) {db : Database}
    (h : AtVersion (migration.version - 1) db) :
    ∃ after, db.run migration.script = some after ∧ AtVersion migration.version after ∧
      KeepsTables (migration.version - 1) db after ∧
      after.tables schemaMigrations = db.tables schemaMigrations := by
  have checked : ∀ migration ∈ migrations,
      fitsAll schemaIndexes [] (catalogAt (migration.version - 1)) migration.script = true ∧
      migration.script.all (fun s => s.within schemaIndexes) = true ∧
      migration.script.foldl Statement.versionAfter (migration.version - 1) = migration.version ∧
      keepsTables (catalogAt (migration.version - 1)) [] migration.script = true ∧
      schemaMigrations ∉ touchedNames migration.script := by
    decide +kernel
  obtain ⟨fits, within, version, keeps, untouched⟩ := checked migration mem
  rw [← h.catalog] at fits
  obtain ⟨after, run⟩ := run_of_fits h.indexes (fresh_nil db) fits
  have effect := run_effect run
  refine ⟨after, run, ⟨?_, ?_, ?_⟩, ?_, effect.frame schemaMigrations (not_touched untouched)⟩
  · rw [effect.catalog, h.catalog, ← catalogAt_version migration mem]
  · exact effect.indexes schemaIndexes h.indexes (List.all_eq_true.mp within)
  · rw [effect.version, h.version, version]
  · intro name shape listed _
    obtain ⟨table, there, -⟩ := h.found listed
    exact keeps_of_keepsTables run keeps (by rw [there]; rfl) listed List.not_mem_nil

theorem record_inserted {version : Int} (name : String) (now : Int) {db : Database} {table : Table}
    (found : db.tables schemaMigrations = some table) (hshape : table.shape = recordShape)
    (within : db.Within schemaIndexes)
    (new : ∀ row ∈ table.rows, row "version" ≠ .integer version) :
    ∃ after row, db.exec (.insert schemaMigrations [("version", .integer version),
        ("name", .text name), ("applied_at", .integer now)]) = some after ∧
      after.rows schemaMigrations = db.rows schemaMigrations ++ [row] ∧
      row "version" = .integer version := by
  let values : List (String × Value) :=
    [("version", .integer version), ("name", .text name), ("applied_at", .integer now)]
  let row := table.shape.stored (values.map Prod.fst) (fun column => (values.lookup column).getD .null)
  have stored : row "version" = .integer version ∧ row "name" = Storing.store .text (.text name) ∧
      row "applied_at" = .integer now := by
    simp only [row, hshape]
    refine ⟨Storing.store_integer version, rfl, Storing.store_integer now⟩
  have accepts : table.Accepts (db.uniques schemaMigrations) row := by
    have plain : db.uniques schemaMigrations = [] := uniques_nil within (by decide +kernel)
    rw [plain]
    refine ⟨?_, ?_, nofun⟩
    · intro column mem _
      rw [hshape] at mem
      simp only [recordShape, List.mem_cons, List.not_mem_nil, or_false] at mem
      rcases mem with rfl | rfl | rfl
      · exact fun null => absurd (stored.1.symm.trans null) nofun
      · intro null
        have empty := (Storing.store_null .text (.text name)).mp (stored.2.1.symm.trans null)
        cases empty
      · exact fun null => absurd (stored.2.2.symm.trans null) nofun
    · intro other mem _ same
      rw [hshape] at same
      have head := (List.cons.inj same).1
      exact absurd (head.trans stored.1) (new other mem)
  have inserted : table.insert (db.uniques schemaMigrations) (values.map Prod.fst)
      (fun column => (values.lookup column).getD .null) =
        some (table.push (values.map Prod.fst) _ accepts) := dif_pos accepts
  refine ⟨db.setTable schemaMigrations (some (table.push _ _ accepts)), row, ?_, ?_, stored.1⟩
  · have known : values.all (fun value => table.shape.names.contains value.1) = true := by
      rw [hshape]
      rfl
    rw [Database.exec, found, Option.bind_eq_bind, Option.bind_some, if_pos known, inserted]
    rfl
  · have after : (db.setTable schemaMigrations (some (table.push (values.map Prod.fst) _ accepts))).rows
        schemaMigrations = table.rows ++ [row] := by
      simp [Database.rows, Database.setTable, Table.push, row]
    rw [after, Database.rows, found]
    rfl

theorem applyMigration_runs {migration : Migration} (mem : migration ∈ migrations) (now : Int)
    {db : Database} (h : AtVersion (migration.version - 1) db)
    (new : ∀ row ∈ db.rows schemaMigrations, row "version" ≠ .integer migration.version) :
    ∃ after row, applyMigration now db migration = some after ∧
      AtVersion migration.version after ∧ KeepsTables (migration.version - 1) db after ∧
      after.rows schemaMigrations = db.rows schemaMigrations ++ [row] ∧
      row "version" = .integer migration.version := by
  have listed : catalogAt (migration.version - 1) schemaMigrations = some recordShape := by
    have checked : ∀ migration ∈ migrations,
        catalogAt (migration.version - 1) schemaMigrations = some recordShape := by
      decide +kernel
    exact checked migration mem
  obtain ⟨table, found, hshape⟩ := h.found listed
  have rows : db.rows schemaMigrations = table.rows := by
    rw [Database.rows, found]
    rfl
  obtain ⟨middle, run, there, kept, same⟩ := script_runs mem h
  obtain ⟨after, row, inserted, records, version⟩ :=
    record_inserted migration.name now (same.trans found) hshape there.indexes
      (fun row mem => new row (by rw [rows]; exact mem))
  have effect := exec_effect inserted
  refine ⟨after, row, ?_, ⟨?_, ?_, ?_⟩, ?_, ?_, version⟩
  · have known : table.shape.names.contains "version" = true := by
      rw [hshape]
      rfl
    have unrecorded : ¬table.rows.any (fun row => row "version" == .integer migration.version) := by
      rw [List.any_eq_true]
      rintro ⟨other, mem, equal⟩
      exact new other (by rw [rows]; exact mem) (by simpa using equal)
    rw [applyMigration, found, Option.bind_eq_bind, Option.bind_some, if_pos known,
      if_neg unrecorded, Option.bind_eq_bind, run]
    exact inserted
  · rw [effect.catalog]
    exact there.catalog
  · exact effect.indexes schemaIndexes there.indexes rfl
  · rw [effect.version]
    exact there.version
  · intro name shape listed other
    have first := kept name shape listed other
    obtain ⟨-, table', -, found', -⟩ := id first
    have untouched : name ∉ [schemaMigrations] := by simpa using other
    exact first.trans (keeps_of_eq shape.names found' (effect.frame name untouched))
  · have before : middle.rows schemaMigrations = db.rows schemaMigrations := by
      rw [Database.rows, same]
      rfl
    rw [records, before]

theorem pending_runs (n : Nat) {low : Int} (positive : 0 ≤ low) (top : low + n = 7) (now : Int)
    {db : Database} (h : AtVersion low db)
    (new : ∀ row ∈ db.rows schemaMigrations, recordsAbove low 7 row = false) :
    ∃ again, (pendingMigrations low).foldlM (applyMigration now) db = some again ∧
      AtVersion 7 again ∧ KeepsTables low db again ∧
      (again.rows schemaMigrations).filter (fun row => !recordsAbove low 7 row) =
        db.rows schemaMigrations := by
  induction n generalizing low db with
  | zero =>
    have top : low = 7 := by omega
    subst top
    refine ⟨db, rfl, h, KeepsTables.refl h, ?_⟩
    rw [List.filter_eq_self]
    intro row mem
    rw [new row mem]
    rfl
  | succ n ih =>
    obtain ⟨migration, mem, version, pending, -⟩ :=
      migration_of_version (show 1 ≤ low + 1 by omega) (by omega)
    have one : low + 1 - 1 = low := by omega
    rw [one] at pending
    have before : migration.version - 1 = low := by omega
    have unrecorded : ∀ row ∈ db.rows schemaMigrations,
        row "version" ≠ .integer migration.version := by
      intro row there same
      have recorded : recordsAbove low 7 row = true :=
        recordsAbove_iff.mpr ⟨migration.version, same, by omega, by omega⟩
      rw [new row there] at recorded
      cases recorded
    obtain ⟨middle, record, applied, reached, kept, rows, named⟩ :=
      applyMigration_runs mem now (before ▸ h) unrecorded
    rw [before] at kept
    rw [version] at reached named
    have newer : ∀ row ∈ middle.rows schemaMigrations, recordsAbove (low + 1) 7 row = false := by
      intro row there
      rw [Bool.eq_false_iff]
      intro recorded
      obtain ⟨number, same, above, below⟩ := recordsAbove_iff.mp recorded
      rw [rows] at there
      rcases List.mem_append.mp there with old | added
      · have earlier := recordsAbove_iff.mpr ⟨number, same, show low < number by omega, below⟩
        rw [new row old] at earlier
        cases earlier
      · rw [List.mem_singleton.mp added, named, Value.integer.injEq] at same
        omega
    obtain ⟨again, run, atTop, stays, records⟩ := ih (by omega) (by omega) reached newer
    refine ⟨again, ?_, atTop, kept.trans (stays.below 1 (by omega) (by omega)), ?_⟩
    · rw [pending, List.foldlM_cons, applied]
      exact run
    · have wider : (again.rows schemaMigrations).filter (fun row => !recordsAbove low 7 row) =
          ((again.rows schemaMigrations).filter (fun row => !recordsAbove (low + 1) 7 row)).filter
            (fun row => !recordsAbove low 7 row) := by
        rw [List.filter_filter]
        apply List.filter_congr
        intro row _
        cases later : recordsAbove (low + 1) 7 row with
        | false => simp
        | true =>
          obtain ⟨number, same, above, below⟩ := recordsAbove_iff.mp later
          have earlier := recordsAbove_iff.mpr ⟨number, same, show low < number by omega, below⟩
          rw [earlier]
          rfl
      have recorded : recordsAbove low 7 record = true :=
        recordsAbove_iff.mpr ⟨low + 1, named, by omega, by omega⟩
      rw [wider, records, rows, List.filter_append, List.filter_cons_of_neg (by simp [recorded]),
        List.filter_nil, List.append_nil, List.filter_eq_self]
      intro row there
      rw [new row there]
      rfl

/-- The database goes back to the target, and opened again it has the rows that the tables of the
target had, in the columns that they have there. Of the records of migrations, those of the
versions that were left are made anew. -/
def RollsBack (target : Int) (db : Database) : Prop :=
  ∀ backup after, downgradeTo backup target db = (.ok (), after) →
    after.userVersion = target ∧ ∀ now, ∃ again,
      runMigrations (.ok ()) now after = (.ok (), again) ∧ AtVersion migrationVersion again ∧
      KeepsTables target db again ∧
      (again.rows schemaMigrations).filter
          (fun row => !recordsAbove target migrationVersion row) =
        (db.rows schemaMigrations).filter (fun row => !recordsAbove target migrationVersion row)

theorem runMigrations_runs {low : Int} (positive : 0 ≤ low) (high : low ≤ 7) (now : Int)
    {db : Database} (h : AtVersion low db)
    (new : ∀ row ∈ db.rows schemaMigrations, recordsAbove low 7 row = false) :
    ∃ again, runMigrations (.ok ()) now db = (.ok (), again) ∧ AtVersion migrationVersion again ∧
      KeepsTables low db again ∧
      (again.rows schemaMigrations).filter (fun row => !recordsAbove low 7 row) =
        db.rows schemaMigrations := by
  have listed : ∀ n < 8, catalogAt (n : Nat) schemaMigrations = some recordShape := by
    decide +kernel
  have shape := listed low.toNat (by omega)
  rw [Int.toNat_of_nonneg positive] at shape
  obtain ⟨table, found, -⟩ := h.found shape
  have exists' : db.exec createSchemaMigrations = some db := by
    rw [createSchemaMigrations, Database.exec, found]
    rfl
  obtain ⟨again, run, reached, kept, records⟩ :=
    pending_runs (7 - low).toNat positive (by omega) now h new
  refine ⟨again, ?_, reached, kept, records⟩
  have current : ¬migrationVersion < db.userVersion := by
    rw [h.version, migrationVersion]
    omega
  rw [runMigrations, if_neg current, h.version]
  dsimp only
  rw [ite_self, exists']
  dsimp only
  rw [Option.bind_eq_bind, Option.bind_some, run]

theorem downgradeSteps_append {first : List Int} {db after : Database}
    (h : downgradeSteps first db = (.ok (), after)) (second : List Int) :
    downgradeSteps (first ++ second) db = downgradeSteps second after := by
  induction first generalizing db with
  | nil =>
    cases h
    rfl
  | cons version first ih =>
    rw [downgradeSteps] at h
    rw [List.cons_append, downgradeSteps]
    cases step : downgradeStep db version with
    | none =>
      rw [step] at h
      cases h
    | some next =>
      rw [step] at h
      exact ih h

/-- For version 1 there is no script, so on the way to version 0 the database stays there. -/
theorem downgradeTo_zero {db : Database} (h : AtVersion migrationVersion db) :
    ∃ after, downgradeTo (.ok ()) 0 db = (.ok (), after) ∧ after.userVersion = 1 := by
  obtain ⟨after, back, there, -⟩ := downgradeSteps_back 6 (show (1 : Int) ≤ 1 by decide)
    (by decide) h
  refine ⟨after, ?_, there.version⟩
  have versions : versionsAbove 0 migrationVersion = versionsAbove 1 (1 + (6 : Nat)) ++ [1] := by
    decide
  rw [downgradeTo, h.version, if_neg (by decide), if_neg (by decide)]
  rw [versions, downgradeSteps_append back]
  rfl

/-- A rollback works at every version that has a script behind it. -/
theorem rollsBack_iff {target : Int} {db : Database} (h : AtVersion migrationVersion db) :
    RollsBack target db ↔ target ≠ 0 := by
  constructor
  · rintro back rfl
    obtain ⟨after, down, stays⟩ := downgradeTo_zero h
    have zero := (back (.ok ()) after down).1
    rw [stays] at zero
    cases zero
  · intro nonzero backup after down
    unfold downgradeTo at down
    rw [h.version] at down
    split at down
    · cases down
    · split at down
      · cases down
      · rename_i accepted
        have range : 0 ≤ target ∧ target < 7 := by
          rw [not_not] at accepted
          exact accepted
        cases backup with
        | error error => cases down
        | ok done =>
          have top : target + (7 - target).toNat = 7 := by omega
          have current : AtVersion (target + (7 - target).toNat) db := by
            rw [top]
            exact h
          obtain ⟨after', back, there, kept, records⟩ :=
            downgradeSteps_back (7 - target).toNat (by omega) (by omega) current
          rw [top] at back records
          have same := back.symm.trans down
          cases same
          refine ⟨there.version, fun now => ?_⟩
          have unrecorded : ∀ row ∈ after.rows schemaMigrations,
              recordsAbove target 7 row = false := by
            intro row mem
            rw [records, List.mem_filter, Bool.not_eq_true'] at mem
            exact mem.2
          obtain ⟨again, opened, reached, stays, rows⟩ :=
            runMigrations_runs range.1 (by omega) now there unrecorded
          exact ⟨again, opened, reached, kept.trans stays, rows.trans records⟩

def newDatabase : Database := ⟨fun _ => none, [], 0⟩

theorem newDatabase_opened (now : Int) :
    ∃ db, runMigrations (.ok ()) now newDatabase = (.ok (), db) ∧ AtVersion migrationVersion db := by
  let first := newDatabase.setTable schemaMigrations (some (Table.empty recordShape))
  have created : newDatabase.exec createSchemaMigrations = some first := rfl
  have start : AtVersion 0 first := by
    have effect := exec_effect created
    refine ⟨effect.catalog, ?_, effect.version⟩
    exact effect.indexes schemaIndexes (fun index mem => absurd mem List.not_mem_nil) rfl
  have empty : first.rows schemaMigrations = [] := rfl
  obtain ⟨db, run, reached, -⟩ := pending_runs 7 (le_refl 0) (by decide) now start (by simp [empty])
  refine ⟨db, ?_, reached⟩
  have older : newDatabase.userVersion = 0 := rfl
  rw [runMigrations, older, if_neg (by decide)]
  dsimp only
  rw [ite_self, created]
  dsimp only
  rw [Option.bind_eq_bind, Option.bind_some, run]

end Runs

/-- Numbers become text in a text column; every other value of the sample has its column's type. -/
@[reducible] def plainStoring : Storing where
  store
    | .text, .integer value => .text (toString value)
    | _, value => value
  store_store affinity value := by cases affinity <;> cases value <;> rfl
  store_null affinity value := by cases affinity <;> cases value <;> simp
  store_integer _ := rfl

def sampleRows : List Statement :=
  [.insert "document_cache" [("canonical_url", .text "https://docs.rs/"),
      ("content_hash", .text "5f1e"), ("extractor_version", .text "v1"), ("payload", .text "{}"),
      ("size_bytes", .integer 2), ("created_at", .integer 1700000000),
      ("last_accessed", .integer 1700000000), ("etag", .text "W/1")],
    .insert "telemetry_observations" [("id", .integer 1), ("observed_at", .integer 1700000000),
      ("provider", .text "brave"), ("category", .text "web"), ("outcome", .text "success"),
      ("latency_ms", .integer 120), ("total_results", .integer 10), ("unique_results", .integer 8),
      ("duplicate_ratio", .real 0x3FC999999999999A), ("top_k_contribution", .real 0x3FE0000000000000),
      ("diversity", .real 0x3FE0000000000000), ("cost_units", .integer 1),
      ("request_id", .text "r-1")]]

def sampleDatabase : Option (@Database plainStoring) :=
  letI := plainStoring
  (runMigrations (.ok ()) 1700000000 newDatabase).2.run sampleRows

theorem sampleDatabase_atVersion :
    letI := plainStoring
    ∃ db, sampleDatabase = some db ∧ AtVersion migrationVersion db := by
  let _ := plainStoring
  obtain ⟨opened, run, reached⟩ := newDatabase_opened 1700000000
  have some' : sampleDatabase.isSome = true := by decide +kernel
  obtain ⟨db, sample⟩ := Option.isSome_iff_exists.mp some'
  refine ⟨db, sample, ?_⟩
  have inserted : opened.run sampleRows = some db := by
    rw [← sample, sampleDatabase, run]
  have effect := run_effect inserted
  refine ⟨?_, ?_, ?_⟩
  · rw [effect.catalog]
    exact reached.catalog
  · exact effect.indexes schemaIndexes reached.indexes (by decide +kernel)
  · rw [effect.version]
    exact reached.version

theorem sampleDatabase_rollsBack :
    letI := plainStoring
    ∃ db, sampleDatabase = some db ∧ RollsBack 3 db := by
  let _ := plainStoring
  obtain ⟨db, sample, reached⟩ := sampleDatabase_atVersion
  exact ⟨db, sample, (rollsBack_iff reached).mpr (by decide)⟩

/-- The target 0 is accepted, and the database stays at version 1. -/
theorem zeroTarget_stays :
    letI := plainStoring
    ∃ db, sampleDatabase = some db ∧ AtVersion migrationVersion db ∧
      (∃ after, downgradeTo (.ok ()) 0 db = (.ok (), after) ∧ after.userVersion = 1) ∧
      ¬RollsBack 0 db := by
  let _ := plainStoring
  obtain ⟨db, sample, reached⟩ := sampleDatabase_atVersion
  have stays := downgradeTo_zero reached
  refine ⟨db, sample, reached, stays, fun back => ?_⟩
  obtain ⟨after, down, version⟩ := stays
  have zero := (back (.ok ()) after down).1
  rw [version] at zero
  cases zero

end Amatl
