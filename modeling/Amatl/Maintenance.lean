import Amatl.AuditTrail
import Mathlib.Data.List.Chain

/-! The maintenance loop: what a purge takes from the five tables it looks after, and when
the loop makes a backup. -/

namespace Amatl

open Interleaving

inductive PurgedTable where
  | telemetry
  | history
  | cache
  | documentCache
  | audit
  deriving DecidableEq

/-- The order in which a purge goes through the tables. -/
def purgeOrder : List PurgedTable := [.telemetry, .history, .cache, .documentCache, .audit]

/-- A row as a purge sees it. -/
structure StampedRow where
  id : Nat
  stamp : Int64
  deriving DecidableEq

structure MaintenanceSetup where
  config : PersistenceConfig
  telemetryRetentionDays : UInt32

namespace MaintenanceSetup

def retentionDays (setup : MaintenanceSetup) : PurgedTable → UInt32
  | .telemetry => setup.telemetryRetentionDays
  | .history => setup.config.historyRetentionDays
  | .cache => setup.config.cacheRetentionDays
  | .documentCache => setup.config.documentCacheRetentionDays
  | .audit => setup.config.auditRetentionDays

/-- The period of the timer of the backups; zero is never. -/
def backupPeriod (setup : MaintenanceSetup) : UInt64 :=
  if setup.config.autoBackupEnabled then setup.config.autoBackupIntervalSeconds else 0

end MaintenanceSetup

/-- `i64::saturating_sub`. -/
def saturatingSub (a b : Int64) : Int64 :=
  let difference := a.toInt - b.toInt
  if 2 ^ 63 ≤ difference then Int64.maxValue
  else if difference < -2 ^ 63 then Int64.minValue
  else Int64.ofInt difference

/-- What the loop shares with the health report. -/
structure MaintenanceState where
  lastPurgeAt : Option Int64
  lastPurgeRowsRemoved : Nat
  lastBackupAt : Option Int64
  lastFsError : Option String

/-- What the loop is at. The turn that a tick began goes to its end before the loop looks at its
timers or at the cancellation again. -/
inductive MaintenanceTurn where
  | waiting
  /-- The tables still to be gone through, and the rows removed so far. -/
  | purging (now : Int64) (rest : List PurgedTable) (removed : Nat)
  | backingUp (now : Int64)
  | stopped

/-- The storage beside its loop: the time the loop knows of its last backup, and the times
of the ticks it made one for. -/
structure MaintenanceSite where
  tables : PurgedTable → List StampedRow
  shared : MaintenanceState
  turn : MaintenanceTurn
  cancelled : Bool
  lastBackupAt : Option Int64
  made : List Int64

inductive MaintenanceStep where
  | insert (table : PurgedTable) (row : StampedRow)
  | purgeTick (now : Int64)
  /-- The deletion from the next table, which may fail. -/
  | purgeTable (ok : Bool)
  | purgeEnd (fsError : Option String)
  | backupTick (now : Int64)
  | backupEnd (created : Except String Unit)
  /-- A backup that an operator asks for. -/
  | triggerBackup (now : Int64) (created : Except String Unit)
  | cancel
  /-- The loop takes the cancellation. -/
  | stop

namespace MaintenanceSetup

/-- The loop as it is spawned, which knows of the latest backup on the disk. Without anything to
schedule there is none. -/
def spawn (setup : MaintenanceSetup) (tables : PurgedTable → List StampedRow)
    (latest : Option Int64) : MaintenanceSite :=
  let idle := setup.config.purgeIntervalSeconds = 0 && !setup.config.autoBackupEnabled
  { tables := tables
    shared := ⟨none, 0, none, none⟩
    turn := if idle then .stopped else .waiting
    cancelled := idle
    lastBackupAt := latest
    made := [] }

def expired (setup : MaintenanceSetup) (now : Int64) (table : PurgedTable) (row : StampedRow) :
    Bool :=
  row.stamp < retentionCutoff now (setup.retentionDays table)

/-- The rows that a deletion leaves, and how many it took. -/
def pruneTable (setup : MaintenanceSetup) (now : Int64) (table : PurgedTable) (ok : Bool)
    (rows : List StampedRow) : List StampedRow × Nat :=
  if 0 < setup.retentionDays table && ok then
    (rows.filter (fun row => !setup.expired now table row),
      rows.countP (setup.expired now table))
  else (rows, 0)

def backupDue (setup : MaintenanceSetup) (site : MaintenanceSite) (now : Int64) : Bool :=
  match site.lastBackupAt with
  | none => true
  | some last => setup.config.autoBackupIntervalSeconds.toInt64 ≤ saturatingSub now last

/-- `select!` takes any branch that is ready: a tick that is due may win over the cancellation. -/
def step (setup : MaintenanceSetup) (site : MaintenanceSite) : MaintenanceStep →
    Option MaintenanceSite
  | .insert table row =>
    some { site with tables := Function.update site.tables table (site.tables table ++ [row]) }
  | .purgeTick now =>
    match site.turn with
    | .waiting =>
      if setup.config.purgeIntervalSeconds = 0 then none
      else some { site with turn := .purging now purgeOrder 0 }
    | _ => none
  | .purgeTable ok =>
    match site.turn with
    | .purging now (table :: rest) removed =>
      let left := setup.pruneTable now table ok (site.tables table)
      some { site with
        tables := Function.update site.tables table left.1
        turn := .purging now rest (removed + left.2) }
    | _ => none
  | .purgeEnd fsError =>
    match site.turn with
    | .purging now [] removed => some { site with
        shared := { site.shared with
          lastPurgeAt := some now
          lastPurgeRowsRemoved := removed
          lastFsError := fsError.or site.shared.lastFsError }
        turn := .waiting }
    | _ => none
  | .backupTick now =>
    match site.turn with
    | .waiting =>
      if setup.backupPeriod = 0 then none
      else if setup.backupDue site now then some { site with turn := .backingUp now }
      else some site
    | _ => none
  | .backupEnd created =>
    match site.turn, created with
    | .backingUp now, .ok () => some { site with
        shared := { site.shared with lastBackupAt := some now }
        turn := .waiting
        lastBackupAt := some now
        made := site.made ++ [now] }
    | .backingUp _, .error error => some { site with
        shared := { site.shared with lastFsError := some error }
        turn := .waiting }
    | _, _ => none
  | .triggerBackup now created =>
    match created with
    | .ok () => some { site with shared := { site.shared with lastBackupAt := some now } }
    | .error error => some { site with shared := { site.shared with lastFsError := some error } }
  | .cancel => some { site with cancelled := true }
  | .stop =>
    match site.turn with
    | .waiting => if site.cancelled then some { site with turn := .stopped } else none
    | _ => none

def run (setup : MaintenanceSetup) (site : MaintenanceSite) (steps : List MaintenanceStep) :
    MaintenanceSite :=
  Interleaving.run setup.step site steps

/-! What one deletion does to its table. -/

def totalRows (tables : PurgedTable → List StampedRow) : Nat :=
  (purgeOrder.map (fun table => (tables table).length)).sum

theorem totalRows_update (tables : PurgedTable → List StampedRow) (table : PurgedTable)
    (rows : List StampedRow) :
    totalRows (Function.update tables table rows) + (tables table).length =
      totalRows tables + rows.length := by
  cases table with
  | telemetry => simp [totalRows, purgeOrder, Function.update]; omega
  | history => simp [totalRows, purgeOrder, Function.update]; omega
  | cache => simp [totalRows, purgeOrder, Function.update]; omega
  | documentCache => simp [totalRows, purgeOrder, Function.update]; omega
  | audit => simp [totalRows, purgeOrder, Function.update]; omega

variable {setup : MaintenanceSetup} {site site' : MaintenanceSite}

theorem pruneTable_length (now : Int64) (table : PurgedTable) (ok : Bool)
    (rows : List StampedRow) :
    (setup.pruneTable now table ok rows).1.length + (setup.pruneTable now table ok rows).2 =
      rows.length := by
  unfold pruneTable
  split
  · have counted := List.length_eq_countP_add_countP (setup.expired now table) (l := rows)
    have kept : (rows.filter (fun row => !setup.expired now table row)).length =
        rows.countP (fun row => !setup.expired now table row) :=
      List.countP_eq_length_filter.symm
    simp only [kept]
    simp only [Bool.not_eq_true, Bool.decide_eq_false] at counted
    omega
  · rfl

theorem not_expired_iff {now : Int64} {table : PurgedTable} {row : StampedRow} :
    (!setup.expired now table row) = true ↔
      retentionCutoff now (setup.retentionDays table) ≤ row.stamp := by
  rw [expired, Bool.not_eq_true', decide_eq_false_iff_not, Int64.not_lt]

/-- The retention of the table does not reach the row, or there is none. -/
def Retained (setup : MaintenanceSetup) (now : Int64) (table : PurgedTable) (row : StampedRow) :
    Prop :=
  setup.retentionDays table = 0 ∨ retentionCutoff now (setup.retentionDays table) ≤ row.stamp

theorem mem_pruneTable {now : Int64} {table : PurgedTable} {ok : Bool} {rows : List StampedRow}
    {row : StampedRow} (mem : row ∈ rows) (retained : setup.Retained now table row) :
    row ∈ (setup.pruneTable now table ok rows).1 := by
  unfold pruneTable
  split
  · rename_i active
    rw [Bool.and_eq_true, decide_eq_true_eq] at active
    refine List.mem_filter.mpr ⟨mem, not_expired_iff.mpr (retained.resolve_left fun zero => ?_)⟩
    rw [zero] at active
    exact absurd active.1 (by decide)
  · exact mem

theorem retained_of_mem_pruneTable {now : Int64} {table : PurgedTable} {rows : List StampedRow}
    {row : StampedRow} (mem : row ∈ (setup.pruneTable now table true rows).1) :
    row ∈ rows ∧ setup.Retained now table row := by
  unfold pruneTable at mem
  split at mem
  · obtain ⟨there, fresh⟩ := List.mem_filter.mp mem
    exact ⟨there, .inr (not_expired_iff.mp fresh)⟩
  · rename_i inactive
    refine ⟨mem, .inl ?_⟩
    have zero : ¬0 < setup.retentionDays table := by simpa using inactive
    exact UInt32.le_zero_iff.mp (UInt32.not_lt.mp zero)

/-! What a step can do. -/

theorem step_cases {e : MaintenanceStep} (h : setup.step site e = some site') :
    match e with
    | .insert table row => site' = { site with
        tables := Function.update site.tables table (site.tables table ++ [row]) }
    | .purgeTick now => site.turn = .waiting ∧
        site' = { site with turn := .purging now purgeOrder 0 }
    | .purgeTable ok => ∃ now table rest removed, site.turn = .purging now (table :: rest) removed ∧
        site' = { site with
          tables := Function.update site.tables table
            (setup.pruneTable now table ok (site.tables table)).1
          turn := .purging now rest
            (removed + (setup.pruneTable now table ok (site.tables table)).2) }
    | .purgeEnd fsError => ∃ now removed, site.turn = .purging now [] removed ∧
        site' = { site with
          shared := { site.shared with
            lastPurgeAt := some now
            lastPurgeRowsRemoved := removed
            lastFsError := fsError.or site.shared.lastFsError }
          turn := .waiting }
    | .backupTick now => site.turn = .waiting ∧
        (site' = site ∨ setup.backupDue site now = true ∧
          site' = { site with turn := .backingUp now })
    | .backupEnd _ => ∃ now, site.turn = .backingUp now ∧ site'.tables = site.tables ∧
        site'.turn = .waiting ∧ site'.cancelled = site.cancelled ∧
        ((site'.lastBackupAt = site.lastBackupAt ∧ site'.made = site.made) ∨
          (site'.lastBackupAt = some now ∧ site'.made = site.made ++ [now]))
    | .triggerBackup _ _ => site'.tables = site.tables ∧
        site'.shared.lastPurgeAt = site.shared.lastPurgeAt ∧ site'.turn = site.turn ∧
        site'.cancelled = site.cancelled ∧ site'.lastBackupAt = site.lastBackupAt ∧
        site'.made = site.made
    | .cancel => site' = { site with cancelled := true }
    | .stop => site.turn = .waiting ∧ site.cancelled = true ∧
        site' = { site with turn := .stopped } := by
  cases e with
  | insert table row => exact (Option.some.inj h).symm
  | purgeTick now =>
    simp only [step] at h
    split at h
    · rename_i waits
      split at h
      · cases h
      · exact ⟨waits, (Option.some.inj h).symm⟩
    · cases h
  | purgeTable ok =>
    simp only [step] at h
    split at h
    · rename_i now table rest removed at_table
      exact ⟨now, table, rest, removed, at_table, (Option.some.inj h).symm⟩
    · cases h
  | purgeEnd fsError =>
    simp only [step] at h
    split at h
    · rename_i now removed at_end
      exact ⟨now, removed, at_end, (Option.some.inj h).symm⟩
    · cases h
  | backupTick now =>
    simp only [step] at h
    split at h
    · rename_i waits
      split at h
      · cases h
      · split at h
        · rename_i due
          exact ⟨waits, .inr ⟨due, (Option.some.inj h).symm⟩⟩
        · exact ⟨waits, .inl (Option.some.inj h).symm⟩
    · cases h
  | backupEnd created =>
    simp only [step] at h
    split at h
    · rename_i now at_backup made
      cases h
      exact ⟨now, at_backup, rfl, rfl, rfl, .inr ⟨rfl, rfl⟩⟩
    · rename_i now error at_backup failed
      cases h
      exact ⟨now, at_backup, rfl, rfl, rfl, .inl ⟨rfl, rfl⟩⟩
    · cases h
  | triggerBackup now created =>
    cases created <;> cases h <;> exact ⟨rfl, rfl, rfl, rfl, rfl, rfl⟩
  | cancel => exact (Option.some.inj h).symm
  | stop =>
    simp only [step] at h
    split at h
    · rename_i waits
      split at h
      · rename_i cancelled
        exact ⟨waits, cancelled, (Option.some.inj h).symm⟩
      · cases h
    · cases h

/-! Rows within the retention stay. -/

/-- The purge that the step begins does not take the row. -/
def Spares (setup : MaintenanceSetup) (table : PurgedTable) (row : StampedRow) :
    MaintenanceStep → Prop
  | .purgeTick now => setup.Retained now table row
  | _ => True

/-- The purge in progress does not take the row. -/
def SparedIn (setup : MaintenanceSetup) (table : PurgedTable) (row : StampedRow) :
    MaintenanceTurn → Prop
  | .purging now _ _ => setup.Retained now table row
  | _ => True

theorem mem_step {e : MaintenanceStep} {table : PurgedTable} {row : StampedRow}
    (mem : row ∈ site.tables table) (spared : setup.SparedIn table row site.turn)
    (spares : setup.Spares table row e) (h : setup.step site e = some site') :
    row ∈ site'.tables table ∧ setup.SparedIn table row site'.turn := by
  have step := step_cases h
  cases e with
  | insert other new =>
    rw [step]
    refine ⟨?_, spared⟩
    by_cases here : table = other
    · subst here
      simp [mem]
    · simpa [Function.update_of_ne here] using mem
  | purgeTick now =>
    rw [step.2]
    exact ⟨mem, spares⟩
  | purgeTable ok =>
    obtain ⟨now, other, rest, removed, at_table, rfl⟩ := step
    rw [at_table] at spared
    refine ⟨?_, spared⟩
    by_cases here : table = other
    · subst here
      simp only [Function.update_self]
      exact mem_pruneTable mem spared
    · simpa [Function.update_of_ne here] using mem
  | purgeEnd fsError =>
    obtain ⟨now, removed, -, rfl⟩ := step
    exact ⟨mem, trivial⟩
  | backupTick now =>
    obtain ⟨-, rfl | ⟨-, rfl⟩⟩ := step
    · exact ⟨mem, spared⟩
    · exact ⟨mem, trivial⟩
  | backupEnd created =>
    obtain ⟨now, -, tables, turn, -⟩ := step
    rw [tables, turn]
    exact ⟨mem, trivial⟩
  | triggerBackup now created =>
    rw [step.1, step.2.2.1]
    exact ⟨mem, spared⟩
  | cancel =>
    rw [step]
    exact ⟨mem, spared⟩
  | stop =>
    rw [step.2.2]
    exact ⟨mem, trivial⟩

theorem mem_run {steps : List MaintenanceStep} {table : PurgedTable} {row : StampedRow}
    (mem : row ∈ site.tables table) (spared : setup.SparedIn table row site.turn)
    (spares : ∀ e ∈ steps, setup.Spares table row e) :
    row ∈ (setup.run site steps).tables table := by
  induction steps generalizing site with
  | nil => exact mem
  | cons e rest ih =>
    obtain ⟨here, later⟩ := List.forall_mem_cons.mp spares
    cases h : setup.step site e with
    | none =>
      rw [run, Interleaving.run, h]
      exact ih mem spared later
    | some next =>
      rw [run, Interleaving.run, h]
      obtain ⟨stays, still⟩ := mem_step mem spared here h
      exact ih stays still later

/-! A purge from its tick on, whatever is inserted between its deletions. -/

def insertions (steps : List MaintenanceStep) : List (PurgedTable × StampedRow) :=
  steps.filterMap (fun e =>
    match e with
    | .insert table row => some (table, row)
    | _ => none)

/-- What the purge has removed is counted, and the tables it is through with hold what it retains
and what was inserted meanwhile. -/
structure Purging (setup : MaintenanceSetup) (now : Int64) (before : Nat)
    (inserted : List (PurgedTable × StampedRow)) (clean : Prop) (site : MaintenanceSite) :
    Prop where
  counted : ∃ rest removed, site.turn = .purging now rest removed ∧
    removed + totalRows site.tables = before + inserted.length
  kept : clean → ∀ rest removed, site.turn = .purging now rest removed → ∀ table ∉ rest,
    ∀ row ∈ site.tables table, setup.Retained now table row ∨ (table, row) ∈ inserted

theorem Purging.step {now : Int64} {before : Nat} {inserted : List (PurgedTable × StampedRow)}
    {clean : Prop} {e : MaintenanceStep} (purging : setup.Purging now before inserted clean site)
    (works : clean → e ≠ .purgeTable false) (continues : ∀ fsError, e ≠ .purgeEnd fsError)
    (h : setup.step site e = some site') :
    setup.Purging now before (inserted ++ insertions [e]) clean site' := by
  obtain ⟨rest, removed, turn, counted⟩ := purging.counted
  have step := step_cases h
  have same : ∀ {site' : MaintenanceSite}, insertions [e] = [] → site'.tables = site.tables →
      site'.turn = site.turn →
      setup.Purging now before (inserted ++ insertions [e]) clean site' := by
    intro site' none tables still
    rw [none, List.append_nil]
    exact ⟨⟨rest, removed, still.trans turn, by rw [tables]; exact counted⟩,
      fun ok rest' removed' turn' => tables ▸ purging.kept ok rest' removed' (still ▸ turn')⟩
  cases e with
  | insert table row =>
    rw [step]
    have grown := totalRows_update site.tables table (site.tables table ++ [row])
    rw [List.length_append, List.length_singleton] at grown
    have one : insertions [.insert table row] = [(table, row)] := rfl
    refine ⟨⟨rest, removed, turn, ?_⟩, fun ok rest' removed' turn' other fresh kept mem => ?_⟩
    · simp only [one, List.length_append, List.length_singleton]
      omega
    · rw [one, List.mem_append, List.mem_singleton]
      by_cases here : other = table
      · subst here
        simp only [Function.update_self, List.mem_append, List.mem_singleton] at mem
        rcases mem with there | rfl
        · exact (purging.kept ok rest' removed' turn' other fresh kept there).imp_right .inl
        · exact .inr (.inr rfl)
      · simp only [Function.update_of_ne here] at mem
        exact (purging.kept ok rest' removed' turn' other fresh kept mem).imp_right .inl
  | purgeTick now' =>
    rw [turn] at step
    cases step.1
  | purgeTable ok =>
    obtain ⟨now', table, rest', removed', at_table, rfl⟩ := step
    cases turn.symm.trans at_table
    have shrunk := totalRows_update site.tables table
      (setup.pruneTable now table ok (site.tables table)).1
    have taken := setup.pruneTable_length now table ok (site.tables table)
    have none : insertions [.purgeTable ok] = [] := rfl
    rw [none, List.append_nil]
    refine ⟨⟨rest', _, rfl, by simp only; omega⟩, fun fine rest'' removed'' turn' other fresh
      row mem => ?_⟩
    cases turn'
    by_cases here : other = table
    · subst here
      have works : ok = true := by
        cases ok with
        | true => rfl
        | false => exact absurd rfl (works fine)
      subst works
      simp only [Function.update_self] at mem
      exact .inl (retained_of_mem_pruneTable mem).2
    · simp only [Function.update_of_ne here] at mem
      have passed : other ∉ table :: rest' := by simp [here, fresh]
      exact purging.kept fine _ _ turn other passed row mem
  | purgeEnd fsError => exact absurd rfl (continues fsError)
  | backupTick now' =>
    rw [turn] at step
    cases step.1
  | backupEnd created =>
    obtain ⟨now', at_backup, -⟩ := step
    rw [turn] at at_backup
    cases at_backup
  | triggerBackup now' created => exact same rfl step.1 step.2.2.1
  | cancel =>
    rw [step]
    exact same rfl rfl rfl
  | stop =>
    rw [turn] at step
    cases step.1

theorem Purging.run {now : Int64} {before : Nat} {inserted : List (PurgedTable × StampedRow)}
    {clean : Prop} {during : List MaintenanceStep}
    (purging : setup.Purging now before inserted clean site)
    (works : clean → .purgeTable false ∉ during)
    (continues : ∀ fsError, .purgeEnd fsError ∉ during) :
    ∃ inserted', setup.Purging now before (inserted ++ inserted') clean
        (setup.run site during) ∧ inserted'.Sublist (insertions during) := by
  induction during generalizing site inserted with
  | nil => exact ⟨[], by rw [List.append_nil]; exact purging, .slnil⟩
  | cons e during ih =>
    have works' : clean → .purgeTable false ∉ during :=
      fun ok mem => works ok (List.mem_cons_of_mem e mem)
    have continues' : ∀ fsError, .purgeEnd fsError ∉ during :=
      fun fsError mem => continues fsError (List.mem_cons_of_mem e mem)
    have split : insertions (e :: during) = insertions [e] ++ insertions during := by
      rw [insertions, insertions, insertions, ← List.filterMap_append, List.singleton_append]
    rw [split]
    cases h : setup.step site e with
    | none =>
      obtain ⟨inserted', done, few⟩ := ih purging works' continues'
      rw [MaintenanceSetup.run, Interleaving.run, h]
      exact ⟨inserted', done, few.trans (List.sublist_append_right _ _)⟩
    | some next =>
      have here := purging.step (fun ok same => works ok (same ▸ List.mem_cons_self))
        (fun fsError same => continues fsError (same ▸ List.mem_cons_self)) h
      obtain ⟨inserted', done, few⟩ := ih here works' continues'
      rw [MaintenanceSetup.run, Interleaving.run, h]
      refine ⟨insertions [e] ++ inserted', by rw [← List.append_assoc]; exact done, ?_⟩
      exact (List.Sublist.refl _).append few

/-! Backups keep their distance. -/

/-- The time between two backups, as it is compared. -/
def backupGap (setup : MaintenanceSetup) : Int := setup.config.autoBackupIntervalSeconds.toNat

def Apart (setup : MaintenanceSetup) (earlier later : Int64) : Prop :=
  setup.backupGap ≤ later.toInt - earlier.toInt

theorem apart_of_due (small : setup.config.autoBackupIntervalSeconds.toNat < 2 ^ 63)
    {now last : Int64} (known : site.lastBackupAt = some last)
    (due : setup.backupDue site now = true) : setup.Apart last now := by
  simp only [backupDue, known, decide_eq_true_eq] at due
  have interval : setup.config.autoBackupIntervalSeconds.toInt64.toInt = setup.backupGap := by
    have cond := BitVec.toInt_eq_toNat_cond setup.config.autoBackupIntervalSeconds.toBitVec
    have same : setup.config.autoBackupIntervalSeconds.toInt64.toInt =
        setup.config.autoBackupIntervalSeconds.toBitVec.toInt := rfl
    have size : setup.config.autoBackupIntervalSeconds.toBitVec.toNat =
        setup.config.autoBackupIntervalSeconds.toNat := rfl
    rw [backupGap, same, cond, if_pos (by omega), size]
  have bound := Int64.le_iff_toInt_le.mp due
  have positive : 0 ≤ setup.backupGap := Int.natCast_nonneg _
  have greatest : Int64.maxValue.toInt = 2 ^ 63 - 1 := by decide
  have least : Int64.minValue.toInt = -2 ^ 63 := by decide
  rw [interval] at bound
  unfold Apart
  unfold saturatingSub at bound
  simp only at bound
  split at bound
  · omega
  · split at bound
    · omega
    · rwa [Int64.toInt_ofInt_of_le (by omega) (by omega)] at bound

/-- The loop knows its last backup, its backups are apart, and so is the one it is making. -/
structure Cadenced (setup : MaintenanceSetup) (latest : Option Int64) (site : MaintenanceSite) :
    Prop where
  known : site.lastBackupAt = (latest.toList ++ site.made).getLast?
  apart : (latest.toList ++ site.made).IsChain setup.Apart
  next : ∀ now, site.turn = .backingUp now → ∀ last ∈ site.lastBackupAt, setup.Apart last now

theorem Cadenced.step {latest : Option Int64} {e : MaintenanceStep}
    (small : setup.config.autoBackupIntervalSeconds.toNat < 2 ^ 63)
    (cadenced : setup.Cadenced latest site) (h : setup.step site e = some site') :
    setup.Cadenced latest site' := by
  have step := step_cases h
  cases e with
  | insert table row =>
    rw [step]
    exact ⟨cadenced.known, cadenced.apart, cadenced.next⟩
  | purgeTick now =>
    rw [step.2]
    exact ⟨cadenced.known, cadenced.apart, by simp⟩
  | purgeTable ok =>
    obtain ⟨now, table, rest, removed, -, rfl⟩ := step
    exact ⟨cadenced.known, cadenced.apart, by simp⟩
  | purgeEnd fsError =>
    obtain ⟨now, removed, -, rfl⟩ := step
    exact ⟨cadenced.known, cadenced.apart, by simp⟩
  | backupTick now =>
    obtain ⟨-, rfl | ⟨due, rfl⟩⟩ := step
    · exact cadenced
    · refine ⟨cadenced.known, cadenced.apart, fun now' at_backup last known => ?_⟩
      cases at_backup
      exact apart_of_due small known due
  | backupEnd created =>
    obtain ⟨now, at_backup, -, turn, -, ⟨last, made⟩ | ⟨last, made⟩⟩ := step
    · exact ⟨by rw [last, made, cadenced.known], made ▸ cadenced.apart, by simp [turn]⟩
    · refine ⟨?_, ?_, by simp [turn]⟩
      · rw [last, made, ← List.append_assoc, List.getLast?_concat]
      · rw [made, ← List.append_assoc]
        refine List.isChain_append.mpr ⟨cadenced.apart, .singleton _, ?_⟩
        intro previous ends later begins
        cases (Option.mem_def.mp begins : some now = some later)
        exact cadenced.next now at_backup previous (cadenced.known.trans ends)
  | triggerBackup now created =>
    obtain ⟨-, -, turn, -, last, made⟩ := step
    exact ⟨by rw [last, made, cadenced.known], made ▸ cadenced.apart,
      by rw [turn, last]; exact cadenced.next⟩
  | cancel =>
    rw [step]
    exact ⟨cadenced.known, cadenced.apart, cadenced.next⟩
  | stop =>
    rw [step.2.2]
    exact ⟨cadenced.known, cadenced.apart, by simp⟩

/-- Nothing of the loop happens any more. -/
structure Stopped (before site : MaintenanceSite) : Prop where
  turn : site.turn = .stopped
  made : site.made = before.made
  purged : site.shared.lastPurgeAt = before.shared.lastPurgeAt
  tables : ∀ table, before.tables table <+: site.tables table

theorem Stopped.step {before : MaintenanceSite} {e : MaintenanceStep}
    (stopped : Stopped before site) (h : setup.step site e = some site') :
    Stopped before site' := by
  have step := step_cases h
  have turn := stopped.turn
  cases e with
  | insert table row =>
    rw [step]
    refine ⟨stopped.turn, stopped.made, stopped.purged, fun other => ?_⟩
    by_cases here : other = table
    · subst here
      simp only [Function.update_self]
      exact (stopped.tables other).trans (List.prefix_append ..)
    · simp only [Function.update_of_ne here]
      exact stopped.tables other
  | purgeTick now => exact absurd (turn.symm.trans step.1) (by simp)
  | purgeTable ok =>
    obtain ⟨now, table, rest, removed, at_table, -⟩ := step
    exact absurd (turn.symm.trans at_table) (by simp)
  | purgeEnd fsError =>
    obtain ⟨now, removed, at_end, -⟩ := step
    exact absurd (turn.symm.trans at_end) (by simp)
  | backupTick now => exact absurd (turn.symm.trans step.1) (by simp)
  | backupEnd created =>
    obtain ⟨now, at_backup, -⟩ := step
    exact absurd (turn.symm.trans at_backup) (by simp)
  | triggerBackup now created =>
    obtain ⟨tables, purged, still, -, -, made⟩ := step
    exact ⟨still.trans turn, made.trans stopped.made, purged.trans stopped.purged,
      tables ▸ stopped.tables⟩
  | cancel =>
    rw [step]
    exact ⟨turn, stopped.made, stopped.purged, stopped.tables⟩
  | stop => exact absurd (turn.symm.trans step.1) (by simp)

/-- The loop ends by its cancellation alone. -/
def Cancellable (site : MaintenanceSite) : Prop := site.turn = .stopped → site.cancelled = true

theorem Cancellable.step {e : MaintenanceStep} (cancellable : Cancellable site)
    (h : setup.step site e = some site') : Cancellable site' := by
  have step := step_cases h
  intro ended
  cases e with
  | insert table row =>
    rw [step] at ended ⊢
    exact cancellable ended
  | purgeTick now =>
    rw [step.2] at ended
    cases ended
  | purgeTable ok =>
    obtain ⟨now, table, rest, removed, -, rfl⟩ := step
    cases ended
  | purgeEnd fsError =>
    obtain ⟨now, removed, -, rfl⟩ := step
    cases ended
  | backupTick now =>
    obtain ⟨-, rfl | ⟨-, rfl⟩⟩ := step
    · exact cancellable ended
    · cases ended
  | backupEnd created =>
    obtain ⟨now, -, -, turn, -⟩ := step
    rw [turn] at ended
    cases ended
  | triggerBackup now created =>
    rw [step.2.2.2.1]
    exact cancellable (step.2.2.1 ▸ ended)
  | cancel => rw [step]
  | stop => rw [step.2.2]; exact step.2.1

/-- Over every run of the loop: rows within the retention of their table stay through all
purges; a purge has removed as many rows as it counts and reports them, and where its deletions
work the tables it is through with hold no row beyond the retention but those inserted
meanwhile; the backups of the loop and the latest one on the disk before it are an interval
apart; and a loop that has ended was cancelled, and removes and backs up nothing. -/
theorem maintenance_run (setup : MaintenanceSetup) (tables : PurgedTable → List StampedRow)
    (latest : Option Int64) (steps more : List MaintenanceStep) :
    let site := setup.run (setup.spawn tables latest) steps
    (∀ table, ∀ row ∈ site.tables table, setup.SparedIn table row site.turn →
      (∀ e ∈ more, setup.Spares table row e) → row ∈ (setup.run site more).tables table) ∧
    (∀ now begun, setup.step site (.purgeTick now) = some begun →
      (∀ fsError, .purgeEnd fsError ∉ more) →
      let after := setup.run begun more
      ∃ (rest : List PurgedTable) (removed : Nat) (inserted : List (PurgedTable × StampedRow)),
        after.turn = .purging now rest removed ∧
        inserted.Sublist (insertions more) ∧
        removed + totalRows after.tables = totalRows site.tables + inserted.length ∧
        (.purgeTable false ∉ more → ∀ table ∉ rest, ∀ row ∈ after.tables table,
          setup.Retained now table row ∨ (table, row) ∈ inserted) ∧
        ∀ fsError reported, setup.step after (.purgeEnd fsError) = some reported →
          rest = [] ∧ reported.tables = after.tables ∧
          reported.shared.lastPurgeRowsRemoved = removed) ∧
    (setup.config.autoBackupIntervalSeconds.toNat < 2 ^ 63 →
      (latest.toList ++ site.made).IsChain setup.Apart) ∧
    (site.turn = .stopped → site.cancelled = true ∧ Stopped site (setup.run site more)) := by
  refine ⟨fun table row mem spared spares => mem_run mem spared spares, ?_, fun small => ?_,
    fun ended => ⟨?_, ?_⟩⟩
  · intro now begun h continues
    obtain ⟨-, rfl⟩ := step_cases h
    have begins : setup.Purging now (totalRows (setup.run (setup.spawn tables latest) steps).tables)
        [] (.purgeTable false ∉ more)
        { setup.run (setup.spawn tables latest) steps with turn := .purging now purgeOrder 0 } := by
      refine ⟨⟨purgeOrder, 0, rfl, by simp⟩, fun _ rest removed turn table fresh => ?_⟩
      cases turn
      exact absurd (by cases table <;> decide) fresh
    obtain ⟨inserted, purging, few⟩ := begins.run (fun works => works) continues
    rw [List.nil_append] at purging
    obtain ⟨rest, removed, turn, counted⟩ := purging.counted
    refine ⟨rest, removed, inserted, turn, few, counted,
      fun works => purging.kept works rest removed turn, fun fsError reported done => ?_⟩
    obtain ⟨now', removed', at_end, rfl⟩ := step_cases done
    cases turn.symm.trans at_end
    exact ⟨rfl, rfl, rfl⟩
  · have start : setup.Cadenced latest (setup.spawn tables latest) := by
      have quiet : ∀ now, (setup.spawn tables latest).turn ≠ .backingUp now := by
        intro now
        unfold spawn
        simp only
        split <;> simp
      cases latest with
      | none => exact ⟨rfl, .nil, fun now at_backup => absurd at_backup (quiet now)⟩
      | some last => exact ⟨rfl, .singleton _, fun now at_backup => absurd at_backup (quiet now)⟩
    exact (run_keeps (fun _ _ _ cadenced h => cadenced.step small h) start steps).apart
  · have start : Cancellable (setup.spawn tables latest) := by
      intro ended
      unfold spawn at ended ⊢
      simp only at ended ⊢
      split at ended
      · rename_i idle
        exact idle
      · cases ended
    exact run_keeps (fun _ _ _ cancellable h => cancellable.step h) start steps ended
  · exact run_keeps (fun _ _ _ stopped h => stopped.step h)
      ⟨ended, rfl, rfl, fun _ => List.prefix_refl _⟩ more

end MaintenanceSetup

end Amatl
