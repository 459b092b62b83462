import Amatl.Backups
import Amatl.Config.Limits
import Mathlib.Logic.Function.Basic

/-! Restoring a database from a backup. What is read of a database is its main file with the
frames that were committed to the log beside it on top; restoring copies main files only. -/

namespace Amatl

open Text

inductive StorageError where
  | openError
  | operation
  | corrupt
  | incompatibleVersion (dbVersion codeVersion : Int)
  | lockContention
  deriving DecidableEq, Repr

/-- The frames of a transaction, and the number of pages that the database has after it. -/
structure Commit (Page : Type) where
  frames : List (Nat × Page)
  size : Nat
  deriving DecidableEq, Repr

structure DiskPath where
  dir : List Char
  name : List Char
  deriving DecidableEq, Repr

structure Disk (Page : Type) where
  main : DiskPath → Option (List Page)
  log : DiskPath → List (Commit Page)
  locked : DiskPath → Bool

variable {Page : Type}

/-- The last frame of a page hides what was read before. -/
def Commit.replay (read : Nat → Option Page) (commit : Commit Page) (n : Nat) : Option Page :=
  if n < commit.size then
    ((commit.frames.reverse.find? (·.1 = n)).map (·.2)).or (read n)
  else none

def overlay (pages : List Page) (log : List (Commit Page)) : Nat → Option Page :=
  log.foldl Commit.replay (fun n => pages[n]?)

def Disk.content (disk : Disk Page) (path : DiskPath) : Nat → Option Page :=
  overlay ((disk.main path).getD []) (disk.log path)

/-- What the code asks of SQLite: whether a first page has the header of a database, what
`quick_check` and `user_version` say of a content, and the migrations of an old one. -/
class Sqlite (Page : Type) where
  header : Page → Bool
  quickCheck : (Nat → Option Page) → Bool
  userVersion : (Nat → Option Page) → Int
  runPending : Disk Page → DiskPath → Except (StorageError × Disk Page) (Disk Page)

def migrationVersion : Int := 7

/-- `fs::copy` reads and writes one main file. Onto itself it truncates it. -/
def Disk.copy (disk : Disk Page) (source target : DiskPath) : Disk Page :=
  { disk with
    main := Function.update disk.main target
      (if source = target then some [] else disk.main source) }

def Disk.rename (disk : Disk Page) (source target : DiskPath) : Disk Page :=
  { disk with
    main := Function.update (Function.update disk.main target (disk.main source)) source none }

def quarantinePath (now : Int64) (path : DiskPath) : DiskPath :=
  ⟨path.dir, path.name ++ ".corrupt-".toList ++ displayInt now.toInt⟩

def quarantine (now : Int64) (path : DiskPath) (disk : Disk Page) : StorageError × Disk Page :=
  (.corrupt, disk.rename path (quarantinePath now path))

/-- `Path::with_extension`, so the copy has the name of a pre-restore backup. -/
def safetyPath (now : Int64) (path : DiskPath) : DiskPath :=
  ⟨path.dir, backupName (fileStem path.name) .preRestore now none⟩

section Sqlite

variable [Sqlite Page]

def quarantineIfHeaderIsInvalid (now : Int64) (path : DiskPath) (disk : Disk Page) :
    Except (StorageError × Disk Page) Unit :=
  match disk.main path with
  | none => .ok ()
  | some [] => .ok ()
  | some (first :: _) =>
    if Sqlite.header first then .ok () else .error (quarantine now path disk)

def openDatabase (now : Int64) (path : DiskPath) (mode : SqliteLockingMode) (disk : Disk Page) :
    Except (StorageError × Disk Page) (Disk Page) := do
  quarantineIfHeaderIsInvalid now path disk
  if mode = .exclusive ∧ disk.locked path = true then
    .error (.lockContention, disk)
  else if Sqlite.quickCheck (disk.content path) = false then
    .error (quarantine now path disk)
  else
    let version := Sqlite.userVersion (disk.content path)
    if migrationVersion < version then
      .error (.incompatibleVersion version migrationVersion, disk)
    else if version < migrationVersion then
      Sqlite.runPending disk path
    else
      .ok disk

/-- The safety copy of what is there, and the backup in its place. -/
def replaceFiles (now : Int64) (path backup : DiskPath) (disk : Disk Page) : Disk Page :=
  let saved := if (disk.main path).isSome then disk.copy path (safetyPath now path) else disk
  saved.copy backup path

def restoreFromBackup (now : Int64) (path backup : DiskPath) (mode : SqliteLockingMode)
    (disk : Disk Page) : Except (StorageError × Disk Page) (Disk Page) :=
  if (disk.main backup).isNone then
    .error (.openError, disk)
  else do
    quarantineIfHeaderIsInvalid now backup disk
    openDatabase now path mode (replaceFiles now path backup disk)

end Sqlite

theorem preRestore_name (now : Int64) :
    ∃ rest, '.' ∈ rest ∧ ∀ stem, backupName stem .preRestore now none = stem ++ '.' :: rest := by
  refine ⟨"pre-restore-".toList ++ displayInt now.toInt ++ extension, ?_, fun stem => ?_⟩
  · exact List.mem_append_right _ (by decide)
  · simp only [backupName, List.append_nil, List.append_assoc]
    rfl

theorem safetyPath_ne (now : Int64) (path : DiskPath) : safetyPath now path ≠ path := by
  intro same
  obtain ⟨rest, dotted, text⟩ := preRestore_name now
  have name : fileStem path.name ++ '.' :: rest = path.name := by
    rw [← text]
    exact congrArg DiskPath.name same
  rcases fileStem_cases path.name with whole | ⟨own, hname, dotless⟩
  · have lengths := congrArg List.length name
    rw [whole, List.length_append, List.length_cons] at lengths
    omega
  · have equal := List.append_cancel_left (name.trans hname)
    rw [(List.cons.inj equal).2] at dotted
    exact dotless dotted

/-- Of a valid backup, the restored database reads the same pages, and the safety copy those
that were read before. -/
def Restored (now : Int64) (path backup : DiskPath) (disk : Disk Page) : Prop :=
  let restored := replaceFiles now path backup disk
  restored.content path = disk.content backup ∧
    ((disk.main path).isSome → restored.content (safetyPath now path) = disk.content path)

structure Restorable (now : Int64) (path backup : DiskPath) (disk : Disk Page)
    (pages : List Page) : Prop where
  backupUnchanged : overlay pages (disk.log path) = overlay pages []
  liveUnchanged : ∀ live, disk.main path = some live →
    overlay live (disk.log (safetyPath now path)) = overlay live (disk.log path)
  notLive : backup = path → pages = []
  notSafety : backup = safetyPath now path → ∀ live, disk.main path = some live → live = pages

theorem overlay_nil_inj {pages other : List Page} (h : overlay pages [] = overlay other []) :
    pages = other :=
  List.ext_getElem? (fun n => congrFun h n)

section Replace

variable {now : Int64} {path backup : DiskPath} {disk : Disk Page} {pages : List Page}

theorem replaceFiles_log : (replaceFiles now path backup disk).log = disk.log := by
  unfold replaceFiles
  split <;> rfl

theorem replaceFiles_safety {live : List Page} (hlive : disk.main path = some live) :
    (replaceFiles now path backup disk).main (safetyPath now path) = some live := by
  have different := safetyPath_ne now path
  simp [replaceFiles, hlive, Disk.copy, Function.update_of_ne different, different.symm]

theorem replaceFiles_main (hpages : disk.main backup = some pages) (notLive : backup ≠ path)
    (notSafety : backup = safetyPath now path → disk.main path = none) :
    (replaceFiles now path backup disk).main path = some pages := by
  unfold replaceFiles
  simp only [Disk.copy, Function.update_self, if_neg notLive]
  split
  · rename_i live
    have other : backup ≠ safetyPath now path := by
      intro same
      rw [notSafety same] at live
      cases live
    simp only [Function.update_of_ne other, hpages]
  · exact hpages

theorem replaceFiles_onto_live : (replaceFiles now path path disk).main path = some [] := by
  simp [replaceFiles, Disk.copy]

theorem replaceFiles_from_safety {live : List Page} (hlive : disk.main path = some live) :
    (replaceFiles now path (safetyPath now path) disk).main path = some live := by
  have different := safetyPath_ne now path
  simp [replaceFiles, hlive, Disk.copy, different, different.symm]

theorem restored_iff {new : List Page} (hpages : disk.main backup = some pages)
    (alone : disk.log backup = [])
    (hnew : (replaceFiles now path backup disk).main path = some new) :
    Restored now path backup disk ↔
      overlay new (disk.log path) = overlay pages [] ∧
      ∀ live, disk.main path = some live →
        overlay live (disk.log (safetyPath now path)) = overlay live (disk.log path) := by
  have hrestored : (replaceFiles now path backup disk).content path =
      overlay new (disk.log path) := by
    simp [Disk.content, hnew, replaceFiles_log]
  have hbackup : disk.content backup = overlay pages [] := by
    simp [Disk.content, hpages, alone]
  unfold Restored
  dsimp only
  rw [hrestored, hbackup]
  refine and_congr Iff.rfl ?_
  cases hlive : disk.main path with
  | none => simp
  | some live =>
    have hsafety : (replaceFiles now path backup disk).content (safetyPath now path) =
        overlay live (disk.log (safetyPath now path)) := by
      simp [Disk.content, replaceFiles_safety hlive, replaceFiles_log]
    rw [hsafety]
    simp [Disk.content, hlive]

/-- The files are restored if and only if the frames of the live log change neither what the
backup nor what the live file holds, and the backup is neither of the two files that are
written. -/
theorem restored_iff_restorable (hpages : disk.main backup = some pages)
    (alone : disk.log backup = []) :
    Restored now path backup disk ↔ Restorable now path backup disk pages := by
  by_cases onto : backup = path
  · -- The copy truncates the file that it reads.
    subst onto
    rw [restored_iff hpages alone replaceFiles_onto_live, alone]
    constructor
    · intro ⟨same, safe⟩
      exact
        { backupUnchanged := by rw [alone]
          liveUnchanged := by rwa [alone]
          notLive := fun _ => (overlay_nil_inj same).symm
          notSafety := fun equal => absurd equal.symm (safetyPath_ne now backup) }
    · intro h
      refine ⟨by rw [h.notLive rfl], ?_⟩
      have unchanged := h.liveUnchanged
      rwa [alone] at unchanged
  by_cases covered : backup = safetyPath now path ∧ (disk.main path).isSome
  · -- The safety copy is written over the backup before the backup is read.
    obtain ⟨rfl, present⟩ := covered
    obtain ⟨live, hlive⟩ := Option.isSome_iff_exists.mp present
    rw [restored_iff hpages alone (replaceFiles_from_safety hlive), alone]
    constructor
    · intro ⟨same, safe⟩
      have equal : live = pages := overlay_nil_inj ((safe live hlive).trans same)
      exact
        { backupUnchanged := equal ▸ same
          liveUnchanged := by rwa [alone]
          notLive := fun equal => absurd equal onto
          notSafety := by
            intro _ other hother
            rw [hlive] at hother
            cases hother
            exact equal }
    · intro h
      have equal := h.notSafety rfl live hlive
      have unchanged := h.liveUnchanged
      rw [alone] at unchanged
      exact ⟨equal ▸ h.backupUnchanged, unchanged⟩
  · have notSafety : backup = safetyPath now path → disk.main path = none := by
      intro same
      have absent := fun present => covered ⟨same, present⟩
      simpa using absent
    rw [restored_iff hpages alone (replaceFiles_main hpages onto notSafety)]
    constructor
    · intro ⟨same, safe⟩
      exact
        { backupUnchanged := same
          liveUnchanged := safe
          notLive := fun equal => absurd equal onto
          notSafety := by
            intro same live hlive
            rw [notSafety same] at hlive
            cases hlive }
    · intro h
      exact ⟨h.backupUnchanged, h.liveUnchanged⟩

theorem Restorable.main (h : Restorable now path backup disk pages)
    (hpages : disk.main backup = some pages) :
    (replaceFiles now path backup disk).main path = some pages := by
  by_cases onto : backup = path
  · subst onto
    rw [replaceFiles_onto_live, h.notLive rfl]
  · cases hlive : disk.main path with
    | none => exact replaceFiles_main hpages onto (fun _ => hlive)
    | some live =>
      by_cases same : backup = safetyPath now path
      · rw [← h.notSafety same live hlive, same]
        exact replaceFiles_from_safety hlive
      · exact replaceFiles_main hpages onto (fun equal => absurd equal same)

theorem header_of_main [Sqlite Page] {other : Disk Page} {target : DiskPath}
    (same : other.main target = disk.main backup)
    (valid : quarantineIfHeaderIsInvalid now backup disk = .ok ()) :
    quarantineIfHeaderIsInvalid now target other = .ok () := by
  unfold quarantineIfHeaderIsInvalid at valid ⊢
  rw [same]
  split at valid
  · rfl
  · rfl
  · rename_i first rest _
    by_cases header : Sqlite.header first = true
    · rw [if_pos header]
    · rw [if_neg header] at valid
      cases valid

/-- For every state of the disk and every valid backup: the database that is opened is the
backup, and the safety copy is what was live, if and only if the frames of the live log change
nothing in either and the backup is not one of the files written; and then a backup that
is intact and of this version is opened. -/
theorem restoreFromBackup_restores [Sqlite Page] (now : Int64) (path : DiskPath)
    (mode : SqliteLockingMode) (hpages : disk.main backup = some pages) (alone : disk.log backup = [])
    (valid : quarantineIfHeaderIsInvalid now backup disk = .ok ()) :
    (Restored now path backup disk ↔ Restorable now path backup disk pages) ∧
    (Restorable now path backup disk pages →
      Sqlite.quickCheck (disk.content backup) = true →
      Sqlite.userVersion (disk.content backup) = migrationVersion →
      ¬ (mode = .exclusive ∧ disk.locked path = true) →
      restoreFromBackup now path backup mode disk = .ok (replaceFiles now path backup disk)) := by
  refine ⟨restored_iff_restorable hpages alone, ?_⟩
  intro restorable intact current unlocked
  have hmain := restorable.main hpages
  have hcontent := ((restored_iff_restorable hpages alone).mpr restorable).1
  have header : quarantineIfHeaderIsInvalid now path (replaceFiles now path backup disk) =
      .ok () := header_of_main (hmain.trans hpages.symm) valid
  have hlocked : (replaceFiles now path backup disk).locked = disk.locked := by
    unfold replaceFiles
    split <;> rfl
  unfold restoreFromBackup
  rw [hpages, valid]
  change openDatabase now path mode (replaceFiles now path backup disk) = _
  unfold openDatabase
  rw [header]
  change (if _ then _ else _) = _
  rw [hlocked, if_neg unlocked, hcontent, intact, if_neg (by decide), current]
  rfl

end Replace

section Runs

@[reducible] def anySqlite : Sqlite Nat where
  header _ := true
  quickCheck _ := true
  userVersion _ := migrationVersion
  runPending disk _ := .ok disk

def livePath : DiskPath := ⟨[], "amatl.db".toList⟩

def backupPath : DiskPath := ⟨[], "amatl-auto-5.sqlite3".toList⟩

def liveDisk (log : List (Commit Nat)) : Disk Nat where
  main path := if path = livePath then some [1] else if path = backupPath then some [3] else none
  log path := if path = livePath then log else []
  locked _ := false

theorem checkpointed_restores :
    letI := anySqlite
    Restored 9 livePath backupPath (liveDisk []) ∧
    restoreFromBackup 9 livePath backupPath .normal (liveDisk []) =
      .ok (replaceFiles 9 livePath backupPath (liveDisk [])) := by
  let _ := anySqlite
  have restores := restoreFromBackup_restores 9 livePath .normal
    (show (liveDisk []).main backupPath = some [3] from rfl) rfl rfl
  have restorable : Restorable 9 livePath backupPath (liveDisk []) [3] :=
    { backupUnchanged := rfl
      liveUnchanged := fun live _ => rfl
      notLive := by decide
      notSafety := by decide }
  exact ⟨restores.1.mpr restorable, restores.2 restorable rfl rfl (by decide)⟩

/-- A commit that is still in the log is replayed over the restored pages and is missing from
the safety copy. -/
theorem uncheckpointed_replayed :
    let disk := liveDisk [⟨[(0, 2)], 1⟩]
    let restored := replaceFiles 9 livePath backupPath disk
    ¬ Restored 9 livePath backupPath disk ∧
      disk.content backupPath 0 = some 3 ∧ restored.content livePath 0 = some 2 ∧
      disk.content livePath 0 = some 2 ∧
      restored.content (safetyPath 9 livePath) 0 = some 1 := by
  intro disk restored
  have replayed : restored.content livePath 0 = some 2 := by decide +kernel
  refine ⟨?_, by decide +kernel, replayed, by decide +kernel, by decide +kernel⟩
  intro same
  have equal := congrFun same.1 0
  rw [show disk.content backupPath 0 = some 3 by decide +kernel] at equal
  exact absurd (replayed.symm.trans equal) (by decide)

end Runs

end Amatl
