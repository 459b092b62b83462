import Amatl.Backups

/-! The backups in their directories: automatic ones are rotated by the timestamps read from
their names, the others stay. -/

namespace Amatl

open StableSort

/-- An entry of a directory. `written` records the backup that was written there, if one
was. -/
structure BackupFile (Dir : Type*) where
  dir : Dir
  name : List Char
  regular : Bool
  written : Option (BackupKind × Int64)
  deriving DecidableEq

/-- The order in which the names of a directory are read is not fixed. -/
structure ReadDir where
  order : List (List Char) → List (List Char)
  perm : ∀ names, (order names).Perm names

structure BackupSetup (Dir : Type*) where
  readDir : ReadDir
  stem : List Char
  backupDir : Dir
  databaseDir : Dir
  maxCount : UInt32

variable {Dir : Type*} [DecidableEq Dir]

local instance lawfulName : LawfulBEq (List Char) := inferInstance

def taken (dir : Dir) (files : List (BackupFile Dir)) : List (List Char) :=
  (files.filter (·.dir = dir)).map (·.name)

def listed (dir : Dir) (files : List (BackupFile Dir)) : List (List Char) :=
  (files.filter (fun file => file.dir = dir && file.regular)).map (·.name)

def removeFile (file : BackupFile Dir) (files : List (BackupFile Dir)) : List (BackupFile Dir) :=
  files.filter (fun other => !(other.dir = file.dir && other.name = file.name))

def writeFile (file : BackupFile Dir) (files : List (BackupFile Dir)) : List (BackupFile Dir) :=
  removeFile file files ++ [file]

/-- `VACUUM INTO` does not write over a file. -/
def vacuumInto (file : BackupFile Dir) (files : List (BackupFile Dir)) :
    Option (BackupFile Dir) :=
  if file.name ∈ taken file.dir files then none else some file

/-- `fs::copy` writes over a file, not over a directory. -/
def copyInto (file : BackupFile Dir) (files : List (BackupFile Dir)) : Option (BackupFile Dir) :=
  if files.any (fun other => other.dir = file.dir && other.name = file.name && !other.regular)
  then none else some file

variable (setup : BackupSetup Dir)

def autoBackups (files : List (BackupFile Dir)) : List BackupEntry :=
  (scanBackups setup.stem (setup.readDir.order (listed setup.backupDir files))).filter
    (·.kind = .auto)

def rotateBackups (files : List (BackupFile Dir)) : List (BackupFile Dir) :=
  let rotated := ((autoBackups setup files).drop setup.maxCount.toNat).map (·.name)
  files.filter (fun file => !(file.dir = setup.backupDir && file.name ∈ rotated))

inductive BackupOp where
  | auto (now : Int64) (verified : Bool)
  | migration (now : Int64) (processId : UInt32)
  | preRestore (now : Int64)
  deriving DecidableEq, Repr

/-- The file that is written, if one is. -/
def BackupOp.target (op : BackupOp) (files : List (BackupFile Dir)) : Option (BackupFile Dir) :=
  match op with
  | .auto now _ =>
    let name := unusedBackupName setup.stem .auto now 999 (taken setup.backupDir files)
    vacuumInto ⟨setup.backupDir, name, true, some (.auto, now)⟩ files
  | .migration now processId =>
    let name := unusedBackupName setup.stem .migration now processId.toNat
      (taken setup.databaseDir files)
    vacuumInto ⟨setup.databaseDir, name, true, some (.migration, now)⟩ files
  | .preRestore now =>
    copyInto ⟨setup.databaseDir, backupName setup.stem .preRestore now none, true,
      some (.preRestore, now)⟩ files

/-- A backup that fails its verification is removed again, and nothing is rotated. -/
def backupStep (files : List (BackupFile Dir)) (op : BackupOp) : List (BackupFile Dir) :=
  match op.target setup files with
  | none => files
  | some file =>
    match op with
    | .auto _ true => rotateBackups setup (writeFile file files)
    | .auto _ false => removeFile file (writeFile file files)
    | .migration _ _ => writeFile file files
    | .preRestore _ => writeFile file files

/-- The file that is written and not discarded. -/
def BackupOp.saved (op : BackupOp) (files : List (BackupFile Dir)) : Option (BackupFile Dir) :=
  if op matches .auto _ false then none else op.target setup files

def backupRun (files : List (BackupFile Dir)) (ops : List BackupOp) : List (BackupFile Dir) :=
  ops.foldl (backupStep setup) files

def backupHistory (files : List (BackupFile Dir)) : List BackupOp → List (BackupFile Dir)
  | [] => files
  | op :: ops =>
    files ++ (op.saved setup files).toList ++ backupHistory (backupStep setup files op) ops

/-- Nothing has the name that a backup has at its first attempt. -/
def plainNameFree (files : List (BackupFile Dir)) : BackupOp → Bool
  | .auto now _ => backupName setup.stem .auto now none ∉ taken setup.backupDir files
  | .migration now _ => backupName setup.stem .migration now none ∉ taken setup.databaseDir files
  | .preRestore _ => true

def plainNamesFree (files : List (BackupFile Dir)) : List BackupOp → Bool
  | [] => true
  | op :: ops => plainNameFree setup files op && plainNamesFree (backupStep setup files op) ops

/-! What rotation leaves. -/

def autoEntry (file : BackupFile Dir) : Option BackupEntry :=
  if file.dir = setup.backupDir && file.regular then
    (scanEntry setup.stem file.name).filter (·.kind = .auto)
  else none

def autoEntries (files : List (BackupFile Dir)) : List BackupEntry :=
  files.filterMap (autoEntry setup)

variable {setup} {files : List (BackupFile Dir)}

theorem autoEntry_eq_some {file : BackupFile Dir} {entry : BackupEntry} :
    autoEntry setup file = some entry ↔
      file.dir = setup.backupDir ∧ file.regular = true ∧
        scanName setup.stem file.name = some (.auto, entry.createdAt) ∧
        entry = ⟨file.name, .auto, entry.createdAt⟩ := by
  unfold autoEntry
  constructor
  · intro h
    split at h
    · rename_i here
      obtain ⟨found, auto⟩ := Option.filter_eq_some_iff.mp h
      obtain ⟨⟨kind, createdAt⟩, scanned, rfl⟩ := Option.map_eq_some_iff.mp found
      simp only [Bool.and_eq_true, decide_eq_true_eq] at here auto
      subst auto
      exact ⟨here.1, here.2, scanned, rfl⟩
    · cases h
  · intro ⟨dir, regular, scanned, hentry⟩
    rw [hentry]
    simp [dir, regular, scanEntry, scanned, Option.filter]

theorem mem_autoEntries {entry : BackupEntry} :
    entry ∈ autoEntries setup files ↔ ∃ file ∈ files, autoEntry setup file = some entry :=
  List.mem_filterMap

theorem listed_autoEntries (files : List (BackupFile Dir)) :
    ((listed setup.backupDir files).filterMap (scanEntry setup.stem)).filter (·.kind = .auto) =
      autoEntries setup files := by
  unfold listed autoEntries
  rw [List.filterMap_map, List.filter_filterMap, List.filterMap_filter]
  refine List.filterMap_congr (fun file _ => ?_)
  simp only [autoEntry, Function.comp_apply]

theorem autoBackups_perm (files : List (BackupFile Dir)) :
    (autoBackups setup files).Perm (autoEntries setup files) := by
  rw [← listed_autoEntries]
  refine List.Perm.filter _ ?_
  exact (sortBy_perm _ _).trans ((setup.readDir.perm _).filterMap _)

/-- The paths of a directory's entries are different. -/
def DistinctPaths (files : List (BackupFile Dir)) : Prop :=
  files.Pairwise (fun a b => ¬ (a.dir = b.dir ∧ a.name = b.name))

theorem autoEntries_nodup (distinct : DistinctPaths files) :
    ((autoEntries setup files).map (·.name)).Nodup := by
  rw [List.Nodup, List.pairwise_map]
  refine List.Pairwise.filterMap _ ?_ distinct
  intro a b different entry ha other hb same
  obtain ⟨dirA, -, -, ea⟩ := autoEntry_eq_some.mp ha
  obtain ⟨dirB, -, -, eb⟩ := autoEntry_eq_some.mp hb
  rw [ea, eb] at same
  exact different ⟨dirA.trans dirB.symm, same⟩

theorem autoBackups_nodup (distinct : DistinctPaths files) :
    ((autoBackups setup files).map (·.name)).Nodup :=
  ((autoBackups_perm files).map _).nodup_iff.mpr (autoEntries_nodup distinct)

theorem rotateBackups_autoEntries (files : List (BackupFile Dir)) :
    autoEntries setup (rotateBackups setup files) =
      (autoEntries setup files).filter (fun entry =>
        entry.name ∉ ((autoBackups setup files).drop setup.maxCount.toNat).map (·.name)) := by
  unfold autoEntries rotateBackups
  rw [List.filterMap_filter, List.filter_filterMap]
  refine List.filterMap_congr (fun file _ => ?_)
  cases h : autoEntry setup file with
  | none => simp
  | some entry =>
    obtain ⟨dir, -, -, hentry⟩ := autoEntry_eq_some.mp h
    have name : entry.name = file.name := by rw [hentry]
    simp [dir, name, Option.filter]

theorem filter_eq_take {α β : Type*} {f : α → β} {l : List α} {n : Nat} {p : α → Bool}
    (distinct : (l.map f).Nodup) (hp : ∀ a, p a = true ↔ f a ∉ (l.drop n).map f) :
    l.filter p = l.take n := by
  have parts : ((l.take n).map f ++ (l.drop n).map f).Nodup := by
    rw [← List.map_append, List.take_append_drop]
    exact distinct
  have apart := List.disjoint_of_nodup_append parts
  have front : (l.take n).filter p = l.take n := by
    refine List.filter_eq_self.mpr (fun a mem => (hp a).mpr ?_)
    exact apart (List.mem_map_of_mem mem)
  have back : (l.drop n).filter p = [] := by
    refine List.filter_eq_nil_iff.mpr (fun a mem late => (hp a).mp late ?_)
    exact List.mem_map_of_mem mem
  calc l.filter p
      = (l.take n).filter p ++ (l.drop n).filter p := by
        rw [← List.filter_append, List.take_append_drop]
    _ = l.take n := by rw [front, back, List.append_nil]

/-- Rotation keeps the front of the list it sorts. -/
theorem rotateBackups_perm (distinct : DistinctPaths files) :
    (autoEntries setup (rotateBackups setup files)).Perm
      ((autoBackups setup files).take setup.maxCount.toNat) := by
  rw [rotateBackups_autoEntries,
    ← filter_eq_take (autoBackups_nodup distinct) (fun _ => decide_eq_true_iff)]
  exact List.Perm.filter _ (autoBackups_perm files).symm

theorem newestFirst_isLE (a b : BackupEntry) :
    (newestFirst a b).isLE = true ↔ b.createdAt ≤ a.createdAt :=
  Std.LawfulOrderOrd.isLE_compare b.createdAt a.createdAt

instance : Std.TransCmp newestFirst where
  eq_swap := Std.OrientedOrd.eq_swap
  isLE_trans := by
    intro a b c ab bc
    rw [newestFirst_isLE] at ab bc ⊢
    omega

theorem rotateBackups_length (distinct : DistinctPaths files) :
    (autoEntries setup (rotateBackups setup files)).length =
      min setup.maxCount.toNat (autoEntries setup files).length := by
  rw [(rotateBackups_perm distinct).length_eq, List.length_take, (autoBackups_perm files).length_eq]

theorem rotateBackups_newest (distinct : DistinctPaths files) {entry kept : BackupEntry}
    (mem : entry ∈ autoEntries setup files)
    (gone : entry ∉ autoEntries setup (rotateBackups setup files))
    (stays : kept ∈ autoEntries setup (rotateBackups setup files)) :
    entry.createdAt ≤ kept.createdAt := by
  have sorted : (autoBackups setup files).Pairwise (Below newestFirst) :=
    (sortBy_pairwise _).filter _
  rw [(rotateBackups_perm distinct).mem_iff] at gone stays
  rw [← List.take_append_drop setup.maxCount.toNat (autoBackups setup files),
    List.pairwise_append] at sorted
  have late : entry ∈ (autoBackups setup files).drop setup.maxCount.toNat := by
    have all := (autoBackups_perm files).mem_iff.mpr mem
    rw [← List.take_append_drop setup.maxCount.toNat (autoBackups setup files),
      List.mem_append] at all
    exact all.resolve_left gone
  have below := sorted.2.2 kept stays entry late
  exact (newestFirst_isLE kept entry).mp below

theorem rotateBackups_full (distinct : DistinctPaths files) {entry : BackupEntry}
    (mem : entry ∈ autoEntries setup files)
    (gone : entry ∉ autoEntries setup (rotateBackups setup files)) :
    setup.maxCount.toNat ≤ (autoEntries setup (rotateBackups setup files)).length := by
  have length : (autoEntries setup (rotateBackups setup files)).length = _ :=
    rotateBackups_length distinct
  by_cases room : (autoEntries setup files).length ≤ setup.maxCount.toNat
  · rw [(rotateBackups_perm distinct).mem_iff, List.take_of_length_le] at gone
    · exact absurd ((autoBackups_perm files).mem_iff.mpr mem) gone
    · rw [(autoBackups_perm files).length_eq]
      exact room
  · omega

theorem rotateBackups_deletes (distinct : DistinctPaths files)
    (many : setup.maxCount.toNat < (autoEntries setup files).length) :
    ∃ entry ∈ autoEntries setup files, entry ∉ autoEntries setup (rotateBackups setup files) := by
  by_contra all
  push Not at all
  have nodup : (autoEntries setup files).Nodup := (autoEntries_nodup distinct).of_map
  have short := (nodup.subperm all).length_le
  rw [rotateBackups_length distinct] at short
  omega

theorem rotateBackups_subset (files : List (BackupFile Dir)) :
    autoEntries setup (rotateBackups setup files) ⊆ autoEntries setup files := by
  rw [rotateBackups_autoEntries]
  exact List.filter_sublist.subset

/-! What is written. -/

def PathFree (file : BackupFile Dir) (files : List (BackupFile Dir)) : Prop :=
  ∀ other ∈ files, ¬ (other.dir = file.dir ∧ other.name = file.name)

theorem not_mem_taken {file : BackupFile Dir} :
    file.name ∉ taken file.dir files ↔ PathFree file files := by
  simp only [taken, PathFree, List.mem_map, List.mem_filter, decide_eq_true_eq, not_exists]
  constructor
  · intro h other mem same
    exact h other ⟨⟨mem, same.1⟩, same.2⟩
  · intro h other found
    exact h other found.1.1 ⟨found.1.2, found.2⟩

theorem mem_removeFile {file other : BackupFile Dir} :
    other ∈ removeFile file files ↔
      other ∈ files ∧ ¬ (other.dir = file.dir ∧ other.name = file.name) := by
  simp only [removeFile, List.mem_filter, Bool.not_eq_true', Bool.and_eq_false_iff,
    decide_eq_false_iff_not, not_and_or]

theorem removeFile_eq_self {file : BackupFile Dir} (free : PathFree file files) :
    removeFile file files = files := by
  refine List.filter_eq_self.mpr (fun other mem => ?_)
  simp only [Bool.not_eq_true', Bool.and_eq_false_iff, decide_eq_false_iff_not]
  exact not_and_or.mp (free other mem)

theorem removeFile_writeFile {file : BackupFile Dir} (free : PathFree file files) :
    removeFile file (writeFile file files) = files := by
  rw [writeFile, removeFile_eq_self free]
  unfold removeFile
  rw [List.filter_append]
  change removeFile file files ++ _ = files
  rw [removeFile_eq_self free]
  simp

theorem writeFile_distinct (distinct : DistinctPaths files) (file : BackupFile Dir) :
    DistinctPaths (writeFile file files) := by
  refine List.pairwise_append.mpr ⟨distinct.filter _, List.pairwise_singleton _ _, ?_⟩
  intro a ha b hb
  obtain rfl := List.mem_singleton.mp hb
  exact (mem_removeFile.mp ha).2

theorem writeFile_path (file : BackupFile Dir) {other : BackupFile Dir} (mem : other ∈ files) :
    ∃ same ∈ writeFile file files, same.dir = other.dir ∧ same.name = other.name := by
  by_cases here : other.dir = file.dir ∧ other.name = file.name
  · exact ⟨file, by simp [writeFile], here.1.symm, here.2.symm⟩
  · exact ⟨other, List.mem_append_left _ (mem_removeFile.mpr ⟨mem, here⟩), rfl, rfl⟩

theorem rotateBackups_spares {file : BackupFile Dir} (mem : file ∈ files)
    (other : ∀ createdAt, scanName setup.stem file.name ≠ some (.auto, createdAt)) :
    file ∈ rotateBackups setup files := by
  refine List.mem_filter.mpr ⟨mem, ?_⟩
  have stays : file.name ∉
      ((autoBackups setup files).drop setup.maxCount.toNat).map (·.name) := by
    intro late
    obtain ⟨entry, dropped, name⟩ := List.mem_map.mp late
    have found := (autoBackups_perm files).mem_iff.mp (List.mem_of_mem_drop dropped)
    obtain ⟨same, -, auto⟩ := mem_autoEntries.mp found
    obtain ⟨-, -, scanned, hentry⟩ := autoEntry_eq_some.mp auto
    have samename : same.name = file.name := by rw [← name, hentry]
    exact other entry.createdAt (samename ▸ scanned)
  rw [decide_eq_false stays, Bool.and_false, Bool.not_false]

theorem autoEntries_removeFile {file : BackupFile Dir}
    (other : ∀ createdAt, scanName setup.stem file.name ≠ some (.auto, createdAt)) :
    autoEntries setup (removeFile file files) = autoEntries setup files := by
  unfold autoEntries removeFile
  rw [List.filterMap_filter]
  refine List.filterMap_congr (fun same _ => ?_)
  cases h : autoEntry setup same with
  | none => simp
  | some entry =>
    obtain ⟨-, -, scanned, -⟩ := autoEntry_eq_some.mp h
    have name : same.name ≠ file.name := by
      intro name
      exact other entry.createdAt (name ▸ scanned)
    simp [name]

theorem autoEntries_append (file : BackupFile Dir) :
    autoEntries setup (files ++ [file]) =
      autoEntries setup files ++ (autoEntry setup file).toList := by
  unfold autoEntries
  rw [List.filterMap_append]
  cases h : autoEntry setup file <;> simp [h]

theorem autoEntries_append_other {file : BackupFile Dir}
    (other : ∀ createdAt, scanName setup.stem file.name ≠ some (.auto, createdAt)) :
    autoEntries setup (files ++ [file]) = autoEntries setup files := by
  have absent : autoEntry setup file = none := by
    refine Option.eq_none_iff_forall_ne_some.mpr (fun entry h => ?_)
    obtain ⟨-, -, scanned, -⟩ := autoEntry_eq_some.mp h
    exact other _ scanned
  rw [autoEntries_append, absent]
  exact List.append_nil _

theorem autoEntries_writeFile {file : BackupFile Dir}
    (other : ∀ createdAt, scanName setup.stem file.name ≠ some (.auto, createdAt)) :
    autoEntries setup (writeFile file files) = autoEntries setup files := by
  rw [writeFile, autoEntries_append_other other, autoEntries_removeFile other]

/-! Over a run. -/

/-- Every written file is recognised for what it is. -/
def Recognised (setup : BackupSetup Dir) (files : List (BackupFile Dir)) : Prop :=
  ∀ file ∈ files, ∀ kind timestamp, file.written = some (kind, timestamp) →
    file.regular = true ∧ scanName setup.stem file.name = some (kind, timestamp.toInt)

/-- An automatic backup that is gone is not newer than any that is there. -/
def NewestStay (setup : BackupSetup Dir) (history files : List (BackupFile Dir)) : Prop :=
  ∀ entry ∈ autoEntries setup history, entry ∈ autoEntries setup files ∨
    ∀ kept ∈ autoEntries setup files, entry.createdAt ≤ kept.createdAt

/-- The other backups are never deleted. -/
def OthersStay (setup : BackupSetup Dir) (history files : List (BackupFile Dir)) : Prop :=
  ∀ file ∈ history, ∀ kind createdAt, scanName setup.stem file.name = some (kind, createdAt) →
    kind ≠ .auto → ∃ same ∈ files, same.dir = file.dir ∧ same.name = file.name

/-- What holds in every state of a run: once something was rotated away, the directory is
full. -/
structure BackupsInOrder (setup : BackupSetup Dir) (history files : List (BackupFile Dir)) :
    Prop where
  distinct : DistinctPaths files
  recognised : Recognised setup files
  newest : ∀ entry ∈ autoEntries setup history, entry ∈ autoEntries setup files ∨
    setup.maxCount.toNat ≤ (autoEntries setup files).length ∧
      ∀ kept ∈ autoEntries setup files, entry.createdAt ≤ kept.createdAt
  others : OthersStay setup history files

theorem BackupsInOrder.include {history : List (BackupFile Dir)}
    (h : BackupsInOrder setup history files) :
    BackupsInOrder setup (history ++ files) files where
  distinct := h.distinct
  recognised := h.recognised
  newest := by
    intro entry mem
    unfold autoEntries at mem
    rw [List.filterMap_append, List.mem_append] at mem
    exact mem.elim (h.newest entry) Or.inl
  others := by
    intro file mem kind createdAt scanned other
    rcases List.mem_append.mp mem with before | now
    · exact h.others file before kind createdAt scanned other
    · exact ⟨file, now, rfl, rfl⟩

section Write

variable {history : List (BackupFile Dir)} {file : BackupFile Dir} {kind : BackupKind}
  {timestamp : Int64}

theorem Recognised.write (h : Recognised setup files)
    (written : file.written = some (kind, timestamp)) (regular : file.regular = true)
    (scanned : scanName setup.stem file.name = some (kind, timestamp.toInt)) :
    Recognised setup (writeFile file files) := by
  intro other mem kind' timestamp' written'
  rcases List.mem_append.mp mem with before | now
  · exact h other (mem_removeFile.mp before).1 kind' timestamp' written'
  · obtain rfl := List.mem_singleton.mp now
    rw [written] at written'
    cases written'
    exact ⟨regular, scanned⟩

theorem OthersStay.write (h : OthersStay setup history files) (file : BackupFile Dir) :
    OthersStay setup (history ++ [file]) (writeFile file files) := by
  intro other mem kind createdAt scanned notAuto
  rcases List.mem_append.mp mem with before | now
  · obtain ⟨same, there, dir, name⟩ := h other before kind createdAt scanned notAuto
    obtain ⟨last, still, dir', name'⟩ := writeFile_path file there
    exact ⟨last, still, dir'.trans dir, name'.trans name⟩
  · obtain rfl := List.mem_singleton.mp now
    exact ⟨other, by simp [writeFile], rfl, rfl⟩

theorem Recognised.rotate (h : Recognised setup files) :
    Recognised setup (rotateBackups setup files) :=
  fun file mem => h file (List.mem_filter.mp mem).1

theorem OthersStay.rotate (h : OthersStay setup history files) :
    OthersStay setup history (rotateBackups setup files) := by
  intro file mem kind createdAt scanned notAuto
  obtain ⟨same, there, dir, name⟩ := h file mem kind createdAt scanned notAuto
  refine ⟨same, rotateBackups_spares there ?_, dir, name⟩
  intro createdAt' auto
  rw [name, scanned] at auto
  cases auto
  exact notAuto rfl

theorem BackupsInOrder.write (h : BackupsInOrder setup history files)
    (written : file.written = some (kind, timestamp)) (regular : file.regular = true)
    (scanned : scanName setup.stem file.name = some (kind, timestamp.toInt))
    (notAuto : kind ≠ .auto) :
    BackupsInOrder setup (history ++ [file]) (writeFile file files) where
  distinct := writeFile_distinct h.distinct file
  recognised := h.recognised.write written regular scanned
  newest := by
    have other : ∀ createdAt, scanName setup.stem file.name ≠ some (.auto, createdAt) := by
      intro createdAt auto
      rw [scanned] at auto
      cases auto
      exact notAuto rfl
    rw [autoEntries_append_other other, autoEntries_writeFile other]
    exact h.newest
  others := h.others.write file

/-- Only the directory in which nothing more has room loses a backup, and then the oldest. -/
theorem BackupsInOrder.writeAuto (h : BackupsInOrder setup history files)
    (free : PathFree file files) (dir : file.dir = setup.backupDir)
    (written : file.written = some (.auto, timestamp)) (regular : file.regular = true)
    (scanned : scanName setup.stem file.name = some (.auto, timestamp.toInt)) :
    BackupsInOrder setup (history ++ [file]) (rotateBackups setup (writeFile file files)) where
  distinct := (writeFile_distinct h.distinct file).filter _
  recognised := (h.recognised.write written regular scanned).rotate
  newest := by
    have distinct := writeFile_distinct h.distinct file
    have hentry : autoEntry setup file = some ⟨file.name, .auto, timestamp.toInt⟩ :=
      autoEntry_eq_some.mpr ⟨dir, regular, scanned, rfl⟩
    have grown : autoEntries setup (writeFile file files) =
        autoEntries setup files ++ [⟨file.name, .auto, timestamp.toInt⟩] := by
      rw [writeFile, removeFile_eq_self free, autoEntries_append, hentry]
      rfl
    intro entry mem
    rw [autoEntries_append, hentry] at mem
    by_cases stays : entry ∈ autoEntries setup (rotateBackups setup (writeFile file files))
    · exact Or.inl stays
    refine Or.inr ?_
    by_cases there : entry ∈ autoEntries setup (writeFile file files)
    · exact ⟨rotateBackups_full distinct there stays,
        fun kept => rotateBackups_newest distinct there stays⟩
    -- It was gone before, so the directory was full and the new backup displaces one.
    rw [grown, List.mem_append, not_or] at there
    have before := (List.mem_append.mp mem).resolve_right there.2
    obtain ⟨full, older⟩ := (h.newest entry before).resolve_left there.1
    have many : setup.maxCount.toNat < (autoEntries setup (writeFile file files)).length := by
      rw [grown, List.length_append, List.length_singleton]
      omega
    obtain ⟨gone, hgone, deleted⟩ := rotateBackups_deletes distinct many
    refine ⟨rotateBackups_full distinct hgone deleted, fun kept hkept => ?_⟩
    have between := rotateBackups_newest distinct hgone deleted hkept
    by_cases old : kept ∈ autoEntries setup files
    · exact older kept old
    have new := rotateBackups_subset _ hkept
    rw [grown, List.mem_append] at new hgone
    have last := List.mem_singleton.mp (new.resolve_left old)
    have different : gone ∉ [(⟨file.name, .auto, timestamp.toInt⟩ : BackupEntry)] := by
      intro same
      rw [List.mem_singleton.mp same, ← last] at deleted
      exact deleted hkept
    exact (older gone (hgone.resolve_right different)).trans between
  others := (h.others.write file).rotate

end Write

theorem target_auto {now : Int64} {verified : Bool}
    (free : plainNameFree setup files (.auto now verified) = true) :
    let file : BackupFile Dir :=
      ⟨setup.backupDir, backupName setup.stem .auto now none, true, some (.auto, now)⟩
    (BackupOp.auto now verified).target setup files = some file ∧ PathFree file files := by
  intro file
  have untaken : file.name ∉ taken file.dir files := of_decide_eq_true free
  refine ⟨?_, not_mem_taken.mp untaken⟩
  simp only [BackupOp.target]
  rw [unusedBackupName_plain untaken]
  exact if_neg untaken

theorem target_migration {now : Int64} {processId : UInt32}
    (free : plainNameFree setup files (.migration now processId) = true) :
    (BackupOp.migration now processId).target setup files =
      some ⟨setup.databaseDir, backupName setup.stem .migration now none, true,
        some (.migration, now)⟩ := by
  have untaken := of_decide_eq_true free
  simp only [BackupOp.target]
  rw [unusedBackupName_plain untaken]
  exact if_neg untaken

/-- What a step does where the plain name is free: nothing that lasts, or it writes a file
that is no automatic backup, or it writes an automatic one and rotates. -/
theorem backupStep_cases {op : BackupOp} (free : plainNameFree setup files op = true) :
    (backupStep setup files op = files ∧ op.saved setup files = none ∧
      ∀ now, op ≠ .auto now true) ∨
    (∃ file kind timestamp, backupStep setup files op = writeFile file files ∧
      op.saved setup files = some file ∧ file.written = some (kind, timestamp) ∧
      file.regular = true ∧ scanName setup.stem file.name = some (kind, timestamp.toInt) ∧
      kind ≠ .auto ∧ ∀ now, op ≠ .auto now true) ∨
    (∃ file timestamp, backupStep setup files op = rotateBackups setup (writeFile file files) ∧
      op.saved setup files = some file ∧ PathFree file files ∧ file.dir = setup.backupDir ∧
      file.written = some (.auto, timestamp) ∧ file.regular = true ∧
      scanName setup.stem file.name = some (.auto, timestamp.toInt)) := by
  unfold backupStep BackupOp.saved
  cases op with
  | auto now verified =>
    obtain ⟨target, unused⟩ := target_auto free
    rw [target]
    cases verified with
    | false => exact .inl ⟨removeFile_writeFile unused, rfl, by simp⟩
    | true => exact .inr (.inr ⟨_, now, rfl, rfl, unused, rfl, rfl, rfl, scanName_plain _ _ _⟩)
  | migration now processId =>
    rw [target_migration free]
    exact .inr (.inl ⟨_, .migration, now, rfl, rfl, rfl, rfl, scanName_plain _ _ _,
      by decide, by simp⟩)
  | preRestore now =>
    cases target : (BackupOp.preRestore now).target setup files with
    | none => exact .inl ⟨rfl, rfl, by simp⟩
    | some file =>
      simp only [BackupOp.target, copyInto] at target
      split at target
      · cases target
      · cases target
        exact .inr (.inl ⟨_, .preRestore, now, rfl, rfl, rfl, rfl, scanName_plain _ _ _,
          by decide, by simp⟩)

theorem BackupsInOrder.step {history : List (BackupFile Dir)}
    (h : BackupsInOrder setup history files) {op : BackupOp}
    (free : plainNameFree setup files op = true) :
    BackupsInOrder setup (history ++ (op.saved setup files).toList)
      (backupStep setup files op) := by
  rcases backupStep_cases free with ⟨next, saved, -⟩ |
    ⟨file, kind, timestamp, next, saved, written, regular, scanned, other, -⟩ |
    ⟨file, timestamp, next, saved, unused, dir, written, regular, scanned⟩
  · rw [next, saved]
    simpa using h
  · rw [next, saved]
    exact h.write written regular scanned other
  · rw [next, saved]
    exact h.writeAuto unused dir written regular scanned

theorem BackupsInOrder.run {history : List (BackupFile Dir)} {ops : List BackupOp}
    (h : BackupsInOrder setup history files) (free : plainNamesFree setup files ops = true) :
    BackupsInOrder setup (history ++ backupHistory setup files ops)
      (backupRun setup files ops) := by
  induction ops generalizing history files with
  | nil => exact h.include
  | cons op ops ih =>
    rw [plainNamesFree, Bool.and_eq_true] at free
    have next := ih (h.include.step free.1) free.2
    simpa only [backupHistory, backupRun, List.foldl_cons, List.append_assoc] using next

/-- A step keeps the bound, and a verified automatic backup establishes it. -/
theorem backupStep_bounded (distinct : DistinctPaths files) {op : BackupOp}
    (free : plainNameFree setup files op = true)
    (bounded : (autoEntries setup files).length ≤ setup.maxCount.toNat ∨
      ∃ now, op = .auto now true) :
    (autoEntries setup (backupStep setup files op)).length ≤ setup.maxCount.toNat := by
  rcases backupStep_cases free with ⟨next, -, notAuto⟩ |
    ⟨file, kind, timestamp, next, -, -, -, scanned, other, notAuto⟩ |
    ⟨file, timestamp, next, -, -, -, -, -, -⟩
  · rw [next]
    exact bounded.resolve_right (fun ⟨now, auto⟩ => notAuto now auto)
  · have same : autoEntries setup (writeFile file files) = autoEntries setup files := by
      refine autoEntries_writeFile (fun createdAt auto => ?_)
      rw [scanned] at auto
      cases auto
      exact other rfl
    rw [next, same]
    exact bounded.resolve_right (fun ⟨now, auto⟩ => notAuto now auto)
  · rw [next, rotateBackups_length (writeFile_distinct distinct file)]
    exact Nat.min_le_left _ _

theorem backupRun_bounded {history : List (BackupFile Dir)} {ops : List BackupOp}
    (h : BackupsInOrder setup history files) (free : plainNamesFree setup files ops = true)
    (bounded : (autoEntries setup files).length ≤ setup.maxCount.toNat ∨
      ∃ now, BackupOp.auto now true ∈ ops) :
    (autoEntries setup (backupRun setup files ops)).length ≤ setup.maxCount.toNat := by
  induction ops generalizing history files with
  | nil =>
    refine bounded.resolve_right ?_
    rintro ⟨_, mem⟩
    cases mem
  | cons op ops ih =>
    rw [plainNamesFree, Bool.and_eq_true] at free
    refine ih (h.step free.1) free.2 ?_
    rcases bounded with already | ⟨now, mem⟩
    · exact Or.inl (backupStep_bounded h.distinct free.1 (.inl already))
    · rcases List.mem_cons.mp mem with rfl | later
      · exact Or.inl (backupStep_bounded h.distinct free.1 (.inr ⟨now, rfl⟩))
      · exact Or.inr ⟨now, later⟩

/-- The name under which a backup is written is recognised if and only if the plain one was
free. In a run that finds it free at each step, every backup is recognised for what it is, at
most so many automatic ones are there as are asked for, none that is gone was newer, and the
others are all there. -/
theorem backups_recognised :
    (∀ stem kind timestamp last taken,
      scanName stem (unusedBackupName stem kind timestamp last taken) =
          some (kind, timestamp.toInt) ↔
        backupName stem kind timestamp none ∉ taken) ∧
    ∀ (setup : BackupSetup Dir) (start : List (BackupFile Dir)) (ops : List BackupOp),
      DistinctPaths start → (∀ file ∈ start, file.written = none) →
      plainNamesFree setup start ops = true →
      let files := backupRun setup start ops
      let history := backupHistory setup start ops
      Recognised setup files ∧
      ((∃ now, BackupOp.auto now true ∈ ops) →
        (autoEntries setup files).length ≤ setup.maxCount.toNat) ∧
      NewestStay setup history files ∧ OthersStay setup history files := by
  refine ⟨scanName_unusedBackupName_iff, ?_⟩
  intro setup start ops distinct unwritten free files history
  have first : BackupsInOrder setup [] start :=
    { distinct := distinct
      recognised := by
        intro file mem kind timestamp written
        rw [unwritten file mem] at written
        cases written
      newest := by simp [autoEntries]
      others := by simp [OthersStay] }
  have last : BackupsInOrder setup history files := first.run free
  refine ⟨last.recognised, fun auto => backupRun_bounded first free (.inr auto), ?_, last.others⟩
  intro entry mem
  exact (last.newest entry mem).imp_right And.right

def oneBackup : BackupSetup Unit where
  readDir := ⟨id, fun names => List.Perm.refl names⟩
  stem := "amatl".toList
  backupDir := ()
  databaseDir := ()
  maxCount := 1

theorem secondBackup_recognised :
    let ops := [.auto 5 true, .migration 5 7, .preRestore 5, .auto 6 true]
    let files := backupRun oneBackup [] ops
    plainNamesFree oneBackup [] ops = true ∧ files.length = 3 ∧
      Recognised oneBackup files ∧ (autoEntries oneBackup files).length ≤ 1 := by
  intro ops files
  have free : plainNamesFree oneBackup [] ops = true := by decide +kernel
  have kept := backups_recognised.2 oneBackup [] ops .nil (by simp) free
  exact ⟨free, by decide +kernel, kept.1, kept.2.1 ⟨5, by decide⟩⟩

/-- Two automatic backups of one second: the name of the second is not recognised, and both
stay where only one may. -/
theorem sameSecond_unrecognised :
    let files := backupRun oneBackup [] [.auto 5 true, .auto 5 true]
    ¬ Recognised oneBackup files ∧
      (files.filter (fun file => file.written = some (.auto, 5))).length = 2 ∧
      oneBackup.maxCount.toNat = 1 := by
  intro files
  refine ⟨?_, by decide +kernel, rfl⟩
  intro recognised
  let second : BackupFile Unit :=
    ⟨(), backupName oneBackup.stem .auto 5 (some 1), true, some (.auto, 5)⟩
  have there : second ∈ files := by decide +kernel
  have scanned := (recognised second there .auto 5 rfl).2
  rw [scanName_numbered] at scanned
  cases scanned

end Amatl
