import Amatl.Lib.NetText
import Amatl.Lib.StableSort

/-! The names of the backups of a database: how they are written and which of them are
recognised when a directory is read. -/

namespace Amatl

open StableSort Text

inductive BackupKind where
  | auto | migration | preRestore
  deriving DecidableEq, Repr

/-- What stands between the stem of the database and the timestamp. -/
def BackupKind.mark : BackupKind → List Char
  | .auto => "-auto-".toList
  | .migration => ".backup-".toList
  | .preRestore => ".pre-restore-".toList

/-- `Path::file_stem`: what stands before the last dot, if it is not the first
character. -/
def fileStem (name : List Char) : List Char :=
  match rsplitOnce '.' name with
  | some (stem, _) => if stem.isEmpty then name else stem
  | none => name

theorem fileStem_cases (name : List Char) :
    fileStem name = name ∨ ∃ rest, name = fileStem name ++ '.' :: rest ∧ '.' ∉ rest := by
  unfold fileStem
  cases split : rsplitOnce '.' name with
  | none => exact Or.inl rfl
  | some parts =>
    obtain ⟨stem, rest⟩ := parts
    by_cases empty : stem.isEmpty = true
    · exact Or.inl (if_pos empty)
    · refine Or.inr ⟨rest, ?_, (rsplitOnce_spec split).2⟩
      dsimp only
      rw [if_neg empty]
      exact (rsplitOnce_spec split).1

def extension : List Char := ".sqlite3".toList

def displayInt (n : Int) : List Char :=
  if n < 0 then '-' :: Nat.toDigits 10 n.natAbs else Nat.toDigits 10 n.natAbs

/-- `str::parse::<i64>`. -/
def parseInt64 (text : List Char) : Option Int :=
  let value := match text with
    | '-' :: digits => (digitsValue 10 digits none).map (fun n : Nat => -(n : Int))
    | '+' :: digits => (digitsValue 10 digits none).map (fun n : Nat => (n : Int))
    | digits => (digitsValue 10 digits none).map (fun n : Nat => (n : Int))
  value.filter (fun n => -2 ^ 63 ≤ n && n < 2 ^ 63)

def backupName (stem : List Char) (kind : BackupKind) (timestamp : Int64) (number : Option Nat) :
    List Char :=
  let suffix := match number with
    | none => []
    | some number => '-' :: Nat.toDigits 10 number
  stem ++ (kind.mark ++ (displayInt timestamp.toInt ++ suffix)) ++ extension

def attempts : List (Option Nat) := none :: (List.range' 1 999).map some

/-- The first of a thousand names that is not taken, or the one with the last number. -/
def unusedBackupName (stem : List Char) (kind : BackupKind) (timestamp : Int64) (last : Nat)
    (taken : List (List Char)) : List Char :=
  ((attempts.map (backupName stem kind timestamp)).find? (· ∉ taken)).getD
    (backupName stem kind timestamp (some last))

structure BackupEntry where
  name : List Char
  kind : BackupKind
  createdAt : Int
  deriving DecidableEq, Repr

def stripFront (front text : List Char) : Option (List Char) :=
  if front.isPrefixOf text then some (text.drop front.length) else none

def stripBack (back text : List Char) : Option (List Char) :=
  if back.isSuffixOf text then some (text.take (text.length - back.length)) else none

/-- What a file name says of a backup of the given stem. -/
def scanName (stem name : List Char) : Option (BackupKind × Int) := do
  let rest ← stripFront stem name
  let rest ← stripBack extension rest
  let kind ← [.auto, .migration, .preRestore].find? (fun kind => kind.mark.isPrefixOf rest)
  let createdAt ← parseInt64 (rest.drop kind.mark.length)
  pure (kind, createdAt)

def newestFirst (a b : BackupEntry) : Ordering := compare b.createdAt a.createdAt

def scanEntry (stem name : List Char) : Option BackupEntry :=
  (scanName stem name).map (fun found => ⟨name, found.1, found.2⟩)

def scanBackups (stem : List Char) (listing : List (List Char)) : List BackupEntry :=
  sortBy newestFirst (listing.filterMap (scanEntry stem))

/-! What is written is read back. -/

theorem parseInt64_displayInt {n : Int} (low : -2 ^ 63 ≤ n) (high : n < 2 ^ 63) :
    parseInt64 (displayInt n) = some n := by
  have digits := digitsValue_toDigits (by decide : 1 < 10) (by decide) n.natAbs
  have range : -9223372036854775808 ≤ n ∧ n < 9223372036854775808 := by omega
  unfold displayInt
  by_cases negative : n < 0
  · rw [if_pos negative]
    simp only [parseInt64, digits, Option.map_some]
    rw [show -(n.natAbs : Int) = n by omega]
    simp [Option.filter, range]
  · rw [if_neg negative]
    have plain : ∀ c rest, Nat.toDigits 10 n.natAbs = c :: rest → c ≠ '-' ∧ c ≠ '+' := by
      intro c rest h
      have digit := digitValue_of_mem_toDigits (by decide : 1 < 10) (by decide)
        (show c ∈ Nat.toDigits 10 n.natAbs by simp [h])
      constructor
      · rintro rfl
        exact absurd digit (by decide)
      · rintro rfl
        exact absurd digit (by decide)
    have value : parseInt64 (Nat.toDigits 10 n.natAbs) =
        ((digitsValue 10 (Nat.toDigits 10 n.natAbs) none).map (fun n : Nat => (n : Int))).filter
          (fun n => -2 ^ 63 ≤ n && n < 2 ^ 63) := by
      cases htext : Nat.toDigits 10 n.natAbs with
      | nil => rfl
      | cons c rest =>
        have signs := plain c rest htext
        unfold parseInt64
        split
        · rename_i heq
          exact absurd (List.cons.inj heq).1 signs.1
        · rename_i heq
          exact absurd (List.cons.inj heq).1 signs.2
        · rfl
    rw [value, digits, Option.map_some, show (n.natAbs : Int) = n by omega]
    simp [Option.filter, range]

theorem digitsValue_eq_none {digits : List Char} {c : Char} (mem : c ∈ digits)
    (h : digitValue 10 c = none) (acc : Option Nat) : digitsValue 10 digits acc = none := by
  induction digits generalizing acc with
  | nil => cases mem
  | cons d digits ih =>
    rw [digitsValue]
    cases hd : digitValue 10 d with
    | none => rfl
    | some value =>
      rcases List.mem_cons.mp mem with rfl | later
      · rw [h] at hd
        cases hd
      · exact ih later _

theorem parseInt64_dash (c : Char) (front back : List Char) :
    parseInt64 (c :: front ++ '-' :: back) = none := by
  have none_of : ∀ digits : List Char, '-' ∈ digits → digitsValue 10 digits none = none :=
    fun digits mem => digitsValue_eq_none mem (by decide) none
  unfold parseInt64
  simp only [List.cons_append]
  split
  · rename_i digits heq
    obtain ⟨-, rfl⟩ := List.cons.inj heq
    rw [none_of _ (by simp)]
    rfl
  · rename_i digits heq
    obtain ⟨-, rfl⟩ := List.cons.inj heq
    rw [none_of _ (by simp)]
    rfl
  · rw [none_of _ (by simp)]
    rfl

theorem stripFront_append (front text : List Char) : stripFront front (front ++ text) = some text := by
  simp [stripFront]

theorem stripBack_append (text back : List Char) : stripBack back (text ++ back) = some text := by
  have ends : back.isSuffixOf (text ++ back) = true := by simp
  simp [stripBack, ends]

theorem displayInt_cons (n : Int) : ∃ c rest, displayInt n = c :: rest := by
  unfold displayInt
  by_cases negative : n < 0
  · exact ⟨_, _, if_pos negative⟩
  · rw [if_neg negative]
    exact List.exists_cons_of_ne_nil (by simp)

theorem scanName_mark (stem : List Char) (kind : BackupKind) (text : List Char) :
    scanName stem (stem ++ (kind.mark ++ text) ++ extension) =
      (parseInt64 text).map (fun createdAt => (kind, createdAt)) := by
  have mark : [BackupKind.auto, .migration, .preRestore].find?
      (fun other => other.mark.isPrefixOf (kind.mark ++ text)) = some kind := by
    cases kind with
    | auto => rfl
    | migration => rfl
    | preRestore => rfl
  rw [List.append_assoc]
  simp only [scanName, stripFront_append, stripBack_append, mark, Option.bind_eq_bind,
    Option.bind_some, List.drop_left]
  rw [Option.map_eq_bind]
  rfl

theorem scanName_plain (stem : List Char) (kind : BackupKind) (timestamp : Int64) :
    scanName stem (backupName stem kind timestamp none) = some (kind, timestamp.toInt) := by
  have low := timestamp.le_toInt
  have high := timestamp.toInt_lt
  simp only [backupName, List.append_nil]
  rw [scanName_mark, parseInt64_displayInt low high]
  rfl

theorem scanName_numbered (stem : List Char) (kind : BackupKind) (timestamp : Int64)
    (number : Nat) : scanName stem (backupName stem kind timestamp (some number)) = none := by
  obtain ⟨c, rest, digits⟩ := displayInt_cons timestamp.toInt
  simp only [backupName]
  rw [scanName_mark, digits, parseInt64_dash]
  rfl

theorem unusedBackupName_plain {stem : List Char} {kind : BackupKind} {timestamp : Int64}
    {taken : List (List Char)} (free : backupName stem kind timestamp none ∉ taken) (last : Nat) :
    unusedBackupName stem kind timestamp last taken = backupName stem kind timestamp none := by
  simp [unusedBackupName, attempts, free]

/-- Whatever other names are taken, the name under which a backup is written is recognised
if and only if it is the plain one. -/
theorem scanName_unusedBackupName_iff (stem : List Char) (kind : BackupKind)
    (timestamp : Int64) (last : Nat) (taken : List (List Char)) :
    scanName stem (unusedBackupName stem kind timestamp last taken) =
        some (kind, timestamp.toInt) ↔
      backupName stem kind timestamp none ∉ taken := by
  by_cases free : backupName stem kind timestamp none ∉ taken
  · rw [unusedBackupName_plain free, scanName_plain]
    exact iff_of_true rfl free
  · unfold unusedBackupName attempts
    rw [List.map_cons, List.find?_cons]
    simp only [free, decide_false, iff_false]
    cases found : (((List.range' 1 999).map some).map (backupName stem kind timestamp)).find?
        (· ∉ taken) with
    | none => simp [scanName_numbered]
    | some name =>
      obtain ⟨number, numbered, rfl⟩ := List.mem_map.mp (List.mem_of_find?_eq_some found)
      obtain ⟨n, -, rfl⟩ := List.mem_map.mp numbered
      simp [scanName_numbered]

end Amatl
