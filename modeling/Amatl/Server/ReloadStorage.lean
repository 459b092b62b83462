import Amatl.Config.Validate
import Amatl.Restore

/-! The storage of a service that is reloaded. A replacement opens the database before the
service that it replaces is dropped, and in exclusive mode an open handle keeps the lock of its
database until its last clone is gone. -/

namespace Amatl

open Text

/-- A handle of an open database, with whether it keeps the lock. -/
structure StorageHandle where
  path : DiskPath
  lockHeld : Bool
  deriving DecidableEq

/-- The part of a service that `with_registry` builds from the persistence settings. -/
structure StoredService where
  config : Config
  storage : Option StorageHandle
  storageDegradation : Option Degradation
  deriving DecidableEq

/-- The service that requests are given, replacements that are built and not yet in its place,
and the handles of running requests and maintenance tasks. The locks on the disk are those of
other processes. -/
structure StorageSite (Page : Type) where
  disk : Disk Page
  service : StoredService
  replacements : List StoredService
  clones : List StorageHandle

/-- The directory ends with its separator. -/
def diskPath (path : String) : DiskPath :=
  match rsplitOnce '/' path.toList with
  | some (dir, name) => ⟨dir ++ ['/'], name⟩
  | none => ⟨[], path.toList⟩

def DiskPath.display (path : DiskPath) : String := String.ofList (path.dir ++ path.name)

def storageFailureMessage (now : Int64) (path : DiskPath) : StorageError → String
  | .corrupt =>
    "SQLite database was quarantined at " ++ (quarantinePath now path).display ++
      "; persistent cache and telemetry are disabled"
  | .incompatibleVersion dbVersion codeVersion =>
    "database version " ++ toString dbVersion ++ " is newer than code version " ++
      toString codeVersion ++
      "; downgrade is not supported, persistent cache and telemetry are disabled"
  | _ => "SQLite persistence could not be opened; persistent cache and telemetry are disabled"

variable {Page : Type}

def StorageSite.handles (s : StorageSite Page) : List StorageHandle :=
  (s.service :: s.replacements).filterMap (·.storage) ++ s.clones

/-- A handle of this process keeps the lock of the database. -/
def StorageSite.holds (s : StorageSite Page) (path : DiskPath) : Bool :=
  s.handles.any (fun handle => handle.lockHeld && handle.path == path)

/-- The disk as an open of the path finds it. -/
def StorageSite.found (s : StorageSite Page) (path : DiskPath) : Disk Page :=
  if s.holds path then { s.disk with locked := Function.update s.disk.locked path true }
  else s.disk

section Sqlite

variable [Sqlite Page]

/-- The storage of a service that is built, with the disk after it and the handle of the
maintenance task that is started. -/
def withRegistry (now : Int64) (config : Config) (s : StorageSite Page) :
    StoredService × Disk Page × List StorageHandle :=
  if config.persistence.enabled then
    let path := diskPath config.persistence.path
    match openDatabase now path config.persistence.lockingMode (s.found path) with
    | .ok disk =>
      let handle := ⟨path, config.persistence.lockingMode == .exclusive⟩
      let wanted := decide (0 < config.persistence.purgeIntervalSeconds) ||
        config.persistence.autoBackupEnabled
      (⟨config, some handle, none⟩, disk, if wanted then [handle] else [])
    | .error (error, disk) =>
      (⟨config, none, some ⟨"storage_unavailable", "sqlite",
        storageFailureMessage now path error⟩⟩, disk, [])
  else (⟨config, none, none⟩, s.disk, [])

variable (Url : Type) [UrlCrate Url] [TimeCrate] [HttpCrate]

inductive StorageEvent (Page : Type) where
  /-- `reloaded` builds a replacement. -/
  | reloaded (now : Int64) (config : Config)
  /-- A replacement takes the place of the service. -/
  | swap (i : Nat)
  /-- A request that reloads ends before the swap. -/
  | abandon (i : Nat)
  /-- A request takes a clone of the service. -/
  | begin
  /-- A request or a maintenance task ends. -/
  | finish (i : Nat)
  /-- The database or a lock of another process changes. -/
  | change (disk : Disk Page)

def StorageSite.step (s : StorageSite Page) : StorageEvent Page → StorageSite Page
  | .reloaded now config =>
    if (config.validate Url).isOk then
      let (replacement, disk, tasks) := withRegistry now config s
      { s with
        disk := { disk with locked := s.disk.locked }
        replacements := s.replacements ++ [replacement]
        clones := s.clones ++ tasks }
    else s
  | .swap i =>
    match s.replacements[i]? with
    | none => s
    | some replacement =>
      { s with service := replacement, replacements := s.replacements.eraseIdx i }
  | .abandon i => { s with replacements := s.replacements.eraseIdx i }
  | .begin => { s with clones := s.clones ++ s.service.storage.toList }
  | .finish i => { s with clones := s.clones.eraseIdx i }
  | .change disk => { s with disk }

def StorageSite.run (s : StorageSite Page) (events : List (StorageEvent Page)) :
    StorageSite Page :=
  events.foldl (StorageSite.step Url) s

/-- An event that builds a service with persistent storage in exclusive mode. -/
def StorageEvent.locks : StorageEvent Page → Option (Int64 × DiskPath)
  | .reloaded now config =>
    if (config.validate Url).isOk && config.persistence.enabled &&
        config.persistence.lockingMode == .exclusive then
      some (now, diskPath config.persistence.path)
    else none
  | _ => none

end Sqlite

/-- A service with exclusive persistence has its storage. -/
def StoredService.available (service : StoredService) : Bool :=
  !(service.config.persistence.enabled &&
    service.config.persistence.lockingMode == .exclusive) || service.storage.isSome

def StorageSite.Available (s : StorageSite Page) : Prop :=
  ∀ service ∈ s.service :: s.replacements, service.available = true

section Runs

variable [Sqlite Page]

/-- Nothing but a lock of this process is in the way of an open in exclusive mode. -/
def Healthy (disk : Disk Page) (now : Int64) (path : DiskPath) : Prop :=
  ∃ opened, openDatabase now path .exclusive disk = .ok opened

theorem Healthy.locked {disk : Disk Page} {now : Int64} {path : DiskPath}
    (h : Healthy disk now path) :
    openDatabase now path .exclusive
        { disk with locked := Function.update disk.locked path true } =
      .error (.lockContention, { disk with locked := Function.update disk.locked path true }) := by
  obtain ⟨opened, found⟩ := h
  have header : quarantineIfHeaderIsInvalid now path disk = .ok () := by
    cases checked : quarantineIfHeaderIsInvalid now path disk with
    | ok done => rfl
    | error error =>
      rw [openDatabase, checked] at found
      cases found
  have header' : quarantineIfHeaderIsInvalid now path
      { disk with locked := Function.update disk.locked path true } = .ok () := by
    unfold quarantineIfHeaderIsInvalid at header ⊢
    cases main : disk.main path with
    | none => rfl
    | some pages =>
      rw [main] at header
      cases pages with
      | nil => rfl
      | cons first pages =>
        by_cases valid : Sqlite.header first = true
        · simp [valid]
        · simp [valid] at header
  rw [openDatabase, header']
  change (if SqliteLockingMode.exclusive = .exclusive ∧
    Function.update disk.locked path true path = true then _ else _) = _
  rw [if_pos ⟨rfl, Function.update_self ..⟩]

theorem withRegistry_available_iff {s : StorageSite Page} {now : Int64} {config : Config}
    (enabled : config.persistence.enabled = true)
    (exclusive : config.persistence.lockingMode = .exclusive)
    (healthy : Healthy s.disk now (diskPath config.persistence.path)) :
    (withRegistry now config s).1.available = true ↔
      s.holds (diskPath config.persistence.path) = false := by
  unfold withRegistry StorageSite.found
  rw [if_pos enabled, exclusive]
  dsimp only
  cases held : s.holds (diskPath config.persistence.path) with
  | false =>
    obtain ⟨opened, found⟩ := healthy
    rw [if_neg Bool.false_ne_true, found]
    simp [StoredService.available]
  | true =>
    rw [if_pos rfl, healthy.locked]
    simp [StoredService.available, enabled, exclusive]

theorem withRegistry_config (now : Int64) (config : Config) (s : StorageSite Page) :
    (withRegistry now config s).1.config = config := by
  unfold withRegistry
  split
  · dsimp only
    split <;> rfl
  · rfl

variable (Url : Type) [UrlCrate Url] [TimeCrate] [HttpCrate]

/-- What holds before each event that opens a database in exclusive mode. -/
def EachOpen (P : StorageSite Page → Int64 → DiskPath → Prop) (s : StorageSite Page)
    (events : List (StorageEvent Page)) : Prop :=
  ∀ seen event rest, events = seen ++ event :: rest →
    ∀ now path, event.locks Url = some (now, path) → P (s.run Url seen) now path

/-- The storage is there in every state of a run. -/
def StaysAvailable (s : StorageSite Page) (events : List (StorageEvent Page)) : Prop :=
  ∀ seen rest, events = seen ++ rest → (s.run Url seen).Available

variable {Url}

theorem eachOpen_cons {P : StorageSite Page → Int64 → DiskPath → Prop} {s : StorageSite Page}
    {event : StorageEvent Page} {events : List (StorageEvent Page)} :
    EachOpen Url P s (event :: events) ↔
      (∀ now path, event.locks Url = some (now, path) → P s now path) ∧
        EachOpen Url P (s.step Url event) events := by
  constructor
  · intro h
    refine ⟨h [] event events rfl, fun seen next rest equal => ?_⟩
    exact h (event :: seen) next rest (by rw [equal]; rfl)
  · rintro ⟨first, later⟩ seen next rest equal
    cases seen with
    | nil =>
      cases equal
      exact first
    | cons e seen =>
      cases equal
      exact later seen next rest rfl

theorem staysAvailable_cons {s : StorageSite Page} {event : StorageEvent Page}
    {events : List (StorageEvent Page)} :
    StaysAvailable Url s (event :: events) ↔
      s.Available ∧ StaysAvailable Url (s.step Url event) events := by
  constructor
  · intro h
    refine ⟨h [] (event :: events) rfl, fun seen rest equal => ?_⟩
    exact h (event :: seen) rest (by rw [equal]; rfl)
  · rintro ⟨first, later⟩ seen rest equal
    cases seen with
    | nil => exact first
    | cons e seen =>
      cases equal
      exact later seen rest rfl

theorem step_reloaded {s : StorageSite Page} {now : Int64} {config : Config}
    (valid : (config.validate Url).isOk = true) :
    (s.step Url (.reloaded now config)).service = s.service ∧
      (s.step Url (.reloaded now config)).replacements =
        s.replacements ++ [(withRegistry now config s).1] := by
  simp [StorageSite.step, valid]

theorem available_reloaded_iff {s : StorageSite Page} (h : s.Available) {now : Int64}
    {config : Config} (valid : (config.validate Url).isOk = true) :
    (s.step Url (.reloaded now config)).Available ↔
      (withRegistry now config s).1.available = true := by
  obtain ⟨kept, built⟩ : _ ∧ (s.step Url (.reloaded now config)).replacements = _ :=
    step_reloaded valid
  unfold StorageSite.Available
  rw [kept, built]
  constructor
  · intro all
    exact all _ (by simp)
  · intro available service mem
    simp only [List.mem_cons, List.mem_append, List.not_mem_nil, or_false] at mem
    rcases mem with rfl | earlier | rfl
    · exact h _ List.mem_cons_self
    · exact h _ (List.mem_cons_of_mem _ earlier)
    · exact available

theorem step_services {s : StorageSite Page} {event : StorageEvent Page}
    (quiet : ∀ now config, event ≠ .reloaded now config) {service : StoredService}
    (mem : service ∈ (s.step Url event).service :: (s.step Url event).replacements) :
    service ∈ s.service :: s.replacements := by
  cases event with
  | reloaded now config => exact absurd rfl (quiet now config)
  | swap i =>
    cases found : s.replacements[i]? with
    | none => simpa [StorageSite.step, found] using mem
    | some replacement =>
      simp only [StorageSite.step, found, List.mem_cons] at mem
      rcases mem with rfl | later
      · exact List.mem_cons_of_mem _ (List.mem_of_getElem? found)
      · exact List.mem_cons_of_mem _ (List.mem_of_mem_eraseIdx later)
  | abandon i =>
    rcases List.mem_cons.mp mem with rfl | later
    · exact List.mem_cons_self
    · exact List.mem_cons_of_mem _ (List.mem_of_mem_eraseIdx later)
  | begin => exact mem
  | finish i => exact mem
  | change disk => exact mem

theorem available_step_quiet {s : StorageSite Page} (h : s.Available) {event : StorageEvent Page}
    (quiet : ∀ now config, event ≠ .reloaded now config) :
    (s.step Url event).Available ↔
      ∀ now path, event.locks Url = some (now, path) → s.holds path = false := by
  have opens : event.locks Url = none := by
    cases event with
    | reloaded now config => exact absurd rfl (quiet now config)
    | _ => rfl
  rw [opens]
  constructor
  · intro _ now path impossible
    cases impossible
  · intro _ service mem
    exact h service (step_services quiet mem)

/-- One event keeps the storage available exactly if no handle keeps the lock that it needs. -/
theorem available_step_iff {s : StorageSite Page} (h : s.Available) (event : StorageEvent Page)
    (healthy : ∀ now path, event.locks Url = some (now, path) → Healthy s.disk now path) :
    (s.step Url event).Available ↔
      ∀ now path, event.locks Url = some (now, path) → s.holds path = false := by
  cases event with
  | reloaded now config =>
    by_cases valid : (config.validate Url).isOk = true
    · rw [available_reloaded_iff h valid]
      by_cases wants : (config.persistence.enabled &&
          config.persistence.lockingMode == .exclusive) = true
      · have opens : (StorageEvent.reloaded now config : StorageEvent Page).locks Url =
            some (now, diskPath config.persistence.path) := by
          rw [Bool.and_eq_true] at wants
          simp [StorageEvent.locks, valid, wants.1, wants.2]
        obtain ⟨enabled, exclusive⟩ := Bool.and_eq_true _ _ ▸ wants
        rw [withRegistry_available_iff enabled (beq_iff_eq.mp exclusive) (healthy _ _ opens),
          opens]
        simp
      · have opens : (StorageEvent.reloaded now config : StorageEvent Page).locks Url = none := by
          rw [StorageEvent.locks, Bool.and_assoc, if_neg (by simp [wants])]
        have free : (withRegistry now config s).1.available = true := by
          rw [StoredService.available, withRegistry_config]
          simp [wants]
        rw [opens]
        simp [free]
    · have opens : (StorageEvent.reloaded now config : StorageEvent Page).locks Url = none := by
        simp [StorageEvent.locks, valid]
      have same : s.step Url (.reloaded now config) = s := by
        simp [StorageSite.step, valid]
      rw [opens, same]
      simp [h]
  | swap i => exact available_step_quiet h (by simp)
  | abandon i => exact available_step_quiet h (by simp)
  | begin => exact available_step_quiet h (by simp)
  | finish i => exact available_step_quiet h (by simp)
  | change disk => exact available_step_quiet h (by simp)

/-- In a run that finds every database healthy, the storage is there in every state exactly if
each reload finds the lock that it needs with no handle of the process. -/
theorem reloads_available_iff (s : StorageSite Page) (events : List (StorageEvent Page))
    (available : s.Available)
    (healthy : EachOpen Url (fun s now path => Healthy s.disk now path) s events) :
    StaysAvailable Url s events ↔
      EachOpen Url (fun s _ path => s.holds path = false) s events := by
  induction events generalizing s with
  | nil =>
    constructor
    · rintro - seen event rest equal
      simp at equal
    · rintro - seen rest equal
      obtain ⟨rfl, rfl⟩ := List.append_eq_nil_iff.mp equal.symm
      exact available
  | cons event events ih =>
    obtain ⟨first, later⟩ := eachOpen_cons.mp healthy
    rw [staysAvailable_cons, eachOpen_cons, ← available_step_iff available event first]
    constructor
    · rintro ⟨-, stays⟩
      have next : (s.step Url event).Available := stays [] events rfl
      exact ⟨next, (ih _ next later).mp stays⟩
    · rintro ⟨next, free⟩
      exact ⟨available, (ih _ next later).mpr free⟩

theorem eachOpen_nil {P : StorageSite Page → Int64 → DiskPath → Prop} (s : StorageSite Page) :
    EachOpen Url P s [] := by
  intro seen event rest equal
  simp at equal

end Runs

def exclusiveConfig (path : String) : Config :=
  { Config.default with
    persistence :=
      { PersistenceConfig.default with enabled := true, path, lockingMode := .exclusive } }

def emptyDisk : Disk Nat where
  main _ := none
  log _ := []
  locked _ := false

def startedSite : StorageSite Nat where
  disk := emptyDisk
  service := ⟨exclusiveConfig "a.sqlite3", some ⟨diskPath "a.sqlite3", true⟩, none⟩
  replacements := []
  clones := [⟨diskPath "a.sqlite3", true⟩]

theorem startedSite_available : startedSite.Available := by
  intro service mem
  cases List.mem_singleton.mp mem
  rfl

def otherDatabase : List (StorageEvent Nat) :=
  [.reloaded 0 (exclusiveConfig "b.sqlite3"), .swap 0]

theorem otherDatabase_available :
    letI := anySqlite
    letI := noDates
    letI := plainHeaders
    StaysAvailable PlainUrl startedSite otherDatabase ∧
      (startedSite.run PlainUrl otherDatabase).service.storage =
        some ⟨diskPath "b.sqlite3", true⟩ := by
  let _ := anySqlite
  let _ := noDates
  let _ := plainHeaders
  have opens : (StorageEvent.reloaded 0 (exclusiveConfig "b.sqlite3") : StorageEvent Nat).locks
      PlainUrl = some (0, diskPath "b.sqlite3") := by decide +kernel
  have healthy : EachOpen PlainUrl (fun s now path => Healthy s.disk now path) startedSite
      otherDatabase := by
    refine eachOpen_cons.mpr ⟨?_, eachOpen_cons.mpr ⟨?_, eachOpen_nil _⟩⟩
    · rw [opens]
      rintro now path ⟨⟩
      exact ⟨emptyDisk, rfl⟩
    · rintro now path ⟨⟩
  have free : EachOpen PlainUrl (fun s _ path => s.holds path = false) startedSite
      otherDatabase := by
    refine eachOpen_cons.mpr ⟨?_, eachOpen_cons.mpr ⟨?_, eachOpen_nil _⟩⟩
    · rw [opens]
      rintro now path ⟨⟩
      decide +kernel
    · rintro now path ⟨⟩
  exact ⟨(reloads_available_iff _ _ startedSite_available healthy).mpr free, by decide +kernel⟩

/-- Reloading the database that is open: the service is left without storage. -/
theorem sameDatabase_unavailable :
    letI := anySqlite
    letI := noDates
    letI := plainHeaders
    startedSite.Available ∧ Healthy startedSite.disk 0 (diskPath "a.sqlite3") ∧
      (startedSite.run PlainUrl
        [.reloaded 0 (exclusiveConfig "a.sqlite3"), .swap 0]).service.storage = none := by
  refine ⟨startedSite_available, ⟨emptyDisk, rfl⟩, ?_⟩
  decide +kernel

end Amatl
