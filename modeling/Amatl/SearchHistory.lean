import Amatl.CacheTables
import Amatl.Lib.Journal

/-! The history of searches: what is recorded, listed page by page, deleted and pruned,
and a reader of the pages while the other operations go on. -/

namespace Amatl

structure NewHistoryEntry where
  normalizedQuery : String
  rawQuery : String
  category : Option String
  providerCount : Int64
  totalResults : Int64
  deepFetches : Int64
  surface : String
  deriving DecidableEq

structure SearchHistoryEntry extends NewHistoryEntry where
  id : Nat
  createdAt : Int64
  deriving DecidableEq

instance : Journal.Entry SearchHistoryEntry where
  stamp entry := entry.createdAt.toInt
  id entry := entry.id

/-- The table and the largest id that `AUTOINCREMENT` has handed out. -/
structure HistoryTable where
  rows : List SearchHistoryEntry
  sequence : Nat

namespace HistoryTable

def searchHistoryInsert (table : HistoryTable) (entry : NewHistoryEntry) (skipped : Nat)
    (now : Int64) : Nat × HistoryTable :=
  let id := table.sequence + skipped + 1
  (id, ⟨table.rows ++ [{ entry with id, createdAt := now }], id⟩)

/-- `ORDER BY created_at DESC, id DESC LIMIT ? OFFSET ?`. -/
def searchHistoryList (table : HistoryTable) (limit offset : Nat) : List SearchHistoryEntry :=
  Journal.page limit offset table.rows

def searchHistoryDelete (table : HistoryTable) (id : Nat) : Bool × HistoryTable :=
  (table.rows.any (fun row => row.id = id),
    { table with rows := table.rows.filter (fun row => row.id ≠ id) })

def searchHistoryPurge (table : HistoryTable) : Nat × HistoryTable :=
  (table.rows.length, { table with rows := [] })

def searchHistoryPrune (table : HistoryTable) (before : Int64) : Nat × HistoryTable :=
  (table.rows.countP (fun row => row.createdAt < before),
    { table with rows := table.rows.filter (fun row => before ≤ row.createdAt) })

/-- `AmatlService::history`. -/
def history (table : HistoryTable) (limit offset : UInt32) : List SearchHistoryEntry :=
  table.searchHistoryList (max 1 (min limit 200)).toNat offset.toNat

end HistoryTable

/-- The parameters of a listing. -/
structure PageParams where
  limit : Option UInt32
  offset : Option UInt32

def PageParams.window (params : PageParams) : UInt32 × UInt32 :=
  (max 1 (min (params.limit.getD 50) 200), params.offset.getD 0)

/-- The table beside a reader who asks for the next entries behind those he has got. -/
structure HistorySite where
  table : HistoryTable
  offset : Nat
  seen : List SearchHistoryEntry

inductive HistoryStep where
  | record (entry : NewHistoryEntry) (skipped : Nat) (now : Int64)
  | delete (id : Nat)
  | purge
  | prune (before : Int64)
  | list (limit : Option UInt32)

namespace HistorySite

/-- The next page, as long as its offset can be asked for. -/
def nextPage (site : HistorySite) (limit : Option UInt32) : List SearchHistoryEntry :=
  if site.offset < 2 ^ 32 then
    let window := PageParams.window ⟨limit, some (UInt32.ofNat site.offset)⟩
    site.table.history window.1 window.2
  else []

def step (site : HistorySite) : HistoryStep → HistorySite
  | .record entry skipped now =>
    { site with table := (site.table.searchHistoryInsert entry skipped now).2 }
  | .delete id => { site with table := (site.table.searchHistoryDelete id).2 }
  | .purge => { site with table := site.table.searchHistoryPurge.2 }
  | .prune before => { site with table := (site.table.searchHistoryPrune before).2 }
  | .list limit =>
    let page := site.nextPage limit
    { site with offset := site.offset + page.length, seen := site.seen ++ page }

def run (site : HistorySite) (steps : List HistoryStep) : HistorySite := steps.foldl step site

/-- The clock does not go back, and an entry that the reader has passed is not deleted on
its own. -/
def Orderly (site : HistorySite) : HistoryStep → Prop
  | .record _ _ now => ∀ row ∈ site.table.rows, row.createdAt ≤ now
  | .delete id => ∀ row ∈ site.table.searchHistoryList site.offset 0, row.id ≠ id
  | .purge | .prune _ | .list _ => True

def OrderlyAll (site : HistorySite) : List HistoryStep → Prop
  | [] => True
  | step :: rest => site.Orderly step ∧ (site.step step).OrderlyAll rest

/-! The site is a session at a journal. -/

def session (site : HistorySite) : Journal.Session SearchHistoryEntry :=
  ⟨site.table.rows, site.table.sequence, site.offset, site.seen⟩

/-- The number of entries in the next page at most. -/
def pageLimit (site : HistorySite) (limit : Option UInt32) : Nat :=
  if site.offset < 2 ^ 32 then (PageParams.window ⟨limit, none⟩).1.toNat else 0

theorem clamp_clamp (n : UInt32) : max 1 (min (max 1 (min n 200)) 200) = max 1 (min n 200) := by
  have one : (1 : UInt32).toNat = 1 := rfl
  have top : (200 : UInt32).toNat = 200 := rfl
  simp only [Max.max, Min.min, UInt32.le_iff_toNat_le, one, top]
  split_ifs <;> simp_all

theorem pageLimit_pos {site : HistorySite} (fits : site.offset < 2 ^ 32)
    (limit : Option UInt32) : 0 < site.pageLimit limit := by
  have least : (1 : UInt32) ≤ max 1 (min (limit.getD 50) 200) := by
    simp only [Max.max, UInt32.le_iff_toNat_le]
    split_ifs with h <;> omega
  have positive := UInt32.le_iff_toNat_le.mp least
  rw [pageLimit, if_pos fits]
  exact positive

theorem nextPage_eq (site : HistorySite) (limit : Option UInt32) :
    site.nextPage limit = Journal.page (site.pageLimit limit) site.offset site.table.rows := by
  unfold nextPage pageLimit
  split
  · rename_i fits
    have offset : (UInt32.ofNat site.offset).toNat = site.offset := by
      rw [UInt32.toNat_ofNat', Nat.mod_eq_of_lt fits]
    simp only [PageParams.window, HistoryTable.history, HistoryTable.searchHistoryList,
      Option.getD_some, offset, clamp_clamp]
  · simp [Journal.page]

def journalStep (site : HistorySite) : HistoryStep → Journal.Step SearchHistoryEntry
  | .record entry skipped now =>
    .insert { entry with id := site.table.sequence + skipped + 1, createdAt := now }
  | .delete id => .remove (fun row => row.id ≠ id)
  | .purge => .remove (fun _ => false)
  | .prune before => .remove (fun row => before ≤ row.createdAt)
  | .list limit => .read (site.pageLimit limit)

theorem session_step (site : HistorySite) (step : HistoryStep) :
    (site.step step).session = site.session.step (site.journalStep step) := by
  cases step with
  | record entry skipped now => rfl
  | delete id => rfl
  | purge => simp [HistorySite.step, session, journalStep, Journal.Session.step,
      HistoryTable.searchHistoryPurge]
  | prune before => rfl
  | list limit =>
    simp only [HistorySite.step, session, journalStep, Journal.Session.step, nextPage_eq]

theorem allows_of_orderly {site : HistorySite} {step : HistoryStep} (orderly : site.Orderly step) :
    site.session.Allows (site.journalStep step) := by
  cases step with
  | record entry skipped now =>
    refine ⟨fun other mem => Int64.le_iff_toInt_le.mp (orderly other mem), ?_⟩
    simp only [session, Journal.Entry.id]
    omega
  | delete id =>
    refine .inl fun row mem => decide_eq_true (orderly row ?_)
    rwa [HistoryTable.searchHistoryList, Journal.page, List.drop_zero]
  | purge => exact .inr fun _ _ _ kept => kept
  | prune before =>
    refine .inr fun a b le kept => ?_
    have later := Int64.le_iff_toInt_le.mp (of_decide_eq_true kept)
    exact decide_eq_true (Int64.le_iff_toInt_le.mpr (later.trans le))
  | list limit => trivial

def journalSteps (site : HistorySite) : List HistoryStep → List (Journal.Step SearchHistoryEntry)
  | [] => []
  | step :: rest => site.journalStep step :: journalSteps (site.step step) rest

theorem session_run (site : HistorySite) (steps : List HistoryStep) :
    (site.run steps).session = site.session.run (site.journalSteps steps) := by
  induction steps generalizing site with
  | nil => rfl
  | cons step rest ih =>
    rw [journalSteps, Journal.Session.run, List.foldl_cons, ← session_step]
    exact ih (site.step step)

theorem allowsAll_of_orderly {site : HistorySite} {steps : List HistoryStep}
    (orderly : site.OrderlyAll steps) : site.session.AllowsAll (site.journalSteps steps) := by
  induction steps generalizing site with
  | nil => trivial
  | cons step rest ih =>
    refine ⟨allows_of_orderly orderly.1, ?_⟩
    rw [← session_step]
    exact ih orderly.2

theorem journalSteps_isRead {site : HistorySite} {steps : List HistoryStep}
    (lists : ∀ step ∈ steps, ∃ limit, step = .list limit) :
    ∀ step ∈ site.journalSteps steps, step.isRead = true := by
  induction steps generalizing site with
  | nil => exact List.forall_mem_nil _
  | cons step rest ih =>
    obtain ⟨⟨limit, rfl⟩, later⟩ := List.forall_mem_cons.mp lists
    exact List.forall_mem_cons.mpr ⟨rfl, ih later⟩

/-- In every orderly run of searches, deletions, purges and prunings a reader who comes to
an empty page has read each entry that stood in the history from the start to the end.
Without writes in between the pages are the listing itself. -/
theorem pages_complete {table : HistoryTable} (distinct : (table.rows.map (·.id)).Nodup)
    (known : ∀ row ∈ table.rows, row.id ≤ table.sequence) {steps : List HistoryStep}
    (orderly : (⟨table, 0, []⟩ : HistorySite).OrderlyAll steps) :
    let site := (⟨table, 0, []⟩ : HistorySite).run steps
    (∀ limit, site.offset < 2 ^ 32 → site.nextPage limit = [] →
      ∀ row ∈ table.rows, row ∈ site.table.rows → row ∈ site.seen) ∧
    ((∀ step ∈ steps, ∃ limit, step = .list limit) →
      site.seen = table.searchHistoryList site.offset 0) := by
  have ran := session_run ⟨table, 0, []⟩ steps
  refine ⟨fun limit fits empty row mem still => ?_, fun lists => ?_⟩
  · have caught : ((⟨table, 0, []⟩ : HistorySite).run steps).session.Caught table.rows := by
      rw [ran]
      exact (Journal.Session.Caught.start distinct known).run (allowsAll_of_orderly orderly)
    rw [nextPage_eq] at empty
    exact caught.all_read (Journal.Session.page_eq_nil (pageLimit_pos fits limit) empty) mem still
  · obtain ⟨-, seen⟩ := Journal.Session.run_reads
      (s := (⟨table, 0, []⟩ : HistorySite).session) (journalSteps_isRead lists)
      (by simp [session])
    rw [← ran] at seen
    rw [HistoryTable.searchHistoryList, Journal.page, List.drop_zero]
    exact seen

end HistorySite

def searchEntry (id : Nat) : SearchHistoryEntry :=
  { normalizedQuery := "lean", rawQuery := "Lean", category := some "general", providerCount := 1,
    totalResults := 10, deepFetches := 0, surface := "api", id := id, createdAt := 100 }

def twoSearches : HistoryTable := ⟨[searchEntry 1, searchEntry 2], 2⟩

/-- A search is recorded between the first page and the second. -/
def pagedSteps : List HistoryStep :=
  [.list (some 1), .record (searchEntry 1).toNewHistoryEntry 0 100, .list none]

theorem pages_complete_between :
    let site := (⟨twoSearches, 0, []⟩ : HistorySite).run pagedSteps
    searchEntry 1 ∈ site.seen ∧ searchEntry 2 ∈ site.seen := by
  have orderly : (⟨twoSearches, 0, []⟩ : HistorySite).OrderlyAll pagedSteps := by
    refine ⟨trivial, ?_, trivial, trivial⟩
    change ∀ row ∈ [searchEntry 1, searchEntry 2], row.createdAt ≤ 100
    decide
  have complete := (HistorySite.pages_complete (by decide) (by decide) orderly).1 none (by decide)
    (by decide)
  exact ⟨complete _ (by decide) (by decide), complete _ (by decide) (by decide)⟩

end Amatl
