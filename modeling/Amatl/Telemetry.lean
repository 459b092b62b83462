import Amatl.Lib.F64
import Amatl.Lib.StableSort
import Amatl.Model

/-! Observations of the providers. Each is put into memory and then, in two further steps
between which other calls may run, into storage; a process that starts reads the stored ones
back. -/

namespace Amatl

open StableSort

inductive TelemetryOutcome where
  | success | partialSuccess | error | timeout
  deriving DecidableEq, Repr

structure TelemetryObservation where
  observedAt : Int64
  provider : String
  category : Category
  outcome : TelemetryOutcome
  latencyMs : UInt64
  totalResults : UInt64
  uniqueResults : UInt64
  duplicateRatio : F64
  topKContribution : F64
  diversity : F64
  costUnits : UInt64
  requestId : Option String
  deriving DecidableEq

structure StoredTelemetryObservation where
  observedAt : Int64
  provider : String
  category : String
  outcome : String
  latencyMs : UInt64
  totalResults : UInt64
  uniqueResults : UInt64
  duplicateRatio : F64
  topKContribution : F64
  diversity : F64
  costUnits : UInt64
  requestId : Option String
  deriving DecidableEq

/-- A row of the table, whose integers are signed. -/
structure TelemetryRow where
  observedAt : Int64
  provider : String
  category : String
  outcome : String
  latencyMs : Int64
  totalResults : Int64
  uniqueResults : Int64
  duplicateRatio : F64
  topKContribution : F64
  diversity : F64
  costUnits : Int64
  requestId : Option String
  deriving DecidableEq

def categoryName : Category → String
  | .general => "general"
  | .technical => "technical"
  | .code => "code"
  | .documentation => "documentation"
  | .news => "news"
  | .academic => "academic"
  | .commercial => "commercial"
  | .forum => "forum"
  | .social => "social"
  | .media => "media"
  | .navigation => "navigation"

def parseCategory (value : String) : Option Category :=
  match value with
  | "general" => some .general
  | "technical" => some .technical
  | "code" => some .code
  | "documentation" => some .documentation
  | "news" => some .news
  | "academic" => some .academic
  | "commercial" => some .commercial
  | "forum" => some .forum
  | "social" => some .social
  | "media" => some .media
  | "navigation" => some .navigation
  | _ => none

def outcomeName : TelemetryOutcome → String
  | .success => "success"
  | .partialSuccess => "partial"
  | .error => "error"
  | .timeout => "timeout"

def parseOutcome (value : String) : Option TelemetryOutcome :=
  match value with
  | "success" => some .success
  | "partial" => some .partialSuccess
  | "error" => some .error
  | "timeout" => some .timeout
  | _ => none

def TelemetryObservation.toStored (value : TelemetryObservation) : StoredTelemetryObservation where
  observedAt := value.observedAt
  provider := value.provider
  category := categoryName value.category
  outcome := outcomeName value.outcome
  latencyMs := value.latencyMs
  totalResults := value.totalResults
  uniqueResults := value.uniqueResults
  duplicateRatio := value.duplicateRatio
  topKContribution := value.topKContribution
  diversity := value.diversity
  costUnits := value.costUnits
  requestId := value.requestId

def tryFromStored (value : StoredTelemetryObservation) : Option TelemetryObservation := do
  let category ← parseCategory value.category
  let outcome ← parseOutcome value.outcome
  some
    { observedAt := value.observedAt
      provider := value.provider
      category := category
      outcome := outcome
      latencyMs := value.latencyMs
      totalResults := value.totalResults
      uniqueResults := value.uniqueResults
      duplicateRatio := value.duplicateRatio
      topKContribution := value.topKContribution
      diversity := value.diversity
      costUnits := value.costUnits
      requestId := value.requestId }

/-- The values that are bound: `as i64` keeps the bits. -/
def StoredTelemetryObservation.toRow (value : StoredTelemetryObservation) : TelemetryRow where
  observedAt := value.observedAt
  provider := value.provider
  category := value.category
  outcome := value.outcome
  latencyMs := value.latencyMs.toInt64
  totalResults := value.totalResults.toInt64
  uniqueResults := value.uniqueResults.toInt64
  duplicateRatio := value.duplicateRatio
  topKContribution := value.topKContribution
  diversity := value.diversity
  costUnits := value.costUnits.toInt64
  requestId := value.requestId

/-- `.max(0) as u64`. -/
def unsignedColumn (value : Int64) : UInt64 := (if value < 0 then 0 else value).toUInt64

def TelemetryRow.toStored (row : TelemetryRow) : StoredTelemetryObservation where
  observedAt := row.observedAt
  provider := row.provider
  category := row.category
  outcome := row.outcome
  latencyMs := unsignedColumn row.latencyMs
  totalResults := unsignedColumn row.totalResults
  uniqueResults := unsignedColumn row.uniqueResults
  duplicateRatio := row.duplicateRatio
  topKContribution := row.topKContribution
  diversity := row.diversity
  costUnits := unsignedColumn row.costUnits
  requestId := row.requestId

/-- A NaN is bound as `NULL`, which the columns refuse. -/
def telemetryInsert (value : StoredTelemetryObservation) (rows : List TelemetryRow) :
    Option (List TelemetryRow) :=
  if value.duplicateRatio = .nan ∨ value.topKContribution = .nan ∨ value.diversity = .nan then none
  else some (rows ++ [value.toRow])

/-- The rows are kept in the order of their ids. -/
def telemetryLoad (since : Int64) (rows : List TelemetryRow) : List StoredTelemetryObservation :=
  (sortBy (compareOn TelemetryRow.observedAt)
    (rows.filter (fun row => since ≤ row.observedAt))).map TelemetryRow.toStored

def telemetryPrune (before : Int64) (rows : List TelemetryRow) : List TelemetryRow :=
  rows.filter (fun row => before ≤ row.observedAt)

/-- `f64::clamp(0.0, 1.0)`. -/
def clampUnit (x : F64) : F64 :=
  if F64.lt x (.finite 0) then .finite 0 else if F64.lt (.finite 1) x then .finite 1 else x

def TelemetryObservation.clamped (observation : TelemetryObservation) : TelemetryObservation :=
  { observation with
    duplicateRatio := clampUnit observation.duplicateRatio
    topKContribution := clampUnit observation.topKContribution
    diversity := clampUnit observation.diversity }

def windowSeconds (retentionDays : UInt32) : Int64 := Int64.ofNat (retentionDays.toNat * 86400)

/-- The process and its storage, with the calls of `record` that are still to insert or, with
these cut-offs, to prune. -/
structure TelemetryState where
  window : Int64
  observations : List TelemetryObservation
  persistenceFailures : UInt64
  rows : List TelemetryRow
  inserting : List TelemetryObservation
  pruning : List Int64

def restoreBestEffort (window now : Int64) (rows : List TelemetryRow) :
    List TelemetryObservation :=
  (telemetryLoad (now - window) rows).filterMap tryFromStored

def startTelemetry (retentionDays : UInt32) (rows : List TelemetryRow) (now : Int64) :
    TelemetryState where
  window := windowSeconds retentionDays
  observations := restoreBestEffort (windowSeconds retentionDays) now rows
  persistenceFailures := 0
  rows := rows
  inserting := []
  pruning := []

/-- One step of some call: its start, or what it does next. -/
inductive TelemetryStep where
  | record (observation : TelemetryObservation)
  | insert (call : Nat)
  | prune (call : Nat)
  deriving DecidableEq

def saturatingSucc64 (n : UInt64) : UInt64 := if n = UInt64.ofNat (2 ^ 64 - 1) then n else n + 1

def telemetryStep (state : TelemetryState) : TelemetryStep → Option TelemetryState
  | .record observation =>
    let observation := observation.clamped
    let cutoff := observation.observedAt - state.window
    some { state with
      observations := (state.observations ++ [observation]).filter (cutoff ≤ ·.observedAt)
      inserting := state.inserting ++ [observation] }
  | .insert call => do
    let observation ← state.inserting[call]?
    let waiting := { state with
      inserting := state.inserting.eraseIdx call
      pruning := state.pruning ++ [observation.observedAt - state.window] }
    match telemetryInsert observation.toStored state.rows with
    | some rows => some { waiting with rows := rows }
    | none =>
      some { waiting with persistenceFailures := saturatingSucc64 state.persistenceFailures }
  | .prune call => do
    let before ← state.pruning[call]?
    some { state with
      rows := telemetryPrune before state.rows
      pruning := state.pruning.eraseIdx call }

def telemetryRun (state : TelemetryState) (steps : List TelemetryStep) : Option TelemetryState :=
  steps.foldlM telemetryStep state

def snapshotObservations (observations : List TelemetryObservation) (window : Int64)
    (provider : String) (category : Option Category) (now : Int64) : List TelemetryObservation :=
  let cutoff := now - window
  observations.filter (fun item =>
    item.provider = provider && cutoff ≤ item.observedAt &&
      category.all (fun value => item.category = value))

/-! A stored observation is read back as it was where its counters fit a signed column. -/

def fitsColumn (n : UInt64) : Bool := n.toNat < 2 ^ 63

theorem unsignedColumn_eq_iff (n : UInt64) : unsignedColumn n.toInt64 = n ↔ fitsColumn n = true := by
  have bound := n.toNat_lt
  have value : n.toInt64.toInt = (n.toNat : Int).bmod (2 ^ 64) := by
    conv_lhs => rw [← UInt64.ofNat_toNat (x := n), UInt64.toInt64_ofNat', Int64.toInt_ofNat']
    rfl
  have sign : n.toInt64 < 0 ↔ ¬ n.toNat < 2 ^ 63 := by
    rw [Int64.lt_iff_toInt_lt, value]
    simp only [Int64.toInt_zero, Int.bmod]
    omega
  unfold unsignedColumn fitsColumn
  rw [decide_eq_true_eq]
  by_cases small : n.toNat < 2 ^ 63
  · rw [if_neg (fun negative => sign.mp negative small)]
    exact iff_of_true (by simp) small
  · rw [if_pos (sign.mpr small)]
    refine iff_of_false ?_ small
    intro zero
    rw [← zero] at small
    exact small (by decide)

/-- The counters of the observation fit their columns. -/
def TelemetryObservation.lossless (observation : TelemetryObservation) : Bool :=
  fitsColumn observation.latencyMs && fitsColumn observation.totalResults &&
    fitsColumn observation.uniqueResults && fitsColumn observation.costUnits

theorem parseCategory_categoryName (category : Category) :
    parseCategory (categoryName category) = some category := by
  cases category <;> rfl

theorem parseOutcome_outcomeName (outcome : TelemetryOutcome) :
    parseOutcome (outcomeName outcome) = some outcome := by
  cases outcome <;> rfl

theorem tryFromStored_toRow (observation : TelemetryObservation) :
    tryFromStored observation.toStored.toRow.toStored =
      some { observation with
        latencyMs := unsignedColumn observation.latencyMs.toInt64
        totalResults := unsignedColumn observation.totalResults.toInt64
        uniqueResults := unsignedColumn observation.uniqueResults.toInt64
        costUnits := unsignedColumn observation.costUnits.toInt64 } := by
  simp [tryFromStored, TelemetryObservation.toStored, StoredTelemetryObservation.toRow,
    TelemetryRow.toStored, parseCategory_categoryName, parseOutcome_outcomeName]

theorem tryFromStored_eq_iff (observation : TelemetryObservation) :
    tryFromStored observation.toStored.toRow.toStored = some observation ↔
      observation.lossless = true := by
  rw [tryFromStored_toRow]
  unfold TelemetryObservation.lossless
  simp only [Bool.and_eq_true, ← unsignedColumn_eq_iff]
  cases observation
  simp [and_assoc]

theorem tryFromStored_observedAt {value : StoredTelemetryObservation}
    {observation : TelemetryObservation} (h : tryFromStored value = some observation) :
    observation.observedAt = value.observedAt := by
  unfold tryFromStored at h
  obtain ⟨category, -, rest⟩ := Option.bind_eq_some_iff.mp h
  obtain ⟨outcome, -, last⟩ := Option.bind_eq_some_iff.mp rest
  cases last
  rfl

/-! From a cut-off on that no call has pruned beyond, memory and storage hold the same. -/

def observationsOf (rows : List TelemetryRow) : List TelemetryObservation :=
  rows.filterMap (fun row => tryFromStored row.toStored)

def since (cutoff : Int64) (observations : List TelemetryObservation) :
    List TelemetryObservation :=
  observations.filter (fun item => cutoff ≤ item.observedAt)

theorem since_append (cutoff : Int64) (a b : List TelemetryObservation) :
    since cutoff (a ++ b) = since cutoff a ++ since cutoff b :=
  List.filter_append _ _

theorem since_since {before cutoff : Int64} (le : before ≤ cutoff)
    (observations : List TelemetryObservation) :
    since cutoff (since before observations) = since cutoff observations := by
  unfold since
  rw [List.filter_filter]
  refine List.filter_congr (fun item _ => ?_)
  by_cases kept : cutoff ≤ item.observedAt
  · simp [kept, Int64.le_trans le kept]
  · simp [kept]

theorem observationsOf_prune (before : Int64) (rows : List TelemetryRow) :
    observationsOf (telemetryPrune before rows) = since before (observationsOf rows) := by
  unfold observationsOf telemetryPrune since
  rw [List.filterMap_filter, List.filter_filterMap]
  refine List.filterMap_congr (fun row _ => ?_)
  cases h : tryFromStored row.toStored with
  | none => simp
  | some observation =>
    have at_row : observation.observedAt = row.observedAt := tryFromStored_observedAt h
    simp [Option.filter, at_row]

theorem restoreBestEffort_perm (window now : Int64) (rows : List TelemetryRow) :
    (restoreBestEffort window now rows).Perm (since (now - window) (observationsOf rows)) := by
  rw [← observationsOf_prune]
  unfold restoreBestEffort telemetryLoad observationsOf
  rw [List.filterMap_map]
  exact (sortBy_perm _ _).filterMap _

structure Synced (cutoff : Int64) (state : TelemetryState) : Prop where
  same : (since cutoff (observationsOf state.rows ++ state.inserting)).Perm
    (since cutoff state.observations)
  inserting : ∀ observation ∈ state.inserting,
    observation.lossless = true ∧ observation.observedAt - state.window ≤ cutoff
  pruning : ∀ before ∈ state.pruning, before ≤ cutoff

section Run

variable {cutoff : Int64} {state next : TelemetryState}

theorem Synced.record (h : Synced cutoff state) {observation : TelemetryObservation}
    (lossless : observation.clamped.lossless = true)
    (reached : observation.observedAt - state.window ≤ cutoff)
    (step : telemetryStep state (.record observation) = some next) : Synced cutoff next := by
  cases step
  exact
    { same := by
        change (since cutoff _).Perm (since cutoff (since (observation.observedAt - state.window)
          (state.observations ++ [observation.clamped])))
        rw [since_since reached, ← List.append_assoc, since_append, since_append cutoff _ [_]]
        exact h.same.append_right _
      inserting := by
        intro other mem
        rcases List.mem_append.mp mem with before | last
        · exact h.inserting other before
        · obtain rfl := List.mem_singleton.mp last
          exact ⟨lossless, reached⟩
      pruning := h.pruning }

theorem saturatingSucc64_ne_zero (n : UInt64) : saturatingSucc64 n ≠ 0 := by
  unfold saturatingSucc64
  by_cases last : n = UInt64.ofNat (2 ^ 64 - 1)
  · rw [if_pos last, last]
    decide
  · rw [if_neg last]
    intro zero
    apply last
    have bound := n.toNat_lt
    have value : (n.toNat + 1) % 2 ^ 64 = 0 := by
      rw [← UInt64.toNat_inj, UInt64.toNat_add] at zero
      exact zero
    apply UInt64.toNat_inj.mp
    change n.toNat = 2 ^ 64 - 1
    omega

theorem observationsOf_append {observation : TelemetryObservation}
    (lossless : observation.lossless = true) (rows : List TelemetryRow) :
    observationsOf (rows ++ [observation.toStored.toRow]) =
      observationsOf rows ++ [observation] := by
  have readBack := (tryFromStored_eq_iff observation).mpr lossless
  simp [observationsOf, readBack]

theorem Synced.insert (h : Synced cutoff state) {call : Nat}
    (step : telemetryStep state (.insert call) = some next)
    (sound : next.persistenceFailures = 0) : Synced cutoff next := by
  obtain ⟨observation, found, last⟩ := Option.bind_eq_some_iff.mp step
  obtain ⟨lossless, reached⟩ := h.inserting observation (List.mem_of_getElem? found)
  obtain ⟨bound, rfl⟩ := List.getElem?_eq_some_iff.mp found
  have taken := List.getElem_cons_eraseIdx_perm bound
  cases inserted : telemetryInsert state.inserting[call].toStored state.rows with
  | none =>
    rw [inserted] at last
    cases last
    exact absurd sound (saturatingSucc64_ne_zero _)
  | some rows =>
    rw [inserted] at last
    cases last
    unfold telemetryInsert at inserted
    split at inserted
    · cases inserted
    cases inserted
    exact
      { same := by
          change (since cutoff (observationsOf (state.rows ++ [_]) ++ _)).Perm _
          rw [observationsOf_append lossless, List.append_assoc]
          refine List.Perm.trans (List.Perm.filter _ ?_) h.same
          exact taken.append_left _
        inserting := fun other mem => h.inserting other (List.mem_of_mem_eraseIdx mem)
        pruning := by
          intro before mem
          rcases List.mem_append.mp mem with earlier | now
          · exact h.pruning before earlier
          · obtain rfl := List.mem_singleton.mp now
            exact reached }

theorem Synced.prune (h : Synced cutoff state) {call : Nat}
    (step : telemetryStep state (.prune call) = some next) : Synced cutoff next := by
  obtain ⟨before, found, last⟩ := Option.bind_eq_some_iff.mp step
  cases last
  have reached := h.pruning before (List.mem_of_getElem? found)
  exact
    { same := by
        change (since cutoff (observationsOf (telemetryPrune before state.rows) ++ _)).Perm _
        rw [observationsOf_prune, since_append, since_since reached, ← since_append]
        exact h.same
      inserting := h.inserting
      pruning := fun other mem => h.pruning other (List.mem_of_mem_eraseIdx mem) }

/-- What a step asks for: the counters fit their columns and the observation is not after the
cut-off's window. -/
def TelemetryStep.Fits (cutoff window : Int64) : TelemetryStep → Prop
  | .record observation =>
    observation.lossless = true ∧ observation.observedAt - window ≤ cutoff
  | .insert _ => True
  | .prune _ => True

theorem Synced.step (h : Synced cutoff state) {action : TelemetryStep}
    (fits : action.Fits cutoff state.window) (step : telemetryStep state action = some next)
    (sound : next.persistenceFailures = 0) : Synced cutoff next := by
  cases action with
  | record observation => exact h.record fits.1 fits.2 step
  | insert call => exact h.insert step sound
  | prune call => exact h.prune step

/-- The window stays, and a failure stays counted. -/
theorem telemetryStep_frame {action : TelemetryStep}
    (step : telemetryStep state action = some next) :
    next.window = state.window ∧
      (next.persistenceFailures = 0 → state.persistenceFailures = 0) := by
  cases action with
  | record observation =>
    cases step
    exact ⟨rfl, id⟩
  | insert call =>
    obtain ⟨observation, -, last⟩ := Option.bind_eq_some_iff.mp step
    dsimp only at last
    split at last
    · cases last
      exact ⟨rfl, id⟩
    · cases last
      exact ⟨rfl, fun zero => absurd zero (saturatingSucc64_ne_zero _)⟩
  | prune call =>
    obtain ⟨before, -, last⟩ := Option.bind_eq_some_iff.mp step
    cases last
    exact ⟨rfl, id⟩

theorem telemetryRun_frame {steps : List TelemetryStep}
    (run : telemetryRun state steps = some next) :
    next.window = state.window ∧
      (next.persistenceFailures = 0 → state.persistenceFailures = 0) := by
  induction steps generalizing state with
  | nil =>
    cases run
    exact ⟨rfl, id⟩
  | cons action steps ih =>
    obtain ⟨between, step, rest⟩ := Option.bind_eq_some_iff.mp run
    have first := telemetryStep_frame step
    have later := ih rest
    exact ⟨later.1.trans first.1, first.2 ∘ later.2⟩

theorem Synced.run (h : Synced cutoff state) {steps : List TelemetryStep}
    (fits : ∀ action ∈ steps, action.Fits cutoff state.window)
    (run : telemetryRun state steps = some next) (sound : next.persistenceFailures = 0) :
    Synced cutoff next := by
  induction steps generalizing state with
  | nil =>
    cases run
    exact h
  | cons action steps ih =>
    obtain ⟨between, step, rest⟩ := Option.bind_eq_some_iff.mp run
    have synced := h.step (fits action (by simp)) step ((telemetryRun_frame rest).2 sound)
    refine ih synced (fun later mem => ?_) rest
    rw [(telemetryStep_frame step).1]
    exact fits later (by simp [mem])

end Run

def inRange (window time : Int64) : Bool := Int64.minValue.toInt + window.toInt ≤ time.toInt

theorem toInt_sub_window {window time : Int64} (nonneg : 0 ≤ window.toInt)
    (range : inRange window time = true) : (time - window).toInt = time.toInt - window.toInt := by
  have low := time.le_toInt
  have high := time.toInt_lt
  have low' := window.le_toInt
  have bound := of_decide_eq_true range
  have least : Int64.minValue.toInt = -2 ^ 63 := rfl
  rw [Int64.toInt_sub, Int.bmod_eq_of_le_mul_two] <;> omega

theorem windowSeconds_toInt (retentionDays : UInt32) :
    (windowSeconds retentionDays).toInt = retentionDays.toNat * 86400 := by
  have bound := retentionDays.toNat_lt
  rw [windowSeconds, Int64.toInt_ofNat_of_lt (by omega)]
  push_cast
  rfl

theorem cutoff_le {window a b : Int64} (nonneg : 0 ≤ window.toInt)
    (range : inRange window a = true) (le : a ≤ b) : a - window ≤ b - window := by
  rw [Int64.le_iff_toInt_le] at le
  have above : inRange window b = true := by
    have low := of_decide_eq_true range
    exact decide_eq_true (by omega)
  rw [Int64.le_iff_toInt_le, toInt_sub_window nonneg range, toInt_sub_window nonneg above]
  omega

theorem snapshotObservations_perm {a b : List TelemetryObservation} {window now : Int64}
    (same : (since (now - window) a).Perm (since (now - window) b)) (provider : String)
    (category : Option Category) :
    (snapshotObservations a window provider category now).Perm
      (snapshotObservations b window provider category now) := by
  have split (l : List TelemetryObservation) :
      snapshotObservations l window provider category now =
        (since (now - window) l).filter (fun item => item.provider = provider &&
          category.all (fun value => item.category = value)) := by
    unfold snapshotObservations since
    rw [List.filter_filter]
    refine List.filter_congr (fun item _ => ?_)
    cases decide (item.provider = provider) <;>
      cases category.all (fun value => item.category = value) <;> simp
  rw [split, split]
  exact same.filter _

theorem startTelemetry_synced {retentionDays : UInt32} {rows : List TelemetryRow}
    {started cutoff : Int64} (le : started - windowSeconds retentionDays ≤ cutoff) :
    Synced cutoff (startTelemetry retentionDays rows started) where
  same := by
    have restored := restoreBestEffort_perm (windowSeconds retentionDays) started rows
    change (since cutoff (observationsOf rows ++ [])).Perm
      (since cutoff (restoreBestEffort (windowSeconds retentionDays) started rows))
    rw [List.append_nil, ← since_since le (observationsOf rows)]
    exact (restored.filter _).symm
  inserting := by simp [startTelemetry]
  pruning := by simp [startTelemetry]

def TelemetryState.idle (state : TelemetryState) : Bool :=
  state.inserting = [] && state.pruning = [] && state.persistenceFailures = 0

theorem TelemetryState.idle_iff (state : TelemetryState) :
    state.idle = true ↔
      state.inserting = [] ∧ state.pruning = [] ∧ state.persistenceFailures = 0 := by
  simp [TelemetryState.idle, and_assoc]

/-- An observation is read back as it was recorded if and only if its counters fit. Where they
do and no time underflows, a process that ran through any interleaving of calls and one that
is restored from its storage calculate their snapshots from the same observations. -/
theorem telemetry_restarts (retentionDays : UInt32) :
    (∀ observation : TelemetryObservation,
      tryFromStored observation.toStored.toRow.toStored = some observation ↔
        observation.lossless = true) ∧
    ∀ (rows : List TelemetryRow) (started now : Int64) (steps : List TelemetryStep)
      (last : TelemetryState),
      0 ≤ started → started ≤ now →
      telemetryRun (startTelemetry retentionDays rows started) steps = some last →
      last.idle = true →
      (∀ observation, .record observation ∈ steps →
        observation.observedAt ≤ now ∧ observation.lossless = true ∧
          inRange (windowSeconds retentionDays) observation.observedAt = true) →
      ∀ provider category time, now ≤ time →
        (snapshotObservations last.observations last.window provider category time).Perm
          (snapshotObservations (restoreBestEffort last.window now last.rows) last.window
            provider category time) := by
  refine ⟨tryFromStored_eq_iff, ?_⟩
  intro rows started now steps last nonneg later run idle fits
    provider category time after
  obtain ⟨inserted, -, sound⟩ := last.idle_iff.mp idle
  have window : last.window = windowSeconds retentionDays := (telemetryRun_frame run).1
  have positive : 0 ≤ (windowSeconds retentionDays).toInt := by
    rw [windowSeconds_toInt]
    omega
  have within (instant : Int64) (h : 0 ≤ instant) :
      inRange (windowSeconds retentionDays) instant = true := by
    have bound := retentionDays.toNat_lt
    have least : Int64.minValue.toInt = -2 ^ 63 := rfl
    rw [Int64.le_iff_toInt_le, Int64.toInt_zero] at h
    unfold inRange
    rw [windowSeconds_toInt]
    exact decide_eq_true (by omega)
  have start := cutoff_le positive (within started nonneg) (Int64.le_trans later after)
  have first : Synced _ (startTelemetry retentionDays rows started) :=
    startTelemetry_synced start
  have synced : Synced (time - windowSeconds retentionDays) last := by
    refine first.run (fun action mem => ?_) run sound
    cases action with
    | record observation =>
      obtain ⟨before, lossless, range⟩ := fits observation mem
      exact ⟨lossless, cutoff_le positive range (Int64.le_trans before after)⟩
    | insert call => trivial
    | prune call => trivial
  rw [window]
  refine snapshotObservations_perm ?_ provider category
  have stored := synced.same
  rw [inserted, List.append_nil] at stored
  have restored := restoreBestEffort_perm (windowSeconds retentionDays) now last.rows
  have newest := cutoff_le positive (within now (Int64.le_trans nonneg later)) after
  refine stored.symm.trans ?_
  rw [← since_since newest (observationsOf last.rows)]
  exact (restored.filter _).symm

def sampleObservation (observedAt : Int64) (latencyMs : UInt64) : TelemetryObservation where
  observedAt := observedAt
  provider := "p"
  category := .general
  outcome := .success
  latencyMs := latencyMs
  totalResults := 2
  uniqueResults := 1
  duplicateRatio := .finite (1 / 2)
  topKContribution := .finite 0
  diversity := .finite 0
  costUnits := 0
  requestId := none

def twoCalls : List TelemetryStep :=
  [.record (sampleObservation 5 7), .record (sampleObservation 6 8), .insert 1, .insert 0,
    .prune 0, .prune 0]

theorem exists_of_any {α : Type*} {value : Option α} {p : α → Bool} (h : value.any p = true) :
    ∃ a, value = some a ∧ p a = true := by
  cases value with
  | none => cases h
  | some a => exact ⟨a, rfl, h⟩

theorem twoCalls_restart :
    ∃ last, telemetryRun (startTelemetry 30 [] 0) twoCalls = some last ∧
      last.observations.length = 2 ∧
      (snapshotObservations last.observations last.window "p" none 9).Perm
        (snapshotObservations (restoreBestEffort last.window 9 last.rows) last.window
          "p" none 9) := by
  have ends : (telemetryRun (startTelemetry 30 [] 0) twoCalls).any
      (fun last => last.idle && last.observations.length = 2) = true := by decide +kernel
  obtain ⟨last, run, ended⟩ := exists_of_any ends
  rw [Bool.and_eq_true, decide_eq_true_eq] at ended
  refine ⟨last, run, ended.2, ?_⟩
  refine (telemetry_restarts 30).2 [] 0 9 twoCalls last (by decide) (by decide) run ended.1 ?_
    "p" none 9 (by decide)
  intro observation mem
  simp only [twoCalls, List.mem_cons, TelemetryStep.record.injEq, reduceCtorEq,
    List.not_mem_nil, or_false] at mem
  rcases mem with rfl | rfl
  · decide
  · decide

/-- A counter that does not fit a signed column is zero after a restart. -/
theorem hugeLatency_lost :
    ∃ last, telemetryRun (startTelemetry 30 [] 0)
        [.record (sampleObservation 5 (UInt64.ofNat (2 ^ 63))), .insert 0, .prune 0] =
          some last ∧ last.idle = true ∧
      (snapshotObservations last.observations last.window "p" none 9).map (·.latencyMs.toNat) =
        [2 ^ 63] ∧
      (snapshotObservations (restoreBestEffort last.window 9 last.rows) last.window
        "p" none 9).map (·.latencyMs.toNat) = [0] := by
  have ends : (telemetryRun (startTelemetry 30 [] 0)
      [.record (sampleObservation 5 (UInt64.ofNat (2 ^ 63))), .insert 0, .prune 0]).any
        (fun last => last.idle &&
          ((snapshotObservations last.observations last.window "p" none 9).map
            (·.latencyMs.toNat) = [2 ^ 63] &&
          (snapshotObservations (restoreBestEffort last.window 9 last.rows) last.window
            "p" none 9).map (·.latencyMs.toNat) = [0])) = true := by decide +kernel
  obtain ⟨last, run, ended⟩ := exists_of_any ends
  simp only [Bool.and_eq_true, decide_eq_true_eq] at ended
  exact ⟨last, run, ended⟩

end Amatl
