import Amatl.CacheTables
import Amatl.Config.Limits
import Amatl.Lib.Interleaving

/-! The recorder of rejections: calls that count themselves in, give up at the cap or
hand their event to a writer, and writers that take turns at the table. -/

namespace Amatl

open Interleaving

def maxInFlight : Nat := 32

structure SecurityEventInput where
  event : String
  requestId : Option String
  clientId : Option String
  path : Option String
  clientIp : Option String
  deriving DecidableEq

structure SecurityEvent extends SecurityEventInput where
  id : Nat
  observedAt : Int64
  deriving DecidableEq

/-- Where a call of `record` and the writer that it spawns are. -/
inductive RecorderStage where
  | arriving
  | inert
  | refusing
  | refused
  | dropped
  | spawned (observedAt : Int64)
  | inserting (observedAt : Int64)
  | pruning (observedAt : Int64)
  | written (inserted : Bool)
  | ended (inserted : Bool)

structure Recorder where
  input : SecurityEventInput
  stage : RecorderStage

namespace Recorder

/-- The call is in the count of writes in flight. -/
def counted (recorder : Recorder) : Bool :=
  match recorder.stage with
  | .refusing | .spawned _ | .inserting _ | .pruning _ | .written _ => true
  | .arriving | .inert | .refused | .dropped | .ended _ => false

def writing (recorder : Recorder) : Bool :=
  match recorder.stage with
  | .spawned _ | .inserting _ | .pruning _ | .written _ => true
  | .arriving | .inert | .refusing | .refused | .dropped | .ended _ => false

/-- The writer has the write lock of the storage. -/
def locked (recorder : Recorder) : Bool :=
  match recorder.stage with
  | .inserting _ | .pruning _ => true
  | _ => false

def isDropped (recorder : Recorder) : Bool :=
  match recorder.stage with
  | .dropped => true
  | _ => false

def isInert (recorder : Recorder) : Bool :=
  match recorder.stage with
  | .inert => true
  | _ => false

/-- The call met the cap. -/
def isRefused (recorder : Recorder) : Bool :=
  match recorder.stage with
  | .refusing | .refused | .dropped => true
  | _ => false

/-- The event that a row was inserted for. -/
def stored (recorder : Recorder) : Option SecurityEventInput :=
  match recorder.stage with
  | .pruning _ | .written true | .ended true => some recorder.input
  | _ => none

/-- The event of a call whose write failed. -/
def failed (recorder : Recorder) : Bool :=
  match recorder.stage with
  | .written false | .ended false => true
  | _ => false

def isOver (recorder : Recorder) : Bool :=
  match recorder.stage with
  | .inert | .dropped | .ended _ => true
  | _ => false

end Recorder

structure AuditSite where
  enabled : Bool
  retentionDays : UInt32
  inFlight : Nat
  dropped : Nat
  lockFree : Nat
  rows : List SecurityEvent
  sequence : Nat
  recorders : List Recorder

inductive RecorderAction where
  | enter (now : Int64)
  | release
  | tally
  | lock
  | insert (ok : Bool) (skipped : Nat)
  | prune (ok : Bool)
  | finish

inductive AuditStep where
  | recorder (index : Nat) (action : RecorderAction)
  /-- `security_events_prune` of the maintenance. -/
  | maintain (before : Int64)

def pruneEvents (before : Int64) (rows : List SecurityEvent) : List SecurityEvent :=
  rows.filter (fun row => before ≤ row.observedAt)

def retentionCutoff (now : Int64) (retentionDays : UInt32) : Int64 :=
  cutoff now (UInt64.ofNat (retentionDays.toNat * 86400))

namespace AuditSite

/-- `SecurityAudit::new`, over a table that has handed out ids up to `sequence`. -/
def start (enabled : Bool) (retentionDays : UInt32) (rows : List SecurityEvent) (sequence : Nat)
    (inputs : List SecurityEventInput) : AuditSite where
  enabled := enabled
  retentionDays := max 1 (min retentionDays auditMaxRetentionDays)
  inFlight := 0
  dropped := 0
  lockFree := 1
  rows := rows
  sequence := sequence
  recorders := inputs.map (fun input => ⟨input, .arriving⟩)

def put (site : AuditSite) (index : Nat) (recorder : Recorder) (stage : RecorderStage) :
    AuditSite :=
  { site with recorders := site.recorders.set index { recorder with stage } }

def actOf (site : AuditSite) (index : Nat) (recorder : Recorder) :
    RecorderAction → Option AuditSite
  | .enter now =>
    match recorder.stage with
    | .arriving =>
      if !site.enabled then some (site.put index recorder .inert)
      else if maxInFlight ≤ site.inFlight then
        some { site.put index recorder .refusing with inFlight := site.inFlight + 1 }
      else some { site.put index recorder (.spawned now) with inFlight := site.inFlight + 1 }
    | _ => none
  | .release =>
    match recorder.stage with
    | .refusing => some { site.put index recorder .refused with inFlight := site.inFlight - 1 }
    | _ => none
  | .tally =>
    match recorder.stage with
    | .refused => some { site.put index recorder .dropped with dropped := site.dropped + 1 }
    | _ => none
  | .lock =>
    match recorder.stage with
    | .spawned now =>
      if 0 < site.lockFree then
        some { site.put index recorder (.inserting now) with lockFree := site.lockFree - 1 }
      else none
    | _ => none
  | .insert ok skipped =>
    match recorder.stage with
    | .inserting now =>
      if ok then
        let id := site.sequence + skipped + 1
        some { site.put index recorder (.pruning now) with
          rows := site.rows ++ [{ recorder.input with id, observedAt := now }]
          sequence := id }
      else some { site.put index recorder (.written false) with lockFree := site.lockFree + 1 }
    | _ => none
  | .prune ok =>
    match recorder.stage with
    | .pruning now =>
      let rows := pruneEvents (retentionCutoff now site.retentionDays) site.rows
      some { site.put index recorder (.written true) with
        rows := if ok then rows else site.rows
        lockFree := site.lockFree + 1 }
    | _ => none
  | .finish =>
    match recorder.stage with
    | .written inserted =>
      some { site.put index recorder (.ended inserted) with inFlight := site.inFlight - 1 }
    | _ => none

def step (site : AuditSite) : AuditStep → Option AuditSite
  | .recorder index action => (site.recorders[index]?).bind (fun r => site.actOf index r action)
  | .maintain before =>
    if 0 < site.lockFree then some { site with rows := pruneEvents before site.rows } else none

def run (site : AuditSite) (steps : List AuditStep) : AuditSite :=
  Interleaving.run AuditSite.step site steps

/-! What one step does to the counters, the lock and the table. -/

/-- The effect of a step of one recorder on what is shared. -/
structure Effect (site site' : AuditSite) (recorder after : Recorder) : Prop where
  input : after.input = recorder.input
  settings : site'.enabled = site.enabled ∧ site'.retentionDays = site.retentionDays
  inFlight : recorder.counted = false ∨ 0 < site.inFlight →
    site'.inFlight + recorder.counted.toNat = site.inFlight + after.counted.toNat
  dropped : site'.dropped + recorder.isDropped.toNat = site.dropped + after.isDropped.toNat
  lock : exchange site.lockFree recorder.locked after.locked = some site'.lockFree
  cap : after.writing = true → recorder.writing = true ∨ site.inFlight < maxInFlight
  inert : after.isInert = true → site.enabled = false
  refusal : after.isRefused = true → recorder.isRefused = true ∨
    recorder.counted = false ∧ maxInFlight ≤ site.inFlight
  rows : (after.stored = recorder.stored ∧ site'.sequence = site.sequence ∧
      ∃ keep : SecurityEvent → Bool, site'.rows = site.rows.filter keep) ∨
    (recorder.stored = none ∧ after.stored = some recorder.input ∧ ∃ row : SecurityEvent,
      row.toSecurityEventInput = recorder.input ∧ site.sequence < row.id ∧
      site'.sequence = row.id ∧ site'.rows = site.rows ++ [row])

theorem rows_same (rows : List SecurityEvent) :
    ∃ keep : SecurityEvent → Bool, rows = rows.filter keep :=
  ⟨fun _ => true, (List.filter_true rows).symm⟩

theorem actOf_cases {site site' : AuditSite} {index : Nat} {recorder : Recorder}
    {action : RecorderAction} (h : site.actOf index recorder action = some site') :
    ∃ after, Effect site site' recorder after ∧
      site'.recorders = site.recorders.set index after := by
  obtain ⟨input, stage⟩ := recorder
  cases action with
  | enter now =>
    cases stage with
    | arriving =>
      simp only [actOf] at h
      split at h
      · cases h
        rename_i disabled
        exact ⟨⟨input, .inert⟩, ⟨rfl, ⟨rfl, rfl⟩, fun _ => rfl, rfl, rfl, nofun,
          fun _ => by simpa using disabled, nofun, .inl ⟨rfl, rfl, rows_same _⟩⟩, rfl⟩
      · split at h
        · cases h
          rename_i full
          exact ⟨⟨input, .refusing⟩, ⟨rfl, ⟨rfl, rfl⟩, fun _ => rfl, rfl, rfl, nofun, nofun,
            fun _ => .inr ⟨rfl, full⟩, .inl ⟨rfl, rfl, rows_same _⟩⟩, rfl⟩
        · cases h
          refine ⟨⟨input, .spawned now⟩, ⟨rfl, ⟨rfl, rfl⟩, fun _ => rfl, rfl, rfl,
            fun _ => .inr (by omega), nofun, nofun, .inl ⟨rfl, rfl, rows_same _⟩⟩, rfl⟩
    | _ => cases h
  | release =>
    cases stage with
    | refusing =>
      cases h
      refine ⟨⟨input, .refused⟩, ⟨rfl, ⟨rfl, rfl⟩, fun positive => ?_, rfl, rfl, nofun, nofun,
        fun _ => .inl rfl, .inl ⟨rfl, rfl, rows_same _⟩⟩, rfl⟩
      have some_counted : 0 < site.inFlight := by simpa [Recorder.counted] using positive
      simp only [Recorder.counted, Bool.toNat_true, Bool.toNat_false]
      omega
    | _ => cases h
  | tally =>
    cases stage with
    | refused =>
      cases h
      exact ⟨⟨input, .dropped⟩, ⟨rfl, ⟨rfl, rfl⟩, fun _ => rfl, rfl, rfl, nofun, nofun,
        fun _ => .inl rfl, .inl ⟨rfl, rfl, rows_same _⟩⟩, rfl⟩
    | _ => cases h
  | lock =>
    cases stage with
    | spawned now =>
      simp only [actOf] at h
      split at h
      · rename_i free
        cases h
        exact ⟨⟨input, .inserting now⟩, ⟨rfl, ⟨rfl, rfl⟩, fun _ => rfl, rfl, if_pos free,
          fun _ => .inl rfl, nofun, nofun, .inl ⟨rfl, rfl, rows_same _⟩⟩, rfl⟩
      · cases h
    | _ => cases h
  | insert ok skipped =>
    cases stage with
    | inserting now =>
      cases ok with
      | true =>
        cases h
        refine ⟨⟨input, .pruning now⟩, ⟨rfl, ⟨rfl, rfl⟩, fun _ => rfl, rfl, rfl,
          fun _ => .inl rfl, nofun, nofun, .inr ⟨rfl, rfl, _, rfl, ?_, rfl, rfl⟩⟩, rfl⟩
        simp only
        omega
      | false =>
        cases h
        exact ⟨⟨input, .written false⟩, ⟨rfl, ⟨rfl, rfl⟩, fun _ => rfl, rfl, rfl,
          fun _ => .inl rfl, nofun, nofun, .inl ⟨rfl, rfl, rows_same _⟩⟩, rfl⟩
    | _ => cases h
  | prune ok =>
    cases stage with
    | pruning now =>
      cases h
      refine ⟨⟨input, .written true⟩, ⟨rfl, ⟨rfl, rfl⟩, fun _ => rfl, rfl, rfl,
        fun _ => .inl rfl, nofun, nofun, .inl ⟨rfl, rfl, ?_⟩⟩, rfl⟩
      cases ok with
      | true => exact ⟨_, rfl⟩
      | false => exact rows_same _
    | _ => cases h
  | finish =>
    cases stage with
    | written inserted =>
      cases h
      refine ⟨⟨input, .ended inserted⟩, ⟨rfl, ⟨rfl, rfl⟩, fun positive => ?_, rfl, rfl, nofun,
        nofun, nofun, .inl ⟨by cases inserted <;> rfl, rfl, rows_same _⟩⟩, rfl⟩
      have some_counted : 0 < site.inFlight := by simpa [Recorder.counted] using positive
      simp only [Recorder.counted, Bool.toNat_true, Bool.toNat_false]
      omega
    | _ => cases h

theorem step_cases {site site' : AuditSite} {step : AuditStep} (h : site.step step = some site') :
    (∃ index recorder after, site.recorders[index]? = some recorder ∧
      Effect site site' recorder after ∧ site'.recorders = site.recorders.set index after) ∨
    ∃ before, 0 < site.lockFree ∧ site' = { site with rows := pruneEvents before site.rows } := by
  cases step with
  | recorder index action =>
    obtain ⟨recorder, there, acted⟩ := Option.bind_eq_some_iff.mp h
    obtain ⟨after, effect, recorders⟩ := actOf_cases acted
    exact .inl ⟨index, recorder, after, there, effect, recorders⟩
  | maintain before =>
    simp only [step] at h
    split at h
    · rename_i free
      exact .inr ⟨before, free, (Option.some.inj h).symm⟩
    · cases h

/-! What holds of the recorder in every order of steps. -/

/-- The counters count the calls, one writer has the lock, and every row but those the
site started with is that of one call. -/
structure Sound (on : Bool) (earlier : List SecurityEvent) (asked : List SecurityEventInput)
    (site : AuditSite) : Prop where
  enabled : site.enabled = on
  inputs : site.recorders.map Recorder.input = asked
  inFlight : site.inFlight = site.recorders.countP Recorder.counted
  dropped : site.dropped = site.recorders.countP Recorder.isDropped
  lock : PoolBalanced Recorder.locked 1 site.lockFree site.recorders
  cap : site.recorders.countP Recorder.writing ≤ maxInFlight
  rows : ∃ made gone : List SecurityEvent, site.rows.Sublist (earlier ++ made) ∧
    (site.rows ++ gone).Perm (earlier ++ made) ∧
    (made.map SecurityEvent.toSecurityEventInput).Perm (site.recorders.filterMap Recorder.stored)
  ids : (site.rows.map SecurityEvent.id).Pairwise (· < ·) ∧
    ∀ row ∈ site.rows, row.id ≤ site.sequence
  inert : on = true → ∀ recorder ∈ site.recorders, recorder.isInert = false
  refused : asked.length ≤ maxInFlight → ∀ recorder ∈ site.recorders, recorder.isRefused = false

theorem counted_of_writing {recorder : Recorder} (h : recorder.writing = true) :
    recorder.counted = true := by
  obtain ⟨input, stage⟩ := recorder
  cases stage <;> simp_all [Recorder.writing, Recorder.counted]

theorem writing_le_counted (recorders : List Recorder) :
    recorders.countP Recorder.writing ≤ recorders.countP Recorder.counted :=
  List.countP_mono_left fun _ _ => counted_of_writing

theorem Sound.start {earlier : List SecurityEvent} {sequence : Nat}
    (ordered : (earlier.map SecurityEvent.id).Pairwise (· < ·))
    (known : ∀ row ∈ earlier, row.id ≤ sequence) (enabled : Bool) (retentionDays : UInt32)
    (inputs : List SecurityEventInput) :
    Sound enabled earlier inputs (start enabled retentionDays earlier sequence inputs) := by
  have none_of (p : Recorder → Bool) (h : ∀ input, p ⟨input, .arriving⟩ = false) :
      (inputs.map (fun input => (⟨input, .arriving⟩ : Recorder))).countP p = 0 := by
    rw [List.countP_eq_zero]
    intro recorder mem
    obtain ⟨input, -, rfl⟩ := List.mem_map.mp mem
    simp [h input]
  have stored : (inputs.map (fun input => (⟨input, .arriving⟩ : Recorder))).filterMap
      Recorder.stored = [] := by
    refine List.filterMap_eq_nil_iff.mpr fun recorder mem => ?_
    obtain ⟨input, -, rfl⟩ := List.mem_map.mp mem
    rfl
  have arrived : ∀ recorder ∈ inputs.map (fun input => (⟨input, .arriving⟩ : Recorder)),
      recorder.isInert = false ∧ recorder.isRefused = false := by
    intro recorder mem
    obtain ⟨input, -, rfl⟩ := List.mem_map.mp mem
    exact ⟨rfl, rfl⟩
  refine ⟨rfl, by simp [AuditSite.start, Function.comp_def], ?_, ?_, ?_, ?_, ?_, ⟨ordered, known⟩,
    fun _ recorder mem => (arrived recorder mem).1, fun _ recorder mem => (arrived recorder mem).2⟩
  · exact (none_of _ fun _ => rfl).symm
  · exact (none_of _ fun _ => rfl).symm
  · refine PoolBalanced.start fun recorder mem => ?_
    obtain ⟨input, -, rfl⟩ := List.mem_map.mp mem
    rfl
  · rw [AuditSite.start, none_of _ fun _ => rfl]
    exact Nat.zero_le _
  · refine ⟨[], [], ?_, ?_, ?_⟩
    · simp [AuditSite.start]
    · simp [AuditSite.start]
    · rw [AuditSite.start, stored]
      exact .nil

theorem filter_perm_gone {rows gone all : List SecurityEvent} (keep : SecurityEvent → Bool)
    (perm : (rows ++ gone).Perm all) :
    (rows.filter keep ++ (rows.filter (fun row => !keep row) ++ gone)).Perm all := by
  rw [← List.append_assoc]
  exact ((List.filter_append_perm keep rows).append_right gone).trans perm

theorem ids_filter {rows : List SecurityEvent} (keep : SecurityEvent → Bool)
    (ordered : (rows.map SecurityEvent.id).Pairwise (· < ·)) :
    ((rows.filter keep).map SecurityEvent.id).Pairwise (· < ·) :=
  ordered.sublist (List.filter_sublist.map _)

theorem ids_append {rows : List SecurityEvent} {row : SecurityEvent} {sequence : Nat}
    (ordered : (rows.map SecurityEvent.id).Pairwise (· < ·))
    (known : ∀ other ∈ rows, other.id ≤ sequence) (later : sequence < row.id) :
    ((rows ++ [row]).map SecurityEvent.id).Pairwise (· < ·) ∧
      ∀ other ∈ rows ++ [row], other.id ≤ row.id := by
  constructor
  · rw [List.map_append, List.pairwise_append]
    refine ⟨ordered, List.pairwise_singleton _ _, ?_⟩
    intro a ina b inb
    obtain ⟨other, there, rfl⟩ := List.mem_map.mp ina
    cases List.mem_singleton.mp inb
    have before := known other there
    omega
  · intro other mem
    rcases List.mem_append.mp mem with there | last
    · have before := known other there
      omega
    · cases List.mem_singleton.mp last
      exact Nat.le_refl _

theorem Sound.maintain {enabled : Bool} {earlier : List SecurityEvent}
    {inputs : List SecurityEventInput} {site : AuditSite} (sound : Sound enabled earlier inputs site) (before : Int64) :
    Sound enabled earlier inputs { site with rows := pruneEvents before site.rows } := by
  obtain ⟨made, gone, sub, perm, stored⟩ := sound.rows
  refine ⟨sound.enabled, sound.inputs, sound.inFlight, sound.dropped, sound.lock, sound.cap, ?_,
    ?_, sound.inert, sound.refused⟩
  · exact ⟨made, _, List.filter_sublist.trans sub, filter_perm_gone _ perm, stored⟩
  · exact ⟨ids_filter _ sound.ids.1, fun row mem => sound.ids.2 row (List.mem_of_mem_filter mem)⟩

theorem Sound.act {enabled : Bool} {earlier : List SecurityEvent} {inputs : List SecurityEventInput}
    {site site' : AuditSite} {index : Nat} {recorder after : Recorder}
    (sound : Sound enabled earlier inputs site) (there : site.recorders[index]? = some recorder)
    (effect : Effect site site' recorder after)
    (set : site'.recorders = site.recorders.set index after) :
    Sound enabled earlier inputs site' := by
  have member : recorder ∈ site.recorders := List.mem_of_getElem? there
  have counts := countP_set Recorder.counted after there
  have drops := countP_set Recorder.isDropped after there
  have writers := countP_set Recorder.writing after there
  have counter := sound.inFlight
  have fewer := writing_le_counted site.recorders
  refine ⟨effect.settings.1.trans sound.enabled, ?_, ?_, ?_, ?_, ?_, ?_, ?_, ?_, ?_⟩
  · rw [set, map_set_same there effect.input, sound.inputs]
  · have moved := effect.inFlight (by
      cases here : recorder.counted with
      | false => exact .inl rfl
      | true =>
        have positive : 0 < site.recorders.countP Recorder.counted :=
          List.countP_pos_iff.mpr ⟨recorder, member, here⟩
        exact .inr (by omega))
    rw [set]
    omega
  · have moved := effect.dropped
    have before := sound.dropped
    rw [set]
    omega
  · rw [set]
    exact sound.lock.exchange there effect.lock
  · rw [set]
    cases writing : after.writing with
    | false =>
      have bound := sound.cap
      rw [writing] at writers
      simp only [Bool.toNat_false] at writers
      omega
    | true =>
      have bound := sound.cap
      rw [writing] at writers
      rcases effect.cap writing with already | room
      · rw [already] at writers
        omega
      · simp only [Bool.toNat_true] at writers
        omega
  · obtain ⟨made, gone, sub, perm, stored⟩ := sound.rows
    rcases effect.rows with ⟨same, -, keep, rows⟩ | ⟨before, now, row, input, -, -, rows⟩
    · refine ⟨made, _, ?_, rows ▸ filter_perm_gone keep perm, ?_⟩
      · exact rows ▸ List.filter_sublist.trans sub
      · rw [set, filterMap_set_same there same]
        exact stored
    · refine ⟨made ++ [row], gone, ?_, ?_, ?_⟩
      · rw [rows, ← List.append_assoc]
        exact sub.append (List.Sublist.refl _)
      · rw [rows, List.append_assoc, ← List.append_assoc earlier]
        refine List.Perm.trans ?_ (perm.append_right [row])
        rw [List.append_assoc]
        exact (List.perm_append_comm).append_left site.rows
      · rw [set, List.map_append]
        refine (stored.append_right _).trans ?_
        have shown := (filterMap_set_perm after there before).symm
        rw [now] at shown
        simpa [input] using shown
  · rcases effect.rows with ⟨-, sequence, keep, rows⟩ | ⟨-, -, row, -, later, sequence, rows⟩
    · rw [rows, sequence]
      exact ⟨ids_filter keep sound.ids.1,
        fun row mem => sound.ids.2 row (List.mem_of_mem_filter mem)⟩
    · rw [rows, sequence]
      exact ids_append sound.ids.1 sound.ids.2 later
  · intro on
    rw [set]
    refine forall_set (sound.inert on) ?_
    by_contra inert
    have off := effect.inert (by simpa using inert)
    rw [sound.enabled, on] at off
    cases off
  · intro few
    rw [set]
    refine forall_set (sound.refused few) ?_
    by_contra refused
    rcases effect.refusal (by simpa using refused) with already | ⟨uncounted, full⟩
    · rw [sound.refused few recorder member] at already
      cases already
    · -- The call itself is not counted, so that the others are no more than the cap less one.
      have length : site.recorders.length = inputs.length := by
        rw [← sound.inputs, List.length_map]
      have others : site.recorders.countP Recorder.counted < site.recorders.length := by
        refine lt_of_le_of_ne List.countP_le_length fun all => ?_
        have here := List.countP_eq_length.mp all recorder member
        rw [uncounted] at here
        cases here
      omega

theorem Sound.step {enabled : Bool} {earlier : List SecurityEvent}
    {inputs : List SecurityEventInput} {site site' : AuditSite} {step : AuditStep} (sound : Sound enabled earlier inputs site)
    (h : site.step step = some site') : Sound enabled earlier inputs site' := by
  rcases step_cases h with ⟨index, recorder, after, there, effect, set⟩ | ⟨before, -, rfl⟩
  · exact sound.act there effect set
  · exact sound.maintain before

theorem length_filterMap_stored (recorders : List Recorder)
    (ended : ∀ r ∈ recorders, r.isOver = true) (active : ∀ r ∈ recorders, r.isInert = false) : recorders.length =
      recorders.countP Recorder.isDropped + (recorders.filterMap Recorder.stored).length +
        recorders.countP Recorder.failed := by
  induction recorders with
  | nil => rfl
  | cons recorder recorders ih =>
    obtain ⟨here, later⟩ := List.forall_mem_cons.mp ended
    obtain ⟨awake, others⟩ := List.forall_mem_cons.mp active
    have rest := ih later others
    obtain ⟨input, stage⟩ := recorder
    simp only [List.length_cons, List.countP_cons, List.filterMap_cons]
    cases stage with
    | inert => cases awake
    | dropped =>
      simp [Recorder.isDropped, Recorder.stored, Recorder.failed]
      omega
    | ended inserted =>
      cases inserted <;> simp [Recorder.isDropped, Recorder.stored, Recorder.failed] <;> omega
    | _ => cases here

theorem sound_run {earlier : List SecurityEvent} {sequence : Nat}
    (ordered : (earlier.map SecurityEvent.id).Pairwise (· < ·))
    (known : ∀ row ∈ earlier, row.id ≤ sequence) (enabled : Bool) (retentionDays : UInt32)
    (inputs : List SecurityEventInput) (steps : List AuditStep) :
    Sound enabled earlier inputs
      ((start enabled retentionDays earlier sequence inputs).run steps) :=
  run_keeps (fun _ _ _ sound h => sound.step h)
    (Sound.start ordered known enabled retentionDays inputs) steps

/-- Once all calls are over, each was dropped, stored or failed. -/
theorem Sound.conserved {earlier : List SecurityEvent} {inputs : List SecurityEventInput}
    {site : AuditSite} (sound : Sound true earlier inputs site)
    (ended : ∀ recorder ∈ site.recorders, recorder.isOver = true) :
    inputs.length = site.dropped + (site.recorders.filterMap Recorder.stored).length +
      site.recorders.countP Recorder.failed := by
  have length : site.recorders.length = inputs.length := by rw [← sound.inputs, List.length_map]
  rw [← length, sound.dropped]
  exact length_filterMap_stored _ ended (sound.inert rfl)

/-- In every order of the steps of the calls, their writers and the maintenance: at most
so many writes are in flight, every row is that of one call and no call has two, and once
all calls are over none is counted and each was dropped, stored or failed. Nothing is
dropped where there are no more calls than the cap. -/
theorem audit_bounded {earlier : List SecurityEvent} {sequence : Nat}
    (ordered : (earlier.map SecurityEvent.id).Pairwise (· < ·))
    (known : ∀ row ∈ earlier, row.id ≤ sequence) (retentionDays : UInt32)
    (inputs : List SecurityEventInput) (steps : List AuditStep) :
    let site := (start true retentionDays earlier sequence inputs).run steps
    site.recorders.countP Recorder.writing ≤ maxInFlight ∧
      (site.rows.map SecurityEvent.id).Pairwise (· < ·) ∧
      (∃ made, site.rows.Sublist (earlier ++ made) ∧
        (made.map SecurityEvent.toSecurityEventInput).Perm
          (site.recorders.filterMap Recorder.stored)) ∧
      ((∀ recorder ∈ site.recorders, recorder.isOver = true) → site.inFlight = 0 ∧
        inputs.length = site.dropped + (site.recorders.filterMap Recorder.stored).length +
          site.recorders.countP Recorder.failed) ∧
      (inputs.length ≤ maxInFlight → site.dropped = 0) := by
  have sound := sound_run ordered known true retentionDays inputs steps
  generalize (start true retentionDays earlier sequence inputs).run steps = site at *
  obtain ⟨made, gone, sub, -, stored⟩ := sound.rows
  refine ⟨sound.cap, sound.ids.1, ⟨made, sub, stored⟩, fun ended => ⟨?_, sound.conserved ended⟩,
    fun few => ?_⟩
  · rw [sound.inFlight, List.countP_eq_zero]
    intro recorder mem
    have isOver := ended recorder mem
    obtain ⟨input, stage⟩ := recorder
    cases stage <;> simp_all [Recorder.isOver, Recorder.counted]
  · rw [sound.dropped, List.countP_eq_zero]
    intro recorder mem
    have unrefused := sound.refused few recorder mem
    obtain ⟨input, stage⟩ := recorder
    cases stage <;> simp_all [Recorder.isRefused, Recorder.isDropped]

end AuditSite

def refusedInput : SecurityEventInput := ⟨"unauthorized", some "r", none, some "/search", none⟩

def storedEvents : List SecurityEvent :=
  [{ refusedInput with id := 3, observedAt := 1000 },
   { refusedInput with id := 7, observedAt := 200000 }]

/-- Two calls are stored, one of them while the maintenance and the other writer wait for the
table. The insertion of the third fails. -/
def writtenRun : List AuditStep :=
  [.recorder 0 (.enter 200100), .recorder 1 (.enter 200100), .recorder 2 (.enter 200101),
    .recorder 1 .lock, .recorder 1 (.insert true 1), .recorder 0 .lock, .maintain 300000,
    .recorder 1 (.prune true), .recorder 0 .lock, .recorder 0 (.insert true 0), .recorder 1 .finish,
    .recorder 0 (.prune false), .recorder 2 .lock, .recorder 0 .finish,
    .recorder 2 (.insert false 0), .recorder 2 .finish, .maintain 1500]

theorem audit_bounded_written :
    let inputs := List.replicate 3 refusedInput
    let site := (AuditSite.start true 1 storedEvents 9 inputs).run writtenRun
    (site.recorders.countP Recorder.writing ≤ maxInFlight ∧
      (site.rows.map SecurityEvent.id).Pairwise (· < ·) ∧
      (∃ made, site.rows.Sublist (storedEvents ++ made) ∧
        (made.map SecurityEvent.toSecurityEventInput).Perm
          (site.recorders.filterMap Recorder.stored)) ∧
      (site.inFlight = 0 ∧
        3 = site.dropped + (site.recorders.filterMap Recorder.stored).length +
          site.recorders.countP Recorder.failed) ∧
      site.dropped = 0) ∧
    site.rows.map SecurityEvent.id = [7, 11, 12] ∧
      (site.recorders.filterMap Recorder.stored).length = 2 := by
  intro inputs site
  have ordered : (storedEvents.map SecurityEvent.id).Pairwise (· < ·) := by decide
  have known : ∀ row ∈ storedEvents, row.id ≤ 9 := by decide
  have ended : ∀ recorder ∈ site.recorders, recorder.isOver = true := by decide +kernel
  obtain ⟨cap, ids, made, conserved, kept⟩ :=
    AuditSite.audit_bounded ordered known 1 inputs writtenRun
  exact ⟨⟨cap, ids, made, conserved ended, kept (by decide)⟩, by decide +kernel, by decide +kernel⟩

-- A call more than the cap is dropped.
example : ((AuditSite.start true 1 [] 0 (List.replicate 33 refusedInput)).run
    ((List.range 33).map (fun i => .recorder i (.enter 200100)) ++
      [.recorder 32 .release, .recorder 32 .tally])).dropped = 1 := by decide +kernel

end Amatl
