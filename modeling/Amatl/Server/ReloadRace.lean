import Amatl.Server.FileValidity

/-! Requests that run at the same time. A reload reads the file, builds, stores
the service and stores the security state in separate steps; the handlers that
write hold a lock around theirs, while `POST /reload` and `SIGHUP` hold none. -/

namespace Amatl

open Toml

inductive Stage where
  | lock | prepare | write | read | storeService | storeSecurity | unlock | done
  deriving DecidableEq

def Stage.rank : Stage → Nat
  | .lock => 0
  | .prepare => 1
  | .write => 2
  | .read => 3
  | .storeService => 4
  | .storeSecurity => 5
  | .unlock => 6
  | .done => 7

/-- One request under way: what it still has to do and what it carries. -/
structure ReloadTask where
  handler : Option Handler
  reloads : Bool
  stage : Stage
  change : Option ConfigChange
  built : Option (Config × SecurityState)

namespace ReloadTask

/-- `POST /reload` and `SIGHUP`. -/
def reload : ReloadTask where
  handler := none
  reloads := true
  stage := .read
  change := none
  built := none

/-- A handler that rewrites the file; all but one apply it themselves. -/
def rewrite (handler : Handler) (reloads : Bool) : ReloadTask where
  handler := some handler
  reloads := reloads
  stage := .lock
  change := none
  built := none

end ReloadTask

def AdminRequest.isPending : AdminRequest → Bool
  | .updateServerPendingConfig _ => true
  | _ => false

def reloadTask [Sha256] : Option AdminRequest → ReloadTask
  | none => .reload
  | some .reload => .reload
  | some request =>
    .rewrite (request.handler.getD (fun _ => .error .invalidRequest)) (!request.isPending)

/-- What the tasks share. `ahead` records that a write which applies nothing has
not been read since. -/
structure Site (ι : Type) where
  file : ConfigFile
  service : Config
  security : SecurityState
  lock : Option ι
  tasks : ι → ReloadTask
  ahead : Bool

namespace Site

variable {ι : Type} [DecidableEq ι]

def put (s : Site ι) (i : ι) (task : ReloadTask) : Site ι :=
  { s with tasks := Function.update s.tasks i task }

def Underway (s : Site ι) (stage : Stage) : Prop :=
  ∃ i, (s.tasks i).reloads = true ∧ (s.tasks i).stage.rank ≤ stage.rank

theorem Underway.put {s : Site ι} {i : ι} {task : ReloadTask} {stage : Stage}
    (h : s.Underway stage) (reloads : task.reloads = (s.tasks i).reloads)
    (rank : (s.tasks i).stage.rank ≤ stage.rank → task.stage.rank ≤ stage.rank) :
    (s.put i task).Underway stage := by
  obtain ⟨j, hj, hr⟩ := h
  by_cases same : j = i
  · subst same
    exact ⟨j, by simpa [Site.put, reloads] using hj, by simpa [Site.put] using rank hr⟩
  · exact ⟨j, by simpa [Site.put, same] using hj, by simpa [Site.put, same] using hr⟩

theorem underway_put_self {s : Site ι} {i : ι} {task : ReloadTask} {stage : Stage}
    (reloads : task.reloads = true) (rank : task.stage.rank ≤ stage.rank) :
    (s.put i task).Underway stage :=
  ⟨i, by simpa [Site.put] using reloads, by simpa [Site.put] using rank⟩

end Site

section Race

variable (Url : Type) [UrlCrate Url] [TimeCrate] [HttpCrate] [Sha256]
variable (env : Environment) (explicitToken : Option String)
variable {ι : Type} [DecidableEq ι]

namespace Site

def advance (s : Site ι) (i : ι) : Option (Site ι) :=
  let task := s.tasks i
  match task.stage with
  | .lock =>
    if s.lock.isNone then some { s.put i { task with stage := .prepare } with lock := some i }
    else none
  | .prepare =>
    task.handler.bind fun handler =>
      match handler s.service with
      | .error _ => none
      | .ok change =>
        if change.candidate.all (fun candidate => (candidate.validate Url).isOk) then
          some (s.put i { task with stage := .write, change := some change })
        else none
  | .write =>
    task.change.bind fun change =>
      match s.file.edit change.write with
      | .error _ => none
      | .ok file =>
        let stage := if task.reloads then Stage.read else Stage.unlock
        some { s.put i { task with stage } with file, ahead := s.ahead || !task.reloads }
  | .read =>
    match Config.loadOptional Url s.file with
    | .error _ => none
    | .ok config =>
      (resolveClients env config explicitToken).map fun clients =>
        { s.put i { task with
            stage := .storeService
            built := some (config, .build clients config.server) } with ahead := false }
  | .storeService =>
    task.built.map fun built =>
      { s.put i { task with stage := .storeSecurity } with service := built.1 }
  | .storeSecurity =>
    let stage := if task.handler.isSome then Stage.unlock else Stage.done
    task.built.map fun built => { s.put i { task with stage } with security := built.2 }
  | .unlock => some { s.put i { task with stage := .done } with lock := none }
  | .done => none

/-- An interleaving is the order in which the tasks take their steps. -/
def runAll (s : Site ι) : List ι → Option (Site ι)
  | [] => some s
  | i :: rest => (s.advance Url env explicitToken i).bind (fun s => s.runAll rest)

/-- Service and security state were built from the configuration in the file. -/
def Synced (s : Site ι) : Prop :=
  ∃ clients, Config.loadOptional Url s.file = .ok s.service ∧
    resolveClients env s.service explicitToken = some clients ∧
    s.security = .build clients s.service.server

/-- A task that stores stores what the file says now. -/
def StoresCurrent (s : Site ι) (i : ι) : Prop :=
  (s.tasks i).stage = .storeService ∨ (s.tasks i).stage = .storeSecurity →
    ∀ built ∈ (s.tasks i).built, Config.loadOptional Url s.file = .ok built.1

/-- Every step of the interleaving that stores does so. -/
def StoresCurrentRun (s : Site ι) : List ι → Prop
  | [] => True
  | i :: rest => s.StoresCurrent Url i ∧
      ∀ s' ∈ s.advance Url env explicitToken i, s'.StoresCurrentRun rest

instance (s : Site ι) (i : ι) : Decidable (s.StoresCurrent Url i) := by
  unfold StoresCurrent
  infer_instance

instance decidableStoresCurrentRun (order : List ι) (s : Site ι) :
    Decidable (s.StoresCurrentRun Url env explicitToken order) :=
  match order with
  | [] => isTrue trivial
  | i :: rest =>
    have := decidableStoresCurrentRun rest
    inferInstanceAs (Decidable (s.StoresCurrent Url i ∧
      ∀ s' ∈ s.advance Url env explicitToken i, s'.StoresCurrentRun Url env explicitToken rest))

def start (file : ConfigFile) (service : Config) (security : SecurityState)
    (requests : ι → Option AdminRequest) : Site ι where
  file := file
  service := service
  security := security
  lock := none
  tasks := fun i => reloadTask (requests i)
  ahead := false

def Secures (config : Config) (security : SecurityState) : Prop :=
  ∃ clients, resolveClients env config explicitToken = some clients ∧
    security = .build clients config.server

/-- What every interleaving keeps as long as no step stores an old configuration. -/
structure Coherent (s : Site ι) : Prop where
  built : ∀ i, ∀ built ∈ (s.tasks i).built, Secures env explicitToken built.1 built.2
  reloads : ∀ i, (s.tasks i).stage = .read ∨ (s.tasks i).stage = .storeService ∨
    (s.tasks i).stage = .storeSecurity → (s.tasks i).reloads = true
  service : s.ahead = true ∨ s.Underway .storeService ∨
    Config.loadOptional Url s.file = .ok s.service
  security : s.ahead = true ∨ s.Underway .storeSecurity ∨
    ∃ config, Config.loadOptional Url s.file = .ok config ∧
      Secures env explicitToken config s.security

/-- One task takes one step, of which only a store depends on the others. -/
theorem Coherent.advance {s s' : Site ι} {i : ι} (h : s.Coherent Url env explicitToken)
    (current : s.StoresCurrent Url i) (step : s.advance Url env explicitToken i = some s') :
    s'.Coherent Url env explicitToken := by
  have puts : ∀ task : ReloadTask, (s.put i task).tasks = Function.update s.tasks i task :=
    fun _ => rfl
  have built : ∀ task : ReloadTask,
      (∀ built ∈ task.built, Secures env explicitToken built.1 built.2) →
      ∀ j, ∀ built ∈ ((s.put i task).tasks j).built, Secures env explicitToken built.1 built.2 := by
    intro task new j
    by_cases same : j = i
    · subst same
      simpa [puts] using new
    · simpa [puts, same] using h.built j
  have reloads : ∀ task : ReloadTask,
      (task.stage = .read ∨ task.stage = .storeService ∨ task.stage = .storeSecurity →
        task.reloads = true) →
      ∀ j, ((s.put i task).tasks j).stage = .read ∨
        ((s.put i task).tasks j).stage = .storeService ∨
        ((s.put i task).tasks j).stage = .storeSecurity →
        ((s.put i task).tasks j).reloads = true := by
    intro task new j
    by_cases same : j = i
    · subst same
      simpa [puts] using new
    · simpa [puts, same] using h.reloads j
  unfold Site.advance at step
  cases stage : (s.tasks i).stage with
  | lock =>
    simp only [stage, Option.ite_none_right_eq_some, Option.some.injEq] at step
    obtain ⟨-, rfl⟩ := step
    refine ⟨built _ (h.built i), reloads _ (by simp), ?_, ?_⟩
    · exact h.service.imp_right (Or.imp_left (·.put rfl (fun _ => by simp [Stage.rank])))
    · exact h.security.imp_right (Or.imp_left (·.put rfl (fun _ => by simp [Stage.rank])))
  | prepare =>
    simp only [stage, Option.bind_eq_some_iff] at step
    obtain ⟨handler, -, step⟩ := step
    split at step
    · cases step
    · simp only [Option.ite_none_right_eq_some, Option.some.injEq] at step
      obtain ⟨-, rfl⟩ := step
      refine ⟨built _ (h.built i), reloads _ (by simp), ?_, ?_⟩
      · exact h.service.imp_right (Or.imp_left (·.put rfl (fun _ => by simp [Stage.rank])))
      · exact h.security.imp_right (Or.imp_left (·.put rfl (fun _ => by simp [Stage.rank])))
  | write =>
    simp only [stage, Option.bind_eq_some_iff] at step
    obtain ⟨change, -, step⟩ := step
    split at step
    · cases step
    · simp only [Option.some.injEq] at step
      subst step
      cases applies : (s.tasks i).reloads with
      | true =>
        refine ⟨built _ (h.built i), reloads _ (by simp), .inr (.inl ?_), .inr (.inl ?_)⟩
        · exact underway_put_self (by simp) (by simp [Stage.rank])
        · exact underway_put_self (by simp) (by simp [Stage.rank])
      | false =>
        exact ⟨built _ (h.built i), reloads _ (by simp), .inl (by simp), .inl (by simp)⟩
  | read =>
    have applies : (s.tasks i).reloads = true := h.reloads i (.inl stage)
    simp only [stage] at step
    split at step
    · cases step
    · obtain ⟨clients, resolved, rfl⟩ := Option.map_eq_some_iff.1 step
      refine ⟨built _ ?_, reloads _ (fun _ => applies), .inr (.inl ?_), .inr (.inl ?_)⟩
      · rintro _ ⟨⟩
        exact ⟨clients, resolved, rfl⟩
      · exact underway_put_self applies (by simp [Stage.rank])
      · exact underway_put_self applies (by simp [Stage.rank])
  | storeService =>
    have applies : (s.tasks i).reloads = true := h.reloads i (.inr (.inl stage))
    simp only [stage] at step
    obtain ⟨config, read, rfl⟩ := Option.map_eq_some_iff.1 step
    have loads := current (.inl stage) config read
    refine ⟨built _ (h.built i), reloads _ (fun _ => applies), .inr (.inr loads), .inr (.inl ?_)⟩
    exact underway_put_self applies (by simp [Stage.rank])
  | storeSecurity =>
    simp only [stage] at step
    obtain ⟨config, read, rfl⟩ := Option.map_eq_some_iff.1 step
    have loads := current (.inr stage) config read
    refine ⟨built _ (h.built i), reloads _ ?_, ?_,
      .inr (.inr ⟨config.1, loads, h.built i config read⟩)⟩
    · cases (s.tasks i).handler <;> simp
    · exact h.service.imp_right (Or.imp_left (·.put rfl (by simp [stage, Stage.rank])))
  | unlock =>
    simp only [stage, Option.some.injEq] at step
    subst step
    refine ⟨built _ (h.built i), reloads _ (by simp), ?_, ?_⟩
    · exact h.service.imp_right (Or.imp_left (·.put rfl (by simp [stage, Stage.rank])))
    · exact h.security.imp_right (Or.imp_left (·.put rfl (by simp [stage, Stage.rank])))
  | done => simp [stage] at step

theorem Coherent.runAll {s s' : Site ι} {order : List ι} (h : s.Coherent Url env explicitToken)
    (current : s.StoresCurrentRun Url env explicitToken order)
    (run : s.runAll Url env explicitToken order = some s') :
    s'.Coherent Url env explicitToken := by
  induction order generalizing s with
  | nil =>
    cases run
    exact h
  | cons i rest ih =>
    obtain ⟨next, step, run⟩ := Option.bind_eq_some_iff.1 run
    exact ih (h.advance Url env explicitToken current.1 step) (current.2 next step) run

omit [DecidableEq ι] in
theorem coherent_start {file : ConfigFile} {service : Config} {security : SecurityState}
    {requests : ι → Option AdminRequest}
    (h : (start file service security requests).Synced Url env explicitToken ∨
      ∃ i, (reloadTask (requests i)).reloads = true) :
    (start file service security requests).Coherent Url env explicitToken := by
  have begins : ∀ request : Option AdminRequest, (reloadTask request).built = none ∧
      ((reloadTask request).stage = .read ∧ (reloadTask request).reloads = true ∨
        (reloadTask request).stage = .lock) := by
    intro request
    unfold reloadTask
    split <;> simp [ReloadTask.reload, ReloadTask.rewrite]
  have early : ∀ i stage, 3 ≤ stage.rank → (reloadTask (requests i)).reloads = true →
      (start file service security requests).Underway stage := by
    intro i stage le applies
    refine ⟨i, applies, ?_⟩
    rcases (begins (requests i)).2 with ⟨stage, -⟩ | stage
    · simpa [start, stage, Stage.rank] using le
    · simp [start, stage, Stage.rank]
  refine ⟨fun i => ?_, fun i stage => ?_, ?_, ?_⟩
  · simp [start, (begins (requests i)).1]
  · rcases (begins (requests i)).2 with ⟨-, applies⟩ | lock
    · exact applies
    · simp [start, lock] at stage
  · rcases h with ⟨clients, loads, -⟩ | ⟨i, applies⟩
    · exact .inr (.inr loads)
    · exact .inr (.inl (early i _ (by decide) applies))
  · rcases h with ⟨clients, loads, resolved, built⟩ | ⟨i, applies⟩
    · exact .inr (.inr ⟨service, loads, clients, resolved, built⟩)
    · exact .inr (.inl (early i _ (by decide) applies))

end Site

/-- Over every interleaving that ends with every task done: when no task stored a
configuration the file had moved on from, and no write that applies nothing was
left unread, the service and the security state are those of the file. -/
theorem synced_of_storesCurrentRun {file : ConfigFile} {service : Config}
    {security : SecurityState} {requests : ι → Option AdminRequest} {order : List ι}
    {s : Site ι}
    (started : (Site.start file service security requests).Synced Url env explicitToken ∨
      ∃ i, (reloadTask (requests i)).reloads = true)
    (current : (Site.start file service security requests).StoresCurrentRun Url env explicitToken
      order)
    (run : (Site.start file service security requests).runAll Url env explicitToken order = some s)
    (done : ∀ i, (s.tasks i).stage = .done) (read : s.ahead = false) :
    s.Synced Url env explicitToken := by
  have coherent := (Site.coherent_start Url env explicitToken started).runAll Url env explicitToken
    current run
  have idle : ∀ stage : Stage, stage.rank < 7 → ¬ s.Underway stage := by
    rintro stage lt ⟨i, -, le⟩
    rw [done i] at le
    exact absurd le (Nat.not_le.2 lt)
  have service := (coherent.service.resolve_left (by simp [read])).resolve_left (idle _ (by decide))
  obtain ⟨config, loads, clients, resolved, built⟩ :=
    (coherent.security.resolve_left (by simp [read])).resolve_left (idle _ (by decide))
  obtain rfl : config = s.service := Except.ok.inj (loads.symm.trans service)
  exact ⟨clients, loads, resolved, built⟩

end Race

def retentionRace : Fin 2 → Option AdminRequest
  | 0 => some .reload
  | 1 => some (.updateTelemetry { retentionDays := some 7 })

def raceStart : Site (Fin 2) :=
  letI := sampleSha256
  .start (.document tlsDoc) loopbackServer.running loopbackServer.security retentionRace

theorem raceStart_synced :
    letI := noDates
    letI := plainHeaders
    letI := sampleSha256
    raceStart.Synced PlainUrl tokenWorld.env none := by
  let _ := noDates
  let _ := plainHeaders
  let _ := sampleSha256
  exact ⟨raceStart.security.clients, by decide +kernel, by decide +kernel, by decide +kernel⟩

local instance two_neZero : NeZero 2 := inferInstance

def fittingOrder : List (Fin 2) := [1, 0, 1, 0, 0, 1, 1, 1, 1, 1]

def fittingEnd : Site (Fin 2) :=
  letI := noDates
  letI := plainHeaders
  letI := sampleSha256
  (raceStart.runAll PlainUrl tokenWorld.env none fittingOrder).get (by decide +kernel)

theorem retentionRace_fitting :
    letI := noDates
    letI := plainHeaders
    letI := sampleSha256
    raceStart.runAll PlainUrl tokenWorld.env none fittingOrder = some fittingEnd ∧
      fittingEnd.Synced PlainUrl tokenWorld.env none := by
  let _ := noDates
  let _ := plainHeaders
  let _ := sampleSha256
  have run : raceStart.runAll PlainUrl tokenWorld.env none fittingOrder = some fittingEnd :=
    (Option.some_get _).symm
  exact ⟨run, synced_of_storesCurrentRun PlainUrl tokenWorld.env none (.inl raceStart_synced)
    (by decide +kernel) run (by decide +kernel) (by decide +kernel)⟩

/-- The reload has read the old file when the handler takes all its steps. -/
def staleOrder : List (Fin 2) := [0, 1, 1, 1, 1, 1, 1, 1, 0, 0]

def staleEnd : Site (Fin 2) :=
  letI := noDates
  letI := plainHeaders
  letI := sampleSha256
  (raceStart.runAll PlainUrl tokenWorld.env none staleOrder).get (by decide +kernel)

theorem retentionRace_stale :
    letI := noDates
    letI := plainHeaders
    letI := sampleSha256
    ¬ ∀ (file : ConfigFile) (service : Config) (security : SecurityState)
      (requests : Fin 2 → Option AdminRequest) (order : List (Fin 2)) (s : Site (Fin 2)),
      (Site.start file service security requests).Synced PlainUrl tokenWorld.env none →
      (Site.start file service security requests).runAll PlainUrl tokenWorld.env none order
        = some s →
      (∀ i, (s.tasks i).stage = .done) → s.Synced PlainUrl tokenWorld.env none := by
  let _ := noDates
  let _ := plainHeaders
  let _ := sampleSha256
  intro synced
  have run : raceStart.runAll PlainUrl tokenWorld.env none staleOrder = some staleEnd :=
    (Option.some_get _).symm
  obtain ⟨clients, loads, -⟩ := synced _ _ _ _ staleOrder staleEnd raceStart_synced run
    (by decide +kernel)
  have behind : Config.loadOptional PlainUrl staleEnd.file ≠ .ok staleEnd.service := by
    decide +kernel
  exact behind loads

end Amatl
