import Amatl.ProviderCalls

/-! Every selected provider is reported once. A task may end in any way and in any
order, and a provider may have no adapter: whoever is not reported by its task has
failed. -/

namespace Amatl

/-- One call of `execute_parallel`: the selected providers, which of them have an
adapter, what their tasks meet, and the order in which these are joined. -/
structure ParallelCall where
  plan : SearchPlan
  distinct : plan.selectedProviders.Nodup
  registered : String → Bool
  caching : String → Bool
  maxRetries : Nat
  tasks : String → ProviderTask
  joined : List Joined
  complete : joined.Perm ((plan.selectedProviders.filter registered).map (fun name =>
    ((tasks name).run (caching name) maxRetries name).joined))

def ParallelCall.output (call : ParallelCall) : ParallelSearchOutput :=
  executeParallel call.plan call.joined

def mergeAll (calls : List ParallelCall) : ParallelSearchOutput :=
  calls.foldl (fun accumulated call => mergeParallelOutput accumulated call.output) .empty

/-- The providers used and failed are the selected ones, no provider is both and none
is listed twice; a partial one was used. -/
structure Partitions (selected : List String) (output : ParallelSearchOutput) : Prop where
  union : ∀ name, name ∈ output.providersUsed ∨ name ∈ output.providersFailed ↔ name ∈ selected
  disjoint : ∀ name ∈ output.providersUsed, name ∉ output.providersFailed
  usedOnce : output.providersUsed.Nodup
  failedOnce : output.providersFailed.Nodup
  partials : ∀ name ∈ output.providersPartial, name ∈ output.providersUsed

theorem partitions_of_perm {selected : List String} {output : ParallelSearchOutput}
    (distinct : selected.Nodup)
    (covers : (output.providersUsed ++ output.providersFailed).Perm selected)
    (partials : ∀ name ∈ output.providersPartial, name ∈ output.providersUsed) :
    Partitions selected output := by
  obtain ⟨usedOnce, failedOnce, apart⟩ := List.nodup_append.mp (covers.nodup_iff.mpr distinct)
  refine ⟨fun name => ?_, fun name used failed => ?_, usedOnce, failedOnce, partials⟩
  · rw [← covers.mem_iff, List.mem_append]
  · exact apart name used name failed rfl

def reported (joined : List Joined) : List String :=
  joined.filterMap (Option.map Prod.fst)

theorem foldl_recordJoined_perm (joined : List Joined) (output : ParallelSearchOutput) :
    let after := joined.foldl recordJoined output
    (after.providersUsed ++ after.providersFailed).Perm
      (output.providersUsed ++ output.providersFailed ++ reported joined) := by
  induction joined generalizing output with
  | nil => simp [reported]
  | cons task joined ih =>
    refine (ih (recordJoined output task)).trans ?_
    cases task with
    | none => exact List.Perm.refl _
    | some entry =>
      obtain ⟨name, outcome⟩ := entry
      have reports : reported (some (name, outcome) :: joined) = name :: reported joined := rfl
      rw [reports]
      cases outcome with
      | ok result =>
        have moved : (output.providersUsed ++ [name] ++ output.providersFailed).Perm
            (output.providersUsed ++ output.providersFailed ++ [name]) := by
          rw [List.append_assoc, List.append_assoc]
          exact List.Perm.append_left _ List.perm_append_comm
        have step := moved.append_right (reported joined)
        rw [List.append_assoc _ [name] (reported joined)] at step
        exact step
      | error error =>
        simp only [recordJoined, List.append_assoc, List.singleton_append]
        exact List.Perm.refl _

theorem foldl_recordJoined_partials (joined : List Joined) (output : ParallelSearchOutput)
    (before : ∀ name ∈ output.providersPartial, name ∈ output.providersUsed) :
    let after := joined.foldl recordJoined output
    ∀ name ∈ after.providersPartial, name ∈ after.providersUsed := by
  induction joined generalizing output with
  | nil => exact before
  | cons task joined ih =>
    refine ih (recordJoined output task) ?_
    match task with
    | none => exact before
    | some (name, .error error) => exact before
    | some (name, .ok result) =>
      intro other mem
      simp only [recordJoined] at mem ⊢
      by_cases partly : result.status = .partialSuccess
      · rw [if_pos partly] at mem
        rcases List.mem_append.mp mem with old | new
        · exact List.mem_append_left _ (before other old)
        · exact List.mem_append_right _ new
      · rw [if_neg partly] at mem
        exact List.mem_append_left _ (before other mem)

theorem reported_sublist (call : ParallelCall) :
    (reported ((call.plan.selectedProviders.filter call.registered).map (fun name =>
      ((call.tasks name).run (call.caching name) call.maxRetries name).joined))).Sublist
        call.plan.selectedProviders := by
  refine List.Sublist.trans ?_ (List.filter_sublist (p := call.registered))
  induction call.plan.selectedProviders.filter call.registered with
  | nil => exact List.Sublist.refl _
  | cons name names ih =>
    rw [List.map_cons, reported, List.filterMap_cons]
    have own : ∀ result, ((call.tasks name).run (call.caching name) call.maxRetries name).joined =
        some result → result.1 = name := by
      intro result h
      obtain ⟨outcome, -, rfl⟩ := Option.map_eq_some_iff.mp h
      rfl
    cases hjoined : ((call.tasks name).run (call.caching name) call.maxRetries name).joined with
    | none => exact ih.cons name
    | some result =>
      simp only [Option.map_some, own result hjoined]
      exact ih.cons_cons name

theorem ParallelCall.output_partitions (call : ParallelCall) :
    Partitions call.plan.selectedProviders call.output := by
  have names : (reported call.joined).Perm (reported
      ((call.plan.selectedProviders.filter call.registered).map (fun name =>
        ((call.tasks name).run (call.caching name) call.maxRetries name).joined))) :=
    call.complete.filterMap _
  have once : (reported call.joined).Nodup :=
    names.nodup_iff.mpr (call.distinct.sublist (reported_sublist call))
  have known : ∀ name ∈ reported call.joined, name ∈ call.plan.selectedProviders :=
    fun name mem => (reported_sublist call).subset (names.mem_iff.mp mem)
  let recorded := call.joined.foldl recordJoined .empty
  have told : (recorded.providersUsed ++ recorded.providersFailed).Perm (reported call.joined) :=
    foldl_recordJoined_perm call.joined .empty
  let missing := (OrdMap.setOf call.plan.selectedProviders).filter (fun name =>
    !(recorded.providersUsed ++ recorded.providersFailed).contains name)
  have absent : ∀ name, name ∈ missing ↔
      name ∈ call.plan.selectedProviders ∧ name ∉ reported call.joined := by
    intro name
    rw [List.mem_filter, OrdMap.mem_setOf, ← told.mem_iff]
    simp
  have all : (reported call.joined ++ missing).Perm call.plan.selectedProviders := by
    have onceAll : (reported call.joined ++ missing).Nodup := by
      refine List.nodup_append.mpr ⟨once, (OrdMap.nodup_setOf _).filter _, ?_⟩
      rintro name mem other mem' rfl
      exact ((absent name).mp mem').2 mem
    refine (List.perm_ext_iff_of_nodup onceAll call.distinct).mpr ?_
    intro name
    rw [List.mem_append, absent]
    by_cases there : name ∈ reported call.joined
    · exact ⟨fun _ => known name there, fun _ => .inl there⟩
    · exact ⟨fun either => either.elim (fun h => absurd h there) And.left,
        fun selected => .inr ⟨selected, there⟩⟩
  have covers : (call.output.providersUsed ++ call.output.providersFailed).Perm
      call.plan.selectedProviders := by
    have sorted : (call.output.providersUsed ++ call.output.providersFailed).Perm
        (recorded.providersUsed ++ (recorded.providersFailed ++ missing)) :=
      (StableSort.sortBy_perm _ _).append (StableSort.sortBy_perm _ _)
    refine sorted.trans ?_
    rw [← List.append_assoc]
    exact (told.append_right missing).trans all
  refine partitions_of_perm call.distinct covers ?_
  intro name mem
  have partly : name ∈ recorded.providersPartial := StableSort.mem_sortBy.mp mem
  exact StableSort.mem_sortBy.mpr
    (foldl_recordJoined_partials call.joined .empty (fun _ h => absurd h List.not_mem_nil) name
      partly)

/-- Merging two outputs on different selections. -/
theorem Partitions.merge {selected more : List String} {target source : ParallelSearchOutput}
    (h : Partitions selected target) (h' : Partitions more source)
    (distinct : (selected ++ more).Nodup) :
    Partitions (selected ++ more) (mergeParallelOutput target source) := by
  obtain ⟨-, -, apart⟩ := List.nodup_append.mp distinct
  refine ⟨fun name => ?_, fun name used failed => ?_, OrdMap.nodup_setOf _, OrdMap.nodup_setOf _,
    fun name mem => ?_⟩
  · simp only [mergeParallelOutput, mergeNames, OrdMap.mem_setOf, List.mem_append, ← h.union name,
      ← h'.union name]
    constructor
    · rintro ((used | used) | (failed | failed))
      · exact .inl (.inl used)
      · exact .inr (.inl used)
      · exact .inl (.inr failed)
      · exact .inr (.inr failed)
    · rintro ((used | failed) | (used | failed))
      · exact .inl (.inl used)
      · exact .inr (.inl failed)
      · exact .inl (.inr used)
      · exact .inr (.inr failed)
  · simp only [mergeParallelOutput, mergeNames, OrdMap.mem_setOf, List.mem_append] at used failed
    rcases used with used | used
    · rcases failed with failed | failed
      · exact h.disjoint name used failed
      · exact apart name ((h.union name).mp (.inl used)) name ((h'.union name).mp (.inr failed)) rfl
    · rcases failed with failed | failed
      · exact apart name ((h.union name).mp (.inr failed)) name ((h'.union name).mp (.inl used)) rfl
      · exact h'.disjoint name used failed
  · simp only [mergeParallelOutput, mergeNames, OrdMap.mem_setOf, List.mem_append] at mem ⊢
    exact mem.imp (h.partials name) (h'.partials name)

theorem foldl_merge_partitions (calls : List ParallelCall) {selected : List String}
    {target : ParallelSearchOutput} (h : Partitions selected target)
    (distinct : (selected ++ calls.flatMap (fun call => call.plan.selectedProviders)).Nodup) :
    Partitions (selected ++ calls.flatMap (fun call => call.plan.selectedProviders))
      (calls.foldl (fun accumulated call => mergeParallelOutput accumulated call.output)
        target) := by
  induction calls generalizing selected target with
  | nil => simpa using h
  | cons call calls ih =>
    rw [List.flatMap_cons, ← List.append_assoc] at distinct ⊢
    exact ih (h.merge call.output_partitions (List.nodup_append.mp distinct).1) distinct

/-- Every call partitions its providers, and any number of calls on different
providers partition all of them. -/
theorem parallelCalls_partition (calls : List ParallelCall)
    (apart : (calls.flatMap (fun call => call.plan.selectedProviders)).Nodup) :
    (∀ call ∈ calls, Partitions call.plan.selectedProviders call.output) ∧
      Partitions (calls.flatMap (fun call => call.plan.selectedProviders)) (mergeAll calls) := by
  refine ⟨fun call _ => call.output_partitions, ?_⟩
  have nothing : Partitions [] .empty :=
    partitions_of_perm List.nodup_nil (List.Perm.refl _) (fun _ h => absurd h List.not_mem_nil)
  exact foldl_merge_partitions calls nothing apart

/-- A call whose tasks are joined in the order of the plan, each with one attempt. -/
def answeredCall (names : List String) (distinct : names.Nodup) (registered : String → Bool)
    (answer : String → Option (Except ProviderError ProviderResult)) : ParallelCall where
  plan := ⟨names, [], 1000, "", "bootstrap_static", "search_policy_v1", []⟩
  distinct := distinct
  registered := registered
  caching := fun _ => false
  maxRetries := 0
  tasks := fun name => ⟨true, fun _ => ⟨true, none, none, answer name, false⟩, 0⟩
  joined := _
  complete := List.Perm.refl _

/-- One provider is partial, one fails, one panics and one has no adapter; a second
round adds one that succeeds. -/
def mixedCalls : List ParallelCall :=
  [answeredCall ["searxng", "brave", "mojeek", "jina"] (by decide) (fun name => name ≠ "jina")
      (fun name =>
        if name = "searxng" then none
        else if name = "brave" then some (.ok ⟨"brave", .partialSuccess, [], [], [], [], []⟩)
        else some (.error ⟨name, .auth, "unauthorized", none⟩)),
    answeredCall ["wikipedia"] (by decide) (fun _ => true)
      (fun name => some (.ok ⟨name, .success, [], [], [], [], []⟩))]

theorem mixedCalls_partition :
    (mergeAll mixedCalls).providersUsed = ["brave", "wikipedia"] ∧
      (mergeAll mixedCalls).providersFailed = ["jina", "mojeek", "searxng"] ∧
      (mergeAll mixedCalls).providersPartial = ["brave"] ∧
      Partitions ["searxng", "brave", "mojeek", "jina", "wikipedia"] (mergeAll mixedCalls) :=
  ⟨by decide +kernel, by decide +kernel, by decide +kernel,
    (parallelCalls_partition mixedCalls (by decide)).2⟩

end Amatl
