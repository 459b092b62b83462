import Amatl.Rendering

/-! What holds of renderings in every order of their steps: the permits, the directories and the
files in them, the harnesses and the answers. -/

namespace Amatl

open Interleaving

namespace RenderSetup

variable {setup : RenderSetup} {site site' : RenderSite} {e : RenderEvent} {task : RenderTask}
  {after : RenderStage} {pages : List (List UInt8)}

/-! What a step is. -/

theorem advance_cases (h : setup.advance site e = some site') :
    ∃ task after free, site.clock ≤ e.now ∧ site.tasks[e.index]? = some task ∧
      setup.poll site e.now task e.step = some after ∧
      exchange site.free task.holds after.dir?.isSome = some free ∧
      site' = ⟨e.now, free, site.tasks.set e.index { task with stage := after },
        scratchAfter site.scratch task after e, site.leftover ++ leftBehind task after e,
        site.runs ++ setup.startedRun after e, site.produced ++ written e⟩ := by
  unfold advance at h
  split at h
  · cases h
  · rename_i later
    obtain ⟨task, there, h⟩ := Option.bind_eq_some_iff.mp h
    obtain ⟨after, step, h⟩ := Option.bind_eq_some_iff.mp h
    obtain ⟨free, permit, h⟩ := Option.map_eq_some_iff.mp h
    exact ⟨task, after, free, by omega, there, step, permit, h.symm⟩

/-- What a poll makes of a call for the page `html`. -/
inductive Polled (setup : RenderSetup) (site : RenderSite) (html : List UInt8) :
    RenderStage → RenderStep → RenderStage → Prop
  | refused {nanos : Option Nat} {created : Bool} {error : RenderError}
      (full : error = .atCapacity → site.free = 0)
      (absent : setup.renderer.available = false → 0 < site.free → error = .unavailable) :
      Polled setup site html .waiting (.call nanos created) (.answered (.error error))
  | staged {nanos : Option Nat} {created : Bool} {dir : String}
      (available : setup.renderer.available = true) (page : html ≠ [])
      (fresh : dir ∉ site.scratch.map Scratch.path) :
      Polled setup site html .waiting (.call nanos created) (.staging dir)
  | started {dir : String} {ok spawned : Bool} {deadline : Nat} :
      Polled setup site html (.staging dir) (.written ok spawned) (.running dir deadline)
  | produced {dir : String} {deadline : Nat} {dom : List UInt8} :
      Polled setup site html (.running dir deadline) (.produce dom) (.running dir deadline)
  | exited {dir : String} {deadline : Nat} {ended : HarnessEnd} :
      Polled setup site html (.running dir deadline) (.finish ended) (.reading dir)
  | shown {dir : String} {dom : List UInt8} (file : domFile site.scratch dir = some dom)
      (some_dom : dom ≠ []) (small : dom.length ≤ setup.renderer.maxDomBytes.toNat) :
      Polled setup site html (.reading dir) (.read true) (.answered (.ok dom))
  | failed {stage : RenderStage} {step : RenderStep} {error : RenderError} {dir : String}
      (held : stage.dir? = some dir) (other : error ≠ .atCapacity) :
      Polled setup site html stage step (.answered (.error error))
  | dropped {stage : RenderStage} : Polled setup site html stage .drop .dropped

theorem beginRender_polled (html : List UInt8) (nanos : Option Nat) (created : Bool) :
    Polled setup site html .waiting (.call nanos created)
      (setup.beginRender site html nanos created) := by
  unfold beginRender
  split
  · rename_i full
    exact .refused (fun _ => full) (fun _ free => by omega)
  · split
    · exact .refused (by simp) (fun _ _ => rfl)
    · rename_i there
      have available : setup.renderer.available = true := by simpa using there
      split
      · exact .refused (by simp) (fun absent _ => by simp [available] at absent)
      · rename_i page
        cases nanos with
        | none => exact .refused (by simp) (fun absent _ => by simp [available] at absent)
        | some nanos =>
          simp only
          split
          · rename_i fresh
            refine .staged available page ?_
            rw [Bool.and_eq_true] at fresh
            simpa using fresh.2
          · exact .refused (by simp) (fun absent _ => by simp [available] at absent)

theorem domResult_ok {dom : Option (List UInt8)} {bytes : List UInt8}
    (h : setup.domResult dom = .ok bytes) :
    dom = some bytes ∧ bytes ≠ [] ∧ bytes.length ≤ setup.renderer.maxDomBytes.toNat := by
  cases dom with
  | none => cases h
  | some found =>
    simp only [domResult] at h
    split at h
    · cases h
    · rename_i fits
      obtain rfl := Except.ok.inj h
      refine ⟨rfl, fun empty => fits (.inl empty), ?_⟩
      by_contra long
      exact fits (.inr (by omega))

theorem domResult_error {dom : Option (List UInt8)} {error : RenderError}
    (h : setup.domResult dom = .error error) : error ≠ .atCapacity := by
  cases dom with
  | none =>
    obtain rfl := Except.error.inj h
    simp
  | some found =>
    simp only [domResult] at h
    split at h
    · obtain rfl := Except.error.inj h
      simp
    · cases h

theorem poll_polled {now : Nat} {step : RenderStep}
    (h : setup.poll site now task step = some after) :
    Polled setup site task.html task.stage step after := by
  obtain ⟨html, stage⟩ := task
  cases step with
  | call nanos created =>
    cases stage <;> simp only [poll, Option.some.injEq, reduceCtorEq] at h
    subst h
    exact beginRender_polled html nanos created
  | written ok spawned =>
    cases stage <;> simp only [poll, reduceCtorEq] at h
    split at h
    · obtain rfl := Option.some.inj h
      exact .started
    · obtain rfl := Option.some.inj h
      exact .failed rfl (by simp)
  | produce dom =>
    cases stage <;> simp only [poll, Option.some.injEq, reduceCtorEq] at h
    subst h
    exact .produced
  | finish ended =>
    cases stage <;> simp only [poll, Option.some.injEq, reduceCtorEq] at h
    subst h
    unfold harnessResult
    split
    · exact .exited
    · exact .failed rfl (by simp)
    · exact .failed rfl (by simp)
  | expire =>
    cases stage <;> simp only [poll, reduceCtorEq] at h
    split at h
    · obtain rfl := Option.some.inj h
      exact .failed rfl (by simp)
    · cases h
  | read ok =>
    cases stage <;> simp only [poll, reduceCtorEq] at h
    rename_i dir
    cases ok with
    | false =>
      obtain rfl := Option.some.inj h
      exact .failed rfl (by simp)
    | true =>
      obtain rfl := Option.some.inj h
      cases result : setup.domResult (domFile site.scratch dir) with
      | error error => exact .failed rfl (domResult_error result)
      | ok dom =>
        obtain ⟨file, some_dom, small⟩ := domResult_ok result
        exact .shown file some_dom small
  | drop =>
    cases stage <;> simp only [poll, Option.some.injEq, reduceCtorEq] at h
    all_goals
      subst h
      exact .dropped

/-- A poll leaves the directory of a call, begins a new one or gives it up. -/
theorem Polled.dirs {html : List UInt8} {stage : RenderStage} {step : RenderStep}
    (polled : Polled setup site html stage step after) :
    after.dir? = stage.dir? ∨
      (∃ dir, stage.dir? = none ∧ after.dir? = some dir ∧
        dir ∉ site.scratch.map Scratch.path) ∨
      ∃ dir, stage.dir? = some dir ∧ after.dir? = none := by
  cases polled with
  | refused => exact .inl rfl
  | staged _ _ fresh => exact .inr (.inl ⟨_, rfl, rfl, fresh⟩)
  | started => exact .inl rfl
  | produced => exact .inl rfl
  | exited => exact .inl rfl
  | shown => exact .inr (.inr ⟨_, rfl, rfl⟩)
  | failed held => exact .inr (.inr ⟨_, held, rfl⟩)
  | dropped =>
    cases held : stage.dir? with
    | none => exact .inl rfl
    | some dir => exact .inr (.inr ⟨dir, rfl, rfl⟩)

/-! The directories. -/

/-- Every directory is that of one call, or its removal failed. -/
structure DirsKept (site : RenderSite) : Prop where
  paths : (site.scratch.map Scratch.path).Nodup
  owned : ∀ (j : Nat) (task : RenderTask) (dir : String), site.tasks[j]? = some task →
    task.dir? = some dir → dir ∈ site.scratch.map Scratch.path
  apart : ∀ (i j : Nat) (task other : RenderTask) (dir : String), site.tasks[i]? = some task →
    site.tasks[j]? = some other → task.dir? = some dir → other.dir? = some dir → i = j
  kept : ∀ dir ∈ site.scratch.map Scratch.path, dir ∈ site.leftover ∨
    ∃ (j : Nat) (task : RenderTask), site.tasks[j]? = some task ∧ task.dir? = some dir

theorem map_update_path {scratch : List Scratch} {dir : String} {f : Scratch → Scratch}
    (same : ∀ s, (f s).path = s.path) :
    (scratch.map fun s => if s.path = dir then f s else s).map Scratch.path =
      scratch.map Scratch.path := by
  rw [List.map_map]
  refine List.map_congr_left fun s _ => ?_
  simp only [Function.comp_apply]
  split
  · exact same s
  · rfl

theorem scratchAfter_same (scratch : List Scratch) (h : after.dir? = task.dir?)
    (e : RenderEvent) :
    (scratchAfter scratch task after e).map Scratch.path = scratch.map Scratch.path := by
  unfold scratchAfter
  rw [h]
  cases task.dir? with
  | none => rfl
  | some dir =>
    cases e.step with
    | written ok spawned => exact map_update_path fun _ => rfl
    | produce dom => exact map_update_path fun _ => rfl
    | _ => rfl

theorem scratchAfter_begun (scratch : List Scratch) {dir : String} (before : task.dir? = none)
    (begun : after.dir? = some dir) (e : RenderEvent) :
    scratchAfter scratch task after e = scratch ++ [⟨dir, none, none⟩] := by
  simp only [scratchAfter, before, begun]

theorem scratchAfter_left (scratch : List Scratch) {dir : String} (before : task.dir? = some dir)
    (left : after.dir? = none) (e : RenderEvent) :
    scratchAfter scratch task after e =
      if e.removed then scratch.filter fun s => s.path != dir else scratch := by
  simp only [scratchAfter, before, left]

theorem leftBehind_left {dir : String} (before : task.dir? = some dir)
    (left : after.dir? = none) (e : RenderEvent) :
    leftBehind task after e = if e.removed then [] else [dir] := by
  simp only [leftBehind, before, left]

theorem mem_paths_left {scratch : List Scratch} {dir path : String} (other : path ≠ dir) :
    path ∈ (scratch.filter fun s => s.path != dir).map Scratch.path ↔
      path ∈ scratch.map Scratch.path := by
  constructor
  · intro mem
    obtain ⟨s, here, rfl⟩ := List.mem_map.mp mem
    exact List.mem_map_of_mem (List.mem_of_mem_filter here)
  · intro mem
    obtain ⟨s, here, rfl⟩ := List.mem_map.mp mem
    exact List.mem_map_of_mem (List.mem_filter.mpr ⟨here, by simpa using other⟩)

theorem DirsKept.start (setup : RenderSetup) (pages : List (List UInt8)) :
    DirsKept (setup.start pages) := by
  have none_held : ∀ (j : Nat) (task : RenderTask) (dir : String),
      (setup.start pages).tasks[j]? = some task → task.dir? ≠ some dir := by
    intro j task dir there
    obtain ⟨html, -, rfl⟩ := List.mem_map.mp (List.mem_of_getElem? there)
    simp [RenderTask.dir?, RenderStage.dir?]
  constructor
  · exact List.nodup_nil
  · exact fun j task dir there held => absurd held (none_held j task dir there)
  · exact fun i j task other dir there _ held => absurd held (none_held i task dir there)
  · exact fun dir mem => absurd mem List.not_mem_nil

/-- What a step does to the calls and the directories. -/
structure Moved (site site' : RenderSite) (e : RenderEvent) (task : RenderTask)
    (after : RenderStage) : Prop where
  there : site.tasks[e.index]? = some task
  tasks : site'.tasks = site.tasks.set e.index { task with stage := after }
  scratch : site'.scratch = scratchAfter site.scratch task after e
  leftover : site'.leftover = site.leftover ++ leftBehind task after e

theorem Moved.new (moved : Moved site site' e task after) :
    site'.tasks[e.index]? = some { task with stage := after } := by
  rw [moved.tasks]
  exact getElem?_set_there _ moved.there

theorem Moved.cases (moved : Moved site site' e task after) {j : Nat} {c : RenderTask}
    (here : site'.tasks[j]? = some c) :
    e.index = j ∧ c = { task with stage := after } ∨ e.index ≠ j ∧ site.tasks[j]? = some c :=
  getElem?_set_cases (moved.tasks ▸ here)

/-- A directory that is not the polled call's stays whose it was. -/
theorem DirsKept.others (kept : DirsKept site) (moved : Moved site site' e task after)
    {path : String} (mem : path ∈ site.scratch.map Scratch.path) (other : task.dir? ≠ some path) :
    path ∈ site'.leftover ∨
      ∃ (j : Nat) (task : RenderTask), site'.tasks[j]? = some task ∧ task.dir? = some path := by
  rcases kept.kept path mem with left | ⟨j, c, here, held⟩
  · rw [moved.leftover]
    exact .inl (List.mem_append_left _ left)
  · refine .inr ⟨j, c, ?_, held⟩
    have apart : e.index ≠ j := by
      rintro rfl
      obtain rfl : task = c := Option.some.inj (moved.there.symm.trans here)
      exact other held
    rw [moved.tasks, List.getElem?_set_ne apart]
    exact here

theorem DirsKept.stays (kept : DirsKept site) (moved : Moved site site' e task after)
    (same : after.dir? = task.dir?) : DirsKept site' := by
  have paths : site'.scratch.map Scratch.path = site.scratch.map Scratch.path := by
    rw [moved.scratch]
    exact scratchAfter_same _ same e
  have before : ∀ {j : Nat} {c : RenderTask}, site'.tasks[j]? = some c →
      ∃ c', site.tasks[j]? = some c' ∧ c'.dir? = c.dir? := by
    intro j c here
    rcases moved.cases here with ⟨rfl, rfl⟩ | ⟨-, here⟩
    · exact ⟨task, moved.there, same.symm⟩
    · exact ⟨c, here, rfl⟩
  constructor
  · rw [paths]
    exact kept.paths
  · intro j c dir here held
    obtain ⟨c', here', dir'⟩ := before here
    rw [paths]
    exact kept.owned j c' dir here' (dir'.trans held)
  · intro i j c d dir here there held held'
    obtain ⟨c', here', dir'⟩ := before here
    obtain ⟨d', there', dir''⟩ := before there
    exact kept.apart i j c' d' dir here' there' (dir'.trans held) (dir''.trans held')
  · intro dir mem
    rw [paths] at mem
    by_cases mine : task.dir? = some dir
    · exact .inr ⟨_, _, moved.new, same.trans mine⟩
    · exact kept.others moved mem mine

theorem DirsKept.begins (kept : DirsKept site) (moved : Moved site site' e task after)
    {dir : String} (before : task.dir? = none) (begun : after.dir? = some dir)
    (fresh : dir ∉ site.scratch.map Scratch.path) : DirsKept site' := by
  have paths : site'.scratch.map Scratch.path = site.scratch.map Scratch.path ++ [dir] := by
    rw [moved.scratch, scratchAfter_begun _ before begun, List.map_append, List.map_cons,
      List.map_nil]
  constructor
  · rw [paths, List.nodup_append]
    refine ⟨kept.paths, List.nodup_singleton _, fun path mem other here => ?_⟩
    obtain rfl := List.mem_singleton.mp here
    rintro rfl
    exact fresh mem
  · intro j c path here held
    rw [paths]
    rcases moved.cases here with ⟨-, rfl⟩ | ⟨-, here⟩
    · obtain rfl := Option.some.inj (begun.symm.trans held)
      exact List.mem_append_right _ (List.mem_singleton_self _)
    · exact List.mem_append_left _ (kept.owned j c path here held)
  · intro i j c d path here there held held'
    rcases moved.cases here with ⟨rfl, rfl⟩ | ⟨-, here⟩
    · obtain rfl := Option.some.inj (begun.symm.trans held)
      rcases moved.cases there with ⟨same, -⟩ | ⟨-, there⟩
      · exact same
      · exact absurd (kept.owned j d _ there held') fresh
    · rcases moved.cases there with ⟨-, rfl⟩ | ⟨-, there⟩
      · obtain rfl := Option.some.inj (begun.symm.trans held')
        exact absurd (kept.owned i c _ here held) fresh
      · exact kept.apart i j c d path here there held held'
  · intro path mem
    rw [paths] at mem
    rcases List.mem_append.mp mem with old | here
    · exact kept.others moved old (by simp [before])
    · obtain rfl := List.mem_singleton.mp here
      exact .inr ⟨e.index, _, moved.new, begun⟩

theorem DirsKept.leaves (kept : DirsKept site) (moved : Moved site site' e task after)
    {dir : String} (before : task.dir? = some dir) (left : after.dir? = none) :
    DirsKept site' := by
  have scratch := moved.scratch.trans (scratchAfter_left _ before left e)
  have others : ∀ {j : Nat} {c : RenderTask} {path : String}, site'.tasks[j]? = some c →
      c.dir? = some path → site.tasks[j]? = some c ∧ path ≠ dir := by
    intro j c path here held
    rcases moved.cases here with ⟨-, rfl⟩ | ⟨other, here⟩
    · have clash := left.symm.trans held
      cases clash
    · refine ⟨here, ?_⟩
      rintro rfl
      exact other (kept.apart _ _ _ _ _ moved.there here before held)
  constructor
  · rw [scratch]
    split
    · exact kept.paths.sublist (List.Sublist.map _ List.filter_sublist)
    · exact kept.paths
  · intro j c path here held
    obtain ⟨here, other⟩ := others here held
    have old := kept.owned j c path here held
    rw [scratch]
    split
    · exact (mem_paths_left other).mpr old
    · exact old
  · intro i j c d path here there held held'
    exact kept.apart i j c d path (others here held).1 (others there held').1 held held'
  · intro path mem
    rw [scratch] at mem
    by_cases same : path = dir
    · subst same
      by_cases gone : e.removed = true
      · rw [if_pos gone] at mem
        obtain ⟨s, here, named⟩ := List.mem_map.mp mem
        have away := (List.mem_filter.mp here).2
        simp [named] at away
      · rw [moved.leftover, leftBehind_left before left, if_neg gone]
        exact .inl (List.mem_append_right _ (List.mem_singleton_self _))
    · refine kept.others moved ?_ (fun mine => same (Option.some.inj (mine.symm.trans before)))
      split at mem
      · exact (mem_paths_left same).mp mem
      · exact mem

theorem DirsKept.advance (kept : DirsKept site) (h : setup.advance site e = some site') :
    DirsKept site' := by
  obtain ⟨task, after, free, -, there, step, -, whole⟩ := advance_cases h
  have moved : Moved site site' e task after := by
    rw [whole]
    exact ⟨there, rfl, rfl, rfl⟩
  rcases (poll_polled step).dirs with same | ⟨dir, before, begun, fresh⟩ | ⟨dir, before, left⟩
  · exact kept.stays moved same
  · exact kept.begins moved before begun fresh
  · exact kept.leaves moved before left

/-! The files. -/

theorem find_update (scratch : List Scratch) (dir path : String) {f : Scratch → Scratch}
    (same : ∀ s, (f s).path = s.path) :
    (scratch.map fun s => if s.path = dir then f s else s).find? (fun s => s.path == path) =
      (scratch.find? fun s => s.path == path).map fun s => if s.path = dir then f s else s := by
  have paths : (fun s : Scratch => s.path == path) ∘ (fun s => if s.path = dir then f s else s) =
      fun s => s.path == path := by
    funext s
    simp only [Function.comp_apply]
    split
    · rw [same]
    · rfl
  rw [List.find?_map, paths]

theorem find_left (scratch : List Scratch) {dir path : String} (other : path ≠ dir) :
    (scratch.filter fun s => s.path != dir).find? (fun s => s.path == path) =
      scratch.find? fun s => s.path == path := by
  induction scratch with
  | nil => rfl
  | cons s scratch ih =>
    by_cases here : s.path = path
    · have kept : (s :: scratch).filter (fun s => s.path != dir) =
          s :: scratch.filter fun s => s.path != dir :=
        List.filter_cons_of_pos (by simpa [here] using other)
      rw [kept, List.find?_cons_of_pos (by simpa using here),
        List.find?_cons_of_pos (by simpa using here)]
    · rw [List.find?_cons_of_neg (by simpa using here), ← ih]
      by_cases away : s.path = dir
      · have gone : (s :: scratch).filter (fun s => s.path != dir) =
            scratch.filter fun s => s.path != dir :=
          List.filter_cons_of_neg (by simpa using away)
        rw [gone]
      · have kept : (s :: scratch).filter (fun s => s.path != dir) =
            s :: scratch.filter fun s => s.path != dir :=
          List.filter_cons_of_pos (by simpa using away)
        rw [kept, List.find?_cons_of_neg (by simpa using here)]

/-- The files of one call are not touched by what another does. -/
theorem find_other (scratch : List Scratch) {path : String} (before : task.dir? ≠ some path)
    (now : after.dir? ≠ some path) (e : RenderEvent) :
    (scratchAfter scratch task after e).find? (fun s => s.path == path) =
      scratch.find? fun s => s.path == path := by
  cases held : task.dir? with
  | none =>
    cases begun : after.dir? with
    | none => simp only [scratchAfter, held, begun]
    | some dir =>
      have other : dir ≠ path := fun same => now (same ▸ begun)
      rw [scratchAfter_begun scratch held begun, List.find?_append,
        List.find?_cons_of_neg (by simpa using other), List.find?_nil, Option.or_none]
  | some dir =>
    have other : dir ≠ path := fun same => before (same ▸ held)
    have kept : ∀ (f : Scratch → Scratch) (found : Option Scratch),
        found = scratch.find? (fun s => s.path == path) →
        (found.map fun s => if s.path = dir then f s else s) = found := by
      intro f found here
      cases found with
      | none => rfl
      | some s =>
        have named : s.path = path := by simpa using List.find?_some here.symm
        simp only [Option.map_some, named, if_neg (Ne.symm other)]
    cases left : after.dir? with
    | none =>
      rw [scratchAfter_left scratch held left]
      split
      · exact find_left scratch (Ne.symm other)
      · rfl
    | some _ =>
      simp only [scratchAfter, held, left]
      cases e.step with
      | written ok spawned =>
        simp only
        rw [find_update scratch dir path (f := fun s => { s with input := some task.html })
          (fun _ => rfl)]
        exact kept (fun s => { s with input := some task.html }) _ rfl
      | produce dom =>
        simp only
        rw [find_update scratch dir path (f := fun s => { s with dom := some dom }) (fun _ => rfl)]
        exact kept (fun s => { s with dom := some dom }) _ rfl
      | _ => rfl

/-- What a call finds in its directory is its own. -/
structure FilesKept (site : RenderSite) : Prop where
  input : ∀ (j : Nat) (task : RenderTask) (dir : String), site.tasks[j]? = some task →
    task.dir? = some dir → task.stage.staged = true → inputFile site.scratch dir = some task.html
  dom : ∀ (j : Nat) (task : RenderTask) (dir : String) (bytes : List UInt8),
    site.tasks[j]? = some task → task.dir? = some dir → domFile site.scratch dir = some bytes →
      (j, bytes) ∈ site.produced

theorem FilesKept.start (setup : RenderSetup) (pages : List (List UInt8)) :
    FilesKept (setup.start pages) := by
  constructor
  · intro j task dir there held
    obtain ⟨html, -, rfl⟩ := List.mem_map.mp (List.mem_of_getElem? there)
    cases held
  · intro j task dir bytes there held
    obtain ⟨html, -, rfl⟩ := List.mem_map.mp (List.mem_of_getElem? there)
    cases held

theorem find_owned {scratch : List Scratch} {dir : String}
    (mem : dir ∈ scratch.map Scratch.path) :
    ∃ s, scratch.find? (fun s => s.path == dir) = some s ∧ s.path = dir := by
  obtain ⟨s, here, named⟩ := List.mem_map.mp mem
  cases found : scratch.find? (fun s => s.path == dir) with
  | none => exact absurd named (by simpa using List.find?_eq_none.mp found s here)
  | some t => exact ⟨t, rfl, by simpa using List.find?_some found⟩

/-- The files of the call that was polled. -/
theorem Polled.files {e : RenderEvent} {dir : String} (dirs : DirsKept site)
    (files : FilesKept site) (there : site.tasks[e.index]? = some task)
    (polled : Polled setup site task.html task.stage e.step after)
    (held : after.dir? = some dir) :
    (after.staged = true →
      inputFile (scratchAfter site.scratch task after e) dir = some task.html) ∧
    ∀ bytes, domFile (scratchAfter site.scratch task after e) dir = some bytes →
      (e.index, bytes) ∈ site.produced ++ written e := by
  obtain ⟨now, index, step, removed⟩ := e
  obtain ⟨html, stage⟩ := task
  simp only at there polled
  cases polled with
  | staged available page fresh =>
    obtain rfl := Option.some.inj held
    have nothing : site.scratch.find? (fun s => s.path == _) = none :=
      List.find?_eq_none.mpr fun s mem => by
        have other : s.path ≠ _ := fun same => fresh (List.mem_map.mpr ⟨s, mem, same⟩)
        simpa using other
    refine ⟨fun staged => (by cases staged), fun bytes found => ?_⟩
    rw [scratchAfter_begun site.scratch rfl rfl, domFile, List.find?_append, nothing,
      Option.none_or, List.find?_cons_of_pos (by simp)] at found
    cases found
  | started =>
    obtain rfl := Option.some.inj held
    obtain ⟨s, found, named⟩ := find_owned (dirs.owned index _ _ there rfl)
    have after := find_update site.scratch s.path s.path
      (f := fun s => { s with input := some html }) fun _ => rfl
    rw [named] at after
    rw [found] at after
    simp only [Option.map_some, named, if_true] at after
    refine ⟨fun _ => ?_, fun bytes here => ?_⟩
    · simp only [scratchAfter, RenderTask.dir?, RenderStage.dir?, inputFile]
      rw [after]
      rfl
    · simp only [scratchAfter, RenderTask.dir?, RenderStage.dir?, domFile] at here
      rw [after] at here
      exact List.mem_append_left _ (files.dom index _ _ bytes there rfl (by
        rw [domFile, found]
        exact here))
  | produced =>
    rename_i deadline dom
    obtain rfl := Option.some.inj held
    obtain ⟨s, found, named⟩ := find_owned (dirs.owned index _ _ there rfl)
    have after := find_update site.scratch s.path s.path
      (f := fun s => { s with dom := some dom }) fun _ => rfl
    rw [named] at after
    rw [found] at after
    simp only [Option.map_some, named, if_true] at after
    refine ⟨fun _ => ?_, fun bytes here => ?_⟩
    · have old := files.input index _ _ there rfl rfl
      rw [inputFile, found] at old
      simp only [scratchAfter, RenderTask.dir?, RenderStage.dir?, inputFile]
      rw [after]
      exact old
    · simp only [scratchAfter, RenderTask.dir?, RenderStage.dir?, domFile] at here
      rw [after] at here
      obtain rfl := Option.some.inj here
      exact List.mem_append_right _ (List.mem_singleton_self _)
  | exited =>
    obtain rfl := Option.some.inj held
    exact ⟨fun _ => files.input index _ _ there rfl rfl, fun bytes here =>
      List.mem_append_left _ (files.dom index _ _ bytes there rfl here)⟩
  | refused => cases held
  | shown => cases held
  | failed => cases held
  | dropped => cases held

theorem FilesKept.advance (dirs : DirsKept site) (files : FilesKept site)
    (h : setup.advance site e = some site') : FilesKept site' := by
  have dirs' := dirs.advance h
  obtain ⟨task, after, free, -, there, step, -, rfl⟩ := advance_cases h
  have polled := poll_polled step
  have new : (site.tasks.set e.index { task with stage := after })[e.index]? =
      some { task with stage := after } := getElem?_set_there _ there
  have other : ∀ {j : Nat} {c : RenderTask} {path : String}, e.index ≠ j →
      site.tasks[j]? = some c → c.dir? = some path →
      (scratchAfter site.scratch task after e).find? (fun s => s.path == path) =
        site.scratch.find? fun s => s.path == path := by
    intro j c path away here held
    refine find_other _ (fun same => away (dirs.apart _ _ _ _ _ there here same held))
      (fun same => ?_) e
    refine away (dirs'.apart e.index j _ c path new ?_ same held)
    simp only
    rw [List.getElem?_set_ne away]
    exact here
  constructor
  · intro j c path here held staged
    rcases getElem?_set_cases here with ⟨rfl, rfl⟩ | ⟨away, here⟩
    · exact (polled.files dirs files there held).1 staged
    · simp only [inputFile]
      rw [other away here held]
      exact files.input j c path here held staged
  · intro j c path bytes here held found
    rcases getElem?_set_cases here with ⟨rfl, rfl⟩ | ⟨away, here⟩
    · exact (polled.files dirs files there held).2 bytes found
    · simp only [domFile] at found
      rw [other away here held] at found
      exact List.mem_append_left _ (files.dom j c path bytes here held found)

/-! The permits, the harnesses and the answers. -/

/-- The call got past the start of its harness. -/
def begun : RenderStage → Bool
  | .waiting | .staging _ => false
  | _ => true

structure CallsKept (setup : RenderSetup) (pages : List (List UInt8)) (site : RenderSite) :
    Prop where
  permits : PoolBalanced RenderTask.holds setup.maxConcurrent site.free site.tasks
  pages : site.tasks.map RenderTask.html = pages
  holds : ∀ task ∈ site.tasks, task.holds = true →
    setup.renderer.available = true ∧ task.html ≠ []
  runs : ∀ run ∈ site.runs, setup.renderer.available = true ∧
    (∃ dir, run.command = setup.renderer.command dir) ∧
    ∃ task, site.tasks[run.index]? = some task ∧ task.html ≠ [] ∧ begun task.stage = true
  once : (site.runs.map HarnessRun.index).Nodup
  answers : ∀ (j : Nat) (task : RenderTask) (dom : List UInt8), site.tasks[j]? = some task →
    task.stage = .answered (.ok dom) →
      dom ≠ [] ∧ dom.length ≤ setup.renderer.maxDomBytes.toNat ∧ (j, dom) ∈ site.produced
  absent : setup.renderer.available = false → ∀ task ∈ site.tasks,
    task.stage = .waiting ∨ task.stage = .dropped ∨
      task.stage = .answered (.error .unavailable)
  untouched : setup.renderer.available = false → site.scratch = []

theorem CallsKept.start (setup : RenderSetup) (pages : List (List UInt8)) :
    CallsKept setup pages (setup.start pages) := by
  have fresh : ∀ task ∈ (setup.start pages).tasks, task.stage = .waiting := by
    intro task mem
    obtain ⟨html, -, rfl⟩ := List.mem_map.mp mem
    rfl
  constructor
  · refine PoolBalanced.start fun task mem => ?_
    simp only [RenderTask.holds, RenderTask.dir?, fresh task mem]
    rfl
  · simp [RenderSetup.start, Function.comp_def]
  · intro task mem held
    simp only [RenderTask.holds, RenderTask.dir?, fresh task mem] at held
    cases held
  · exact fun run mem => absurd mem List.not_mem_nil
  · exact List.nodup_nil
  · intro j task dom there answered
    rw [fresh task (List.mem_of_getElem? there)] at answered
    cases answered
  · exact fun _ task mem => .inl (fresh task mem)
  · exact fun _ => rfl

/-- Where the renderer is not available no call holds a permit. -/
theorem CallsKept.free_pos (kept : CallsKept setup pages site)
    (absent : setup.renderer.available = false) : 0 < site.free := by
  have none_held : site.tasks.countP RenderTask.holds = 0 := by
    rw [List.countP_eq_zero]
    intro task mem held
    have available := (kept.holds task mem held).1
    simp [absent] at available
  have balanced := kept.permits
  have positive := setup.positive
  simp only [PoolBalanced] at balanced
  omega

theorem startedRun_cases (setup : RenderSetup) (after : RenderStage) (e : RenderEvent) :
    setup.startedRun after e = [] ∨
      ∃ dir deadline, after = .running dir deadline ∧ (∃ ok spawned, e.step = .written ok spawned) ∧
        setup.startedRun after e = [⟨e.index, setup.renderer.command dir⟩] := by
  unfold startedRun
  split
  · rename_i ok spawned dir deadline step
    exact .inr ⟨dir, deadline, rfl, ⟨ok, spawned, step⟩, rfl⟩
  · exact .inl rfl

theorem Polled.held {html : List UInt8} {stage : RenderStage} {step : RenderStep}
    (polled : Polled setup site html stage step after) (h : after.dir?.isSome = true) :
    stage.dir?.isSome = true ∨ setup.renderer.available = true ∧ html ≠ [] := by
  cases polled with
  | staged available page => exact .inr ⟨available, page⟩
  | started => exact .inl rfl
  | produced => exact .inl rfl
  | exited => exact .inl rfl
  | refused => cases h
  | shown => cases h
  | failed => cases h
  | dropped => cases h

theorem Polled.begun {html : List UInt8} {stage : RenderStage} {step : RenderStep}
    (polled : Polled setup site html stage step after) (h : begun stage = true) :
    RenderSetup.begun after = true := by
  cases polled with
  | staged => cases h
  | _ => rfl

theorem Polled.started_from {html : List UInt8} {stage : RenderStage} {ok spawned : Bool}
    {dir : String} {deadline : Nat}
    (polled : Polled setup site html stage (.written ok spawned) (.running dir deadline)) :
    stage = .staging dir := by
  cases polled
  rfl

theorem Polled.answer {html dom : List UInt8} {stage : RenderStage} {step : RenderStep}
    (polled : Polled setup site html stage step (.answered (.ok dom))) :
    ∃ dir, stage = .reading dir ∧ domFile site.scratch dir = some dom ∧ dom ≠ [] ∧
      dom.length ≤ setup.renderer.maxDomBytes.toNat := by
  cases polled with
  | shown file some_dom small => exact ⟨_, rfl, file, some_dom, small⟩

theorem no_dir {stage : RenderStage}
    (h : stage = .waiting ∨ stage = .dropped ∨ stage = .answered (.error .unavailable)) :
    stage.dir? = none := by
  rcases h with rfl | rfl | rfl <;> rfl

theorem Polled.absent {html : List UInt8} {stage : RenderStage} {step : RenderStep}
    (polled : Polled setup site html stage step after)
    (absent : setup.renderer.available = false) (free : 0 < site.free)
    (h : stage = .waiting ∨ stage = .dropped ∨ stage = .answered (.error .unavailable)) :
    after = .waiting ∨ after = .dropped ∨ after = .answered (.error .unavailable) := by
  have none_held := no_dir h
  cases polled with
  | refused _ unavailable => exact .inr (.inr (by rw [unavailable absent free]))
  | staged available => simp [absent] at available
  | started => cases none_held
  | produced => cases none_held
  | exited => cases none_held
  | shown => cases none_held
  | failed held =>
    have clash := none_held.symm.trans held
    cases clash
  | dropped => exact .inr (.inl rfl)

theorem CallsKept.advance (files : FilesKept site) (kept : CallsKept setup pages site)
    (h : setup.advance site e = some site') : CallsKept setup pages site' := by
  obtain ⟨task, after, free, -, there, step, permit, rfl⟩ := advance_cases h
  have polled := poll_polled step
  have member : task ∈ site.tasks := List.mem_of_getElem? there
  have new : (site.tasks.set e.index { task with stage := after })[e.index]? =
      some { task with stage := after } := getElem?_set_there _ there
  constructor
  · exact kept.permits.exchange there permit
  · have same : (site.tasks.set e.index { task with stage := after }).map RenderTask.html =
        site.tasks.map RenderTask.html := map_set_same there rfl
    exact same.trans kept.pages
  · refine forall_set kept.holds fun held => ?_
    rcases polled.held held with before | new
    · exact kept.holds task member before
    · exact new
  · intro run mem
    rcases List.mem_append.mp mem with old | started
    · obtain ⟨available, command, c, here, page, past⟩ := kept.runs run old
      refine ⟨available, command, ?_⟩
      by_cases index : run.index = e.index
      · rw [index] at here ⊢
        obtain rfl : task = c := Option.some.inj (there.symm.trans here)
        exact ⟨_, new, page, polled.begun past⟩
      · refine ⟨c, ?_, page, past⟩
        rw [List.getElem?_set_ne (Ne.symm index)]
        exact here
    · rcases startedRun_cases setup after e with nothing | ⟨dir, deadline, rfl, -, one⟩
      · rw [nothing] at started
        cases started
      · rw [one] at started
        obtain rfl := List.mem_singleton.mp started
        rcases polled.held rfl with before | ⟨available, page⟩
        · obtain ⟨available, page⟩ := kept.holds task member before
          exact ⟨available, ⟨dir, rfl⟩, _, new, page, rfl⟩
        · exact ⟨available, ⟨dir, rfl⟩, _, new, page, rfl⟩
  · rcases startedRun_cases setup after e with
      nothing | ⟨dir, deadline, rfl, ⟨ok, spawned, written⟩, one⟩
    · simp only [nothing, List.append_nil]
      exact kept.once
    · simp only [one, List.map_append, List.map_cons, List.map_nil]
      refine List.nodup_append.mpr ⟨kept.once, List.nodup_singleton _, ?_⟩
      intro index mem other here
      obtain rfl := List.mem_singleton.mp here
      rintro rfl
      obtain ⟨run, old, index⟩ := List.mem_map.mp mem
      obtain ⟨-, -, c, here, -, past⟩ := kept.runs run old
      rw [index] at here
      obtain rfl : task = c := Option.some.inj (there.symm.trans here)
      rw [written] at polled
      rw [polled.started_from] at past
      cases past
  · intro j c dom here answered
    rcases getElem?_set_cases here with ⟨rfl, rfl⟩ | ⟨-, here⟩
    · obtain rfl : after = .answered (.ok dom) := answered
      obtain ⟨dir, reading, file, some_dom, small⟩ := polled.answer
      have mine := files.dom e.index task dir dom there (by rw [RenderTask.dir?, reading]; rfl) file
      exact ⟨some_dom, small, List.mem_append_left _ mine⟩
    · obtain ⟨some_dom, small, mine⟩ := kept.answers j c dom here answered
      exact ⟨some_dom, small, List.mem_append_left _ mine⟩
  · intro absent
    exact forall_set (kept.absent absent)
      (polled.absent absent (kept.free_pos absent) (kept.absent absent task member))
  · intro absent
    have before := no_dir (kept.absent absent task member)
    have now := no_dir (polled.absent absent (kept.free_pos absent)
      (kept.absent absent task member))
    simp only [scratchAfter, RenderTask.dir?, before, now]
    exact kept.untouched absent

/-! Every run. -/

structure PoolSound (setup : RenderSetup) (pages : List (List UInt8)) (site : RenderSite) :
    Prop where
  dirs : DirsKept site
  files : FilesKept site
  calls : CallsKept setup pages site

theorem poolSound (setup : RenderSetup) (pages : List (List UInt8)) (events : List RenderEvent) :
    PoolSound setup pages (setup.run pages events) := by
  refine run_keeps (P := PoolSound setup pages) (fun site e site' sound h => ?_) ?_ events
  · exact ⟨sound.dirs.advance h, sound.files.advance sound.dirs h,
      sound.calls.advance sound.files h⟩
  · exact ⟨.start setup pages, .start setup pages, .start setup pages⟩

theorem CallsKept.running_le (kept : CallsKept setup pages site) :
    site.tasks.countP RenderTask.isRunning ≤ setup.maxConcurrent := by
  refine le_trans (List.countP_mono_left fun task _ running => ?_) kept.permits.held_le
  unfold RenderTask.isRunning at running
  split at running
  · rename_i stage
    simp only [RenderTask.holds, RenderTask.dir?, stage]
    rfl
  · cases running

/-- A call is sent away at once only while every permit is taken. -/
theorem CallsKept.refused_full (kept : CallsKept setup pages site)
    (h : setup.advance site e = some site') {refused : RenderTask}
    (there : site'.tasks[e.index]? = some refused)
    (answer : refused.stage = .answered (.error .atCapacity)) :
    site.tasks.countP RenderTask.holds = setup.maxConcurrent := by
  obtain ⟨task, after, free, -, here, step, -, rfl⟩ := advance_cases h
  have new := getElem?_set_there { task with stage := after } here
  obtain rfl := Option.some.inj (new.symm.trans there)
  obtain rfl : after = .answered (.error .atCapacity) := answer
  have balanced := kept.permits
  simp only [PoolBalanced] at balanced
  have polled := poll_polled step
  generalize task.stage = stage, e.step = step' at polled
  cases polled with
  | refused full =>
    have none_free := full rfl
    omega
  | failed _ other => exact absurd rfl other

/-- In every order of their steps, no more renderings wait for a harness than the pool permits, and
a call is sent away only while every permit is taken. The harness that detection found is started
once for a call, with the limits of the configuration, and finds the page of its call; where
detection found something missing none is started. The page a call is answered with was written by
its own harness and is within the limit. Every directory is that of one call, unless its removal
failed. -/
theorem renders_confined (host : RenderHost) (config : RendererConfig) (tempDir : String)
    (pid : Nat) (pages : List (List UInt8)) (events : List RenderEvent) :
    let renderer := ChromiumRenderer.detect host config
    let setup := RenderSetup.new renderer config.maxBrowserCalls.toNat tempDir pid
    let site := setup.run pages events
    (site.tasks.countP RenderTask.isRunning ≤ max config.maxBrowserCalls.toNat 1 ∧
      ∀ (e : RenderEvent) (site' : RenderSite) (refused : RenderTask),
        setup.advance site e = some site' → site'.tasks[e.index]? = some refused →
        refused.stage = .answered (.error .atCapacity) →
        site.tasks.countP RenderTask.holds = max config.maxBrowserCalls.toNat 1) ∧
    ((site.runs.map HarnessRun.index).Nodup ∧
      (∀ run ∈ site.runs, Isolated host config run.command.program ∧
        (∃ dir, run.command = renderer.command dir) ∧
        ∃ page, pages[run.index]? = some page ∧ page ≠ []) ∧
      ((∃ sandbox, Isolated host config sandbox) ∨ site.runs = [] ∧ site.scratch = [] ∧
        ∀ task ∈ site.tasks, task.stage = .waiting ∨ task.stage = .dropped ∨
          task.stage = .answered (.error .unavailable))) ∧
    (∀ (j : Nat) (task : RenderTask), site.tasks[j]? = some task →
      (∀ dir, task.dir? = some dir → task.stage.staged = true →
        inputFile site.scratch dir = pages[j]?) ∧
      ∀ dom, task.stage = .answered (.ok dom) →
        dom ≠ [] ∧ dom.length ≤ config.maxDomBytes.toNat ∧ (j, dom) ∈ site.produced) ∧
    DirsKept site := by
  intro renderer setup site
  have sound := poolSound setup pages events
  have page : ∀ {j : Nat} {task : RenderTask}, site.tasks[j]? = some task →
      pages[j]? = some task.html := by
    intro j task there
    rw [← sound.calls.pages, List.getElem?_map, there]
    rfl
  refine ⟨⟨sound.calls.running_le, fun e site' refused h there answer =>
    sound.calls.refused_full h there answer⟩, ⟨sound.calls.once, ?_, ?_⟩, ?_, sound.dirs⟩
  · intro run mem
    obtain ⟨available, ⟨dir, command⟩, task, here, some_page, -⟩ := sound.calls.runs run mem
    refine ⟨?_, ⟨dir, command⟩, task.html, page here, some_page⟩
    rw [command]
    exact (detect_available host config).mp available
  · by_cases available : renderer.available = true
    · exact .inl ⟨_, (detect_available host config).mp available⟩
    · have absent : setup.renderer.available = false := Bool.eq_false_iff.mpr available
      refine .inr ⟨?_, sound.calls.untouched absent, sound.calls.absent absent⟩
      refine List.eq_nil_iff_forall_not_mem.mpr fun run mem => ?_
      exact available (sound.calls.runs run mem).1
  · intro j task there
    refine ⟨fun dir held staged => ?_, fun dom answered => ?_⟩
    · rw [sound.files.input j task dir there held staged, page there]
    · obtain ⟨some_dom, small, mine⟩ := sound.calls.answers j task dom there answered
      refine ⟨some_dom, ?_, mine⟩
      rw [← (detect_limits host config).2.2.2]
      exact small

end RenderSetup

end Amatl
