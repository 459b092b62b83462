import Amatl.Config.Deep
import Amatl.RoundSchedule

/-! Pages rendered by Chromium: what a renderer finds on its host, the pool in front of it, and
the renderings under way beside each other, each with a directory and a harness of its own. What the
harness started in the sandbox is not followed when a call is dropped. -/

namespace Amatl

open Interleaving

/-! Detection. -/

/-- The host as detection sees it; `path` are the directories of `PATH`. -/
structure RenderHost where
  linux : Bool
  isFile : String → Bool
  path : Option (List String)
  chromiumBin : Option String

def joinPath (directory name : String) : String :=
  if directory.toList = [] then name
  else if directory.toList.getLast? = some '/' then directory ++ name
  else directory ++ "/" ++ name

/-- A name with a separator in it, an absolute one among them, is taken as it is. -/
def RenderHost.resolveExecutable (host : RenderHost) (name : String) : Option String :=
  if '/' ∈ name.toList then if host.isFile name then some name else none
  else host.path.bind fun paths =>
    (paths.map fun directory => joinPath directory name).find? host.isFile

structure ChromiumRenderer where
  available : Bool
  reason : String
  sandbox : String
  timeoutMs : UInt64
  shutdownGraceMs : UInt64
  maxMemoryMb : UInt64
  maxDomBytes : UInt64

namespace ChromiumRenderer

def unavailable (config : RendererConfig) (reason : String) : ChromiumRenderer where
  available := false
  reason
  sandbox := ""
  timeoutMs := config.timeoutMs
  shutdownGraceMs := config.shutdownGraceMs
  maxMemoryMb := config.maxMemoryMb
  maxDomBytes := config.maxDomBytes

def isolationTools : List String := ["bwrap", "systemd-run"]

def chromiumNames : List String := ["chromium", "chromium-browser", "google-chrome"]

def detect (host : RenderHost) (config : RendererConfig) : ChromiumRenderer :=
  if !config.enabled then unavailable config "disabled by default"
  else if !host.linux then unavailable config "the isolation harness requires Linux"
  else match host.resolveExecutable config.sandboxPath with
    | none => unavailable config ("isolation harness not found: " ++ config.sandboxPath)
    | some sandbox =>
      match isolationTools.find? fun tool => (host.resolveExecutable tool).isNone with
      | some tool => unavailable config ("required isolation tool is unavailable: " ++ tool)
      | none =>
        if !(chromiumNames.any fun name => (host.resolveExecutable name).isSome) &&
            host.chromiumBin.isNone then
          unavailable config "Chromium executable is unavailable"
        else
          { unavailable config "" with available := true, sandbox }

end ChromiumRenderer

/-- What must be there before a page is handed to Chromium. -/
structure Isolated (host : RenderHost) (config : RendererConfig) (sandbox : String) : Prop where
  enabled : config.enabled = true
  linux : host.linux = true
  harness : host.resolveExecutable config.sandboxPath = some sandbox
  tools : ∀ tool ∈ ChromiumRenderer.isolationTools, (host.resolveExecutable tool).isSome = true
  chromium : (∃ name ∈ ChromiumRenderer.chromiumNames,
    (host.resolveExecutable name).isSome = true) ∨ host.chromiumBin.isSome = true

theorem detect_limits (host : RenderHost) (config : RendererConfig) :
    let renderer := ChromiumRenderer.detect host config
    renderer.timeoutMs = config.timeoutMs ∧ renderer.shutdownGraceMs = config.shutdownGraceMs ∧
      renderer.maxMemoryMb = config.maxMemoryMb ∧ renderer.maxDomBytes = config.maxDomBytes := by
  simp only [ChromiumRenderer.detect]
  split
  · exact ⟨rfl, rfl, rfl, rfl⟩
  · split
    · exact ⟨rfl, rfl, rfl, rfl⟩
    · split
      · exact ⟨rfl, rfl, rfl, rfl⟩
      · split
        · exact ⟨rfl, rfl, rfl, rfl⟩
        · split <;> exact ⟨rfl, rfl, rfl, rfl⟩

/-- A renderer is there exactly where its page would run confined. -/
theorem detect_available (host : RenderHost) (config : RendererConfig) :
    (ChromiumRenderer.detect host config).available = true ↔
      Isolated host config (ChromiumRenderer.detect host config).sandbox := by
  constructor
  · intro available
    simp only [ChromiumRenderer.detect] at available ⊢
    split at available
    · cases available
    · rename_i enabled
      split at available
      · cases available
      · rename_i linux
        split at available
        · cases available
        · rename_i sandbox harness
          split at available
          · cases available
          · rename_i tools
            split at available
            · cases available
            · rename_i chromium
              rw [if_neg enabled, if_neg linux, if_neg chromium]
              refine ⟨by simpa using enabled, by simpa using linux, harness, ?_, ?_⟩
              · intro tool mem
                have found := List.find?_eq_none.mp tools tool mem
                cases there : host.resolveExecutable tool with
                | none => simp [there] at found
                | some _ => rfl
              · by_cases named : ∃ name ∈ ChromiumRenderer.chromiumNames,
                    (host.resolveExecutable name).isSome = true
                · exact .inl named
                · have none_named : (ChromiumRenderer.chromiumNames.any fun name =>
                      (host.resolveExecutable name).isSome) = false := by
                    rw [← Bool.not_eq_true, List.any_eq_true]
                    exact named
                  refine .inr ?_
                  cases bin : host.chromiumBin with
                  | none => simp [none_named, bin] at chromium
                  | some _ => rfl
  · intro isolated
    generalize (ChromiumRenderer.detect host config).sandbox = sandbox at isolated
    have tools : ChromiumRenderer.isolationTools.find?
        (fun tool => (host.resolveExecutable tool).isNone) = none := by
      rw [List.find?_eq_none]
      intro tool mem
      have there := isolated.tools tool mem
      cases found : host.resolveExecutable tool with
      | none => simp [found] at there
      | some _ => simp
    have chromium : ¬ (!(ChromiumRenderer.chromiumNames.any fun name =>
        (host.resolveExecutable name).isSome) && host.chromiumBin.isNone) = true := by
      rcases isolated.chromium with ⟨name, mem, there⟩ | bin
      · have named : (ChromiumRenderer.chromiumNames.any fun name =>
            (host.resolveExecutable name).isSome) = true := List.any_eq_true.mpr ⟨name, mem, there⟩
        simp [named]
      · cases there : host.chromiumBin with
        | none => simp [there] at bin
        | some _ => simp
    simp only [ChromiumRenderer.detect, isolated.enabled, isolated.linux, isolated.harness, tools,
      if_neg chromium, Bool.not_true, Bool.false_eq_true, if_false]

/-! One rendering. -/

structure HarnessCommand where
  program : String
  args : List String
  env : List (String × String)
  deriving DecidableEq

namespace ChromiumRenderer

/-- `div_ceil` to whole seconds, and at least one. -/
def harnessTimeoutSecs (renderer : ChromiumRenderer) : Nat :=
  max ((renderer.timeoutMs.toNat + 999) / 1000) 1

def command (renderer : ChromiumRenderer) (workspace : String) : HarnessCommand where
  program := renderer.sandbox
  args := [joinPath workspace "input.html", joinPath workspace "dom.html",
    toString renderer.harnessTimeoutSecs]
  env := [("AMATL_CHROMIUM_MEMORY_MB", toString renderer.maxMemoryMb),
    ("AMATL_CHROMIUM_MAX_DOM_BYTES", toString renderer.maxDomBytes)]

def deadlineMs (renderer : ChromiumRenderer) : UInt64 :=
  saturated (renderer.timeoutMs.toNat + renderer.shutdownGraceMs.toNat)

end ChromiumRenderer

/-- Between two polls. From `staging` on the call has a permit and a directory, and where it is
`running` it waits for its harness. -/
inductive RenderStage where
  | waiting
  | staging (dir : String)
  | running (dir : String) (deadline : Nat)
  | reading (dir : String)
  | answered (answer : Except RenderError (List UInt8))
  | dropped

def RenderStage.dir? : RenderStage → Option String
  | .staging dir | .running dir _ | .reading dir => some dir
  | _ => none

/-- The page has been written. -/
def RenderStage.staged : RenderStage → Bool
  | .running _ _ | .reading _ => true
  | _ => false

structure RenderTask where
  html : List UInt8
  stage : RenderStage

namespace RenderTask

def dir? (task : RenderTask) : Option String := task.stage.dir?

def holds (task : RenderTask) : Bool := task.dir?.isSome

/-- The call waits for its harness. -/
def isRunning (task : RenderTask) : Bool :=
  match task.stage with
  | .running _ _ => true
  | _ => false

end RenderTask

/-- The directory of a rendering and its two files. -/
structure Scratch where
  path : String
  input : Option (List UInt8)
  dom : Option (List UInt8)

/-- How a harness ended: with a code, by a signal, or unknown to the one who waited. -/
inductive HarnessEnd where
  | exited (code : Nat) | signalled | lost

inductive RenderStep where
  | call (nanos : Option Nat) (created : Bool)
  | written (ok spawned : Bool)
  | produce (dom : List UInt8)
  | finish (ended : HarnessEnd)
  | expire
  | read (ok : Bool)
  | drop

/-- The drop of a directory ignores a failure: `removed` says whether it is gone. -/
structure RenderEvent where
  now : Nat
  index : Nat
  step : RenderStep
  removed : Bool

/-- The pool and the process that it is part of. -/
structure RenderSetup where
  renderer : ChromiumRenderer
  maxConcurrent : Nat
  positive : 0 < maxConcurrent
  tempDir : String
  pid : Nat

structure HarnessRun where
  index : Nat
  command : HarnessCommand

/-- `leftover` are the directories whose removal failed. The harnesses that were started and
what they wrote is recorded with the call it was for. -/
structure RenderSite where
  clock : Nat
  free : Nat
  tasks : List RenderTask
  scratch : List Scratch
  leftover : List String
  runs : List HarnessRun
  produced : List (Nat × List UInt8)

namespace RenderSetup

theorem max_one_pos (n : Nat) : 0 < max n 1 := by omega

def new (renderer : ChromiumRenderer) (maxConcurrent : Nat) (tempDir : String) (pid : Nat) :
    RenderSetup where
  renderer
  maxConcurrent := max maxConcurrent 1
  positive := max_one_pos maxConcurrent
  tempDir
  pid

def scratchPath (setup : RenderSetup) (nanos : Nat) : String :=
  joinPath setup.tempDir ("amatl-render-" ++ toString setup.pid ++ "-" ++ toString nanos)

/-- `ScratchDirectory::create` after the permit and the checks of `render`. -/
def beginRender (setup : RenderSetup) (site : RenderSite) (html : List UInt8)
    (nanos : Option Nat) (created : Bool) : RenderStage :=
  if site.free = 0 then .answered (.error .atCapacity)
  else if !setup.renderer.available then .answered (.error .unavailable)
  else if html = [] then .answered (.error .failed)
  else match nanos with
    | none => .answered (.error .failed)
    | some nanos =>
      if created && !(site.scratch.map Scratch.path).contains (setup.scratchPath nanos) then
        .staging (setup.scratchPath nanos)
      else .answered (.error .failed)

def harnessResult (dir : String) : HarnessEnd → RenderStage
  | .exited 0 => .reading dir
  | .exited 69 => .answered (.error .unavailable)
  | _ => .answered (.error .failed)

def domResult (setup : RenderSetup) (dom : Option (List UInt8)) :
    Except RenderError (List UInt8) :=
  match dom with
  | none => .error .failed
  | some bytes =>
    if bytes = [] ∨ setup.renderer.maxDomBytes.toNat < bytes.length then .error .blocked
    else .ok bytes

def domFile (scratch : List Scratch) (dir : String) : Option (List UInt8) :=
  (scratch.find? fun s => s.path == dir).bind Scratch.dom

def inputFile (scratch : List Scratch) (dir : String) : Option (List UInt8) :=
  (scratch.find? fun s => s.path == dir).bind Scratch.input

/-- The stage after a poll that gets a call further. -/
def poll (setup : RenderSetup) (site : RenderSite) (now : Nat) (task : RenderTask) :
    RenderStep → Option RenderStage
  | .call nanos created =>
    match task.stage with
    | .waiting => some (setup.beginRender site task.html nanos created)
    | _ => none
  | .written ok spawned =>
    match task.stage with
    | .staging dir =>
      if ok && spawned then some (.running dir (now + millis setup.renderer.deadlineMs))
      else some (.answered (.error .failed))
    | _ => none
  | .produce _ =>
    match task.stage with
    | .running dir deadline => some (.running dir deadline)
    | _ => none
  | .finish ended =>
    match task.stage with
    | .running dir _ => some (harnessResult dir ended)
    | _ => none
  | .expire =>
    match task.stage with
    | .running _ deadline =>
      if deadline ≤ now then some (.answered (.error .timeout)) else none
    | _ => none
  | .read ok =>
    match task.stage with
    | .reading dir =>
      if ok then some (.answered (setup.domResult (domFile site.scratch dir)))
      else some (.answered (.error .failed))
    | _ => none
  | .drop =>
    match task.stage with
    | .answered _ | .dropped => none
    | _ => some .dropped

/-- The directories after a call went from one stage to the next. -/
def scratchAfter (scratch : List Scratch) (task : RenderTask) (after : RenderStage)
    (e : RenderEvent) : List Scratch :=
  match task.dir?, after.dir? with
  | none, some dir => scratch ++ [⟨dir, none, none⟩]
  | some dir, none => if e.removed then scratch.filter fun s => s.path != dir else scratch
  | some dir, some _ =>
    match e.step with
    | .written _ _ =>
      scratch.map fun s => if s.path = dir then { s with input := some task.html } else s
    | .produce dom => scratch.map fun s => if s.path = dir then { s with dom := some dom } else s
    | _ => scratch
  | none, none => scratch

def leftBehind (task : RenderTask) (after : RenderStage) (e : RenderEvent) : List String :=
  match task.dir?, after.dir? with
  | some dir, none => if e.removed then [] else [dir]
  | _, _ => []

def startedRun (setup : RenderSetup) (after : RenderStage) (e : RenderEvent) : List HarnessRun :=
  match e.step, after with
  | .written _ _, .running dir _ => [⟨e.index, setup.renderer.command dir⟩]
  | _, _ => []

def written (e : RenderEvent) : List (Nat × List UInt8) :=
  match e.step with
  | .produce dom => [(e.index, dom)]
  | _ => []

def start (setup : RenderSetup) (pages : List (List UInt8)) : RenderSite where
  clock := 0
  free := setup.maxConcurrent
  tasks := pages.map fun html => ⟨html, .waiting⟩
  scratch := []
  leftover := []
  runs := []
  produced := []

def advance (setup : RenderSetup) (site : RenderSite) (e : RenderEvent) : Option RenderSite :=
  if e.now < site.clock then none
  else
    (site.tasks[e.index]?).bind fun task =>
    (setup.poll site e.now task e.step).bind fun after =>
    (exchange site.free task.holds after.dir?.isSome).map fun free =>
      { clock := e.now
        free
        tasks := site.tasks.set e.index { task with stage := after }
        scratch := scratchAfter site.scratch task after e
        leftover := site.leftover ++ leftBehind task after e
        runs := site.runs ++ setup.startedRun after e
        produced := site.produced ++ written e }

def run (setup : RenderSetup) (pages : List (List UInt8)) (events : List RenderEvent) :
    RenderSite :=
  Interleaving.run setup.advance (setup.start pages) events

end RenderSetup

end Amatl
