import Scaffold.Compiler
import Scaffold.Lowering
import Scaffold.Output
import Scaffold.Platform
import Scaffold.Prompt
import Scaffold.Target.CSharp
import Scaffold.Target.Cpp
import Scaffold.Target.Dart
import Scaffold.Target.Go
import Scaffold.Target.Java
import Scaffold.Target.JavaScript
import Scaffold.Target.Kotlin
import Scaffold.Target.Python
import Scaffold.Target.Rust
import Scaffold.Target.Web

/-!
One build: the sources are parsed and resolved, lowered to the code model, turned into files, and
written. A build can be cancelled between stages; a stage that has begun always ends.

| here | in the program |
| --- | --- |
| `CodeModel.generate` | `generate` of each generator in the `Registry` |
| `BuildStage.next?`, `isTerminal`, `canEnter` | `next`, `is_terminal`, `can_enter` |
| `BuildReport.enter`, `fail` | `enter`, `fail` of `Build` |
| `advance` | `checkpoint`, then `enter` |
| `makeFiles` | `render` of `TemplateRenderer` and of `PromptRenderer` |
| `stages` | `stages` of `Pipeline` |
| `BuildRequest.run` | `run` of `Pipeline` |
-/

/-! ## The files of a project, made by the generator of its platform -/

namespace Scaffold

/-- The files of a project for a platform, in the order they are made. -/
def CodeModel.generate (m : CodeModel) (p : Project) : Platform → List GeneratedFile
  | .cpp => Target.Cpp.client m p
  | .cppServer => Target.Cpp.server m p
  | .java | .coders => Target.Java.client m p
  | .springBoot => Target.Java.springBoot m p
  | .kotlin => Target.Kotlin.client m p
  | .cSharp => Target.CSharp.client m p
  | .aspNet => Target.CSharp.aspNet m p
  | .go => Target.Go.client m p
  | .gin => Target.Go.gin m p
  | .rust => Target.Rust.client m p
  | .axum => Target.Rust.axum m p
  | .python => Target.Python.client m p
  | .fastApi => Target.Python.fastApi m p
  | .javaScript => Target.JavaScript.client false m p
  | .typeScript => Target.JavaScript.client true m p
  | .express => Target.JavaScript.express m p
  | .dart => Target.Dart.client m p
  | .flutter => Target.Dart.flutter m p
  | .vueJs => Target.Web.vue m p
  | .react => Target.Web.react m p

end Scaffold

/-! ## Stages

The stages of a build. A build only moves forward, one stage at a time, or fails.
-/

namespace Scaffold

/-- How far a build has come. -/
inductive BuildStage where
  | idle
  | parsing
  | resolving
  | lowering
  | generating
  | writing
  | done
  | failed
  deriving DecidableEq, Inhabited

namespace BuildStage

def all : List BuildStage :=
  [.idle, .parsing, .resolving, .lowering, .generating, .writing, .done, .failed]

/-- The name of a stage. -/
def name : BuildStage → String
  | .idle => "Idle"
  | .parsing => "Parsing"
  | .resolving => "Resolving"
  | .lowering => "Lowering"
  | .generating => "Generating"
  | .writing => "Writing"
  | .done => "Done"
  | .failed => "Failed"

/-- The stage after this one, if all goes well. -/
def next? : BuildStage → Option BuildStage
  | .idle => some .parsing
  | .parsing => some .resolving
  | .resolving => some .lowering
  | .lowering => some .generating
  | .generating => some .writing
  | .writing => some .done
  | .done | .failed => none

def isTerminal (s : BuildStage) : Bool :=
  s.next?.isNone

/-- A build at stage `s` may enter stage `t`: the next stage, or failure. -/
def canEnter (s t : BuildStage) : Bool :=
  !s.isTerminal && (t == .failed || s.next? == some t)

end BuildStage

/-! ## Builds -/

/-- What is to be built. -/
structure BuildRequest where
  entry : Path
  builtinRoots : List Path := []
  platform : Platform
  engine : Engine := .builtin
  project : Project
  overwrite : Bool := false
  deriving Inhabited

/-- How a build went. -/
structure BuildReport where
  /-- The stage at the end. -/
  stage : BuildStage := .idle
  /-- The stages entered, in order. -/
  entered : List BuildStage := []
  generated : List Path := []
  skipped : List Path := []
  diagnostics : Diagnostics := []
  /-- The prompts that were sent to the generation service. -/
  asked : List String := []
  deriving Inhabited

namespace BuildReport

def succeeded (r : BuildReport) : Bool :=
  r.stage == .done

def enter (r : BuildReport) (stage : BuildStage) : BuildReport :=
  { r with stage, entered := r.entered ++ [stage] }

def fail (r : BuildReport) (e : BuildError) : BuildReport :=
  { r with diagnostics := r.diagnostics ++ [e.toDiagnostic] }.enter .failed

end BuildReport

/-- The prompts that are sent: all of them, or those up to the first that fails. -/
def Prompt.sent (service : GenerationService) : List Prompt → List Prompt
  | [] => []
  | p :: rest => p :: match p.answer service with
    | .ok _ => sent service rest
    | .error _ => []

/-- A build: it stops with an error or goes on, and in both cases its report and the files so far
are kept. -/
abbrev BuildM := ExceptT BuildError (StateM (BuildReport × FileTree))

namespace BuildM

def modifyReport (f : BuildReport → BuildReport) : BuildM Unit :=
  modify fun (r, tree) => (f r, tree)

/-- Enters a stage, unless the build was cancelled before it. -/
def advance (cancelled : BuildStage → Bool) (stage : BuildStage) : BuildM Unit := do
  if cancelled stage then throw .cancelled
  modifyReport (·.enter stage)

/-- Stops if an error was reported. -/
def stopOnErrors : BuildM Unit := do
  let (r, _) ← get
  if Diagnostics.hasErrors r.diagnostics then
    throw (.failed (Diagnostics.errorCount r.diagnostics))

/-- The result of compiling or lowering, whose session now holds all problems. -/
def settle {α : Type} (result : Except CompileError α × Session) : BuildM (α × Session) := do
  modifyReport fun r => { r with diagnostics := result.2.diagnostics }
  match result.1 with
  | .ok a => return (a, result.2)
  | .error e => throw (.compile e)

/-- The files of a model, from the engine that was asked for. -/
def makeFiles (r : BuildRequest) (service : Option GenerationService) (m : CodeModel) :
    BuildM (List GeneratedFile) :=
  match r.engine, service with
  | .builtin, _ => return m.generate r.project r.platform
  | .service, none => throw (.service (.unavailable "no generation service configured"))
  | .service, some service => do
    let sent := Prompt.sent service (m.prompts r.platform r.project)
    modifyReport fun report => { report with asked := sent.map (·.id) }
    match m.request r.platform r.project service with
    | .ok files => return files
    | .error e => throw (.service e)

/-- Writes files and reports what happened to them. -/
def writeOut (o : Output) (files : List GeneratedFile) : BuildM Unit := do
  let (r, tree) ← get
  match o.write files tree with
  | (.error e, tree) =>
    set (r, tree)
    throw e
  | (.ok w, tree) =>
    set ({ r with
      diagnostics := r.diagnostics ++ w.diagnostics, generated := w.written, skipped := w.skipped },
      tree)

/-- All stages of a build. -/
def stages (r : BuildRequest) (service : Option GenerationService)
    (cancelled : BuildStage → Bool) : BuildM Unit := do
  advance cancelled .parsing
  let (_, tree) ← get
  let start : Session := { platform := some r.platform }
  let (_, session) ← settle (start.compileFile tree r.entry r.builtinRoots)
  advance cancelled .resolving
  stopOnErrors
  advance cancelled .lowering
  let (model, _) ← settle session.lower
  stopOnErrors
  advance cancelled .generating
  let files ← makeFiles r service model
  advance cancelled .writing
  writeOut { root := r.project.outPath, platform := r.platform, overwrite := r.overwrite } files
  modifyReport (·.enter .done)

end BuildM

/-- Runs a build to its end. `cancelled` says before which stages the build finds itself
cancelled. -/
def BuildRequest.run (r : BuildRequest) (service : Option GenerationService)
    (cancelled : BuildStage → Bool) (tree : FileTree) : BuildReport × FileTree :=
  match (BuildM.stages r service cancelled).run.run ({}, tree) with
  | (.ok (), (report, tree)) => (report, tree)
  | (.error e, (report, tree)) => (report.fail e, tree)

end Scaffold
