import Scaffold.Command
import Scaffold.CommandLine.Argument

/-!
The command line: what its arguments ask for, and what the program prints. A command runs on a tree
of files whose current directory is the one the user is in.

| here | in the program |
| --- | --- |
| `Invocation` | `Cli` and `Command` |
| `programGrammar`, `ofCommand` | the fields of both, as the argument parser reads them |
| `logFile` | `LOG_FILE` |
| `report` | `print_diagnostics` |
| `run`, `outcome` | `main` and `build` |
-/

/-! ## What the program says of its own use -/

namespace Scaffold.CommandLine.Usage

open Sample (configFile)

/-- The whole program. -/
def program : String := Text.unlines
  ["Compile jssp sources into projects for many platforms",
    "",
    "Usage: coders [OPTIONS] <COMMAND>",
    "",
    "Commands:",
    "  build  Generate every configured project, or only the one given with -p",
    "  check  Parse, resolve and lower without generating",
    "  init   Write a sample configuration and sources",
    "  help   Print this message or the help of the given subcommand(s)",
    "",
    "Options:",
    "  -v, --verbose  Log progress to the console",
    "  -h, --help     Print help",
    "  -V, --version  Print version"]

/-- The command that builds, in short. -/
def build : String := Text.unlines
  ["Generate every configured project, or only the one given with -p",
    "",
    "Usage: coders build [OPTIONS]",
    "",
    "Options:",
    s!"  -c, --config <CONFIG>    [default: {configFile}]",
    "  -v, --verbose            Log progress to the console",
    "  -p, --project <PROJECT>  Project id to build",
    "  -e, --engine <ENGINE>    Generation engine [possible values: internal, llm]",
    "      --overwrite          Replace existing files coders did not write",
    "  -h, --help               Print help (see more with '--help')"]

/-- The command that builds, at length. -/
def buildAtLength : String := Text.unlines
  ["Generate every configured project, or only the one given with -p",
    "",
    "Usage: coders build [OPTIONS]",
    "",
    "Options:",
    "  -c, --config <CONFIG>",
    s!"          [default: {configFile}]",
    "",
    "  -v, --verbose",
    "          Log progress to the console",
    "",
    "  -p, --project <PROJECT>",
    "          Project id to build",
    "",
    "  -e, --engine <ENGINE>",
    "          Generation engine",
    "",
    "          Possible values:",
    "          - internal: Deterministic template generators",
    "          - llm:      Prompt builder plus external generation service",
    "",
    "      --overwrite",
    "          Replace existing files coders did not write",
    "",
    "  -h, --help",
    "          Print help (see a summary with '-h')"]

/-- The command that checks. -/
def check : String := Text.unlines
  ["Parse, resolve and lower without generating",
    "",
    "Usage: coders check [OPTIONS] [FILE]",
    "",
    "Arguments:",
    "  [FILE]  Source file; defaults to the configured entries",
    "",
    "Options:",
    s!"  -c, --config <CONFIG>  [default: {configFile}]",
    "  -v, --verbose          Log progress to the console",
    "  -h, --help             Print help"]

/-- The command that starts a sample project. -/
def start : String := Text.unlines
  ["Write a sample configuration and sources",
    "",
    "Usage: coders init [OPTIONS] [DIR]",
    "",
    "Arguments:",
    "  [DIR]  [default: .]",
    "",
    "Options:",
    "      --force    ",
    "  -v, --verbose  Log progress to the console",
    "  -h, --help     Print help"]

/-- The command that explains the others. -/
def help : String := Text.unlines
  ["Print this message or the help of the given subcommand(s)",
    "",
    "Usage: coders help [COMMAND]...",
    "",
    "Arguments:",
    "  [COMMAND]...  Print help for the subcommand(s)"]

end Scaffold.CommandLine.Usage

namespace Scaffold

/-- What the arguments ask for. -/
inductive Invocation where
  | build (options : BuildOptions)
  | check (config : Path) (file : Option Path)
  | start (dir : Path) (force : Bool)
  /-- A text about the program itself. -/
  | explain (text : String)
  /-- The arguments cannot be used. -/
  | refuse
  deriving Inhabited

namespace CommandLine

/-! ## Arguments -/

/-- Logging to the console, which stands before or after the command. -/
def verbose : Opt :=
  { letter := some 'v', name := "verbose", role := .switch }

def helpOption : Opt :=
  { letter := some 'h', name := "help", role := .help }

def configOption : Opt :=
  { letter := some 'c', name := "config", role := .value (· != "") }

/-- An engine by its name. -/
def engine? : String → Option Engine
  | "internal" => some .builtin
  | "llm" => some .service
  | _ => none

def programGrammar : Grammar :=
  { options := [verbose, helpOption, { letter := some 'V', name := "version", role := .version }] }

/-- What follows `build`. -/
def buildGrammar : Grammar :=
  { options :=
      [configOption,
        { letter := some 'p', name := "project", role := .value fun _ => true },
        { letter := some 'e', name := "engine", role := .value fun s => (engine? s).isSome },
        { name := "overwrite", role := .switch }, verbose, helpOption] }

/-- What follows `check`. -/
def checkGrammar : Grammar :=
  { options := [configOption, verbose, helpOption], operands := 1 }

/-- What follows `init`. -/
def startGrammar : Grammar :=
  { options := [{ name := "force", role := .switch }, verbose, helpOption], operands := 1 }

/-- The configuration file that was named, else the usual one. -/
def configPath (g : Given) : Path :=
  ⟨(g.value? "config").getD Sample.configFile⟩

/-- What `help` explains: the program, or the command that is named. -/
def explained : List String → Invocation
  | [] => .explain Usage.program
  | ["build"] => .explain Usage.buildAtLength
  | ["check"] => .explain Usage.check
  | ["init"] => .explain Usage.start
  | ["help"] => .explain Usage.help
  | _ => .refuse

/-- The invocation that reading arguments ends with. -/
def settle (usage : (atLength : Bool) → String) : Except Stop Invocation → Invocation
  | .ok invocation => invocation
  | .error .refused => .refuse
  | .error (.help atLength) => .explain (usage atLength)
  | .error .version => .explain s!"coders {version}\n"

/-- What the arguments after the name of a command ask for. -/
def ofCommand (name : String) (args : List String) : Invocation :=
  match name with
  | "build" =>
    settle (fun atLength => if atLength then Usage.buildAtLength else Usage.build) do
      let g ← buildGrammar.read args
      return .build {
        config := configPath g, project := g.value? "project"
        engine := (g.value? "engine").bind engine?, overwrite := g.has "overwrite" }
  | "check" =>
    settle (fun _ => Usage.check) do
      let g ← checkGrammar.read args
      return .check (configPath g) (g.operands.head?.map (⟨·⟩))
  | "init" =>
    settle (fun _ => Usage.start) do
      let g ← startGrammar.read args
      return .start ⟨g.operands.head?.getD "."⟩ (g.has "force")
  | "help" => explained args
  | _ => .refuse

end CommandLine

/-- What arguments ask for. -/
def Invocation.ofArgs (args : List String) : Invocation :=
  CommandLine.settle (fun _ => CommandLine.Usage.program) do
    let (name, rest) ← CommandLine.programGrammar.readCommand args {}
    return CommandLine.ofCommand name rest

/-! ## Running -/

/-- What a command leaves on the console. -/
structure Printed where
  /-- The exit code: 0 for success, 1 for failure, 2 for arguments that cannot be used. -/
  code : Nat := 0
  out : String := ""
  err : String := ""
  deriving DecidableEq, Inhabited

namespace Printed

def say (p : Printed) (line : String) : Printed :=
  { p with out := p.out ++ line ++ "\n" }

def report (p : Printed) (ds : Diagnostics) : Printed :=
  { p with err := p.err ++ Text.unlines (ds.map (·.text)) }

def failed (p : Printed) : Printed :=
  { p with code := 1 }

def ofError (e : BuildError) : Printed :=
  (({} : Printed).report [e.toDiagnostic]).failed

/-- How a project went. -/
def outcome (p : Printed) (o : ProjectOutcome) : Printed :=
  let p := p.report o.report.diagnostics
  let head := s!"{o.project} ({o.platform.key}): "
  if o.report.succeeded then
    p.say (head ++
      s!"{o.report.generated.length} file(s) written, {o.report.skipped.length} skipped")
  else
    let errors := Diagnostics.errorCount o.report.diagnostics
    (p.say (head ++ s!"failed at {o.report.stage.name} with {errors} error(s)")).failed

/-- How a check went. -/
def ofCheck (ds : Diagnostics) : Printed :=
  let p := ({} : Printed).report ds
  let errors := Diagnostics.errorCount ds
  if 0 < errors then (p.say s!"check failed with {errors} error(s)").failed
  else p.say "check passed"

def ofStart (written : List Path) : Printed :=
  written.foldl (fun p path => p.say s!"created {path.text}") {}

end Printed

namespace Invocation

/-- The file that a build logs to, in the current directory. -/
def logFile : Path := ⟨"log.txt"⟩

/-- The tree with an empty log; where none can be made, there is none. -/
def withLog (tree : FileTree) : FileTree :=
  (tree.write logFile "").toOption.getD tree

/-- Runs a command that nobody cancels. Only builds keep a log. -/
def run (machine : Machine) (tree : FileTree) : Invocation → Printed × FileTree
  | .build options =>
    match Scaffold.build options machine (fun _ => false) (withLog tree) with
    | (.error e, tree) => (.ofError e, tree)
    | (.ok outcomes, tree) => (outcomes.foldl Printed.outcome {}, tree)
  | .check config file =>
    match Scaffold.check config file machine tree with
    | .error e => (.ofError e, tree)
    | .ok ds => (.ofCheck ds, tree)
  | .start dir force =>
    match Scaffold.start dir force tree with
    | (.error e, tree) => (.ofError e, tree)
    | (.ok written, tree) => (.ofStart written, tree)
  | .explain text => ({ out := text }, tree)
  | .refuse => ({ code := 2, err := CommandLine.Usage.program }, tree)

end Invocation

end Scaffold
