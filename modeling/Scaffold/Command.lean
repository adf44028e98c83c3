import Scaffold.Build
import Scaffold.Code

/-!
What the program does for its user: build the configured projects, check sources, and start a sample
project. Commands run on a tree of files and give the changed tree.

| here | in the program |
| --- | --- |
| `config`, `server`, `client` | `SAMPLE_CONFIG`, `SAMPLE_SERVER`, `SAMPLE_MAIN` |
| `Config.requests`, `distinctOutPaths` | `requests`, `distinct_out_paths` |
| `Config.generationService` | `generation_service` |
| `build`, `checkFile`, `check` | `build`, `check_file`, `check` |
| `start` | `init` |
-/

/-! ## The sample project

What a new directory starts with: a configuration, a client program and a server.
-/

namespace Scaffold.Sample

def configFile : String := "coders.yaml"

/-- The configuration. -/
def config : String := Text.unlines
  ["# coders build configuration",
    "entry: main.jssp",
    "projects:",
    "  - projectId: server",
    "    name: Server",
    "    platform: springboot",
    "    entry: springboot.jssp",
    "    outPath: out/server",
    "    options:",
    "      package: com.example.server",
    "  - projectId: client",
    "    name: Client",
    "    platform: typescript",
    "    outPath: out/client"]

/-- The server's source. -/
def server : String := Text.unlines
  ["// Data model and HTTP service.",
    "",
    "table tb_user \x7b",
    "    id bigint auto;",
    "    name varchar(100);",
    "    email varchar(200);",
    "    key(id);",
    "\x7d",
    "",
    "mapper UserMapper \x7b",
    "    query selectById(id bigint) tb_user \x7b",
    "        select id, name, email from tb_user where id = :id",
    "    \x7d",
    "    query selectAll() list<tb_user> \x7b",
    "        select id, name, email from tb_user",
    "    \x7d",
    "    query insertUser(name varchar(100), email varchar(200)) \x7b",
    "        insert into tb_user (name, email) values (:name, :email)",
    "    \x7d",
    "\x7d",
    "",
    "[baseUrl='/api/v1']",
    "controller UserController \x7b",
    "    [method=get, route='/users']",
    "    func listUsers() list<tb_user> \x7b",
    "        return UserMapper.selectAll();",
    "    \x7d",
    "",
    "    [method=get, route='/users/\x7bid\x7d']",
    "    func getUser(id bigint) tb_user \x7b",
    "        return UserMapper.selectById(id);",
    "    \x7d",
    "\x7d"]

/-- The client's source. -/
def client : String := Text.unlines
  ["// Client of the user service.",
    "import './springboot.jssp';",
    "",
    "[baseUrl='http://localhost:8080']",
    "api UserApi \x7b",
    "    UserController;",
    "\x7d",
    "",
    "property greeting string = 'coders';",
    "",
    "func main() \x7b",
    "    for (i in 0..3) \x7b",
    "        @console.log('hello from', greeting, i);",
    "    \x7d",
    "\x7d"]

/-- The files of the sample project. -/
def files : List GeneratedFile :=
  [⟨configFile, config⟩, ⟨"main.jssp", client⟩, ⟨"springboot.jssp", server⟩]

end Scaffold.Sample

namespace Scaffold

/-! ## Build -/

/-- What is to be built of a configuration. -/
structure BuildOptions where
  config : Path
  /-- The one project to build. -/
  project : Option String := none
  engine : Option Engine := none
  overwrite : Bool := false
  deriving Inhabited

/-- How the build of a project went. -/
structure ProjectOutcome where
  project : String
  platform : Platform
  report : BuildReport
  deriving Inhabited

/-- The request for a project, unless it cannot be built. -/
def Config.request (c : Config) (o : BuildOptions) (tree : FileTree) (machine : Machine)
    (p : Project) : Except ConfigError BuildRequest := do
  let platform ← p.check
  let entry ← c.entryFor p
  return {
    entry, builtinRoots := c.builtinRoots tree machine, platform
    engine := o.engine.getD .builtin
    project := p.withOverrides platform
    overwrite := o.overwrite || p.overwrite }

/-- No two requests write into the same directory; the first request that does is refused. -/
def distinctOutPaths (tree : FileTree) : (seen : List (Path × String)) → List BuildRequest →
    Except ConfigError Unit
  | _, [] => .ok ()
  | seen, r :: rest =>
    let path := tree.canonical r.project.outPath
    let label := r.project.label
    match seen.find? fun (p, _) => p.same path with
    | some (_, first) => .error (.sharedOutPath first label path)
    | none => distinctOutPaths tree ((path, label) :: seen) rest

/-- The requests for the selected projects. A project that cannot be built is passed over, unless it
was asked for. -/
def Config.requests (c : Config) (o : BuildOptions) (tree : FileTree) (machine : Machine) :
    Except ConfigError (List BuildRequest) := do
  let rs ← match o.project with
    | some id => do
      let p ← c.project id
      let r ← c.request o tree machine p
      pure [r]
    | none => pure (c.projects.filterMap fun p => (c.request o tree machine p).toOption)
  distinctOutPaths tree [] rs
  return rs

/-- The generation service of a configuration. This program is built without a connection to any. -/
def Config.generationService (c : Config) (tree : FileTree) (machine : Machine) :
    GenerationService :=
  match c.resolveService tree machine with
  | none => .missing "no llm settings in coders.yaml or ~/.coders/llm.yaml"
  | some o => .missing s!"built without the `llm` feature (provider '{o.provider}')"

/-- Runs requests one after the other; they write into different directories. -/
def runAll (service : GenerationService) (cancelled : BuildStage → Bool) :
    List BuildRequest → FileTree → List ProjectOutcome × FileTree
  | [], tree => ([], tree)
  | r :: rest, tree =>
    let (report, tree) := r.run (some service) cancelled tree
    let (outcomes, tree) := runAll service cancelled rest tree
    (⟨r.project.label, r.platform, report⟩ :: outcomes, tree)

/-- Builds the configured projects. -/
def build (o : BuildOptions) (machine : Machine) (cancelled : BuildStage → Bool)
    (tree : FileTree) : Except BuildError (List ProjectOutcome) × FileTree :=
  let plan : Except ConfigError (Config × List BuildRequest) := do
    let c ← Config.load tree o.config
    let rs ← c.requests o tree machine
    return (c, rs)
  match plan with
  | .error e => (.error (.config e), tree)
  | .ok (c, rs) =>
    let (outcomes, tree) := runAll (c.generationService tree machine) cancelled rs tree
    (.ok outcomes, tree)

/-! ## Check -/

/-- The problems of a source file and what it imports, for no platform in particular. -/
def checkFile (tree : FileTree) (file : Path) (roots : List Path) : Diagnostics :=
  match ({} : Session).compileFile tree file roots with
  | (.error e, s) => s.diagnostics ++ [e.toDiagnostic]
  | (.ok _, s) =>
    if Diagnostics.hasErrors s.diagnostics then s.diagnostics
    else
      match s.lower with
      | (.error e, s) => s.diagnostics ++ [e.toDiagnostic]
      | (.ok _, s) => s.diagnostics

/-- The files that a configuration starts from, each once. -/
def Config.entries (c : Config) : List Path :=
  (c.projects.filterMap (·.entry)).foldl
    (fun entries e => if entries.any (·.same e) then entries else entries ++ [e]) c.entry.toList

/-- Checks a file, or all files that a configuration starts from. -/
def check (config : Path) (file : Option Path) (machine : Machine) (tree : FileTree) :
    Except BuildError Diagnostics :=
  match file, Config.load tree config with
  | some file, .ok c => .ok (checkFile tree file (c.builtinRoots tree machine))
  | some file, .error _ => .ok (checkFile tree file [])
  | none, .error e => .error (.config e)
  | none, .ok c =>
    if c.entries.isEmpty then .error (.config (.missingEntry config.text))
    else .ok (c.entries.flatMap fun e => checkFile tree e (c.builtinRoots tree machine))

/-! ## Start -/

/-- Writes the files of a sample project; those that exist are kept, unless forced. -/
def startFiles (dir : Path) (force : Bool) : List GeneratedFile → FileTree →
    Except BuildError (List Path) × FileTree
  | [], tree => (.ok [], tree)
  | file :: rest, tree =>
    let path := dir.join file.path
    if tree.pathExists path && !force then startFiles dir force rest tree
    else
      match tree.write path file.contents with
      | .error e => (.error (.io path e), tree)
      | .ok tree =>
        let (result, tree) := startFiles dir force rest tree
        (result.map (path :: ·), tree)

/-- Starts a sample project in a directory. -/
def start (dir : Path) (force : Bool) (tree : FileTree) :
    Except BuildError (List Path) × FileTree :=
  match tree.makeDirectories dir with
  | (.error e, tree) => (.error (.io dir e), tree)
  | (.ok (), tree) => startFiles dir force Sample.files tree

end Scaffold
