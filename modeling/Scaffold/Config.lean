import Scaffold.FileTree
import Scaffold.Project
import Scaffold.Yaml.Decoder

/-!
The configuration of builds: which projects there are, where their sources start, and how the
generation service is reached. Paths in a configuration file are seen from its directory.

| here | in the program |
| --- | --- |
| `Config`, `ServiceOptions` | `CodersConfig`, `LlmOptions` |
| `load`, `anchor`, `Project.check` | `load`, `anchor`, `check` |
| `builtinRoots`, `project`, `entryFor` | `builtin_roots`, `project`, `entry_for` |
| `homeService?`, `resolveService` | `load_llm_options`, `resolve` |
-/

namespace Scaffold

/-- Why a configuration cannot be used. -/
inductive ConfigError where
  | unreadable (path : Path) (cause : FileError)
  | malformed (path : Path) (cause : Yaml.ReadError)
  | invalid (project reason : String)
  | unknownProject (id : String)
  | missingEntry (project : String)
  | sharedOutPath (first second : String) (path : Path)
  deriving DecidableEq, Inhabited

namespace ConfigError

/-- The text of an error. -/
def message : ConfigError → String
  | .unreadable path cause => s!"cannot read {path.text}: {cause.message}"
  | .malformed path cause => s!"invalid configuration in {path.text}: {cause.message}"
  | .invalid project reason => s!"project '{project}': {reason}"
  | .unknownProject id => s!"no project with id '{id}' in the configuration"
  | .missingEntry project => s!"no entry file configured for project '{project}'"
  | .sharedOutPath first second path =>
    s!"projects '{first}' and '{second}' share the output directory {path.text}"

def toDiagnostic (e : ConfigError) : Diagnostic :=
  .error .config e.message

end ConfigError

/-- The platform of a project that has all it needs: a name, a platform and an output directory, in
this order of complaint. -/
def Project.check (p : Project) : Except ConfigError Platform :=
  let invalid (reason : String) : Except ConfigError Platform := .error (.invalid p.label reason)
  if Text.trim p.name == "" then invalid "name is required"
  else if Text.trim p.platform == "" then invalid "platform is required"
  else if p.outPath.text == "" then invalid "outPath is required"
  else
    match Platform.ofKey p.platform with
    | .ok platform => .ok platform
    | .error _ => invalid s!"unsupported platform '{p.platform}'"

/-- What makes the files of a project. -/
inductive Engine where
  /-- The generators of this library. -/
  | builtin
  /-- A generation service. -/
  | service
  deriving DecidableEq, Inhabited

/-- How the generation service is reached. -/
structure ServiceOptions where
  provider : String := "openai"
  apiUrl : String := "https://api.openai.com/v1"
  apiKey : String := ""
  model : String := ""
  timeoutSecs : Nat := 120
  deriving DecidableEq, Inhabited

/-- A configuration. -/
structure Config where
  entry : Option Path := none
  builtinPaths : List Path := []
  service : Option ServiceOptions := none
  projects : List Project := []
  deriving DecidableEq, Inhabited

/-- What a command can see of the machine besides its files. -/
structure Machine where
  home : Option Path := none
  /-- The key of the generation service that the environment gives. -/
  apiKey : Option String := none
  deriving Inhabited

/-! ## Reading -/

open Yaml (Decoder)

def Path.decoder : Decoder Path := fun place node =>
  (⟨·⟩) <$> Decoder.textAs .path place node

/-- The options of a project. -/
def ProjectOptions.decoder : Decoder ProjectOptions :=
  let text := Decoder.optional .text
  let texts := Decoder.list .text
  .record "ProjectOption"
    ["package", "namespace", "module", "mainClass", "language", "languageVersion", "version",
      "group", "description", "plugins", "dependencies", "useHistory"]
    {} fun key place node o => do
      match key with
      | "package" => return { o with package := ← text place node }
      | "namespace" => return { o with «namespace» := ← text place node }
      | "module" => return { o with module := ← text place node }
      | "mainClass" => return { o with mainClass := ← text place node }
      | "language" => return { o with language := ← text place node }
      | "languageVersion" => return { o with languageVersion := ← text place node }
      | "version" => return { o with version := ← text place node }
      | "group" => return { o with group := ← text place node }
      | "description" => return { o with description := ← text place node }
      | "plugins" => return { o with plugins := ← texts place node }
      | "dependencies" => return { o with dependencies := ← texts place node }
      | "useHistory" => return { o with useHistory := ← Decoder.bool place node }
      | _ => return o

/-- A project. -/
def Project.decoder : Decoder Project :=
  .record "ProjectConfig"
    ["projectId", "name", "platform", "entry", "outPath", "overwrite", "options"]
    {} fun key place node p => do
      match key with
      | "projectId" => return { p with id := ← Decoder.text place node }
      | "name" => return { p with name := ← Decoder.text place node }
      | "platform" => return { p with platform := ← Decoder.text place node }
      | "entry" => return { p with entry := ← Decoder.optional Path.decoder place node }
      | "outPath" => return { p with outPath := ← Path.decoder place node }
      | "overwrite" => return { p with overwrite := ← Decoder.bool place node }
      | "options" => return { p with options := ← ProjectOptions.decoder place node }
      | _ => return p

/-- How the generation service is reached. -/
def ServiceOptions.decoder : Decoder ServiceOptions :=
  .record "LlmOptions" ["provider", "apiUrl", "apiKey", "model", "timeoutSecs"] {}
    fun key place node o => do
      match key with
      | "provider" => return { o with provider := ← Decoder.text place node }
      | "apiUrl" => return { o with apiUrl := ← Decoder.text place node }
      | "apiKey" => return { o with apiKey := ← Decoder.text place node }
      | "model" => return { o with model := ← Decoder.text place node }
      | "timeoutSecs" => return { o with timeoutSecs := ← Decoder.nat64 place node }
      | _ => return o

namespace Config

/-- A configuration as written. -/
def decoder : Decoder Config :=
  .record "CodersConfig" ["entry", "builtinPaths", "llm", "projects"] {}
    fun key place node c => do
      match key with
      | "entry" => return { c with entry := ← Decoder.optional Path.decoder place node }
      | "builtinPaths" => return { c with builtinPaths := ← Decoder.list Path.decoder place node }
      | "llm" => return { c with service := ← Decoder.optional ServiceOptions.decoder place node }
      | "projects" => return { c with projects := ← Decoder.list Project.decoder place node }
      | _ => return c

/-- A path seen from `base`; absolute and empty paths stay. -/
def anchored (base : Path) (p : Path) : Path :=
  if p.isAbsolute || p.text == "" then p else base.join p.text

/-- The configuration with its paths seen from `base`. -/
def anchor (c : Config) (base : Path) : Config :=
  { c with
    entry := c.entry.map (anchored base)
    builtinPaths := c.builtinPaths.map (anchored base)
    projects := c.projects.map fun p =>
      { p with entry := p.entry.map (anchored base), outPath := anchored base p.outPath } }

/-- Reads a configuration file. -/
def load (tree : FileTree) (path : Path) : Except ConfigError Config :=
  match tree.read path with
  | .error cause => .error (.unreadable path cause)
  | .ok text =>
    match decoder.run text with
    | .error cause => .error (.malformed path cause)
    | .ok c => .ok (c.anchor (path.parent?.getD ⟨"."⟩))

/-! ## Looking things up -/

/-- The library roots: those configured, else the default one if it is there. -/
def builtinRoots (c : Config) (tree : FileTree) (machine : Machine) : List Path :=
  if !c.builtinPaths.isEmpty then c.builtinPaths
  else
    (machine.home.map fun home => (home.join ".coders").join "builtin").toList.filter
      tree.isDirectory

/-- The project with this id. -/
def project (c : Config) (id : String) : Except ConfigError Project :=
  match c.projects.find? (·.id == id) with
  | some p => .ok p
  | none => .error (.unknownProject id)

/-- The file that a project starts from: its own, else that of the configuration. -/
def entryFor (c : Config) (p : Project) : Except ConfigError Path :=
  match p.entry.or c.entry with
  | some path => .ok path
  | none => .error (.missingEntry p.label)

/-- How the service is reached as the file in the home directory says; a file that cannot be read
says nothing. -/
def homeService? (tree : FileTree) (machine : Machine) : Option ServiceOptions := do
  let home ← machine.home
  let text ← (tree.read ((home.join ".coders").join "llm.yaml")).toOption
  (ServiceOptions.decoder.run text).toOption

/-- How the service is reached: as configured, else as the home directory says; a key in the
environment comes first. -/
def resolveService (c : Config) (tree : FileTree) (machine : Machine) : Option ServiceOptions :=
  (c.service.or (homeService? tree machine)).map fun o =>
    match machine.apiKey with
    | some key => if key == "" then o else { o with apiKey := key }
    | none => o

end Config

/-! ## Writing -/

/-- Service options as data. -/
def ServiceOptions.toData (o : ServiceOptions) : Data :=
  .map [("provider", .str o.provider), ("apiUrl", .str o.apiUrl), ("apiKey", .str o.apiKey),
    ("model", .str o.model), ("timeoutSecs", .int o.timeoutSecs)]

/-- A configuration as data. -/
def Config.toData (c : Config) : Data :=
  .map (Data.entry? "entry" (fun e => .str e.text) c.entry
    ++ textsEntry "builtinPaths" (c.builtinPaths.map (·.text))
    ++ Data.entry? "llm" ServiceOptions.toData c.service
    ++ [("projects", .list (c.projects.map Project.toData))])

end Scaffold
