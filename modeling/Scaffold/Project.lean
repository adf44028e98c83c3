import Scaffold.Data
import Scaffold.Naming
import Scaffold.Platform

/-!
A project to generate: where it goes, what it is called, and what its generator is told.

| here | in the program |
| --- | --- |
| `ProjectOptions` | `ProjectOption` |
| `Project` | `ProjectConfig` |
| `withOverrides` | `apply_platform_overrides` |
| `label`, `package`, `codeNamespace` | `label`, `package`, `namespace` |
| `module`, `mainClass` | `module`, `main_class` |
| `version`, `group`, `description` | `version`, `group`, `description` |
-/

namespace Scaffold

/-- What a generator is told; it has defaults for all of it. -/
structure ProjectOptions where
  package : Option String := none
  «namespace» : Option String := none
  module : Option String := none
  mainClass : Option String := none
  language : Option String := none
  languageVersion : Option String := none
  version : Option String := none
  group : Option String := none
  description : Option String := none
  plugins : List String := []
  dependencies : List String := []
  useHistory : Bool := false
  deriving DecidableEq, Inhabited

/-- A project to generate. -/
structure Project where
  id : String := ""
  name : String := ""
  platform : String := ""
  entry : Option Path := none
  outPath : Path := ⟨""⟩
  overwrite : Bool := false
  options : ProjectOptions := {}
  deriving DecidableEq, Inhabited

namespace Project

def label (p : Project) : String :=
  if p.id == "" then p.name else p.id

/-- Settings that one platform always uses. -/
def withOverrides (p : Project) (platform : Platform) : Project :=
  if platform == .coders then
    { p with options := { p.options with
        package := some s!"com.coders.{p.label}"
        mainClass := some "App"
        language := some "java" } }
  else p

def package (p : Project) : String :=
  p.options.package.getD ("com.example." ++ Text.replaceChar '_' "" (Naming.snake p.label))

def codeNamespace (p : Project) : String :=
  p.options.namespace.getD (Naming.pascal p.name)

def module (p : Project) : String :=
  p.options.module.getD (Naming.kebab p.label)

def mainClass (p : Project) : String :=
  p.options.mainClass.getD "App"

def version (p : Project) : String :=
  p.options.version.getD "0.1.0"

/-- The group of the generated project: its package without the last part. -/
def group (p : Project) : String :=
  p.options.group.getD (((Text.splitLast '.' p.package).map (·.1)).getD p.package)

def description (p : Project) : String :=
  p.options.description.getD s!"{p.name} generated by coders"

end Project

/-! ## Encoding

Projects as data, in the form that configuration files and prompts have.
-/

/-- The entry of a list of texts, left out when there are none. -/
def textsEntry (key : String) (texts : List String) : List (String × Data) :=
  if texts.isEmpty then [] else [(key, Data.texts texts)]

/-- The options that are set. -/
def ProjectOptions.toData (o : ProjectOptions) : Data :=
  let text (key : String) (value : Option String) := Data.entry? key .str value
  .map (text "package" o.package ++ text "namespace" o.namespace ++ text "module" o.module
    ++ text "mainClass" o.mainClass ++ text "language" o.language
    ++ text "languageVersion" o.languageVersion ++ text "version" o.version
    ++ text "group" o.group ++ text "description" o.description
    ++ textsEntry "plugins" o.plugins ++ textsEntry "dependencies" o.dependencies
    ++ [("useHistory", .bool o.useHistory)])

/-- A project as a configuration file says it. -/
def Project.toData (p : Project) : Data :=
  .map ([("projectId", .str p.id), ("name", .str p.name), ("platform", .str p.platform)]
    ++ Data.entry? "entry" (fun e => .str e.text) p.entry
    ++ [("outPath", .str p.outPath.text), ("overwrite", .bool p.overwrite),
      ("options", p.options.toData)])

end Scaffold
