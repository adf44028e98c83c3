import Scaffold.Model.Encoding
import Scaffold.Project
import Scaffold.Reply
import Scaffold.Yaml.Printer

/-!
Prompts for the generation service: one for each unit of the code model, and one for the files that
tie the units together. Equal models and projects give equal prompts.

| here | in the program |
| --- | --- |
| `systemText` | `system` |
| `Topic`, `ofTopic` | `prompt` |
| `prompts`, `manifestTopic` | `build` of `PromptBuilder` |
| `keepNew`, `CodeModel.request` | `render` of `PromptRenderer` |
-/

namespace Scaffold

namespace Prompt

/-- What every prompt says first. -/
def systemText (platform : Platform) : String :=
  let stack :=
    match platform.framework? with
    | some framework => s!"{platform.language} ({framework})"
    | none => platform.language
  s!"You are a code generator for {stack} projects. Produce complete, compilable source files only. "
    ++ s!"Reply with one fenced block per file, opened by {Reply.fence}<relative path> and closed by "
    ++ "```. Paths are relative to the project root. Write no prose outside the blocks."

/-- The platform and the project, as every prompt shows them. -/
def target (platform : Platform) (p : Project) : String :=
  Yaml.document
    ([("platform", .str platform.key), ("language", .str platform.language)]
      ++ Data.entry? "framework" .str platform.framework?
      ++ [("project", .str p.label), ("name", .str p.name), ("version", .str p.version),
        ("package", .str p.package), ("namespace", .str p.codeNamespace),
        ("module", .str p.module), ("main_class", .str p.mainClass),
        ("options", p.options.toData)])

/-- What one prompt asks for: a unit of the project, or what ties the units together. -/
structure Topic where
  id : String
  /-- What the service is to do. -/
  task : String
  definition : Data
  /-- Record types that are defined elsewhere. -/
  known : List String

/-- A data document. -/
def definitionText : Data → String
  | .map entries => Yaml.document entries
  | _ => ""

/-- The record types defined elsewhere. -/
def knownText (names : List String) : String :=
  if names.isEmpty then ""
  else
    "\n# Types defined elsewhere in the project\n\n"
      ++ String.join (names.map fun n => s!"- {n}\n")

/-- The prompt for a topic. -/
def ofTopic (platform : Platform) (p : Project) (t : Topic) : Prompt where
  id := t.id
  system := systemText platform
  user :=
    "# Target\n\n```yaml\n" ++ target platform p ++ "```\n\n# Task\n\n" ++ t.task
      ++ "\n\n# Definition\n\n```yaml\n" ++ definitionText t.definition ++ "```\n"
      ++ knownText t.known
      ++ "\n# Output\n\n" ++ Reply.fence ++ "<relative path>\n<file contents>\n```\n"

/-- What a record type is called in its task. -/
def recordWords : Model.DataKind → String
  | .table => "the record type mirroring table"
  | .entity => "the entity type"
  | .queryResult => "the query result type"
  | _ => "the data type"

end Prompt

namespace CodeModel

open Prompt

/-- The topic of constants and functions, if there are any. -/
def functionsTopic (m : CodeModel) (known : List String) : List Prompt.Topic :=
  if m.procedures.isEmpty && m.constants.isEmpty then []
  else
    [{ id := "functions"
       task := "Generate the constants and functions below. `main` is the program entry point."
       definition := .map
        [("constants", .list (m.constants.map Model.Constant.toData)),
          ("procedures", .list (m.procedures.map Model.Procedure.toData))]
       known }]

/-- The topics of a model: its records, mappers, services, clients, pages and functions. -/
def topics (m : CodeModel) : List Prompt.Topic :=
  let names := m.records.map (·.name)
  m.records.map (fun d =>
      { id := s!"data:{d.name}", task := s!"Generate {recordWords d.kind} `{d.name}`."
        definition := d.toData, known := names.filter (· != d.name) })
    ++ m.mappers.map (fun a =>
      { id := s!"mapper:{a.name}"
        task := s!"Generate the data-access component `{a.name}` with one method per SQL operation."
        definition := a.toData, known := names })
    ++ m.services.map (fun s =>
      { id := s!"service:{s.name}"
        task := s!"Generate the HTTP controller `{s.name}` serving every route below."
        definition := s.toData, known := names })
    ++ m.clients.map (fun c =>
      { id := s!"client:{c.name}"
        task := s!"Generate the HTTP client `{c.name}` with one method per call below."
        definition := c.toData, known := names })
    ++ m.pages.map (fun p =>
      { id := s!"page:{p.name}", task := s!"Generate the page component `{p.name}`."
        definition := p.toData, known := names })
    ++ m.functionsTopic names

/-- The topic that ties the others together. -/
def manifestTopic (m : CodeModel) : Prompt.Topic :=
  { id := "manifest"
    task := "Generate the build files, configuration and application entry that tie the units below "
      ++ "into one project. Do not regenerate the units themselves."
    definition := .map
      [("units", Data.texts (m.topics.map (·.id))), ("entry_point", .bool m.entry?.isSome)]
    known := [] }

def prompts (m : CodeModel) (platform : Platform) (p : Project) : List Prompt :=
  (m.topics ++ [m.manifestTopic]).map (Prompt.ofTopic platform p)

end CodeModel

/-- The files in what a service replies to a prompt. -/
def Prompt.answer (service : GenerationService) (p : Prompt) :
    Except ServiceError (List GeneratedFile) := do
  Reply.files (← service p)

/-- Adds files to those already kept; of files at one path the first is kept. -/
def keepNew : (kept new : List GeneratedFile) → List GeneratedFile
  | kept, [] => kept
  | kept, file :: rest =>
    if kept.any fun f => (Path.mk f.path).same ⟨file.path⟩ then keepNew kept rest
    else keepNew (kept ++ [file]) rest

/-- The files that a generation service makes for a model. Prompts are sent in order, up to the first
that fails. -/
def CodeModel.request (m : CodeModel) (platform : Platform) (p : Project)
    (service : GenerationService) : Except ServiceError (List GeneratedFile) := do
  let answers ← (m.prompts platform p).mapM (Prompt.answer service)
  return keepNew [] answers.flatten

end Scaffold
