import Scaffold.FileTree
import Scaffold.ImportTable
import Scaffold.Platform
import Scaffold.Symbol

/-!
What compiling keeps from file to file: the documents, the symbols, the problems found so far, and
the scopes that are open.

| here | in the program |
| --- | --- |
| `Session` | `ParserContext`, with the stack and the table of `Compiler` |
| `SourceFile` | `ParserOptions` |
| `reset`, `takeNode` | `clear`, `next_node_id` |
| `report`, `isActive` | `report`, `is_active` |
| `searchRoots`, `locate` | `search_builtin`, `locate_import` |
| `projectDocuments` | `project_documents` |
-/

namespace Scaffold

/-- The state of a compilation. -/
structure Session where
  /-- The target; without one, declarations for all platforms take part. -/
  platform : Option Platform := none
  imports : ImportTable := {}
  diagnostics : Diagnostics := []
  nextNode : NodeId := 0
  /-- The open scopes, innermost first. -/
  stack : List ScopeId := []
  symbols : SymbolTable := {}
  deriving Inhabited

namespace Session

def reset (s : Session) : Session :=
  { platform := s.platform }

def report (s : Session) (e : CompileError) : Session :=
  { s with diagnostics := s.diagnostics ++ [e.toDiagnostic] }

def takeNode (s : Session) : NodeId × Session :=
  (s.nextNode, { s with nextNode := s.nextNode + 1 })

/-- A declaration with these annotations takes part: it is for all platforms, or the list of its
platforms holds the target. -/
def isActive (s : Session) (annotations : AnnotationBlock) : Bool :=
  match s.platform, annotations.text? "platform" with
  | some platform, some list =>
    (Text.split ',' list).any fun name => Text.sameLetters (Text.trim name) platform.key
  | _, _ => true

/-- The project's documents in the order they were finished. -/
def projectDocuments (s : Session) : List Source.Document :=
  s.imports.documents.filter (·.origin == .project)

end Session

/-- How one file is read. -/
structure SourceFile where
  path : Path
  origin : Source.Origin := .project
  /-- The library roots that imports are looked for in, in order. -/
  roots : List Path := []
  deriving Inhabited

namespace SourceFile

/-- The first library root that has a file, and the file. -/
def searchRoots (f : SourceFile) (tree : FileTree) (relative : String) : Option SourceFile :=
  ((f.roots.map (·.join relative)).find? tree.isFile).map fun p =>
    { f with path := p, origin := .builtin }

/-- The file that an import means. After an at sign it is looked for in the library roots only, else
beside the importing file first. -/
def locate (f : SourceFile) (tree : FileTree) (written : String) : Option SourceFile :=
  match Text.afterHead "@" written with
  | some rest => f.searchRoots tree (Text.trimStartOf '/' rest)
  | none =>
    let dir := f.path.parent?.getD ⟨"."⟩
    let beside := dir.join written
    if tree.isFile beside then some { f with path := beside } else f.searchRoots tree written

end SourceFile

end Scaffold
