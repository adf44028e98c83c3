import Scaffold.Source.Binding
import Scaffold.Source.Parser.Decl
import Scaffold.Source.Shape
import Scaffold.Token.Lexer

/-!
From files to documents. A file is read when it is first imported, in the middle of the file that
imports it; every file is parsed once per session. When the last declaration of a file has been
read, its names are bound.

| here | in the program |
| --- | --- |
| `complete` | `complete`, then `close_children` |
| `parseDocument` | `parse_document` |
| `parseText` | `parse` |
| `loadFile`, `Loader` | `parse_file` |
| `loadPrelude`, `compileFile`, `compileText` | `load_prelude`, `compile_file`, `compile_str` |
-/

namespace Scaffold

namespace Source

/-- Binds the names of a parsed document: domains and columns first, then result shapes, which copy
their types, then all the rest. -/
def complete (d : Document) (s : Session) : Document × Session :=
  let binder : Binder := { symbols := s.symbols, path := d.path, context := "" }
  let (decls, diagnostics) := (Binder.decls binder.dataDecl d.decls).run s.diagnostics
  let (d, s) := Shape.synthesize { d with decls } { s with diagnostics }
  let binder : Binder := { binder with symbols := s.symbols }
  let (decls, diagnostics) := (Binder.decls binder.otherDecl d.decls).run s.diagnostics
  ({ d with decls }, { s with diagnostics, symbols := s.symbols.closeChildren d.file })

/-- Loads a file by parsing it, or takes it from the session. -/
abbrev Loader := SourceFile → Session → Except CompileError Document × Session

/-- Parses a text as the file `f`, without consulting the documents there are. -/
def parseDocument (tree : FileTree) (load : Loader) (text : String) (f : SourceFile) (s : Session) :
    Except CompileError Document × Session :=
  match tokenize text with
  | .error m => (.error (.fault f.path m.pos (.mismatch m.expected m.found)), s)
  | .ok tokens =>
    let (file, symbols) := s.symbols.addFile f.path
    let (root, symbols) := symbols.addScope .file none file
    let env : ParserEnv := { file, source := f, root, tree, load }
    let start : ParserState :=
      { rest := tokens, session := { s with symbols, stack := root :: s.stack } }
    let (result, final) := Parser.decls env start
    let s := { final.session with stack := final.session.stack.tail }
    match result with
    | .error e => (.error e, s)
    | .ok decls =>
      let d : Document :=
        { file, path := f.path, origin := f.origin, scope := root, imports := final.imports, decls }
      let (d, s) := complete d s
      (.ok d, s)

/-- Parses a text as the file `f`, unless that file has been parsed before. -/
def parseText (tree : FileTree) (load : Loader) (text : String) (f : SourceFile) (s : Session) :
    Except CompileError Document × Session :=
  let key := tree.canonical f.path
  match s.imports.begin key with
  | .error e => (.error e, s)
  | .ok (some document, _) => (.ok document, s)
  | .ok (none, imports) =>
    match parseDocument tree load text { f with path := key } { s with imports } with
    | (.ok document, s) => (.ok document, { s with imports := s.imports.finish key document })
    | (.error e, s) => (.error e, { s with imports := s.imports.abandon key })

/-- Reads and parses a file. `depth` bounds the chain of imports: the files on a chain are distinct,
so one more than the number of files is enough. -/
def loadFile (tree : FileTree) : (depth : Nat) → Loader
  | 0, f, s => (.error (.io f.path .notFound), s)
  | depth + 1, f, s =>
    let key := tree.canonical f.path
    match s.imports.get? key with
    | some document => (.ok document, s)
    | none =>
      if s.imports.isInProgress key then
        -- Starting the file again gives the error with the whole cycle.
        parseText tree (loadFile tree depth) "" f s
      else
        match tree.read f.path with
        | .error cause => (.error (.io f.path cause), s)
        | .ok text => parseText tree (loadFile tree depth) text f s

end Source

namespace Session

/-- A bound for chains of imports in a tree of files. -/
def importDepth (tree : FileTree) : Nat :=
  tree.entries.length + 2

/-- Loads a file and all it imports. -/
def load (tree : FileTree) (f : SourceFile) (s : Session) :
    Except CompileError Source.Document × Session :=
  Source.loadFile tree (importDepth tree) f s

/-- Loads the prelude of the first library root that has one; its names are visible everywhere. -/
def loadPrelude (tree : FileTree) (roots : List Path) (s : Session) :
    Except CompileError Unit × Session :=
  let probe : SourceFile := { path := ⟨""⟩, roots }
  match probe.searchRoots tree "prelude.jssp" with
  | none => (.ok (), s)
  | some f =>
    match s.load tree f with
    | (.error e, s) => (.error e, s)
    | (.ok document, s) =>
      (.ok (), { s with symbols := s.symbols.setPrelude document.scope })

/-- Compiles a file, everything it imports, and the prelude. -/
def compileFile (tree : FileTree) (entry : Path) (roots : List Path) (s : Session) :
    Except CompileError Source.Document × Session :=
  match s.loadPrelude tree roots with
  | (.error e, s) => (.error e, s)
  | (.ok (), s) => s.load tree { path := entry, roots }

/-- Compiles a text as if it were the file `name`. -/
def compileText (tree : FileTree) (text : String) (name : Path) (s : Session) :
    Except CompileError Source.Document × Session :=
  Source.parseText tree (Source.loadFile tree (importDepth tree)) text { path := name } s

end Session

end Scaffold
