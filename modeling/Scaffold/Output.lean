import Scaffold.Manifest
import Scaffold.Platform
import Scaffold.Reply

/-!
Writing generated files into an output directory. Files that the manifest lists belong to the
generator and are replaced freely; any other file that exists is left alone, unless overwriting is
asked for. Nothing is ever deleted.

| here | in the program |
| --- | --- |
| `Output`, `WriteReport` | `ProjectBuilder`, `WriteReport` |
| `write`, `writeFiles` | `write` and the loop in it |
| `writeFile` | one round of the loop |
-/

namespace Scaffold

/-- Where the files of a project go. -/
structure Output where
  root : Path
  platform : Platform
  /-- Replace files that were not generated. -/
  overwrite : Bool := false
  deriving Inhabited

/-- What happened to the files of a project. -/
structure WriteReport where
  written : List Path := []
  skipped : List Path := []
  diagnostics : Diagnostics := []
  deriving Inhabited

/-- A project being written. -/
structure Writing where
  tree : FileTree
  /-- The keys of files that are in the directory and were generated. -/
  owned : List String
  report : WriteReport := {}
  deriving Inhabited

namespace Writing

/-- A file is left alone, for the given reason. -/
def skip (w : Writing) (target : Path) (reason : String) : Writing :=
  { w with report := { w.report with
      skipped := w.report.skipped ++ [target]
      diagnostics := w.report.diagnostics ++ [.warning .fileSkipped reason] } }

/-- A file is now in the directory. -/
def own (w : Writing) (target : Path) (key : String) : Writing :=
  { w with
    owned := insertSorted key w.owned
    report := { w.report with written := w.report.written ++ [target] } }

/-- Puts a file in its place; one that has the text already is not touched. -/
def place (w : Writing) (target : Path) (contents : String) : Except BuildError Unit × Writing :=
  let dir := target.parent?
  match (dir.map w.tree.makeDirectories).getD (.ok (), w.tree) with
  | (.error e, tree) => (.error (.io (dir.getD ⟨""⟩) e), { w with tree })
  | (.ok (), tree) =>
    if (tree.read target).toOption == some contents then (.ok (), { w with tree })
    else
      match tree.write target contents with
      | .error e => (.error (.io target e), { w with tree })
      | .ok tree => (.ok (), { w with tree })

end Writing

namespace Output

/-- Writes one file, given the keys that the last manifest lists. -/
def writeFile (o : Output) (listed : List String) (file : GeneratedFile) (w : Writing) :
    Except BuildError Unit × Writing :=
  let path : Path := ⟨file.path⟩
  let target := o.root.join file.path
  if !path.isContained then
    (.ok (), w.skip target s!"refusing to write outside the output root: {file.path}")
  else if w.tree.pathExists target && !listed.contains path.key && !o.overwrite then
    (.ok (), w.skip target
      s!"{target.text} exists and was not generated by coders; use --overwrite to replace it")
  else
    match w.place target file.contents with
    | (.error e, w) => (.error e, w)
    | (.ok (), w) => (.ok (), w.own target path.key)

/-- Writes files in order, up to the first that fails. -/
def writeFiles (o : Output) (listed : List String) : List GeneratedFile → Writing →
    Except BuildError Unit × Writing
  | [], w => (.ok (), w)
  | file :: rest, w =>
    match o.writeFile listed file w with
    | (.error e, w) => (.error e, w)
    | (.ok (), w) => writeFiles o listed rest w

/-- Writes a project and then its manifest. If it fails, what was written until then stays, and the
manifest stays as it was. -/
def write (o : Output) (files : List GeneratedFile) (tree : FileTree) :
    Except BuildError WriteReport × FileTree :=
  match tree.makeDirectories o.root with
  | (.error e, tree) => (.error (.io o.root e), tree)
  | (.ok (), tree) =>
    let previous := (Manifest.load tree o.root).files
    let owned := previous.filter fun key => tree.isFile (o.root.join key)
    match o.writeFiles previous files { tree, owned } with
    | (.error e, w) => (.error e, w.tree)
    | (.ok (), w) =>
      let manifest : Manifest :=
        { generator := s!"coders {version}", platform := o.platform.key, files := w.owned }
      match manifest.save w.tree o.root with
      | (.error e, tree) => (.error e, tree)
      | (.ok (), tree) => (.ok w.report, tree)

end Output

end Scaffold
