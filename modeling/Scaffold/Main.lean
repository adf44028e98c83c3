import Scaffold.CommandLine

/-!
The program. A command sees the directory it runs in, the settings in the home directory and the
directories that its arguments name, all read before it runs; what it changed is written afterwards.
-/

namespace Scaffold.Main

/-- Adds what a directory holds to the entries of a tree. Links are not followed, and a file that is
not text is empty. -/
partial def addEntry (place : List String) (entries : List (List String × FileEntry))
    (e : IO.FS.DirEntry) : IO (List (List String × FileEntry)) := do
  let here := place ++ [e.fileName]
  match (← e.path.symlinkMetadata).type with
  | .dir => (← e.path.readDir).foldlM (addEntry here) ((here, .directory) :: entries)
  | .file =>
    let text ← try IO.FS.readFile e.path catch _ => pure ""
    return (here, .file text) :: entries
  | _ => return entries

/-- Adds a directory and all in it to a tree, unless the tree has it already. -/
def addDirectory (tree : FileTree) (path : Path) : IO FileTree := do
  let place := path.names
  if (tree.entries.lookup place).isSome || !(← (← IO.currentDir) / path.text |>.isDir) then
    return tree
  let above := (List.range place.length).map fun n => (place.take (n + 1), FileEntry.directory)
  let new := above.filter fun (p, _) => (tree.entries.lookup p).isNone
  let entries ← (← ((← IO.currentDir) / path.text).readDir).foldlM (addEntry place)
    (new.reverse ++ tree.entries)
  return { tree with entries }

/-- The directory that an argument leads into. -/
def directoryOf (current : Path) (arg : String) : IO Path := do
  let path := (current.join arg).normalize
  if ← ((← IO.currentDir) / path.text).isDir then return path
  return path.parent?.getD path

/-- What a command sees. -/
def snapshot (current : Path) (home : Option Path) (args : List String) : IO FileTree := do
  let named ← args.mapM (directoryOf current)
  let settings := (home.map (·.join ".coders")).toList
  ([current] ++ settings ++ named).foldlM addDirectory { current := current.names }

/-- Writes what differs between two trees. -/
def writeChanges (before after : FileTree) : IO Unit := do
  for (place, entry) in after.entries do
    unless before.entry? place == some entry do
      let path := (Path.ofNames place).text
      match entry with
      | .directory => IO.FS.createDirAll path
      | .file text => IO.FS.writeFile path text

end Scaffold.Main

open Scaffold in
/-- Runs the command that the arguments ask for. -/
def main (args : List String) : IO UInt32 := do
  let current : Scaffold.Path := ⟨(← IO.currentDir).toString⟩
  let home := (← IO.getEnv "HOME").map Scaffold.Path.mk
  let tree ← Main.snapshot current home args
  let machine : Machine := { home, apiKey := ← IO.getEnv "CODERS_LLM_API_KEY" }
  let (printed, after) := (Invocation.ofArgs args).run machine tree
  Main.writeChanges tree after
  IO.print printed.out
  IO.eprint printed.err
  return printed.code.toUInt32
