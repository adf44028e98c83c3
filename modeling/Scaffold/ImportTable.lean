import Scaffold.CompileError
import Scaffold.Source.Document

/-!
The documents of a session, each parsed once and known by its path, and the chain of imports that
is being followed.

| here | in the program |
| --- | --- |
| `ImportTable` | `ImportContext` |
| `begin`, `finish`, `abandon` | `begin`, `finish`, `abandon` |
| `cutChain` | `pop_chain` |
| `get?`, `isInProgress`, `documents` | `get`, `is_in_progress`, `documents` |
-/

namespace Scaffold

/-- How far a file has come. -/
inductive ImportState where
  | inProgress
  | parsed (document : Source.Document)
  deriving Inhabited

/-- The files of a session. -/
structure ImportTable where
  entries : List (Path × ImportState) := []
  /-- The files being parsed, each imported by the one before. -/
  chain : List Path := []
  /-- The files in the order they were finished. -/
  completed : List Path := []
  deriving Inhabited

namespace ImportTable

def state? (t : ImportTable) (path : Path) : Option ImportState :=
  (t.entries.find? (·.1.same path)).map (·.2)

/-- The entries with the state of a file set: in its place if it is there, else at the end. -/
def setState (path : Path) (state : ImportState) :
    List (Path × ImportState) → List (Path × ImportState)
  | [] => [(path, state)]
  | (p, s) :: rest =>
    if p.same path then (p, state) :: rest else (p, s) :: setState path state rest

/-- The document of a finished file. -/
def get? (t : ImportTable) (path : Path) : Option Source.Document :=
  match t.state? path with
  | some (.parsed d) => some d
  | _ => none

/-- The file is being parsed. -/
def isInProgress (t : ImportTable) (path : Path) : Bool :=
  match t.state? path with
  | some .inProgress => true
  | _ => false

/-- The cycle that importing a file again closes: the chain from that file on, and the file. -/
def cycle (t : ImportTable) (path : Path) : List Path :=
  let tail := t.chain.dropWhile (!·.same path)
  (if tail.isEmpty then t.chain else tail) ++ [path]

/-- Starts a file: its document if it is finished, nothing if it is to be parsed now, and an error
if it is being parsed already. -/
def begin (t : ImportTable) (path : Path) :
    Except CompileError (Option Source.Document × ImportTable) :=
  match t.state? path with
  | some (.parsed d) => .ok (some d, t)
  | some .inProgress => .error (.importCycle (t.cycle path))
  | none =>
    .ok (none, { t with
      entries := setState path .inProgress t.entries
      chain := t.chain ++ [path] })

/-- The chain before the last place where a file stands on it. -/
def cutChain (path : Path) (chain : List Path) : List Path :=
  if chain.any (·.same path) then
    ((chain.reverse.dropWhile (!·.same path)).drop 1).reverse
  else chain

/-- Finishes a file. -/
def finish (t : ImportTable) (path : Path) (document : Source.Document) : ImportTable :=
  { entries := setState path (.parsed document) t.entries
    chain := cutChain path t.chain
    completed := t.completed ++ [path] }

/-- Gives up on a file, so that a later attempt starts afresh. -/
def abandon (t : ImportTable) (path : Path) : ImportTable :=
  { t with
    entries := if t.isInProgress path then t.entries.filter (!·.1.same path) else t.entries
    chain := cutChain path t.chain }

/-- The finished documents in the order they were finished. -/
def documents (t : ImportTable) : List Source.Document :=
  t.completed.filterMap t.get?

end ImportTable

end Scaffold
