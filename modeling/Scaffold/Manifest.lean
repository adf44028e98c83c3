import Scaffold.Code
import Scaffold.Config
import Scaffold.Reply
import Scaffold.Yaml.Printer

/-!
The manifest of an output directory: which files in it were generated. It is kept beside the files
themselves, so that a later build knows what it may replace.

| here | in the program |
| --- | --- |
| `Manifest` | `Manifest` |
| `path`, `load`, `save` | `path`, `load`, `save` |
| `Path.key` | `manifest_key` |
-/

/-! ## Failures

Why a build stops.
-/

namespace Scaffold

/-- Why a build stops. -/
inductive BuildError where
  | compile (e : CompileError)
  | service (e : ServiceError)
  | config (e : ConfigError)
  | io (path : Path) (cause : FileError)
  /-- Errors were reported. -/
  | failed (errors : Nat)
  | cancelled
  deriving DecidableEq, Inhabited

namespace BuildError

/-- The text of an error. -/
def message : BuildError → String
  | .compile e => e.message
  | .service e => e.message
  | .config e => e.message
  | .io path cause => s!"{path.text}: {cause.message}"
  | .failed errors => s!"build stopped with {errors} error(s)"
  | .cancelled => "build cancelled"

/-- The error as a reported problem. -/
def toDiagnostic (e : BuildError) : Diagnostic :=
  match e with
  | .compile c => c.toDiagnostic
  | .service s => s.toDiagnostic
  | .config c => c.toDiagnostic
  | .io .. => .error .io e.message
  | .failed _ => .error .buildFailed e.message
  | .cancelled => .error .cancelled e.message

end BuildError

/-! ## Manifests -/

def version : String := "0.1.0"

/-- Adds a text to a sorted list without repetitions. -/
def insertSorted (s : String) : List String → List String
  | [] => [s]
  | t :: rest =>
    if s == t then t :: rest
    else if s < t then s :: t :: rest
    else t :: insertSorted s rest

def sortedSet (texts : List String) : List String :=
  texts.foldl (fun set s => insertSorted s set) []

/-- What was generated, by whom and for what. -/
structure Manifest where
  generator : String := ""
  platform : String := ""
  /-- The keys of the files, sorted and without repetitions. -/
  files : List String := []
  deriving DecidableEq, Inhabited

/-- The key of a file: the names on its path. -/
def Path.key (p : Path) : String :=
  Text.joinWith "/" p.names

namespace Manifest

open Yaml (Decoder)

def path (out : Path) : Path :=
  (out.join ".coders").join "manifest.yaml"

/-- A manifest as a document. -/
def text (m : Manifest) : String :=
  Yaml.document
    [("generator", .str m.generator), ("platform", .str m.platform), ("files", Data.texts m.files)]

/-- A manifest that was read. -/
def decoder : Decoder Manifest :=
  .record "Manifest" ["generator", "platform", "files"] {} fun key place node m => do
    match key with
    | "generator" => return { m with generator := ← Decoder.text place node }
    | "platform" => return { m with platform := ← Decoder.text place node }
    | "files" => return { m with files := sortedSet (← Decoder.list .text place node) }
    | _ => return m

/-- The manifest in a text; one that cannot be read lists nothing. -/
def ofText (text : String) : Manifest :=
  (decoder.run text).toOption.getD {}

/-- The manifest of an output directory; where there is none, nothing was generated. -/
def load (tree : FileTree) (out : Path) : Manifest :=
  match tree.read (path out) with
  | .ok text => ofText text
  | .error _ => {}

/-- Writes the manifest of an output directory. -/
def save (m : Manifest) (tree : FileTree) (out : Path) :
    Except BuildError Unit × FileTree :=
  let file := path out
  let dir := file.parent?.getD ⟨""⟩
  match tree.makeDirectories dir with
  | (.error e, tree) => (.error (.io dir e), tree)
  | (.ok (), tree) =>
    match tree.write file m.text with
    | .error e => (.error (.io file e), tree)
    | .ok tree => (.ok (), tree)

end Manifest

end Scaffold
