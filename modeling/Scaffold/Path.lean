import Scaffold.Text.Basic

/-!
Slash-separated paths. A path keeps the text it was written with; what it means is the list of its
parts, in which empty pieces and inner dots do not count. Two paths are the same when their parts
are.

| here | in the program |
| --- | --- |
| `normalize` | `lexical_normalize` |
-/

namespace Scaffold

/-- A path as written. -/
structure Path where
  text : String
  deriving DecidableEq, Inhabited

namespace Path

/-- One step of a path. -/
inductive Part where
  /-- The root directory. -/
  | root
  /-- A leading dot: the current directory. -/
  | here
  /-- Two dots: the directory above. -/
  | up
  | name (s : String)
  deriving DecidableEq, Inhabited

/-- The text of a part. -/
def Part.text : Part → String
  | .root => "/"
  | .here => "."
  | .up => ".."
  | .name s => s

/-- The part a piece between slashes stands for; empty pieces and dots stand for none. -/
def Part.ofPiece? (piece : String) : Option Part :=
  if piece == "" || piece == "." then none
  else if piece == ".." then some .up
  else some (.name piece)

def isAbsolute (p : Path) : Bool :=
  p.text.toList.head? == some '/'

def pieces (p : Path) : List String :=
  Text.split '/' p.text

/-- The parts of a path: the root if it starts with a slash, a dot if that is the first piece of a
relative path, then what the pieces stand for. -/
def parts (p : Path) : List Part :=
  let rest := p.pieces.filterMap Part.ofPiece?
  if p.isAbsolute then .root :: rest
  else if p.pieces.head? == some "." then .here :: rest
  else rest

/-- The names on a path. -/
def names (p : Path) : List String :=
  p.parts.filterMap fun
    | .name s => some s
    | _ => none

/-- Two paths with the same parts. -/
def same (p q : Path) : Bool :=
  p.parts == q.parts

/-- The path with the given parts, in its plainest text. -/
def ofParts : List Part → Path
  | .root :: rest => ⟨"/" ++ Text.joinWith "/" (rest.map Part.text)⟩
  | parts => ⟨Text.joinWith "/" (parts.map Part.text)⟩

/-- The absolute path of a list of names from the root. -/
def ofNames (names : List String) : Path :=
  ⟨"/" ++ Text.joinWith "/" names⟩

/-- `q` seen from `p`: an absolute `q` stands for itself, any other follows `p` after a slash. -/
def join (p : Path) (q : String) : Path :=
  if (Path.mk q).isAbsolute then ⟨q⟩
  else if p.text == "" || p.text.toList.getLast? == some '/' then ⟨p.text ++ q⟩
  else ⟨p.text ++ "/" ++ q⟩

/-- A reversed text without the slashes and single dots at its end that carry no part. -/
def dropIdleTail : List Char → List Char
  | '/' :: c :: rest => dropIdleTail (c :: rest)
  | '.' :: '/' :: c :: rest => dropIdleTail (c :: rest)
  | '.' :: '/' :: [] => ['/']
  | cs => cs

/-- The path without its last part. The root and the empty path have no parent. -/
def parent? (p : Path) : Option Path :=
  match p.parts.getLast? with
  | none | some .root => none
  | some _ =>
    let base := (dropIdleTail p.text.toList.reverse).dropWhile (· != '/')
    some ⟨String.ofList (dropIdleTail base).reverse⟩

/-- Appends a part to already normalized parts: dots vanish, and two dots remove the last part
unless there is none to remove, where they stay. -/
def stepNormal (kept : List Part) : Part → List Part
  | .here => kept
  | .up =>
    match kept.getLast? with
    | none | some .root => kept ++ [.up]
    | some _ => kept.dropLast
  | part => kept ++ [part]

/-- A path with its dots resolved by text alone, without looking at any file. -/
def normalize (p : Path) : Path :=
  ofParts (p.parts.foldl stepNormal [])

end Path

end Scaffold
