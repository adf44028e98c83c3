import Scaffold.CompileError

/-!
A tree of directories and text files as a value. Paths are followed step by step as a system without
links follows them: each step needs a directory to stand on.
-/

namespace Scaffold

/-- What stands at a place of a tree. -/
inductive FileEntry where
  | directory
  | file (text : String)
  deriving DecidableEq, Inhabited

/-- A tree of files. Places are lists of names from the root, and the root always exists. -/
structure FileTree where
  entries : List (List String × FileEntry) := []
  /-- The directory that relative paths start from. -/
  current : List String := []
  deriving Inhabited

namespace FileTree

def entry? (t : FileTree) (place : List String) : Option FileEntry :=
  if place.isEmpty then some .directory else t.entries.lookup place

/-- The entries with one place set. -/
def setEntry (place : List String) (entry : FileEntry) :
    List (List String × FileEntry) → List (List String × FileEntry)
  | [] => [(place, entry)]
  | (p, e) :: rest =>
    if p == place then (p, entry) :: rest else (p, e) :: setEntry place entry rest

def set (t : FileTree) (place : List String) (entry : FileEntry) : FileTree :=
  { t with entries := setEntry place entry t.entries }

/-- One step from a directory. -/
def step (place : List String) (piece : String) : List String :=
  if piece == "" || piece == "." then place
  else if piece == ".." then place.dropLast
  else place ++ [piece]

/-- The longest name in a directory, in bytes. -/
def maxName : Nat := 255

/-- Paths of this many bytes or more are refused as a whole. -/
def maxPath : Nat := 4096

/-- Follows the pieces of a path. The last place need not exist, all before it must be
directories; a name that is too long is noticed when it is looked up. -/
def walk (t : FileTree) : (place : List String) → (pieces : List String) →
    Except FileError (List String)
  | place, [] => .ok place
  | place, piece :: rest =>
    match t.entry? place with
    | none => .error .notFound
    | some (.file _) => .error .notADirectory
    | some .directory =>
      if maxName < piece.utf8ByteSize then .error .nameTooLong
      else walk t (step place piece) rest

/-- The place of a path. -/
def place (t : FileTree) (p : Path) : Except FileError (List String) :=
  if p.text == "" then .error .notFound
  else if p.text.toList.contains '\x00' then .error .nulInPath
  else if maxPath ≤ p.text.utf8ByteSize then .error .nameTooLong
  else t.walk (if p.isAbsolute then [] else t.current) p.pieces

/-- What stands at a path. -/
def find (t : FileTree) (p : Path) : Except FileError FileEntry := do
  match t.entry? (← t.place p) with
  | some entry => .ok entry
  | none => .error .notFound

def pathExists (t : FileTree) (p : Path) : Bool :=
  (t.find p).toBool

/-- A file stands at the path. -/
def isFile (t : FileTree) (p : Path) : Bool :=
  match t.find p with
  | .ok (.file _) => true
  | _ => false

/-- A directory stands at the path. -/
def isDirectory (t : FileTree) (p : Path) : Bool :=
  match t.find p with
  | .ok .directory => true
  | _ => false

/-- The text of a file. -/
def read (t : FileTree) (p : Path) : Except FileError String := do
  match ← t.find p with
  | .file text => .ok text
  | .directory => .error .isADirectory

/-- The path itself without detours, if something stands there; else the path with its dots resolved
by text alone. -/
def canonical (t : FileTree) (p : Path) : Path :=
  match t.place p with
  | .ok place => if (t.entry? place).isSome then Path.ofNames place else p.normalize
  | .error _ => p.normalize

/-- The path without the slashes at its end, except for the root. -/
def withoutSlashes (p : Path) : Path :=
  if Text.trimEndOf '/' p.text == "" then p else ⟨Text.trimEndOf '/' p.text⟩

/-- Writes a file, new or in place of the old one; its directory must exist. A path that ends with a
slash names a directory. -/
def write (t : FileTree) (p : Path) (text : String) : Except FileError FileTree := do
  let place ← t.place (withoutSlashes p)
  match t.entry? place with
  | some .directory => .error .isADirectory
  | _ =>
    if Text.endsWith "/" p.text then .error .isADirectory else .ok (t.set place (.file text))

/-- Makes one directory; what it stands in must exist. Slashes at the end of the path do not
count. -/
def makeDirectory (t : FileTree) (p : Path) : Except FileError FileTree := do
  let place ← t.place (withoutSlashes p)
  match t.entry? place with
  | some _ => .error .alreadyExists
  | none => .ok (t.set place .directory)

/-- Makes a directory that may be there already. -/
def ensureDirectory (t : FileTree) (p : Path) : Except FileError Unit × FileTree :=
  match t.makeDirectory p with
  | .ok t => (.ok (), t)
  | .error e => (if t.isDirectory p then .ok () else .error e, t)

/-- It failed because what the directory stands in is missing. -/
def isMissing : Except FileError Unit → Bool
  | .error .notFound => true
  | _ => false

/-- Makes a directory after the ones it stands in; one that exists is fine, and what was made before
a failure stays. A path has more parts than its parent, so the number of parts is enough fuel. -/
def makeDirectoriesFrom : (fuel : Nat) → FileTree → Path → Except FileError Unit × FileTree
  | 0, t, _ => (.error .notFound, t)
  | fuel + 1, t, p =>
    if p.text == "" then (.ok (), t)
    else
      let made := t.ensureDirectory p
      if isMissing made.1 then
        match p.parent? with
        | none => made
        | some parent =>
          match makeDirectoriesFrom fuel made.2 parent with
          | (.error e, t) => (.error e, t)
          | (.ok (), t) => t.ensureDirectory p
      else made

def makeDirectories (t : FileTree) (p : Path) : Except FileError Unit × FileTree :=
  makeDirectoriesFrom (p.pieces.length + 2) t p

def remove (t : FileTree) (place : List String) : FileTree :=
  { t with entries := t.entries.filter fun (p, _) => !place.isPrefixOf p }

/-- Puts a file at a place, with the directories above it, whatever stood in the way. -/
def put (t : FileTree) (place : List String) (entry : FileEntry) : FileTree :=
  let above := (List.range place.length).map (place.take ·)
  let t := above.foldl (fun t dir => if dir.isEmpty then t else t.set dir .directory) t
  t.set place entry

/-- The files under a place, with the names from there on, in the order of their paths. -/
def filesUnder (t : FileTree) (place : List String) : List (String × String) :=
  let files := t.entries.filterMap fun
    | (p, .file text) =>
      if place.isPrefixOf p then some (Text.joinWith "/" (p.drop place.length), text) else none
    | (_, .directory) => none
  files.mergeSort fun a b => decide (a.1 ≤ b.1)

end FileTree

end Scaffold
