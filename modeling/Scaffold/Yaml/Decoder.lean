import Scaffold.Yaml.Parser

/-!
Data from YAML documents. A decoder says what it expects at a place of a document; values are read
in the order in which they are written, so the first thing that is wrong is what is reported, be it
a value of the wrong kind or the place where the document breaks off.

A reference reads as the node that it stands for. As decoders have no way to call themselves they
come to an end even where a node holds a reference to itself, but small documents may stand for
very large data; so references are followed only so often.
-/

namespace Scaffold.Yaml

/-- What references stand for, and how often they may be followed. -/
structure References where
  /-- Nodes and their numbers; of nodes with the same number the first counts. -/
  nodes : List (Nat × Node) := []
  limit : Nat := 0
  deriving Inhabited

/-- The references of a document: the last node with a number counts, and they may be followed a
hundred times for each part of the document. -/
def Document.references (d : Document) : References :=
  ⟨d.root.anchors.reverse, 100 * d.root.size⟩

/-- Reading from a document. It may fail, and it counts how often references were followed. -/
abbrev Reading := ReaderT References (StateT Nat (Except ReadError))

namespace Reading

/-- The node that a reference stands for. -/
def follow (mark : Mark) (number : Nat) : Reading Node := do
  let references ← read
  modify (· + 1)
  if references.limit < (← get) then throw .tooManyReferences
  match references.nodes.lookup number with
  | some node => return node
  | none => throw (.unknownAnchor mark)

/-- A node without its anchor; for a reference the node that it stands for. -/
def resolve : Node → Reading Node
  | .reference mark number => follow mark number
  | .anchored _ node => return node
  | node => return node

/-- Reading inside a value: what does not fit and has no position gets that of the value. -/
def within {α : Type} (place : Place) (mark : Mark) (r : Reading α) : Reading α :=
  fun references count => (r references count).mapError (·.locate place mark)

end Reading

/-- Reads a value from a node that stands at a place. -/
abbrev Decoder (α : Type) := Place → Node → Reading α

def scalarTag (kind : String) : String :=
  "tag:yaml.org,2002:" ++ kind

/-- What is wrong with a scalar that is not what is expected. A tag that names a kind of scalars
binds the text, one of the document's own leaves it free, and any other makes it text. -/
def scalarMisfit (text : String) (style : ScalarStyle) (tag : Option String)
    (expected : Expected) : Misfit :=
  let found (v : Value) : Misfit := .kind (.scalar v) expected
  let tagged (v : Option Value) (kind : Expected) : Misfit := (v.map found).getD (.value text kind)
  match tag with
  | none => found (if style == .plain then Value.ofPlain text else .text text)
  | some t =>
    if t == scalarTag "bool" then tagged ((bool? text).map .bool) .bool
    else if t == scalarTag "int" then tagged ((int? text).map .int) .int
    else if t == scalarTag "float" then tagged ((float? text).map .float) .float
    else if t == scalarTag "null" then tagged (if isNull text then some .nothing else none) .null
    else if Text.startsWith "!" t && style == .plain then found (Value.ofPlain text)
    else found (.text text)

/-- Something else is expected at the place of a node. -/
def misfit (expected : Expected) (place : Place) : Node → ReadError
  | .scalar mark text style tag =>
    .misfit (scalarMisfit text style tag expected) (some (place, mark))
  | .list mark _ => .misfit (.kind .sequence expected) (some (place, mark))
  | .map mark _ => .misfit (.kind .map expected) (some (place, mark))
  | .anchored _ node => misfit expected place node
  | .reference mark _ => .unknownAnchor mark
  | .cut error => error

namespace Decoder

/-- Any scalar as text. -/
def textAs (expected : Expected) : Decoder String := fun place node => do
  match ← Reading.resolve node with
  | .scalar _ text _ _ => return text
  | node => throw (misfit expected place node)

def text : Decoder String :=
  textAs .text

/-- An unquoted scalar, or a literal block with the tag of its kind, that `read` understands. -/
def plain {α : Type} (expected : Expected) (kind : String) (read : String → Option α) :
    Decoder α := fun place node => do
  let node ← Reading.resolve node
  match node with
  | .scalar _ text style tag =>
    let isPlain := style == .plain || (style == .literal && tag == some (scalarTag kind))
    match if isPlain then read text else none with
    | some value => return value
    | none => throw (misfit expected place node)
  | node => throw (misfit expected place node)

def bool : Decoder Bool :=
  plain .bool "bool" bool?

/-- A natural number of at most 64 bits. -/
def nat64 : Decoder Nat :=
  plain .nat64 "int" fun s => (nat? s).filter (· < Nat.pow 2 64)

/-- A value that may be missing: an unquoted null and an empty place stand for none. -/
def optional {α : Type} (read : Decoder α) : Decoder (Option α) := fun place node => do
  let node ← Reading.resolve node
  match node with
  | .scalar _ text .plain tag =>
    if tag.isNone && (text == "" || isNull text) then return none
    else if tag == some (scalarTag "null") then
      if isNull text then return none else throw (.misfit (.value text .null) none)
    else some <$> read place node
  | node => some <$> read place node

/-- A list; an empty place is an empty list. -/
def list {α : Type} (read : Decoder α) : Decoder (List α) := fun place node => do
  let node ← Reading.resolve node
  match node with
  | .list mark items =>
    Reading.within place mark (items.zipIdx.mapM fun (item, i) => read (place.item i) item)
  | .scalar _ text style _ =>
    if text == "" && style == .plain then return [] else throw (misfit .list place node)
  | node => throw (misfit .list place node)

/-- The place of the value under a key. One under a reference has no name. -/
def valuePlace (place : Place) (name : String) : (key : Node) → Place
  | .reference .. => place.key "?"
  | _ => place.key name

/-- The entries of a record at a place. Each of `keys` may occur once and is set in the record;
other keys are passed over. -/
def entries {α : Type} (keys : List String) (set : String → Place → Node → α → Reading α)
    (place : Place) : (seen : List String) → α → List (Node × Node) → Reading α
  | _, record, [] => return record
  | seen, record, (key, value) :: rest => do
    let name ← textAs .key place key
    if !keys.contains name then
      match value.cut? with
      | some error => throw error
      | none => entries keys set place seen record rest
    else if seen.contains name then throw (.misfit (.repeatedKey name) none)
    else
      let record ← set name (valuePlace place name key) value record
      entries keys set place (name :: seen) record rest

/-- A record, from its defaults on; an empty place leaves them all. -/
def record {α : Type} (name : String) (keys : List String) (defaults : α)
    (set : String → Place → Node → α → Reading α) : Decoder α := fun place node => do
  let node ← Reading.resolve node
  match node with
  | .map mark es => Reading.within place mark (entries keys set place [] defaults es)
  | .scalar _ text style _ =>
    if text == "" && style == .plain then return defaults
    else throw (misfit (.record name) place node)
  | node => throw (misfit (.record name) place node)

/-- Reads a whole text. -/
def run {α : Type} (read : Decoder α) (text : String) : Except ReadError α :=
  let document := Document.ofText text
  match read {} document.root document.references 0, document.fault with
  | .error error, _ => .error error
  | .ok _, some error => .error error
  | .ok (value, _), none => .ok value

end Decoder

end Scaffold.Yaml
