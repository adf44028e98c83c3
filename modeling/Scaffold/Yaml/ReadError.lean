import Scaffold.Number.Format
import Scaffold.Text.Visible
import Scaffold.Yaml.Scalar.Value
import Scaffold.Yaml.SyntaxFault

/-!
Why data cannot be read from a YAML document: its syntax is wrong, or something else stands where a
value of some kind is expected.
-/

namespace Scaffold.Yaml

/-- What stands in a document. -/
inductive Found where
  | scalar (v : Value)
  | sequence
  | map
  deriving DecidableEq, Inhabited

namespace Found

/-- A number with a fraction, with a point in any case. -/
def floatText (x : Binary64) : String :=
  let text := Number.plainText x
  if x.isInfinite || x.isNaN || text.toList.contains '.' then text else text ++ ".0"

/-- An integer, with its width if it does not fit into 64 bits. -/
def intText (n : Int) : String :=
  if n < -Int.pow 2 63 then s!"integer `{n}` as i128"
  else if Int.pow 2 64 ≤ n then s!"integer `{n}` as u128"
  else s!"integer `{n}`"

/-- What stands in a document, as messages put it. -/
def phrase : Found → String
  | .sequence => "sequence"
  | .map => "map"
  | .scalar .nothing => "unit value"
  | .scalar (.bool b) => s!"boolean `{b}`"
  | .scalar (.int n) => intText n
  | .scalar (.float x) => s!"floating point `{floatText x}`"
  | .scalar (.text s) => s!"string {Text.quoted s}"

end Found

/-- What is expected in a document. -/
inductive Expected where
  | bool
  | int
  | float
  | null
  | nat64
  | text
  | path
  | key
  | list
  | record (name : String)
  deriving DecidableEq, Inhabited

/-- What is expected, as messages put it. -/
def Expected.phrase : Expected → String
  | .bool => "a boolean"
  | .int => "an integer"
  | .float => "a float"
  | .null => "null"
  | .nat64 => "u64"
  | .text => "a string"
  | .path => "path string"
  | .key => "field identifier"
  | .list => "a sequence"
  | .record name => s!"struct {name}"

/-- What is wrong with a value. -/
inductive Misfit where
  | kind (found : Found) (expected : Expected)
  /-- A tag promises what the text is not. -/
  | value (text : String) (expected : Expected)
  | repeatedKey (key : String)
  deriving DecidableEq, Inhabited

/-- What is wrong with a value, as messages put it. -/
def Misfit.phrase : Misfit → String
  | .kind found expected => s!"invalid type: {found.phrase}, expected {expected.phrase}"
  | .value s expected => s!"invalid value: string {Text.quoted s}, expected {expected.phrase}"
  | .repeatedKey key => s!"duplicate field `{key}`"

/-- The way from the root of a document to a value, as messages give it; the root is empty. -/
structure Place where
  text : String := ""
  deriving DecidableEq, Inhabited

namespace Place

/-- The value under a key. -/
def key (p : Place) (k : String) : Place :=
  ⟨if p.text == "" then k else p.text ++ "." ++ k⟩

def item (p : Place) (i : Nat) : Place :=
  ⟨p.text ++ s!"[{i}]"⟩

def note (p : Place) : String :=
  if p.text == "" then "" else p.text ++ ": "

end Place

/-- Why data cannot be read. -/
inductive ReadError where
  /-- A character that must not stand in a document, after so many bytes. -/
  | forbiddenChar (offset : Nat)
  | malformed (fault : SyntaxFault)
  /-- A reference to an anchor that is not there. -/
  | unknownAnchor (mark : Mark)
  | severalDocuments
  /-- References were followed too often. -/
  | tooManyReferences
  /-- A value that does not fit, and where it stands once that is known. -/
  | misfit (reason : Misfit) (position : Option (Place × Mark))
  deriving DecidableEq, Inhabited

namespace ReadError

/-- The error with this position, if it is about a value and has none. -/
def locate (place : Place) (mark : Mark) : ReadError → ReadError
  | .misfit reason none => .misfit reason (some (place, mark))
  | e => e

/-- The text of an error. -/
def message : ReadError → String
  | .forbiddenChar offset =>
    "control characters are not allowed" ++ if offset == 0 then "" else s!" at position {offset}"
  | .malformed fault => fault.message
  | .unknownAnchor mark => "unknown anchor" ++ mark.note
  | .severalDocuments =>
    "deserializing from YAML containing more than one document is not supported"
  | .tooManyReferences => "repetition limit exceeded"
  | .misfit reason none => reason.phrase
  | .misfit reason (some (place, mark)) => place.note ++ reason.phrase ++ mark.note

end ReadError

end Scaffold.Yaml
