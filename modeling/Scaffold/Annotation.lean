import Scaffold.Number.Format

/-!
Annotations: ordered key and value pairs in front of a declaration. A key written again takes the
new value and keeps its place.

| here | in the program |
| --- | --- |
| `AnnotationValue.str?`, `int?` | `as_str`, `as_i64` |
| `AnnotationValue.text` | `fmt` of `AnnotationValue` |
| `AnnotationBlock.ofPairs`, `insert`, `merge` | `from_pairs`, `insert`, `merge` |
| `AnnotationBlock.get?`, `text?` | `get`, `text` |
-/

namespace Scaffold

/-- The value of an annotation. -/
inductive AnnotationValue where
  | str (s : String)
  | int (n : Int)
  | float (x : Binary64)
  | bool (b : Bool)
  deriving DecidableEq, Inhabited

namespace AnnotationValue

/-- The text of a value. -/
def text : AnnotationValue → String
  | .str s => s
  | .int n => toString n
  | .float x => Number.plainText x
  | .bool b => if b then "true" else "false"

/-- The text of a value written as text. -/
def str? : AnnotationValue → Option String
  | .str s => some s
  | _ => none

/-- The integer of a value written as an integer. -/
def int? : AnnotationValue → Option Int
  | .int n => some n
  | _ => none

end AnnotationValue

/-- The annotations of one declaration, each key once. -/
structure AnnotationBlock where
  entries : List (String × AnnotationValue) := []
  deriving DecidableEq, Inhabited

namespace AnnotationBlock

/-- The entries with `key` set to `value`: in its place if it is there, else at the end. -/
def setEntry (key : String) (value : AnnotationValue) :
    List (String × AnnotationValue) → List (String × AnnotationValue)
  | [] => [(key, value)]
  | (k, v) :: rest => if k == key then (k, value) :: rest else (k, v) :: setEntry key value rest

def insert (b : AnnotationBlock) (key : String) (value : AnnotationValue) : AnnotationBlock :=
  ⟨setEntry key value b.entries⟩

/-- Sets the keys of a list of pairs from left to right. -/
def insertAll (b : AnnotationBlock) (pairs : List (String × AnnotationValue)) : AnnotationBlock :=
  pairs.foldl (fun b (k, v) => b.insert k v) b

def ofPairs (pairs : List (String × AnnotationValue)) : AnnotationBlock :=
  insertAll {} pairs

/-- Both blocks; the second wins where both have a key. -/
def merge (b other : AnnotationBlock) : AnnotationBlock :=
  b.insertAll other.entries

def get? (b : AnnotationBlock) (key : String) : Option AnnotationValue :=
  (b.entries.find? (·.1 == key)).map (·.2)

/-- The text of the value of a key, whatever its kind. -/
def text? (b : AnnotationBlock) (key : String) : Option String :=
  (b.get? key).map AnnotationValue.text

end AnnotationBlock

end Scaffold
