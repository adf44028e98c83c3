import Scaffold.Number.Binary64

/-!
Data documents: the values that configuration files, manifests and prompts are made of.
-/

namespace Scaffold

/-- A data value; the entries of a map keep their order. -/
inductive Data where
  | null
  | bool (b : Bool)
  | int (n : Int)
  | float (x : Binary64)
  | str (s : String)
  | list (items : List Data)
  | map (entries : List (String × Data))
  deriving Inhabited

namespace Data

def texts (ss : List String) : Data :=
  .list (ss.map .str)

/-- A value that may be missing. -/
def optional {α : Type} (f : α → Data) : Option α → Data
  | none => .null
  | some a => f a

/-- An entry that is left out when its value is missing. -/
def entry? {α : Type} (key : String) (f : α → Data) : Option α → List (String × Data)
  | none => []
  | some a => [(key, f a)]

/-- A value tagged with its kind. -/
def tagged (kind : String) (value : Data) : Data :=
  .map [("kind", .str kind), ("value", value)]

/-- A kind without a value. -/
def tag (kind : String) : Data :=
  .map [("kind", .str kind)]

end Data

end Scaffold
