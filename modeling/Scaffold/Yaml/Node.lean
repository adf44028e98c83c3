import Scaffold.Yaml.ReadError
import Scaffold.Yaml.Token

/-!
YAML documents as trees. Scalars keep their text, and what they stand for is decided where they are
used. A document whose syntax is wrong is a tree up to that point, where it breaks off.

Anchors are numbers here. A reference holds the number that its name had where the reference is
written, and stands for the last node of the document with that number, so it may lead into a node
that it is part of. References are never followed in this module.
-/

namespace Scaffold.Yaml

/-- A node of a document, with the place where it starts. -/
inductive Node where
  | scalar (mark : Mark) (text : String) (style : ScalarStyle) (tag : Option String)
  | list (mark : Mark) (items : List Node)
  | map (mark : Mark) (entries : List (Node × Node))
  | anchored (number : Nat) (node : Node)
  | reference (mark : Mark) (number : Nat)
  /-- The document breaks off. -/
  | cut (error : ReadError)
  deriving Inhabited

namespace Node

def empty (mark : Mark) : Node :=
  .scalar mark "" .plain none

/-- A node with its anchor, if it has one. -/
def withAnchor (node : Node) : Option Nat → Node
  | some number => .anchored number node
  | none => node

mutual

/-- Why a document breaks off inside a node, if it does. -/
def cut? : Node → Option ReadError
  | .scalar .. | .reference .. => none
  | .list _ items => cutItems? items
  | .map _ entries => cutEntries? entries
  | .anchored _ node => node.cut?
  | .cut error => some error

/-- Why a document breaks off inside the items of a list. -/
def cutItems? : List Node → Option ReadError
  | [] => none
  | item :: rest => item.cut?.or (cutItems? rest)

/-- Why a document breaks off inside the entries of a map. -/
def cutEntries? : List (Node × Node) → Option ReadError
  | [] => none
  | (key, value) :: rest => (key.cut?.or value.cut?).or (cutEntries? rest)

end

mutual

/-- The nodes with an anchor and their numbers, in the order in which they start. -/
def anchors : Node → List (Nat × Node)
  | .scalar .. | .reference .. | .cut _ => []
  | .list _ items => anchorsOfItems items
  | .map _ entries => anchorsOfEntries entries
  | .anchored number node => (number, node) :: node.anchors

/-- The nodes with an anchor in the items of a list. -/
def anchorsOfItems : List Node → List (Nat × Node)
  | [] => []
  | item :: rest => item.anchors ++ anchorsOfItems rest

/-- The nodes with an anchor in the entries of a map. -/
def anchorsOfEntries : List (Node × Node) → List (Nat × Node)
  | [] => []
  | (key, value) :: rest => key.anchors ++ value.anchors ++ anchorsOfEntries rest

end

mutual

/-- How much is written of a node: a scalar and a reference count once, a list and a map once for
each of their ends. Where the document breaks off the second end is missing. -/
def size : Node → Nat
  | .scalar .. | .reference .. => 1
  | .list _ items => 1 + sizeOfItems items
  | .map _ entries => 1 + sizeOfEntries entries
  | .anchored _ node => node.size
  | .cut _ => 0

/-- How much is written of the items of a list and of its end. -/
def sizeOfItems : List Node → Nat
  | [] => 1
  | .cut _ :: _ => 0
  | item :: rest => item.size + sizeOfItems rest

/-- How much is written of the entries of a map and of its end. -/
def sizeOfEntries : List (Node × Node) → Nat
  | [] => 1
  | (.cut _, _) :: _ => 0
  | (key, value) :: rest => key.size + value.size + sizeOfEntries rest

end

end Node

end Scaffold.Yaml
