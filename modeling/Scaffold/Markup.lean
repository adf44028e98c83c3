import Scaffold.Source.Name
import Scaffold.Text.Case

/-!
Page markup: elements with attributes and children, text, and interpolated expressions.

| here | in the program |
| --- | --- |
| `MarkupNode` | `MarkupNode`, `MarkupElement` |
| `isComponentTag` | `is_component_tag` |
-/

namespace Scaffold

/-- A piece of page markup. -/
inductive MarkupNode where
  /-- An element. A capitalized tag names another page used as a component. -/
  | element (tag : String) (attrs : List (String × Option String)) (component : Option NameRef)
      (children : List MarkupNode)
  | text (s : String)
  /-- An expression between double braces, as written. -/
  | interpolation (source : String)
  deriving Inhabited

mutual

/-- Equality of pieces of markup can be tested. -/
def MarkupNode.decEq : (node node' : MarkupNode) → Decidable (node = node')
  | .text s, .text s' => decidable_of_iff (s = s') (by simp)
  | .interpolation source, .interpolation source' => decidable_of_iff (source = source') (by simp)
  | .element tag attrs component nodes, .element tag' attrs' component' nodes' =>
    have := decEqAll nodes nodes'
    decidable_of_iff (tag = tag' ∧ attrs = attrs' ∧ component = component' ∧ nodes = nodes')
      (by simp)
  | .text _, .interpolation _ | .text _, .element .. | .interpolation _, .text _
  | .interpolation _, .element .. | .element .., .text _ | .element .., .interpolation _ =>
    .isFalse nofun

/-- Equality of markup can be tested. -/
def MarkupNode.decEqAll : (nodes nodes' : List MarkupNode) → Decidable (nodes = nodes')
  | [], [] => .isTrue rfl
  | node :: nodes, node' :: nodes' =>
    have := decEq node node'
    have := decEqAll nodes nodes'
    decidable_of_iff (node = node' ∧ nodes = nodes') (by simp)
  | [], _ :: _ | _ :: _, [] => .isFalse nofun

end

instance : DecidableEq MarkupNode := MarkupNode.decEq

/-- A tag that names a component: its first character is an upper case letter. -/
def isComponentTag (tag : String) : Bool :=
  tag.toList.head?.any Text.isUpper

end Scaffold
