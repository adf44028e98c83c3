import Scaffold.Lowering
import Scaffold.Proofs.Markup.Reading
import Scaffold.Proofs.Parser.Basic
import Scaffold.Source.Binding
import Scaffold.Source.Parser.Decl
import Scaffold.Target.Web

/-!
# Markup in the code model

What becomes of the markup of a page before it is written.

* `lowered nodes`: the tree in the code model; capitalized tags are components. The parser and the
  binder find components, and neither changes a tag (`lower_attachComponents`, `lower_bind`).
* `escaped nodes`: the tree with special characters of texts and quotes of values escaped.
* `IsShown`: what a template can show. A text must not start an expression, and the tag of an
  element that is read without content must be known as such. Escaping helps with neither
  (`doubled_escape`).
-/

namespace Scaffold

namespace Markup

open Text (isBlank trimChars)
open Target

variable {cs cs' : List Char}

/-! ## Escaped trees -/

/-- How a character of a text is written between tags. -/
def escapeChar (c : Char) : List Char :=
  if c == '&' then "&amp;".toList
  else if c == '<' then "&lt;".toList
  else if c == '>' then "&gt;".toList
  else [c]

theorem toList_replaceChar (c : Char) (image s : String) :
    (Text.replaceChar c image s).toList =
      s.toList.flatMap fun x => if x == c then image.toList else [x] := by
  rw [Text.replaceChar, Text.mapEach, String.toList_ofList]
  refine List.flatMap_congr fun x _ => ?_
  split
  · rfl
  · simp

theorem toList_escapeText (s : String) :
    (Web.escapeText s).toList = s.toList.flatMap escapeChar := by
  rw [Web.escapeText, toList_replaceChar, toList_replaceChar, toList_replaceChar,
    List.flatMap_assoc, List.flatMap_assoc]
  refine List.flatMap_congr fun c _ => ?_
  unfold escapeChar
  by_cases hamp : c = '&'
  · subst hamp
    rfl
  by_cases hopen : c = '<'
  · subst hopen
    rfl
  by_cases hclose : c = '>'
  · subst hclose
    rfl
  · simp [hamp, hopen, hclose]

theorem escapeChar_ne_nil (c : Char) : escapeChar c ≠ [] := by
  unfold escapeChar
  split_ifs <;> simp

theorem open_not_mem_escapeChar (c : Char) : '<' ∉ escapeChar c := by
  unfold escapeChar
  split_ifs
  · decide
  · decide
  · decide
  · rename_i hne _
    exact fun h => hne (by simpa using (List.mem_singleton.1 h).symm)

/-- Escaping leaves the ends of a text blank or not. -/
theorem escapeChar_ends (c : Char) :
    (∀ d ∈ (escapeChar c).head?, isBlank d = isBlank c) ∧
      ∀ d ∈ (escapeChar c).getLast?, isBlank d = isBlank c := by
  unfold escapeChar
  split_ifs <;> simp_all <;> decide

/-- Escaping neither adds nor takes away braces. -/
theorem escapeChar_brace (c : Char) :
    escapeChar c = ['\x7b'] ∧ c = '\x7b' ∨ '\x7b' ∉ escapeChar c ∧ c ≠ '\x7b' := by
  by_cases hbrace : c = '\x7b'
  · subst hbrace
    exact .inl ⟨rfl, rfl⟩
  refine .inr ⟨?_, hbrace⟩
  unfold escapeChar
  split_ifs
  · decide
  · decide
  · decide
  · simpa using Ne.symm hbrace

theorem doubled_cons {d : Char} : [d, d] <:+: d :: cs ↔ cs.head? = some d ∨ [d, d] <:+: cs := by
  rw [List.infix_cons_iff, List.cons_prefix_cons, List.singleton_prefix_iff_head?_eq_some]
  simp

theorem doubled_append {d : Char} (h : d ∉ cs) : [d, d] <:+: cs ++ cs' ↔ [d, d] <:+: cs' := by
  induction cs with
  | nil => rfl
  | cons c cs ih =>
    rw [List.mem_cons, not_or] at h
    rw [List.cons_append, List.infix_cons_iff, List.cons_prefix_cons, ih h.2]
    exact or_iff_right fun hhere => h.1 hhere.1

theorem head_escape (s : List Char) :
    (s.flatMap escapeChar).head? = s.head?.bind fun c => (escapeChar c).head? := by
  cases s with
  | nil => rfl
  | cons c s => rw [List.flatMap_cons, List.head?_append_of_ne_nil _ (escapeChar_ne_nil c)]; rfl

/-- Escaping leaves pairs of braces as they are. -/
theorem doubled_escape (s : List Char) :
    ['\x7b', '\x7b'] <:+: s.flatMap escapeChar ↔ ['\x7b', '\x7b'] <:+: s := by
  induction s with
  | nil => rfl
  | cons c s ih =>
    rw [List.flatMap_cons]
    obtain ⟨hescape, rfl⟩ | ⟨hescape, hne⟩ := escapeChar_brace c
    · rw [hescape, List.singleton_append, doubled_cons, doubled_cons, ih, head_escape]
      refine or_congr_left ?_
      cases s with
      | nil => rfl
      | cons d s =>
        obtain ⟨hd, rfl⟩ | ⟨hd, hne⟩ := escapeChar_brace d
        · simp [hd]
        · simp only [List.head?_cons, Option.bind_some, Option.some_inj, hne, iff_false]
          exact fun hhead => hd (List.mem_of_head? hhead)
    · rw [doubled_append hescape, ih, List.infix_cons_iff, List.cons_prefix_cons]
      exact (or_iff_right fun hhere => hne hhere.1.symm).symm

theorem trimChars_escape {s : List Char} (htrim : trimChars s = s) :
    trimChars (s.flatMap escapeChar) = s.flatMap escapeChar := by
  obtain ⟨hhead, hlast⟩ := Text.trimChars_eq_self_iff.1 htrim
  refine Text.trimChars_eq_self_iff.2 ⟨fun d hd => ?_, fun d hd => ?_⟩
  · cases s with
    | nil => cases hd
    | cons c s =>
      rw [head_escape] at hd
      exact ((escapeChar_ends c).1 d hd).trans (hhead c rfl)
  · obtain rfl | ⟨init, c, rfl⟩ := s.eq_nil_or_concat
    · cases hd
    · rw [List.concat_eq_append, List.flatMap_append, List.flatMap_singleton,
        List.getLast?_append_of_ne_nil _ (escapeChar_ne_nil c)] at hd
      exact ((escapeChar_ends c).2 d hd).trans (hlast c (by simp))

/-- Attributes as a template shows them: double quotes of values are escaped. -/
def escapedAttrs (attrs : List (String × Option String)) : List (String × Option String) :=
  attrs.map fun (name, value) => (name, value.map (Text.replaceChar '"' "&quot;"))

mutual

/-- A node as a template shows it: special characters of texts and double quotes of values are
escaped. -/
def escapedNode : MarkupNode → MarkupNode
  | .text s => .text (Web.escapeText s)
  | .interpolation source => .interpolation source
  | .element tag attrs component nodes =>
    .element tag (escapedAttrs attrs) component (escaped nodes)

/-- Nodes as a template shows them. -/
def escaped : List MarkupNode → List MarkupNode
  | [] => []
  | node :: nodes => escapedNode node :: escaped nodes

end

/-! ## What a template can show -/

mutual

/-- The node and all nodes below it have the property. -/
def EachNode (P : MarkupNode → Prop) : MarkupNode → Prop
  | .element tag attrs component nodes => P (.element tag attrs component nodes) ∧ Each P nodes
  | node => P node

/-- All nodes of the trees have the property. -/
def Each (P : MarkupNode → Prop) : List MarkupNode → Prop
  | [] => True
  | node :: nodes => EachNode P node ∧ Each P nodes

end

/-- A capitalized tag is written as the name of a component. -/
def IsPascal : MarkupNode → Prop
  | .element tag _ _ _ => isComponentTag tag = true → Naming.pascal tag = tag
  | _ => True

/-- A template shows the node as what it is: a text does not start an expression, and a tag that is
read without content is written without content. -/
def IsShown : MarkupNode → Prop
  | .text s => ¬['\x7b', '\x7b'] <:+: s.toList
  | .interpolation _ => True
  | .element tag _ _ _ => isVoid tag = true → isComponentTag tag = true ∨ tag ∈ Web.voidTags

/-! ## Lowered trees -/

mutual

/-- A node in the code model. -/
def loweredNode : MarkupNode → Model.Markup
  | .text s => .text s
  | .interpolation source => .interpolation source
  | .element tag attrs _ nodes => .element tag attrs (isComponentTag tag) (lowered nodes)

/-- Nodes in the code model: capitalized tags are components. -/
def lowered : List MarkupNode → List Model.Markup
  | [] => []
  | node :: nodes => loweredNode node :: lowered nodes

end

section

open Source Source.Parser Lowering

variable {env : ParserEnv} {pos : Position}

mutual

theorem lower_attachComponent : ∀ {node linked : MarkupNode} {s s' : ParserState},
    attachComponent pos node env s = (.ok linked, s') → lowerMarkupNode linked = loweredNode node
  | .element tag attrs component nodes, linked, s, s', h => by
    rw [attachComponent] at h
    have hwith : ∀ (component : Option NameRef) {s : ParserState},
        (do return MarkupNode.element tag attrs component (← attachComponents pos nodes) :
          Parser MarkupNode) env s = (.ok linked, s') → component.isSome = isComponentTag tag →
        lowerMarkupNode linked = loweredNode (.element tag attrs component nodes) := by
      intro component s h hsome
      obtain ⟨linkedNodes, s₁, hnodes, h⟩ := Parser.bind_ok.1 h
      obtain ⟨rfl, -⟩ := pure_ok.1 h
      rw [lowerMarkupNode, loweredNode, hsome, lower_attachComponents hnodes]
    split at h
    · obtain ⟨r, s₁, -, h⟩ := Parser.bind_ok.1 h
      exact hwith (some r) h (by simp_all)
    · exact hwith none h (by simp_all)
  | .text text, linked, s, s', h => by
    rw [attachComponent] at h
    · obtain ⟨rfl, -⟩ := pure_ok.1 h
      rw [lowerMarkupNode, loweredNode]
    · exact nofun
  | .interpolation source, linked, s, s', h => by
    rw [attachComponent] at h
    · obtain ⟨rfl, -⟩ := pure_ok.1 h
      rw [lowerMarkupNode, loweredNode]
    · exact nofun

/-- The parser makes components of capitalized tags. -/
theorem lower_attachComponents : ∀ {nodes linked : List MarkupNode} {s s' : ParserState},
    attachComponents pos nodes env s = (.ok linked, s') → lowerMarkup linked = lowered nodes
  | [], linked, s, s', h => by
    rw [attachComponents] at h
    obtain ⟨rfl, -⟩ := pure_ok.1 h
    rw [lowerMarkup, lowered]
  | node :: nodes, linked, s, s', h => by
    rw [attachComponents] at h
    obtain ⟨linkedNode, s₁, hnode, h⟩ := Parser.bind_ok.1 h
    obtain ⟨linkedNodes, s₂, hnodes, h⟩ := Parser.bind_ok.1 h
    obtain ⟨rfl, -⟩ := pure_ok.1 h
    rw [lowerMarkup, lowered, lower_attachComponent hnode, lower_attachComponents hnodes]

end

mutual

theorem lower_bindNode (b : Binder) : ∀ (node : MarkupNode) (ds : Diagnostics),
    lowerMarkupNode ((b.markupNode node).run ds).1 = lowerMarkupNode node
  | .element tag attrs none nodes, ds => by
    rw [Binder.markupNode, Binder.name?, lowerMarkupNode, ← lower_bind b nodes ds]
    rfl
  | .element tag attrs (some r) nodes, ds => by
    rw [Binder.markupNode, Binder.name?, lowerMarkupNode,
      ← lower_bind b nodes ((b.name .page r).run ds).2]
    rfl
  | .text text, ds => by
    rw [Binder.markupNode]
    · rfl
    · exact nofun
  | .interpolation source, ds => by
    rw [Binder.markupNode]
    · rfl
    · exact nofun

/-- Binding changes no tag, and no component is found or lost. -/
theorem lower_bind (b : Binder) : ∀ (nodes : List MarkupNode) (ds : Diagnostics),
    lowerMarkup ((b.markup nodes).run ds).1 = lowerMarkup nodes
  | [], ds => by
    rw [Binder.markup]
    rfl
  | node :: nodes, ds => by
    rw [Binder.markup, lowerMarkup, ← lower_bindNode b node ds,
      ← lower_bind b nodes ((b.markupNode node).run ds).2]
    rfl

end

end

end Markup

end Scaffold
