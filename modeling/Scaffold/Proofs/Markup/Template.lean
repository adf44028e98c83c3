import Mathlib.Data.List.Basic
import Mathlib.Logic.Function.Iterate
import Scaffold.Code
import Scaffold.Proofs.Markup.Lowered
import Scaffold.Proofs.Markup.Printing

/-!
# Markup in templates

A page is written as a template: its tree again as markup, one tag, text or expression on a line.

* `spells_templateText`: a template that shows all its nodes spells the escaped tree.
* `Misreads`, `misreads_templateText`: any other template is read as something else, because of the
  first node that it does not show.
* `parse_template_iff`: both together, from the text of a page to the text of its template.
-/

/-!
## The text of code

Code without gaps is written line by line, and a line depends only on how deep it stands
(`Code.toList_render`). So what surrounds a piece of code indents it, and nothing else.
-/

namespace Scaffold

namespace Code

variable {unit : String} {depth : Nat} {c c' : Code}

/-- The characters of a line of code, `depth` levels deeper. -/
def itemText (unit : String) (depth : Nat) : CodeItem → List Char
  | .line more text =>
    (if text == "" then "" else Text.repeated (depth + more) unit ++ text).toList ++ ['\n']
  | .blank => []

/-- The characters of lines of code, `depth` levels deeper. -/
def linesText (unit : String) (depth : Nat) (c : Code) : List Char :=
  c.flatMap (itemText unit depth)

theorem linesText_append (unit : String) (depth : Nat) (c c' : Code) :
    linesText unit depth (c ++ c') = linesText unit depth c ++ linesText unit depth c' :=
  List.flatMap_append

theorem linesText_nest (unit : String) (depth : Nat) (c : Code) :
    linesText unit depth (nest c) = linesText unit (depth + 1) c := by
  rw [linesText, linesText, nest, List.flatMap_map]
  refine List.flatMap_congr fun item _ => ?_
  cases item with
  | line more text =>
    rw [itemText, itemText, Nat.add_right_comm]
    rfl
  | blank => rfl

theorem linesText_iterate_nest (unit : String) (depth : Nat) (c : Code) :
    linesText unit 0 (nest^[depth] c) = linesText unit depth c := by
  suffices h : ∀ more, linesText unit more (nest^[depth] c) = linesText unit (more + depth) c by
    simpa using h 0
  induction depth generalizing c with
  | zero => exact fun _ => rfl
  | succ depth ih =>
    intro more
    rw [Function.iterate_succ_apply, ih, linesText_nest]
    rfl

theorem blank_not_mem_nest (h : CodeItem.blank ∉ c) : CodeItem.blank ∉ nest c := by
  intro hmem
  obtain ⟨item, hitem, heq⟩ := List.mem_map.1 hmem
  cases item with
  | line more text => cases heq
  | blank => exact h hitem

theorem blank_not_mem_iterate_nest (h : CodeItem.blank ∉ c) (depth : Nat) :
    CodeItem.blank ∉ nest^[depth] c := by
  induction depth generalizing c with
  | zero => exact h
  | succ depth ih => exact ih (blank_not_mem_nest h)

theorem blank_not_mem_line (text : String) : CodeItem.blank ∉ line text := by
  simp [line]

theorem blank_not_mem_append (h : CodeItem.blank ∉ c) (h' : CodeItem.blank ∉ c') :
    CodeItem.blank ∉ c ++ c' :=
  fun hmem => (List.mem_append.1 hmem).elim h h'

/-- Code without gaps is written line by line. -/
theorem toList_render (unit : String) (h : CodeItem.blank ∉ c) :
    (c.render unit).toList = linesText unit 0 c := by
  suffices hfold : ∀ w : CodeWriter, w.unit = unit → (c.foldl CodeWriter.item w).out.toList =
      w.out.toList ++ linesText unit w.depth c from hfold { unit } rfl
  induction c with
  | nil => intro w _; simp [linesText]
  | cons item c ih =>
    obtain ⟨hitem, hc⟩ := not_or.1 (mt List.mem_cons.2 h)
    intro w hunit
    cases item with
    | blank => exact absurd rfl hitem
    | line more text =>
      rw [List.foldl_cons, ih hc (w.item (.line more text)) hunit]
      simp [CodeWriter.item, CodeWriter.line, CodeWriter.out, Text.unlines, linesText, itemText,
        hunit]

end Code

end Scaffold

namespace Scaffold

namespace Markup

open Lexer (bind_ok)
open Text (isBlank trimChars)
open Target

variable {cs cs' before rest : List Char} {fuel : Nat} {tag : List Char}
  {attrs : List (String × Option String)} {node : MarkupNode} {nodes read : List MarkupNode}

/-! ## Lines of a template -/

/-- The lines of a template, `depth` levels deeper. -/
def templateText (depth : Nat) (nodes : List MarkupNode) : List Char :=
  Code.linesText Web.indentUnit depth (Web.vueNodes (lowered nodes))

theorem templateText_cons (depth : Nat) (node : MarkupNode) (nodes : List MarkupNode) :
    templateText depth (node :: nodes) = Code.linesText Web.indentUnit depth
      (Web.vueNode (loweredNode node)) ++ templateText depth nodes := by
  rw [templateText, lowered, Web.vueNodes, Code.linesText_append]
  rfl

/-- A line is its text with blanks around it. -/
theorem linesText_line (depth : Nat) (text : String) : ∃ blanks,
    (∀ c ∈ blanks, isBlank c = true) ∧
      Code.linesText Web.indentUnit depth (Code.line text) =
        blanks ++ (text.toList ++ ['\n']) := by
  have hindent : ∀ n, ∀ c ∈ (Text.repeated n Web.indentUnit).toList, isBlank c = true := by
    intro n
    induction n with
    | zero => simp [Text.repeated]
    | succ n ih =>
      intro c hc
      rw [Text.repeated, String.toList_append, List.mem_append] at hc
      exact hc.elim (fun hc => by simp [Web.indentUnit] at hc; subst hc; decide) (ih c)
  by_cases hempty : text = ""
  · subst hempty
    exact ⟨[], by simp, rfl⟩
  · refine ⟨(Text.repeated depth Web.indentUnit).toList, hindent depth, ?_⟩
    simp [Code.linesText, Code.line, Code.itemText, hempty]

theorem quote_not_mem_escape (v : String) : '"' ∉ (Text.replaceChar '"' "&quot;" v).toList := by
  rw [toList_replaceChar, List.mem_flatMap]
  rintro ⟨c, -, hc⟩
  split at hc
  · exact absurd hc (by decide)
  · rename_i hne
    exact hne (by simpa using (List.mem_singleton.1 hc).symm)

theorem isAttr_escaped (hattrs : ∀ attr ∈ attrs, IsAttr attr) :
    ∀ attr ∈ escapedAttrs attrs, IsAttr attr := by
  intro attr hattr
  obtain ⟨⟨name, value⟩, hmem, rfl⟩ := List.mem_map.1 hattr
  refine ⟨(hattrs _ hmem).name, fun v hv => ?_⟩
  obtain ⟨v, -, rfl⟩ := Option.map_eq_some_iff.1 hv
  exact .inl (quote_not_mem_escape v)

theorem toList_openTag (tag : String) (attrs : List (String × Option String)) :
    (Web.openTag tag attrs).toList = '<' :: (tag.toList ++ attrsText (escapedAttrs attrs)) := by
  rw [Web.openTag, String.toList_append, String.toList_join, List.flatMap_map, escapedAttrs,
    attrsText, List.flatMap_map]
  have hstart : (s!"<{tag}").toList = '<' :: tag.toList := by
    simp
    rfl
  rw [hstart, List.cons_append]
  refine congrArg (fun cs => '<' :: (tag.toList ++ cs)) (List.flatMap_congr fun attr _ => ?_)
  obtain ⟨name, value⟩ := attr
  cases value with
  | none =>
    simp [attrText]
    rfl
  | some v =>
    simp [attrText, valueText, quote_not_mem_escape]
    rfl

theorem toList_openTag_append (tag : String) (attrs : List (String × Option String)) (s : String) :
    (Web.openTag tag attrs ++ s).toList =
      '<' :: (tag.toList ++ (attrsText (escapedAttrs attrs) ++ s.toList)) := by
  rw [String.toList_append, toList_openTag, List.cons_append, List.append_assoc]

def closingTag (tag : String) : String :=
  s!"</{tag}>"

theorem toList_closingTag (tag : String) : (closingTag tag).toList = closingText tag.toList := by
  simp [closingTag, closingText]
  rfl

section

variable {tag : String} (hpascal : isComponentTag tag = true → Naming.pascal tag = tag)
include hpascal

theorem pascal_component : (if isComponentTag tag then Naming.pascal tag else tag) = tag := by
  split
  · exact hpascal ‹_›
  · rfl

/-- An element without children is a line of the template. -/
theorem vueNode_childless (attrs : List (String × Option String)) (component : Option NameRef) :
    Web.vueNode (loweredNode (.element tag attrs component [])) = Code.line
      (Web.openTag tag attrs ++
        if isComponentTag tag || Web.voidTags.contains tag || tag == "slot" then " />"
        else ">" ++ closingTag tag) := by
  rw [loweredNode, Web.vueNode, pascal_component hpascal, lowered]
  dsimp only [List.isEmpty_nil]
  rw [if_pos rfl]
  split
  · rfl
  · refine congrArg Code.line ?_
    rw [← String.append_assoc]
    simp [closingTag, String.append_assoc]
    rfl

/-- The children of an element are lines between its tags. -/
theorem vueNode_between (attrs : List (String × Option String)) (component : Option NameRef)
    (node : MarkupNode) (nodes : List MarkupNode) :
    Web.vueNode (loweredNode (.element tag attrs component (node :: nodes))) =
      Code.between (Web.openTag tag attrs ++ ">")
        (Web.vueNodes (lowered (node :: nodes))) (closingTag tag) := by
  rw [loweredNode, Web.vueNode, pascal_component hpascal, if_neg (by simp [lowered])]
  rfl

end

/-! ## Templates that are read back -/

/-- Behind blanks, and with the end of a line behind it, `cs` is read as the node. -/
def SpellsNode (cs : List Char) (node : MarkupNode) : Prop :=
  ∃ blanks core, (∀ c ∈ blanks, isBlank c = true) ∧ cs = blanks ++ (core ++ ['\n']) ∧
    ∀ before, Passes core before (textNodes before ++ [node]) []

theorem SpellsNode.append (h : SpellsNode cs node) (h' : Spells cs' nodes) :
    Spells (cs ++ cs') (node :: nodes) := by
  obtain ⟨blanks, core, hblanks, rfl, hcore⟩ := h
  have hrest : Spells ('\n' :: cs') nodes := h'.line
  rw [List.append_assoc, List.append_assoc]
  exact (hrest.cons hcore).blank_append hblanks

/-- A line that is read as a node. -/
theorem spellsNode_line {text : String} (depth : Nat)
    (h : ∀ before, Passes text.toList before (textNodes before ++ [node]) []) :
    SpellsNode (Code.linesText Web.indentUnit depth (Code.line text)) node := by
  obtain ⟨blanks, hblanks, hline⟩ := linesText_line depth text
  exact ⟨blanks, text.toList, hblanks, hline, h⟩

theorem startsWithText_escaped (nodes : List MarkupNode) :
    startsWithText (escaped nodes) = startsWithText nodes := by
  cases nodes with
  | nil => rfl
  | cons node nodes => cases node <;> simp [escaped, escapedNode, startsWithText, isText]

/-- An escaped text is trimmed, not empty, and no tag starts in it. -/
theorem escapeText_chars {s : String} (hne : s ≠ "") (htrim : Text.trim s = s) :
    (Web.escapeText s).toList ≠ [] ∧
      trimChars (Web.escapeText s).toList = (Web.escapeText s).toList ∧
      '<' ∉ (Web.escapeText s).toList := by
  rw [toList_escapeText]
  refine ⟨?_, ?_, ?_⟩
  · obtain ⟨c, cs, hcs⟩ := List.exists_cons_of_ne_nil (show s.toList ≠ [] by simpa using hne)
    rw [ne_eq, List.flatMap_eq_nil_iff]
    exact fun hnil => escapeChar_ne_nil c (hnil c (by simp [hcs]))
  · exact trimChars_escape (Text.trim_eq_self_iff.1 htrim)
  · rw [List.mem_flatMap]
    rintro ⟨c, -, hc⟩
    exact open_not_mem_escapeChar c hc

/-- A text on a line of the template. -/
theorem linesText_escapeText {s : String} (hne : s ≠ "") (htrim : Text.trim s = s) (depth : Nat) :
    ∃ blanks chars, (∀ c ∈ blanks, isBlank c = true) ∧
      Code.linesText Web.indentUnit depth (Code.line (Web.escapeText s)) =
        blanks ++ (chars ++ ['\n']) ∧
      Web.escapeText s = String.ofList chars ∧ chars ≠ [] ∧ trimChars chars = chars ∧
      '<' ∉ chars ∧ (['\x7b', '\x7b'] <:+: chars ↔ ['\x7b', '\x7b'] <:+: s.toList) := by
  obtain ⟨blanks, hblanks, hline⟩ := linesText_line depth (Web.escapeText s)
  obtain ⟨hchars, htrimmed, hopen⟩ := escapeText_chars hne htrim
  exact ⟨blanks, _, hblanks, hline, String.ofList_toList.symm, hchars, htrimmed, hopen,
    by rw [toList_escapeText, doubled_escape]⟩

/-- A text on a line of the template, in front of nodes that do not start with one. -/
theorem spells_text {s : String} (hne : s ≠ "") (htrim : Text.trim s = s)
    (hbrace : ¬['\x7b', '\x7b'] <:+: s.toList) (hnodes : startsWithText nodes = false)
    (h : Spells cs nodes) (depth : Nat) :
    Spells (Code.linesText Web.indentUnit depth (Code.line (Web.escapeText s)) ++ cs)
      (.text (Web.escapeText s) :: nodes) := by
  obtain ⟨blanks, chars, hblanks, hline, heq, hchars, htrimmed, hopen, hdoubled⟩ :=
    linesText_escapeText hne htrim depth
  rw [hline, heq, List.append_assoc, List.append_assoc, List.singleton_append]
  exact (h.text hchars htrimmed (fun before => Passes.line hopen (mt hdoubled.1 hbrace) before)
    hnodes).blank_append hblanks

/-- The lines of an element: an opening tag, what is inside, and a closing tag. -/
theorem linesText_between (depth : Nat) (body : Code) {opening closing : String}
    (hopening : opening.toList = '<' :: (tag ++ (attrsText attrs ++ ['>'])))
    (hclosing : closing.toList = closingText tag) :
    ∃ blanks blanks', (∀ c ∈ blanks, isBlank c = true) ∧ (∀ c ∈ blanks', isBlank c = true) ∧
      Code.linesText Web.indentUnit depth (Code.between opening body closing) =
        blanks ++ ('<' :: (tag ++ tagRest attrs .opened
          ('\n' :: (Code.linesText Web.indentUnit (depth + 1) body ++ blanks') ++
            closingText tag)) ++ ['\n']) := by
  obtain ⟨blanks, hblanks, hfirst⟩ := linesText_line depth opening
  obtain ⟨blanks', hblanks', hlast⟩ := linesText_line depth closing
  refine ⟨blanks, blanks', hblanks, hblanks', ?_⟩
  rw [Code.between, Code.linesText_append, Code.linesText_append, Code.linesText_nest, hfirst,
    hlast, hopening, hclosing]
  simp [tagRest, TagEnd.text]

/-- An element with its children on lines of their own. -/
theorem spellsNode_between (depth : Nat) {body : Code} (htag : IsTag tag)
    (hattrs : ∀ attr ∈ attrs, IsAttr attr) (hvoid : isVoid (String.ofList tag) = false)
    {opening closing : String}
    (hopening : opening.toList = '<' :: (tag ++ (attrsText attrs ++ ['>'])))
    (hclosing : closing.toList = closingText tag)
    (hbody : Spells (Code.linesText Web.indentUnit (depth + 1) body) nodes) :
    SpellsNode (Code.linesText Web.indentUnit depth (Code.between opening body closing))
      (.element (String.ofList tag) attrs none nodes) := by
  obtain ⟨blanks, blanks', hblanks, hblanks', hlines⟩ :=
    linesText_between depth body hopening hclosing
  have hinside := (hbody.append_blank hblanks').line
  exact ⟨blanks, _, hblanks, hlines, htag.passes (hinside.readsElement htag hattrs hvoid)⟩

/-- An element without children, on one line. -/
theorem spellsNode_childless {tag : String} (htag : IsTag tag.toList)
    (hattrs : ∀ attr ∈ attrs, IsAttr attr)
    (hpascal : isComponentTag tag = true → Naming.pascal tag = tag)
    (hshown : isVoid tag = true → isComponentTag tag = true ∨ tag ∈ Web.voidTags)
    (component : Option NameRef) (depth : Nat) :
    SpellsNode (Code.linesText Web.indentUnit depth
      (Web.vueNode (loweredNode (.element tag attrs component []))))
      (.element tag (escapedAttrs attrs) none []) := by
  have hattrs' := isAttr_escaped hattrs
  have hread : ReadsElement
      (tag.toList ++ tagRest (escapedAttrs attrs) .opened (closingText tag.toList))
      (.element tag (escapedAttrs attrs) none []) ∨ isVoid tag = true := by
    cases hvoid : isVoid tag with
    | true => exact .inr rfl
    | false =>
      have h := Spells.nil.readsElement htag hattrs' (by rwa [String.ofList_toList])
      rw [String.ofList_toList] at h
      exact .inl h
  rw [vueNode_childless hpascal]
  refine spellsNode_line depth ?_
  rw [toList_openTag_append]
  split
  · have h := readsElement_childless htag hattrs' .selfClosed (fun h => by cases h)
    rw [String.ofList_toList, tagRest, List.append_nil] at h
    exact htag.passes h
  · rename_i hopen
    simp only [Bool.or_eq_true, beq_iff_eq, not_or, List.contains_iff_mem] at hopen
    have hcontent := hread.resolve_right fun hvoid =>
      (hshown hvoid).elim hopen.1.1 hopen.1.2
    rw [String.toList_append, toList_closingTag]
    exact htag.passes hcontent

mutual

theorem spellsNode_vueNode : ∀ node, Formed node → isText node = false → EachNode IsPascal node →
    EachNode IsShown node → ∀ depth, SpellsNode (Code.linesText Web.indentUnit depth
      (Web.vueNode (loweredNode node))) (escapedNode node)
  | .text _, _, h, _, _, _ => by cases h
  | .interpolation source, h, _, _, _, depth => by
    cases h with
    | interpolation htrim hclose =>
      rw [loweredNode, Web.vueNode, escapedNode]
      refine spellsNode_line depth fun before => ?_
      have hpasses := passes_interpolation htrim hclose before
      rw [printNode] at hpasses
      simpa using hpasses
  | .element tag attrs component nodes, h, _, hpascal, hshown, depth => by
    cases h with
    | element htag hattrs hvoid hnodes =>
      rw [escapedNode]
      cases nodes with
      | nil => exact spellsNode_childless htag hattrs hpascal.1 hshown.1 none depth
      | cons node nodes =>
        have hname := String.ofList_toList (s := tag)
        have hcontent : isVoid (String.ofList tag.toList) = false := by
          rw [hname, ← Bool.not_eq_true]
          exact fun h => by cases hvoid h
        have hinside := spells_templateText (node :: nodes) hnodes hpascal.2 hshown.2 (depth + 1)
        have hspells := spellsNode_between depth htag (isAttr_escaped hattrs) hcontent
          (toList_openTag_append tag attrs ">") (toList_closingTag tag) hinside
        rw [hname] at hspells
        rw [vueNode_between hpascal.1]
        exact hspells

theorem spells_templateText : ∀ nodes, AllFormed nodes → Each IsPascal nodes → Each IsShown nodes →
    ∀ depth, Spells (templateText depth nodes) (escaped nodes)
  | [], _, _, _, _ => .nil
  | node :: nodes, .cons hnode hapart hnodes, hpascal, hshown, depth => by
    have hrest := spells_templateText nodes hnodes hpascal.2 hshown.2 depth
    rw [templateText_cons]
    cases htext : isText node with
    | false => exact (spellsNode_vueNode node hnode htext hpascal.1 hshown.1 depth).append hrest
    | true =>
      cases hnode with
      | @text s hne htrim =>
        rw [loweredNode, Web.vueNode, escaped, escapedNode]
        exact spells_text hne htrim hshown.1 (by rw [startsWithText_escaped]; exact hapart htext)
          hrest depth
      | interpolation | element => cases htext

end

/-! ## Templates that are not read back -/

/-- Whatever follows, reading `cs` behind blanks, or behind a text if the nodes do not start with
one, does not give the nodes. -/
def Misreads (cs : List Char) (nodes : List MarkupNode) : Prop :=
  ∀ closing before fuel rest left, (∀ tag ∈ closing, isVoid tag = false) →
    (startsWithText nodes = true → textNodes before = []) → 2 * (cs ++ rest).length < fuel →
      children closing fuel before (cs ++ rest) ≠ .ok (textNodes before ++ nodes, left)

/-- What is read of a text with two braces side by side: a part of the text, and an expression. -/
theorem children_doubled {closing : Option String} {s : List Char} (hopen : '<' ∉ s)
    (hbrace : ['\x7b', '\x7b'] <:+: s)
    (h : children closing fuel before (s ++ cs) = .ok (read, rest)) :
    ∃ (front : List Char) (source : String) (more : List MarkupNode), front.length < s.length ∧
      read = textNodes (front.reverse ++ before) ++ .interpolation source :: more := by
  induction s generalizing fuel before with
  | nil => simp at hbrace
  | cons c s ih =>
    rw [List.mem_cons, not_or] at hopen
    cases fuel with
    | zero => rw [children] at h; cases h
    | succ fuel =>
      by_cases hhead : c = '\x7b' ∧ s.head? = some '\x7b'
      · obtain ⟨rfl, hs⟩ := hhead
        obtain ⟨s, rfl⟩ := List.head?_eq_some_iff.1 hs
        rw [List.cons_append, List.cons_append] at h
        cases hread : readInterpolation (s ++ cs) with
        | none => rw [children_unterminated hread] at h; cases h
        | some found =>
          obtain ⟨more, -, rfl⟩ := behind_eq_ok.1 ((children_interpolation hread).symm.trans h)
          exact ⟨[], String.ofList (trimChars found.1), more, by simp, by simp⟩
      · have hdoubled : ['\x7b', '\x7b'] <:+: s := by
          refine (List.infix_cons_iff.1 hbrace).resolve_left fun hhere => hhead ?_
          rw [List.cons_prefix_cons, List.singleton_prefix_iff_head?_eq_some] at hhere
          exact ⟨hhere.1.symm, hhere.2⟩
        have hnext : c = '\x7b' → (s ++ cs).head? ≠ some '\x7b' := fun hc => by
          have hne : s ≠ [] := by
            rintro rfl
            simp at hdoubled
          obtain ⟨d, s, rfl⟩ := List.exists_cons_of_ne_nil hne
          simpa using fun hd => hhead ⟨hc, by simpa using hd⟩
        rw [List.cons_append, children_char (Ne.symm hopen.1) hnext] at h
        obtain ⟨front, source, more, hlength, rfl⟩ := ih hopen.2 hdoubled h
        exact ⟨c :: front, source, more, by simpa using hlength, by simp⟩

/-- A text that is read behind blanks is part of what was read. -/
theorem length_pending {front : List Char} {s : String} (hbefore : textNodes before = [])
    (h : .text s ∈ textNodes (front.reverse ++ before)) : s.toList.length ≤ front.length := by
  have hblanks : ∀ c ∈ before.reverse, isBlank c = true := fun c hc =>
    textNodes_eq_nil.1 hbefore c (List.mem_reverse.1 hc)
  rw [textNodes, List.reverse_append, List.reverse_reverse,
    Text.trimChars_blank_append hblanks] at h
  split at h
  · cases h
  · obtain rfl : s = _ := by simpa using h
    rw [String.toList_ofList]
    exact (Text.trimChars_isPart front).length_le

namespace Misreads

theorem blank_append {blanks : List Char} (hblanks : ∀ c ∈ blanks, isBlank c = true)
    (h : Misreads cs nodes) : Misreads (blanks ++ cs) nodes := by
  intro closing before fuel rest left hclosing hbefore hfuel
  have hsame := textNodes_blank hblanks before
  rw [List.append_assoc] at hfuel ⊢
  obtain ⟨fuel', hfuel', hread⟩ := Passes.blank hblanks closing fuel (cs ++ rest) hfuel
  rw [hread, behind_nil, ← hsame]
  exact h closing _ fuel' rest left hclosing (by rwa [hsame]) hfuel'

theorem line (h : Misreads cs nodes) : Misreads ('\n' :: cs) nodes :=
  h.blank_append isBlank_lineBreak

theorem append (h : Misreads cs nodes) (cs' : List Char) : Misreads (cs ++ cs') nodes := by
  intro closing before fuel rest left hclosing hbefore hfuel
  rw [List.append_assoc] at hfuel ⊢
  exact h closing before fuel (cs' ++ rest) left hclosing hbefore hfuel

/-- A text on a line of its own that is read back. -/
theorem text {s : List Char} (hne : s ≠ []) (htrim : trimChars s = s)
    (hs : ∀ before, Passes (cs ++ ['\n']) before [] ('\n' :: (s.reverse ++ before)))
    (h : Misreads cs' nodes) (hnodes : startsWithText nodes = false) :
    Misreads (cs ++ '\n' :: cs') (.text (String.ofList s) :: nodes) := by
  intro closing before fuel rest left hclosing hbefore hfuel
  have hblank := hbefore rfl
  rw [← List.singleton_append (x := '\n'), ← List.append_assoc, List.append_assoc] at hfuel ⊢
  obtain ⟨fuel', hfuel', hread⟩ := hs before closing fuel (cs' ++ rest) hfuel
  have hmisread := h closing ('\n' :: (s.reverse ++ before)) fuel' rest left hclosing
    (by simp [hnodes]) hfuel'
  rw [textNodes_line, textNodes_text hne htrim hblank] at hmisread
  rw [hread, behind_nil, hblank]
  exact hmisread

/-- A node that is read back. -/
theorem cons (hcs : ∀ before, Passes cs before (textNodes before ++ [node]) [])
    (h : Misreads cs' nodes) : Misreads (cs ++ cs') (node :: nodes) := by
  intro closing before fuel rest left hclosing _ hfuel
  rw [List.append_assoc] at hfuel ⊢
  obtain ⟨fuel', hfuel', hread⟩ := hcs before closing fuel (cs' ++ rest) hfuel
  have hmisread := h closing [] fuel' rest left hclosing (fun _ => rfl) hfuel'
  rw [hread]
  intro hok
  obtain ⟨more, hmore, hsame⟩ := behind_eq_ok.1 hok
  rw [List.append_assoc] at hsame
  obtain ⟨-, rfl⟩ := List.cons.inj (List.append_cancel_left hsame)
  exact hmisread hmore

/-- A text with two braces side by side starts an expression, so it is not read to its end. -/
theorem text_doubled {s : List Char} (hopen : '<' ∉ s) (hbrace : ['\x7b', '\x7b'] <:+: s) :
    Misreads (s ++ cs) (.text (String.ofList s) :: nodes) := by
  intro closing before fuel rest left _ hbefore _ hok
  rw [List.append_assoc] at hok
  obtain ⟨front, source, more, hfront, heq⟩ := children_doubled hopen hbrace hok
  rw [hbefore rfl, List.nil_append] at heq
  cases hpending : textNodes (front.reverse ++ before) with
  | nil =>
    rw [hpending] at heq
    cases heq
  | cons node others =>
    rw [hpending] at heq
    obtain ⟨rfl, -⟩ := List.cons.inj heq
    have hmem : .text (String.ofList s) ∈ textNodes (front.reverse ++ before) := by
      rw [hpending]
      exact List.mem_cons_self
    have hshort := length_pending (hbefore rfl) hmem
    rw [String.toList_ofList] at hshort
    omega

/-- A tag that is read without content is not followed by its closing tag. -/
theorem void {tag : List Char} (htag : IsTag tag) (hattrs : ∀ attr ∈ attrs, IsAttr attr)
    (hvoid : isVoid (String.ofList tag) = true) :
    Misreads ('<' :: (tag ++ tagRest attrs .opened (closingText tag)) ++ cs) nodes := by
  intro closing before fuel rest left hclosing _ hfuel hok
  have hopened : Passes ('<' :: (tag ++ tagRest attrs .opened [])) before _ [] :=
    htag.passes (readsElement_childless htag hattrs .opened fun _ => hvoid) before
  have hsplit : '<' :: (tag ++ tagRest attrs .opened (closingText tag)) ++ cs ++ rest =
      '<' :: (tag ++ tagRest attrs .opened []) ++ (closingText tag ++ (cs ++ rest)) := by
    simp [tagRest]
  rw [hsplit] at hfuel hok
  obtain ⟨fuel', hfuel', hread⟩ := hopened closing fuel _ hfuel
  rw [hread] at hok
  obtain ⟨more, hmore, -⟩ := behind_eq_ok.1 hok
  obtain ⟨fuel', rfl⟩ := Nat.exists_eq_add_one.2 (Nat.zero_lt_of_lt hfuel')
  rw [closingText, List.append_assoc, List.cons_append, List.cons_append,
    List.singleton_append] at hmore
  have hother : closing ≠ some (String.ofList tag) := by
    rintro rfl
    exact absurd (hclosing _ rfl) (by simp [hvoid])
  obtain ⟨stop, hstop⟩ := children_closing_other hother htag.chars [] (cs ++ rest)
  cases hmore.symm.trans hstop

/-- An element with children that are not read back. -/
theorem inside (h : Misreads cs nodes) (hne : nodes ≠ []) {tag : List Char} (htag : IsTag tag)
    (hattrs : ∀ attr ∈ attrs, IsAttr attr) (more : List MarkupNode) :
    Misreads ('<' :: (tag ++ tagRest attrs .opened (cs ++ closingText tag)) ++ cs')
      (.element (String.ofList tag) attrs none nodes :: more) := by
  intro closing before fuel rest left _ _ hfuel hok
  obtain ⟨c, name, rfl⟩ := List.exists_cons_of_ne_nil htag.ne_nil
  obtain ⟨fuel, rfl⟩ := Nat.exists_eq_add_one.2 (Nat.zero_lt_of_lt hfuel)
  have hsplit :
      '<' :: (c :: name ++ tagRest attrs .opened (cs ++ closingText (c :: name))) ++ cs' ++ rest =
      '<' :: (c :: name ++ tagRest attrs .opened
        (cs ++ (closingText (c :: name) ++ (cs' ++ rest)))) := by
    simp [tagRest]
  rw [hsplit] at hfuel hok
  rw [List.length_cons] at hfuel
  rw [List.cons_append, children_element (htag.letter c rfl)] at hok
  obtain ⟨⟨node, rest'⟩, helement, hok⟩ := bind_ok hok
  obtain ⟨read, -, heq⟩ := behind_eq_ok.1 hok
  rw [List.append_assoc] at heq
  obtain ⟨rfl, -⟩ := List.cons.inj (List.append_cancel_left heq)
  have hfuel' : 2 * (c :: name ++ tagRest attrs .opened
      (cs ++ (closingText (c :: name) ++ (cs' ++ rest)))).length < fuel := by omega
  obtain ⟨fuel', hfuel', hinside⟩ := element_opening htag hattrs hfuel'
  rw [← List.cons_append, hinside, readInside] at helement
  split at helement
  · cases helement
    exact hne rfl
  · rename_i hvoid
    have hclosing : ∀ other ∈ some (String.ofList (c :: name)), isVoid other = false := by
      simpa using hvoid
    cases hread : children (some (String.ofList (c :: name))) fuel' []
        (cs ++ (closingText (c :: name) ++ (cs' ++ rest))) with
    | error stop =>
      rw [hread] at helement
      cases helement
    | ok found =>
      rw [hread] at helement
      cases helement
      exact h _ [] fuel' _ found.2 hclosing (fun _ => rfl) hfuel' hread

theorem parse (h : Misreads cs nodes) : parse (String.ofList cs) ≠ .ok nodes := by
  have hmisread := fun left => h none [] (2 * cs.length + 2) [] left nofun (fun _ => rfl) (by simp)
  rw [List.append_nil] at hmisread
  rw [Markup.parse, String.toList_ofList]
  intro hok
  split at hok
  · rename_i left hread
    cases hok
    exact hmisread left hread
  · cases hok

end Misreads

/-- A node that is read back, in front of others. -/
theorem SpellsNode.misreads (h : SpellsNode cs node) (h' : Misreads cs' nodes) :
    Misreads (cs ++ cs') (node :: nodes) := by
  obtain ⟨blanks, core, hblanks, rfl, hcore⟩ := h
  rw [List.append_assoc, List.append_assoc]
  exact (h'.line.cons hcore).blank_append hblanks

/-- A text that is read back, in front of others. -/
theorem misreads_text {s : String} (hne : s ≠ "") (htrim : Text.trim s = s)
    (hbrace : ¬['\x7b', '\x7b'] <:+: s.toList) (hnodes : startsWithText nodes = false)
    (h : Misreads cs nodes) (depth : Nat) :
    Misreads (Code.linesText Web.indentUnit depth (Code.line (Web.escapeText s)) ++ cs)
      (.text (Web.escapeText s) :: nodes) := by
  obtain ⟨blanks, chars, hblanks, hline, heq, hchars, htrimmed, hopen, hdoubled⟩ :=
    linesText_escapeText hne htrim depth
  rw [hline, heq, List.append_assoc, List.append_assoc, List.singleton_append]
  exact (h.text hchars htrimmed (fun before => Passes.line hopen (mt hdoubled.1 hbrace) before)
    hnodes).blank_append hblanks

/-- An element with children that are not read back, on lines of its own. -/
theorem misreads_between (depth : Nat) {body : Code} (htag : IsTag tag)
    (hattrs : ∀ attr ∈ attrs, IsAttr attr)
    {opening closing : String}
    (hopening : opening.toList = '<' :: (tag ++ (attrsText attrs ++ ['>'])))
    (hclosing : closing.toList = closingText tag) (hne : nodes ≠ [])
    (hbody : Misreads (Code.linesText Web.indentUnit (depth + 1) body) nodes)
    (more : List MarkupNode) :
    Misreads (Code.linesText Web.indentUnit depth (Code.between opening body closing))
      (.element (String.ofList tag) attrs none nodes :: more) := by
  obtain ⟨blanks, blanks', hblanks, -, hlines⟩ := linesText_between depth body hopening hclosing
  rw [hlines]
  exact ((hbody.append blanks').line.inside hne htag hattrs more).blank_append hblanks

/-- An element that is read without content, with a closing tag. -/
theorem misreads_void {tag : String} (htag : IsTag tag.toList)
    (hattrs : ∀ attr ∈ attrs, IsAttr attr) (hvoid : isVoid tag = true) (depth : Nat) :
    Misreads (Code.linesText Web.indentUnit depth
      (Code.line (Web.openTag tag attrs ++ (">" ++ closingTag tag)))) nodes := by
  obtain ⟨blanks, hblanks, hline⟩ :=
    linesText_line depth (Web.openTag tag attrs ++ (">" ++ closingTag tag))
  rw [hline, toList_openTag_append, String.toList_append, toList_closingTag]
  exact (Misreads.void htag (isAttr_escaped hattrs) (by rwa [String.ofList_toList])).blank_append
    hblanks

mutual

theorem misreads_vueNode : ∀ node, Formed node → EachNode IsPascal node → ¬EachNode IsShown node →
    ∀ depth more, Misreads (Code.linesText Web.indentUnit depth
      (Web.vueNode (loweredNode node))) (escapedNode node :: more)
  | .text s, h, _, hhidden, depth, more => by
    cases h with
    | text hne htrim =>
      obtain ⟨blanks, chars, hblanks, hline, heq, -, -, hopen, hdoubled⟩ :=
        linesText_escapeText hne htrim depth
      rw [loweredNode, Web.vueNode, escapedNode, hline, heq]
      exact (Misreads.text_doubled hopen (hdoubled.2 (not_not.1 hhidden))).blank_append hblanks
  | .interpolation source, _, _, hhidden, _, _ => absurd trivial hhidden
  | .element tag attrs component nodes, h, hpascal, hhidden, depth, more => by
    cases h with
    | element htag hattrs hvoid hnodes =>
      rw [escapedNode]
      by_cases hshown : IsShown (.element tag attrs none nodes)
      · cases nodes with
        | nil => exact absurd ⟨hshown, trivial⟩ hhidden
        | cons node nodes =>
          have hinside := misreads_templateText (node :: nodes) hnodes hpascal.2
            (fun h => hhidden ⟨hshown, h⟩) (depth + 1)
          have hne : escaped (node :: nodes) ≠ [] := by simp [escaped]
          have hmisreads := misreads_between depth htag (isAttr_escaped hattrs)
            (toList_openTag_append tag attrs ">") (toList_closingTag tag) hne hinside more
          rw [String.ofList_toList] at hmisreads
          rw [vueNode_between hpascal.1]
          exact hmisreads
      · obtain ⟨htagvoid, hpair⟩ := Classical.not_imp.1 hshown
        obtain rfl := hvoid htagvoid
        have hslot : tag ≠ "slot" := by
          rintro rfl
          exact absurd htagvoid (by decide)
        rw [vueNode_childless hpascal.1, if_neg (by simp_all)]
        exact misreads_void htag hattrs htagvoid depth

theorem misreads_templateText : ∀ nodes, AllFormed nodes → Each IsPascal nodes →
    ¬Each IsShown nodes → ∀ depth, Misreads (templateText depth nodes) (escaped nodes)
  | [], _, _, hhidden, _ => absurd trivial hhidden
  | node :: nodes, .cons hnode hapart hnodes, hpascal, hhidden, depth => by
    rw [templateText_cons, escaped]
    by_cases hshown : EachNode IsShown node
    · have hrest := misreads_templateText nodes hnodes hpascal.2 (fun h => hhidden ⟨hshown, h⟩)
        depth
      cases htext : isText node with
      | false => exact (spellsNode_vueNode node hnode htext hpascal.1 hshown depth).misreads hrest
      | true =>
        cases hnode with
        | @text s hne htrim =>
          rw [loweredNode, Web.vueNode, escapedNode]
          exact misreads_text hne htrim hshown (by rw [startsWithText_escaped]; exact hapart htext)
            hrest depth
        | interpolation | element => cases htext
    · exact (misreads_vueNode node hnode hpascal.1 hshown depth _).append _

end

/-! ## Reading a template -/

mutual

theorem blank_not_mem_vueNode : ∀ node : Model.Markup, CodeItem.blank ∉ Web.vueNode node
  | .text s => by
    rw [Web.vueNode]
    exact Code.blank_not_mem_line _
  | .interpolation source => by
    rw [Web.vueNode]
    exact Code.blank_not_mem_line _
  | .element tag attrs component nodes => by
    have hbetween : ∀ first last, CodeItem.blank ∉ Code.between first (Web.vueNodes nodes) last :=
      fun first last => Code.blank_not_mem_append (Code.blank_not_mem_append
        (Code.blank_not_mem_line first) (Code.blank_not_mem_nest (blank_not_mem_vueNodes nodes)))
        (Code.blank_not_mem_line last)
    rw [Web.vueNode]
    split_ifs <;> first | exact Code.blank_not_mem_line _ | exact hbetween _ _

/-- A template has no gaps. -/
theorem blank_not_mem_vueNodes : ∀ nodes : List Model.Markup, CodeItem.blank ∉ Web.vueNodes nodes
  | [] => by simp [Web.vueNodes]
  | node :: nodes => by
    rw [Web.vueNodes]
    exact Code.blank_not_mem_append (blank_not_mem_vueNode node) (blank_not_mem_vueNodes nodes)

end

section

open Source Source.Parser Lowering

variable {text : String} {env : ParserEnv} {pos : Position} {linked : List MarkupNode}
  {s s' : ParserState}

/-- The template of a page is read as the markup of the page, at any depth, exactly if it shows
every node as what it is. -/
theorem parse_template_iff (hread : parse text = .ok nodes) (hpascal : Each IsPascal nodes)
    (hlinked : attachComponents pos nodes env s = (.ok linked, s')) (b : Binder) (ds : Diagnostics)
    (depth : Nat) :
    parse ((Code.nest^[depth] (Web.vueNodes (lowerMarkup ((b.markup linked).run ds).1))).render
      Web.indentUnit) = .ok (escaped nodes) ↔ Each IsShown nodes := by
  have hformed := parse_formed hread
  have hchars : ((Code.nest^[depth] (Web.vueNodes (lowered nodes))).render Web.indentUnit).toList =
      templateText depth nodes := by
    rw [Code.toList_render _ (Code.blank_not_mem_iterate_nest (blank_not_mem_vueNodes _) depth),
      Code.linesText_iterate_nest, templateText]
  rw [lower_bind, lower_attachComponents hlinked, ← String.ofList_toList (s := Code.render _ _),
    hchars]
  refine ⟨fun h => ?_, fun hshown => (spells_templateText nodes hformed hpascal hshown depth).parse⟩
  by_contra hhidden
  exact (misreads_templateText nodes hformed hpascal hhidden depth).parse h

theorem parse_template_iff_nested :
    let text := "<p title='\"'><Card />1 < 2<ul><li @click=go></li></ul><br>\x7b\x7b a \x7d\x7d</p>"
    let nodes : List MarkupNode := [.element "p" [("title", some "\"")] none
      [.element "Card" [] none [], .text "1 < 2",
        .element "ul" [] none [.element "li" [("@click", some "go")] none []],
        .element "br" [] none [], .interpolation "a"]]
    let linked : List MarkupNode := [.element "p" [("title", some "\"")] none
      [.element "Card" [] (some ⟨"Card", ⟨1, 1⟩, 0, 0, none⟩) [], .text "1 < 2",
        .element "ul" [] none [.element "li" [("@click", some "go")] none []],
        .element "br" [] none [], .interpolation "a"]]
    parse text = .ok nodes ∧ Each IsPascal nodes ∧ Each IsShown nodes ∧
      parse ((Code.nest^[2] (Web.vueNodes (lowerMarkup linked))).render Web.indentUnit) =
        .ok (escaped nodes) := by
  intro text nodes linked
  have hread : parse text = .ok nodes := by decide +kernel
  have hpascal : Each IsPascal nodes := by
    simp only [nodes, Each, EachNode, IsPascal]
    decide +kernel
  have hshown : Each IsShown nodes := by
    simp only [nodes, Each, EachNode, IsShown]
    decide +kernel
  have hlinked : attachComponents ⟨1, 1⟩ nodes
      ⟨0, default, 0, {}, fun _ s => (.error .cancelled, s)⟩ { rest := [], session := {} } =
        (.ok linked, { rest := [], seq := 1, session := {} }) := rfl
  have hparse := (parse_template_iff hread hpascal hlinked ⟨{}, default, ""⟩ [] 2).2 hshown
  rw [lower_bind] at hparse
  exact ⟨hread, hpascal, hshown, hparse⟩

/-- A tag without content in mixed case is closed again, and a text starts an expression. -/
theorem parse_template_hidden :
    (parse "<bR>" = .ok [.element "bR" [] none []] ∧
      parse (Code.render Web.indentUnit (Web.vueNodes (lowerMarkup [.element "bR" [] none []]))) =
        .error ⟨9, "unexpected </bR>"⟩) ∧
    parse "\x7b<!---->\x7b a \x7d\x7d" = .ok [.text "\x7b\x7b a \x7d\x7d"] ∧
      parse (Code.render Web.indentUnit
        (Web.vueNodes (lowerMarkup [.text "\x7b\x7b a \x7d\x7d"]))) = .ok [.interpolation "a"] := by
  decide +kernel

end

end Markup

end Scaffold
