import Scaffold.Proofs.Markup.Reading

/-!
# Printed markup is read back

Every tree that markup is read as has one canonical text, which is read as the same tree.

* `AllFormed nodes`: texts are trimmed, not empty and never side by side; elements that never have
  content have no children; names, values and expressions can be written.
* `children_formed`: what is read is formed.
* `print`, `spells_printNodes`: the canonical text, and that it spells the nodes it is printed from.
* `parse_print`: printing what was read and reading it again changes nothing.
-/

namespace Scaffold.Markup

open Lexer (bind_ok)
open Text (isBlank trimChars)

variable {c : Char} {cs before name rest : List Char} {fuel : Nat} {tag : String}
  {closing : Option String} {node : MarkupNode} {nodes : List MarkupNode}

/-! ## Formed trees -/

mutual

/-- A node as it is read. -/
inductive Formed : MarkupNode → Prop
  | text {s : String} (hne : s ≠ "") (htrim : Text.trim s = s) : Formed (.text s)
  | interpolation {source : String} (htrim : Text.trim source = source)
    (hclose : ¬['\x7d', '\x7d'] <:+: source.toList) : Formed (.interpolation source)
  | element {tag : String} {attrs : List (String × Option String)} {nodes : List MarkupNode}
    (htag : IsTag tag.toList) (hattrs : ∀ attr ∈ attrs, IsAttr attr)
    (hvoid : isVoid tag = true → nodes = []) (hnodes : AllFormed nodes) :
    Formed (.element tag attrs none nodes)

/-- Nodes as they are read: no two texts stand side by side. -/
inductive AllFormed : List MarkupNode → Prop
  | nil : AllFormed []
  | cons {node : MarkupNode} {nodes : List MarkupNode} (hnode : Formed node)
    (hapart : isText node = true → startsWithText nodes = false) (hnodes : AllFormed nodes) :
    AllFormed (node :: nodes)

end

/-! ## What is read is formed -/

theorem AllFormed.pending (h : AllFormed nodes) (hnodes : startsWithText nodes = false)
    (before : List Char) : AllFormed (textNodes before ++ nodes) := by
  unfold textNodes
  dsimp only
  split
  · exact h
  · rename_i hne
    refine .cons (.text ?_ ?_) (fun _ => hnodes) h
    · simpa using hne
    · rw [Text.trim, String.toList_ofList, Text.trimChars_trimChars]

/-- An expression ends at the first two closing braces. -/
theorem readInterpolation_source {source : List Char}
    (h : readInterpolation cs = some (source, rest)) :
    source ++ '\x7d' :: '\x7d' :: rest = cs ∧ ¬['\x7d', '\x7d'] <:+: source := by
  induction cs generalizing source with
  | nil => simp [readInterpolation] at h
  | cons c cs ih =>
    rw [readInterpolation.eq_def] at h
    split at h
    · contradiction
    · rename_i heq
      cases h
      exact ⟨heq.symm, by simp⟩
    · rename_i hend heq
      cases heq
      obtain ⟨⟨source, after⟩, hsource, heq⟩ := Option.map_eq_some_iff.1 h
      cases heq
      obtain ⟨hcs, hpart⟩ := ih hsource
      refine ⟨by rw [← hcs]; rfl, fun h => ?_⟩
      obtain hfront | h := List.infix_cons_iff.1 h
      · obtain ⟨hc, hfront⟩ := List.cons_prefix_cons.1 hfront
        obtain ⟨more, rfl⟩ := hfront
        exact hend _ hc.symm hcs.symm
      · exact hpart h

theorem readValue_isValue {value : String} (h : readValue cs = .ok (value, rest)) :
    IsValue value.toList := by
  unfold readValue at h
  split at h
  · cases h
  · rename_i c cs
    dsimp only at h
    have hmem : c ∉ cs.takeWhile (· != c) := fun hc => by
      simpa using List.mem_takeWhile_imp hc
    split at h
    · rename_i hquote
      split at h
      · cases h
      · cases h
        rw [String.toList_ofList]
        obtain rfl | rfl : c = '"' ∨ c = '\'' := by simpa using hquote
        · exact .inl hmem
        · exact .inr (.inl hmem)
    · rename_i hquote
      cases h
      rw [String.toList_ofList]
      refine .inr (.inr ⟨fun x hx => List.mem_takeWhile_imp hx, fun x hx => ?_⟩)
      rw [List.takeWhile_cons] at hx
      split at hx
      · cases hx
        simpa using hquote
      · cases hx

theorem readAttrs_isAttr {attrs : List (String × Option String)} {ending : TagEnd}
    (h : readAttrs tag fuel cs = .ok (attrs, ending, rest)) : ∀ attr ∈ attrs, IsAttr attr := by
  induction fuel generalizing cs attrs with
  | zero => cases h
  | succ fuel ih =>
    rw [readAttrs] at h
    split at h
    · cases h
    · cases h
      simp
    · cases h
      simp
    · rename_i c more _ _ _
      dsimp only at h
      split at h
      · cases h
      · rename_i hempty
        have hname : IsName (String.ofList ((c :: more).takeWhile isNameChar)).toList := by
          rw [String.toList_ofList]
          exact ⟨by simpa using hempty, fun x hx => List.mem_takeWhile_imp hx⟩
        split at h
        · obtain ⟨⟨value, after⟩, hvalue, h⟩ := bind_ok h
          obtain ⟨_, ⟨⟩, h⟩ := bind_ok h
          obtain ⟨⟨attrs, ending, rest⟩, hattrs, h⟩ := bind_ok h
          cases h
          refine List.forall_mem_cons.2 ⟨⟨hname, ?_⟩, ih hattrs⟩
          rintro _ ⟨⟩
          exact readValue_isValue hvalue
        · obtain ⟨_, ⟨⟩, h⟩ := bind_ok h
          obtain ⟨⟨attrs, ending, rest⟩, hattrs, h⟩ := bind_ok h
          cases h
          exact List.forall_mem_cons.2 ⟨⟨hname, fun _ h => by cases h⟩, ih hattrs⟩

/-- What is read is formed. -/
theorem children_formed : (∀ {closing before cs nodes rest},
      children closing fuel before cs = .ok (nodes, rest) → AllFormed nodes) ∧
    ∀ {c cs node rest}, Text.isLetter c = true → element fuel (c :: cs) = .ok (node, rest) →
      Formed node ∧ isText node = false := by
  induction fuel with
  | zero =>
    refine ⟨fun h => ?_, fun _ h => ?_⟩
    · rw [children] at h
      cases h
    · rw [element] at h
      cases h
  | succ fuel ih =>
    obtain ⟨ihchildren, ihelement⟩ := ih
    refine ⟨fun {closing before cs nodes rest} h => ?_, fun {c cs node rest} hc h => ?_⟩
    · have hpending := AllFormed.pending .nil rfl before
      rw [List.append_nil] at hpending
      rw [children.eq_def] at h
      dsimp only at h
      split at h
      · split at h
        · cases h
        · cases h
          exact hpending
      · split at h
        · cases h
        · rename_i source after hsource
          obtain ⟨⟨nodes, after⟩, hnodes, h⟩ := bind_ok h
          cases h
          have hclose := (readInterpolation_source hsource).2
          refine .pending (.cons (.interpolation ?_ ?_) (fun h => by cases h)
            (ihchildren hnodes)) rfl before
          · rw [Text.trim, String.toList_ofList, Text.trimChars_trimChars]
          · rw [String.toList_ofList]
            exact fun hpart => hclose (hpart.trans (Text.trimChars_isPart source))
      · exact ihchildren h
      · obtain ⟨⟨name, after⟩, -, h⟩ := bind_ok h
        dsimp only at h
        split at h
        · split at h
          · cases h
            exact hpending
          · cases h
        · cases h
      · split at h
        · rename_i hletter
          obtain ⟨⟨node, after⟩, hnode, h⟩ := bind_ok h
          obtain ⟨⟨nodes, after⟩, hnodes, h⟩ := bind_ok h
          cases h
          obtain ⟨hformed, htext⟩ := ihelement hletter hnode
          refine .pending (.cons hformed (by simp [htext]) (ihchildren hnodes)) ?_ before
          simp [startsWithText, htext]
        · exact ihchildren h
      · exact ihchildren h
    · rw [element] at h
      obtain ⟨⟨attrs, ending, after⟩, hread, h⟩ := bind_ok h
      have hchar : isNameChar c = true := by simp [isNameChar, Text.isAlnum, hc]
      have htag : IsTag (String.ofList ((c :: cs).takeWhile isNameChar)).toList := by
        rw [String.toList_ofList]
        refine ⟨⟨?_, fun x hx => List.mem_takeWhile_imp hx⟩, ?_⟩ <;>
          rw [List.takeWhile_cons_of_pos hchar]
        · simp
        · simpa using hc
      have hattrs := readAttrs_isAttr hread
      dsimp only at h
      split at h
      · cases h
        exact ⟨.element htag hattrs (fun _ => rfl) .nil, rfl⟩
      · split at h
        · cases h
          exact ⟨.element htag hattrs (fun _ => rfl) .nil, rfl⟩
        · rename_i hvoid
          obtain ⟨⟨nodes, after⟩, hnodes, h⟩ := bind_ok h
          cases h
          exact ⟨.element htag hattrs (fun h => absurd h hvoid) (ihchildren hnodes), rfl⟩

theorem parse_formed {text : String} (h : parse text = .ok nodes) : AllFormed nodes := by
  unfold parse at h
  dsimp only at h
  split at h
  · rename_i hnodes
    cases h
    exact children_formed.1 hnodes
  · cases h

/-! ## Canonical texts -/

/-- A text with an empty comment behind every sign that could start something else. -/
def printText (s : List Char) : List Char :=
  s.flatMap fun c => if c == '<' || c == '\x7b' then c :: "<!---->".toList else [c]

mutual

/-- The text of a node; an element without children closes itself. -/
def printNode : MarkupNode → List Char
  | .text s => printText s.toList
  | .interpolation source => '\x7b' :: '\x7b' :: ' ' :: source.toList ++ " \x7d\x7d".toList
  | .element tag attrs _ [] => '<' :: (tag.toList ++ tagRest attrs .selfClosed [])
  | .element tag attrs _ (node :: nodes) =>
    '<' :: (tag.toList ++
      tagRest attrs .opened ('\n' :: printNodes (node :: nodes) ++ closingText tag.toList))

/-- The texts of nodes, each on lines of its own. -/
def printNodes : List MarkupNode → List Char
  | [] => []
  | node :: nodes => printNode node ++ '\n' :: printNodes nodes

end

def print (nodes : List MarkupNode) : String :=
  String.ofList (printNodes nodes)

/-! ## Canonical texts are read back -/

theorem passes_printText (s before : List Char) :
    Passes (printText s) before [] (s.reverse ++ before) := by
  induction s generalizing before with
  | nil => exact .refl before
  | cons c s ih =>
    have hchar : Passes (if c == '<' || c == '\x7b' then c :: "<!---->".toList else [c])
        before [] (c :: before) := by
      split
      · exact .sign (by simp_all)
      · exact .char (by simp_all) (by simp_all)
    rw [List.reverse_cons, List.append_assoc]
    exact hchar.trans (ih (c :: before))

/-- Braces that do not close an expression. -/
theorem readInterpolation_append {source : List Char} (h : ¬['\x7d', '\x7d'] <:+: source)
    (rest : List Char) :
    readInterpolation (source ++ ' ' :: '\x7d' :: '\x7d' :: rest) =
      some (source ++ [' '], rest) := by
  induction source with
  | nil => rfl
  | cons c source ih =>
    rw [List.infix_cons_iff, not_or] at h
    have hend : ∀ more, c = '\x7d' →
        source ++ ' ' :: '\x7d' :: '\x7d' :: rest ≠ '\x7d' :: more := by
      rintro more rfl heq
      cases source with
      | nil => cases heq
      | cons d source =>
        cases heq
        exact h.1 ⟨source, rfl⟩
    rw [List.cons_append, readInterpolation.eq_3 _ _ hend, ih h.2]
    rfl

theorem passes_interpolation {source : String} (htrim : Text.trim source = source)
    (hclose : ¬['\x7d', '\x7d'] <:+: source.toList) (before : List Char) :
    Passes (printNode (.interpolation source)) before
      (textNodes before ++ [.interpolation source]) [] := by
  have hread : ∀ rest, readInterpolation ((' ' :: source.toList ++ " \x7d\x7d".toList) ++ rest) =
      some (' ' :: source.toList ++ [' '], rest) := fun rest => by
    have hopen : ¬['\x7d', '\x7d'] <:+: ' ' :: source.toList := fun h =>
      (List.infix_cons_iff.1 h).elim (fun h => by simp at h) hclose
    rw [List.append_assoc]
    exact readInterpolation_append hopen rest
  have hsource : String.ofList (trimChars (' ' :: source.toList ++ [' '])) = source := by
    have hblank : ∀ c ∈ [' '], isBlank c = true := List.forall_mem_singleton.2 (by decide)
    rw [Text.trimChars_append_blank hblank]
    exact (congrArg String.ofList (Text.trimChars_blank_append hblank source.toList)).trans htrim
  have hpasses : Passes _ before (textNodes before ++
      [.interpolation (String.ofList (trimChars (' ' :: source.toList ++ [' '])))]) [] :=
    .interpolation hread
  rwa [hsource] at hpasses

/-- An element that is read behind its opening sign. -/
theorem IsTag.passes {tag more : List Char} (htag : IsTag tag) (h : ReadsElement (tag ++ more) node)
    (before : List Char) :
    Passes ('<' :: (tag ++ more)) before (textNodes before ++ [node]) [] := by
  obtain ⟨c, cs, rfl⟩ := List.exists_cons_of_ne_nil htag.ne_nil
  exact .element (htag.letter c rfl) h

mutual

theorem passes_printNode : ∀ node, Formed node → isText node = false → ∀ before,
    Passes (printNode node) before (textNodes before ++ [node]) []
  | .text _, _, h, _ => by cases h
  | .interpolation _, h, _, before => by
    cases h with
    | interpolation htrim hclose => exact passes_interpolation htrim hclose before
  | .element tag attrs component [], h, _, before => by
    cases h with
    | element htag hattrs hvoid _ =>
      have hread := readsElement_childless htag hattrs .selfClosed nofun
      rw [String.ofList_toList] at hread
      exact htag.passes hread before
  | .element tag attrs component (node :: nodes), h, _, before => by
    cases h with
    | element htag hattrs hvoid hnodes =>
      have hspells : Spells ('\n' :: printNodes (node :: nodes)) (node :: nodes) :=
        (spells_printNodes (node :: nodes) hnodes).line
      have hcontent : isVoid (String.ofList tag.toList) = false := by
        rw [String.ofList_toList, ← Bool.not_eq_true]
        exact fun h => by cases hvoid h
      have hread := hspells.readsElement htag hattrs hcontent
      rw [String.ofList_toList] at hread
      exact htag.passes hread before

/-- The texts of formed nodes spell these nodes. -/
theorem spells_printNodes : ∀ nodes, AllFormed nodes → Spells (printNodes nodes) nodes
  | [], _ => .nil
  | node :: nodes, .cons hnode hapart hnodes => by
    have hrest : Spells ('\n' :: printNodes nodes) nodes :=
      (spells_printNodes nodes hnodes).line
    cases htext : isText node with
    | false => exact hrest.cons (passes_printNode node hnode htext)
    | true =>
      cases hnode with
      | @text s hne htrim =>
        have hchars := Text.trim_eq_self_iff.1 htrim
        have hline := fun before => (passes_printText s.toList before).trans
          (.char (c := '\n') (by decide) (by decide))
        have hspells := (spells_printNodes nodes hnodes).text (by simpa using hne) hchars hline
          (hapart htext)
        rwa [String.ofList_toList] at hspells
      | interpolation | element => cases htext

end

/-- What was read is read again from its canonical text, and it is formed. -/
theorem parse_print {text : String} {nodes : List MarkupNode} (h : parse text = .ok nodes) :
    parse (print nodes) = .ok nodes ∧ AllFormed nodes :=
  ⟨(spells_printNodes nodes (parse_formed h)).parse, parse_formed h⟩

theorem parse_print_signs :
    let text := "<p a=x'\"y b>1 <!-- -->< 2\x7b<!---->\x7b<BR>\x7b\x7b a \x7d\x7d</p>"
    let nodes : List MarkupNode := [.element "p" [("a", some "x'\"y"), ("b", none)] none
      [.text "1 < 2\x7b\x7b", .element "BR" [] none [], .interpolation "a"]]
    parse text = .ok nodes ∧ parse (print nodes) = .ok nodes ∧ AllFormed nodes := by
  have hread : parse "<p a=x'\"y b>1 <!-- -->< 2\x7b<!---->\x7b<BR>\x7b\x7b a \x7d\x7d</p>" =
      .ok [.element "p" [("a", some "x'\"y"), ("b", none)] none
        [.text "1 < 2\x7b\x7b", .element "BR" [] none [], .interpolation "a"]] := by
    decide +kernel
  exact ⟨hread, parse_print hread⟩

end Scaffold.Markup
