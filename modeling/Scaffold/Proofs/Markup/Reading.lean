import Scaffold.Markup.Parser
import Scaffold.Proofs.Text.Lines
import Scaffold.Proofs.Token.Lexing

/-!
# Reading markup piece by piece

Markup is read from left to right. What was read of a text is pending until something else starts,
so a piece of markup takes the pending text to another one and gives the nodes in between.

* `Passes cs before nodes after`: reading `cs` behind the pending text `before` gives `nodes` and
  leaves `after` pending, whatever follows.
* `ReadsAttrs`, `ReadsElement`: the same for the rest of an opening tag and for an element.
* `Spells cs nodes`: behind blanks `cs` is read as `nodes`, of which the last may still be pending.
* `Spells.parse`: a text that spells nodes is read as these nodes.
-/

namespace Scaffold.Markup

open Text (isBlank trimChars)

variable {c : Char} {cs cs' before after pending name blanks rest : List Char} {fuel : Nat}
  {tag : String} {closing : Option String} {node : MarkupNode} {nodes nodes' : List MarkupNode}

/-! ## Names and values -/

/-- The name of a tag or an attribute. -/
structure IsName (name : List Char) : Prop where
  ne_nil : name ≠ []
  chars : ∀ c ∈ name, isNameChar c = true

/-- The name of a tag; the letter tells an opening tag from a sign. -/
structure IsTag (tag : List Char) : Prop extends IsName tag where
  letter : ∀ c ∈ tag.head?, Text.isLetter c = true

theorem isBlank_of_isNameChar (h : isNameChar c = true) : isBlank c = false := by
  refine Bool.eq_false_iff.2 fun hblank => ?_
  simp only [isNameChar, Text.not_isAlnum_of_isBlank hblank, Bool.false_or, Bool.or_eq_true,
    beq_iff_eq] at h
  obtain (((rfl | rfl) | rfl) | rfl) | rfl := h <;> exact absurd hblank (by decide)

/-- What follows a name and is read as the end of it. -/
def EndsName (rest : List Char) : Prop :=
  ∀ c ∈ rest.head?, isNameChar c = false

theorem IsName.dropWhile_isBlank (h : IsName name) (rest : List Char) :
    (name ++ rest).dropWhile isBlank = name ++ rest := by
  obtain ⟨c, cs, rfl⟩ := List.exists_cons_of_ne_nil h.ne_nil
  exact List.dropWhile_cons_of_neg (by simp [isBlank_of_isNameChar (h.chars c (by simp))])

def isBare (c : Char) : Bool :=
  !isBlank c && c != '>' && c != '/'

/-- A value that is written without quotes. -/
structure IsBare (value : List Char) : Prop where
  chars : ∀ c ∈ value, isBare c = true
  head : ∀ c ∈ value.head?, c ≠ '"' ∧ c ≠ '\''

/-- A value that can be written with one kind of quotes or without them. -/
def IsValue (value : List Char) : Prop :=
  '"' ∉ value ∨ '\'' ∉ value ∨ IsBare value

/-- A value in the first kind of quotes that can hold it, or without quotes. -/
def valueText (value : List Char) : List Char :=
  if '"' ∉ value then '"' :: value ++ ['"']
  else if '\'' ∉ value then '\'' :: value ++ ['\'']
  else value

theorem readValue_quoted {quote : Char} {value : List Char} (hquote : quote = '"' ∨ quote = '\'')
    (hvalue : quote ∉ value) (rest : List Char) :
    readValue (quote :: value ++ quote :: rest) = .ok (String.ofList value, rest) := by
  have hall : ∀ c ∈ value, (c != quote) = true := fun c hc =>
    bne_iff_ne.2 fun heq => hvalue (heq ▸ hc)
  have hend : ∀ c ∈ (quote :: rest).head?, (c != quote) = false := by simp
  obtain ⟨htake, hdrop⟩ := Lexer.span_append hall hend
  rw [List.cons_append, readValue]
  dsimp only
  rw [if_pos (by simpa using hquote), htake, hdrop]

theorem readValue_bare {value : List Char} (hvalue : IsBare value) (hne : value ≠ [])
    (hrest : ∀ c ∈ rest.head?, isBare c = false) :
    readValue (value ++ rest) = .ok (String.ofList value, rest) := by
  obtain ⟨c, cs, rfl⟩ := List.exists_cons_of_ne_nil hne
  obtain ⟨htake, hdrop⟩ := Lexer.span_append hvalue.chars hrest
  rw [List.cons_append, readValue]
  dsimp only
  rw [if_neg (by simpa using hvalue.head c rfl)]
  exact congrArg₂ (fun value rest => Except.ok (String.ofList value, rest)) htake hdrop

/-- A written value is read back in front of what ends a value. -/
theorem readValue_valueText {value : List Char} (hvalue : IsValue value)
    (hrest : ∀ c ∈ rest.head?, isBare c = false) :
    readValue (valueText value ++ rest) = .ok (String.ofList value, rest) := by
  unfold valueText
  split
  · rw [List.append_assoc]
    exact readValue_quoted (.inl rfl) ‹_› rest
  split
  · rw [List.append_assoc]
    exact readValue_quoted (.inr rfl) ‹_› rest
  · rename_i hdouble hsingle
    have hne : value ≠ [] := by
      rintro rfl
      exact hdouble List.not_mem_nil
    exact readValue_bare ((hvalue.resolve_left hdouble).resolve_left hsingle) hne hrest

/-! ## Opening tags -/

/-- An attribute that can be written. -/
structure IsAttr (attr : String × Option String) : Prop where
  name : IsName attr.1.toList
  value : ∀ v ∈ attr.2, IsValue v.toList

def attrText (attr : String × Option String) : List Char :=
  ' ' :: attr.1.toList ++ attr.2.elim [] fun v => '=' :: valueText v.toList

def attrsText (attrs : List (String × Option String)) : List Char :=
  attrs.flatMap attrText

/-- The end of an opening tag. -/
def TagEnd.text : TagEnd → List Char
  | .selfClosed => " />".toList
  | .opened => ">".toList

/-- What follows the name of a tag or an attribute in an opening tag. -/
def tagRest (attrs : List (String × Option String)) (ending : TagEnd) (rest : List Char) :
    List Char :=
  attrsText attrs ++ (ending.text ++ rest)

theorem tagRest_cons (attr : String × Option String) (attrs : List (String × Option String))
    (ending : TagEnd) (rest : List Char) :
    tagRest (attr :: attrs) ending rest = attrText attr ++ tagRest attrs ending rest := by
  rw [tagRest, attrsText, List.flatMap_cons, List.append_assoc]
  rfl

/-- What follows a name or a value starts with a blank or ends the tag. -/
theorem tagRest_head (attrs : List (String × Option String)) (ending : TagEnd) (rest : List Char) :
    ∀ c ∈ (tagRest attrs ending rest).head?, c = ' ' ∨ c = '>' := by
  cases attrs with
  | nil => cases ending <;> simp [tagRest, attrsText, TagEnd.text]
  | cons attr attrs => simp [tagRest_cons, attrText]

theorem endsName_tagRest (attrs : List (String × Option String)) (ending : TagEnd)
    (rest : List Char) : EndsName (tagRest attrs ending rest) := by
  intro c hc
  obtain rfl | rfl := tagRest_head attrs ending rest c hc <;> decide

theorem IsName.span (h : IsName name) (hrest : EndsName rest) :
    (name ++ rest).takeWhile isNameChar = name ∧ (name ++ rest).dropWhile isNameChar = rest :=
  Lexer.span_append h.chars hrest

/-- Blanks in front of an attribute or the end of a tag do not count. -/
theorem readAttrs_dropWhile (tag : String) (fuel : Nat) (cs : List Char) :
    readAttrs tag (fuel + 1) (cs.dropWhile isBlank) = readAttrs tag (fuel + 1) cs := by
  rw [readAttrs, readAttrs, List.dropWhile_idempotent]

theorem readAttrs_ending (tag : String) (fuel : Nat) (ending : TagEnd) (rest : List Char) :
    readAttrs tag (fuel + 1) (ending.text ++ rest) = .ok ([], ending, rest) := by
  cases ending <;> rfl

/-- One attribute, and the rest of the tag behind it. -/
theorem readAttrs_name (hname : IsName name) (hrest : EndsName rest) :
    readAttrs tag (fuel + 1) (' ' :: name ++ rest) = (do
      let (value, after) ←
        match rest.dropWhile isBlank with
        | '=' :: more => do
          let (value, after) ← readValue (more.dropWhile isBlank)
          pure (some value, after)
        | more => pure (none, more)
      let (attrs, ending, rest) ← readAttrs tag fuel after
      return ((String.ofList name, value) :: attrs, ending, rest)) := by
  have hdrop : (' ' :: name ++ rest).dropWhile isBlank = name ++ rest := by
    rw [List.cons_append, List.dropWhile_cons_of_pos (by decide), hname.dropWhile_isBlank]
  obtain ⟨htake, hafter⟩ := hname.span hrest
  obtain ⟨c, cs, rfl⟩ := List.exists_cons_of_ne_nil hname.ne_nil
  have hc := hname.chars c (by simp)
  rw [readAttrs, hdrop]
  rw [List.cons_append] at htake hafter ⊢
  split
  · simp_all
  · simp_all [show isNameChar '/' = false by decide]
  · simp_all [show isNameChar '>' = false by decide]
  · rename_i heq
    cases heq
    rw [htake, hafter]
    rfl

/-- One attribute with a value. -/
theorem readAttrs_value (hname : IsName name) (more : List Char) :
    readAttrs tag (fuel + 1) (' ' :: name ++ '=' :: more) = (do
      let (value, after) ← readValue (more.dropWhile isBlank)
      let (attrs, ending, rest) ← readAttrs tag fuel after
      return ((String.ofList name, some value) :: attrs, ending, rest)) := by
  have hrest : EndsName ('=' :: more) := by simp [EndsName, show isNameChar '=' = false by decide]
  rw [readAttrs_name hname hrest, List.dropWhile_cons_of_neg (by decide)]
  cases hread : readValue (more.dropWhile isBlank) with
  | error stop => simp [hread, bind, Except.bind]
  | ok read => simp [hread, bind, Except.bind, pure, Except.pure]

/-- An attribute without a value is not followed by the sign of a value. -/
theorem dropWhile_tagRest_head {attrs : List (String × Option String)}
    (hattrs : ∀ attr ∈ attrs, IsAttr attr) (ending : TagEnd) (rest : List Char) :
    ∀ c ∈ ((tagRest attrs ending rest).dropWhile isBlank).head?, c ≠ '=' := by
  cases attrs with
  | nil => cases ending <;> simp [tagRest, attrsText, TagEnd.text, show isBlank ' ' by decide,
      show isBlank '/' = false by decide, show isBlank '>' = false by decide]
  | cons attr attrs =>
    have hname := (hattrs attr (by simp)).name
    obtain ⟨c, cs, hcs⟩ := List.exists_cons_of_ne_nil hname.ne_nil
    have hc := hname.chars c (by simp [hcs])
    rw [tagRest_cons, attrText, List.cons_append, List.cons_append,
      List.dropWhile_cons_of_pos (by decide), List.append_assoc, hname.dropWhile_isBlank, hcs]
    rintro _ ⟨⟩ rfl
    exact absurd hc (by decide)

theorem valueText_dropWhile {value : List Char} (hvalue : IsValue value) (rest : List Char) :
    (valueText value ++ rest).dropWhile isBlank = valueText value ++ rest := by
  unfold valueText
  split
  · exact List.dropWhile_cons_of_neg (by decide)
  split
  · exact List.dropWhile_cons_of_neg (by decide)
  · rename_i hdouble hsingle
    cases value with
    | nil => exact absurd List.not_mem_nil hdouble
    | cons c cs =>
      have hc := ((hvalue.resolve_left hdouble).resolve_left hsingle).chars c (by simp)
      refine List.dropWhile_cons_of_neg ?_
      simp only [isBare, Bool.and_eq_true, Bool.not_eq_true'] at hc
      simp [hc.1.1]

/-- The rest of an opening tag is read back. -/
theorem readAttrs_tagRest {attrs : List (String × Option String)}
    (hattrs : ∀ attr ∈ attrs, IsAttr attr) (hfuel : attrs.length < fuel) (ending : TagEnd)
    (rest : List Char) :
    readAttrs tag fuel (tagRest attrs ending rest) = .ok (attrs, ending, rest) := by
  induction attrs generalizing fuel with
  | nil =>
    obtain ⟨fuel, rfl⟩ := Nat.exists_eq_add_one.2 hfuel
    exact readAttrs_ending tag fuel ending rest
  | cons attr attrs ih =>
    rw [List.length_cons] at hfuel
    obtain ⟨fuel, rfl⟩ := Nat.exists_eq_add_of_le' (show 2 ≤ fuel by omega)
    have hattr := hattrs attr (by simp)
    have hmore := fun attr h => hattrs attr (List.mem_cons_of_mem _ h)
    have hread := ih hmore (show attrs.length < fuel + 1 by omega)
    obtain ⟨name, value⟩ := attr
    rw [tagRest_cons, attrText]
    cases value with
    | none =>
      dsimp only [Option.elim_none]
      rw [List.append_nil, readAttrs_name hattr.name (endsName_tagRest attrs ending rest)]
      have hhead := dropWhile_tagRest_head hmore ending rest
      split
      · rename_i heq
        rw [heq] at hhead
        exact absurd rfl (hhead '=' rfl)
      · dsimp only [bind, Except.bind, pure, Except.pure]
        rw [readAttrs_dropWhile, hread, String.ofList_toList]
    | some v =>
      have hvalue := hattr.value v rfl
      have hstop : ∀ c ∈ (tagRest attrs ending rest).head?, isBare c = false := by
        intro c hc
        obtain rfl | rfl := tagRest_head attrs ending rest c hc <;> decide
      dsimp only [Option.elim_some]
      rw [List.append_assoc, List.cons_append (a := '='), readAttrs_value hattr.name,
        valueText_dropWhile hvalue, readValue_valueText hvalue hstop]
      dsimp only [bind, Except.bind, pure, Except.pure]
      rw [hread, String.ofList_toList, String.ofList_toList]

/-- The tag of an element that never has content. -/
def isVoid (tag : String) : Bool :=
  voidTags.contains (Text.lowerAscii tag)

/-- What is read of an element behind its opening tag. -/
def readInside (tag : String) (attrs : List (String × Option String)) (fuel : Nat)
    (rest : List Char) : TagEnd → Except Stop (MarkupNode × List Char)
  | .selfClosed => .ok (.element tag attrs none [], rest)
  | .opened =>
    if isVoid tag then .ok (.element tag attrs none [], rest)
    else (children (some tag) fuel [] rest).map fun (nodes, rest) =>
      (.element tag attrs none nodes, rest)

/-- An element, up to the end of its opening tag. -/
theorem element_tag {tag : List Char} {attrs : List (String × Option String)} (htag : IsTag tag)
    (hattrs : ∀ attr ∈ attrs, IsAttr attr) (hfuel : attrs.length < fuel) (ending : TagEnd)
    (rest : List Char) :
    element (fuel + 1) (tag ++ tagRest attrs ending rest) =
      readInside (String.ofList tag) attrs fuel rest ending := by
  obtain ⟨htake, hdrop⟩ := htag.span (endsName_tagRest attrs ending rest)
  rw [element, htake, hdrop, readAttrs_tagRest hattrs hfuel]
  cases ending with
  | selfClosed => rfl
  | opened =>
    dsimp only [bind, Except.bind, pure, Except.pure, readInside]
    split
    · rw [isVoid, if_pos ‹_›]
    · rw [isVoid, if_neg ‹_›]
      cases children (some (String.ofList tag)) fuel [] rest <;> rfl

/-! ## One step of reading -/

/-- The nodes in front of what else is read. -/
def behind (nodes : List MarkupNode) (read : Except Stop (List MarkupNode × List Char)) :
    Except Stop (List MarkupNode × List Char) :=
  read.map fun (more, rest) => (nodes ++ more, rest)

theorem behind_nil (read : Except Stop (List MarkupNode × List Char)) : behind [] read = read := by
  cases read <;> rfl

theorem behind_behind (nodes nodes' : List MarkupNode)
    (read : Except Stop (List MarkupNode × List Char)) :
    behind nodes (behind nodes' read) = behind (nodes ++ nodes') read := by
  cases read with
  | error e => rfl
  | ok r => exact congrArg (fun more => Except.ok (more, r.2)) (List.append_assoc _ _ _).symm

theorem behind_eq_ok {read : Except Stop (List MarkupNode × List Char)} :
    behind nodes read = .ok (nodes', rest) ↔
      ∃ more, read = .ok (more, rest) ∧ nodes' = nodes ++ more := by
  cases read with
  | error e => simp [behind, Except.map]
  | ok r =>
    obtain ⟨more, left⟩ := r
    simp [behind, Except.map, and_comm, eq_comm]

/-- A character of a text. -/
theorem children_char (hopen : c ≠ '<') (hbrace : c = '\x7b' → rest.head? ≠ some '\x7b') :
    children closing (fuel + 1) before (c :: rest) = children closing fuel (c :: before) rest := by
  rw [children.eq_def]
  dsimp only
  split <;> simp_all

/-- A sign that no tag follows. -/
theorem children_sign (hc : Text.isLetter c = false) (hslash : c ≠ '/') (hbang : c ≠ '!') :
    children closing (fuel + 1) before ('<' :: c :: rest) =
      children closing fuel ('<' :: before) (c :: rest) := by
  rw [children.eq_def]
  dsimp only
  split
  · simp_all
  · simp_all
  · simp_all
  · simp_all
  · rename_i heq
    cases heq
    rw [if_neg (by simp [hc])]
  · rename_i hnone heq
    cases heq
    exact absurd rfl (hnone _ _ rfl)

theorem children_comment (rest : List Char) :
    children closing (fuel + 1) before ('<' :: '!' :: '-' :: '-' :: rest) =
      children closing fuel before (afterComment ('<' :: '!' :: '-' :: '-' :: rest)) := by
  rw [children]

theorem children_interpolation {source : List Char}
    (h : readInterpolation cs = some (source, rest)) :
    children closing (fuel + 1) before ('\x7b' :: '\x7b' :: cs) =
      behind (textNodes before ++ [.interpolation (String.ofList (trimChars source))])
        (children closing fuel [] rest) := by
  rw [children, h]
  dsimp only [bind, Except.bind, pure, Except.pure]
  cases children closing fuel [] rest with
  | error e => rfl
  | ok r => simp [behind, Except.map]

theorem children_unterminated (h : readInterpolation cs = none) :
    children closing (fuel + 1) before ('\x7b' :: '\x7b' :: cs) =
      .error ⟨0, "unterminated interpolation"⟩ := by
  rw [children, h]

theorem readClosing_name (hname : ∀ c ∈ name, isNameChar c = true) (rest : List Char) :
    readClosing (name ++ '>' :: rest) = .ok (String.ofList name, rest) := by
  have hend : ∀ c ∈ ('>' :: rest).head?, isNameChar c = false := by
    simp [show isNameChar '>' = false by decide]
  obtain ⟨htake, hdrop⟩ := Lexer.span_append hname hend
  rw [readClosing, htake, hdrop]
  rfl

theorem children_closing (hname : ∀ c ∈ name, isNameChar c = true) (rest : List Char) :
    children (some (String.ofList name)) (fuel + 1) before ('<' :: '/' :: (name ++ '>' :: rest)) =
      .ok (textNodes before, rest) := by
  rw [children, readClosing_name hname]
  exact if_pos (beq_self_eq_true _)

/-- A closing tag does not end an element of another name. -/
theorem children_closing_other (hclosing : closing ≠ some (String.ofList name))
    (hname : ∀ c ∈ name, isNameChar c = true) (before rest : List Char) :
    ∃ stop, children closing (fuel + 1) before ('<' :: '/' :: (name ++ '>' :: rest)) =
      .error stop := by
  rw [children, readClosing_name hname]
  cases closing with
  | none => exact ⟨_, rfl⟩
  | some tag => exact ⟨_, if_neg (by simpa using hclosing)⟩

theorem children_element (hc : Text.isLetter c = true) (cs : List Char) :
    children closing (fuel + 1) before ('<' :: c :: cs) = (do
      let (node, rest) ← element fuel (c :: cs)
      behind (textNodes before ++ [node]) (children closing fuel [] rest)) := by
  have hne : c ≠ '/' ∧ c ≠ '!' := by
    constructor <;> rintro rfl <;> exact absurd hc (by decide)
  rw [children.eq_def]
  dsimp only
  split
  · simp_all
  · simp_all
  · simp_all
  · simp_all
  · rename_i heq
    cases heq
    rw [if_pos hc]
    refine congrArg (element fuel (c :: cs) >>= ·) (funext fun (node, rest) => ?_)
    dsimp only [bind, Except.bind, pure, Except.pure]
    cases children closing fuel [] rest with
    | error e => rfl
    | ok r => simp [behind, Except.map]
  · rename_i heq
    cases heq
    simp_all

/-! ## Pending text -/

theorem textNodes_eq_nil : textNodes pending = [] ↔ ∀ c ∈ pending, isBlank c = true := by
  have hiff : trimChars pending.reverse = [] ↔ ∀ c ∈ pending.reverse, isBlank c = true :=
    Text.trimChars_eq_nil_iff
  simp only [List.mem_reverse] at hiff
  rw [← hiff, textNodes, ← List.isEmpty_iff]
  split <;> simp_all

/-- Blanks behind a text do not count. -/
theorem textNodes_blank (hblanks : ∀ c ∈ blanks, isBlank c = true) (pending : List Char) :
    textNodes (blanks.reverse ++ pending) = textNodes pending := by
  rw [textNodes, textNodes, List.reverse_append, List.reverse_reverse,
    Text.trimChars_append_blank hblanks]

theorem isBlank_lineBreak : ∀ c ∈ ['\n'], isBlank c = true :=
  List.forall_mem_singleton.2 (by decide)

theorem textNodes_line (pending : List Char) : textNodes ('\n' :: pending) = textNodes pending :=
  textNodes_blank isBlank_lineBreak pending

/-- A trimmed text behind blanks is one node. -/
theorem textNodes_text (hne : cs ≠ []) (htrim : trimChars cs = cs)
    (hbefore : textNodes before = []) :
    textNodes (cs.reverse ++ before) = [.text (String.ofList cs)] := by
  have hblanks : ∀ c ∈ before.reverse, isBlank c = true := fun c hc =>
    textNodes_eq_nil.1 hbefore c (List.mem_reverse.1 hc)
  rw [textNodes, List.reverse_append, List.reverse_reverse, Text.trimChars_blank_append hblanks,
    htrim, if_neg (by simpa using hne)]

/-! ## Pieces of markup -/

/-- Reading `cs` behind the pending text `before` gives `nodes` and leaves `after` pending, whatever
follows. -/
def Passes (cs before : List Char) (nodes : List MarkupNode) (after : List Char) : Prop :=
  ∀ closing fuel rest, 2 * (cs ++ rest).length < fuel → ∃ fuel', 2 * rest.length < fuel' ∧
    children closing fuel before (cs ++ rest) = behind nodes (children closing fuel' after rest)

namespace Passes

theorem refl (before : List Char) : Passes [] before [] before :=
  fun _ fuel _ h => ⟨fuel, h, (behind_nil _).symm⟩

theorem trans (h : Passes cs before nodes pending) (h' : Passes cs' pending nodes' after) :
    Passes (cs ++ cs') before (nodes ++ nodes') after := by
  intro closing fuel rest hfuel
  rw [List.append_assoc] at hfuel ⊢
  obtain ⟨fuel₁, hfuel₁, hread₁⟩ := h closing fuel (cs' ++ rest) hfuel
  obtain ⟨fuel₂, hfuel₂, hread₂⟩ := h' closing fuel₁ rest hfuel₁
  exact ⟨fuel₂, hfuel₂, by rw [hread₁, hread₂, behind_behind]⟩

/-- What one step of reading passes. -/
theorem step (hne : cs ≠ [])
    (h : ∀ closing fuel rest, children closing (fuel + 1) before (cs ++ rest) =
      behind nodes (children closing fuel after rest)) : Passes cs before nodes after := by
  intro closing fuel rest hfuel
  have hpos := List.length_pos_of_ne_nil hne
  rw [List.length_append] at hfuel
  obtain ⟨fuel, rfl⟩ := Nat.exists_eq_add_one.2 (show 0 < fuel by omega)
  exact ⟨fuel, by omega, h closing fuel rest⟩

/-- A character of a text in front of what does not make it a sign. -/
theorem cons (hopen : c ≠ '<') (hbrace : c = '\x7b' → ∃ d ∈ cs.head?, d ≠ '\x7b')
    (h : Passes cs (c :: before) nodes after) : Passes (c :: cs) before nodes after := by
  intro closing fuel rest hfuel
  obtain ⟨fuel, rfl⟩ := Nat.exists_eq_add_one.2 (Nat.zero_lt_of_lt hfuel)
  have hhead : c = '\x7b' → (cs ++ rest).head? ≠ some '\x7b' := fun hc => by
    obtain ⟨d, hd, hne⟩ := hbrace hc
    obtain ⟨cs, rfl⟩ := List.head?_eq_some_iff.1 hd
    simpa using hne
  rw [List.cons_append, List.length_cons] at hfuel
  rw [List.cons_append, children_char hopen hhead]
  exact h closing fuel rest (by omega)

theorem char (hopen : c ≠ '<') (hbrace : c ≠ '\x7b') : Passes [c] before [] (c :: before) :=
  .cons hopen (fun h => absurd h hbrace) (.refl _)

theorem blank (hblanks : ∀ c ∈ blanks, isBlank c = true) :
    Passes blanks before [] (blanks.reverse ++ before) := by
  induction blanks generalizing before with
  | nil => exact .refl before
  | cons c cs ih =>
    obtain ⟨hc, hcs⟩ := List.forall_mem_cons.1 hblanks
    have hchar : Passes [c] before [] (c :: before) := by
      refine .char ?_ ?_ <;> rintro rfl <;> exact absurd hc (by decide)
    simpa using hchar.trans (ih hcs)

/-- An empty comment ends a sign. -/
theorem comment (before : List Char) : Passes "<!---->".toList before [] before :=
  .step (by decide) fun closing fuel rest => by
    rw [behind_nil]
    exact children_comment ('-' :: '-' :: '>' :: rest)

/-- A sign in front of an empty comment belongs to the text. -/
theorem sign (hc : c = '<' ∨ c = '\x7b') :
    Passes (c :: "<!---->".toList) before [] (c :: before) := by
  obtain rfl | rfl := hc
  · intro closing fuel rest hfuel
    obtain ⟨fuel, rfl⟩ := Nat.exists_eq_add_one.2 (Nat.zero_lt_of_lt hfuel)
    have hread : children closing (fuel + 1) before ('<' :: ("<!---->".toList ++ rest)) =
        children closing fuel ('<' :: before) ("<!---->".toList ++ rest) :=
      children_sign (by decide) (by decide) (by decide)
    rw [List.cons_append, List.length_cons] at hfuel
    rw [List.cons_append, hread]
    exact comment ('<' :: before) closing fuel rest (by omega)
  · exact .cons (by decide) (by simp) (.comment _)

/-- A text without signs, on a line of its own. -/
theorem line {s : List Char} (hopen : '<' ∉ s) (hbrace : ¬['\x7b', '\x7b'] <:+: s)
    (before : List Char) : Passes (s ++ ['\n']) before [] ('\n' :: (s.reverse ++ before)) := by
  induction s generalizing before with
  | nil => exact .char (by decide) (by decide)
  | cons c s ih =>
    rw [List.mem_cons, not_or] at hopen
    rw [List.infix_cons_iff, not_or] at hbrace
    have hhead : c = '\x7b' → ∃ d ∈ (s ++ ['\n']).head?, d ≠ '\x7b' := by
      rintro rfl
      cases s with
      | nil => exact ⟨'\n', rfl, by decide⟩
      | cons d s =>
        refine ⟨d, rfl, ?_⟩
        rintro rfl
        exact hbrace.1 ⟨s, rfl⟩
    rw [List.reverse_cons, List.append_assoc]
    exact .cons (Ne.symm hopen.1) hhead (ih hopen.2 hbrace.2 (c :: before))

theorem interpolation {source : List Char}
    (h : ∀ rest, readInterpolation (cs ++ rest) = some (source, rest)) :
    Passes ('\x7b' :: '\x7b' :: cs) before
      (textNodes before ++ [.interpolation (String.ofList (trimChars source))]) [] :=
  .step (by simp) fun _ _ rest => children_interpolation (h rest)

end Passes

/-- Behind its opening sign, `cs` is read as the element, whatever follows. -/
def ReadsElement (cs : List Char) (node : MarkupNode) : Prop :=
  ∀ fuel rest, 2 * (cs ++ rest).length < fuel → element fuel (cs ++ rest) = .ok (node, rest)

theorem Passes.element (hc : Text.isLetter c = true) (h : ReadsElement (c :: cs) node) :
    Passes ('<' :: c :: cs) before (textNodes before ++ [node]) [] := by
  intro closing fuel rest hfuel
  obtain ⟨fuel, rfl⟩ := Nat.exists_eq_add_one.2 (Nat.zero_lt_of_lt hfuel)
  simp only [List.cons_append, List.length_cons, List.length_append] at hfuel
  refine ⟨fuel, by omega, ?_⟩
  have hread := h fuel rest (by
    simp only [List.cons_append, List.length_cons, List.length_append]
    omega)
  rw [List.cons_append] at hread
  rw [List.cons_append, List.cons_append, children_element hc, hread]
  rfl

/-! ## Elements -/

def closingText (tag : List Char) : List Char :=
  '<' :: '/' :: tag ++ ['>']

theorem tagRest_append (attrs : List (String × Option String)) (ending : TagEnd)
    (cs rest : List Char) :
    tagRest attrs ending cs ++ rest = tagRest attrs ending (cs ++ rest) := by
  simp only [tagRest, List.append_assoc]

/-- Every attribute takes a character or more, and so does the end of a tag. -/
theorem length_tagRest (attrs : List (String × Option String)) (ending : TagEnd)
    (rest : List Char) : attrs.length + rest.length < (tagRest attrs ending rest).length := by
  induction attrs with
  | nil =>
    cases ending <;> simp only [tagRest, attrsText, TagEnd.text, List.flatMap_nil, List.nil_append,
      List.length_append, List.length_nil] <;> simp
  | cons attr attrs ih =>
    rw [tagRest_cons]
    simp only [attrText, List.cons_append, List.length_cons, List.length_append]
    omega

section

variable {tag : List Char} {attrs : List (String × Option String)} (htag : IsTag tag)
  (hattrs : ∀ attr ∈ attrs, IsAttr attr)
include htag hattrs

/-- An opening tag, with fuel for what is inside the element. -/
theorem element_opening {ending : TagEnd}
    (h : 2 * (tag ++ tagRest attrs ending rest).length < fuel) :
    ∃ fuel', 2 * rest.length < fuel' ∧ element fuel (tag ++ tagRest attrs ending rest) =
      readInside (String.ofList tag) attrs fuel' rest ending := by
  have hlength := length_tagRest attrs ending rest
  rw [List.length_append] at h
  obtain ⟨fuel, rfl⟩ := Nat.exists_eq_add_one.2 (Nat.zero_lt_of_lt h)
  have hrounds : attrs.length < fuel := by omega
  exact ⟨fuel, by omega, element_tag htag hattrs hrounds ending rest⟩

/-- An element that ends with its opening tag. -/
theorem readsElement_childless (ending : TagEnd)
    (hending : ending = .opened → isVoid (String.ofList tag) = true) :
    ReadsElement (tag ++ tagRest attrs ending []) (.element (String.ofList tag) attrs none []) := by
  intro fuel rest hfuel
  rw [List.append_assoc, tagRest_append, List.nil_append] at hfuel ⊢
  obtain ⟨fuel', -, hread⟩ := element_opening htag hattrs hfuel
  rw [hread]
  cases ending with
  | selfClosed => rfl
  | opened => exact if_pos (hending rfl)

end

/-! ## Nodes in a row -/

/-- The node is a text. -/
def isText : MarkupNode → Bool
  | .text _ => true
  | _ => false

def startsWithText (nodes : List MarkupNode) : Bool :=
  nodes.head?.any isText

/-- Behind blanks, or behind a text if the nodes do not start with one, `cs` is read as the nodes.
Of these the last may be pending. -/
def Spells (cs : List Char) (nodes : List MarkupNode) : Prop :=
  ∀ before, (startsWithText nodes = true → textNodes before = []) → ∃ read after,
    Passes cs before read after ∧ read ++ textNodes after = textNodes before ++ nodes

namespace Spells

theorem nil : Spells [] [] :=
  fun before _ => ⟨[], before, .refl before, by simp⟩

theorem blank_append (hblanks : ∀ c ∈ blanks, isBlank c = true) (h : Spells cs nodes) :
    Spells (blanks ++ cs) nodes := by
  intro before hbefore
  have hsame := textNodes_blank hblanks before
  obtain ⟨read, after, hpasses, heq⟩ := h (blanks.reverse ++ before) (by rwa [hsame])
  exact ⟨read, after, (Passes.blank hblanks).trans hpasses, by rw [heq, hsame]⟩

/-- On a line of its own. -/
theorem line (h : Spells cs nodes) : Spells ('\n' :: cs) nodes :=
  h.blank_append isBlank_lineBreak

theorem append_blank (hblanks : ∀ c ∈ blanks, isBlank c = true) (h : Spells cs nodes) :
    Spells (cs ++ blanks) nodes := by
  intro before hbefore
  obtain ⟨read, after, hpasses, heq⟩ := h before hbefore
  have hall := hpasses.trans (Passes.blank hblanks)
  rw [List.append_nil] at hall
  exact ⟨read, blanks.reverse ++ after, hall, by rw [textNodes_blank hblanks, heq]⟩

/-- A text on a line of its own, in front of nodes that do not start with one. -/
theorem text {s : List Char} (hne : s ≠ []) (htrim : trimChars s = s)
    (hs : ∀ before, Passes (cs ++ ['\n']) before [] ('\n' :: (s.reverse ++ before)))
    (h : Spells cs' nodes) (hnodes : startsWithText nodes = false) :
    Spells (cs ++ '\n' :: cs') (.text (String.ofList s) :: nodes) := by
  intro before hbefore
  have hblank := hbefore rfl
  obtain ⟨read, after, hpasses, heq⟩ := h ('\n' :: (s.reverse ++ before)) (by simp [hnodes])
  rw [← List.singleton_append (x := '\n'), ← List.append_assoc]
  refine ⟨read, after, (hs before).trans hpasses, ?_⟩
  rw [heq, textNodes_line, textNodes_text hne htrim hblank, hblank]
  rfl

/-- A node that is no text. -/
theorem cons
    (hcs : ∀ before, Passes cs before (textNodes before ++ [node]) []) (h : Spells cs' nodes) :
    Spells (cs ++ cs') (node :: nodes) := by
  intro before _
  obtain ⟨read, after, hpasses, heq⟩ := h [] fun _ => rfl
  refine ⟨textNodes before ++ [node] ++ read, after, (hcs before).trans hpasses, ?_⟩
  rw [List.append_assoc, heq, List.append_assoc]
  rfl

/-- The children of an element, up to its closing tag. -/
theorem children_eq (h : Spells cs nodes) {tag : List Char} (htag : IsName tag)
    (hfuel : 2 * (cs ++ (closingText tag ++ rest)).length < fuel) :
    children (some (String.ofList tag)) fuel [] (cs ++ (closingText tag ++ rest)) =
      .ok (nodes, rest) := by
  obtain ⟨read, after, hpasses, heq⟩ := h [] fun _ => rfl
  obtain ⟨fuel', hfuel', hread⟩ := hpasses (some (String.ofList tag)) fuel _ hfuel
  obtain ⟨fuel', rfl⟩ := Nat.exists_eq_add_one.2 (Nat.zero_lt_of_lt hfuel')
  rw [hread, closingText, List.append_assoc, List.cons_append, List.cons_append,
    List.singleton_append, children_closing htag.chars]
  exact congrArg (fun nodes => Except.ok (nodes, rest)) heq

/-- An element with its children between its tags. -/
theorem readsElement (h : Spells cs nodes) {tag : List Char}
    {attrs : List (String × Option String)} (htag : IsTag tag)
    (hattrs : ∀ attr ∈ attrs, IsAttr attr) (hvoid : isVoid (String.ofList tag) = false) :
    ReadsElement (tag ++ tagRest attrs .opened (cs ++ closingText tag))
      (.element (String.ofList tag) attrs none nodes) := by
  intro fuel rest hfuel
  rw [List.append_assoc, tagRest_append, List.append_assoc] at hfuel ⊢
  obtain ⟨fuel', hfuel', hread⟩ := element_opening htag hattrs hfuel
  rw [hread, readInside, if_neg (by simp [hvoid]), h.children_eq htag.toIsName hfuel']
  rfl

/-- A text that spells nodes is read as these nodes. -/
theorem parse (h : Spells cs nodes) : parse (String.ofList cs) = .ok nodes := by
  obtain ⟨read, after, hpasses, heq⟩ := h [] fun _ => rfl
  obtain ⟨fuel, hfuel, hread⟩ := hpasses none (2 * cs.length + 2) [] (by simp)
  obtain ⟨fuel, rfl⟩ := Nat.exists_eq_add_one.2 (Nat.zero_lt_of_lt hfuel)
  rw [List.append_nil] at hread
  rw [Markup.parse, String.toList_ofList, hread, children]
  exact congrArg Except.ok heq

end Spells

end Scaffold.Markup
