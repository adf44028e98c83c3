import Scaffold.Proofs.Naming
import Scaffold.Proofs.Text.Lines
import Scaffold.Proofs.Target.CFamily
import Scaffold.Proofs.Target.PythonBlocks

/-!
# Python by its indentation

Spaces in front of a line say how deep it stands, so a line must not be empty, start with a space or
hold a line end. Lines are of this kind if all names in them are written as words. The case that
names of mappers are written in may leave nothing of a name, and then the statement that is only
this name is an empty line.

* `isText_expr`: an expression is a text on a line.
* `block_keeps_nesting`: blocks keep their nesting, and which names leave an empty line.
-/

namespace Scaffold.Target.Python

open Model Naming Text

/-! ## Texts on a line -/

/-- No line end is in the text. -/
def OneLine (text : String) : Prop :=
  '\n' ∉ text.toList ∧ '\r' ∉ text.toList

instance (text : String) : Decidable (OneLine text) :=
  inferInstanceAs (Decidable (_ ∧ _))

/-- The text may stand behind spaces: it is on one line, and its first character is no space. -/
def IsText (text : String) : Prop :=
  OneLine text ∧ text.toList.head?.any (· != ' ') = true

instance (text : String) : Decidable (IsText text) :=
  inferInstanceAs (Decidable (_ ∧ _))

/-- The text is a word: neither spaces nor line ends are in it. -/
def isWord (text : String) : Bool :=
  text.toList != [] && text.toList.all fun c => c != ' ' && c != '\n' && c != '\r'

variable {a b text : String}

theorem oneLine_append : OneLine (a ++ b) ↔ OneLine a ∧ OneLine b := by
  simp only [OneLine, String.toList_append, List.mem_append, not_or]
  exact and_and_and_comm

theorem oneLine_joinWith {sep : String} (hsep : OneLine sep) {texts : List String}
    (h : ∀ text ∈ texts, OneLine text) : OneLine (joinWith sep texts) := by
  induction texts with
  | nil => exact ⟨List.not_mem_nil, List.not_mem_nil⟩
  | cons text rest ih =>
    obtain ⟨htext, hrest⟩ := List.forall_mem_cons.1 h
    cases rest with
    | nil => exact htext
    | cons next rest => exact oneLine_append.2 ⟨oneLine_append.2 ⟨htext, hsep⟩, ih hrest⟩

theorem IsText.append (ha : IsText a) (hb : OneLine b) : IsText (a ++ b) := by
  refine ⟨oneLine_append.2 ⟨ha.1, hb⟩, ?_⟩
  cases hchars : a.toList with
  | nil => exact absurd ha.2 (by simp [hchars])
  | cons c cs =>
    have hstart := ha.2
    rw [hchars] at hstart
    rw [String.toList_append, hchars]
    exact hstart

theorem IsText.ne_empty (h : IsText text) : text ≠ "" := by
  rintro rfl
  cases h.2

theorem isWord_append (ha : isWord a = true) (hb : isWord b = true) : isWord (a ++ b) = true := by
  simp only [isWord, Bool.and_eq_true, bne_iff_ne, List.all_eq_true] at ha hb ⊢
  rw [String.toList_append]
  refine ⟨List.append_ne_nil_of_left_ne_nil ha.1 _, fun c hc => ?_⟩
  exact (List.mem_append.1 hc).elim (ha.2 c) (hb.2 c)

theorem isText_of_isWord (h : isWord text = true) : IsText text := by
  simp only [isWord, Bool.and_eq_true, bne_iff_ne, List.all_eq_true] at h
  obtain ⟨c, cs, hc⟩ := List.exists_cons_of_ne_nil h.1
  refine ⟨⟨fun hmem => (h.2 _ hmem).1.2 rfl, fun hmem => (h.2 _ hmem).2 rfl⟩, ?_⟩
  rw [hc]
  exact bne_iff_ne.2 (h.2 c (by rw [hc]; exact List.mem_cons_self)).1.1

theorem isWord_of_digits (hne : text.toList ≠ [])
    (h : ∀ c ∈ text.toList, c.isDigit = true ∨ c = '.') : isWord text = true := by
  have hother : ∀ {d : Char}, d.isDigit = false → d ≠ '.' → d ∉ text.toList := by
    intro d hdigit hpoint hmem
    obtain hd | hd := h d hmem
    · rw [hd] at hdigit
      cases hdigit
    · exact hpoint hd
  simp only [isWord, Bool.and_eq_true, bne_iff_ne, List.all_eq_true]
  refine ⟨hne, fun c hc => ⟨⟨?_, ?_⟩, ?_⟩⟩ <;>
  · rintro rfl
    exact hother (by decide) (by decide) hc

/-! ## What expressions are written as -/

/-- A number without an exponent is a word. -/
theorem isWord_positional (d : Number.Decimal) : isWord (Number.positional d "") = true := by
  obtain hdecimal | ⟨hne, hdigits⟩ := Number.positional_cases d
  · obtain ⟨whole, fraction, htext, -, -, hwhole, hfraction⟩ := hdecimal.parts
    refine isWord_of_digits (by simp [htext]) fun c hc => ?_
    rw [htext, List.mem_append, List.mem_cons] at hc
    obtain hc | rfl | hc := hc
    · exact .inl (hwhole c hc)
    · exact .inr rfl
    · exact .inl (hfraction c hc)
  · exact isWord_of_digits hne fun c hc => .inl (hdigits c hc)

theorem isWord_signed {negative : Bool} (h : isWord text = true) :
    isWord ((if negative then "-" else "") ++ text) = true := by
  cases negative with
  | false => exact (congrArg isWord String.empty_append).trans h
  | true => exact isWord_append (by decide) h

theorem isWord_plainText (x : Binary64) : isWord (Number.plainText x) = true := by
  unfold Number.plainText Number.signText
  split
  · decide
  split
  · exact isWord_signed (by decide)
  split
  · exact isWord_signed (by decide)
  · exact isWord_signed (isWord_positional _)

theorem isWord_int (n : Int) : isWord (toString n) = true := by
  have hrepr : ∀ m : Nat, isWord (Nat.repr m) = true := fun m => by
    have htext : (Nat.repr m).toList = Nat.toDigits 10 m := by rw [Nat.repr, String.toList_ofList]
    refine isWord_of_digits (by rw [htext]; exact Nat.toDigits_ne_nil) fun c hc => .inl ?_
    exact Nat.isDigit_of_mem_toDigits (b := 10) (n := m) (by decide) (by decide) (htext ▸ hc)
  cases n with
  | ofNat m => exact hrepr m
  | negSucc m => exact isWord_append (a := "-") (by decide) (hrepr (m + 1))

/-- A literal stays on its line: line ends in a text are escaped. -/
theorem isText_literal (l : Literal) : IsText (dialect.literal l) := by
  cases l with
  | int n => exact isText_of_isWord (isWord_int n)
  | float x =>
    unfold Dialect.literal
    dsimp only
    split
    · exact isText_of_isWord (isWord_plainText x)
    · exact isText_of_isWord (isWord_append (isWord_plainText x) (by decide))
  | str s =>
    have hend : ∀ c ∈ ['\n', '\r'], c ∉ (escape s).toList := by
      intro c hc hmem
      have hsign : ∀ c ∈ ['\n', '\r'], c ∉ '\\' :: escapes.map (·.2) :=
        List.all_iff_forall_prop.1 (by decide)
      rw [toList_escape] at hmem
      obtain ⟨-, hplain⟩ | hmark := mem_of_mem_escapedChars hmem
      · exact hplain (Language.mem_escapes_of_lineEnd c hc)
      · exact hsign c hc hmark
    have hquote : IsText "\"" := by decide
    exact (hquote.append ⟨hend '\n' (by decide), hend '\r' (by decide)⟩).append hquote.1
  | bool b => cases b <;> decide
  | null => decide

theorem oneLine_typeName : (t : Ty) → OneLine (typeName t)
  | .primitive p => by
    have hall : ∀ text ∈ ["int", "float", "bool", "None", "Any", "str"], OneLine text := by decide
    refine hall _ ?_
    cases p <;> simp [typeName, Ty.spell, primitive]
  | .list item => by
    have hbracket : OneLine "list[" ∧ OneLine "]" := by decide
    exact oneLine_append.2 ⟨oneLine_append.2 ⟨hbracket.1, oneLine_typeName item⟩, hbracket.2⟩
  | .named name _ => ⟨not_mem_pascal (by decide) name, not_mem_pascal (by decide) name⟩

/-- The names that stand in an expression itself are written as words. -/
def hasWords : Expr → Bool
  | .name name kind => isWord (dialect.name name kind)
  | .member _ name => isWord name
  | .native path _ => path.all isWord
  | _ => true

/-- All names in an expression are written as words. -/
def isWorded (e : Expr) : Bool :=
  e.all.all hasWords

/-- An operand in parentheses may stand where the operand does. -/
theorem isText_parenthesized (needed : Bool) (h : IsText text) :
    IsText (Dialect.parenthesized needed text) := by
  cases needed with
  | false => exact h
  | true =>
    have hparen : IsText "(" := by decide
    exact (hparen.append h.1).append (by decide)

/-- Arguments stay on the line of what is called. -/
theorem oneLine_args {args : List String} (h : ∀ arg ∈ args, IsText arg) :
    OneLine (joinWith ", " args) :=
  oneLine_joinWith (by decide) fun arg harg => (h arg harg).1

/-- A path is the start of a text, even without names. -/
theorem isText_path {path : List String} (h : path.all isWord = true) :
    IsText (joinWith "." path ++ "(") := by
  cases path with
  | nil => decide
  | cons name rest =>
    have hpath := fun part hpart => (isText_of_isWord (List.all_eq_true.1 h part hpart))
    have hname := hpath name List.mem_cons_self
    cases rest with
    | nil => exact hname.append (by decide)
    | cons next rest =>
      have hrest : OneLine (joinWith "." (next :: rest)) :=
        oneLine_joinWith (by decide) fun part hpart => (hpath part (List.mem_cons_of_mem _ hpart)).1
      exact ((hname.append (b := ".") (by decide)).append hrest).append (by decide)

mutual

/-- An expression is a text on a line if its names are written as words. -/
theorem isText_expr : (e : Expr) → isWorded e = true → IsText (dialect.expr e)
  | .literal l, _ => isText_literal l
  | .name name kind, h => by
    rw [isWorded, Expr.all, List.all_cons, Bool.and_eq_true] at h
    exact isText_of_isWord h.1
  | .member object name, h => by
    rw [isWorded, Expr.all, List.all_cons, Bool.and_eq_true] at h
    exact ((isText_expr object h.2).append (b := ".") (by decide)).append (isText_of_isWord h.1).1
  | .call callee args, h => by
    rw [isWorded, Expr.all, List.all_cons, List.all_append, Bool.and_eq_true, Bool.and_eq_true] at h
    have hargs := oneLine_args (isText_exprs args h.2.2)
    have hcallee := (isText_expr callee h.2.1).append (b := "(") (by decide)
    exact (hcallee.append hargs).append (by decide)
  | .native path args, h => by
    rw [isWorded, Expr.all, List.all_cons, Bool.and_eq_true] at h
    have hargs := oneLine_args (isText_exprs args h.2)
    show IsText (if isConsoleLog path then _ else _)
    split
    · have hprint : IsText "print(" := by decide
      exact (hprint.append hargs).append (by decide)
    · exact ((isText_path h.1).append hargs).append (by decide)
  | .unary op e, h => by
    rw [isWorded, Expr.all, List.all_cons, Bool.and_eq_true] at h
    have hsign : IsText (dialect.unarySign op) := by
      cases op <;> decide
    exact hsign.append (isText_parenthesized _ (isText_expr e h.2)).1
  | .binary op lhs rhs, h => by
    rw [isWorded, Expr.all, List.all_cons, List.all_append, Bool.and_eq_true, Bool.and_eq_true] at h
    have hsign : OneLine (binarySign op) := by cases op <;> decide
    have hlhs := isText_parenthesized (Dialect.needsParens op false lhs) (isText_expr lhs h.2.1)
    have hrhs := isText_parenthesized (Dialect.needsParens op true rhs) (isText_expr rhs h.2.2)
    exact (((hlhs.append (b := " ") (by decide)).append hsign).append (b := " ") (by decide)).append
      hrhs.1

theorem isText_exprs : (es : List Expr) → (allOf es).all hasWords = true →
    ∀ text ∈ dialect.exprs es, IsText text
  | [], _ => nofun
  | e :: rest, h => by
    rw [allOf, List.all_append, Bool.and_eq_true] at h
    exact List.forall_mem_cons.2 ⟨isText_expr e h.1, isText_exprs rest h.2⟩

end

/-- Only a name of which the dialect leaves nothing is written as nothing. -/
theorem expr_eq_empty_iff (e : Expr) : dialect.expr e = "" ↔
    ∃ name kind, e = .name name kind ∧ dialect.name name kind = "" := by
  constructor
  · intro h
    cases e with
    | name name kind => exact ⟨name, kind, rfl, h⟩
    | literal l => exact absurd h (isText_literal l).ne_empty
    | native path args =>
      have hnative : dialect.expr (.native path args) = if isConsoleLog path then
          "print(" ++ joinWith ", " (dialect.exprs args) ++ ")"
          else joinWith "." path ++ "(" ++ joinWith ", " (dialect.exprs args) ++ ")" := rfl
      rw [hnative] at h
      split at h
      · exact absurd (String.append_eq_empty_iff.1 h).2 (by decide)
      · exact absurd (String.append_eq_empty_iff.1 h).2 (by decide)
    | unary op e =>
      rw [Dialect.expr, String.append_eq_empty_iff] at h
      cases op <;> exact absurd h.1 (by decide)
    | member object name =>
      rw [Dialect.expr, String.append_eq_empty_iff, String.append_eq_empty_iff] at h
      exact absurd h.1.2 (by decide)
    | call callee args =>
      rw [Dialect.expr, String.append_eq_empty_iff] at h
      exact absurd h.2 (by decide)
    | binary op lhs rhs =>
      obtain ⟨hfront, -⟩ := String.append_eq_empty_iff.1 h
      exact absurd (String.append_eq_empty_iff.1 hfront).2 (by decide)
  · rintro ⟨name, kind, rfl, h⟩
    exact h

/-! ## What statements are written as -/

mutual

/-- A statement and all statements in it. -/
def within : Stmt → List Stmt
  | .cond test yes no => .cond test yes no :: (withinAll yes ++ withinElse no)
  | .loop test body => .loop test body :: withinAll body
  | .each var iter body => .each var iter body :: withinAll body
  | .declare name type init => [.declare name type init]
  | .assign target value => [.assign target value]
  | .ret value => [.ret value]
  | .leave => [.leave]
  | .next => [.next]
  | .expr e => [.expr e]

/-- Statements and all statements in them. -/
def withinAll : List Stmt → List Stmt
  | [] => []
  | s :: rest => within s ++ withinAll rest

/-- All statements in an `else`. -/
def withinElse : Option (List Stmt) → List Stmt
  | none => []
  | some body => withinAll body

end

/-- What the own lines of a statement say, those that are not part of a statement in it. -/
def ownTexts : Stmt → List String
  | .cond test _ _ =>
    [(Head.choice (dialect.expr test)).line, (Head.again (dialect.expr test)).line]
  | .loop test _ => [(Head.loop (dialect.expr test)).line]
  | .each var iter _ => [(Head.each (runText var iter)).line]
  | s => [lineText s]

variable {P : String → Prop}

theorem forall_texts_filler (hpass : P "pass") {os : List Outline}
    (h : ∀ t ∈ Outline.textsAll os, P t) :
    ∀ t ∈ Outline.textsAll (filler os), P t := by
  cases os with
  | nil => exact List.forall_mem_singleton.2 hpass
  | cons o rest => exact h

theorem forall_texts_under (hpass : P "pass") {head : Head} {os : List Outline}
    (hhead : P head.line) (h : ∀ t ∈ Outline.textsAll os, P t) :
    ∀ t ∈ (under head os).texts, P t := by
  have hfiller := forall_texts_filler hpass h
  cases os with
  | nil => exact List.forall_mem_cons.2 ⟨hhead, hfiller⟩
  | cons o rest => exact List.forall_mem_cons.2 ⟨hhead, hfiller⟩

mutual

/-- The lines of a statement say what they say of the statements in it. -/
theorem forall_texts_outline (hpass : P "pass") (helse : P "else:") : (s : Stmt) →
    (∀ x ∈ within s, ∀ t ∈ ownTexts x, P t) → ∀ t ∈ Outline.textsAll (outline s), P t
  | .cond test yes no, h => by
    rw [within, List.forall_mem_cons, List.forall_mem_append] at h
    have hhead := List.forall_mem_cons.1 h.1
    rw [outline, Outline.textsAll, List.forall_mem_append]
    exact ⟨forall_texts_under hpass hhead.1 (forall_texts_outlines hpass helse yes h.2.1),
      forall_texts_branches hpass helse no h.2.2⟩
  | .loop test body, h => by
    rw [within, List.forall_mem_cons] at h
    have hhead := List.forall_mem_cons.1 h.1
    rw [outline, Outline.textsAll, List.forall_mem_append]
    exact ⟨forall_texts_under hpass hhead.1 (forall_texts_outlines hpass helse body h.2), nofun⟩
  | .each var iter body, h => by
    rw [within, List.forall_mem_cons] at h
    have hhead := List.forall_mem_cons.1 h.1
    rw [outline, Outline.textsAll, List.forall_mem_append]
    exact ⟨forall_texts_under hpass hhead.1 (forall_texts_outlines hpass helse body h.2), nofun⟩
  | .declare .., h | .assign .., h | .ret _, h | .leave, h | .next, h | .expr _, h =>
    h _ List.mem_cons_self

theorem forall_texts_outlines (hpass : P "pass") (helse : P "else:") : (body : List Stmt) →
    (∀ x ∈ withinAll body, ∀ t ∈ ownTexts x, P t) → ∀ t ∈ Outline.textsAll (outlines body), P t
  | [], _ => nofun
  | s :: rest, h => by
    rw [withinAll, List.forall_mem_append] at h
    rw [outlines, Outline.textsAll_append, List.forall_mem_append]
    exact ⟨forall_texts_outline hpass helse s h.1, forall_texts_outlines hpass helse rest h.2⟩

theorem forall_texts_branches (hpass : P "pass") (helse : P "else:") : (no : Option (List Stmt)) →
    (∀ x ∈ withinElse no, ∀ t ∈ ownTexts x, P t) → ∀ t ∈ Outline.textsAll (branches no), P t
  | none, _ => nofun
  | some body, h => by
    have hown : ∀ t ∈ Outline.textsAll [under .otherwise (outlines body)], P t :=
      List.forall_mem_append.2
        ⟨forall_texts_under hpass helse (forall_texts_outlines hpass helse body h), nofun⟩
    cases body with
    | nil => exact hown
    | cons s rest =>
      cases rest with
      | cons s' rest =>
        rw [branches]
        · exact hown
        · nofun
      | nil =>
        cases s with
        | cond test yes no =>
          rw [withinElse, withinAll, withinAll, List.append_nil, within, List.forall_mem_cons,
            List.forall_mem_append] at h
          have hhead := (List.forall_mem_cons.1 (List.forall_mem_cons.1 h.1).2).1
          rw [branches, Outline.textsAll, List.forall_mem_append]
          exact ⟨forall_texts_under hpass hhead (forall_texts_outlines hpass helse yes h.2.1),
            forall_texts_branches hpass helse no h.2.2⟩
        | _ => exact hown

end

theorem mem_texts_under {head : Head} {os : List Outline} {t : String}
    (h : t ∈ Outline.textsAll os) : t ∈ (under head os).texts := by
  cases os with
  | nil => cases h
  | cons o rest => exact List.mem_cons_of_mem _ h

theorem line_mem_texts_under (head : Head) (os : List Outline) :
    head.line ∈ (under head os).texts := by
  cases os <;> exact List.mem_cons_self

mutual

/-- What a statement says is said by its lines. -/
theorem exists_mem_texts_outline : (s : Stmt) → ∀ x ∈ within s,
    ∃ t ∈ ownTexts x, t ∈ Outline.textsAll (outline s)
  | .cond test yes no, x, hx => by
    rw [within, List.mem_cons, List.mem_append] at hx
    obtain rfl | hx | hx := hx
    · exact ⟨_, List.mem_cons_self, List.mem_append_left _ (line_mem_texts_under _ _)⟩
    · obtain ⟨t, ht, hmem⟩ := exists_mem_texts_outlines yes x hx
      exact ⟨t, ht, List.mem_append_left _ (mem_texts_under hmem)⟩
    · obtain ⟨t, ht, hmem⟩ := exists_mem_texts_branches no x hx
      exact ⟨t, ht, List.mem_append_right _ hmem⟩
  | .loop test body, x, hx => by
    rw [within, List.mem_cons] at hx
    obtain rfl | hx := hx
    · exact ⟨_, List.mem_cons_self, List.mem_append_left _ (line_mem_texts_under _ _)⟩
    · obtain ⟨t, ht, hmem⟩ := exists_mem_texts_outlines body x hx
      exact ⟨t, ht, List.mem_append_left _ (mem_texts_under hmem)⟩
  | .each var iter body, x, hx => by
    rw [within, List.mem_cons] at hx
    obtain rfl | hx := hx
    · exact ⟨_, List.mem_cons_self, List.mem_append_left _ (line_mem_texts_under _ _)⟩
    · obtain ⟨t, ht, hmem⟩ := exists_mem_texts_outlines body x hx
      exact ⟨t, ht, List.mem_append_left _ (mem_texts_under hmem)⟩
  | .declare .., x, hx | .assign .., x, hx | .ret _, x, hx | .leave, x, hx | .next, x, hx
  | .expr _, x, hx => by
    obtain rfl := List.mem_singleton.1 hx
    exact ⟨_, List.mem_cons_self, List.mem_cons_self⟩

theorem exists_mem_texts_outlines : (body : List Stmt) → ∀ x ∈ withinAll body,
    ∃ t ∈ ownTexts x, t ∈ Outline.textsAll (outlines body)
  | [], _, hx => by cases hx
  | s :: rest, x, hx => by
    rw [withinAll, List.mem_append] at hx
    rw [outlines, Outline.textsAll_append]
    obtain hx | hx := hx
    · obtain ⟨t, ht, hmem⟩ := exists_mem_texts_outline s x hx
      exact ⟨t, ht, List.mem_append_left _ hmem⟩
    · obtain ⟨t, ht, hmem⟩ := exists_mem_texts_outlines rest x hx
      exact ⟨t, ht, List.mem_append_right _ hmem⟩

theorem exists_mem_texts_branches : (no : Option (List Stmt)) → ∀ x ∈ withinElse no,
    ∃ t ∈ ownTexts x, t ∈ Outline.textsAll (branches no)
  | none, _, hx => by cases hx
  | some body, x, hx => by
    have hown : ∃ t ∈ ownTexts x, t ∈ Outline.textsAll [under .otherwise (outlines body)] := by
      obtain ⟨t, ht, hmem⟩ := exists_mem_texts_outlines body x hx
      exact ⟨t, ht, List.mem_append_left _ (mem_texts_under hmem)⟩
    cases body with
    | nil => exact hown
    | cons s rest =>
      cases rest with
      | cons s' rest =>
        rw [branches]
        · exact hown
        · nofun
      | nil =>
        cases s with
        | cond test yes no =>
          rw [withinElse, withinAll, withinAll, List.append_nil, within, List.mem_cons,
            List.mem_append] at hx
          rw [branches]
          obtain rfl | hx | hx := hx
          · exact ⟨_, List.mem_cons_of_mem _ List.mem_cons_self,
              List.mem_append_left _ (line_mem_texts_under _ _)⟩
          · obtain ⟨t, ht, hmem⟩ := exists_mem_texts_outlines yes x hx
            exact ⟨t, ht, List.mem_append_left _ (mem_texts_under hmem)⟩
          · obtain ⟨t, ht, hmem⟩ := exists_mem_texts_branches no x hx
            exact ⟨t, ht, List.mem_append_right _ hmem⟩
        | _ => exact hown

end

theorem mem_texts_filler {os : List Outline} {t : String} (h : t ∈ Outline.textsAll os) :
    t ∈ Outline.textsAll (filler os) := by
  cases os with
  | nil => cases h
  | cons o rest => exact h

/-! ## Lines that say something -/

/-- Only the statement that is an expression is perhaps written as an empty line. -/
theorem ownTexts_ne_empty {s : Stmt} (h : ∀ e, s = .expr e → dialect.expr e ≠ "") :
    ∀ t ∈ ownTexts s, t ≠ "" := by
  cases s with
  | expr e => exact List.forall_mem_singleton.2 (h e rfl)
  | declare name type init =>
    have hline : ∀ {front back : String}, front ++ " = " ++ back ≠ "" := fun h =>
      absurd (String.append_eq_empty_iff.1 (String.append_eq_empty_iff.1 h).1).2 (by decide)
    refine List.forall_mem_singleton.2 ?_
    cases type <;> exact hline
  | ret value => cases value <;> simp [ownTexts, lineText, String.append_eq_empty_iff]
  | _ => simp [ownTexts, lineText, Head.line, String.append_eq_empty_iff]

/-- All names that a statement has outside the statements in it are written as words. -/
def wordedStmt : Stmt → Bool
  | .declare name _ init => isWord name && init.all isWorded
  | .assign target value => isWorded target && isWorded value
  | .cond test _ _ => isWorded test
  | .loop test _ => isWorded test
  | .each var iter _ => isWord var && iter.all.all hasWords
  | .ret value => value.all isWorded
  | .leave => true
  | .next => true
  | .expr e => isWorded e

theorem isText_header {word : String} (hword : word ∈ ["if ", "elif ", "while ", "for "])
    (h : OneLine text) : IsText (word ++ text ++ ":") := by
  have hwords : ∀ word ∈ ["if ", "elif ", "while ", "for "], IsText word := by decide
  exact ((hwords word hword).append h).append (by decide)

/-- What a loop runs over stays on the line. -/
theorem oneLine_runText {var : String} {iter : ForIter} (hvar : isWord var = true)
    (h : iter.all.all hasWords = true) : OneLine (runText var iter) := by
  have hvar := isText_of_isWord hvar
  cases iter with
  | range first last =>
    rw [ForIter.all, List.all_append, Bool.and_eq_true] at h
    have hfirst := (hvar.append (b := " in range(") (by decide)).append (isText_expr first h.1).1
    have hlast := (hfirst.append (b := ", ") (by decide)).append (isText_expr last h.2).1
    exact (hlast.append (b := ")") (by decide)).1
  | each items => exact ((hvar.append (b := " in ") (by decide)).append (isText_expr items h).1).1

/-- What a statement says itself is a text on a line if its names are written as words. -/
theorem isText_ownTexts {s : Stmt} (h : wordedStmt s = true) : ∀ t ∈ ownTexts s, IsText t := by
  cases s with
  | declare name type init =>
    rw [wordedStmt, Bool.and_eq_true] at h
    have hname := isText_of_isWord h.1
    have hvalue : OneLine ((init.map dialect.expr).getD "None") := by
      cases init with
      | none => decide
      | some e => exact (isText_expr e h.2).1
    refine List.forall_mem_singleton.2 ?_
    cases type with
    | none => exact (hname.append (b := " = ") (by decide)).append hvalue
    | some t =>
      have htyped := (hname.append (b := ": ") (by decide)).append (oneLine_typeName t)
      exact (htyped.append (b := " = ") (by decide)).append hvalue
  | assign target value =>
    rw [wordedStmt, Bool.and_eq_true] at h
    have htarget := (isText_expr target h.1).append (b := " = ") (by decide)
    exact List.forall_mem_singleton.2 (htarget.append (isText_expr value h.2).1)
  | ret value =>
    refine List.forall_mem_singleton.2 ?_
    cases value with
    | none => exact (by decide : IsText "return")
    | some e => exact IsText.append (a := "return ") (by decide) (isText_expr e h).1
  | leave => exact List.forall_mem_singleton.2 (by decide)
  | next => exact List.forall_mem_singleton.2 (by decide)
  | expr e => exact List.forall_mem_singleton.2 (isText_expr e h)
  | cond test yes no =>
    have htest := (isText_expr test h).1
    refine List.forall_mem_cons.2 ⟨isText_header (by decide) htest, List.forall_mem_singleton.2 ?_⟩
    exact isText_header (by decide) htest
  | loop test body =>
    exact List.forall_mem_singleton.2 (isText_header (by decide) (isText_expr test h).1)
  | each var iter body =>
    rw [wordedStmt, Bool.and_eq_true] at h
    exact List.forall_mem_singleton.2 (isText_header (by decide) (oneLine_runText h.1 h.2))

/-! ## Reading lines -/

/-- How deep a line stands and what it says. An empty line says nothing, and what starts between two
levels stands nowhere. -/
def said? (line : String) : Option (Nat × String) :=
  let spaces := line.toList.takeWhile (· == ' ')
  let rest := line.toList.dropWhile (· == ' ')
  if rest.isEmpty || spaces.length % indentUnit.length != 0 then none
  else some (spaces.length / indentUnit.length, String.ofList rest)

/-- The statements that a text shows, where its lines stand at least this deep. -/
def readText (depth : Nat) (text : String) : Option (List Shown) := do
  readRows depth (← (lines text).mapM said?)

theorem toList_repeated (n : Nat) :
    (repeated n indentUnit).toList = List.replicate (n * indentUnit.length) ' ' := by
  induction n with
  | zero => rfl
  | succ n ih =>
    rw [repeated, String.toList_append, ih, Nat.succ_mul, Nat.add_comm,
      ← List.replicate_append_replicate]
    rfl

theorem toList_line {r : Row} (h : r.text ≠ "") : (r.line indentUnit).toList
    = List.replicate (r.depth * indentUnit.length) ' ' ++ r.text.toList := by
  rw [Row.line, if_neg (by simpa using h), String.toList_append, toList_repeated]

/-- A line says how deep it stands. -/
theorem said?_line {r : Row} (h : IsText r.text) : said? (r.line indentUnit) = some r.said := by
  obtain ⟨c, cs, hc⟩ : ∃ c cs, r.text.toList = c :: cs :=
    List.exists_cons_of_ne_nil fun hnil => h.ne_empty (String.toList_eq_nil_iff.1 hnil)
  have hspace : (c == ' ') = false := by
    have := h.2
    rw [hc] at this
    simpa using this
  have hspaces : ∀ x ∈ List.replicate (r.depth * indentUnit.length) ' ', (x == ' ') = true :=
    fun x hx => beq_iff_eq.2 (List.eq_of_mem_replicate hx)
  have hstop : r.text.toList.takeWhile (· == ' ') = [] ∧
      r.text.toList.dropWhile (· == ' ') = r.text.toList := by
    simp [hc, hspace]
  rw [said?, toList_line h.ne_empty, List.takeWhile_append_of_pos hspaces,
    List.dropWhile_append_of_pos hspaces, hstop.1, hstop.2, List.append_nil, List.length_replicate]
  have hunit : 0 < indentUnit.length := by decide
  have hne : r.text.toList.isEmpty = false := by simp [hc]
  simp [hne, Row.said, Nat.mul_div_cancel _ hunit]

theorem mapM_said? {rs : List Row} (h : ∀ r ∈ rs, IsText r.text) :
    (rs.map (Row.line indentUnit)).mapM said? = some (rs.map Row.said) := by
  induction rs with
  | nil => rfl
  | cons r rest ih =>
    obtain ⟨hr, hrest⟩ := List.forall_mem_cons.1 h
    rw [List.map_cons, List.mapM_cons, said?_line hr, ih hrest]
    rfl

theorem lines_rows {rs : List Row} (h : ∀ r ∈ rs, IsText r.text) :
    lines (unlines (rs.map (Row.line indentUnit))) = rs.map (Row.line indentUnit) := by
  have hchars : ∀ r ∈ rs, OneLine (r.line indentUnit) := by
    intro r hr
    have hspaces : ∀ c, c ≠ ' ' → c ∉ r.text.toList → c ∉ (r.line indentUnit).toList := by
      intro c hspace hc
      rw [toList_line (h r hr).ne_empty, List.mem_append, List.mem_replicate]
      rintro (⟨-, hc'⟩ | hc')
      · exact hspace hc'
      · exact hc hc'
    exact ⟨hspaces _ (by decide) (h r hr).1.1, hspaces _ (by decide) (h r hr).1.2⟩
  have hlines := lines_unlines_append (List.forall_mem_map.2 fun r hr => (hchars r hr).1) ""
  rw [String.append_empty] at hlines
  rw [hlines, List.map_map]
  have hempty : lines "" = [] := rfl
  rw [hempty, List.append_nil]
  refine List.map_congr_left fun r hr => withoutReturn_eq_self fun hlast => ?_
  exact (hchars r hr).2 (List.mem_of_getLast? hlast)

/-! ## Blocks -/

/-- The lines of a body, by how deep they stand. -/
def bodyRows (depth : Nat) (body : List Stmt) : List Row :=
  Outline.rowsAll depth (filler (outlines body))

theorem map_text_bodyRows (depth : Nat) (body : List Stmt) :
    (bodyRows depth body).map Row.text = Outline.textsAll (filler (outlines body)) :=
  Outline.map_text_rowsAll _ depth

/-- What the lines of a body say is what its statements say, `pass` and `else` apart. -/
theorem forall_text_bodyRows {P : String → Prop} (hpass : P "pass") (helse : P "else:")
    {depth : Nat} {body : List Stmt} (h : ∀ s ∈ withinAll body, ∀ t ∈ ownTexts s, P t) :
    ∀ r ∈ bodyRows depth body, P r.text := by
  have htexts := forall_texts_filler hpass (forall_texts_outlines hpass helse body h)
  rw [← map_text_bodyRows depth] at htexts
  exact List.forall_mem_map.1 htexts

/-- A line is empty exactly if some statement is a name of which nothing is left. -/
theorem bodyRows_ne_empty_iff {depth : Nat} {body : List Stmt} :
    (∀ r ∈ bodyRows depth body, r.text ≠ "") ↔
      ∀ name kind, .expr (.name name kind) ∈ withinAll body → dialect.name name kind ≠ "" := by
  constructor
  · intro h name kind hmem
    obtain ⟨t, ht, hin⟩ := exists_mem_texts_outlines body _ hmem
    have htexts : ∀ t ∈ (bodyRows depth body).map Row.text, t ≠ "" := List.forall_mem_map.2 h
    rw [map_text_bodyRows] at htexts
    obtain rfl := List.mem_singleton.1 ht
    exact htexts _ (mem_texts_filler hin)
  · intro h
    refine forall_text_bodyRows (by decide) (by decide) fun s hs => ownTexts_ne_empty ?_
    rintro e rfl hempty
    obtain ⟨name, kind, rfl, hname⟩ := (expr_eq_empty_iff e).1 hempty
    exact h name kind hs hname

/-- A text of lines that all say something gives back the statements. -/
theorem readText_bodyRows {depth : Nat} {body : List Stmt}
    (h : ∀ s ∈ withinAll body, wordedStmt s = true) :
    readText depth (unlines ((bodyRows depth body).map (Row.line indentUnit)))
      = some (Shown.block (shownAll body)) := by
  have htexts : ∀ r ∈ bodyRows depth body, IsText r.text :=
    forall_text_bodyRows (by decide) (by decide) fun s hs => isText_ownTexts (h s hs)
  rw [readText, lines_rows htexts, mapM_said? htexts]
  exact readRows_rows depth body

/-- Blocks keep their nesting. A body is written as lines that stand as deep as the writer or deeper,
right behind every header stands a line one level deeper, the lines give back the statements, and the
writer is left at its depth. A line is empty only for a statement that is a name of which the case of
mappers leaves nothing. If all names are written as words, the text gives back the statements. -/
theorem block_keeps_nesting (written : List String) (depth : Nat) (body : List Stmt) :
    let w : CodeWriter := { written, depth, unit := indentUnit }
    let rs := bodyRows depth body
    let text := unlines (rs.map (Row.line indentUnit))
    dialect.writeBlock w body = w.code (dialect.block body) ∧
      dialect.writeBlock w body = w.addRows rs ∧
      (dialect.writeBlock w body).depth = depth ∧
      (dialect.writeBlock w body).out = w.out ++ text ∧
      (∀ r ∈ rs, depth ≤ r.depth) ∧ Outline.Followed rs ∧
      readRows depth (rs.map Row.said) = some (Shown.block (shownAll body)) ∧
      ((∀ r ∈ rs, r.text ≠ "") ↔ ∀ name kind, .expr (.name name kind) ∈ withinAll body →
        dialect.name name kind ≠ "") ∧
      ((∀ s ∈ withinAll body, wordedStmt s = true) →
        readText depth text = some (Shown.block (shownAll body))) := by
  intro w rs text
  have hwritten : dialect.writeBlock w body = w.addRows rs := by
    rw [Dialect.writeBlock_eq, block_eq]
    exact Outline.code_codeAll _ w
  refine ⟨Dialect.writeBlock_eq w body, hwritten, ?_, ?_, ?_, ?_, ?_, bodyRows_ne_empty_iff,
    readText_bodyRows⟩
  · rw [hwritten]
    rfl
  · rw [hwritten]
    exact w.out_addRows rs
  · exact Outline.le_depth_rowsAll _ depth
  · exact Outline.followed_rowsAll _ depth
  · exact readRows_rows depth body

/-- Choices with an empty block, a loop and an empty `else`. -/
def chain : List Stmt :=
  [.cond (.name "first" .local) []
    (some [.cond (.name "second" .local) [.loop (.name "third" .local) [.leave]] (some [])])]

theorem block_keeps_nesting_chain : (∀ s ∈ withinAll chain, wordedStmt s = true) ∧
    readText 1 (unlines ((bodyRows 1 chain).map (Row.line indentUnit)))
      = some [.choice "first" [.line "pass"]
          (some [.choice "second" [.loop "third" [.line "break"]] (some [.line "pass"])])] := by
  have hfits : ∀ s ∈ withinAll chain, wordedStmt s = true := by
    simp [chain, withinAll, within, withinElse, wordedStmt, isWorded, Expr.all, hasWords, dialect, isWord]
  obtain ⟨-, -, -, -, -, -, -, -, hread⟩ := block_keeps_nesting [] 1 chain
  exact ⟨hfits, hread hfits⟩

/-- A choice whose block is the name of a mapper of underscores only. -/
def emptied : List Stmt :=
  [.cond (.literal (.bool true)) [.expr (.name "_" .dataAccess)] none]

/-- The block of this choice is an empty line, and the text is not read. -/
theorem block_not_read :
    (dialect.writeBlock { unit := indentUnit } emptied).out = "if True:\n\n" ∧
      readText 0 (dialect.writeBlock { unit := indentUnit } emptied).out = none := by
  have hout : (dialect.writeBlock { unit := indentUnit } emptied).out = "if True:\n\n" := by
    decide +kernel
  refine ⟨hout, ?_⟩
  rw [hout]
  rfl

end Scaffold.Target.Python
