import Scaffold.Dialect
import Scaffold.Proofs.Parser.Derivation
import Scaffold.Proofs.Printing
import Scaffold.Target.Kotlin

/-!
# Rendered expressions and the trees they are read as

A dialect that writes expressions as the C family does puts operands in parentheses by comparing how
tightly operators bind. The text is read back as the same tree exactly if no object of a member
access and no callee has an operator of its own, for these two never get parentheses.

* `Model.Expr.kinds`: the tokens of a rendered expression, by `Dialect.writes_expr`.
* `Model.follows`: these follow the grammar where objects and callees have no operator.
* `Source.Phrase.leastOpens_le`: a tree is not written with fewer parentheses than it needs, so
  elsewhere they do not.
* `Dialect.expr_read_iff`: when what was rendered is read back.
-/

namespace Scaffold

/-! ## Parentheses that a tree needs -/

namespace Source

/-- How tightly the outermost operator binds; what has none binds tightest. -/
def Expr.level : Expr → Nat
  | .unary .. => 6
  | .binary op .. => op.level
  | _ => 7

/-- A tree needs a pair of parentheses where its operator is too loose for its place. -/
def Expr.pairs (e : Expr) (l : Nat) : Nat :=
  if e.level < l then 1 else 0

mutual

/-- The parentheses that the tree needs at least, those of calls included. -/
def Expr.leastOpens : Expr → Nat
  | .literal _ | .name _ => 0
  | .member object _ => object.leastOpens + object.pairs 7
  | .call callee args => callee.leastOpens + callee.pairs 7 + (leastOpensOf args + 1)
  | .native _ args _ => leastOpensOf args + 1
  | .unary _ e => e.leastOpens + e.pairs 6
  | .binary op lhs rhs =>
    lhs.leastOpens + lhs.pairs op.level + (rhs.leastOpens + rhs.pairs (op.level + 1))

/-- The parentheses that trees need at least. -/
def leastOpensOf : List Expr → Nat
  | [] => 0
  | e :: rest => e.leastOpens + leastOpensOf rest

end

def opens (ks : List TokenKind) : Nat :=
  ks.count (.punct .parenOpen)

variable {k : TokenKind} {ks ks' : List TokenKind}

@[simp]
theorem opens_nil : opens [] = 0 := rfl

@[simp]
theorem opens_append : opens (ks ++ ks') = opens ks + opens ks' :=
  List.count_append

@[simp]
theorem opens_cons : opens (k :: ks) = opens ks + if k = .punct .parenOpen then 1 else 0 := by
  simp [opens, List.count_cons]

@[simp]
theorem opens_inParens : opens (inParens ks) = opens ks + 1 := by
  simp [inParens]

theorem opens_sign (op : BinaryOp) :
    opens (ks ++ .punct op.punct :: ks') = opens ks + opens ks' := by
  cases op <;> simp [BinaryOp.punct]

theorem Expr.pairs_mono {l l' : Nat} (e : Expr) (h : l ≤ l') : e.pairs l ≤ e.pairs l' := by
  unfold pairs
  split <;> split <;> omega

mutual

theorem Operand.leastOpens_le {ks : List TokenKind} {e : Expr} :
    Operand ks e → e.leastOpens + e.pairs 7 ≤ opens ks
  | .literal _ => Nat.zero_le _
  | .name _ => Nat.zero_le _
  | .parens h => by
    have hinner := h.leastOpens_le
    have hpair : e.pairs 7 ≤ 1 := by unfold Expr.pairs; split <;> omega
    rw [opens_inParens]
    omega
  | .native _ hargs _ => by
    have hinner := hargs.leastOpens_le
    simp [Expr.leastOpens, Expr.pairs, Expr.level]
    omega
  | .member h _ => by
    have hinner := h.leastOpens_le
    simp [Expr.leastOpens, Expr.pairs, Expr.level] at hinner ⊢
    omega
  | .call h hargs => by
    have hinner := h.leastOpens_le
    have hinner' := hargs.leastOpens_le
    simp [Expr.leastOpens, Expr.pairs, Expr.level] at hinner ⊢
    omega

theorem Phrase.leastOpens_le {l : Nat} {ks : List TokenKind} {e : Expr} :
    Phrase l ks e → e.leastOpens + e.pairs l ≤ opens ks
  | .operand h => by
    have hpairs := e.pairs_mono (show 6 ≤ 7 by decide)
    have hinner := h.leastOpens_le
    omega
  | .unary op h => by
    have hinner := h.leastOpens_le
    cases op <;> simpa [Expr.leastOpens, Expr.pairs, Expr.level, UnaryOp.punct] using hinner
  | .tighter _ h => by
    have hpairs := e.pairs_mono (show l ≤ l + 1 by omega)
    have hinner := h.leastOpens_le
    omega
  | .binary op hlhs hrhs => by
    have hleft := hlhs.leastOpens_le
    have hright := hrhs.leastOpens_le
    have hown : ∀ lhs rhs, (Expr.binary op lhs rhs).pairs op.level = 0 := fun _ _ =>
      if_neg (Nat.lt_irrefl _)
    rw [opens_sign, hown, Expr.leastOpens]
    omega

theorem Arguments.leastOpens_le {ks : List TokenKind} {es : List Expr} :
    Arguments ks es → leastOpensOf es ≤ opens ks
  | .nil => Nat.zero_le _
  | .last h => by
    have hinner := h.leastOpens_le
    simp [leastOpensOf]
    omega
  | .more h hs => by
    have hfirst := h.leastOpens_le
    have hrest := hs.leastOpens_le
    simp [leastOpensOf]
    omega

end

theorem Expr.level_bare (e : Expr) : e.bare.level = e.level := by
  cases e <;> rfl

theorem Expr.pairs_bare (e : Expr) (l : Nat) : e.bare.pairs l = e.pairs l := by
  rw [pairs, pairs, level_bare]

mutual

theorem Expr.leastOpens_bare : (e : Expr) → e.bare.leastOpens = e.leastOpens
  | .literal _ => rfl
  | .name _ => rfl
  | .member object _ => by
    simp [Expr.bare, Expr.leastOpens, object.leastOpens_bare, Expr.pairs_bare]
  | .call callee args => by
    have hargs := leastOpensOf_bare args
    simp only [bareExprs_eq_map] at hargs
    simp [Expr.bare, Expr.leastOpens, callee.leastOpens_bare, Expr.pairs_bare, hargs]
  | .native _ args _ => by
    have hargs := leastOpensOf_bare args
    simp only [bareExprs_eq_map] at hargs
    simp [Expr.bare, Expr.leastOpens, hargs]
  | .unary _ e => by simp [Expr.bare, Expr.leastOpens, e.leastOpens_bare, Expr.pairs_bare]
  | .binary _ lhs rhs => by
    simp [Expr.bare, Expr.leastOpens, lhs.leastOpens_bare, rhs.leastOpens_bare, Expr.pairs_bare]

theorem leastOpensOf_bare : (es : List Expr) → leastOpensOf (bareExprs es) = leastOpensOf es
  | [] => rfl
  | e :: es => by
    rw [bareExprs, leastOpensOf, leastOpensOf, e.leastOpens_bare, leastOpensOf_bare es]

end

end Source

/-! ## Rendered tokens -/

namespace Model

open Source (inParens separated literalKind)

/-- Tokens, perhaps in parentheses. -/
def wrapped (needed : Bool) (ks : List TokenKind) : List TokenKind :=
  if needed then inParens ks else ks

mutual

/-- The tokens that an expression without native calls is rendered with. -/
def Expr.kinds : Expr → List TokenKind
  | .literal l => [literalKind l]
  | .name name _ => [.ident name]
  | .member object name => object.kinds ++ [.punct .dot, .ident name]
  | .call callee args => callee.kinds ++ inParens (separated (kindsOf args))
  | .native _ _ => []
  | .unary op e => .punct op.punct :: wrapped (Dialect.isBinary e) e.kinds
  | .binary op lhs rhs =>
    wrapped (Dialect.needsParens op false lhs) lhs.kinds ++
      .punct op.punct :: wrapped (Dialect.needsParens op true rhs) rhs.kinds

/-- The tokens of each expression. -/
def kindsOf : List Expr → List (List TokenKind)
  | [] => []
  | e :: rest => e.kinds :: kindsOf rest

end

mutual

/-- The expression as a source has it. -/
def Expr.written : Expr → Source.Expr
  | .literal l => .literal l
  | .name name _ => .name { name, pos := {}, scope := 0, seq := 0 }
  | .member object name => .member object.written name
  | .call callee args => .call callee.written (writtenAll args)
  | .native path args => .native path (writtenAll args) {}
  | .unary op e => .unary op e.written
  | .binary op lhs rhs => .binary op lhs.written rhs.written

/-- Expressions as a source has them. -/
def writtenAll : List Expr → List Source.Expr
  | [] => []
  | e :: rest => e.written :: writtenAll rest

end

/-- Neither a native call nor a negative number or one with a fraction, and no reserved word for a
name. -/
def Expr.isPlain : Expr → Bool
  | .literal l => l.isPlain
  | .name word _ | .member _ word => Lexer.isName word
  | .native .. => false
  | .call .. | .unary .. | .binary .. => true

/-- What is accessed or called has no operator of its own. -/
def Expr.isGrouped : Expr → Bool
  | .member object _ => !object.written.hasOperator
  | .call callee _ => !callee.written.hasOperator
  | _ => true

/-- Every expression inside meets the condition. -/
def Expr.Every (p : Expr → Bool) (e : Expr) : Prop :=
  ∀ x ∈ e.all, p x = true

/-- Every expression inside the expressions meets the condition. -/
def EveryOf (p : Expr → Bool) (es : List Expr) : Prop :=
  ∀ x ∈ allOf es, p x = true

section

variable {p : Expr → Bool} {e lhs rhs : Expr} {es : List Expr}

theorem every_member {name : String} :
    (Expr.member e name).Every p ↔ p (.member e name) = true ∧ e.Every p :=
  List.forall_mem_cons

theorem every_call :
    (Expr.call e es).Every p ↔ p (.call e es) = true ∧ e.Every p ∧ EveryOf p es := by
  unfold Expr.Every EveryOf
  rw [Expr.all, List.forall_mem_cons, List.forall_mem_append]

theorem every_unary {op : UnaryOp} :
    (Expr.unary op e).Every p ↔ p (.unary op e) = true ∧ e.Every p :=
  List.forall_mem_cons

theorem every_binary {op : BinaryOp} :
    (Expr.binary op lhs rhs).Every p ↔
      p (.binary op lhs rhs) = true ∧ lhs.Every p ∧ rhs.Every p := by
  unfold Expr.Every
  rw [Expr.all, List.forall_mem_cons, List.forall_mem_append]

theorem everyOf_cons : EveryOf p (e :: es) ↔ e.Every p ∧ EveryOf p es := by
  unfold Expr.Every EveryOf
  rw [allOf, List.forall_mem_append]

theorem Expr.Every.self (h : e.Every p) : p e = true := by
  refine h e ?_
  cases e <;> exact List.mem_cons_self

end

/-! ### Levels -/

theorem isBinary_eq (e : Expr) : Dialect.isBinary e = decide (e.written.level < 6) := by
  cases e with
  | binary op => cases op <;> rfl
  | _ => rfl

/-- Parentheses are needed where the operator is too loose for its place. -/
theorem needsParens_eq (op : BinaryOp) (right : Bool) (e : Expr) :
    Dialect.needsParens op right e = decide (e.written.level < op.level + right.toNat) := by
  cases e with
  | binary inner => cases op <;> cases inner <;> cases right <;> rfl
  | unary => cases op <;> cases right <;> rfl
  | _ => cases op <;> cases right <;> rfl

/-! ### What is rendered follows the grammar -/

/-- The tokens of the expression follow the grammar, on their own and as an operand. -/
structure Follows (e : Expr) : Prop where
  phrase : ∀ l, l ≤ 6 → l ≤ e.written.level → Source.Phrase l e.kinds e.written
  operand : e.written.hasOperator = false → Source.Operand e.kinds e.written

theorem Follows.of_operand {e : Expr} (h : Source.Operand e.kinds e.written) : Follows e :=
  ⟨fun _ hl _ => (Source.Phrase.operand h).loosen hl, fun _ => h⟩

/-- What gets parentheses where its operator is too loose can stand there. -/
theorem Follows.side {e : Expr} (h : Follows e) {l : Nat} (hl : l ≤ 6) :
    Source.Phrase l (wrapped (decide (e.written.level < l)) e.kinds) e.written := by
  unfold wrapped
  split
  · exact (Source.Phrase.operand (.parens (h.phrase 0 (Nat.zero_le _) (Nat.zero_le _)))).loosen hl
  · rename_i hlevel
    simp only [decide_eq_true_eq] at hlevel
    exact h.phrase l hl (by omega)

mutual

theorem follows : (e : Expr) → e.Every Expr.isPlain → e.Every Expr.isGrouped → Follows e
  | .literal l, h, _ => .of_operand (.literal (Source.literalOf?_literalKind fun n hn => by
      have hplain := h.self
      subst hn
      simp only [Expr.isPlain, Literal.isPlain, Bool.and_eq_true, decide_eq_true_eq] at hplain
      exact hplain.1))
  | .name name _, _, _ => .of_operand (.name ⟨name, {}, 0, 0, none⟩)
  | .member object name, h, hg => by
    rw [every_member] at h hg
    have hobject := (follows object h.2 hg.2).operand (by simpa [Expr.isGrouped] using hg.1)
    exact .of_operand (hobject.member name)
  | .call callee args, h, hg => by
    rw [every_call] at h hg
    have hcallee := (follows callee h.2.1 hg.2.1).operand (by simpa [Expr.isGrouped] using hg.1)
    exact .of_operand (hcallee.call (.of_separated (followsOf args h.2.2 hg.2.2)))
  | .native _ _, h, _ => by cases h.self
  | .unary op e, h, hg => by
    rw [every_unary] at h hg
    have he := (follows e h.2 hg.2).side (Nat.le_refl 6)
    rw [← isBinary_eq] at he
    exact ⟨fun l hl _ => (Source.Phrase.unary op he).loosen hl, fun hnone => by cases hnone⟩
  | .binary op lhs rhs, h, hg => by
    rw [every_binary] at h hg
    have hlevel : op.level + 1 ≤ 6 := by cases op <;> decide
    have hlhs := (follows lhs h.2.1 hg.2.1).side (show op.level ≤ 6 by omega)
    have hrhs := (follows rhs h.2.2 hg.2.2).side hlevel
    have hleft := needsParens_eq op false lhs
    have hright := needsParens_eq op true rhs
    simp only [Bool.toNat_false, Bool.toNat_true, Nat.add_zero] at hleft hright
    rw [← hleft] at hlhs
    rw [← hright] at hrhs
    exact ⟨fun l _ hl => (Source.Phrase.binary op hlhs hrhs).loosen hl, fun hnone => by cases hnone⟩

theorem followsOf : (es : List Expr) → EveryOf Expr.isPlain es → EveryOf Expr.isGrouped es →
    List.Forall₂ (Source.Phrase 0) (kindsOf es) (writtenAll es)
  | [], _, _ => .nil
  | e :: es, h, hg => by
    rw [everyOf_cons] at h hg
    exact .cons ((follows e h.1 hg.1).phrase 0 (Nat.zero_le _) (Nat.zero_le _))
      (followsOf es h.2 hg.2)

end

/-! ### Rendered parentheses -/

open Source (opens opens_append opens_cons opens_inParens opens_sign opens_nil)

/-- How many accesses and calls inside lack parentheses. -/
def Expr.ungrouped (e : Expr) : Nat :=
  e.all.countP fun x => !x.isGrouped

/-- How many accesses and calls inside the expressions lack parentheses. -/
def ungroupedOf (es : List Expr) : Nat :=
  (allOf es).countP fun x => !x.isGrouped

theorem opens_wrapped {l : Nat} (e : Expr) :
    opens (wrapped (decide (e.written.level < l)) e.kinds) = opens e.kinds + e.written.pairs l := by
  unfold wrapped Source.Expr.pairs
  by_cases hlevel : e.written.level < l <;> simp [hlevel]

theorem opens_separated (ks : List TokenKind) (kss : List (List TokenKind)) :
    opens (separated (ks :: kss)) = opens ks + opens (separated kss) := by
  cases kss with
  | nil => simp [separated]
  | cons => simp [separated]

theorem pairs_object (e : Expr) :
    e.written.pairs 7 = if (!(!e.written.hasOperator)) = true then 1 else 0 := by
  cases e with
  | binary op => cases op <;> rfl
  | _ => rfl

section

variable {e lhs rhs : Expr} {es : List Expr}

theorem ungrouped_member {name : String} :
    (Expr.member e name).ungrouped = e.ungrouped + e.written.pairs 7 := by
  rw [pairs_object]
  exact List.countP_cons

theorem ungrouped_call :
    (Expr.call e es).ungrouped = e.ungrouped + ungroupedOf es + e.written.pairs 7 := by
  rw [pairs_object, Expr.ungrouped, Expr.ungrouped, ungroupedOf, ← List.countP_append]
  exact List.countP_cons

theorem ungrouped_unary {op : UnaryOp} : (Expr.unary op e).ungrouped = e.ungrouped :=
  List.countP_cons

theorem ungrouped_binary {op : BinaryOp} :
    (Expr.binary op lhs rhs).ungrouped = lhs.ungrouped + rhs.ungrouped := by
  rw [Expr.ungrouped, Expr.ungrouped, Expr.ungrouped, ← List.countP_append]
  exact List.countP_cons

theorem ungroupedOf_cons : ungroupedOf (e :: es) = e.ungrouped + ungroupedOf es :=
  List.countP_append

end

mutual

/-- Exactly the parentheses of accesses and calls are missing. -/
theorem opens_kinds : (e : Expr) → e.Every Expr.isPlain →
    opens e.kinds + e.ungrouped = e.written.leastOpens
  | .literal l, _ => by
    cases l with
    | bool b => cases b <;> rfl
    | _ => rfl
  | .name _ _, _ => rfl
  | .member object name, h => by
    have hobject := opens_kinds object (every_member.1 h).2
    rw [ungrouped_member, Expr.kinds, Expr.written, Source.Expr.leastOpens, ← hobject]
    simp
    omega
  | .call callee args, h => by
    obtain ⟨-, hcallee, hargs⟩ := every_call.1 h
    have hcallee := opens_kinds callee hcallee
    have hargs := opens_kindsOf args hargs
    rw [ungrouped_call, Expr.kinds, Expr.written, Source.Expr.leastOpens, ← hcallee, ← hargs]
    simp
    omega
  | .native _ _, h => by cases h.self
  | .unary op e, h => by
    have he := opens_kinds e (every_unary.1 h).2
    have hsign : TokenKind.punct op.punct ≠ .punct .parenOpen := by cases op <;> decide
    rw [ungrouped_unary, Expr.kinds, Expr.written, Source.Expr.leastOpens, ← he, isBinary_eq,
      opens_cons, opens_wrapped, if_neg hsign]
    omega
  | .binary op lhs rhs, h => by
    obtain ⟨-, hlhs, hrhs⟩ := every_binary.1 h
    have hlhs := opens_kinds lhs hlhs
    have hrhs := opens_kinds rhs hrhs
    rw [ungrouped_binary, Expr.kinds, Expr.written, Source.Expr.leastOpens, ← hlhs, ← hrhs,
      opens_sign, needsParens_eq, needsParens_eq, opens_wrapped, opens_wrapped]
    simp only [Bool.toNat_false, Bool.toNat_true, Nat.add_zero]
    omega

theorem opens_kindsOf : (es : List Expr) → EveryOf Expr.isPlain es →
    opens (separated (kindsOf es)) + ungroupedOf es = Source.leastOpensOf (writtenAll es)
  | [], _ => rfl
  | e :: es, h => by
    obtain ⟨he, hes⟩ := everyOf_cons.1 h
    have he := opens_kinds e he
    have hes := opens_kindsOf es hes
    rw [ungroupedOf_cons, kindsOf, writtenAll, Source.leastOpensOf, ← he, ← hes, opens_separated]
    omega

end

end Model

/-! ## Rendered text -/

open Lexer (Lexes Closes)

theorem Lexer.Closes.ends {l : Literal} {rest : List Char} (h : Closes rest) :
    (Source.literalKind l).Ends rest := by
  cases l with
  | int n =>
    refine ⟨fun x hx => ?_, h.point⟩
    cases hdigit : x.isDigit with
    | false => rfl
    | true =>
      have hname := h.name x hx
      rw [Lexer.isNameChar_of_isDigit hdigit] at hname
      cases hname
  | bool b => cases b <;> exact h.name
  | null => exact h.name
  | str _ => trivial
  | float _ => trivial

/-- The text is lexed to tokens of these kinds, before whatever does not continue them, and does not
start with a sign that would make another one longer. -/
structure Writes (text : String) (ks : List TokenKind) : Prop where
  lexes : ∀ rest ks', Closes rest → Lexes rest ks' → Lexes (text.toList ++ rest) (ks ++ ks')
  starts : ∃ c cs, text.toList = c :: cs ∧ c ≠ '='

namespace Writes

variable {text lhs rhs name : String} {ks ks' : List TokenKind}

theorem token {k : TokenKind} (hk : k.IsSpelled) (htext : text.toList = k.spelling)
    (hends : ∀ rest, Closes rest → k.Ends rest)
    (hstarts : ∃ c cs, k.spelling = c :: cs ∧ c ≠ '=') : Writes text [k] where
  lexes rest ks' hrest h := by
    rw [htext]
    exact Lexer.lexes_spelling hk (hends rest hrest) h
  starts := by rwa [htext]

theorem parenthesized (h : Writes text ks) (needed : Bool) :
    Writes (Dialect.parenthesized needed text) (Model.wrapped needed ks) := by
  cases needed with
  | false => exact h
  | true =>
    refine ⟨fun rest ks' hrest hlexes => ?_, '(', text.toList ++ [')'], by
      simp [Dialect.parenthesized], by decide⟩
    have hclose : Lexes (')' :: rest) (.punct .parenClose :: ks') :=
      Lexer.lexes_punct .parenClose trivial hlexes
    have hinner := h.lexes _ _ (Lexer.closes_cons (by decide) (by decide)) hclose
    have hopen : Lexes ('(' :: _) (.punct .parenOpen :: _) :=
      Lexer.lexes_punct .parenOpen trivial hinner
    simpa [Dialect.parenthesized, Model.wrapped, Source.inParens] using hopen

theorem member (h : Writes text ks) (hname : Lexer.isName name = true) :
    Writes (text ++ "." ++ name) (ks ++ [.punct .dot, .ident name]) := by
  refine ⟨fun rest ks' hrest hlexes => ?_, ?_⟩
  · have hident := Lexer.lexes_ident hname hrest.name hlexes
    obtain ⟨c, cs, hcs, hc⟩ := Lexer.isName_cons hname
    have hdot : Lexes ('.' :: (name.toList ++ rest)) (.punct .dot :: .ident name :: ks') := by
      refine Lexer.lexes_punct .dot ?_ hident
      rw [hcs]
      rintro ⟨⟩
      cases hc
    simpa using h.lexes _ _ (Lexer.closes_member hname) hdot
  · obtain ⟨c, cs, hcs, hc⟩ := h.starts
    exact ⟨c, cs ++ '.' :: name.toList, by simp [hcs], hc⟩

theorem call {args : String} {kss : List TokenKind} (h : Writes text ks)
    (hargs : ∀ rest ks', Lexes rest ks' →
      Lexes (args.toList ++ ')' :: rest) (kss ++ .punct .parenClose :: ks')) :
    Writes (text ++ "(" ++ args ++ ")") (ks ++ Source.inParens kss) := by
  refine ⟨fun rest ks' hrest hlexes => ?_, ?_⟩
  · have hopen : Lexes ('(' :: _) (.punct .parenOpen :: _) :=
      Lexer.lexes_punct .parenOpen trivial (hargs rest ks' hlexes)
    have hcall := h.lexes _ _ (Lexer.closes_cons (by decide) (by decide)) hopen
    simpa [Source.inParens] using hcall
  · obtain ⟨c, cs, hcs, hc⟩ := h.starts
    exact ⟨c, cs ++ '(' :: (args.toList ++ [')']), by simp [hcs], hc⟩

theorem unary (op : UnaryOp) (h : Writes text ks) :
    Writes (op.punct.text ++ text) (.punct op.punct :: ks) := by
  obtain ⟨c, cs, hcs, hc⟩ := h.starts
  refine ⟨fun rest ks' hrest hlexes => ?_, ?_⟩
  · have htext := h.lexes rest ks' hrest hlexes
    have hends : op.punct.Ends (text.toList ++ rest) := by
      cases op with
      | not =>
        rw [hcs]
        rintro ⟨⟩
        exact hc rfl
      | neg => trivial
    rw [String.toList_append, List.append_assoc]
    exact Lexer.lexes_punct op.punct hends htext
  · rw [String.toList_append]
    cases op <;> exact ⟨_, _, rfl, by decide⟩

theorem binary (op : BinaryOp) (hlhs : Writes lhs ks) (hrhs : Writes rhs ks') :
    Writes (lhs ++ " " ++ op.punct.text ++ " " ++ rhs) (ks ++ .punct op.punct :: ks') := by
  refine ⟨fun rest more hrest hlexes => ?_, ?_⟩
  · have hright := Lexer.lexes_blank (c := ' ') (by decide) (hrhs.lexes rest more hrest hlexes)
    have hsign := Lexer.lexes_punct op.punct (Lexer.ends_space (.punct op.punct) _) hright
    have hleft := hlhs.lexes _ _ (Lexer.closes_cons (by decide) (by decide))
      (Lexer.lexes_blank (c := ' ') (by decide) hsign)
    simpa using hleft
  · obtain ⟨c, cs, hcs, hc⟩ := hlhs.starts
    exact ⟨c, _, by rw [String.toList_append, String.toList_append, String.toList_append,
      String.toList_append, hcs]; rfl, hc⟩

end Writes

/-! ## Reading back -/

namespace Dialect

/-- The dialect writes expressions as the C family does. -/
structure IsCommon (d : Dialect) : Prop where
  quote : ∀ s, d.quote s = "\"" ++ Naming.escape s ++ "\""
  null : d.null = "null"
  bool : ∀ b, d.bool b = if b then "true" else "false"
  unarySign : ∀ op, d.unarySign op = match op with
    | .not => "!"
    | .neg => "-"
  binary : ∀ op lhs rhs, d.binary op lhs rhs = lhs ++ " " ++ op.sign ++ " " ++ rhs
  name : ∀ name kind, d.name name kind = name

variable {d : Dialect}

theorem literal_toList (hd : d.IsCommon) {l : Literal} (h : l.isPlain = true) :
    (d.literal l).toList = (Source.literalKind l).spelling := by
  cases l with
  | int n =>
    simp only [Literal.isPlain, Bool.and_eq_true, decide_eq_true_eq] at h
    obtain ⟨m, rfl⟩ := Int.eq_ofNat_of_zero_le h.1
    show (Nat.repr m).toList = Nat.toDigits 10 m
    rw [Nat.repr, String.toList_ofList]
  | float x => cases h
  | str s => simp [literal, hd.quote, Source.literalKind, TokenKind.spelling]
  | bool b =>
    cases b <;> simp [literal, hd.bool, Source.literalKind, TokenKind.spelling, Keyword.text]
  | null => simp [literal, hd.null, Source.literalKind, TokenKind.spelling, Keyword.text]

theorem literal_starts {l : Literal} (h : l.isPlain = true) :
    ∃ c cs, (Source.literalKind l).spelling = c :: cs ∧ c ≠ '=' := by
  cases l with
  | int n =>
    obtain ⟨c, cs, hcs⟩ := List.exists_cons_of_ne_nil (Nat.toDigits_ne_nil (b := 10) (n := n.toNat))
    have hdigit : c.isDigit = true := Nat.isDigit_of_mem_toDigits (b := 10) (n := n.toNat)
      (by decide) (by decide) (by rw [hcs]; exact List.mem_cons_self)
    refine ⟨c, cs, hcs, ?_⟩
    rintro rfl
    cases hdigit
  | float x => cases h
  | str s => exact ⟨_, _, rfl, by decide⟩
  | bool b => cases b <;> exact ⟨_, _, rfl, by decide⟩
  | null => exact ⟨_, _, rfl, by decide⟩

theorem writes_literal (hd : d.IsCommon) {l : Literal} (h : l.isPlain = true) :
    Writes (d.literal l) [Source.literalKind l] :=
  .token (Source.Style.isSpelled_literalKind h) (literal_toList hd h)
    (fun _ hrest => hrest.ends) (literal_starts h)

theorem writes_name {name : String} (h : Lexer.isName name = true) :
    Writes name [.ident name] := by
  refine .token h rfl (fun _ hrest => hrest.name) ?_
  obtain ⟨c, cs, hcs, hc⟩ := Lexer.isName_cons h
  refine ⟨c, cs, hcs, ?_⟩
  rintro rfl
  cases hc

open Model (Expr kindsOf EveryOf every_member every_call every_unary every_binary everyOf_cons)

mutual

/-- The text of an expression is lexed to its tokens. -/
theorem writes_expr (hd : d.IsCommon) : (e : Expr) → e.Every Expr.isPlain →
    Writes (d.expr e) e.kinds
  | .literal l, h => writes_literal hd h.self
  | .name name kind, h => by
    rw [Dialect.expr, hd.name]
    exact writes_name h.self
  | .member object name, h => by
    obtain ⟨hname, hobject⟩ := every_member.1 h
    exact (writes_expr hd object hobject).member hname
  | .call callee args, h => by
    obtain ⟨-, hcallee, hargs⟩ := every_call.1 h
    exact (writes_expr hd callee hcallee).call (lexes_exprs hd args hargs)
  | .native _ _, h => by cases h.self
  | .unary op e, h => by
    have he := (writes_expr hd e (every_unary.1 h).2).parenthesized (isBinary e)
    have hsign : d.unarySign op = op.punct.text := by rw [hd.unarySign]; cases op <;> rfl
    rw [Dialect.expr, hsign]
    exact he.unary op
  | .binary op lhs rhs, h => by
    obtain ⟨-, hlhs, hrhs⟩ := every_binary.1 h
    have hleft := (writes_expr hd lhs hlhs).parenthesized (needsParens op false lhs)
    have hright := (writes_expr hd rhs hrhs).parenthesized (needsParens op true rhs)
    have hsign : op.sign = op.punct.text := by cases op <;> rfl
    rw [Dialect.expr, hd.binary, hsign]
    exact hleft.binary op hright

/-- Arguments are lexed up to the parenthesis that closes them. -/
theorem lexes_exprs (hd : d.IsCommon) : (es : List Expr) → EveryOf Expr.isPlain es →
    ∀ rest ks, Lexes rest ks →
      Lexes ((Text.joinWith ", " (d.exprs es)).toList ++ ')' :: rest)
        (Source.separated (kindsOf es) ++ .punct .parenClose :: ks)
  | [], _, rest, ks, hrest => Lexer.lexes_punct .parenClose trivial hrest
  | e :: es, h, rest, ks, hrest => by
    obtain ⟨he, hes⟩ := everyOf_cons.1 h
    have hfirst := writes_expr hd e he
    have hmore := lexes_exprs hd es hes rest ks hrest
    cases es with
    | nil => exact hfirst.lexes _ _ (Lexer.closes_cons (by decide) (by decide)) hmore
    | cons e' es =>
      have hcomma : Lexes (',' :: ' ' :: _) (.punct .comma :: _) :=
        Lexer.lexes_punct .comma trivial (Lexer.lexes_blank (c := ' ') (by decide) hmore)
      have hboth := hfirst.lexes _ _ (Lexer.closes_cons (by decide) (by decide)) hcomma
      simpa [Dialect.exprs, Text.joinWith, kindsOf, Source.separated] using hboth

end

theorem tokenize_expr (hd : d.IsCommon) {e : Expr} (he : e.Every Expr.isPlain) :
    ∃ ts, tokenize (d.expr e) = .ok ts ∧ ts.map (·.kind) = e.kinds ++ [.eof] := by
  have hlexes := (writes_expr hd e he).lexes [] [] Lexer.closes_nil Lexer.lexes_nil
  rw [List.append_nil, List.append_nil] at hlexes
  exact hlexes.tokenize

/-- A rendered expression is lexed, and it is read back exactly if nothing that is accessed or
called has an operator of its own. -/
theorem expr_read_iff (d : Dialect) (hd : d.IsCommon) (e : Expr) (he : e.Every Expr.isPlain) :
    ∃ ts, tokenize (d.expr e) = .ok ts ∧ ∀ env s, s.rest = ts →
      ((∃ e' s', Source.Parser.expr env s = (.ok e', s') ∧ e'.bare = e.written.bare ∧
        s'.kinds = [.eof]) ↔ e.Every Expr.isGrouped) := by
  obtain ⟨ts, hts, hkinds⟩ := tokenize_expr hd he
  refine ⟨ts, hts, fun env s hs => ?_⟩
  have hs : s.kinds = e.kinds ++ [.eof] := by rw [Source.ParserState.kinds, hs, hkinds]
  constructor
  · rintro ⟨e', s', hread, hsame, hend⟩
    -- The parser took exactly the rendered tokens, so these suffice for the tree.
    obtain ⟨taken, htaken, hphrase⟩ := Source.Parser.derived_expr _ env s e' s' rfl hread
    rw [hs, hend] at htaken
    obtain rfl := List.append_cancel_right htaken
    rw [List.nil_append] at hphrase
    have hleast := hphrase.leastOpens_le
    have hopens := Model.opens_kinds e he
    rw [← e'.leastOpens_bare, hsame, Source.Expr.leastOpens_bare] at hleast
    have hnone : e.ungrouped = 0 := by omega
    intro x hx
    simpa using List.countP_eq_zero.1 hnone x hx
  · intro hgrouped
    have hphrase := (Model.follows e he hgrouped).phrase 0 (Nat.zero_le _) (Nat.zero_le _)
    exact hphrase.expr (by decide) env s hs

theorem isCommon_kotlin : Target.Kotlin.dialect.IsCommon :=
  ⟨fun _ => rfl, rfl, fun _ => rfl, fun op => by cases op <;> rfl, fun _ _ _ => rfl,
    fun _ _ => rfl⟩

/-- Accesses and calls in a row, and operators of all kinds inside each other. -/
def nested : Expr :=
  .binary .sub (.member (.call (.call (.member (.name "a" .param) "f") [.literal (.int 1),
      .binary .or (.name "b" .local) (.literal (.bool true))]) []) "x")
    (.binary .sub (.unary .neg (.unary .not (.binary .lt (.name "b" .local) (.literal (.int 20)))))
      (.binary .mul (.literal (.str "\"\\")) (.binary .add (.name "c" .local) (.literal .null))))

theorem expr_read_iff_nested :
    Target.Kotlin.dialect.IsCommon ∧ nested.Every Expr.isPlain ∧ nested.Every Expr.isGrouped ∧
    Target.Kotlin.dialect.expr nested
      = "a.f(1, b || true)().x - (-!(b < 20) - \"\\\"\\\\\" * (c + null))" ∧
    ∃ ts, tokenize (Target.Kotlin.dialect.expr nested) = .ok ts ∧ ∀ env s, s.rest = ts →
      ∃ e' s', Source.Parser.expr env s = (.ok e', s') ∧ e'.bare = nested.written.bare ∧
        s'.kinds = [.eof] := by
  have hplain : ∀ x ∈ nested.all, x.isPlain = true := by decide +kernel
  have hgrouped : ∀ x ∈ nested.all, x.isGrouped = true := by decide +kernel
  obtain ⟨ts, hts, hread⟩ := expr_read_iff Target.Kotlin.dialect isCommon_kotlin nested hplain
  exact ⟨isCommon_kotlin, hplain, hgrouped, by decide +kernel, ts, hts,
    fun env s hs => (hread env s hs).2 hgrouped⟩

def memberOfSum : Expr :=
  .member (.binary .add (.name "a" .param) (.name "b" .param)) "x"

/-- The text of `memberOfSum` is read as the sum of a name and a member. -/
theorem memberOfSum_not_read :
    Target.Kotlin.dialect.IsCommon ∧ memberOfSum.Every Expr.isPlain ∧
    Target.Kotlin.dialect.expr memberOfSum = "a + b.x" ∧
    ∃ ts, tokenize (Target.Kotlin.dialect.expr memberOfSum) = .ok ts ∧ ∀ env s, s.rest = ts →
      ¬ ∃ e' s', Source.Parser.expr env s = (.ok e', s') ∧
        e'.bare = memberOfSum.written.bare ∧ s'.kinds = [.eof] := by
  have hplain : ∀ x ∈ memberOfSum.all, x.isPlain = true := by decide
  obtain ⟨ts, hts, hkinds⟩ := tokenize_expr isCommon_kotlin hplain
  refine ⟨isCommon_kotlin, hplain, by decide +kernel, ts, hts, fun env s hs => ?_⟩
  rintro ⟨e', s', hread, hsame, -⟩
  have hs : s.kinds = memberOfSum.kinds ++ [.eof] := by rw [Source.ParserState.kinds, hs, hkinds]
  have hname : ∀ name, Source.Operand [.ident name] (.name ⟨name, {}, 0, 0, none⟩) := fun name =>
    .name ⟨name, {}, 0, 0, none⟩
  have hleft := (Source.Phrase.operand (hname "a")).loosen (show BinaryOp.add.level ≤ 6 by decide)
  have hright := (Source.Phrase.operand ((hname "b").member "x")).loosen
    (show BinaryOp.add.level + 1 ≤ 6 by decide)
  have hsum : Source.Phrase 0 memberOfSum.kinds _ :=
    (Source.Phrase.binary .add hleft hright).loosen (Nat.zero_le _)
  obtain ⟨sum, s'', hread', hsum', -⟩ := hsum.expr (by decide) env s hs
  -- The parser gives one result, and that one is the sum.
  rw [hread] at hread'
  cases hread'
  rw [hsame] at hsum'
  cases hsum'

end Dialect

end Scaffold
