import Scaffold.Proofs.Target.Lexicon

/-!
# Operators in Python

The renderer puts parentheses by how tightly operators bind in the C family. In Python `not` binds
less tightly than comparisons, and all comparisons bind alike and are chained, so parentheses are
missing where the two orders differ.

* `rules`: Python's expressions as far as operators go.
* `standsInPython`: one operator keeps its operands.
* `expr_denotes_iff`: the text of an expression denotes it exactly if every operator inside does.
-/

namespace Scaffold.Target.Python

open Model (Expr every_unary every_binary)

/-! ## Python's expressions -/

/-- The operator of Python for one of the code model. -/
def mark : BinaryOp → Mark
  | .and => .word "and"
  | .or => .word "or"
  | op => .sign op.sign

/-- The level of an operator. -/
def level : BinaryOp → Nat
  | .or => 0
  | .and => 1
  | .eq | .notEq | .lt | .le | .gt | .ge => 3
  | .add | .sub => 4
  | .mul | .div | .rem => 5

/-- How an operator stands beside others of its level. -/
def joining : BinaryOp → Joining
  | .eq | .notEq | .lt | .le | .gt | .ge => .chained
  | _ => .left

/-- The level of an operator in front. -/
def unaryLevel : UnaryOp → Nat
  | .not => 2
  | .neg => 6

/-- The words that are no names. -/
def reserved : List String :=
  ["False", "None", "True", "and", "as", "assert", "async", "await", "break", "class", "continue",
    "def", "del", "elif", "else", "except", "finally", "for", "from", "global", "if", "import",
    "in", "is", "lambda", "nonlocal", "not", "or", "pass", "raise", "return", "try", "while",
    "with", "yield"]

/-- Operators and the words of Python. -/
def grammar : Grammar where
  before := [(.word "not", 2), (.sign "-", 6)]
  between :=
    [.or, .and, .eq, .notEq, .lt, .le, .gt, .ge, .add, .sub, .mul, .div, .rem].map fun op =>
      (mark op, level op, joining op)
  constants := ["False", "None", "True"]
  reserved := reserved
  constants_reserved := by decide +kernel
  before_apart := by decide +kernel
  levels_apart := by decide +kernel

/-- The signs of Python. -/
def lexicon : Lexicon where
  quoting := Language.python.quoting
  path := "."
  signs :=
    ["**=", "//=", ">>=", "<<=", "...", "**", "//", ">>", "<<", "<=", ">=", "==", "!=", "->", ":=",
      "+=", "-=", "*=", "/=", "%=", "@=", "&=", "|=", "^=", "+", "-", "*", "/", "%", "@", "&", "|",
      "^", "~", "<", ">", "[", "]", ",", ":", "!", ".", ";", "="]
  signs_apart := by decide +kernel

/-- How Python reads expressions with operators. -/
def rules : ExprRules := ⟨lexicon, grammar⟩

/-! ## Expressions of the code model -/

/-- The operator of Python in front. -/
def unaryMark : UnaryOp → Mark
  | .not => .word "not"
  | .neg => .sign "-"

/-- How the code model comes out in Python. -/
def wording : Wording where
  literal
    | .int n => .leaf (.number n.toNat)
    | .float x => .leaf (.decimal (dialect.literal (.float x)))
    | .str s => .leaf (.text s)
    | .bool b => .leaf (.constant (dialect.bool b))
    | .null => .leaf (.constant dialect.null)
  name name kind := .leaf (.name (dialect.name name kind))
  unary := unaryMark
  binary op _ lhs rhs := .bin (mark op) lhs rhs
  literal_bare l := by cases l <;> rfl
  name_bare _ _ := rfl
  binary_bare _ _ _ _ := rfl

/-- A name, an integer that is not negative, a truth value or an operator. -/
def isOperation : Expr → Bool
  | .literal (.int n) => decide (0 ≤ n)
  | .literal (.bool _) => true
  | .name name kind => Lexicon.isWord (dialect.name name kind)
  | .unary .. | .binary .. => true
  | _ => false

theorem spells_mark (op : BinaryOp) : lexicon.Spells (dialect.binarySign op) (mark op) := by
  cases op with
  | and | or => exact Lexicon.spells_word (by decide)
  | _ => exact Lexicon.spells_sign ⟨by decide, by decide⟩ (by decide)

/-- A minus sign ends in front of every operand. -/
theorem stops_minus {e : Expr} (he : isOperation e = true) {c : Char}
    (hc : ∀ k ∈ ((wording.concrete e).grouped (Dialect.isBinary e)).tokens.head?,
      lexicon.Starts c k) : lexicon.stops "-" c = true := by
  cases e with
  | literal l =>
    cases l with
    | int | bool => exact (hc _ rfl).stops rfl
    | _ => cases he
  | unary op e =>
    cases op with
    | not => exact (hc _ rfl).stops rfl
    | neg =>
      cases (hc _ rfl).2
      decide
  | name | binary => exact (hc _ rfl).stops rfl
  | _ => cases he

theorem fits : wording.Fits lexicon dialect isOperation where
  quote := rfl
  literal {l} h := by
    cases l with
    | int n =>
      obtain ⟨m, rfl⟩ := Int.eq_ofNat_of_zero_le (of_decide_eq_true h)
      exact .number m
    | bool b => cases b <;> exact .word (by decide) rfl
    | _ => cases h
  name h := .word h rfl
  unary {op e text} _ he h := by
    cases op with
    | not => exact h.pre (w := "not") (by decide)
    | neg => exact h.sign ⟨by decide, by decide⟩ (by decide) fun c hc => stops_minus he hc
  binary {op} _ _ _ _ hlhs hrhs := hlhs.binary (spells_mark op) hrhs
  member := rfl
  call := rfl
  native := rfl

/-! ## Operators that keep their operands -/

/-- The expression is a negation of a truth value. -/
def isNot : Expr → Bool
  | .unary .not _ => true
  | _ => false

/-- The expression is a comparison that stands beside the operator without parentheses. -/
def comparesBeside (op : BinaryOp) (right : Bool) (e : Expr) : Bool :=
  match e with
  | .binary inner _ _ => joining inner == .chained && !Dialect.needsParens op right e
  | _ => false

/-- An operand of an operator stays its operand: a `not` only beside `and` and `or`, a comparison
beside another one only in parentheses. -/
def keepsSide (op : BinaryOp) (right : Bool) (e : Expr) : Bool :=
  (level op < 2 || !isNot e) && !(joining op == .chained && comparesBeside op right e)

/-- The name is not reserved, and the operator keeps its operands; a minus sign does not keep a
`not`. -/
def stands : Expr → Bool
  | .name name kind => !reserved.contains (dialect.name name kind)
  | .unary .neg e => !isNot e
  | .binary op lhs rhs => keepsSide op false lhs && keepsSide op true rhs
  | _ => true

/-- The level of the outermost operator. -/
def outerLevel? : Expr → Option Nat
  | .unary op _ => some (unaryLevel op)
  | .binary op _ _ => some (level op)
  | _ => none

theorem lookup_before (op : UnaryOp) :
    grammar.before.lookup (unaryMark op) = some (unaryLevel op) := by
  cases op <;> decide

theorem lookup_between (op : BinaryOp) :
    grammar.between.lookup (mark op) = some (level op, joining op) := by
  cases op <;> decide

theorem level?_concrete (e : Expr) : grammar.level? (wording.concrete e) = outerLevel? e := by
  cases e with
  | literal l => cases l <;> rfl
  | unary op => exact lookup_before op
  | binary op => exact congrArg (Option.map (·.1)) (lookup_between op)
  | _ => rfl

/-- The operand of an operator in front is kept if it is in parentheses or binds tightly enough. -/
theorem stands_unary (op : UnaryOp) (e : Expr) :
    (Dialect.isBinary e = false → ∀ n ∈ outerLevel? e, unaryLevel op ≤ n) ↔
      stands (.unary op e) = true := by
  cases e with
  | unary inner =>
    cases op <;> cases inner <;> simp [Dialect.isBinary, outerLevel?, stands, unaryLevel, isNot]
  | _ => cases op <;> simp [Dialect.isBinary, outerLevel?, stands, isNot]

/-- The level where an operand of an operator stands. -/
def sideLevel (op : BinaryOp) (right : Bool) : Nat :=
  if right then level op + 1 else Grammar.leftLevel (level op) (joining op)

/-- An operator in front binds tightly enough, unless it is a `not` beside a tighter operator. -/
theorem sideLevel_le_unaryLevel (op : BinaryOp) (inner : UnaryOp) (right : Bool) :
    sideLevel op right ≤ unaryLevel inner ↔ (level op < 2 || inner == .neg) = true := by
  cases op <;> cases inner <;> cases right <;> decide

/-- An operator that is rendered without parentheses binds tightly enough, unless it is a comparison
beside another one. -/
theorem sideLevel_le_level (op inner : BinaryOp) (right : Bool) (lhs rhs : Expr)
    (h : Dialect.needsParens op right (.binary inner lhs rhs) = false) :
    sideLevel op right ≤ level inner ↔
      (joining op == .chained && joining inner == .chained) = false := by
  change (decide (inner.precedence < op.precedence) ||
    (right && inner.precedence == op.precedence)) = false at h
  revert h
  cases op <;> cases inner <;> cases right <;> decide

/-- An operand beside an operator is kept if it is in parentheses or binds tightly enough. -/
theorem keepsSide_iff (op : BinaryOp) (right : Bool) (e : Expr) :
    (Dialect.needsParens op right e = false → ∀ n ∈ outerLevel? e, sideLevel op right ≤ n) ↔
      keepsSide op right e = true := by
  cases e with
  | unary inner e =>
    have hside := sideLevel_le_unaryLevel op inner right
    cases inner <;>
      simpa [Dialect.needsParens, outerLevel?, keepsSide, isNot, comparesBeside] using hside
  | binary inner lhs rhs =>
    cases hparens : Dialect.needsParens op right (.binary inner lhs rhs) with
    | false =>
      have hside := sideLevel_le_level op inner right lhs rhs hparens
      have hbeside : comparesBeside op right (.binary inner lhs rhs) =
          (joining inner == .chained) := by
        rw [comparesBeside, hparens, Bool.not_false, Bool.and_true]
      simp only [outerLevel?, Option.mem_some_iff, forall_eq', true_imp_iff, hside, keepsSide,
        isNot, hbeside, Bool.not_false, Bool.or_true, Bool.true_and, Bool.not_eq_true']
    | true => simp [keepsSide, isNot, comparesBeside, hparens]
  | _ => simp [outerLevel?, keepsSide, isNot, comparesBeside]

theorem leaf?_constant (b : Bool) :
    grammar.leaf? (.mark (.word (dialect.bool b))) = some (.constant (dialect.bool b)) := by
  cases b <;> decide

/-- What is rendered follows Python's grammar exactly if all operators keep their operands. -/
theorem phrase_concrete : (e : Expr) → e.Every isOperation →
    (grammar.Phrase 0 (wording.concrete e) ↔ e.Every stands)
  | .literal l, he => by
    have hstands : (Expr.literal l).Every stands := by simp [Expr.Every, Expr.all, stands]
    refine iff_of_true ?_ hstands
    cases l with
    | bool b => exact .leaf (leaf?_constant b)
    | int => exact .leaf rfl
    | _ => cases he.self
  | .name name kind, _ => by
    have hstands : (Expr.name name kind).Every stands ↔ stands (.name name kind) = true := by
      simp [Expr.Every, Expr.all]
    rw [hstands]
    exact Grammar.phrase_name.trans (by simp [stands, grammar])
  | .unary op e, he => by
    have hphrase : grammar.Phrase 0 (wording.concrete (.unary op e)) ↔
        grammar.Keeps (unaryLevel op) (Dialect.isBinary e) (wording.concrete e) :=
      Grammar.phrase_pre_grouped (lookup_before op)
    rw [hphrase, Grammar.Keeps, level?_concrete, stands_unary,
      phrase_concrete e (every_unary.1 he).2, every_unary, and_comm]
  | .binary op lhs rhs, he => by
    obtain ⟨-, hlhs, hrhs⟩ := every_binary.1 he
    have hphrase : grammar.Phrase 0 (wording.concrete (.binary op lhs rhs)) ↔
        grammar.Keeps (sideLevel op false) (Dialect.needsParens op false lhs)
          (wording.concrete lhs) ∧
        grammar.Keeps (sideLevel op true) (Dialect.needsParens op true rhs)
          (wording.concrete rhs) :=
      Grammar.phrase_bin_grouped (lookup_between op)
    rw [hphrase, Grammar.Keeps, Grammar.Keeps, level?_concrete, level?_concrete, keepsSide_iff,
      keepsSide_iff, phrase_concrete lhs hlhs, phrase_concrete rhs hrhs, every_binary, stands,
      Bool.and_eq_true]
    tauto
  | .member .., he => by cases he.self
  | .call .., he => by cases he.self
  | .native .., he => by cases he.self

/-- The text of an expression denotes it exactly if no name inside is reserved and every operator
keeps its operands. -/
theorem expr_denotes_iff (e : Expr) (he : e.Every isOperation) :
    rules.Denotes (dialect.expr e) (wording.tree e) ↔ e.Every stands := by
  rw [← phrase_concrete e he]
  exact Wording.Fits.denotes_iff fits he

/-- All kinds of operators, in parentheses where Python needs them. -/
def mixed : Expr :=
  .binary .or
    (.unary .not (.binary .eq (.unary .neg (.binary .add (.name "a" .local) (.literal (.int 2))))
      (.binary .mul (.name "b" .param) (.binary .sub (.name "c" .param) (.name "a" .local)))))
    (.binary .and (.binary .lt (.binary .eq (.name "b" .param) (.name "c" .param))
      (.literal (.bool true))) (.unary .not (.unary .not (.name "Users" .dataAccess))))

theorem expr_denotes_mixed :
    mixed.Every isOperation ∧ mixed.Every stands ∧
    dialect.expr mixed =
      "not (-(a + 2) == b * (c - a)) or (b == c) < True and not not users" ∧
    rules.Denotes (dialect.expr mixed) (wording.tree mixed) := by
  have hmixed : ∀ x ∈ mixed.all, isOperation x = true := by decide +kernel
  have hstands : ∀ x ∈ mixed.all, stands x = true := by decide +kernel
  exact ⟨hmixed, hstands, by decide +kernel, (expr_denotes_iff mixed hmixed).2 hstands⟩

def compared : Expr :=
  .binary .eq (.name "a" .param) (.binary .lt (.name "b" .param) (.name "c" .param))

def negated : Expr :=
  .binary .eq (.unary .not (.name "a" .param)) (.name "b" .param)

/-- The first comparison in the texts of `compared` and `negated`. -/
def same : Term :=
  .bin (.sign "==") (.leaf (.name "a")) (.leaf (.name "b"))

/-- The text of `compared` is a chain of comparisons, and that of `negated` the negation of one. -/
theorem compared_not_denotes :
    compared.Every isOperation ∧ dialect.expr compared = "a == b < c" ∧
    rules.Denotes (dialect.expr compared) (.chain (.sign "<") same (.leaf (.name "c"))) ∧
    ¬rules.Denotes (dialect.expr compared) (wording.tree compared) ∧
    negated.Every isOperation ∧ dialect.expr negated = "not a == b" ∧
    rules.Denotes (dialect.expr negated) (.pre (.word "not") same) ∧
    ¬rules.Denotes (dialect.expr negated) (wording.tree negated) := by
  have hcompared : ∀ x ∈ compared.all, isOperation x = true := by decide +kernel
  have hnegated : ∀ x ∈ negated.all, isOperation x = true := by decide +kernel
  have hsame : grammar.Phrase 3 same :=
    .compare (lookup_between .eq) (Nat.le_refl 3) (Grammar.phrase_name.2 (by decide))
      (Grammar.phrase_name.2 (by decide))
  have hchain : rules.Denotes (dialect.expr compared)
      (.chain (.sign "<") same (.leaf (.name "c"))) :=
    ⟨_, by decide +kernel, .chain (lookup_between .lt) (Nat.zero_le 3) (by decide) hsame
      (Grammar.phrase_name.2 (by decide)), rfl⟩
  have hnot : rules.Denotes (dialect.expr negated) (.pre (.word "not") same) :=
    ⟨_, by decide +kernel, .pre (lookup_before .not) (Nat.zero_le 2) (hsame.loosen (by decide)),
      rfl⟩
  refine ⟨hcompared, by decide +kernel, hchain, fun h => ?_, hnegated, by decide +kernel, hnot,
    fun h => ?_⟩
  · cases hchain.unique h
  · cases hnot.unique h

end Scaffold.Target.Python
