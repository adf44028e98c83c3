import Scaffold.Proofs.Target.Lexicon

/-!
# Operators in languages of the C family

The renderer puts parentheses by how tightly operators bind in the C family, so in languages of that
family an operator keeps its operands: whatever is rendered for literals, names and operators
follows the grammar, as long as no name is reserved.

* `CLanguage`: such a language with its dialect.
* `CLanguage.fits`: how a rendered expression is cut into tokens.
* `CLanguage.phrase_concrete`: it follows the grammar exactly if no name inside is reserved.
* `CLanguage.Decrements.not_denotes`: where two minus signs are one sign, an expression that starts
  with both denotes nothing. The renderer writes them side by side (`CLanguage.expr_doubled_minus`).
-/

namespace Scaffold

/-! ## Numbers with a fraction -/

namespace Number

open Target.Lexicon (IsDecimal)

theorem toList_zeros (n : Nat) : (zeros n).toList = List.replicate n '0' := by
  unfold zeros
  induction n with
  | zero => rfl
  | succ n ih => rw [Text.repeated, String.toList_append, ih]; rfl

/-- A decimal is written as digits, with or without a point between them. -/
theorem positional_cases (d : Decimal) :
    IsDecimal (positional d "") ∨ ((positional d "").toList ≠ [] ∧
      ∀ c ∈ (positional d "").toList, c.isDigit = true) := by
  have hall : ∀ c ∈ natDigits d.digits, c.isDigit = true := fun c hc =>
    Nat.isDigit_of_mem_toDigits (b := 10) (n := d.digits) (by decide) (by decide) hc
  have hne : natDigits d.digits ≠ [] := Nat.toDigits_ne_nil
  have hzeros : ∀ n, ∀ c ∈ List.replicate n '0', c.isDigit = true := fun n c hc => by
    rw [List.eq_of_mem_replicate hc]
    decide
  unfold positional
  dsimp only
  split
  · refine .inr ⟨by simp [hne], fun c hc => ?_⟩
    simp only [String.toList_append, String.toList_ofList, toList_zeros, List.mem_append,
      String.toList_empty, List.not_mem_nil, or_false] at hc
    exact hc.elim (hall c) (hzeros _ c)
  split
  · rename_i hexponent hwidth
    generalize natDigits d.digits = digits at *
    generalize hwidth' : ((digits.length : Int) + d.exponent).toNat = width
    have hinside : 0 < width ∧ width < digits.length := by omega
    refine .inl ⟨⟨digits.take width, digits.drop width, by simp, ?_, ?_,
      fun c hc => hall c (List.mem_of_mem_take hc), fun c hc => hall c (List.mem_of_mem_drop hc)⟩⟩
    · exact List.ne_nil_of_length_pos (by rw [List.length_take]; omega)
    · exact List.ne_nil_of_length_pos (by rw [List.length_drop]; omega)
  · refine .inl ⟨⟨['0'], List.replicate _ '0' ++ natDigits d.digits, by simp [toList_zeros]; rfl,
      by simp, by simp [hne], List.forall_mem_singleton.2 rfl, fun c hc => ?_⟩⟩
    exact (List.mem_append.1 hc).elim (hzeros _ c) (hall c)

/-- A finite number without its sign, as literals write it. -/
def magnitudeText (x : Binary64) : String :=
  let text := if x.isZero then "0" else positional (shortest .up x) ""
  if text.toList.any fun c => c == '.' || c == 'e' then text else text ++ ".0"

theorem isDecimal_magnitudeText (x : Binary64) : IsDecimal (magnitudeText x) := by
  have hcases : ∀ text : String, IsDecimal text ∨ (text.toList ≠ [] ∧
      ∀ c ∈ text.toList, c.isDigit = true) →
      IsDecimal (if text.toList.any fun c => c == '.' || c == 'e' then text else text ++ ".0") := by
    rintro text (hdecimal | ⟨hne, hall⟩)
    · obtain ⟨whole, fraction, htext, -⟩ := hdecimal.parts
      rwa [if_pos (List.any_eq_true.2 ⟨'.', by simp [htext], rfl⟩)]
    · have hwhole : (text.toList.any fun c => c == '.' || c == 'e') = false := by
        refine List.any_eq_false.2 fun c hc => ?_
        have hne : c ≠ '.' ∧ c ≠ 'e' := by
          constructor <;> rintro rfl <;> cases hall _ hc
        simp [hne]
      rw [hwhole, if_neg (by decide)]
      exact ⟨⟨text.toList, ['0'], by simp, hne, by simp, hall, List.forall_mem_singleton.2 rfl⟩⟩
  refine hcases _ ?_
  split
  · exact .inr ⟨by decide, List.forall_mem_singleton.2 rfl⟩
  · exact positional_cases _

theorem literal_float (d : Dialect) {x : Binary64} (hnan : x.isNaN = false)
    (hfinite : x.isInfinite = false) :
    d.literal (.float x) = signText x ++ magnitudeText x := by
  have htext : plainText x =
      signText x ++ if x.isZero then "0" else positional (shortest .up x) "" := by
    rw [plainText, if_neg (by simp [hnan]), if_neg (by simp [hfinite])]
    split <;> rfl
  have hsign : ∀ c ∈ (signText x).toList, (c == '.' || c == 'e') = false := by
    unfold signText
    split <;> exact List.all_iff_forall_prop.1 (by decide)
  unfold Dialect.literal magnitudeText
  dsimp only
  rw [htext]
  generalize (if x.isZero then "0" else positional (shortest .up x) "") = text
  have hany : ((signText x ++ text).toList.any fun c => c == '.' || c == 'e') =
      text.toList.any fun c => c == '.' || c == 'e' := by
    rw [String.toList_append, List.any_append, List.any_eq_false.2 (by simpa using hsign),
      Bool.false_or]
  rw [hany]
  split
  · rfl
  · exact String.append_assoc

end Number

namespace Target

open Model (Expr every_unary every_binary)
open Lexicon (isWord)

/-! ## Languages -/

/-- The level of an operator. -/
def cLevel : BinaryOp → Nat
  | .or => 0
  | .and => 1
  | .eq | .notEq => 2
  | .lt | .le | .gt | .ge => 3
  | .add | .sub => 5
  | .mul | .div | .rem => 6

/-- The level of shifts, between comparisons and sums; they are no operators of the code model. -/
def shiftLevel : Nat := 4

def cUnaryLevel : Nat := 7

def cOperators : List BinaryOp :=
  [.or, .and, .eq, .notEq, .lt, .le, .gt, .ge, .add, .sub, .mul, .div, .rem]

/-- The levels of operators between two operands. -/
def cBetween : List (Mark × Nat × Joining) :=
  cOperators.map (fun op => (.sign op.sign, cLevel op, .left)) ++
    [(.sign "<<", shiftLevel, .left), (.sign ">>", shiftLevel, .left)]

theorem lookup_cBetween (op : BinaryOp) :
    cBetween.lookup (.sign op.sign) = some (cLevel op, .left) := by
  cases op <;> decide

/-- A function that makes another value of a literal text before something is added to it. -/
structure TextWrapper where
  first : String
  names : List String

def TextWrapper.path (t : TextWrapper) : Term :=
  .path t.first t.names

/-- A language of the C family. -/
structure CLanguage where
  dialect : Dialect
  lexicon : Lexicon
  reserved : List String
  null : String
  /-- The words of a name: the first one and those behind the sign inside a path. -/
  first : String → Model.NameKind → String
  names : String → Model.NameKind → List String
  wrapper? : Option TextWrapper
  values_reserved : ∀ w ∈ ["true", "false", null], w ∈ reserved
  null_isWord : isWord null = true
  dialect_quote : ∀ s, dialect.quote s = "\"" ++ Naming.escape s ++ "\""
  dialect_null : dialect.null = null
  dialect_bool : ∀ b, dialect.bool b = if b then "true" else "false"
  dialect_unarySign : ∀ op, dialect.unarySign op = match op with
    | .not => "!"
    | .neg => "-"
  dialect_binary : ∀ op lhs rhs, dialect.binary op lhs rhs =
    (match wrapper? with
      | some t =>
        if op == .add && Text.startsWith "\"" lhs then
          t.first ++ String.join (t.names.map (lexicon.path ++ ·)) ++ "(" ++ lhs ++ ")"
        else lhs
      | none => lhs) ++ " " ++ op.sign ++ " " ++ rhs
  dialect_name : ∀ name kind, dialect.name name kind =
    first name kind ++ String.join ((names name kind).map (lexicon.path ++ ·))
  wrapper_isWord : ∀ t ∈ wrapper?, ∀ w ∈ t.first :: t.names, isWord w = true ∧ w ∉ reserved
  quote : lexicon.quoting.quote = '"'
  reads : ∀ s rest, lexicon.quoting.body (escapedChars s ++ '"' :: rest) = some (s, rest)
  isSign : ∀ s ∈ "!" :: "-" :: lexicon.path :: cOperators.map BinaryOp.sign, lexicon.IsSign s
  path_apart : lexicon.path ∉ "!" :: "-" :: cOperators.map BinaryOp.sign
  stops : lexicon.stops "!" '!' = true ∧ lexicon.stops "!" '-' = true ∧ lexicon.stops "-" '!' = true

namespace CLanguage

variable (c : CLanguage)

/-- The operators and the words of the language. -/
def grammar : Grammar where
  before := [(.sign "!", cUnaryLevel), (.sign "-", cUnaryLevel)]
  between := cBetween
  constants := ["true", "false", c.null]
  reserved := c.reserved
  constants_reserved := c.values_reserved
  before_apart := by simp [Vocabulary.leaf?]
  levels_apart := by decide

def rules : ExprRules := ⟨c.lexicon, c.grammar⟩

/-! ## Expressions of the code model -/

def signed (negative : Bool) (x : Leaf) : Term :=
  if negative then .pre (.sign "-") (.leaf x) else .leaf x

/-- A literal in the language. -/
def literalTerm : Literal → Term
  | .int n => signed (decide (n < 0)) (.number n.natAbs)
  | .float x => signed x.negative (.decimal (Number.magnitudeText x))
  | .str s => .leaf (.text s)
  | .bool b => .leaf (.constant (if b then "true" else "false"))
  | .null => .leaf (.constant c.null)

/-- The left operand of an operator. -/
def leftOperand (op : BinaryOp) (startsWithText : Bool) (lhs : Term) : Term :=
  match c.wrapper? with
  | some t => if op == .add && startsWithText then .call t.path lhs else lhs
  | none => lhs

/-- How the code model comes out in the language. -/
def wording : Wording where
  literal := c.literalTerm
  name name kind := .path (c.first name kind) (c.names name kind)
  unary
    | .not => .sign "!"
    | .neg => .sign "-"
  binary op startsWithText lhs rhs :=
    .bin (.sign op.sign) (c.leftOperand op startsWithText lhs) rhs
  literal_bare l := by
    cases l <;> first | rfl | (simp only [literalTerm, signed]; split <;> rfl)
  name_bare _ _ := Term.bare_path _
  binary_bare op starts lhs rhs := by
    simp only [Term.bare, leftOperand]
    split
    · split
      · simp only [Term.bare, TextWrapper.path, Term.bare_path]
      · rfl
    · rfl

/-- The text of the expression starts with a minus sign. -/
def startsWithMinus : Expr → Bool
  | .unary .neg _ => true
  | .literal (.int n) => decide (n < 0)
  | .literal (.float x) => x.negative
  | _ => false

/-- A name, a finite literal or an operator. A minus sign stands in front of no other one, since two
of them are one sign. -/
def isOperation : Expr → Bool
  | .literal (.float x) => !x.isNaN && !x.isInfinite
  | .literal _ => true
  | .name name kind => (c.first name kind :: c.names name kind).all isWord
  | .unary .neg e => !startsWithMinus e
  | .unary .not _ | .binary .. => true
  | _ => false

variable {c}

theorem isSign_not : c.lexicon.IsSign "!" ∧ "!" ≠ c.lexicon.path :=
  ⟨c.isSign _ (by simp), fun h => c.path_apart (by simp [← h])⟩

theorem isSign_minus : c.lexicon.IsSign "-" ∧ "-" ≠ c.lexicon.path :=
  ⟨c.isSign _ (by simp), fun h => c.path_apart (by simp [← h])⟩

theorem isSign_sign (op : BinaryOp) :
    c.lexicon.IsSign op.sign ∧ op.sign ≠ c.lexicon.path := by
  have hop : op.sign ∈ cOperators.map BinaryOp.sign :=
    List.mem_map_of_mem (by cases op <;> decide)
  refine ⟨c.isSign _ (by simp [hop]), fun h => c.path_apart ?_⟩
  rw [← h]
  simp [hop]

theorem stops_signed {negative : Bool} {y : Leaf} (hy : Lexicon.isSign y.tok = false) {x : Char}
    (hx : ∀ k ∈ (signed negative y).tokens.head?, c.lexicon.Starts x k) :
    c.lexicon.stops "!" x = true ∧ (negative = false → c.lexicon.stops "-" x = true) := by
  cases negative with
  | false => exact ⟨(hx _ rfl).stops hy, fun _ => (hx _ rfl).stops hy⟩
  | true =>
    cases (hx _ rfl).2
    exact ⟨c.stops.2.1, fun h => by cases h⟩

/-- A sign in front ends before its operand. -/
theorem stops_operand {e : Expr} (he : c.isOperation e = true) {x : Char}
    (hx : ∀ k ∈ ((c.wording.concrete e).grouped (Dialect.isBinary e)).tokens.head?,
      c.lexicon.Starts x k) :
    c.lexicon.stops "!" x = true ∧ (startsWithMinus e = false → c.lexicon.stops "-" x = true) := by
  have hplain : ∀ k, ((c.wording.concrete e).grouped (Dialect.isBinary e)).tokens.head? = some k →
      Lexicon.isSign k = false → c.lexicon.stops "!" x = true ∧
        (startsWithMinus e = false → c.lexicon.stops "-" x = true) := fun k hk hsign =>
    ⟨(hx k hk).stops hsign, fun _ => (hx k hk).stops hsign⟩
  cases e with
  | literal l =>
    cases l with
    | int n => exact stops_signed rfl hx
    | float y => exact stops_signed rfl hx
    | str | bool | null => exact hplain _ rfl rfl
  | name n kind =>
    have hhead : (Term.path (c.first n kind) (c.names n kind)).tokens.head? =
        some (.mark (.word (c.first n kind))) := by rw [Term.tokens_path, List.head?_cons]
    exact hplain _ hhead rfl
  | unary op e =>
    cases op with
    | not =>
      cases (hx _ rfl).2
      exact ⟨c.stops.1, fun _ => c.stops.2.2⟩
    | neg =>
      cases (hx _ rfl).2
      exact ⟨c.stops.2.1, fun h => by cases h⟩
  | binary => exact hplain .opening rfl rfl
  | _ => cases he

theorem written_signed {text : String} (negative : Bool) {y : Leaf}
    (h : c.lexicon.Written text (.leaf y)) (hy : Lexicon.isSign y.tok = false) :
    c.lexicon.Written ((if negative then "-" else "") ++ text) (signed negative y) := by
  cases negative with
  | false => simpa [signed] using h
  | true => exact h.sign isSign_minus.1 isSign_minus.2 fun x hx => (hx _ rfl).stops hy

theorem written_literal {l : Literal} (h : c.isOperation (.literal l) = true) :
    c.lexicon.Written (c.dialect.literal l) (c.literalTerm l) := by
  cases l with
  | int n =>
    have htext : c.dialect.literal (.int n) =
        (if decide (n < 0) then "-" else "") ++ Nat.repr n.natAbs := by
      cases n with
      | ofNat m => exact String.empty_append.symm
      | negSucc m => rw [decide_eq_true (Int.negSucc_lt_zero m)]; rfl
    rw [htext]
    exact written_signed _ (.number n.natAbs) rfl
  | float x =>
    simp only [isOperation, Bool.and_eq_true, Bool.not_eq_true'] at h
    rw [Number.literal_float _ h.1 h.2]
    exact written_signed _ (.decimal (Number.isDecimal_magnitudeText x)) rfl
  | str s =>
    rw [Dialect.literal, c.dialect_quote]
    exact .literal c.quote (c.reads s.toList)
  | bool b =>
    rw [Dialect.literal, c.dialect_bool]
    cases b <;> exact .word (by decide) rfl
  | null =>
    rw [Dialect.literal, c.dialect_null]
    exact .word c.null_isWord rfl

theorem written_path {first : String} {names : List String}
    (h : ∀ w ∈ first :: names, isWord w = true) :
    c.lexicon.Written (first ++ String.join (names.map (c.lexicon.path ++ ·)))
      (.path first names) :=
  .path (c.isSign _ (by simp)) h

theorem written_leftOperand (op : BinaryOp) {text : String} {t : Term}
    (h : c.lexicon.Written text t) :
    c.lexicon.Written
      (match c.wrapper? with
        | some w =>
          if op == .add && Text.startsWith "\"" text then
            w.first ++ String.join (w.names.map (c.lexicon.path ++ ·)) ++ "(" ++ text ++ ")"
          else text
        | none => text)
      (c.leftOperand op t.startsWithText t) := by
  unfold leftOperand
  cases hwrapper : c.wrapper? with
  | none => exact h
  | some w =>
    dsimp only
    rw [h.startsWith_quote c.quote]
    split
    · exact (written_path fun x hx => (c.wrapper_isWord w hwrapper x hx).1).call c.quote h
    · exact h

theorem fits : c.wording.Fits c.lexicon c.dialect c.isOperation where
  quote := c.quote
  literal h := written_literal h
  name {n kind} h := by
    rw [c.dialect_name]
    exact written_path (List.all_eq_true.1 h)
  unary {op e text} hop he h := by
    have hends := fun x hx => stops_operand (c := c) he (x := x) hx
    rw [c.dialect_unarySign]
    cases op with
    | not => exact h.sign isSign_not.1 isSign_not.2 fun x hx => (hends x hx).1
    | neg =>
      refine h.sign isSign_minus.1 isSign_minus.2 fun x hx => (hends x hx).2 ?_
      simpa [isOperation] using hop
  binary {op lhs rhs left right} hlhs hrhs := by
    rw [c.dialect_binary]
    exact (written_leftOperand op hlhs).binary
      (Lexicon.spells_sign (isSign_sign op).1 (isSign_sign op).2) hrhs
  member := rfl
  call := rfl
  native := rfl

/-! ## Operators keep their operands -/

variable (c) in
/-- No word of the name is reserved. -/
def isFree : Expr → Bool
  | .name name kind => (c.first name kind :: c.names name kind).all fun w => !c.reserved.contains w
  | _ => true

/-- The level of the outermost operator. -/
def outerLevel : Expr → Nat
  | .binary op _ _ => cLevel op
  | _ => cUnaryLevel

theorem lookup_before (op : UnaryOp) :
    c.grammar.before.lookup (c.wording.unary op) = some cUnaryLevel := by
  cases op <;> rfl

theorem level?_concrete_binary (op : BinaryOp) (lhs rhs : Expr) :
    c.grammar.level? (c.wording.concrete (.binary op lhs rhs)) = some (cLevel op) := by
  change (cBetween.lookup (.sign op.sign)).map (·.1) = some (cLevel op)
  rw [lookup_cBetween, Option.map_some]

theorem level?_concrete (e : Expr) :
    ∀ n ∈ c.grammar.level? (c.wording.concrete e), n = outerLevel e := by
  have hsigned : ∀ negative y, ∀ n ∈ c.grammar.level? (signed negative y), n = cUnaryLevel := by
    intro negative y n hn
    cases negative with
    | false => cases hn
    | true => exact Option.some.inj (hn.symm.trans (lookup_before (c := c) .neg))
  intro n hn
  cases e with
  | literal l =>
    cases l with
    | int | float => exact hsigned _ _ n hn
    | _ => cases hn
  | name name kind =>
    have hpath : c.grammar.level? (.path (c.first name kind) (c.names name kind)) = none :=
      Grammar.level?_of_isOperand (Term.isOperand_path _)
    cases hpath.symm.trans hn
  | unary op e => exact Option.some.inj (hn.symm.trans (lookup_before op))
  | binary op lhs rhs => exact Option.some.inj (hn.symm.trans (level?_concrete_binary op lhs rhs))
  | _ => cases hn

/-- An operand that is rendered without parentheses binds tightly enough. -/
theorem le_outerLevel (op : BinaryOp) (right : Bool) (e : Expr)
    (h : Dialect.needsParens op right e = false) : cLevel op + right.toNat ≤ outerLevel e := by
  cases e with
  | binary inner lhs rhs =>
    change (decide (inner.precedence < op.precedence) ||
      (right && inner.precedence == op.precedence)) = false at h
    revert h
    change _ → cLevel op + right.toNat ≤ cLevel inner
    cases op <;> cases inner <;> cases right <;> decide
  | _ =>
    change cLevel op + right.toNat ≤ cUnaryLevel
    cases op <;> cases right <;> decide

theorem keeps_side (op : BinaryOp) (right : Bool) (e : Expr) :
    c.grammar.Keeps (cLevel op + right.toNat) (Dialect.needsParens op right e)
      (c.wording.concrete e) ↔ c.grammar.Phrase 0 (c.wording.concrete e) := by
  refine and_iff_left fun h n hn => ?_
  rw [level?_concrete e n hn]
  exact le_outerLevel op right e h

theorem keeps_operand (e : Expr) :
    c.grammar.Keeps cUnaryLevel (Dialect.isBinary e) (c.wording.concrete e) ↔
      c.grammar.Phrase 0 (c.wording.concrete e) := by
  refine and_iff_left fun h n hn => ?_
  rw [level?_concrete e n hn]
  cases e with
  | binary => cases h
  | _ => exact Nat.le_refl _

theorem phrase_leftOperand (op : BinaryOp) (startsWithText : Bool) (lhs : Expr) :
    c.grammar.Phrase (cLevel op) (c.leftOperand op startsWithText
      ((c.wording.concrete lhs).grouped (Dialect.needsParens op false lhs))) ↔
      c.grammar.Phrase 0 (c.wording.concrete lhs) := by
  have hplain := Grammar.phrase_grouped.trans (keeps_side (c := c) op false lhs)
  unfold leftOperand
  cases hwrapper : c.wrapper? with
  | none => exact hplain
  | some w =>
    dsimp only
    split
    · have hfree := fun x hx => (c.wrapper_isWord w hwrapper x hx).2
      have hpath : c.grammar.Phrase 0 w.path :=
        Grammar.phrase_path.2 (List.forall_mem_cons.1 hfree)
      have hargument : c.grammar.Phrase 0
          ((c.wording.concrete lhs).grouped (Dialect.needsParens op false lhs)) ↔
            c.grammar.Phrase 0 (c.wording.concrete lhs) :=
        Grammar.phrase_grouped.trans (and_iff_left fun _ _ _ => Nat.zero_le _)
      rw [Grammar.phrase_call, hargument]
      exact ⟨fun h => h.2.2, fun h => ⟨Term.isOperand_path _, hpath, h⟩⟩
    · exact hplain

theorem phrase_constant {w : String} (h : w ∈ ["true", "false", c.null]) :
    c.grammar.Phrase 0 (.leaf (.constant w)) := by
  refine .leaf ?_
  rw [Leaf.tok, Vocabulary.leaf?, if_pos (by simpa [grammar] using h)]

theorem phrase_literal (l : Literal) : c.grammar.Phrase 0 (c.literalTerm l) := by
  have hsigned : ∀ negative y, c.grammar.leaf? y.tok = some y →
      c.grammar.Phrase 0 (signed negative y) := by
    intro negative y hy
    cases negative with
    | false => exact .leaf hy
    | true => exact .pre (lookup_before .neg) (Nat.zero_le _) (.leaf hy)
  cases l with
  | int | float => exact hsigned _ _ rfl
  | str => exact .leaf rfl
  | bool b => cases b <;> exact phrase_constant (by simp)
  | null => exact phrase_constant (by simp)

/-- What is rendered follows the grammar exactly if no name is reserved. -/
theorem phrase_concrete : (e : Expr) → e.Every c.isOperation →
    (c.grammar.Phrase 0 (c.wording.concrete e) ↔ e.Every c.isFree)
  | .literal l, _ => by
    have hfree : (Expr.literal l).Every c.isFree := by simp [Expr.Every, Expr.all, isFree]
    exact iff_of_true (phrase_literal l) hfree
  | .name name kind, _ => by
    have hfree : (Expr.name name kind).Every c.isFree ↔ c.isFree (.name name kind) = true := by
      simp [Expr.Every, Expr.all]
    rw [hfree]
    refine Grammar.phrase_path.trans ?_
    simp [isFree, grammar]
  | .unary op e, he => by
    have hphrase : c.grammar.Phrase 0 (c.wording.concrete (.unary op e)) ↔
        c.grammar.Keeps cUnaryLevel (Dialect.isBinary e) (c.wording.concrete e) :=
      Grammar.phrase_pre_grouped (lookup_before op)
    rw [hphrase, keeps_operand, phrase_concrete e (every_unary.1 he).2, every_unary]
    exact (and_iff_right rfl).symm
  | .binary op lhs rhs, he => by
    obtain ⟨-, hlhs, hrhs⟩ := every_binary.1 he
    have hright : c.grammar.Phrase (cLevel op + 1)
        ((c.wording.concrete rhs).grouped (Dialect.needsParens op true rhs)) ↔
          c.grammar.Phrase 0 (c.wording.concrete rhs) :=
      Grammar.phrase_grouped.trans (keeps_side op true rhs)
    refine (Grammar.phrase_bin (lookup_cBetween op)).trans ?_
    rw [Grammar.leftLevel, phrase_leftOperand, hright, phrase_concrete lhs hlhs,
      phrase_concrete rhs hrhs, every_binary]
    exact and_congr_left' (iff_of_true (Nat.zero_le _) rfl)
  | .member .., he => by cases he.self
  | .call .., he => by cases he.self
  | .native .., he => by cases he.self

/-! ## Two minus signs -/

/-- What starts with a minus sign is rendered with it at the front, and without parentheses. -/
theorem expr_eq_minus {e : Expr} (hminus : startsWithMinus e = true)
    (hfinite : ∀ x, e = .literal (.float x) → x.isNaN = false ∧ x.isInfinite = false) :
    Dialect.isBinary e = false ∧ ∃ rest, c.dialect.expr e = "-" ++ rest := by
  cases e with
  | unary op e =>
    cases op with
    | not => cases hminus
    | neg => exact ⟨rfl, _, congrArg (· ++ _) (c.dialect_unarySign .neg)⟩
  | literal l =>
    cases l with
    | int n =>
      cases n with
      | ofNat n => cases hminus
      | negSucc n => exact ⟨rfl, Nat.repr (n + 1), rfl⟩
    | float x =>
      have hnegative : x.negative = true := hminus
      obtain ⟨hnan, hinfinite⟩ := hfinite x rfl
      refine ⟨rfl, Number.magnitudeText x, ?_⟩
      rw [Dialect.expr, Number.literal_float _ hnan hinfinite, Number.signText, if_pos hnegative]
    | _ => cases hminus
  | _ => cases hminus

/-- A minus sign is written right in front of another one. -/
theorem expr_doubled_minus {e : Expr} (hminus : startsWithMinus e = true)
    (hfinite : ∀ x, e = .literal (.float x) → x.isNaN = false ∧ x.isInfinite = false) :
    ∃ rest, c.dialect.expr (.unary .neg e) = "--" ++ rest := by
  obtain ⟨hbinary, rest, hrest⟩ := expr_eq_minus (c := c) hminus hfinite
  have hdash : ("-" : String) ++ "-" = "--" := by decide
  refine ⟨rest, ?_⟩
  rw [Dialect.expr, c.dialect_unarySign, hbinary, hrest, Dialect.parenthesized, if_neg (by decide),
    ← String.append_assoc]
  exact congrArg (· ++ rest) hdash

variable (c) in
/-- Two minus signs are one sign. -/
structure Decrements : Prop where
  isSign : c.lexicon.IsSign "--"
  path : "--" ≠ c.lexicon.path
  stops : ∀ x, c.lexicon.stops "--" x = true

/-- A text that starts with two minus signs follows no rule of the expressions. -/
theorem Decrements.not_denotes (h : c.Decrements) (rest : String) (t : Term) :
    ¬c.rules.Denotes ("--" ++ rest) t := by
  rintro ⟨u, hlex, hphrase, -⟩
  obtain ⟨k, ks, htokens, hk⟩ := hphrase.starts
  have hsign : k = .mark (.sign "--") := by
    have hpasses := Lexicon.passes_sign h.isSign rest.toList fun x _ => h.stops x
    rw [Lexicon.sign, if_neg h.path, ← String.toList_append] at hpasses
    have htext : ("--" ++ rest).toList = '-' :: '-' :: rest.toList := by simp
    rw [Lexicon.lex, htext, Lexicon.tokens, if_neg (by decide), htokens, ← htext] at hlex
    obtain ⟨⟨k', mid⟩, hnext, hrest⟩ := Option.bind_eq_some_iff.1 hlex
    obtain ⟨_, _, hks⟩ := Option.map_eq_some_iff.1 hrest
    generalize ("--" ++ rest).toList = cs at hpasses hnext htext
    cases hpasses with
    | space => simp at htext
    | token hk =>
      cases hk.symm.trans hnext
      exact (List.cons.inj hks).1.symm
  subst hsign
  simp [Vocabulary.leaf?, rules, grammar] at hk

end CLanguage

end Target

end Scaffold
