import Scaffold.Proofs.Parser.Sentence
import Scaffold.Proofs.Token.Lexing

/-!
# Printed statements are read back

Statements printed with every operand in parentheses that has an operator of its own, and with
spaces between the tokens, are read back as the same statements: the grammar has a text for every
list of statements, and no other meaning for that text.

* `Style`: how statements are printed, as far as the grammar leaves a choice.
* `Style.block_read`: lexing and parsing what was printed gives the statements, up to positions,
  scopes and places in the order of the file.
-/

namespace Scaffold

/-- An integer of 64 bits that is not negative, a text, a truth value or null. -/
def Literal.isPlain : Literal → Bool
  | .int n => decide (0 ≤ n) && decide (n.toNat < Nat.pow 2 63)
  | .float _ => false
  | .str _ | .bool _ | .null => true

namespace Source

/-! ## Statements that can be printed -/

mutual

/-- All names are identifiers that are not reserved, and all literals are plain. -/
def Expr.isPlain : Expr → Bool
  | .literal l => l.isPlain
  | .name r => Lexer.isName r.name
  | .member object name => object.isPlain && Lexer.isName name
  | .call callee args => callee.isPlain && plainExprs args
  | .native path args _ => !path.isEmpty && path.all Lexer.isName && plainExprs args
  | .unary _ e => e.isPlain
  | .binary _ lhs rhs => lhs.isPlain && rhs.isPlain

/-- All expressions are plain. -/
def plainExprs : List Expr → Bool
  | [] => true
  | e :: rest => e.isPlain && plainExprs rest

end

/-- Sizes are in range, and the names of declared types are no built-in ones. -/
def TypeRef.isPlain : TypeRef → Bool
  | .primitive (.char n) | .primitive (.varchar n) => decide (n ≤ Parser.maxSize)
  | .primitive _ => true
  | .list item => item.isPlain
  | .named r => Lexer.isName r.name && !isTypeWord r.name

/-- What the loop runs over is plain. -/
def ForIter.isPlain : ForIter → Bool
  | .range first last => first.isPlain && last.isPlain
  | .each items => items.isPlain

mutual

/-- All expressions, types and names are plain. -/
def Stmt.isPlain : Stmt → Bool
  | .declare name type init _ =>
    Lexer.isName name && type.all TypeRef.isPlain && init.all Expr.isPlain
  | .assign target value _ => target.isPlain && value.isPlain
  | .cond test yes no _ => test.isPlain && plainStmts yes && plainElse no
  | .loop test body _ => test.isPlain && plainStmts body
  | .each var iter body _ => Lexer.isName var && iter.isPlain && plainStmts body
  | .ret value _ => value.all Expr.isPlain
  | .leave _ | .next _ => true
  | .expr e _ => e.isPlain

/-- All statements are plain. -/
def plainStmts : List Stmt → Bool
  | [] => true
  | s :: rest => s.isPlain && plainStmts rest

/-- All statements of an `else` are plain. -/
def plainElse : Option (List Stmt) → Bool
  | none => true
  | some body => plainStmts body

end

/-! ## Printing -/

/-- An operator stands outermost. -/
def Expr.hasOperator : Expr → Bool
  | .unary .. | .binary .. => true
  | _ => false

/-- How statements are printed. -/
structure Style where
  /-- Which operands get parentheses besides those with an operator. -/
  wraps : Expr → Bool
  /-- A choice that stands alone in an `else` follows it without braces. -/
  elseIf : Bool

/-- A single choice. -/
def isChoice : List Stmt → Bool
  | [.cond ..] => true
  | _ => false

/-- The tokens of a type. -/
def TypeRef.kinds : TypeRef → List TokenKind
  | .primitive (.char n) => .ident "char" :: inParens [.int n]
  | .primitive (.varchar n) => .ident "varchar" :: inParens [.int n]
  | .primitive p => [.ident p.spelling]
  | .list item => .ident "list" :: .punct .less :: (item.kinds ++ [.punct .greater])
  | .named r => [.ident r.name]

namespace Style

def operand (σ : Style) (e : Expr) (ks : List TokenKind) : List TokenKind :=
  if e.hasOperator || σ.wraps e then inParens ks else ks

mutual

/-- The tokens of an expression. -/
def expr (σ : Style) : Expr → List TokenKind
  | .literal l => [literalKind l]
  | .name r => [.ident r.name]
  | .member object name => σ.operand object (σ.expr object) ++ [.punct .dot, .ident name]
  | .call callee args => σ.operand callee (σ.expr callee) ++ inParens (separated (σ.exprs args))
  | .native path args _ =>
    .punct .atSign :: (pathKinds path ++ inParens (separated (σ.exprs args)))
  | .unary op e => .punct op.punct :: σ.operand e (σ.expr e)
  | .binary op lhs rhs =>
    σ.operand lhs (σ.expr lhs) ++ .punct op.punct :: σ.operand rhs (σ.expr rhs)

/-- The tokens of each expression. -/
def exprs (σ : Style) : List Expr → List (List TokenKind)
  | [] => []
  | e :: rest => σ.expr e :: σ.exprs rest

end

/-- The tokens of what a loop runs over. -/
def iter (σ : Style) : ForIter → List TokenKind
  | .range first last => σ.expr first ++ .punct .range :: σ.expr last
  | .each items => σ.expr items

/-- The tokens of an initial value. -/
def init (σ : Style) : Option Expr → List TokenKind
  | none => []
  | some e => .punct .assign :: σ.expr e

mutual

/-- The tokens of a statement. -/
def stmt (σ : Style) : Stmt → List TokenKind
  | .declare name type init _ =>
    .keyword .varKw :: .ident name ::
      ((type.map TypeRef.kinds).getD [] ++ (σ.init init ++ [.punct .semicolon]))
  | .assign target value _ =>
    σ.expr target ++ .punct .assign :: (σ.expr value ++ [.punct .semicolon])
  | .cond test yes no _ =>
    .keyword .ifKw :: (inParens (σ.expr test) ++ (inBraces (σ.stmts yes) ++ σ.otherwise no))
  | .loop test body _ => .keyword .whileKw :: (inParens (σ.expr test) ++ inBraces (σ.stmts body))
  | .each var iter body _ =>
    .keyword .forKw :: .punct .parenOpen :: .ident var :: .keyword .inKw ::
      (σ.iter iter ++ .punct .parenClose :: inBraces (σ.stmts body))
  | .ret value _ => .keyword .returnKw :: ((value.map σ.expr).getD [] ++ [.punct .semicolon])
  | .leave _ => [.keyword .breakKw, .punct .semicolon]
  | .next _ => [.keyword .continueKw, .punct .semicolon]
  | .expr e _ => σ.expr e ++ [.punct .semicolon]

/-- The tokens of statements. -/
def stmts (σ : Style) : List Stmt → List TokenKind
  | [] => []
  | s :: rest => σ.stmt s ++ σ.stmts rest

/-- The tokens of an `else`. -/
def otherwise (σ : Style) : Option (List Stmt) → List TokenKind
  | none => []
  | some body =>
    .keyword .elseKw :: if σ.elseIf && isChoice body then σ.stmts body else inBraces (σ.stmts body)

end

/-- Statements in braces, with spaces between the tokens. -/
def text (σ : Style) (body : List Stmt) : String :=
  Text.joinWith " " ((inBraces (σ.stmts body)).map fun k => String.ofList k.spelling)

/-! ## What is printed follows the grammar -/

variable {σ : Style}

/-- The tokens of the expression follow the grammar, on their own and as an operand. -/
structure Printed (σ : Style) (e : Expr) : Prop where
  phrase : Phrase 0 (σ.expr e) e
  operand : e.hasOperator = false → Operand (σ.expr e) e

theorem Printed.of_operand {e : Expr} (h : Operand (σ.expr e) e) : Printed σ e :=
  ⟨(Phrase.operand h).loosen (Nat.zero_le _), fun _ => h⟩

/-- An operand is printed as one. -/
theorem Printed.inner {e : Expr} (h : Printed σ e) : Operand (σ.operand e (σ.expr e)) e := by
  unfold Style.operand
  split
  · exact .parens h.phrase
  · rename_i hplain
    simp only [Bool.or_eq_true, not_or, Bool.not_eq_true] at hplain
    exact h.operand hplain.1

/-- An operand can stand beside every operator. -/
theorem Printed.side {e : Expr} (h : Printed σ e) {l : Nat} (hl : l ≤ 6) :
    Phrase l (σ.operand e (σ.expr e)) e :=
  (Phrase.operand h.inner).loosen hl

mutual

theorem printed_expr : (e : Expr) → e.isPlain = true → Printed σ e
  | .literal l, h => .of_operand (.literal (literalOf?_literalKind fun n hn => by
      subst hn
      simp only [Expr.isPlain, Literal.isPlain, Bool.and_eq_true, decide_eq_true_eq] at h
      exact h.1))
  | .name r, _ => .of_operand (.name r)
  | .member object name, h => by
    simp only [Expr.isPlain, Bool.and_eq_true] at h
    exact .of_operand (.member (printed_expr object h.1).inner name)
  | .call callee args, h => by
    simp only [Expr.isPlain, Bool.and_eq_true] at h
    exact .of_operand (.call (printed_expr callee h.1).inner
      (.of_separated (printed_exprs args h.2)))
  | .native path args pos, h => by
    simp only [Expr.isPlain, Bool.and_eq_true, Bool.not_eq_true', List.isEmpty_eq_false_iff] at h
    exact .of_operand (.native h.1.1 (.of_separated (printed_exprs args h.2)) pos)
  | .unary op e, h =>
    ⟨(Phrase.unary op ((printed_expr e h).side (Nat.le_refl _))).loosen (Nat.zero_le _),
      fun hnone => by cases hnone⟩
  | .binary op lhs rhs, h => by
    simp only [Expr.isPlain, Bool.and_eq_true] at h
    have hlevel : op.level + 1 ≤ 6 := by cases op <;> decide
    refine ⟨?_, fun hnone => by cases hnone⟩
    exact (Phrase.binary op ((printed_expr lhs h.1).side (by omega))
      ((printed_expr rhs h.2).side hlevel)).loosen (Nat.zero_le _)

theorem printed_exprs : (es : List Expr) → plainExprs es = true →
    List.Forall₂ (Phrase 0) (σ.exprs es) es
  | [], _ => .nil
  | e :: es, h => by
    simp only [plainExprs, Bool.and_eq_true] at h
    exact .cons (printed_expr e h.1).phrase (printed_exprs es h.2)

end

theorem typePhrase_kinds {t : TypeRef} (h : t.isPlain = true) : TypePhrase t.kinds t := by
  induction t with
  | primitive p =>
    cases p with
    | char n => exact .char (of_decide_eq_true h)
    | varchar n => exact .varchar (of_decide_eq_true h)
    | _ => exact .word rfl
  | list item ih => exact .list (ih h)
  | named r =>
    simp only [TypeRef.isPlain, Bool.and_eq_true, Bool.not_eq_true'] at h
    exact .named r h.2

theorem iterPhrase_iter {iter : ForIter} (h : iter.isPlain = true) :
    IterPhrase (σ.iter iter) iter := by
  cases iter with
  | range first last =>
    simp only [ForIter.isPlain, Bool.and_eq_true] at h
    exact .range (printed_expr first h.1).phrase (printed_expr last h.2).phrase
  | each items => exact .each (printed_expr items h).phrase

theorem optional_type {type : Option TypeRef} (h : type.all TypeRef.isPlain = true) :
    Optional TypePhrase ((type.map TypeRef.kinds).getD []) type := by
  cases type with
  | none => rfl
  | some t => exact typePhrase_kinds h

theorem optional_init {init : Option Expr} (h : init.all Expr.isPlain = true) :
    Optional InitPhrase (σ.init init) init := by
  cases init with
  | none => rfl
  | some e => exact ⟨_, rfl, (printed_expr e h).phrase⟩

theorem optional_value {value : Option Expr} (h : value.all Expr.isPlain = true) :
    Optional (Phrase 0) ((value.map σ.expr).getD []) value := by
  cases value with
  | none => rfl
  | some e => exact (printed_expr e h).phrase

/-- An `else` whose only statement is a choice may continue the chain. -/
theorem otherwise_of_sentences {body : List Stmt} (h : Sentences (σ.stmts body) body) :
    Otherwise (σ.otherwise (some body)) (some body) := by
  rw [Style.otherwise]
  split
  · rename_i hchoice
    simp only [Bool.and_eq_true] at hchoice
    obtain ⟨test, yes, no, pos, rfl⟩ : ∃ test yes no pos, body = [.cond test yes no pos] := by
      unfold isChoice at hchoice
      split at hchoice
      · exact ⟨_, _, _, _, rfl⟩
      · cases hchoice.2
    exact .choice h.single
  · exact .block h

mutual

theorem sentence_stmt : (s : Stmt) → s.isPlain = true → Sentence (σ.stmt s) s
  | .declare name type init pos, h => by
    simp only [Stmt.isPlain, Bool.and_eq_true] at h
    exact .declare name (optional_type h.1.2) (optional_init h.2) pos
  | .assign target value pos, h => by
    simp only [Stmt.isPlain, Bool.and_eq_true] at h
    exact .assign (printed_expr target h.1).phrase (printed_expr value h.2).phrase pos
  | .cond test yes no pos, h => by
    simp only [Stmt.isPlain, Bool.and_eq_true] at h
    exact .cond (printed_expr test h.1.1).phrase (sentences_stmts yes h.1.2)
      (otherwise_else no h.2) pos
  | .loop test body pos, h => by
    simp only [Stmt.isPlain, Bool.and_eq_true] at h
    exact .loop (printed_expr test h.1).phrase (sentences_stmts body h.2) pos
  | .each var iter body pos, h => by
    simp only [Stmt.isPlain, Bool.and_eq_true] at h
    exact .each var (iterPhrase_iter h.1.2) (sentences_stmts body h.2) pos
  | .ret value pos, h => .ret (optional_value h) pos
  | .leave pos, _ => .leave pos
  | .next pos, _ => .next pos
  | .expr e pos, h => .expr (printed_expr e h).phrase pos

theorem sentences_stmts : (body : List Stmt) → plainStmts body = true →
    Sentences (σ.stmts body) body
  | [], _ => .nil
  | s :: body, h => by
    simp only [plainStmts, Bool.and_eq_true] at h
    exact .cons (sentence_stmt s h.1) (sentences_stmts body h.2)

theorem otherwise_else : (no : Option (List Stmt)) → plainElse no = true →
    Otherwise (σ.otherwise no) no
  | none, _ => .none
  | some body, h => otherwise_of_sentences (sentences_stmts body h)

end

/-! ## What is printed can be spelled -/

/-- All tokens can be written. -/
def Spelled (ks : List TokenKind) : Prop :=
  ∀ k ∈ ks, k.IsSpelled

variable {k : TokenKind} {ks ks' : List TokenKind}

@[simp]
theorem spelled_nil : Spelled [] :=
  List.forall_mem_nil _

@[simp]
theorem spelled_cons : Spelled (k :: ks) ↔ k.IsSpelled ∧ Spelled ks :=
  List.forall_mem_cons

@[simp]
theorem spelled_append : Spelled (ks ++ ks') ↔ Spelled ks ∧ Spelled ks' :=
  List.forall_mem_append

@[simp]
theorem isSpelled_punct (p : Punct) : (TokenKind.punct p).IsSpelled :=
  trivial

@[simp]
theorem isSpelled_ident (name : String) :
    (TokenKind.ident name).IsSpelled ↔ Lexer.isName name = true :=
  Iff.rfl

@[simp]
theorem spelled_inParens : Spelled (inParens ks) ↔ Spelled ks := by
  simp [inParens]

@[simp]
theorem spelled_inBraces : Spelled (inBraces ks) ↔ Spelled ks := by
  simp [inBraces]

theorem spelled_separated {kss : List (List TokenKind)} (h : ∀ ks ∈ kss, Spelled ks) :
    Spelled (separated kss) := by
  induction kss with
  | nil => simp [separated]
  | cons ks kss ih =>
    have hfirst := h ks List.mem_cons_self
    have hrest := ih fun ks' hks' => h ks' (List.mem_cons_of_mem _ hks')
    cases kss with
    | nil => exact hfirst
    | cons => simp [separated, hfirst, hrest]

theorem spelled_pathKinds {path : List String} (h : path.all Lexer.isName = true) :
    Spelled (pathKinds path) := by
  cases path with
  | nil => exact spelled_nil
  | cons first more =>
    simp only [List.all_cons, Bool.and_eq_true, List.all_eq_true] at h
    refine spelled_cons.2 ⟨h.1, fun k hk => ?_⟩
    obtain ⟨name, hname, hk⟩ := List.mem_flatMap.1 hk
    have hpair : Spelled [.punct .dot, .ident name] := by simp [h.2 name hname]
    exact hpair k hk

theorem isSpelled_literalKind {l : Literal} (h : l.isPlain = true) :
    (literalKind l).IsSpelled := by
  cases l with
  | int n =>
    simp only [Literal.isPlain, Bool.and_eq_true, decide_eq_true_eq] at h
    exact h.2
  | float x => cases h
  | str s => trivial
  | bool b => cases b <;> exact rfl
  | null => exact rfl

theorem spelled_operand {e : Expr} (h : Spelled ks) : Spelled (σ.operand e ks) := by
  unfold Style.operand
  split
  · exact spelled_inParens.2 h
  · exact h

mutual

theorem spelled_expr : (e : Expr) → e.isPlain = true → Spelled (σ.expr e)
  | .literal l, h => spelled_cons.2 ⟨isSpelled_literalKind h, spelled_nil⟩
  | .name r, h => spelled_cons.2 ⟨h, spelled_nil⟩
  | .member object name, h => by
    simp only [Expr.isPlain, Bool.and_eq_true] at h
    simp [Style.expr, spelled_operand (spelled_expr object h.1), h.2]
  | .call callee args, h => by
    simp only [Expr.isPlain, Bool.and_eq_true] at h
    simp [Style.expr, spelled_operand (spelled_expr callee h.1),
      spelled_separated (spelled_exprs args h.2)]
  | .native path args pos, h => by
    simp only [Expr.isPlain, Bool.and_eq_true] at h
    simp [Style.expr, spelled_pathKinds h.1.2, spelled_separated (spelled_exprs args h.2)]
  | .unary op e, h => by
    simp [Style.expr, spelled_operand (spelled_expr e h)]
  | .binary op lhs rhs, h => by
    simp only [Expr.isPlain, Bool.and_eq_true] at h
    simp [Style.expr, spelled_operand (spelled_expr lhs h.1),
      spelled_operand (spelled_expr rhs h.2)]

theorem spelled_exprs : (es : List Expr) → plainExprs es = true → ∀ ks ∈ σ.exprs es, Spelled ks
  | [], _ => List.forall_mem_nil _
  | e :: es, h => by
    simp only [plainExprs, Bool.and_eq_true] at h
    exact List.forall_mem_cons.2 ⟨spelled_expr e h.1, spelled_exprs es h.2⟩

end

theorem spelled_type {t : TypeRef} (h : t.isPlain = true) : Spelled t.kinds := by
  have hsize : ∀ n, n ≤ Parser.maxSize → Spelled [.int n] := fun n hn =>
    spelled_cons.2 ⟨Nat.lt_of_le_of_lt hn (by decide), spelled_nil⟩
  induction t with
  | primitive p =>
    cases p with
    | char n | varchar n =>
      refine spelled_cons.2 ⟨?_, spelled_inParens.2 (hsize n (of_decide_eq_true h))⟩
      show Lexer.isName _ = true
      decide
    | _ =>
      refine spelled_cons.2 ⟨?_, spelled_nil⟩
      show Lexer.isName _ = true
      decide
  | list item ih =>
    have hword : Lexer.isName "list" = true := by decide
    simp [TypeRef.kinds, hword, ih h]
  | named r =>
    simp only [TypeRef.isPlain, Bool.and_eq_true] at h
    exact spelled_cons.2 ⟨h.1, spelled_nil⟩

theorem spelled_iter {iter : ForIter} (h : iter.isPlain = true) : Spelled (σ.iter iter) := by
  cases iter with
  | range first last =>
    simp only [ForIter.isPlain, Bool.and_eq_true] at h
    simp [Style.iter, spelled_expr first h.1, spelled_expr last h.2]
  | each items => exact spelled_expr items h

theorem spelled_optional {α : Type} {p : α → Bool} {f : α → List TokenKind} {o : Option α}
    (hf : ∀ a, p a = true → Spelled (f a)) (h : o.all p = true) : Spelled ((o.map f).getD []) := by
  cases o with
  | none => exact spelled_nil
  | some a => exact hf a h

theorem spelled_init {init : Option Expr} (h : init.all Expr.isPlain = true) :
    Spelled (σ.init init) := by
  cases init with
  | none => exact spelled_nil
  | some e => exact spelled_cons.2 ⟨trivial, spelled_expr e h⟩

mutual

theorem spelled_stmt : (s : Stmt) → s.isPlain = true → Spelled (σ.stmt s)
  | .declare name type init pos, h => by
    simp only [Stmt.isPlain, Bool.and_eq_true] at h
    simp only [Style.stmt, spelled_cons, spelled_append]
    exact ⟨rfl, h.1.1, spelled_optional (fun _ => spelled_type) h.1.2, spelled_init h.2, trivial,
      spelled_nil⟩
  | .assign target value pos, h => by
    simp only [Stmt.isPlain, Bool.and_eq_true] at h
    simp [Style.stmt, spelled_expr target h.1, spelled_expr value h.2]
  | .cond test yes no pos, h => by
    simp only [Stmt.isPlain, Bool.and_eq_true] at h
    simp only [Style.stmt, spelled_cons, spelled_append, spelled_inParens, spelled_inBraces]
    exact ⟨rfl, spelled_expr test h.1.1, spelled_stmts yes h.1.2, spelled_else no h.2⟩
  | .loop test body pos, h => by
    simp only [Stmt.isPlain, Bool.and_eq_true] at h
    simp only [Style.stmt, spelled_cons, spelled_append, spelled_inParens, spelled_inBraces]
    exact ⟨rfl, spelled_expr test h.1, spelled_stmts body h.2⟩
  | .each var iter body pos, h => by
    simp only [Stmt.isPlain, Bool.and_eq_true] at h
    simp only [Style.stmt, spelled_cons, spelled_append, spelled_inBraces]
    exact ⟨rfl, trivial, h.1.1, rfl, spelled_iter h.1.2, trivial, spelled_stmts body h.2⟩
  | .ret value pos, h => by
    simp only [Style.stmt, spelled_cons, spelled_append]
    exact ⟨rfl, spelled_optional spelled_expr h, trivial, spelled_nil⟩
  | .leave _, _ => spelled_cons.2 ⟨rfl, spelled_cons.2 ⟨trivial, spelled_nil⟩⟩
  | .next _, _ => spelled_cons.2 ⟨rfl, spelled_cons.2 ⟨trivial, spelled_nil⟩⟩
  | .expr e pos, h => by
    simp [Style.stmt, spelled_expr e h]

theorem spelled_stmts : (body : List Stmt) → plainStmts body = true → Spelled (σ.stmts body)
  | [], _ => spelled_nil
  | s :: body, h => by
    simp only [plainStmts, Bool.and_eq_true] at h
    exact spelled_append.2 ⟨spelled_stmt s h.1, spelled_stmts body h.2⟩

theorem spelled_else : (no : Option (List Stmt)) → plainElse no = true → Spelled (σ.otherwise no)
  | none, _ => spelled_nil
  | some body, h => by
    have hbody : Spelled (σ.stmts body) := spelled_stmts body h
    rw [Style.otherwise, spelled_cons]
    refine ⟨rfl, ?_⟩
    split
    · exact hbody
    · exact spelled_inBraces.2 hbody

end

/-- Printed statements are lexed, and the parser reads them back. -/
theorem block_read (σ : Style) (body : List Stmt) (h : plainStmts body = true) :
    ∃ ts, tokenize (σ.text body) = .ok ts ∧ ∀ env s, s.rest = ts →
      ∃ body' s', Parser.block env s = (.ok body', s') ∧
        bareStmts body' = bareStmts body ∧ s'.kinds = [.eof] := by
  obtain ⟨ts, hts, hkinds⟩ := Lexer.tokenize_spaced (spelled_inBraces.2 (spelled_stmts body h))
  refine ⟨ts, hts, fun env s hs => ?_⟩
  exact (sentences_stmts body h).block env s (by rw [ParserState.kinds, hs, hkinds])

/-- Every operand that is not a single token gets parentheses, and chains of choices stay chains. -/
def full : Style where
  wraps
    | .literal _ | .name _ => false
    | _ => true
  elseIf := true

def nameOf (name : String) : Expr :=
  .name { name, pos := {}, scope := 0, seq := 0 }

/-- A loop with a chain of choices in it, between a declaration and a result. -/
def sample : List Stmt :=
  [.declare "rows" (some (.list (.primitive (.varchar 40)))) none {},
    .declare "total" none (some (.literal (.int 0))) {},
    .each "i" (.range (.literal (.int 1)) (.binary .sub (nameOf "n") (.literal (.int 1))))
      [.cond (.binary .or (.unary .not (nameOf "done"))
          (.binary .eq (.member (.call (nameOf "f") [nameOf "i", .literal .null]) "name")
            (.literal (.str "a\"\\"))))
        [.assign (.member (nameOf "self") "total")
          (.binary .sub (nameOf "total") (.binary .sub (nameOf "i") (.unary .neg (nameOf "n")))) {}]
        (some [.cond (nameOf "done") [.leave {}] (some [.next {}]) {}]) {}] {},
    .expr (.native ["console", "log"] [.member (.binary .add (nameOf "a") (nameOf "b")) "x"] {}) {},
    .ret (some (nameOf "total")) {}]

theorem block_read_sample :
    plainStmts sample = true ∧
    full.text sample
      = "\x7b var rows list < varchar ( 40 ) > ; var total = 0 ; for ( i in 1 .. n - 1 ) \x7b "
      ++ "if ( ( ! done ) || ( ( ( f ( i , null ) ) . name ) == \"a\\\"\\\\\" ) ) "
      ++ "\x7b self . total = total - ( i - ( - n ) ) ; \x7d "
      ++ "else if ( done ) \x7b break ; \x7d else \x7b continue ; \x7d \x7d "
      ++ "@ console . log ( ( a + b ) . x ) ; return total ; \x7d" ∧
    ∃ ts, tokenize (full.text sample) = .ok ts ∧ ∀ env s, s.rest = ts →
      ∃ body' s', Parser.block env s = (.ok body', s') ∧
        bareStmts body' = bareStmts sample ∧ s'.kinds = [.eof] := by
  have hplain : plainStmts sample = true := by decide +kernel
  exact ⟨hplain, by decide +kernel, block_read full sample hplain⟩

end Style

end Source

end Scaffold
