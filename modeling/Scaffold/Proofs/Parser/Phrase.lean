import Scaffold.Proofs.Parser.Taking

/-!
# The grammar of expressions

What tokens an expression can be written with, as a grammar that knows nothing of the parser, and
that the parser reads every such list of tokens as that expression.

* `Operand`, `Phrase`, `Arguments`: the grammar. `Phrase l` holds of expressions whose operators
  outside of parentheses bind at least as tightly as those of level `l`; level 6 is that of the
  operators with one operand.
* `Phrase.taken`: the parser takes the tokens of a phrase, up to a token that does not continue it.

The parser builds suffixes and operators of one level in loops that carry what was read so far,
while the grammar recurses on the left. Therefore the two are compared in the loop's own terms
(`OperandTaken`, `PhraseTaken.chain`): whatever the loop does after the phrase, the parser does in
front of it.
-/

namespace Scaffold

/-- The name alone, without its place and meaning. -/
def NameRef.bare (r : NameRef) : NameRef :=
  { name := r.name, pos := {}, scope := 0, seq := 0 }

/-- The sign of an operator with one operand. -/
def UnaryOp.punct : UnaryOp → Punct
  | .not => .bang
  | .neg => .minus

/-- The sign of an operator with two operands. -/
def BinaryOp.punct : BinaryOp → Punct
  | .or => .either
  | .and => .both
  | .eq => .equal
  | .notEq => .notEqual
  | .lt => .less
  | .le => .lessEq
  | .gt => .greater
  | .ge => .greaterEq
  | .add => .plus
  | .sub => .minus
  | .mul => .star
  | .div => .slash
  | .rem => .percent

/-- The level of an operator, from the loosest. -/
def BinaryOp.level (op : BinaryOp) : Nat :=
  op.precedence - 1

namespace Source

mutual

/-- The expression without positions, scopes, places in the order of the file and meanings. -/
def Expr.bare : Expr → Expr
  | .literal l => .literal l
  | .name r => .name r.bare
  | .member object name => .member object.bare name
  | .call callee args => .call callee.bare (bareExprs args)
  | .native path args _ => .native path (bareExprs args) {}
  | .unary op e => .unary op e.bare
  | .binary op lhs rhs => .binary op lhs.bare rhs.bare

/-- Expressions without positions, scopes, places in the order of the file and meanings. -/
def bareExprs : List Expr → List Expr
  | [] => []
  | e :: rest => e.bare :: bareExprs rest

end

@[simp]
theorem bareExprs_eq_map (es : List Expr) : bareExprs es = es.map Expr.bare := by
  induction es with
  | nil => rfl
  | cons e es ih => simp [bareExprs, ih]

/-! ## Grammar -/

def inParens (ks : List TokenKind) : List TokenKind :=
  .punct .parenOpen :: (ks ++ [.punct .parenClose])

/-- The names of a native call. -/
def pathKinds : List String → List TokenKind
  | [] => []
  | first :: more => .ident first :: more.flatMap fun name => [.punct .dot, .ident name]

mutual

/-- A literal, a name, an expression in parentheses or a native call, with member accesses and
calls. -/
inductive Operand : List TokenKind → Expr → Prop
  | literal {k : TokenKind} {l : Literal} (h : Parser.literalOf? k = some l) :
      Operand [k] (.literal l)
  | name (r : NameRef) : Operand [.ident r.name] (.name r)
  | parens {ks : List TokenKind} {e : Expr} (h : Phrase 0 ks e) : Operand (inParens ks) e
  | native {path : List String} {ks : List TokenKind} {args : List Expr} (hpath : path ≠ [])
      (hargs : Arguments ks args) (pos : Position) :
      Operand (.punct .atSign :: (pathKinds path ++ inParens ks)) (.native path args pos)
  | member {ks : List TokenKind} {e : Expr} (h : Operand ks e) (name : String) :
      Operand (ks ++ [.punct .dot, .ident name]) (.member e name)
  | call {ks ks' : List TokenKind} {e : Expr} {args : List Expr} (h : Operand ks e)
      (hargs : Arguments ks' args) : Operand (ks ++ inParens ks') (.call e args)

/-- An expression whose operators outside of parentheses are of this level or tighter. -/
inductive Phrase : Nat → List TokenKind → Expr → Prop
  | operand {ks : List TokenKind} {e : Expr} (h : Operand ks e) : Phrase 6 ks e
  | unary {ks : List TokenKind} {e : Expr} (op : UnaryOp) (h : Phrase 6 ks e) :
      Phrase 6 (.punct op.punct :: ks) (.unary op e)
  | tighter {l : Nat} {ks : List TokenKind} {e : Expr} (hl : l < 6) (h : Phrase (l + 1) ks e) :
      Phrase l ks e
  | binary {ks ks' : List TokenKind} {lhs rhs : Expr} (op : BinaryOp)
      (hlhs : Phrase op.level ks lhs) (hrhs : Phrase (op.level + 1) ks' rhs) :
      Phrase op.level (ks ++ .punct op.punct :: ks') (.binary op lhs rhs)

/-- Expressions separated by commas; nothing has to follow a comma. -/
inductive Arguments : List TokenKind → List Expr → Prop
  | nil : Arguments [] []
  | last {ks : List TokenKind} {e : Expr} (h : Phrase 0 ks e) : Arguments ks [e]
  | more {ks ks' : List TokenKind} {e : Expr} {es : List Expr} (h : Phrase 0 ks e)
      (hs : Arguments ks' es) : Arguments (ks ++ .punct .comma :: ks') (e :: es)

end

theorem Phrase.le {l : Nat} {ks : List TokenKind} {e : Expr} : Phrase l ks e → l ≤ 6
  | .operand _ => Nat.le_refl _
  | .unary _ _ => Nat.le_refl _
  | .tighter hl _ => Nat.le_of_lt hl
  | .binary op _ _ => by cases op <;> decide

/-- A phrase of a level is one of every looser level. -/
theorem Phrase.loosen {l l' : Nat} {ks : List TokenKind} {e : Expr} (h : Phrase l ks e)
    (hle : l' ≤ l) : Phrase l' ks e := by
  induction hle with
  | refl => exact h
  | step hle ih => exact ih (.tighter h.le h)

/-- Lists of tokens with commas between them. -/
def separated : List (List TokenKind) → List TokenKind
  | [] => []
  | [ks] => ks
  | ks :: rest => ks ++ .punct .comma :: separated rest

theorem Arguments.of_separated {kss : List (List TokenKind)} {es : List Expr}
    (h : List.Forall₂ (Phrase 0) kss es) : Arguments (separated kss) es := by
  induction h with
  | nil => exact .nil
  | cons h hs ih =>
    cases hs with
    | nil => exact .last h
    | cons => exact .more h ih

/-- The token of a literal that is no negative number. -/
def literalKind : Literal → TokenKind
  | .int n => .int n.toNat
  | .float x => .float x
  | .str s => .str s
  | .bool true => .keyword .trueKw
  | .bool false => .keyword .falseKw
  | .null => .keyword .nullKw

theorem literalOf?_literalKind {l : Literal} (h : ∀ n, l = .int n → 0 ≤ n) :
    Parser.literalOf? (literalKind l) = some l := by
  cases l with
  | int n => simp [literalKind, Parser.literalOf?, Int.toNat_of_nonneg (h n rfl)]
  | bool b => cases b <;> rfl
  | _ => rfl

/-! ## First tokens -/

/-- The token can start an operand. -/
def startsOperand : TokenKind → Bool
  | .ident _ | .punct .parenOpen | .punct .atSign => true
  | k => (Parser.literalOf? k).isSome

/-- The token can start an expression. -/
def startsPhrase : TokenKind → Bool
  | .punct .bang | .punct .minus => true
  | k => startsOperand k

theorem startsOperand_of_literalOf? {k : TokenKind} {l : Literal}
    (h : Parser.literalOf? k = some l) : startsOperand k = true := by
  unfold startsOperand
  split
  · rfl
  · rfl
  · rfl
  · rw [h]
    rfl

theorem startsPhrase_of_startsOperand {k : TokenKind} (h : startsOperand k = true) :
    startsPhrase k = true := by
  unfold startsPhrase
  split
  · rfl
  · rfl
  · exact h

theorem Operand.starts {ks : List TokenKind} {e : Expr} :
    Operand ks e → ∃ k ks', ks = k :: ks' ∧ startsOperand k = true
  | .literal h => ⟨_, _, rfl, startsOperand_of_literalOf? h⟩
  | .name _ => ⟨_, _, rfl, rfl⟩
  | .parens _ => ⟨_, _, rfl, rfl⟩
  | .native .. => ⟨_, _, rfl, rfl⟩
  | .member h _ => by
    obtain ⟨k, ks, rfl, hk⟩ := h.starts
    exact ⟨k, _, rfl, hk⟩
  | .call h _ => by
    obtain ⟨k, ks, rfl, hk⟩ := h.starts
    exact ⟨k, _, rfl, hk⟩

theorem Phrase.starts {l : Nat} {ks : List TokenKind} {e : Expr} :
    Phrase l ks e → ∃ k ks', ks = k :: ks' ∧ startsPhrase k = true
  | .operand h => by
    obtain ⟨k, ks, rfl, hk⟩ := h.starts
    exact ⟨k, ks, rfl, startsPhrase_of_startsOperand hk⟩
  | .unary op _ => ⟨_, _, rfl, by cases op <;> rfl⟩
  | .tighter _ h => h.starts
  | .binary _ h _ => by
    obtain ⟨k, ks, rfl, hk⟩ := h.starts
    exact ⟨k, _, rfl, hk⟩

/-! ## Where a phrase ends -/

/-- The token continues no expression of this level. -/
def stops (l : Nat) : TokenKind → Bool
  | .punct p => p != .dot && p != .parenOpen &&
      (Parser.operatorLevels.drop l).all fun level => (level.lookup p).isNone
  | _ => true

namespace Parser

variable {k : TokenKind} {ks ks' rest out : List TokenKind} {e e' lhs rhs : Expr} {l n : Nat}
  {Q : Expr → Prop}

theorem stops_succ (h : stops l k = true) : stops (l + 1) k = true := by
  cases k with
  | punct p =>
    simp only [stops, Bool.and_eq_true, List.all_eq_true] at h ⊢
    refine ⟨h.1, fun level hlevel => h.2 level ?_⟩
    rw [← List.drop_drop] at hlevel
    exact List.mem_of_mem_drop hlevel
  | _ => rfl

theorem not_suffix_of_stops (h : stops l k = true) :
    k ≠ .punct .dot ∧ k ≠ .punct .parenOpen := by
  refine ⟨?_, ?_⟩ <;> rintro rfl <;> cases h

/-- The operator of a level that the token is the sign of. -/
def operatorOf? (level : OperatorLevel) : TokenKind → Option BinaryOp
  | .punct p => level.lookup p
  | _ => none

theorem operatorOf?_of_stops {level : OperatorLevel} (hl : operatorLevels[l]? = some level)
    (h : stops l k = true) : operatorOf? level k = none := by
  have hmem : level ∈ operatorLevels.drop l := List.mem_of_getElem? (i := 0) (by simpa using hl)
  cases k with
  | punct p =>
    simp only [stops, Bool.and_eq_true, List.all_eq_true, Option.isNone_iff_eq_none] at h
    exact h.2 level hmem
  | _ => rfl

/-- The operators of the level of an operator. -/
theorem exists_level (op : BinaryOp) : ∃ level, operatorLevels[op.level]? = some level ∧
    level.lookup op.punct = some op := by
  cases op <;> exact ⟨_, rfl, rfl⟩

theorem stops_of_operator (op : BinaryOp) : stops (op.level + 1) (.punct op.punct) = true := by
  cases op <;> decide

/-! ## Reading a phrase -/

/-- The parser of the expressions of a level, with fuel for nesting. -/
def atLevel (fuel l : Nat) : Parser Expr :=
  binary (unaryFuel fuel) (operatorLevels.drop l)

theorem atLevel_of_level {level : OperatorLevel} (hl : operatorLevels[l]? = some level)
    (fuel : Nat) : atLevel fuel l = atLevel fuel (l + 1) >>= fun lhs => remaining >>= fun n =>
      chainFuel level (atLevel fuel (l + 1)) (n + 1) lhs := by
  obtain ⟨hlt, rfl⟩ := List.getElem?_eq_some_iff.1 hl
  rw [atLevel, List.drop_eq_getElem_cons hlt]
  rfl

/-- Whatever the loop over suffixes does after the operand, the parser does in front of it. -/
def OperandTaken (ks : List TokenKind) (e : Expr) : Prop :=
  ∀ fuel rest out (Q : Expr → Prop), ks.length ≤ fuel + 1 →
    (∀ e' n, e'.bare = e.bare → rest.length < n →
      Takes (suffixFuel (atLevel fuel 0) n e') rest out Q) →
    Takes (suffixed (atLevel fuel 0)) (ks ++ rest) out Q

/-- The parser of a level takes the tokens of the phrase, and whatever the loop over operators does
after it, the parser does in front of it. -/
structure PhraseTaken (l : Nat) (ks : List TokenKind) (e : Expr) : Prop where
  whole : ∀ fuel k rest, ks.length ≤ fuel → stops l k = true →
    Takes (atLevel fuel l) (ks ++ k :: rest) (k :: rest) (·.bare = e.bare)
  chain : ∀ fuel level k rest out (Q : Expr → Prop), operatorLevels[l]? = some level →
    ks.length ≤ fuel → stops (l + 1) k = true →
    (∀ e' n, e'.bare = e.bare → (k :: rest).length < n →
      Takes (chainFuel level (atLevel fuel (l + 1)) n e') (k :: rest) out Q) →
    Takes (atLevel fuel l) (ks ++ k :: rest) out Q

def argument (fuel : Nat) (args : List Expr) : Parser (List Expr) := do
  return args ++ [← atLevel fuel 0]

/-- The loop over arguments takes them up to the closing parenthesis. -/
def ArgumentsTaken (ks : List TokenKind) (es : List Expr) : Prop :=
  ∀ fuel n rest args, ks.length ≤ fuel → ks.length < n →
    Takes (commaFuel .parenClose (argument fuel) n args)
      (ks ++ .punct .parenClose :: rest) (.punct .parenClose :: rest)
      (·.map Expr.bare = args.map Expr.bare ++ es.map Expr.bare)

/-! ### Arguments -/

theorem commaFuel_closed {β : Type} {step : β → Parser β} {close : Punct} (b : β) (hn : 0 < n) :
    Takes (commaFuel close step n b) (.punct close :: rest) (.punct close :: rest) (· = b) := by
  obtain ⟨n, rfl⟩ := Nat.exists_eq_add_one.2 (show 0 < n by omega)
  rw [commaFuel]
  exact .isNext (.pure rfl)

theorem not_close_of_startsPhrase (h : startsPhrase k = true) : k ≠ .punct .parenClose := by
  rintro rfl
  cases h

/-- One argument and what the loop does after it. -/
theorem commaFuel_step {args : List Expr} {fuel : Nat} {R : List Expr → Prop}
    (h : PhraseTaken 0 ks e) (hstart : ∃ k ks', ks = k :: ks' ∧ startsPhrase k = true)
    (hfuel : ks.length ≤ fuel) (hk : stops 0 k = true)
    (hafter : ∀ e', e'.bare = e.bare →
      Takes (skipPunct .comma >>= fun more =>
        if more then commaFuel .parenClose (argument fuel) n (args ++ [e'])
        else pure (args ++ [e'])) (k :: rest) out R) :
    Takes (commaFuel .parenClose (argument fuel) (n + 1) args) (ks ++ k :: rest) out R := by
  have hwhole := h.whole fuel k rest hfuel hk
  obtain ⟨first, ks, rfl, hfirst⟩ := hstart
  rw [commaFuel]
  refine .notNext (not_close_of_startsPhrase hfirst) ?_
  refine (hwhole.map (R := fun args' => ∃ e', args' = args ++ [e'] ∧ e'.bare = e.bare)
    fun e' he' => ⟨e', rfl, he'⟩).bind ?_
  rintro _ ⟨e', rfl, he'⟩
  exact hafter e' he'

theorem argumentsTaken_nil : ArgumentsTaken [] [] := by
  intro fuel n rest args _ hn
  refine (commaFuel_closed args (Nat.zero_lt_of_lt hn)).mono ?_
  rintro _ rfl
  simp

theorem argumentsTaken_last (h : Phrase 0 ks e) (ht : PhraseTaken 0 ks e) :
    ArgumentsTaken ks [e] := by
  intro fuel n rest args hfuel hn
  obtain ⟨n, rfl⟩ := Nat.exists_eq_add_one.2 (show 0 < n by omega)
  refine commaFuel_step ht h.starts hfuel (by decide) fun e' he' => ?_
  exact .noSkip (by decide) (.pure (by simp [he']))

theorem argumentsTaken_more {es : List Expr} (h : Phrase 0 ks e) (ht : PhraseTaken 0 ks e)
    (hs : ArgumentsTaken ks' es) : ArgumentsTaken (ks ++ .punct .comma :: ks') (e :: es) := by
  intro fuel n rest args hfuel hn
  simp only [List.length_append, List.length_cons] at hfuel hn
  obtain ⟨n, rfl⟩ := Nat.exists_eq_add_one.2 (show 0 < n by omega)
  rw [List.append_assoc, List.cons_append]
  refine commaFuel_step ht h.starts (by omega) (by decide) fun e' he' => ?_
  refine .skip ((hs fuel n rest (args ++ [e']) (by omega) (by omega)).mono ?_)
  intro args' hargs'
  simp [hargs', he']

/-- Arguments in parentheses. -/
theorem arguments_taken {es : List Expr} {fuel : Nat} (h : ArgumentsTaken ks es)
    (hfuel : ks.length ≤ fuel) : Takes (arguments (atLevel fuel 0)) (inParens ks ++ rest) rest
      (·.map Expr.bare = es.map Expr.bare) := by
  rw [inParens, List.cons_append, List.append_assoc]
  refine .expectPunct (.bind (.remaining ?_) fun args hargs => .expectPunct (.pure hargs))
  exact h fuel _ rest [] hfuel (by rw [List.length_append]; omega)

/-! ### Operands -/

/-- An operand without suffixes. -/
theorem operandTaken_of_primary
    (h : ∀ fuel rest, ks.length ≤ fuel + 1 →
      Takes (primary (atLevel fuel 0)) (ks ++ rest) rest (·.bare = e.bare)) :
    OperandTaken ks e := by
  intro fuel rest out Q hfuel hafter
  refine (h fuel rest hfuel).bind fun e' he' => .remaining ?_
  exact hafter e' _ he' (Nat.lt_succ_self _)

theorem operandTaken_literal {lit : Literal} (h : literalOf? k = some lit) :
    OperandTaken [k] (.literal lit) := by
  refine operandTaken_of_primary fun fuel rest _ => .peek fun pos => ?_
  dsimp only
  rw [h]
  exact .advance (.pure rfl)

theorem operandTaken_name (r : NameRef) : OperandTaken [.ident r.name] (.name r) := by
  refine operandTaken_of_primary fun fuel rest _ => .peek fun pos => ?_
  refine .advance (.nameRef fun r' hr' => .pure ?_)
  simp [Expr.bare, NameRef.bare, hr']

theorem operandTaken_parens (h : PhraseTaken 0 ks e) : OperandTaken (inParens ks) e := by
  refine operandTaken_of_primary fun fuel rest hfuel => ?_
  simp only [inParens, List.length_cons, List.length_append, List.length_nil] at hfuel
  rw [inParens, List.cons_append, List.append_assoc]
  refine .peek fun pos => .advance ?_
  refine (h.whole fuel _ rest (by omega) (by decide)).bind fun e' he' => ?_
  exact .expectPunct (.pure he')

theorem pathFuel_taken (more : List String) {names : List String} (hk : k ≠ .punct .dot)
    (hn : more.length < n) : Takes (nativePath.pathFuel n names)
      ((more.flatMap fun name => [.punct .dot, .ident name]) ++ k :: rest) (k :: rest)
      (· = names ++ more) := by
  induction more generalizing n names with
  | nil =>
    obtain ⟨n, rfl⟩ := Nat.exists_eq_add_one.2 (show 0 < n by omega)
    rw [nativePath.pathFuel, List.append_nil]
    exact .noSkip hk (.pure rfl)
  | cons name more ih =>
    rw [List.length_cons] at hn
    obtain ⟨n, rfl⟩ := Nat.exists_eq_add_one.2 (show 0 < n by omega)
    rw [nativePath.pathFuel, List.flatMap_cons, List.append_assoc]
    refine .skip (.ident fun pos => ?_)
    have hmore : Takes (nativePath.pathFuel n (names ++ [name])) _ (k :: rest)
        (· = names ++ [name] ++ more) := ih (by omega)
    rw [List.append_assoc] at hmore
    exact hmore

theorem nativePath_taken {path : List String} (hpath : path ≠ []) (hk : k ≠ .punct .dot) :
    Takes nativePath (pathKinds path ++ k :: rest) (k :: rest) (· = path) := by
  obtain ⟨first, more, rfl⟩ := List.exists_cons_of_ne_nil hpath
  rw [pathKinds, List.cons_append]
  refine .ident fun pos => .remaining (pathFuel_taken more hk ?_)
  have hlen : more.length ≤ (more.flatMap fun name =>
      [TokenKind.punct .dot, TokenKind.ident name]).length := by
    rw [List.length_flatMap]
    simp
    omega
  rw [List.length_append]
  omega

theorem operandTaken_native {path : List String} {args : List Expr} (hpath : path ≠ [])
    (h : ArgumentsTaken ks args) (pos : Position) :
    OperandTaken (.punct .atSign :: (pathKinds path ++ inParens ks)) (.native path args pos) := by
  refine operandTaken_of_primary fun fuel rest hfuel => ?_
  simp only [inParens, List.length_cons, List.length_append, List.length_nil] at hfuel
  rw [List.cons_append, List.append_assoc]
  refine .peek fun pos => .advance ((nativePath_taken hpath (by decide)).bind ?_)
  rintro _ rfl
  refine (arguments_taken h (by omega)).bind fun args' hargs' => .pure ?_
  simp [Expr.bare, hargs']

/-! ### Suffixes -/

theorem suffixFuel_stops {expr : Parser Expr} (hk : stops l k = true) (hn : 0 < n) :
    Takes (suffixFuel expr n e) (k :: rest) (k :: rest) (· = e) := by
  obtain ⟨n, rfl⟩ := Nat.exists_eq_add_one.2 (show 0 < n by omega)
  obtain ⟨hdot, hopen⟩ := not_suffix_of_stops hk
  rw [suffixFuel]
  exact .noSkip hdot (.notNext hopen (.pure rfl))

theorem operandTaken_member (h : OperandTaken ks e) (name : String) :
    OperandTaken (ks ++ [.punct .dot, .ident name]) (.member e name) := by
  intro fuel rest out Q hfuel hafter
  rw [List.length_append] at hfuel
  rw [List.append_assoc]
  -- The loop that comes after the object reads the access and goes on after it with less fuel.
  refine h fuel _ out Q (by omega) fun e' n he' hn => ?_
  simp only [List.cons_append, List.nil_append, List.length_cons] at hn ⊢
  obtain ⟨n, rfl⟩ := Nat.exists_eq_add_one.2 (show 0 < n by omega)
  rw [suffixFuel]
  refine .skip (.ident fun pos => ?_)
  exact hafter _ n (by simp [Expr.bare, he']) (by omega)

theorem operandTaken_call {args : List Expr} (h : OperandTaken ks e)
    (hargs : ArgumentsTaken ks' args) : OperandTaken (ks ++ inParens ks') (.call e args) := by
  intro fuel rest out Q hfuel hafter
  simp only [inParens, List.length_append, List.length_cons, List.length_nil] at hfuel
  rw [List.append_assoc]
  refine h fuel _ out Q (by omega) fun e' n he' hn => ?_
  simp only [inParens, List.length_append, List.length_cons, List.length_nil] at hn
  obtain ⟨n, rfl⟩ := Nat.exists_eq_add_one.2 (show 0 < n by omega)
  rw [suffixFuel]
  refine .noSkip (by decide) (.isNext ?_)
  refine (arguments_taken hargs (by omega)).bind fun args' hargs' => ?_
  exact hafter _ n (by simp [Expr.bare, he', hargs']) (by omega)

/-! ### Operators -/

theorem chainFuel_stops {level : OperatorLevel} {operand : Parser Expr}
    (hk : operatorOf? level k = none) (hn : 0 < n) :
    Takes (chainFuel level operand n e) (k :: rest) (k :: rest) (· = e) := by
  obtain ⟨n, rfl⟩ := Nat.exists_eq_add_one.2 (show 0 < n by omega)
  rw [chainFuel]
  refine .bind (m := k :: rest) (Q := fun op => op = none) (.peek fun pos => ?_) ?_
  · cases k <;> exact .pure hk
  · rintro _ rfl
    exact .pure rfl

/-- The parser of a level of binary operators takes a phrase if its loop does. -/
theorem phraseTaken_of_chain (hl : l < 6)
    (h : ∀ fuel level k rest out (Q : Expr → Prop), operatorLevels[l]? = some level →
      ks.length ≤ fuel → stops (l + 1) k = true →
      (∀ e' n, e'.bare = e.bare → (k :: rest).length < n →
        Takes (chainFuel level (atLevel fuel (l + 1)) n e') (k :: rest) out Q) →
      Takes (atLevel fuel l) (ks ++ k :: rest) out Q) : PhraseTaken l ks e where
  whole fuel k rest hfuel hk := by
    have hlevel : operatorLevels[l]? = some operatorLevels[l] := List.getElem?_eq_getElem hl
    refine h fuel _ k rest _ _ hlevel hfuel (stops_succ hk) fun e' n he' hn => ?_
    refine (chainFuel_stops (operatorOf?_of_stops hlevel hk) (by omega)).mono ?_
    rintro _ rfl
    exact he'
  chain := h

/-- Beyond the levels of binary operators there is no loop. -/
theorem phraseTaken_of_whole
    (h : ∀ fuel k rest, ks.length ≤ fuel → stops 6 k = true →
      Takes (unaryFuel fuel) (ks ++ k :: rest) (k :: rest) (·.bare = e.bare)) :
    PhraseTaken 6 ks e where
  whole := h
  chain _ _ _ _ _ _ hlevel := by cases hlevel

theorem phraseTaken_operand (h : Operand ks e) (ht : OperandTaken ks e) : PhraseTaken 6 ks e := by
  refine phraseTaken_of_whole fun fuel k rest hfuel hk => ?_
  obtain ⟨first, ks, rfl, hfirst⟩ := h.starts
  rw [List.length_cons] at hfuel
  obtain ⟨fuel, rfl⟩ := Nat.exists_eq_add_one.2 (show 0 < fuel by omega)
  have hoperand := ht fuel (k :: rest) (k :: rest) (·.bare = e.bare) hfuel fun e' n he' hn => by
    refine (suffixFuel_stops hk (by omega)).mono ?_
    rintro _ rfl
    exact he'
  -- No operand starts with the sign of an operator.
  rw [unaryFuel]
  refine .peek fun pos => ?_
  dsimp only
  split
  · cases hfirst
  · cases hfirst
  · exact hoperand

theorem phraseTaken_unary (op : UnaryOp) (h : PhraseTaken 6 ks e) :
    PhraseTaken 6 (.punct op.punct :: ks) (.unary op e) := by
  refine phraseTaken_of_whole fun fuel k rest hfuel hk => ?_
  rw [List.length_cons] at hfuel
  obtain ⟨fuel, rfl⟩ := Nat.exists_eq_add_one.2 (show 0 < fuel by omega)
  have hwhole := h.whole fuel k rest (by omega) hk
  rw [unaryFuel]
  refine .peek fun pos => ?_
  cases op <;> exact .advance (hwhole.map fun e' he' => by simp [Expr.bare, he'])

theorem phraseTaken_tighter (hl : l < 6) (h : PhraseTaken (l + 1) ks e) : PhraseTaken l ks e := by
  refine phraseTaken_of_chain hl fun fuel level k rest out Q hlevel hfuel hk hafter => ?_
  rw [atLevel_of_level hlevel]
  refine (h.whole fuel k rest hfuel hk).bind fun e' he' => .remaining ?_
  exact hafter e' _ he' (Nat.lt_succ_self _)

theorem phraseTaken_binary (op : BinaryOp) (hlhs : PhraseTaken op.level ks lhs)
    (hrhs : PhraseTaken (op.level + 1) ks' rhs) :
    PhraseTaken op.level (ks ++ .punct op.punct :: ks') (.binary op lhs rhs) := by
  obtain ⟨level, hlevel, hlookup⟩ := exists_level op
  refine phraseTaken_of_chain (by cases op <;> decide)
    fun fuel level' k rest out Q hlevel' hfuel hk hafter => ?_
  obtain rfl : level = level' := Option.some.inj (hlevel.symm.trans hlevel')
  simp only [List.length_append, List.length_cons] at hfuel
  rw [List.append_assoc, List.cons_append]
  -- The sign ends the left operand at the tighter levels only; at this one the loop goes on with it.
  refine hlhs.chain fuel level _ _ out Q hlevel (by omega) (stops_of_operator op) ?_
  intro e' n he' hn
  simp only [List.length_append, List.length_cons] at hn
  obtain ⟨n, rfl⟩ := Nat.exists_eq_add_one.2 (show 0 < n by omega)
  rw [chainFuel]
  refine .bind (m := .punct op.punct :: (ks' ++ k :: rest)) (Q := fun found => found = some op)
    (.peek fun pos => .pure hlookup) ?_
  rintro _ rfl
  refine .advance ((hrhs.whole fuel k rest (by omega) hk).bind fun r' hr' => ?_)
  exact hafter _ n (by simp [Expr.bare, he', hr']) (by rw [List.length_cons]; omega)

end Parser

mutual

theorem Operand.taken {ks : List TokenKind} {e : Expr} : Operand ks e → Parser.OperandTaken ks e
  | .literal h => Parser.operandTaken_literal h
  | .name r => Parser.operandTaken_name r
  | .parens h => Parser.operandTaken_parens h.taken
  | .native hpath hargs pos => Parser.operandTaken_native hpath hargs.taken pos
  | .member h name => Parser.operandTaken_member h.taken name
  | .call h hargs => Parser.operandTaken_call h.taken hargs.taken

theorem Phrase.taken {l : Nat} {ks : List TokenKind} {e : Expr} :
    Phrase l ks e → Parser.PhraseTaken l ks e
  | .operand h => Parser.phraseTaken_operand h h.taken
  | .unary op h => Parser.phraseTaken_unary op h.taken
  | .tighter hl h => Parser.phraseTaken_tighter hl h.taken
  | .binary op hlhs hrhs => Parser.phraseTaken_binary op hlhs.taken hrhs.taken

theorem Arguments.taken {ks : List TokenKind} {es : List Expr} :
    Arguments ks es → Parser.ArgumentsTaken ks es
  | .nil => Parser.argumentsTaken_nil
  | .last h => Parser.argumentsTaken_last h h.taken
  | .more h hs => Parser.argumentsTaken_more h h.taken hs.taken

end

/-- An expression is read from its tokens, up to a token that does not continue it. -/
theorem Phrase.expr {ks rest : List TokenKind} {k : TokenKind} {e : Expr} (h : Phrase 0 ks e)
    (hk : stops 0 k = true) :
    Takes Parser.expr (ks ++ k :: rest) (k :: rest) (·.bare = e.bare) :=
  .remaining (h.taken.whole _ k rest (by rw [List.length_append]; omega) hk)

end Source

end Scaffold
