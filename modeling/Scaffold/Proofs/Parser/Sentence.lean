import Scaffold.Proofs.Parser.Phrase

/-!
# The grammar of statements

What tokens a type and a statement can be written with, and that the parser reads every such list of
tokens as that type or statement, up to positions, scopes and places in the order of the file.

* `TypePhrase`, `Sentence`, `Sentences`, `Otherwise`: the grammar.
* `Sentences.block`: the parser takes the tokens of statements in braces.
-/

namespace Scaffold.Source

/-! ## Without positions -/

/-- The type without positions, scopes, places in the order of the file and meanings. -/
def TypeRef.bare : TypeRef → TypeRef
  | .primitive p => .primitive p
  | .list item => .list item.bare
  | .named r => .named r.bare

/-- What a loop runs over, without positions and the like. -/
def ForIter.bare : ForIter → ForIter
  | .range first last => .range first.bare last.bare
  | .each items => .each items.bare

mutual

/-- The statement without positions, scopes, places in the order of the file and meanings. -/
def Stmt.bare : Stmt → Stmt
  | .declare name type init _ => .declare name (type.map TypeRef.bare) (init.map Expr.bare) {}
  | .assign target value _ => .assign target.bare value.bare {}
  | .cond test yes no _ => .cond test.bare (bareStmts yes) (bareElse no) {}
  | .loop test body _ => .loop test.bare (bareStmts body) {}
  | .each var iter body _ => .each var iter.bare (bareStmts body) {}
  | .ret value _ => .ret (value.map Expr.bare) {}
  | .leave _ => .leave {}
  | .next _ => .next {}
  | .expr e _ => .expr e.bare {}

/-- Statements without positions, scopes, places in the order of the file and meanings. -/
def bareStmts : List Stmt → List Stmt
  | [] => []
  | s :: rest => s.bare :: bareStmts rest

/-- An `else` without positions, scopes, places in the order of the file and meanings. -/
def bareElse : Option (List Stmt) → Option (List Stmt)
  | none => none
  | some body => some (bareStmts body)

end

@[simp]
theorem bareStmts_append (body more : List Stmt) :
    bareStmts (body ++ more) = bareStmts body ++ bareStmts more := by
  induction body with
  | nil => rfl
  | cons s body ih => simp [bareStmts, ih]

/-! ## Grammar -/

def isTypeWord (word : String) : Bool :=
  word == "char" || word == "varchar" || (Primitive.ofWord? word).isSome

/-- A type. -/
inductive TypePhrase : List TokenKind → TypeRef → Prop
  | word {word : String} {p : Primitive} (h : Primitive.ofWord? word = some p) :
      TypePhrase [.ident word] (.primitive p)
  | char {n : Nat} (h : n ≤ Parser.maxSize) :
      TypePhrase (.ident "char" :: inParens [.int n]) (.primitive (.char n))
  | varchar {n : Nat} (h : n ≤ Parser.maxSize) :
      TypePhrase (.ident "varchar" :: inParens [.int n]) (.primitive (.varchar n))
  | list {ks : List TokenKind} {item : TypeRef} (h : TypePhrase ks item) :
      TypePhrase (.ident "list" :: .punct .less :: (ks ++ [.punct .greater])) (.list item)
  | named (r : NameRef) (h : isTypeWord r.name = false) : TypePhrase [.ident r.name] (.named r)

/-- Nothing, or what `phrase` allows. -/
def Optional {α : Type} (phrase : List TokenKind → α → Prop) (ks : List TokenKind) :
    Option α → Prop
  | none => ks = []
  | some a => phrase ks a

/-- An initial value with the sign in front of it. -/
def InitPhrase (ks : List TokenKind) (e : Expr) : Prop :=
  ∃ ks', ks = .punct .assign :: ks' ∧ Phrase 0 ks' e

/-- What a loop runs over. -/
inductive IterPhrase : List TokenKind → ForIter → Prop
  | range {ks ks' : List TokenKind} {first last : Expr} (hfirst : Phrase 0 ks first)
      (hlast : Phrase 0 ks' last) : IterPhrase (ks ++ .punct .range :: ks') (.range first last)
  | each {ks : List TokenKind} {items : Expr} (h : Phrase 0 ks items) : IterPhrase ks (.each items)

def inBraces (ks : List TokenKind) : List TokenKind :=
  .punct .braceOpen :: (ks ++ [.punct .braceClose])

mutual

/-- A statement. -/
inductive Sentence : List TokenKind → Stmt → Prop
  | declare {ts ks : List TokenKind} {type : Option TypeRef} {init : Option Expr} (name : String)
      (htype : Optional TypePhrase ts type) (hinit : Optional InitPhrase ks init)
      (pos : Position) :
      Sentence (.keyword .varKw :: .ident name :: (ts ++ (ks ++ [.punct .semicolon])))
        (.declare name type init pos)
  | assign {ks ks' : List TokenKind} {target value : Expr} (htarget : Phrase 0 ks target)
      (hvalue : Phrase 0 ks' value) (pos : Position) :
      Sentence (ks ++ .punct .assign :: (ks' ++ [.punct .semicolon])) (.assign target value pos)
  | cond {ks ys ns : List TokenKind} {test : Expr} {yes : List Stmt} {no : Option (List Stmt)}
      (htest : Phrase 0 ks test) (hyes : Sentences ys yes) (hno : Otherwise ns no)
      (pos : Position) :
      Sentence (.keyword .ifKw :: (inParens ks ++ (inBraces ys ++ ns))) (.cond test yes no pos)
  | loop {ks bs : List TokenKind} {test : Expr} {body : List Stmt} (htest : Phrase 0 ks test)
      (hbody : Sentences bs body) (pos : Position) :
      Sentence (.keyword .whileKw :: (inParens ks ++ inBraces bs)) (.loop test body pos)
  | each {ks bs : List TokenKind} {iter : ForIter} {body : List Stmt} (var : String)
      (hiter : IterPhrase ks iter) (hbody : Sentences bs body) (pos : Position) :
      Sentence (.keyword .forKw :: .punct .parenOpen :: .ident var :: .keyword .inKw ::
        (ks ++ .punct .parenClose :: inBraces bs)) (.each var iter body pos)
  | ret {ks : List TokenKind} {value : Option Expr} (h : Optional (Phrase 0) ks value)
      (pos : Position) :
      Sentence (.keyword .returnKw :: (ks ++ [.punct .semicolon])) (.ret value pos)
  | leave (pos : Position) : Sentence [.keyword .breakKw, .punct .semicolon] (.leave pos)
  | next (pos : Position) : Sentence [.keyword .continueKw, .punct .semicolon] (.next pos)
  | expr {ks : List TokenKind} {e : Expr} (h : Phrase 0 ks e) (pos : Position) :
      Sentence (ks ++ [.punct .semicolon]) (.expr e pos)

/-- Statements, one after the other. -/
inductive Sentences : List TokenKind → List Stmt → Prop
  | nil : Sentences [] []
  | cons {ks ks' : List TokenKind} {s : Stmt} {body : List Stmt} (h : Sentence ks s)
      (hs : Sentences ks' body) : Sentences (ks ++ ks') (s :: body)

/-- The `else` of a choice: none, a block, or another choice. -/
inductive Otherwise : List TokenKind → Option (List Stmt) → Prop
  | none : Otherwise [] none
  | block {ks : List TokenKind} {body : List Stmt} (h : Sentences ks body) :
      Otherwise (.keyword .elseKw :: inBraces ks) (some body)
  | choice {ks : List TokenKind} {s : Stmt} (h : Sentence (.keyword .ifKw :: ks) s) :
      Otherwise (.keyword .elseKw :: .keyword .ifKw :: ks) (some [s])

end

/-- The token can start a statement. -/
def startsSentence : TokenKind → Bool
  | .keyword .varKw | .keyword .ifKw | .keyword .whileKw | .keyword .forKw | .keyword .returnKw
  | .keyword .breakKw | .keyword .continueKw => true
  | k => startsPhrase k

theorem startsSentence_of_startsPhrase {k : TokenKind} (h : startsPhrase k = true) :
    startsSentence k = true := by
  unfold startsSentence
  split <;> first | rfl | exact h

theorem Sentence.starts {ks : List TokenKind} {s : Stmt} (h : Sentence ks s) :
    ∃ k ks', ks = k :: ks' ∧ startsSentence k = true := by
  cases h with
  | assign htarget =>
    obtain ⟨k, ks, rfl, hk⟩ := htarget.starts
    exact ⟨k, _, rfl, startsSentence_of_startsPhrase hk⟩
  | expr h =>
    obtain ⟨k, ks, rfl, hk⟩ := h.starts
    exact ⟨k, _, rfl, startsSentence_of_startsPhrase hk⟩
  | _ => exact ⟨_, _, rfl, rfl⟩

theorem Sentences.single {ks : List TokenKind} {s : Stmt} (h : Sentences ks [s]) :
    Sentence ks s := by
  cases h with
  | cons h hs =>
    cases hs
    rwa [List.append_nil]

/-- Statements in braces are not continued by an `else`. -/
theorem Sentences.next {ks : List TokenKind} {body : List Stmt} (h : Sentences ks body)
    (rest : List TokenKind) :
    ∃ k ks', ks ++ .punct .braceClose :: rest = k :: ks' ∧ k ≠ .keyword .elseKw := by
  cases h with
  | nil => exact ⟨_, _, rfl, by decide⟩
  | cons h hs =>
    obtain ⟨k, ks, rfl, hk⟩ := h.starts
    refine ⟨k, _, rfl, ?_⟩
    rintro rfl
    cases hk

theorem TypePhrase.starts {ks : List TokenKind} {t : TypeRef} (h : TypePhrase ks t) :
    ∃ word ks', ks = .ident word :: ks' := by
  cases h <;> exact ⟨_, _, rfl⟩

/-- The token continues no type. -/
def EndsType (k : TokenKind) : Prop :=
  k ≠ .punct .less ∧ k ≠ .punct .parenOpen

/-- An initial value, or what ends the statement, ends a type. -/
theorem InitPhrase.ends {ks : List TokenKind} {init : Option Expr}
    (h : Optional InitPhrase ks init) (rest : List TokenKind) :
    ∃ k ks', ks ++ .punct .semicolon :: rest = k :: ks' ∧ EndsType k := by
  cases init with
  | none =>
    obtain rfl : ks = [] := h
    exact ⟨_, _, rfl, by decide, by decide⟩
  | some e =>
    obtain ⟨ks', rfl, -⟩ := h
    exact ⟨_, _, rfl, by decide, by decide⟩

namespace Parser

variable {k : TokenKind} {ks ks' rest : List TokenKind} {n fuel : Nat}

/-! ## Types -/

/-- A built-in type without a size. -/
theorem typeFuel_word {word : String} {p : Primitive} (h : Primitive.ofWord? word = some p)
    (hk : EndsType k) :
    Takes (typeFuel (fuel + 1)) (.ident word :: k :: rest) (k :: rest) (· = .primitive p) := by
  have hchar : word ≠ "char" ∧ word ≠ "varchar" := by
    constructor <;> rintro rfl <;> cases h
  rw [typeFuel]
  refine .ident fun pos => .notNext hk.1 ?_
  dsimp only
  rw [if_neg (by simp), if_neg (by simpa using hchar.1), if_neg (by simpa using hchar.2), h]
  dsimp only
  split
  · exact .bind (m := k :: rest) (Q := fun _ => True) (.noSkip hk.2 (.pure trivial))
      fun _ _ => .pure rfl
  · exact .pure rfl

theorem sizeOr_taken {fallback n : Nat} (hn : n ≤ maxSize) :
    Takes (sizeOr fallback) (inParens [.int n] ++ rest) rest (· = n) :=
  .skip (.integer (.expectPunct (.pure (Nat.min_eq_left hn))))

theorem typeFuel_taken {t : TypeRef} (h : TypePhrase ks t) (hk : EndsType k)
    (hfuel : ks.length ≤ fuel) :
    Takes (typeFuel fuel) (ks ++ k :: rest) (k :: rest) (·.bare = t.bare) := by
  induction h generalizing fuel k rest with
  | word h =>
    obtain ⟨fuel, rfl⟩ := Nat.exists_eq_add_one.2 (Nat.lt_of_lt_of_le (Nat.succ_pos _) hfuel)
    refine (typeFuel_word h hk).mono ?_
    rintro _ rfl
    rfl
  | char hn | varchar hn =>
    rw [List.length_cons] at hfuel
    obtain ⟨fuel, rfl⟩ := Nat.exists_eq_add_one.2 (show 0 < fuel by omega)
    rw [typeFuel]
    refine .ident fun pos => .notNext (by decide) ((sizeOr_taken hn).bind ?_)
    rintro _ rfl
    exact .pure rfl
  | @list ks item h ih =>
    simp only [List.length_cons, List.length_append, List.length_nil] at hfuel
    obtain ⟨fuel, rfl⟩ := Nat.exists_eq_add_one.2 (show 0 < fuel by omega)
    rw [typeFuel, List.cons_append, List.cons_append, List.append_assoc]
    refine .ident fun pos => .isNext (.advance ?_)
    have hitem : Takes (typeFuel fuel) (ks ++ .punct .greater :: k :: rest) _
        (·.bare = item.bare) := ih ⟨by decide, by decide⟩ (by omega)
    refine hitem.bind fun t ht => .expectPunct (.pure ?_)
    rw [TypeRef.bare, ht, TypeRef.bare]
  | named r h =>
    obtain ⟨fuel, rfl⟩ := Nat.exists_eq_add_one.2 (Nat.lt_of_lt_of_le (Nat.succ_pos _) hfuel)
    simp only [isTypeWord, Bool.or_eq_false_iff, beq_eq_false_iff_ne, Option.isSome_eq_false_iff,
      Option.isNone_iff_eq_none] at h
    obtain ⟨⟨hchar, hvarchar⟩, hword⟩ := h
    rw [typeFuel]
    refine .ident fun pos => .notNext hk.1 ?_
    dsimp only
    rw [if_neg (by simp), if_neg (by simpa using hchar), if_neg (by simpa using hvarchar), hword]
    exact .nameRef fun r' hr' => .pure (by simp [TypeRef.bare, NameRef.bare, hr'])

theorem typeRef_taken {t : TypeRef} (h : TypePhrase ks t) (hk : EndsType k) :
    Takes typeRef (ks ++ k :: rest) (k :: rest) (·.bare = t.bare) :=
  .remaining (typeFuel_taken h hk (by rw [List.length_append]; omega))

/-! ## Statements -/

/-- The parser takes the tokens of the statement, up to what is no `else`. -/
def SentenceTaken (ks : List TokenKind) (s : Stmt) : Prop :=
  ∀ fuel k rest, ks.length ≤ fuel → k ≠ .keyword .elseKw →
    Takes (stmtFuel fuel) (ks ++ k :: rest) (k :: rest) (·.bare = s.bare)

/-- The parser takes the tokens of the statements in braces. -/
def SentencesTaken (ks : List TokenKind) (body : List Stmt) : Prop :=
  ∀ fuel rest, ks.length ≤ fuel →
    Takes (blockOf (stmtFuel fuel)) (inBraces ks ++ rest) rest (bareStmts · = bareStmts body)

/-- The end of a choice, after its first block. -/
def elsePart (stmt : Parser Stmt) (test : Expr) (yes : List Stmt) (pos : Position) :
    Parser Stmt := do
  if ← isKeyword .elseKw then
    advance
    if ← isKeyword .ifKw then return .cond test yes (some [← stmt]) pos
    else return .cond test yes (some (← blockOf stmt)) pos
  else return .cond test yes none pos

/-- The parser takes the tokens of the `else`, or finds that there is none. -/
def OtherwiseTaken (ks : List TokenKind) (no : Option (List Stmt)) : Prop :=
  ∀ fuel k rest test yes pos, ks.length ≤ fuel → k ≠ .keyword .elseKw →
    Takes (elsePart (stmtFuel fuel) test yes pos) (ks ++ k :: rest) (k :: rest)
      (·.bare = .cond test.bare (bareStmts yes) (bareElse no) {})

theorem condition_taken {test : Expr} (h : Phrase 0 ks test) :
    Takes condition (inParens ks ++ rest) rest (·.bare = test.bare) := by
  rw [inParens, List.cons_append, List.append_assoc]
  refine .expectPunct ((h.expr (by decide)).bind fun e he => ?_)
  exact .expectPunct (.pure he)

/-- A statement that does not start with a reserved word is an assignment or an expression. -/
theorem stmtFuel_of_phrase {e : Expr} {R : Stmt → Prop} {out : List TokenKind}
    (h : Phrase 0 ks e) (hexpr : ∀ pos, Takes (exprStmt pos) (ks ++ rest) out R) :
    Takes (stmtFuel (fuel + 1)) (ks ++ rest) out R := by
  obtain ⟨k, ks, rfl, hk⟩ := h.starts
  rw [stmtFuel]
  refine .peek fun pos => ?_
  dsimp only
  split
  · cases hk
  · cases hk
  · cases hk
  · cases hk
  · cases hk
  · cases hk
  · cases hk
  · exact hexpr pos

theorem sentenceTaken_expr {e : Expr} (h : Phrase 0 ks e) (pos : Position) :
    SentenceTaken (ks ++ [.punct .semicolon]) (.expr e pos) := by
  intro fuel k rest hfuel hk
  rw [List.length_append, List.length_singleton] at hfuel
  obtain ⟨fuel, rfl⟩ := Nat.exists_eq_add_one.2 (show 0 < fuel by omega)
  rw [List.append_assoc]
  refine stmtFuel_of_phrase h fun pos => (h.expr (by decide)).bind fun e' he' => ?_
  exact .noSkip (by decide) (.expectPunct (.pure (by simp [Stmt.bare, he'])))

theorem sentenceTaken_assign {target value : Expr} (htarget : Phrase 0 ks target)
    (hvalue : Phrase 0 ks' value) (pos : Position) :
    SentenceTaken (ks ++ .punct .assign :: (ks' ++ [.punct .semicolon]))
      (.assign target value pos) := by
  intro fuel k rest hfuel hk
  simp only [List.length_append, List.length_cons] at hfuel
  obtain ⟨fuel, rfl⟩ := Nat.exists_eq_add_one.2 (show 0 < fuel by omega)
  rw [List.append_assoc, List.cons_append, List.append_assoc]
  refine stmtFuel_of_phrase htarget fun pos => ?_
  refine (htarget.expr (by decide)).bind fun e he => .skip ?_
  refine (hvalue.expr (by decide)).bind fun v hv => .expectPunct (.pure ?_)
  simp [Stmt.bare, he, hv]

theorem sentenceTaken_declare {ts : List TokenKind} {type : Option TypeRef} {init : Option Expr}
    (name : String) (htype : Optional TypePhrase ts type) (hinit : Optional InitPhrase ks init)
    (pos : Position) :
    SentenceTaken (.keyword .varKw :: .ident name :: (ts ++ (ks ++ [.punct .semicolon])))
      (.declare name type init pos) := by
  intro fuel k rest hfuel hk
  rw [List.length_cons] at hfuel
  obtain ⟨fuel, rfl⟩ := Nat.exists_eq_add_one.2 (show 0 < fuel by omega)
  rw [List.cons_append, List.cons_append, List.append_assoc, List.append_assoc]
  rw [stmtFuel]
  refine .peek fun pos => ?_
  show Takes declareStmt _ _ _
  unfold declareStmt
  refine .expect fun pos => .ident fun namePos => ?_
  dsimp -zeta only
  extract_lets withType
  have hwith : ∀ type', type'.map TypeRef.bare = type.map TypeRef.bare →
      Takes (withType type') (ks ++ .punct .semicolon :: k :: rest) (k :: rest)
        (·.bare = (Stmt.declare name type init pos).bare) := by
    intro type' htype'
    dsimp -zeta only [withType]
    extract_lets withInit
    have hwithInit : ∀ init', init'.map Expr.bare = init.map Expr.bare →
        Takes (withInit init') (.punct .semicolon :: k :: rest) (k :: rest)
          (·.bare = (Stmt.declare name type init pos).bare) := fun init' hinit' =>
      .expectPunct (.state fun _ => .declare (.pure (by simp [Stmt.bare, htype', hinit'])))
    cases init with
    | none =>
      obtain rfl : ks = [] := hinit
      exact .noSkip (by decide) (hwithInit none rfl)
    | some e =>
      obtain ⟨ks', rfl, he⟩ := hinit
      refine .skip ((he.expr (by decide)).bind fun e' he' => ?_)
      exact hwithInit (some e') (by simp [he'])
  -- Without a type, the sign or the semicolon that follows the name says so.
  cases type with
  | none =>
    obtain rfl : ts = [] := htype
    cases init with
    | none =>
      obtain rfl : ks = [] := hinit
      exact .notNext (by decide) (.isNext (hwith none rfl))
    | some e =>
      obtain ⟨ks', rfl, he⟩ := hinit
      exact .isNext (.notNext (by decide) (hwith none rfl))
  | some t =>
    obtain ⟨word, ts, rfl⟩ := TypePhrase.starts htype
    obtain ⟨next, after, hafter, hends⟩ := InitPhrase.ends hinit (k :: rest)
    refine .notNext (by simp) (.notNext (by simp) ?_)
    have htaken : Takes typeRef (.ident word :: ts ++ next :: after) _ _ :=
      typeRef_taken htype hends
    rw [← hafter] at htaken
    exact htaken.bind fun t' ht' => hwith (some t') (by simp [ht'])

/-! ### Blocks -/

def statement (fuel : Nat) (body : List Stmt) : Parser (List Stmt) := do
  return body ++ [← stmtFuel fuel]

/-- The loop over statements ends before a closing brace. -/
def atBrace : Parser Bool := do
  let t ← peek
  return t.kind == .punct .braceClose || t.kind == .eof

/-- The loop over statements takes them up to the closing brace. -/
def BodyTaken (ks : List TokenKind) (body : List Stmt) : Prop :=
  ∀ fuel n rest done, ks.length ≤ fuel → ks.length < n →
    Takes (untilFuel atBrace (statement fuel) n done) (ks ++ .punct .braceClose :: rest)
      (.punct .braceClose :: rest) (bareStmts · = bareStmts done ++ bareStmts body)

theorem bodyTaken_nil : BodyTaken [] [] := by
  intro fuel n rest done _ hn
  obtain ⟨n, rfl⟩ := Nat.exists_eq_add_one.2 (show 0 < n by omega)
  rw [untilFuel]
  refine .bind (m := .punct .braceClose :: rest) (Q := fun b => b = true)
    (.peek fun pos => .pure rfl) ?_
  rintro _ rfl
  exact .pure (by simp [bareStmts])

theorem bodyTaken_cons {s : Stmt} {body : List Stmt} (h : Sentence ks s)
    (ht : SentenceTaken ks s) (hnext : ∀ rest, ∃ k rest', ks' ++ .punct .braceClose :: rest
      = k :: rest' ∧ k ≠ .keyword .elseKw) (hs : BodyTaken ks' body) :
    BodyTaken (ks ++ ks') (s :: body) := by
  intro fuel n rest done hfuel hn
  rw [List.length_append] at hfuel hn
  obtain ⟨n, rfl⟩ := Nat.exists_eq_add_one.2 (show 0 < n by omega)
  obtain ⟨first, ks, rfl, hfirst⟩ := h.starts
  rw [List.length_cons] at hfuel hn
  rw [untilFuel, List.append_assoc]
  refine .bind (m := first :: (ks ++ (ks' ++ .punct .braceClose :: rest)))
    (Q := fun b => b = false) (.peek fun pos => .pure ?_) ?_
  · simp only [Bool.or_eq_false_iff, beq_eq_false_iff_ne]
    constructor <;> rintro rfl <;> cases hfirst
  rintro _ rfl
  -- A statement or the brace comes next, so a choice without an `else` ends here.
  obtain ⟨next, after, hafter, helse⟩ := hnext rest
  have hstmt := ht fuel next after (by rw [List.length_cons]; omega) helse
  rw [← hafter] at hstmt
  refine (hstmt.map (R := fun done' => bareStmts done' = bareStmts done ++ [s.bare])
    fun s' hs' => by simp [bareStmts, hs']).bind fun done' hdone' => ?_
  refine (hs fuel n rest done' (by omega) (by omega)).mono fun body' hbody' => ?_
  rw [hbody', hdone', List.append_assoc]
  rfl

theorem sentencesTaken_of_bodyTaken {body : List Stmt} (h : BodyTaken ks body) :
    SentencesTaken ks body := by
  intro fuel rest hfuel
  rw [inBraces, List.cons_append, List.append_assoc]
  have hbody := h fuel ((ks ++ .punct .braceClose :: rest).length + 1) rest [] hfuel
    (by rw [List.length_append]; omega)
  refine .expectPunct (.inScope (.remaining hbody) fun id body' hbody' => ?_)
  exact .expectPunct (.pure hbody')

/-! ### Choices and loops -/

theorem otherwiseTaken_none : OtherwiseTaken [] none := by
  intro fuel k rest test yes pos _ hk
  exact .notNext hk (.pure (by simp [Stmt.bare, bareElse]))

theorem otherwiseTaken_block {body : List Stmt} (h : SentencesTaken ks body) :
    OtherwiseTaken (.keyword .elseKw :: inBraces ks) (some body) := by
  intro fuel k rest test yes pos hfuel hk
  simp only [inBraces, List.length_cons, List.length_append, List.length_nil] at hfuel
  refine .isNext (.advance (.notNext (by decide) ?_))
  refine (h fuel (k :: rest) (by omega)).map fun body' hbody' => ?_
  simp [Stmt.bare, bareElse, hbody']

theorem otherwiseTaken_choice {s : Stmt} (h : SentenceTaken (.keyword .ifKw :: ks) s) :
    OtherwiseTaken (.keyword .elseKw :: .keyword .ifKw :: ks) (some [s]) := by
  intro fuel k rest test yes pos hfuel hk
  rw [List.length_cons] at hfuel
  refine .isNext (.advance (.isNext ?_))
  refine (h fuel k rest (by omega) hk).map fun s' hs' => ?_
  simp [Stmt.bare, bareElse, bareStmts, hs']

theorem sentenceTaken_cond {ys ns : List TokenKind} {test : Expr} {yes : List Stmt}
    {no : Option (List Stmt)} (htest : Phrase 0 ks test) (hyes : SentencesTaken ys yes)
    (hno : OtherwiseTaken ns no) (pos : Position) :
    SentenceTaken (.keyword .ifKw :: (inParens ks ++ (inBraces ys ++ ns)))
      (.cond test yes no pos) := by
  intro fuel k rest hfuel hk
  simp only [inBraces, List.length_cons, List.length_append, List.length_nil] at hfuel
  obtain ⟨fuel, rfl⟩ := Nat.exists_eq_add_one.2 (show 0 < fuel by omega)
  rw [stmtFuel, List.cons_append, List.append_assoc, List.append_assoc]
  refine .peek fun pos => .expect fun pos => ?_
  refine (condition_taken htest).bind fun test' htest' => ?_
  refine (hyes fuel _ (by omega)).bind fun yes' hyes' => ?_
  refine (hno fuel k rest test' yes' pos (by omega) hk).mono fun s hs => ?_
  rw [hs, htest', hyes', Stmt.bare]

theorem sentenceTaken_loop {bs : List TokenKind} {test : Expr} {body : List Stmt}
    (htest : Phrase 0 ks test) (hbody : SentencesTaken bs body) (pos : Position) :
    SentenceTaken (.keyword .whileKw :: (inParens ks ++ inBraces bs)) (.loop test body pos) := by
  intro fuel k rest hfuel hk
  simp only [inBraces, List.length_cons, List.length_append, List.length_nil] at hfuel
  obtain ⟨fuel, rfl⟩ := Nat.exists_eq_add_one.2 (show 0 < fuel by omega)
  rw [stmtFuel, List.cons_append, List.append_assoc]
  refine .peek fun pos => .advance ?_
  refine (condition_taken htest).bind fun test' htest' => ?_
  refine (hbody fuel _ (by omega)).map fun body' hbody' => ?_
  simp [Stmt.bare, htest', hbody']

/-- The end of a loop, after what it runs over. -/
def eachPart (stmt : Parser Stmt) (var : String) (varPos : Position) (iter : ForIter)
    (pos : Position) : Parser Stmt := do
  expectPunct .parenClose
  let owner := (← state).owner
  let (_, body) ← inScope .block do
    declare var .local varPos owner
    blockOf stmt
  return .each var iter body pos

theorem sentenceTaken_each {bs : List TokenKind} {iter : ForIter} {body : List Stmt}
    (var : String) (hiter : IterPhrase ks iter) (hbody : SentencesTaken bs body)
    (pos : Position) :
    SentenceTaken (.keyword .forKw :: .punct .parenOpen :: .ident var :: .keyword .inKw ::
      (ks ++ .punct .parenClose :: inBraces bs)) (.each var iter body pos) := by
  intro fuel k rest hfuel hk
  simp only [inBraces, List.length_cons, List.length_append, List.length_nil] at hfuel
  obtain ⟨fuel, rfl⟩ := Nat.exists_eq_add_one.2 (show 0 < fuel by omega)
  rw [stmtFuel]
  simp only [List.cons_append, List.append_assoc]
  refine .peek fun pos => ?_
  show Takes (eachStmt (stmtFuel fuel)) _ _ _
  unfold eachStmt
  refine .expect fun pos => .expectPunct (.ident fun varPos => .expect fun _ => ?_)
  have hwith : ∀ iter', iter'.bare = iter.bare →
      Takes (eachPart (stmtFuel fuel) var varPos iter' pos)
        (.punct .parenClose :: (inBraces bs ++ k :: rest)) (k :: rest)
        (·.bare = (Stmt.each var iter body pos).bare) := by
    intro iter' hiter'
    refine .expectPunct (.state fun s => .inScope (.declare (hbody fuel _ (by omega))) ?_)
    intro id body' hbody'
    exact .pure (by simp [Stmt.bare, hiter', hbody'])
  cases hiter with
  | range hfirst hlast =>
    rw [List.append_assoc, List.cons_append]
    refine (hfirst.expr (by decide)).bind fun first hfirst' => .skip ?_
    refine (hlast.expr (by decide)).bind fun last hlast' => ?_
    exact hwith (.range first last) (by simp [ForIter.bare, hfirst', hlast'])
  | each hitems =>
    refine (hitems.expr (by decide)).bind fun items hitems' => .noSkip (by decide) ?_
    exact hwith (.each items) (by simp [ForIter.bare, hitems'])

/-! ### Jumps -/

theorem sentenceTaken_ret {value : Option Expr} (h : Optional (Phrase 0) ks value)
    (pos : Position) :
    SentenceTaken (.keyword .returnKw :: (ks ++ [.punct .semicolon])) (.ret value pos) := by
  intro fuel k rest hfuel hk
  rw [List.length_cons] at hfuel
  obtain ⟨fuel, rfl⟩ := Nat.exists_eq_add_one.2 (show 0 < fuel by omega)
  rw [stmtFuel, List.cons_append, List.append_assoc]
  refine .peek fun pos => .advance ?_
  cases value with
  | none =>
    obtain rfl : ks = [] := h
    exact .isNext (.expectPunct (.pure rfl))
  | some e =>
    have hexpr : Takes expr (ks ++ .punct .semicolon :: k :: rest) _ _ :=
      Phrase.expr h (by decide)
    obtain ⟨first, ks, rfl, hfirst⟩ := Phrase.starts h
    refine .notNext (by rintro rfl; cases hfirst) ?_
    refine hexpr.bind fun e' he' => .expectPunct (.pure ?_)
    simp [Stmt.bare, he']

theorem sentenceTaken_leave (pos : Position) :
    SentenceTaken [.keyword .breakKw, .punct .semicolon] (.leave pos) := by
  intro fuel k rest hfuel hk
  obtain ⟨fuel, rfl⟩ := Nat.exists_eq_add_one.2 (Nat.lt_of_lt_of_le (Nat.succ_pos _) hfuel)
  rw [stmtFuel]
  exact .peek fun pos => .advance (.expectPunct (.pure rfl))

theorem sentenceTaken_next (pos : Position) :
    SentenceTaken [.keyword .continueKw, .punct .semicolon] (.next pos) := by
  intro fuel k rest hfuel hk
  obtain ⟨fuel, rfl⟩ := Nat.exists_eq_add_one.2 (Nat.lt_of_lt_of_le (Nat.succ_pos _) hfuel)
  rw [stmtFuel]
  exact .peek fun pos => .advance (.expectPunct (.pure rfl))

end Parser

mutual

theorem Sentence.taken {ks : List TokenKind} {s : Stmt} :
    Sentence ks s → Parser.SentenceTaken ks s
  | .declare name htype hinit pos => Parser.sentenceTaken_declare name htype hinit pos
  | .assign htarget hvalue pos => Parser.sentenceTaken_assign htarget hvalue pos
  | .cond htest hyes hno pos =>
    Parser.sentenceTaken_cond htest (Parser.sentencesTaken_of_bodyTaken hyes.taken) hno.taken pos
  | .loop htest hbody pos =>
    Parser.sentenceTaken_loop htest (Parser.sentencesTaken_of_bodyTaken hbody.taken) pos
  | .each var hiter hbody pos =>
    Parser.sentenceTaken_each var hiter (Parser.sentencesTaken_of_bodyTaken hbody.taken) pos
  | .ret h pos => Parser.sentenceTaken_ret h pos
  | .leave pos => Parser.sentenceTaken_leave pos
  | .next pos => Parser.sentenceTaken_next pos
  | .expr h pos => Parser.sentenceTaken_expr h pos

theorem Sentences.taken {ks : List TokenKind} {body : List Stmt} :
    Sentences ks body → Parser.BodyTaken ks body
  | .nil => Parser.bodyTaken_nil
  | .cons h hs => Parser.bodyTaken_cons h h.taken hs.next hs.taken

theorem Otherwise.taken {ks : List TokenKind} {no : Option (List Stmt)} :
    Otherwise ks no → Parser.OtherwiseTaken ks no
  | .none => Parser.otherwiseTaken_none
  | .block h => Parser.otherwiseTaken_block (Parser.sentencesTaken_of_bodyTaken h.taken)
  | .choice h => Parser.otherwiseTaken_choice h.taken

end

/-- Statements are read from their tokens in braces. -/
theorem Sentences.block {ks rest : List TokenKind} {body : List Stmt} (h : Sentences ks body) :
    Takes Parser.block (inBraces ks ++ rest) rest (bareStmts · = bareStmts body) := by
  refine .remaining (Parser.sentencesTaken_of_bodyTaken h.taken _ rest ?_)
  simp only [inBraces, List.cons_append, List.length_cons, List.length_append]
  omega

end Scaffold.Source
