import Scaffold.Proofs.Parser.Apart

/-!
# What any call of a parser does

`Run` lists what successful parsers do. `Moves env s s'` lists what happens between two states in
any case, also on the way to an error: tokens are passed, names are declared in the innermost scope,
scopes are entered and left, and files are loaded.

* `Moves.suffix`: no call moves back.
* `Moving p`: the parser does nothing else, whether it succeeds or fails.
* `Passing next p`: it passes a token at least when it succeeds.
-/

namespace Scaffold

/-- Between the two sessions no scope, symbol or file was touched, and no name was reported as
declared twice. -/
structure Session.Aside (s s' : Session) : Prop where
  symbols : s'.symbols = s.symbols
  stack : s'.stack = s.stack
  reports : ∃ more : Diagnostics, s'.diagnostics = s.diagnostics ++ more ∧
    more.hasCode .duplicateSymbol = false

namespace Session.Aside

variable {s s' : Session}

theorem of_eq (hsymbols : s'.symbols = s.symbols) (hstack : s'.stack = s.stack)
    (hdiagnostics : s'.diagnostics = s.diagnostics) : s.Aside s' :=
  ⟨hsymbols, hstack, [], by rw [hdiagnostics, List.append_nil], rfl⟩

theorem refl (s : Session) : s.Aside s :=
  of_eq rfl rfl rfl

end Session.Aside

namespace Source

/-! ## Moves -/

/-- Between the two states tokens were passed at most, and the session was left aside. -/
structure Quiet (s s' : ParserState) : Prop where
  rest : s'.rest <:+ s.rest
  session : s.session.Aside s'.session
  imports : s'.session.imports = s.session.imports

theorem Quiet.refl (s : ParserState) : Quiet s s :=
  ⟨List.suffix_refl _, .refl _, rfl⟩

/-- Everything that a call of a parser can do, whether it succeeds or fails. -/
inductive Moves (env : ParserEnv) : ParserState → ParserState → Prop where
  | quiet {s s' : ParserState} : Quiet s s' → Moves env s s'
  | declare (s : ParserState) (name : String) (kind : SymbolKind) (pos : Position) (node : NodeId) :
    Moves env s (Parser.declare name kind pos node true env s).2
  | inside {s s' : ParserState} {kind : ScopeKind} : kind ≠ .file →
    Moves env (s.enter env kind) s' → Moves env s s'.leave
  | load {α : Type} (s : ParserState) (found : SourceFile) (value : Document → α) :
    Moves env s (importing env env.load found value s).2
  | trans {s s' s'' : ParserState} : Moves env s s' → Moves env s' s'' → Moves env s s''

namespace Moves

variable {env : ParserEnv} {s s' : ParserState}

theorem refl (s : ParserState) : Moves env s s :=
  .quiet (.refl s)

/-- The tokens ahead are some of those that were ahead before, up to the same end. -/
theorem suffix (h : Moves env s s') : s'.rest <:+ s.rest := by
  induction h with
  | quiet h => exact h.rest
  | declare s name kind pos node => exact List.suffix_refl _
  | inside _ _ ih => exact ih
  | load s found value =>
    unfold importing
    rcases env.load found s.session with ⟨e | d, session⟩
    · exact List.suffix_refl _
    · exact List.suffix_refl _
  | trans _ _ ih ih' => exact ih'.trans ih

end Moves

/-- The parser moves, whether it succeeds or fails. -/
def Moving {α : Type} (p : Parser α) : Prop :=
  ∀ env s, Moves env s (p env s).2

namespace Moving

variable {α β : Type} {p : Parser α} {f : α → Parser β}

theorem quiet (h : ∀ env s, Quiet s (p env s).2) : Moving p :=
  fun env s => .quiet (h env s)

/-- The state is not changed. -/
theorem still (h : ∀ env s, (p env s).2 = s) : Moving p :=
  quiet fun env s => by
    rw [h]
    exact .refl s

theorem pure (a : α) : Moving (Pure.pure a) :=
  still fun _ _ => rfl

theorem expected (what : String) : Moving (Parser.expected what : Parser α) :=
  still fun _ _ => rfl

theorem bind (hp : Moving p) (hf : ∀ a, Moving (f a)) : Moving (p >>= f) := by
  intro env s
  have hfirst := hp env s
  rcases hrun : p env s with ⟨e | a, s₁⟩
  · rw [Parser.bind_failed hrun]
    rwa [hrun] at hfirst
  · rw [Parser.bind_run hrun]
    rw [hrun] at hfirst
    exact hfirst.trans (hf a env s₁)

theorem suffix (hp : Moving p) (env : ParserEnv) (s : ParserState) : (p env s).2.rest <:+ s.rest :=
  (hp env s).suffix

theorem length_le (hp : Moving p) {env : ParserEnv} {s s' : ParserState} {r : Except CompileError α}
    (h : p env s = (r, s')) : s'.rest.length ≤ s.rest.length := by
  have hsuffix := hp.suffix env s
  rw [h] at hsuffix
  exact hsuffix.length_le

end Moving

/-- Where the next token is of such a kind, the parser passes a token at least when it succeeds. -/
structure Passing {α : Type} (next : TokenKind → Prop) (p : Parser α) : Prop where
  moving : Moving p
  shorter : ∀ env s a s', next (nextKind s.rest) → p env s = (.ok a, s') →
    s'.rest.length < s.rest.length

namespace Passing

variable {α β : Type} {next : TokenKind → Prop} {p : Parser α} {f : α → Parser β}

theorem expected (what : String) : Passing next (Parser.expected what : Parser α) :=
  ⟨.expected what, fun _ _ _ _ _ h => by cases h⟩

/-- What passes a token comes first. -/
theorem first (hp : Passing next p) (hf : ∀ a, Moving (f a)) : Passing next (p >>= f) where
  moving := hp.moving.bind hf
  shorter env s b s' hnext h := by
    obtain ⟨a, s₁, hrun, hrest⟩ := Parser.bind_ok.1 h
    exact Nat.lt_of_le_of_lt ((hf a).length_le hrest) (hp.shorter env s a s₁ hnext hrun)

/-- What passes a token comes later. -/
theorem later (hp : Moving p) (hf : ∀ a, Passing anything (f a)) : Passing next (p >>= f) where
  moving := hp.bind fun a => (hf a).moving
  shorter env s b s' _ h := by
    obtain ⟨a, s₁, hrun, hrest⟩ := Parser.bind_ok.1 h
    exact Nat.lt_of_lt_of_le ((hf a).shorter env s₁ b s' trivial hrest) (hp.length_le hrun)

/-- A look at the tokens comes first, which tells something of the kind of the next one. -/
theorem look (told : α → TokenKind → Prop) (hp : ∀ env s, ∃ a, told a (nextKind s.rest) ∧
      p env s = (.ok a, s))
    (hf : ∀ a, Passing (fun kind => next kind ∧ told a kind) (f a)) : Passing next (p >>= f) where
  moving := by
    refine .bind (.still fun env s => ?_) fun a => (hf a).moving
    obtain ⟨a, -, hrun⟩ := hp env s
    rw [hrun]
  shorter env s b s' hnext h := by
    obtain ⟨a, htold, hrun⟩ := hp env s
    rw [Parser.bind_run hrun] at h
    exact (hf a).shorter env s b s' ⟨hnext, htold⟩ h

theorem peek {f : Token → Parser β} (h : ∀ t, Passing (fun kind => next kind ∧ kind = t.kind) (f t)) :
    Passing next (Parser.peek >>= f) :=
  look (fun t kind => kind = t.kind) (fun _ s => ⟨s.rest.headD ⟨.eof, {}⟩, rfl, rfl⟩) h

theorem isNext {kind : TokenKind} {f : Bool → Parser β}
    (h : ∀ b, Passing (fun k => next k ∧ (b = true → k = kind)) (f b)) :
    Passing next (Parser.isNext kind >>= f) :=
  look (fun b k => b = true → k = kind) (fun _ s => ⟨nextKind s.rest == kind, by simp, rfl⟩) h

theorem advance (h : ∀ kind, next kind → kind ≠ .eof) : Passing next Parser.advance where
  moving := .quiet fun _ _ => ⟨List.tail_suffix _, .refl _, rfl⟩
  shorter env s a s' hnext hrun := by
    cases hrun
    cases hrest : s.rest with
    | nil =>
      rw [hrest] at hnext
      exact absurd rfl (h _ hnext)
    | cons t ts =>
      show s.rest.tail.length < ts.length + 1
      rw [hrest]
      exact Nat.lt_succ_self _

/-- A sign may be passed; if it is not there, something else is passed. -/
theorem skipPunct {p : Punct} {f : Bool → Parser β} (hyes : Moving (f true))
    (hno : Passing anything (f false)) : Passing next (Parser.skipPunct p >>= f) where
  moving := by
    refine .bind (fun env s => ?_) fun b => ?_
    · rw [Parser.skipPunct_run]
      split
      · exact .quiet ⟨List.tail_suffix _, .refl _, rfl⟩
      · exact .refl s
    · cases b with
      | true => exact hyes
      | false => exact hno.moving
  shorter env s b s' _ h := by
    obtain ⟨skipped, s₁, hrun, hrest⟩ := Parser.bind_ok.1 h
    cases skipped with
    | true =>
      obtain ⟨hkind, htail⟩ := Parser.skipPunct_ok hrun
      obtain ⟨pos, hcons⟩ := eq_cons_of_nextKind hkind nofun
      refine Nat.lt_of_le_of_lt (hyes.length_le hrest) ?_
      rw [htail, hcons]
      exact Nat.lt_succ_self _
    | false =>
      rw [Parser.skipPunct_run] at hrun
      split at hrun
      · cases hrun
      · cases hrun
        exact hno.shorter env _ b s' trivial hrest

/-- Moving past a token that was looked at. -/
theorem seen {t : Token} {kind : TokenKind} (ht : t.kind = kind) (hkind : kind ≠ .eof) :
    Passing (fun k => next k ∧ k = t.kind) Parser.advance := by
  refine advance ?_
  rintro k ⟨-, rfl⟩
  rwa [ht]

end Passing

namespace Parser

variable {α β : Type} {next : TokenKind → Prop}

/-! ## Tokens -/

theorem env_moving : Moving Parser.env :=
  .still fun _ _ => rfl

theorem state_moving : Moving state :=
  .still fun _ _ => rfl

theorem peek_moving : Moving peek :=
  .still fun _ _ => rfl

theorem peekKind_moving (n : Nat) : Moving (peekKind n) :=
  .still fun _ _ => rfl

theorem remaining_moving : Moving remaining :=
  .still fun _ _ => rfl

theorem isNext_moving (kind : TokenKind) : Moving (isNext kind) :=
  .still fun _ _ => rfl

theorem advance_moving : Moving advance :=
  .quiet fun _ _ => ⟨List.tail_suffix _, .refl _, rfl⟩

theorem expect_passing {kind : TokenKind} (hkind : kind ≠ .eof) : Passing next (expect kind) := by
  refine .peek fun t => ?_
  split
  · rename_i ht
    exact .first (.seen (eq_of_beq ht) hkind) fun _ => .pure _
  · exact .expected _

theorem expectPunct_passing (p : Punct) : Passing next (expectPunct p) :=
  .first (expect_passing nofun) fun _ => .pure _

theorem expectKeyword_passing (k : Keyword) : Passing next (expectKeyword k) :=
  expect_passing nofun

theorem expectPunct_moving (p : Punct) : Moving (expectPunct p) :=
  (expectPunct_passing p : Passing anything _).moving

theorem expectKeyword_moving (k : Keyword) : Moving (expectKeyword k) :=
  (expectKeyword_passing k : Passing anything _).moving

theorem skipPunct_moving (p : Punct) : Moving (skipPunct p) := by
  refine .bind (isNext_moving _) fun _ => ?_
  split
  · exact .bind advance_moving fun _ => .pure _
  · exact .pure _

/-! ## Repetition -/

section

variable {step : β → Parser β}

theorem untilFuel_moving {stop : Parser Bool} (hstop : Moving stop) (hstep : ∀ b, Moving (step b)) :
    ∀ (fuel : Nat) (b : β), Moving (untilFuel stop step fuel b)
  | 0, b => .pure b
  | fuel + 1, b => by
    refine .bind hstop fun _ => ?_
    split
    · exact .pure b
    · exact .bind (hstep b) fun b' => untilFuel_moving hstop hstep fuel b'

theorem untilClose_moving (close : Punct) (hstep : ∀ b, Moving (step b)) (b : β) :
    Moving (untilClose close step b) :=
  .bind remaining_moving fun _ =>
    untilFuel_moving (.bind peek_moving fun _ => .pure _) hstep _ b

theorem commaFuel_moving (close : Punct) (hstep : ∀ b, Moving (step b)) :
    ∀ (fuel : Nat) (b : β), Moving (commaFuel close step fuel b)
  | 0, b => .pure b
  | fuel + 1, b => by
    refine .bind (isNext_moving _) fun _ => ?_
    split
    · exact .pure b
    · refine .bind (hstep b) fun b' => .bind (skipPunct_moving .comma) fun _ => ?_
      split
      · exact commaFuel_moving close hstep fuel b'
      · exact .pure b'

theorem commaList_moving (close : Punct) (hstep : ∀ b, Moving (step b)) (b : β) :
    Moving (commaList close step b) :=
  .bind remaining_moving fun _ => commaFuel_moving close hstep _ b

end

/-! ## Scopes -/

theorem inScope_moving {kind : ScopeKind} {p : Parser α} (hkind : kind ≠ .file) (hp : Moving p) :
    Moving (inScope kind p) :=
  fun env s => .inside hkind (hp env (s.enter env kind))

end Parser

end Source

end Scaffold
