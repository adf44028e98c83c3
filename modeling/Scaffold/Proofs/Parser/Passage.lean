import Scaffold.Proofs.Parser.Framed

/-!
# What a parser does on its way

Three things are known of every parser inside a declaration, whatever it parses: it keeps apart from
other files (`Apart`), it does nothing but move (`Moving`), and what it does depends on the tokens
that it passes alone (`Framed`). `Passage` says all three of a parser between two places of a
declaration, and has one rule for each thing that parsers are made of. So every parser is gone through
once, in the two modules after this one.

* `Passage c n next σ p τ`: with `n` the parser also passes a token at least. The condition `c` is there
  for expressions with operators other than those of the language, which nothing but moving is asked of.
* `Idle p`: the parser passes none, so it may stand behind the last token of a declaration.
* `Level`, `InBraces`, `Whole`: parsers that leave the declaration where it is, that stay in the braces
  they stand in, and that end what they read.
-/

namespace Scaffold.Source

/-! ## Places -/

/-- The token is neither the end mark nor the word of an import. -/
def Passable : TokenKind → Prop
  | .eof | .keyword .importKw => False
  | _ => True

theorem Passable.ne_eof {kind : TokenKind} (h : Passable kind) : kind ≠ .eof := by
  rintro rfl
  exact h

namespace Scan

/-- A parenthesis may be open at this place; behind a declaration none is. -/
def within (τ : Option Scan) : Bool :=
  τ.elim false Scan.inside

variable {σ : Scan} {τ : Option Scan} {kind : TokenKind}

/-- In parentheses every token but the closing one leads to a place in parentheses. -/
theorem Steps.inside (h : σ.Steps kind τ) (hclose : kind ≠ .punct .parenClose)
    (hinside : σ.inside = true) : within τ = true := by
  obtain ⟨inside, depth⟩ := σ
  obtain rfl : inside = true := hinside
  have hnext : ∃ depth', (⟨true, depth⟩ : Scan).next kind = some ⟨true, depth'⟩ := by
    cases kind with
    | punct p => cases p <;> first | exact ⟨depth, rfl⟩ | exact absurd rfl hclose
    | _ => exact ⟨depth, rfl⟩
  obtain ⟨depth', hnext⟩ := hnext
  have hle := h _ (.refl _)
  rw [hnext] at hle
  cases hle with
  | some hle => exact hle.2 rfl

/-- What is known of the import statements ahead is still known behind a token that leads from one
place to the other. -/
theorem Steps.ahead {next : TokenKind → Prop} {ws : List String} {ts : List Token}
    (h : σ.Steps kind τ) (hkind : Passable kind) (hnext : nextKind ts = kind)
    (hts : Ahead σ.inside next ws ts) : Ahead (within τ) anything ws ts.tail := by
  have hstatements := hts.statements
  by_cases hopen : kind = .punct .parenOpen
  · subst hopen
    rw [Parser.importStatements_open hnext, Parser.importStatements_open hnext] at hstatements
    have hwithin : within τ = true := by
      have hle := h _ (.refl _)
      cases hle with
      | some hle => exact hle.2 rfl
    exact ⟨.inr ⟨hwithin, hstatements.elim id (·.2)⟩, trivial⟩
  by_cases hclose : kind = .punct .parenClose
  · subst hclose
    rw [Parser.importStatements_close hnext, Parser.importStatements_close hnext] at hstatements
    exact ⟨.inl (hstatements.elim id (·.2)), trivial⟩
  have hplain : IsPlain kind := by
    cases kind with
    | punct p => cases p <;> trivial
    | keyword k => cases k <;> trivial
    | eof => exact hkind
    | _ => trivial
  have htail : Ahead σ.inside anything ws ts.tail :=
    Ahead.tail ⟨hstatements, hnext⟩ fun k (hk : k = kind) => hk ▸ hplain
  cases hinside : σ.inside with
  | false =>
    rw [hinside] at htail
    exact htail.outside
  | true =>
    rw [h.inside hclose hinside, ← hinside]
    exact htail

end Scan

/-! ## Parsers that pass no token -/

/-- The parser neither looks at the tokens nor moves past any, and whatever else it does has nothing to
do with other files. -/
structure Idle {α : Type} (p : Parser α) : Prop where
  untouched : Untouched p
  apart : ∀ P : List Token → Prop, Apart P p P
  moving : Moving p

namespace Idle

variable {α β : Type} {p : Parser α} {f : α → Parser β}

theorem pure (a : α) : Idle (Pure.pure a : Parser α) :=
  ⟨.pure a, fun _ => .pure a, .pure a⟩

theorem bind (hp : Idle p) (hf : ∀ a, Idle (f a)) : Idle (p >>= f) :=
  ⟨hp.untouched.bind fun a => (hf a).untouched, fun P => (hp.apart P).bind fun a => (hf a).apart P,
    hp.moving.bind fun a => (hf a).moving⟩

theorem tame (hp : Idle p) : Tame p :=
  fun _ => hp.apart _

end Idle

/-! ## Passages -/

/-- Where the next token is of such a kind, the parser passes tokens that lead from the first place to
the second one, and what it does depends on these alone; it keeps apart from other files, and does
nothing but move. With `n` it passes a token at least. Of the places and files this is said under the
condition `c` only. -/
structure Passage {α : Type} (c : Prop) (n : Bool) (next : TokenKind → Prop) (σ : Scan) (p : Parser α)
    (τ : Option Scan) : Prop where
  framed : c → Framed next σ p τ
  apart : c → ∀ ws, Apart (Ahead σ.inside next ws) p (Ahead (Scan.within τ) anything ws)
  moving : Moving p
  passing : n = true → Passing next p

namespace Passage

variable {α β : Type} {c : Prop} {n : Bool} {next : TokenKind → Prop} {σ σ' : Scan}
  {τ : Option Scan} {p : Parser α} {f : α → Parser β}

theorem expected (what : String) : Passage c n next σ (Parser.expected what : Parser α) τ :=
  ⟨fun _ => .expected what, fun _ _ => Parser.expected_apart what, .expected what,
    fun _ => .expected what⟩

theorem idle (hp : Idle p) : Passage c false next σ p (some σ) where
  framed _ := hp.untouched.framed
  apart _ _ := (hp.apart _).mono (fun _ => id) fun _ => Ahead.forget
  moving := hp.moving
  passing h := Bool.noConfusion h

theorem pure (a : α) : Passage c false next σ (Pure.pure a : Parser α) (some σ) :=
  idle (.pure a)

/-- What is known of the next token may be forgotten. -/
theorem forget (h : Passage c n anything σ p τ) : Passage c n next σ p τ where
  framed hc := (h.framed hc).forget
  apart hc ws := (h.apart hc ws).mono (fun _ => Ahead.forget) fun _ => id
  moving := h.moving
  passing hn := ⟨h.moving, fun env s a s' _ => (h.passing hn).shorter env s a s' trivial⟩

/-- Under no condition at all only the passing is asked for. -/
theorem of_passing (hp : Passing anything p) : Passage False n next σ p τ :=
  ⟨False.elim, False.elim, hp.moving, fun _ => ⟨hp.moving, fun env s a s' _ =>
    hp.shorter env s a s' trivial⟩⟩

/-- No parenthesis is open, whether one may be or not. -/
theorem settled (h : Passage c n next σ p (some ⟨false, σ'.depth⟩)) :
    Passage c n next σ p (some σ') where
  framed hc := (h.framed hc).settled
  apart hc ws := (h.apart hc ws).mono (fun _ => id) fun _ => Ahead.outside
  moving := h.moving
  passing := h.passing

/-- That a token is passed may be forgotten. -/
theorem lax (h : Passage c n next σ p τ) : Passage c false next σ p τ :=
  ⟨h.framed, h.apart, h.moving, nofun⟩

theorem bind (hp : Passage c false next σ p (some σ')) (hf : ∀ a, Passage c n anything σ' (f a) τ) :
    Passage c n next σ (p >>= f) τ where
  framed hc := (hp.framed hc).bind fun a => (hf a).framed hc
  apart hc ws := (hp.apart hc ws).bind fun a => (hf a).apart hc ws
  moving := hp.moving.bind fun a => (hf a).moving
  passing hn := .later hp.moving fun a => (hf a).passing hn

/-- What passes a token comes first. -/
theorem first (hp : Passage c true next σ p (some σ'))
    (hf : ∀ a, Passage c false anything σ' (f a) τ) : Passage c n next σ (p >>= f) τ where
  framed hc := (hp.framed hc).bind fun a => (hf a).framed hc
  apart hc ws := (hp.apart hc ws).bind fun a => (hf a).apart hc ws
  moving := hp.moving.bind fun a => (hf a).moving
  passing _ := .first (hp.passing rfl) fun a => (hf a).moving

/-- What comes behind the last token of a declaration may not even look at other tokens. -/
theorem last (h : Passage c n next σ p τ) (hf : ∀ a, Idle (f a)) :
    Passage c n next σ (p >>= f) τ where
  framed hc := (h.framed hc).last fun a => (hf a).untouched
  apart hc ws := (h.apart hc ws).bind fun a => (hf a).apart _
  moving := h.moving.bind fun a => (hf a).moving
  passing hn := .first (h.passing hn) fun a => (hf a).moving

theorem andPure (h : Passage c n next σ p τ) (g : α → β) :
    Passage c n next σ (p >>= fun a => Pure.pure (g a)) τ :=
  h.last fun a => .pure (g a)

/-- A look at the next token comes first, which tells something of its kind. -/
theorem look {g : List Token → α} (told : α → TokenKind → Prop)
    (hp : ∀ env s, p env s = (.ok (g (s.rest.take 1)), s))
    (htold : ∀ ts, told (g (ts.take 1)) (nextKind ts))
    (hf : ∀ a, Passage c n (fun kind => next kind ∧ told a kind) σ (f a) τ) :
    Passage c n next σ (p >>= f) τ where
  framed hc := .look told hp htold fun a => (hf a).framed hc
  apart hc ws := Parser.look_apart
    (fun ts => ⟨g (ts.take 1), htold ts, fun env s hs => hs ▸ hp env s⟩) fun a => (hf a).apart hc ws
  moving := .bind (.still fun env s => by rw [hp]) fun a => (hf a).moving
  passing hn := .look told (fun env s => ⟨_, htold s.rest, hp env s⟩) fun a => (hf a).passing hn

theorem peek {f : Token → Parser β}
    (h : ∀ t, Passage c n (fun kind => next kind ∧ kind = t.kind) σ (f t) τ) :
    Passage c n next σ (Parser.peek >>= f) τ :=
  look (g := fun ts => ts.headD ⟨.eof, {}⟩) (fun t kind => kind = t.kind) Parser.peek_take
    nextKind_headD_take h

theorem isNext {kind : TokenKind} {f : Bool → Parser β}
    (h : ∀ b, Passage c n (fun k => next k ∧ (b = true → k = kind)) σ (f b) τ) :
    Passage c n next σ (Parser.isNext kind >>= f) τ :=
  look (g := fun ts => nextKind ts == kind) (fun b k => b = true → k = kind)
    (Parser.isNext_take kind) (eq_of_isNext_take kind) h

/-- What is passed is told by the kind of the next token. -/
theorem advance (hend : ∀ kind, next kind → kind ≠ .eof)
    (h : c → ∀ kind, next kind → Passable kind ∧ σ.Steps kind τ) :
    Passage c n next σ Parser.advance τ where
  framed hc := .advance fun kind hkind => ⟨hend kind hkind, (h hc kind hkind).2⟩
  apart hc _ := Parser.advance_of fun _ hts =>
    (h hc _ hts.next).2.ahead (h hc _ hts.next).1 rfl hts
  moving := Parser.advance_moving
  passing _ := .advance hend

/-- What is passed is a token of this kind. -/
theorem advanceOver {kind : TokenKind} (hkind : Passable kind) (h : σ.Steps kind τ)
    (hnext : ∀ k, next k → k = kind) : Passage c n next σ Parser.advance τ :=
  advance (fun k hk => hnext k hk ▸ hkind.ne_eof) fun _ k hk => hnext k hk ▸ ⟨hkind, h⟩

/-- Moving past a token that was looked at. -/
theorem seen {t : Token} {kind : TokenKind} (ht : t.kind = kind) (hkind : Passable kind)
    (h : σ.Steps kind τ) : Passage c n (fun k => next k ∧ k = t.kind) σ Parser.advance τ :=
  advanceOver hkind h fun _ hk => hk.2.trans ht

/-- Moving past a token that was asked for. -/
theorem asked {b : Bool} {kind : TokenKind} (hb : b = true) (hkind : Passable kind)
    (h : σ.Steps kind τ) :
    Passage c n (fun k => next k ∧ (b = true → k = kind)) σ Parser.advance τ :=
  advanceOver hkind h fun _ hk => hk.2 hb

theorem expect {kind : TokenKind} (hkind : Passable kind) (h : σ.Steps kind τ) :
    Passage c n next σ (Parser.expect kind) τ := by
  refine peek fun t => ?_
  split
  · rename_i ht
    exact (seen (eq_of_beq ht) hkind h).andPure fun _ => t.pos
  · exact expected _

theorem expectPunct {sign : Punct} (h : σ.Steps (.punct sign) τ) :
    Passage c n next σ (Parser.expectPunct sign) τ :=
  (expect (show Passable (.punct sign) from trivial) h).andPure fun _ => ()

/-- After an opening parenthesis one may be open. -/
theorem opened {f : Unit → Parser β} (h : ∀ u, Passage c false anything ⟨true, σ.depth⟩ (f u) τ) :
    Passage c n next σ (Parser.expectPunct .parenOpen >>= f) τ :=
  .first (expectPunct σ.steps_open) h

/-- After a closing parenthesis none is open. -/
theorem closed {f : Unit → Parser β} (h : ∀ u, Passage c false anything ⟨false, σ.depth⟩ (f u) τ) :
    Passage c n next σ (Parser.expectPunct .parenClose >>= f) τ :=
  .first (expectPunct σ.steps_close) h

/-- A sign is passed if it stands next. -/
theorem passed {sign : Punct} {f : Bool → Parser β}
    (hyes : Passage c n (· = .punct sign) σ (Parser.advance >>= fun _ => f true) τ)
    (hno : Passage c n anything σ (f false) τ) : Passage c n next σ (Parser.skipPunct sign >>= f) τ where
  framed hc := .passed (hyes.framed hc) (hno.framed hc)
  apart hc ws := by
    rw [Parser.skipPunct_bind]
    refine Parser.isNext_apart fun skipped => ?_
    cases skipped with
    | true => exact (hyes.apart hc ws).mono (fun _ h => ⟨h.statements, h.next.2 rfl⟩) fun _ => id
    | false => exact (hno.apart hc ws).mono (fun _ => Ahead.forget) fun _ => id
  moving := by
    rw [Parser.skipPunct_bind]
    refine .bind (Parser.isNext_moving _) fun skipped => ?_
    cases skipped with
    | true => exact hyes.moving
    | false => exact hno.moving
  passing hn := by
    rw [Parser.skipPunct_bind]
    refine .isNext fun skipped => ?_
    cases skipped with
    | true => exact ⟨hyes.moving, fun env s a s' h => (hyes.passing hn).shorter env s a s' (h.2 rfl)⟩
    | false => exact ⟨hno.moving, fun env s a s' _ => (hno.passing hn).shorter env s a s' trivial⟩

/-- A sign may be passed. -/
theorem skipPunct {sign : Punct} {f : Bool → Parser β} (h : σ.Steps (.punct sign) (some σ'))
    (hyes : Passage c false anything σ' (f true) τ) (hno : Passage c n anything σ (f false) τ) :
    Passage c n next σ (Parser.skipPunct sign >>= f) τ := by
  refine passed (.first (advanceOver ?_ h fun _ => id) fun _ => hyes) hno
  trivial

/-- What follows depends on the state but not on its tokens, nor on the target. -/
theorem state {f : ParserState → Parser β} (hf : ∀ s, Passage c n next σ (f s) τ)
    (hrest : ∀ s ts, f { s with rest := ts } = f s)
    (honto : ∀ s platform, f (s.onto platform) = f s) :
    Passage c n next σ (Parser.state >>= f) τ where
  framed hc := .state (fun s => (hf s).framed hc) hrest
  apart hc ws := Parser.state_apart (fun s => (hf s).apart hc ws) honto
  moving := .bind Parser.state_moving fun s => (hf s).moving
  passing hn := ⟨.bind Parser.state_moving fun s => (hf s).moving,
    fun env s a s' hnext h => ((hf s).passing hn).shorter env s a s' hnext h⟩

/-- Work in a scope of its own passes the same tokens. -/
theorem inScope {kind : ScopeKind} (hkind : kind ≠ .file) (h : Passage c n next σ p τ) :
    Passage c n next σ (Parser.inScope kind p) τ where
  framed hc := (h.framed hc).inScope
  apart hc ws := Parser.inScope_apart kind (h.apart hc ws)
  moving := Parser.inScope_moving hkind h.moving
  passing hn := by
    refine ⟨Parser.inScope_moving hkind h.moving, ?_⟩
    rintro env s ⟨id, a⟩ s' hnext hrun
    obtain ⟨rfl, s₁, hinner, rfl⟩ := Parser.inScope_ok hrun
    exact (h.passing hn).shorter env (s.enter env kind) a s₁ hnext hinner

/-- Rounds for which the tokens that are left are fuel enough. -/
theorem rounds {p : Nat → Parser α} (hfree : FuelFree p) (hp : ∀ fuel, Passage c n next σ (p fuel) τ) :
    Passage c n next σ (Parser.remaining >>= fun left => p (left + 1)) τ where
  framed hc := .rounds hfree fun fuel => (hp fuel).framed hc
  apart hc ws := .bind Parser.remaining_apart fun left => (hp (left + 1)).apart hc ws
  moving := .bind Parser.remaining_moving fun left => (hp (left + 1)).moving
  passing hn := ⟨.bind Parser.remaining_moving fun left => (hp (left + 1)).moving,
    fun env s a s' hnext h => ((hp (s.rest.length + 1)).passing hn).shorter env s a s' hnext h⟩

/-- Rounds come first for which the tokens that are left are fuel enough. -/
theorem roundsFirst {p : Nat → Parser α} (hfree : FuelFree p)
    (hp : ∀ fuel, Passage c false next σ (p fuel) (some σ')) (hf : ∀ a, Passage c n anything σ' (f a) τ) :
    Passage c n next σ (Parser.remaining >>= fun left => p (left + 1) >>= f) τ :=
  (rounds hfree hp).bind hf

/-! ## Repetition -/

theorem untilFuel {stop : Parser Bool} {step : β → Parser β} {g : List Token → Bool}
    (hstop : ∀ env s, stop env s = (.ok (g (s.rest.take 1)), s))
    (hstep : ∀ b, Passage c true anything σ (step b) (some σ)) : ∀ (fuel : Nat) (b : β) (next : TokenKind → Prop),
    Passage c false next σ (Parser.untilFuel stop step fuel b) (some σ)
  | 0, b, _ => pure b
  | fuel + 1, b, next => by
    refine look (fun _ _ => True) hstop (fun _ => trivial) fun ended => ?_
    split
    · exact pure b
    · exact forget (first (hstep b) fun b' => untilFuel hstop hstep fuel b' _)

theorem untilClose {close : Punct} {step : β → Parser β} {b : β}
    (hstep : ∀ b, Passage c true anything σ (step b) (some σ)) :
    Passage c false next σ (Parser.untilClose close step b) (some σ) := by
  have hstop : ∀ env s, Parser.atClose close env s
      = (.ok ((fun ts => nextKind ts == .punct close || nextKind ts == .eof) (s.rest.take 1)), s) := by
    intro env s
    dsimp only
    rw [nextKind_take]
    rfl
  refine rounds (Parser.untilClose_round close (fun b => ((hstep b).forget.passing rfl)) b) fun fuel => ?_
  exact untilFuel (g := fun ts => nextKind ts == .punct close || nextKind ts == .eof) hstop hstep fuel b _

theorem commaFuel {close : Punct} {step : β → Parser β}
    (hstep : ∀ b, Passage c true anything σ (step b) (some σ)) : ∀ (fuel : Nat) (b : β) (next : TokenKind → Prop),
    Passage c false next σ (Parser.commaFuel close step fuel b) (some σ)
  | 0, b, _ => pure b
  | fuel + 1, b, next => by
    refine isNext fun closed => ?_
    split
    · exact pure b
    · refine forget (first (hstep b) fun b' => skipPunct (.plain (fun _ => rfl) σ) ?_ (pure b'))
      exact commaFuel hstep fuel b' _

theorem commaList {close : Punct} {step : β → Parser β} {b : β}
    (hstep : ∀ b, Passage c true anything σ (step b) (some σ)) :
    Passage c false next σ (Parser.commaList close step b) (some σ) :=
  rounds (.of_agree fun n fuel fuel' h h' =>
      Parser.commaFuel_agree close (fun b => (hstep b).passing rfl) n fuel fuel' h h' b)
    fun fuel => commaFuel hstep fuel b _

end Passage

/-! ## From one place to another -/

/-- The parser leaves the declaration where it is. -/
def Level {α : Type} (c : Prop) (n : Bool) (p : Parser α) : Prop :=
  ∀ next σ, Passage c n next σ p (some σ)

/-- The parser stays in the braces that it stands in. -/
def InBraces {α : Type} (n : Bool) (p : Parser α) : Prop :=
  ∀ next d, Passage True n next ⟨false, d + 1⟩ p (some ⟨false, d + 1⟩)

/-- The parser reads a declaration to its end, or a member of one. -/
def Whole {α : Type} (p : Parser α) : Prop :=
  ∀ next d, Passage True true next ⟨false, d⟩ p (Scan.behind d)

section

variable {α : Type} {next : TokenKind → Prop} {p : Parser α}

theorem Idle.level {c : Prop} (hp : Idle p) : Level c false p :=
  fun _ _ => .idle hp

namespace Level

/-- Without anything said about the places. -/
theorem loose {c : Prop} {n : Bool} (hp : Level c n p) : Level False n p :=
  fun next σ => ⟨False.elim, False.elim, (hp next σ).moving, (hp next σ).passing⟩

theorem tame (hp : Level True false p) : Tame p :=
  (hp anything {}).apart trivial

theorem framed (hp : Level True false p) {σ : Scan} : Framed next σ p (some σ) :=
  (hp next σ).framed trivial

theorem moving (hp : Level False false p) : Moving p :=
  (hp anything {}).moving

theorem passing (hp : Level False true p) : Passing next p :=
  (hp next {}).passing rfl

end Level

namespace InBraces

theorem moving (hp : InBraces false p) : Moving p :=
  (hp anything 0).moving

theorem passing (hp : InBraces true p) : Passing next p :=
  (hp next 0).passing rfl

end InBraces

namespace Whole

theorem tame (hp : Whole p) : Tame p :=
  (hp anything 0).apart trivial

theorem moving (hp : Whole p) : Moving p :=
  (hp anything 0).moving

theorem framed (hp : Whole p) {d : Nat} : Framed next ⟨false, d⟩ p (Scan.behind d) :=
  (hp next d).framed trivial

theorem passing (hp : Whole p) : Passing next p :=
  (hp next 0).passing rfl

end Whole

end

namespace Passage

variable {α β : Type} {c : Prop} {n : Bool} {next : TokenKind → Prop} {σ : Scan} {τ : Option Scan}
  {p : Parser α} {f : α → Parser β}

/-- A parser that leaves the declaration where it is comes first. -/
theorem step (hp : Level c false p) (hf : ∀ a, Passage c n anything σ (f a) τ) :
    Passage c n next σ (p >>= f) τ :=
  (hp next σ).bind hf

/-- A parser that leaves the declaration where it is comes first, and passes a token. -/
theorem start (hp : Level c true p) (hf : ∀ a, Passage c false anything σ (f a) τ) :
    Passage c n next σ (p >>= f) τ :=
  (hp next σ).first hf

end Passage

namespace Parser

variable {c : Prop} {n : Bool}

/-! ## Tokens -/

theorem pure_level {α : Type} (a : α) : Level c false (pure a : Parser α) :=
  fun _ _ => .pure a

theorem expect_level {kind : TokenKind} (hkind : Passable kind)
    (h : ∀ σ : Scan, σ.next kind = some σ) : Level c n (expect kind) :=
  fun _ σ => .expect hkind (.plain h σ)

theorem expectKeyword_level {k : Keyword} (hk : Passable (.keyword k)) :
    Level c n (expectKeyword k) :=
  expect_level hk fun _ => rfl

theorem ident_level : Level c n ident := by
  intro next σ
  refine .peek fun t => ?_
  split
  · rename_i ht
    exact .andPure (.seen ht trivial (.plain (fun _ => rfl) σ)) _
  · exact .expected _

theorem quoted_level : Level c n quoted := by
  intro next σ
  refine .peek fun t => ?_
  split
  · rename_i ht
    exact .andPure (.seen ht trivial (.plain (fun _ => rfl) σ)) _
  · exact .expected _

theorem integer_level : Level c n integer := by
  intro next σ
  refine .peek fun t => ?_
  split
  · rename_i ht
    exact .andPure (.seen ht trivial (.plain (fun _ => rfl) σ)) _
  · exact .expected _

theorem skipPunct_level {sign : Punct} (h : ∀ σ : Scan, σ.next (.punct sign) = some σ) :
    Level c false (skipPunct sign) := by
  intro next σ
  refine .isNext fun b => ?_
  split
  · rename_i hb
    exact .andPure (.asked hb (show Passable (.punct sign) from trivial) (.plain h σ)) _
  · exact .pure _

theorem expectSemicolon {next : TokenKind → Prop} {d : Nat} :
    Passage c n next ⟨false, d⟩ (expectPunct .semicolon) (Scan.behind d) :=
  .expectPunct (.outside rfl)

theorem expectSemicolon_framed {next : TokenKind → Prop} {d : Nat} :
    Framed next ⟨false, d⟩ (expectPunct .semicolon) (Scan.behind d) :=
  (expectSemicolon : Passage True true _ _ _ _).framed trivial

/-! ## Names and reports -/

theorem invalid_idle (pos : Position) (declaration reason : String) :
    Idle (invalid pos declaration reason) where
  untouched _ _ _ := rfl
  apart _ := .of_fixed (fun _ _ _ => rfl) (fun _ _ _ => rfl) fun _ _ =>
    ⟨_, _, rfl, rfl, rfl, rfl, ⟨rfl, rfl⟩, Nat.le_refl _⟩
  moving := .quiet fun _ _ => ⟨List.suffix_refl _, ⟨rfl, rfl, _, rfl, rfl⟩, rfl⟩

theorem takeSeq_idle : Idle takeSeq where
  untouched _ _ _ := rfl
  apart _ := .of_fixed (fun _ _ _ => rfl) (fun _ _ _ => rfl) fun _ _ =>
    ⟨_, _, rfl, rfl, rfl, rfl, .refl _, Nat.le_refl _⟩
  moving := .quiet fun _ s => ⟨List.suffix_refl _, .refl s.session, rfl⟩

theorem nameRef_idle (name : String) (pos : Position) : Idle (nameRef name pos) where
  untouched _ _ _ := rfl
  apart _ := .of_fixed (fun _ _ _ => rfl) (fun _ _ _ => rfl) fun _ _ =>
    ⟨_, _, rfl, rfl, rfl, rfl, .refl _, Nat.le_refl _⟩
  moving := .quiet fun _ s => ⟨List.suffix_refl _, .refl s.session, rfl⟩

theorem own_idle (id : NodeId) : Idle (change fun s => { s with owner := id }) where
  untouched _ _ _ := rfl
  apart _ := .of_fixed (fun _ _ _ => rfl) (fun _ _ _ => rfl) fun _ _ =>
    ⟨_, _, rfl, rfl, rfl, rfl, .refl _, Nat.le_refl _⟩
  moving := .quiet fun _ s => ⟨List.suffix_refl _, .refl s.session, rfl⟩

theorem files_declare (t : SymbolTable) (scope : ScopeId) (symbol : Symbol) :
    (t.declare scope symbol).2.files = t.files := by
  unfold SymbolTable.declare
  split
  · rfl
  · rfl

/-- A name is declared the same way for every target, and no file is touched. -/
theorem declare_apart (name : String) (kind : SymbolKind) (pos : Position) (node : NodeId)
    (P : List Token → Prop) : Apart P (declare name kind pos node true) P := by
  refine .of_fixed (fun _ _ _ => rfl) (fun env platform s => ?_) fun env s =>
    ⟨_, _, declare_true _ _ _ _ env s, rfl, ?_⟩
  · have hscope : (s.onto platform).scope env = s.scope env := rfl
    have hsymbol : (s.onto platform).symbol env name kind pos node
      = s.symbol env name kind pos node := rfl
    have htable : (s.onto platform).session.symbols = s.session.symbols := rfl
    rw [declare_true, declare_true, hscope, hsymbol, htable]
    rcases s.session.symbols.declare (s.scope env) (s.symbol env name kind pos node)
      with ⟨_ | _, _⟩ <;> rfl
  have hfiles := files_declare s.session.symbols (s.scope env) (s.symbol env name kind pos node)
  dsimp only
  split
  · rename_i heq
    rw [heq] at hfiles
    exact ⟨rfl, rfl, ⟨rfl, hfiles⟩, Nat.le_refl _⟩
  · exact ⟨rfl, rfl, ⟨rfl, rfl⟩, Nat.le_refl _⟩

theorem declare_idle (name : String) (kind : SymbolKind) (pos : Position) (node : NodeId)
    (active : Bool) : Idle (declare name kind pos node active) := by
  cases active with
  | false => exact .pure ()
  | true =>
    refine ⟨fun env s ts => ?_, declare_apart name kind pos node,
      fun env s => .declare s name kind pos node⟩
    rw [declare_true, declare_true]
    rfl

/-- Some of the names are reported. -/
theorem reports_idle {b : String → Bool} {pos : Position} {declaration : String}
    {reason : String → String} : ∀ (names : List String) (u : PUnit),
    Idle (forIn names u fun name _ => if b name = true then do
      invalid pos declaration (reason name)
      pure (ForInStep.yield PUnit.unit)
    else pure (ForInStep.yield PUnit.unit))
  | [], u => .pure u
  | name :: names, u => by
    rw [List.forIn_cons]
    refine .bind ?_ fun r => ?_
    · split
      · exact .bind (invalid_idle _ _ _) fun _ => .pure _
      · exact .pure _
    · cases r with
      | done u => exact .pure u
      | yield u => exact reports_idle names u

end Parser

end Scaffold.Source
