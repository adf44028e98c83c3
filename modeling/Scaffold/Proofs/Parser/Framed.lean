import Scaffold.Proofs.Erasure
import Scaffold.Proofs.Parser.Progress

/-!
# What follows a declaration does not matter

A parser that succeeds has passed some tokens, and it does the same in front of other tokens, if there
are not more of them. Where it could still go on, the next token has to be the same; a declaration
has come to its end, and anything may follow.

* `Framed next σ p τ`: this of a parser, with what is known of the next token, and with the places
  that its tokens lead from and to.
* `Untouched p`: the parser neither looks at the tokens nor moves past any, so it may stand behind the
  last one of a declaration.
-/

namespace Scaffold.Source

/-! ## Places -/

namespace Scan

/-- Of two readers at one depth, the second may be in parentheses where the first is. -/
def Le (σ₀ σ : Scan) : Prop :=
  σ₀.depth = σ.depth ∧ (σ₀.inside = true → σ.inside = true)

theorem Le.refl (σ : Scan) : σ.Le σ :=
  ⟨rfl, id⟩

theorem Le.trans {σ σ' σ'' : Scan} (h : σ.Le σ') (h' : σ'.Le σ'') : σ.Le σ'' :=
  ⟨h.1.trans h'.1, h'.2 ∘ h.2⟩

/-- A reader outside of parentheses is below any other at its depth. -/
theorem outside_le (σ : Scan) : (⟨false, σ.depth⟩ : Scan).Le σ :=
  ⟨rfl, nofun⟩

theorem eq_of_le_outside {σ : Scan} {d : Nat} (h : σ.Le ⟨false, d⟩) : σ = ⟨false, d⟩ := by
  obtain ⟨inside, depth⟩ := σ
  obtain ⟨rfl, hinside⟩ := h
  cases inside with
  | false => rfl
  | true => cases hinside rfl

/-- A token of this kind leads every reader below the first place below the second one. -/
def Steps (σ : Scan) (kind : TokenKind) (τ : Option Scan) : Prop :=
  ∀ σ₀ : Scan, σ₀.Le σ → Option.Rel Le (σ₀.next kind) τ

/-- The tokens lead every reader below the first place below the second one. -/
def Covers (σ : Scan) (ts : List Token) (τ : Option Scan) : Prop :=
  ∀ σ₀ : Scan, σ₀.Le σ → ∃ τ₀, σ₀.Leads ts τ₀ ∧ Option.Rel Le τ₀ τ

theorem Steps.plain {kind : TokenKind} (h : ∀ σ : Scan, σ.next kind = some σ) (σ : Scan) :
    σ.Steps kind (some σ) := by
  intro σ₀ hle
  rw [h]
  exact .some hle

theorem steps_open (σ : Scan) : σ.Steps (.punct .parenOpen) (some ⟨true, σ.depth⟩) :=
  fun _ hle => .some ⟨hle.1, fun _ => rfl⟩

theorem steps_close (σ : Scan) : σ.Steps (.punct .parenClose) (some ⟨false, σ.depth⟩) :=
  fun _ hle => .some ⟨hle.1, nofun⟩

/-- Outside of parentheses it is known where a token leads. -/
theorem Steps.outside {d : Nat} {kind : TokenKind} {τ : Option Scan}
    (h : (⟨false, d⟩ : Scan).next kind = τ) : (⟨false, d⟩ : Scan).Steps kind τ := by
  intro σ₀ hle
  obtain rfl := eq_of_le_outside hle
  rw [h]
  cases τ with
  | none => exact .none
  | some σ => exact .some (.refl σ)

namespace Covers

variable {σ σ' : Scan} {ts ts' : List Token} {τ τ' : Option Scan}

theorem nil (σ : Scan) : σ.Covers [] (some σ) :=
  fun σ₀ hle => ⟨_, .nil σ₀, .some hle⟩

theorem append (h : σ.Covers ts (some σ')) (h' : σ'.Covers ts' τ) : σ.Covers (ts ++ ts') τ := by
  intro σ₀ hle
  obtain ⟨τ₀, hleads, hτ₀⟩ := h σ₀ hle
  cases hτ₀ with
  | @some σ₁ _ hle₁ =>
    obtain ⟨τ₁, hleads', hτ₁⟩ := h' σ₁ hle₁
    exact ⟨τ₁, hleads.append hleads', hτ₁⟩

theorem token {t : Token} (h : σ.Steps t.kind τ) : σ.Covers [t] τ := by
  intro σ₀ hle
  have hnext := h σ₀ hle
  generalize heq : σ₀.next t.kind = τ₀ at hnext
  cases hnext with
  | none => exact ⟨none, .last heq, .none⟩
  | some hle₁ => exact ⟨_, .cons heq (.nil _), .some hle₁⟩

theorem weaken (h : σ.Covers ts (some σ')) {σ'' : Scan} (hle : σ'.Le σ'') :
    σ.Covers ts (some σ'') := by
  intro σ₀ hle₀
  obtain ⟨τ₀, hleads, hτ₀⟩ := h σ₀ hle₀
  cases hτ₀ with
  | some hle₁ => exact ⟨_, hleads, .some (hle₁.trans hle)⟩

/-- No declaration ends where no token is passed. -/
theorem isSome_of_nil (h : σ.Covers [] τ) : τ.isSome = true := by
  obtain ⟨τ₀, hleads, hτ₀⟩ := h σ (.refl σ)
  cases hleads
  cases hτ₀
  rfl

/-- The tokens of a declaration are cut off from those after them. -/
theorem leads {d : Nat} (h : (⟨false, d⟩ : Scan).Covers ts none) :
    (⟨false, d⟩ : Scan).Leads ts none := by
  obtain ⟨τ₀, hleads, hτ₀⟩ := h _ (.refl _)
  cases hτ₀
  exact hleads

end Covers

end Scan

/-! ## Looking at the next token -/

theorem nextKind_take (ts : List Token) : nextKind (ts.take 1) = nextKind ts := by
  cases ts <;> rfl

theorem nextKind_headD_take (ts : List Token) :
    nextKind ts = ((ts.take 1).headD ⟨.eof, {}⟩).kind :=
  (nextKind_take ts).symm

theorem eq_of_isNext_take (kind : TokenKind) (ts : List Token)
    (h : (nextKind (ts.take 1) == kind) = true) : nextKind ts = kind :=
  (nextKind_take ts).symm.trans (beq_iff_eq.1 h)

namespace Parser

variable {β : Type}

theorem peek_take (env : ParserEnv) (s : ParserState) :
    peek env s = (.ok ((s.rest.take 1).headD ⟨.eof, {}⟩), s) := by
  have hrun : peek env s = (.ok (s.rest.headD ⟨.eof, {}⟩), s) := rfl
  rw [hrun]
  cases s.rest <;> rfl

theorem isNext_take (kind : TokenKind) (env : ParserEnv) (s : ParserState) :
    isNext kind env s = (.ok (nextKind (s.rest.take 1) == kind), s) := by
  rw [nextKind_take]
  rfl

/-- A sign is passed if it stands next. -/
theorem skipPunct_bind (sign : Punct) (f : Bool → Parser β) :
    skipPunct sign >>= f = (isNext (.punct sign) >>= fun skipped =>
      if skipped then advance >>= fun _ => f true else f false) := by
  funext env s
  have hrun : isNext (.punct sign) env s = (.ok (nextKind s.rest == .punct sign), s) := rfl
  rw [bind_run hrun]
  by_cases hkind : nextKind s.rest = .punct sign
  · rw [bind_run ((skipPunct_run sign env s).trans (if_pos hkind)), if_pos (beq_iff_eq.2 hkind)]
    rfl
  · rw [bind_run ((skipPunct_run sign env s).trans (if_neg hkind)),
      if_neg (mt beq_iff_eq.1 hkind)]

end Parser

/-! ## Parsers -/

/-- Between the two states the parser passed the tokens `c`, which lead from one place to the other,
and it does the same if other tokens follow. -/
structure Passes {α : Type} (σ : Scan) (p : Parser α) (env : ParserEnv) (s : ParserState) (a : α)
    (s' : ParserState) (τ : Option Scan) (c : List Token) : Prop where
  rest : s.rest = c ++ s'.rest
  covers : σ.Covers c τ
  again : ∀ ts : List Token, ts.length ≤ s'.rest.length →
    (τ.isSome = true → ts.take 1 = s'.rest.take 1) →
    p env { s with rest := c ++ ts } = (.ok a, { s' with rest := ts })

/-- Where the next token is of such a kind, the parser passes tokens that lead from the first place
to the second one, and what it does depends on these alone. -/
def Framed {α : Type} (next : TokenKind → Prop) (σ : Scan) (p : Parser α) (τ : Option Scan) : Prop :=
  ∀ env s a s', next (nextKind s.rest) → p env s = (.ok a, s') → ∃ c, Passes σ p env s a s' τ c

/-- The parser neither looks at the tokens nor moves past any. -/
def Untouched {α : Type} (p : Parser α) : Prop :=
  ∀ env s ts, p env { s with rest := ts } = ((p env s).1, { (p env s).2 with rest := ts })

namespace Untouched

variable {α β : Type} {p : Parser α} {f : α → Parser β}

theorem pure (a : α) : Untouched (Pure.pure a : Parser α) :=
  fun _ _ _ => rfl

theorem bind (hp : Untouched p) (hf : ∀ a, Untouched (f a)) : Untouched (p >>= f) := by
  intro env s ts
  have hfirst := hp env s ts
  rcases hrun : p env s with ⟨e | a, s₁⟩
  · rw [hrun] at hfirst
    rw [Parser.bind_failed hrun, Parser.bind_failed hfirst]
  · rw [hrun] at hfirst
    rw [Parser.bind_run hrun, Parser.bind_run hfirst]
    exact hf a env s₁ ts

theorem rest_eq (hp : Untouched p) {env : ParserEnv} {s s' : ParserState} {r : Except CompileError α}
    (h : p env s = (r, s')) : s'.rest = s.rest := by
  have hsame := hp env s s.rest
  rw [h] at hsame
  exact congrArg (fun r => r.2.rest) hsame

theorem framed (hp : Untouched p) {next : TokenKind → Prop} {σ : Scan} :
    Framed next σ p (some σ) := by
  intro env s a s' _ hrun
  refine ⟨[], (hp.rest_eq hrun).symm, .nil σ, fun ts _ _ => ?_⟩
  rw [List.nil_append, hp, hrun]

end Untouched

namespace Framed

variable {α β : Type} {next : TokenKind → Prop} {σ σ' : Scan} {τ : Option Scan} {p : Parser α}
  {f : α → Parser β}

theorem expected (what : String) : Framed next σ (Parser.expected what : Parser α) τ := by
  intro env s a s' _ h
  cases h

theorem pure (a : α) : Framed next σ (Pure.pure a : Parser α) (some σ) := by
  intro env s b s' _ h
  cases h
  exact ⟨[], rfl, .nil σ, fun _ _ _ => rfl⟩

theorem weaken (h : Framed next σ p (some σ')) {σ'' : Scan} (hle : σ'.Le σ'') :
    Framed next σ p (some σ'') := by
  intro env s a s' hnext hrun
  obtain ⟨c, hrest, hcovers, hagain⟩ := h env s a s' hnext hrun
  exact ⟨c, hrest, hcovers.weaken hle, fun ts hlength hts => hagain ts hlength fun _ => hts rfl⟩

/-- What is known of the next token may be forgotten. -/
theorem forget (h : Framed anything σ p τ) : Framed next σ p τ :=
  fun env s a s' _ => h env s a s' trivial

/-- No parenthesis is open, whether one may be or not. -/
theorem settled (h : Framed next σ p (some ⟨false, σ'.depth⟩)) : Framed next σ p (some σ') :=
  h.weaken σ'.outside_le

/-- The next token is the same in front of the other tokens. -/
theorem take_append {c ts ts' : List Token} (hc : σ.Covers c τ)
    (h : τ.isSome = true → ts.take 1 = ts'.take 1) : (c ++ ts).take 1 = (c ++ ts').take 1 := by
  cases c with
  | nil => exact h hc.isSome_of_nil
  | cons t c => rfl

theorem bind (hp : Framed next σ p (some σ')) (hf : ∀ a, Framed anything σ' (f a) τ) :
    Framed next σ (p >>= f) τ := by
  intro env s b s' hnext h
  obtain ⟨a, s₁, hfirst, hsecond⟩ := Parser.bind_ok.1 h
  obtain ⟨c₁, hrest₁, hcovers₁, hagain₁⟩ := hp env s a s₁ hnext hfirst
  obtain ⟨c₂, hrest₂, hcovers₂, hagain₂⟩ := hf a env s₁ b s' trivial hsecond
  refine ⟨c₁ ++ c₂, ?_, hcovers₁.append hcovers₂, fun ts hlength hts => ?_⟩
  · rw [hrest₁, hrest₂, List.append_assoc]
  · have hlength₁ : (c₂ ++ ts).length ≤ s₁.rest.length := by
      rw [hrest₂, List.length_append, List.length_append]
      exact Nat.add_le_add_left hlength _
    have hts₁ : (c₂ ++ ts).take 1 = s₁.rest.take 1 := by
      rw [hrest₂]
      exact take_append hcovers₂ hts
    rw [List.append_assoc, Parser.bind_run (hagain₁ _ hlength₁ fun _ => hts₁)]
    exact hagain₂ ts hlength hts

/-- A look at the next token comes first, which tells something of its kind. -/
theorem look {g : List Token → α} (told : α → TokenKind → Prop)
    (hp : ∀ env s, p env s = (.ok (g (s.rest.take 1)), s))
    (htold : ∀ ts, told (g (ts.take 1)) (nextKind ts))
    (hf : ∀ a, Framed (fun kind => next kind ∧ told a kind) σ (f a) τ) :
    Framed next σ (p >>= f) τ := by
  intro env s b s' hnext h
  rw [Parser.bind_run (hp env s)] at h
  obtain ⟨c, hrest, hcovers, hagain⟩ := hf _ env s b s' ⟨hnext, htold _⟩ h
  refine ⟨c, hrest, hcovers, fun ts hlength hts => ?_⟩
  rw [Parser.bind_run (hp env _)]
  dsimp only
  rw [take_append hcovers hts, ← hrest]
  exact hagain ts hlength hts

theorem peek {f : Token → Parser β}
    (h : ∀ t, Framed (fun kind => next kind ∧ kind = t.kind) σ (f t) τ) :
    Framed next σ (Parser.peek >>= f) τ :=
  look (g := fun ts => ts.headD ⟨.eof, {}⟩) (fun t kind => kind = t.kind) Parser.peek_take
    nextKind_headD_take h

theorem isNext {kind : TokenKind} {f : Bool → Parser β}
    (h : ∀ b, Framed (fun k => next k ∧ (b = true → k = kind)) σ (f b) τ) :
    Framed next σ (Parser.isNext kind >>= f) τ :=
  look (g := fun ts => nextKind ts == kind) (fun b k => b = true → k = kind)
    (Parser.isNext_take kind) (eq_of_isNext_take kind) h

/-- What is passed is told by the kind of the next token. -/
theorem advance (h : ∀ kind, next kind → kind ≠ .eof ∧ σ.Steps kind τ) :
    Framed next σ Parser.advance τ := by
  intro env s u s' hnext hrun
  cases hrun
  obtain ⟨hend, hsteps⟩ := h _ hnext
  obtain ⟨pos, hcons⟩ := eq_cons_of_nextKind rfl hend
  refine ⟨[⟨nextKind s.rest, pos⟩], hcons, .token hsteps, fun _ _ _ => rfl⟩

/-- Moving past a token that was looked at. -/
theorem passing {t : Token} {kind : TokenKind} (ht : t.kind = kind) (hend : kind ≠ .eof)
    (h : σ.Steps kind τ) : Framed (fun k => next k ∧ k = t.kind) σ Parser.advance τ := by
  refine advance ?_
  rintro k ⟨-, rfl⟩
  rw [ht]
  exact ⟨hend, h⟩

/-- What comes behind the last token of a declaration may not even look at other tokens. -/
theorem last (h : Framed next σ p τ) (hf : ∀ a, Untouched (f a)) : Framed next σ (p >>= f) τ := by
  intro env s b s' hnext hrun
  obtain ⟨a, s₁, hfirst, hsecond⟩ := Parser.bind_ok.1 hrun
  have hrest := (hf a).rest_eq hsecond
  obtain ⟨c, hcons, hcovers, hagain⟩ := h env s a s₁ hnext hfirst
  rw [← hrest] at hcons hagain
  refine ⟨c, hcons, hcovers, fun ts hlength hts => ?_⟩
  rw [Parser.bind_run (hagain ts hlength hts), hf a, hsecond]

theorem andPure (h : Framed next σ p τ) (g : α → β) :
    Framed next σ (p >>= fun a => Pure.pure (g a)) τ :=
  h.last fun a => .pure (g a)

theorem expect {kind : TokenKind} (hend : kind ≠ .eof) (h : σ.Steps kind τ) :
    Framed next σ (Parser.expect kind) τ := by
  refine peek fun t => ?_
  split
  · rename_i ht
    exact (passing (by simpa using ht) hend h).andPure fun _ => t.pos
  · exact expected _

/-- A sign is passed if it stands next. -/
theorem passed {sign : Punct} {f : Bool → Parser β}
    (hyes : Framed (· = .punct sign) σ (Parser.advance >>= fun _ => f true) τ)
    (hno : Framed anything σ (f false) τ) : Framed next σ (Parser.skipPunct sign >>= f) τ := by
  rw [Parser.skipPunct_bind]
  refine isNext fun skipped => ?_
  cases skipped with
  | true => exact fun env s a s' hnext => hyes env s a s' (hnext.2 rfl)
  | false => exact fun env s a s' _ => hno env s a s' trivial

/-- What follows depends on the state but not on its tokens. -/
theorem state {f : ParserState → Parser β} (hf : ∀ s, Framed next σ (f s) τ)
    (hrest : ∀ s ts, f { s with rest := ts } = f s) : Framed next σ (Parser.state >>= f) τ := by
  intro env s b s' hnext hrun
  have hstate : ∀ s : ParserState, (Parser.state >>= f) env s = f s env s := fun _ => rfl
  rw [hstate] at hrun
  obtain ⟨c, hcons, hcovers, hagain⟩ := hf s env s b s' hnext hrun
  refine ⟨c, hcons, hcovers, fun ts hlength hts => ?_⟩
  rw [hstate, hrest]
  exact hagain ts hlength hts

/-- Rounds for which the tokens that are left are fuel enough. -/
theorem rounds {p : Nat → Parser α} (hfree : FuelFree p) (hp : ∀ fuel, Framed next σ (p fuel) τ) :
    Framed next σ (Parser.remaining >>= fun n => p (n + 1)) τ := by
  intro env s a s' hnext hrun
  have hstart : ∀ s : ParserState,
      (Parser.remaining >>= fun n => p (n + 1)) env s = p (s.rest.length + 1) env s := fun _ => rfl
  rw [hstart] at hrun
  obtain ⟨c, hrest, hcovers, hagain⟩ := hp _ env s a s' hnext hrun
  refine ⟨c, hrest, hcovers, fun ts hlength hts => ?_⟩
  rw [hstart, hfree _ (s.rest.length + 1) env _ (Nat.lt_succ_self _)]
  · exact hagain ts hlength hts
  · show (c ++ ts).length < s.rest.length + 1
    rw [hrest, List.length_append, List.length_append]
    omega

/-- Work in a scope of its own passes the same tokens. -/
theorem inScope {kind : ScopeKind} (h : Framed next σ p τ) :
    Framed next σ (Parser.inScope kind p) τ := by
  rintro env s ⟨id, a⟩ s' hnext hrun
  obtain ⟨rfl, s₁, hinner, rfl⟩ := Parser.inScope_ok hrun
  obtain ⟨c, hrest, hcovers, hagain⟩ := h env (s.enter env kind) a s₁ hnext hinner
  refine ⟨c, hrest, hcovers, fun ts hlength hts => ?_⟩
  have henter : ∀ s : ParserState, Parser.inScope kind p env s
      = ((p env (s.enter env kind)).1.map (s.session.symbols.scopes.size, ·),
        (p env (s.enter env kind)).2.leave) := fun _ => rfl
  have hsame : ({ s with rest := c ++ ts } : ParserState).enter env kind
      = { s.enter env kind with rest := c ++ ts } := rfl
  rw [henter, hsame, hagain ts hlength hts]
  rfl

end Framed

end Scaffold.Source
