import Scaffold.Proofs.Parser.Moves

/-!
# The loops of the parser come to an end

The loops and recursions of the parser are given fuel for all the tokens that are left. Every round
passes a token, so they come to an end by themselves and the fuel makes no difference, on any tokens,
also where the closing sign is missing.

* `Agree next n p q`: with less than `n` tokens left, `p` and `q` do the same. Behind a parser that
  passes a token it is enough that they agree for fewer tokens (`Agree.first`).
* `Stops next n p P`: where a loop may stop.
* `untilFuel_agree`, `commaFuel_agree`: the two loops that others are made of, with different fuel.
-/

namespace Scaffold.Source

/-- Where less than `n` tokens are left and the next one is of such a kind, the parsers do the
same. -/
def Agree {α : Type} (next : TokenKind → Prop) (n : Nat) (p q : Parser α) : Prop :=
  ∀ env s, s.rest.length < n → next (nextKind s.rest) → p env s = q env s

namespace Agree

variable {α β : Type} {next : TokenKind → Prop} {n m : Nat} {p q : Parser α}
  {f g : α → Parser β}

theorem refl (p : Parser α) : Agree next n p p :=
  fun _ _ _ _ => rfl

/-- No number of tokens is less than none. -/
theorem zero : Agree next 0 p q :=
  fun _ _ h _ => absurd h (Nat.not_lt_zero _)

theorem mono (h : Agree anything n p q) (hle : m ≤ n) : Agree next m p q :=
  fun env s hs _ => h env s (Nat.lt_of_lt_of_le hs hle) trivial

theorem bind (hp : Agree next n p q) (hq : Moving q) (hf : ∀ a, Agree anything n (f a) (g a)) :
    Agree next n (p >>= f) (q >>= g) := by
  intro env s hs hnext
  have hsame := hp env s hs hnext
  rcases hrun : q env s with ⟨e | a, s₁⟩
  · rw [Parser.bind_failed hrun, Parser.bind_failed (hsame.trans hrun)]
  · rw [Parser.bind_run hrun, Parser.bind_run (hsame.trans hrun)]
    exact hf a env s₁ (Nat.lt_of_le_of_lt (hq.length_le hrun) hs) trivial

/-- Both do the same first. -/
theorem step (hp : Moving p) (hf : ∀ a, Agree anything n (f a) (g a)) :
    Agree next n (p >>= f) (p >>= g) :=
  (refl p).bind hp hf

/-- Behind a parser that passes a token, fewer tokens are left. -/
theorem first (hp : Passing next p) (hf : ∀ a, Agree anything n (f a) (g a)) :
    Agree next (n + 1) (p >>= f) (p >>= g) := by
  intro env s hs hnext
  rcases hrun : p env s with ⟨e | a, s₁⟩
  · rw [Parser.bind_failed hrun, Parser.bind_failed hrun]
  · rw [Parser.bind_run hrun, Parser.bind_run hrun]
    have hlt := hp.shorter env s a s₁ hnext hrun
    exact hf a env s₁ (by omega) trivial

/-- Parsers that agree and pass a token, and what comes behind them. -/
theorem firstOf (hp : Agree next (n + 1) p q) (hq : Passing next q)
    (hf : ∀ a, Agree anything n (f a) (g a)) : Agree next (n + 1) (p >>= f) (q >>= g) := by
  intro env s hs hnext
  have hsame := hp env s hs hnext
  rcases hrun : q env s with ⟨e | a, s₁⟩
  · rw [Parser.bind_failed hrun, Parser.bind_failed (hsame.trans hrun)]
  · rw [Parser.bind_run hrun, Parser.bind_run (hsame.trans hrun)]
    have hlt := hq.shorter env s a s₁ hnext hrun
    exact hf a env s₁ (by omega) trivial

theorem look (told : α → TokenKind → Prop) (hp : ∀ env s, ∃ a, told a (nextKind s.rest) ∧
      p env s = (.ok a, s))
    (hf : ∀ a, Agree (fun kind => next kind ∧ told a kind) n (f a) (g a)) :
    Agree next n (p >>= f) (p >>= g) := by
  intro env s hs hnext
  obtain ⟨a, htold, hrun⟩ := hp env s
  rw [Parser.bind_run hrun, Parser.bind_run hrun]
  exact hf a env s hs ⟨hnext, htold⟩

theorem peek {f g : Token → Parser β}
    (h : ∀ t, Agree (fun kind => next kind ∧ kind = t.kind) n (f t) (g t)) :
    Agree next n (Parser.peek >>= f) (Parser.peek >>= g) :=
  look (fun t kind => kind = t.kind) (fun _ s => ⟨s.rest.headD ⟨.eof, {}⟩, rfl, rfl⟩) h

theorem isNext {kind : TokenKind} {f g : Bool → Parser β}
    (h : ∀ b, Agree (fun k => next k ∧ (b = true → k = kind)) n (f b) (g b)) :
    Agree next n (Parser.isNext kind >>= f) (Parser.isNext kind >>= g) :=
  look (fun b k => b = true → k = kind) (fun _ s => ⟨nextKind s.rest == kind, by simp, rfl⟩) h

/-- A sign may be passed. -/
theorem skipPunct {sign : Punct} {f g : Bool → Parser β} (hyes : Agree anything n (f true) (g true))
    (hno : Agree anything (n + 1) (f false) (g false)) :
    Agree next (n + 1) (Parser.skipPunct sign >>= f) (Parser.skipPunct sign >>= g) := by
  intro env s hs hnext
  by_cases hkind : nextKind s.rest = .punct sign
  · have hrun := (Parser.skipPunct_run sign env s).trans (if_pos hkind)
    rw [Parser.bind_run hrun, Parser.bind_run hrun]
    obtain ⟨pos, hcons⟩ := eq_cons_of_nextKind hkind nofun
    rw [hcons, List.length_cons] at hs
    exact hyes env _ (Nat.lt_of_succ_lt_succ hs) trivial
  · have hrun := (Parser.skipPunct_run sign env s).trans (if_neg hkind)
    rw [Parser.bind_run hrun, Parser.bind_run hrun]
    exact hno env s hs trivial

end Agree

/-- Where less than `n` tokens are left and the next one is of such a kind, the parser succeeds only in
front of a token of a kind in `P`. -/
def Stops {α : Type} (next : TokenKind → Prop) (n : Nat) (p : Parser α) (P : TokenKind → Prop) :
    Prop :=
  ∀ env s a s', s.rest.length < n → next (nextKind s.rest) → p env s = (.ok a, s') →
    P (nextKind s'.rest)

namespace Stops

variable {α β : Type} {next P : TokenKind → Prop} {n m : Nat} {p : Parser α} {f : α → Parser β}

theorem zero : Stops next 0 p P :=
  fun _ _ _ _ h => absurd h (Nat.not_lt_zero _)

theorem pure (a : α) (h : ∀ kind, next kind → P kind) : Stops next n (Pure.pure a) P := by
  intro env s b s' _ hnext hrun
  cases hrun
  exact h _ hnext

theorem step (hp : Moving p) (hf : ∀ a, Stops anything n (f a) P) : Stops next n (p >>= f) P := by
  intro env s b s' hs _ hrun
  obtain ⟨a, s₁, hfirst, hrest⟩ := Parser.bind_ok.1 hrun
  exact hf a env s₁ b s' (Nat.lt_of_le_of_lt (hp.length_le hfirst) hs) trivial hrest

theorem first (hp : Passing next p) (hf : ∀ a, Stops anything n (f a) P) :
    Stops next (n + 1) (p >>= f) P := by
  intro env s b s' hs hnext hrun
  obtain ⟨a, s₁, hfirst, hrest⟩ := Parser.bind_ok.1 hrun
  have hlt := hp.shorter env s a s₁ hnext hfirst
  exact hf a env s₁ b s' (by omega) trivial hrest

theorem look (told : α → TokenKind → Prop) (hp : ∀ env s, ∃ a, told a (nextKind s.rest) ∧
      p env s = (.ok a, s))
    (hf : ∀ a, Stops (fun kind => next kind ∧ told a kind) n (f a) P) : Stops next n (p >>= f) P := by
  intro env s b s' hs hnext hrun
  obtain ⟨a, htold, hfirst⟩ := hp env s
  rw [Parser.bind_run hfirst] at hrun
  exact hf a env s b s' hs ⟨hnext, htold⟩ hrun

theorem peek {f : Token → Parser β}
    (h : ∀ t, Stops (fun kind => next kind ∧ kind = t.kind) n (f t) P) :
    Stops next n (Parser.peek >>= f) P :=
  look (fun t kind => kind = t.kind) (fun _ s => ⟨s.rest.headD ⟨.eof, {}⟩, rfl, rfl⟩) h

theorem isNext {kind : TokenKind} {f : Bool → Parser β}
    (h : ∀ b, Stops (fun k => next k ∧ (b = true ↔ k = kind)) n (f b) P) :
    Stops next n (Parser.isNext kind >>= f) P :=
  look (fun b k => b = true ↔ k = kind) (fun _ s => ⟨nextKind s.rest == kind, by simp, rfl⟩) h

/-- A sign may be passed. -/
theorem skipPunct {sign : Punct} {f : Bool → Parser β} (hyes : Stops anything n (f true) P)
    (hno : Stops (fun kind => next kind ∧ kind ≠ .punct sign) (n + 1) (f false) P) :
    Stops next (n + 1) (Parser.skipPunct sign >>= f) P := by
  intro env s b s' hs hnext hrun
  by_cases hkind : nextKind s.rest = .punct sign
  · rw [Parser.bind_run ((Parser.skipPunct_run sign env s).trans (if_pos hkind))] at hrun
    obtain ⟨pos, hcons⟩ := eq_cons_of_nextKind hkind nofun
    rw [hcons, List.length_cons] at hs
    exact hyes env _ b s' (Nat.lt_of_succ_lt_succ hs) trivial hrun
  · rw [Parser.bind_run ((Parser.skipPunct_run sign env s).trans (if_neg hkind))] at hrun
    exact hno env s b s' hs ⟨hnext, hkind⟩ hrun

end Stops

/-- Fuel for more tokens than are left makes no difference: the rounds come to an end before. -/
def FuelFree {α : Type} (p : Nat → Parser α) : Prop :=
  ∀ fuel fuel' env s, s.rest.length < fuel → s.rest.length < fuel' → p fuel env s = p fuel' env s

theorem FuelFree.of_agree {α : Type} {p : Nat → Parser α}
    (h : ∀ n fuel fuel', n ≤ fuel → n ≤ fuel' → Agree anything n (p fuel) (p fuel')) :
    FuelFree p :=
  fun fuel fuel' env s hfuel hfuel' =>
    h (s.rest.length + 1) fuel fuel' hfuel hfuel' env s (Nat.lt_succ_self _) trivial

namespace Parser

variable {α β : Type} {next : TokenKind → Prop} {n : Nat}

/-! ## Repetition -/

/-- The closing sign or the end of the file stands next. -/
def atClose (close : Punct) : Parser Bool := do
  let t ← peek
  return t.kind == .punct close || t.kind == .eof

/-- A loop that goes on where the next token is of such a kind. -/
def Watches (stop : Parser Bool) (live : TokenKind → Prop) : Prop :=
  ∀ env s, ∃ b, (b = false ↔ live (nextKind s.rest)) ∧ stop env s = (.ok b, s)

theorem atClose_watches (close : Punct) :
    Watches (atClose close) fun kind => kind ≠ .punct close ∧ kind ≠ .eof :=
  fun _ s => ⟨nextKind s.rest == .punct close || nextKind s.rest == .eof, by simp, rfl⟩

theorem atEnd_watches : Watches atEnd (· ≠ .eof) :=
  fun _ s => ⟨nextKind s.rest == .eof, by simp, rfl⟩

section

variable {stop : Parser Bool} {live : TokenKind → Prop} {step step' : β → Parser β}

theorem Watches.agree {f g : Bool → Parser β} (hstop : Watches stop live)
    (h : ∀ b, Agree (fun kind => next kind ∧ (b = false ↔ live kind)) n (f b) (g b)) :
    Agree next n (stop >>= f) (stop >>= g) :=
  .look (fun b kind => b = false ↔ live kind) hstop h

theorem untilFuel_agree (hstop : Watches stop live) (hstep : ∀ b, Passing live (step b)) :
    ∀ n fuel fuel', n ≤ fuel → n ≤ fuel' → ∀ b,
      Agree anything n (untilFuel stop step fuel b) (untilFuel stop step fuel' b)
  | 0, _, _, _, _, _ => .zero
  | n + 1, 0, _, hfuel, _, _ => absurd hfuel (Nat.not_succ_le_zero _)
  | n + 1, _, 0, _, hfuel', _ => absurd hfuel' (Nat.not_succ_le_zero _)
  | n + 1, fuel + 1, fuel' + 1, hfuel, hfuel', b => by
    refine hstop.agree fun ended => ?_
    cases ended with
    | true => exact .refl _
    | false =>
      have hround : Agree live (n + 1) (step b >>= untilFuel stop step fuel)
          (step b >>= untilFuel stop step fuel') :=
        .first (hstep b) fun b' => untilFuel_agree hstop hstep n fuel fuel'
          (Nat.le_of_succ_le_succ hfuel) (Nat.le_of_succ_le_succ hfuel') b'
      exact fun env s hs hnext => hround env s hs (hnext.2.1 rfl)

/-- A loop stops where its condition says so. -/
theorem untilFuel_ends {P : TokenKind → Prop} (hstop : Watches stop live)
    (hstep : ∀ b, Passing live (step b)) (hP : ∀ kind, ¬live kind → P kind) :
    ∀ n fuel, n ≤ fuel → ∀ b, Stops anything n (untilFuel stop step fuel b) P
  | 0, _, _, _ => .zero
  | n + 1, 0, hfuel, _ => absurd hfuel (Nat.not_succ_le_zero _)
  | n + 1, fuel + 1, hfuel, b => by
    refine .look (fun b kind => b = false ↔ live kind) hstop fun ended => ?_
    cases ended with
    | true => exact .pure b fun kind hkind => hP kind fun hlive => Bool.noConfusion (hkind.2.2 hlive)
    | false =>
      have hround : Stops live (n + 1) (step b >>= untilFuel stop step fuel) P :=
        .first (hstep b) fun b' => untilFuel_ends hstop hstep hP n fuel
          (Nat.le_of_succ_le_succ hfuel) b'
      exact fun env s a s' hs hnext => hround env s a s' hs (hnext.2.1 rfl)

/-- Loops with the same fuel and steps that agree. -/
theorem untilFuel_congr (hstop : Moving stop) (hmoving : ∀ b, Moving (step' b))
    (h : ∀ b, Agree anything n (step b) (step' b)) : ∀ (fuel : Nat) (b : β),
      Agree anything n (untilFuel stop step fuel b) (untilFuel stop step' fuel b)
  | 0, _ => .refl _
  | fuel + 1, b => by
    refine .step hstop fun ended => ?_
    split
    · exact .refl _
    · exact (h b).bind (hmoving b) fun b' => untilFuel_congr hstop hmoving h fuel b'

theorem untilClose_congr (close : Punct) (hmoving : ∀ b, Moving (step' b))
    (h : ∀ b, Agree anything n (step b) (step' b)) (b : β) :
    Agree anything n (untilClose close step b) (untilClose close step' b) :=
  .step remaining_moving fun _ =>
    untilFuel_congr (.bind peek_moving fun _ => .pure _) hmoving h _ b

theorem commaFuel_agree (close : Punct) (hstep : ∀ b, Passing anything (step b)) :
    ∀ n fuel fuel', n ≤ fuel → n ≤ fuel' → ∀ b,
      Agree anything n (commaFuel close step fuel b) (commaFuel close step fuel' b)
  | 0, _, _, _, _, _ => .zero
  | n + 1, 0, _, hfuel, _, _ => absurd hfuel (Nat.not_succ_le_zero _)
  | n + 1, _, 0, _, hfuel', _ => absurd hfuel' (Nat.not_succ_le_zero _)
  | n + 1, fuel + 1, fuel' + 1, hfuel, hfuel', b => by
    refine .step (isNext_moving _) fun closed => ?_
    split
    · exact .refl _
    · refine .first (hstep b) fun b' => .step (skipPunct_moving _) fun more => ?_
      split
      · exact commaFuel_agree close hstep n fuel fuel' (Nat.le_of_succ_le_succ hfuel)
          (Nat.le_of_succ_le_succ hfuel') b'
      · exact .refl _

/-- A list goes on where a comma stands. -/
theorem commaFuel_ends {close : Punct} (hclose : close ≠ .comma)
    (hstep : ∀ b, Moving (step b)) : ∀ n fuel, n ≤ fuel → ∀ b,
      Stops anything n (commaFuel close step fuel b) (· ≠ .punct .comma)
  | 0, _, _, _ => .zero
  | n + 1, 0, hfuel, _ => absurd hfuel (Nat.not_succ_le_zero _)
  | n + 1, fuel + 1, hfuel, b => by
    refine .isNext fun closed => ?_
    split
    · rename_i hclosed
      refine .pure b fun kind hkind heq => hclose ?_
      rw [hkind.2.1 hclosed] at heq
      exact TokenKind.punct.inj heq
    · refine .step (hstep b) fun b' => .skipPunct ?_ (.pure b' fun kind hkind => hkind.2)
      exact commaFuel_ends hclose hstep n fuel (Nat.le_of_succ_le_succ hfuel) b'

theorem commaFuel_congr (close : Punct) (hmoving : ∀ b, Moving (step' b))
    (h : ∀ b, Agree anything n (step b) (step' b)) : ∀ (fuel : Nat) (b : β),
      Agree anything n (commaFuel close step fuel b) (commaFuel close step' fuel b)
  | 0, _ => .refl _
  | fuel + 1, b => by
    refine .step (isNext_moving _) fun closed => ?_
    split
    · exact .refl _
    · refine (h b).bind (hmoving b) fun b' => .step (skipPunct_moving _) fun more => ?_
      split
      · exact commaFuel_congr close hmoving h fuel b'
      · exact .refl _

end

/-- The rounds of a loop up to a closing sign or the end of the file. -/
theorem untilClose_round {β : Type} {step : β → Parser β} (close : Punct)
    (hstep : ∀ b, Passing (fun kind => kind ≠ .punct close ∧ kind ≠ .eof) (step b)) (b : β) :
    FuelFree (untilFuel (atClose close) step · b) :=
  .of_agree fun n fuel fuel' h h' =>
    untilFuel_agree (atClose_watches close) hstep n fuel fuel' h h' b

/-! ## Scopes -/

theorem inScope_congr {p q : Parser α} (kind : ScopeKind) (h : Agree anything n p q) :
    Agree anything n (inScope kind p) (inScope kind q) := by
  intro env s hs _
  have hsame := h env (s.enter env kind) hs trivial
  have hrun : ∀ r : Parser α, inScope kind r env s = ((r env (s.enter env kind)).1.map
      (s.session.symbols.scopes.size, ·), (r env (s.enter env kind)).2.leave) := fun _ => rfl
  rw [hrun, hrun, hsame]

end Parser

end Scaffold.Source
