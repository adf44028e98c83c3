import Scaffold.Proofs.Parser.Run

/-!
# Parsers that take given tokens

What a parser does on tokens of given kinds, whatever the environment and the rest of the state.

* `Takes p ks rest good`: where tokens of the kinds `ks` are left, `p` succeeds with a value that is
  `good` and leaves tokens of the kinds `rest`.
* `Gives p ks R`: where tokens of the kinds `ks` are left and `p` succeeds, `R` holds of its value
  and of what it leaves.

The rules for both follow the programs: each says what is left to show once the first step of a
program has run.
-/

namespace Scaffold.Source

def ParserState.kinds (s : ParserState) : List TokenKind :=
  s.rest.map (·.kind)

/-- The parser succeeds on tokens of the kinds `ks`, with a good value, and leaves `rest`. -/
def Takes {α : Type} (p : Parser α) (ks rest : List TokenKind) (good : α → Prop) : Prop :=
  ∀ env s, s.kinds = ks → ∃ a s', p env s = (.ok a, s') ∧ good a ∧ s'.kinds = rest

namespace Takes

variable {α β : Type} {p : Parser α} {f : α → Parser β} {ks m rest : List TokenKind}
  {k : TokenKind} {Q : α → Prop} {R : β → Prop}

theorem pure {a : α} (h : Q a) : Takes (Pure.pure a : Parser α) ks ks Q :=
  fun _ s hs => ⟨a, s, rfl, h, hs⟩

theorem bind (hp : Takes p ks m Q) (hf : ∀ a, Q a → Takes (f a) m rest R) :
    Takes (p >>= f) ks rest R := by
  intro env s hs
  obtain ⟨a, s₁, hp, ha, hs₁⟩ := hp env s hs
  obtain ⟨b, s₂, hf, hb, hs₂⟩ := hf a ha env s₁ hs₁
  exact ⟨b, s₂, Parser.bind_ok.2 ⟨a, s₁, hp, hf⟩, hb, hs₂⟩

theorem mono {Q₁ : α → Prop} (hp : Takes p ks rest Q) (h : ∀ a, Q a → Q₁ a) :
    Takes p ks rest Q₁ := by
  intro env s hs
  obtain ⟨a, s', hp, ha, hs'⟩ := hp env s hs
  exact ⟨a, s', hp, h a ha, hs'⟩

/-- The result of a parser, changed. -/
theorem map {g : α → β} (hp : Takes p ks rest Q) (h : ∀ a, Q a → R (g a)) :
    Takes (do return g (← p)) ks rest R :=
  hp.bind fun a ha => .pure (h a ha)

/-- A first step that reads nothing. -/
theorem look
    (hp : ∀ env s, s.kinds = ks → ∃ a s', p env s = (.ok a, s') ∧ Q a ∧ s'.kinds = s.kinds)
    (hf : ∀ a, Q a → Takes (f a) ks rest R) : Takes (p >>= f) ks rest R := by
  refine bind (Q := Q) (fun env s hs => ?_) hf
  obtain ⟨a, s', hp, ha, hs'⟩ := hp env s hs
  exact ⟨a, s', hp, ha, hs'.trans hs⟩

/-! ## Tokens -/

theorem kinds_cons {s : ParserState} (h : s.kinds = k :: ks) :
    ∃ pos ts, s.rest = ⟨k, pos⟩ :: ts ∧ ts.map (·.kind) = ks := by
  obtain ⟨t, ts, hrest, rfl, hts⟩ := List.map_eq_cons_iff.1 h
  exact ⟨t.pos, ts, hrest, hts⟩

theorem peek {f : Token → Parser β} (h : ∀ pos, Takes (f ⟨k, pos⟩) (k :: ks) rest R) :
    Takes (Parser.peek >>= f) (k :: ks) rest R := by
  refine look (Q := fun t => t.kind = k) (fun env s hs => ?_) ?_
  · obtain ⟨pos, ts, hrest, -⟩ := kinds_cons hs
    exact ⟨⟨k, pos⟩, s, by rw [Parser.peek, hrest]; rfl, rfl, rfl⟩
  · rintro ⟨_, pos⟩ rfl
    exact h pos

theorem advance {f : Unit → Parser β} (h : Takes (f ()) ks rest R) :
    Takes (Parser.advance >>= f) (k :: ks) rest R := by
  refine bind (m := ks) (Q := fun _ => True) (fun env s hs => ?_) fun _ _ => h
  obtain ⟨pos, ts, hrest, hts⟩ := kinds_cons hs
  refine ⟨(), _, rfl, trivial, ?_⟩
  show s.rest.tail.map (·.kind) = ks
  rw [hrest]
  exact hts

theorem remaining {f : Nat → Parser β} (h : Takes (f ks.length) ks rest R) :
    Takes (Parser.remaining >>= f) ks rest R := by
  refine look (Q := fun n => n = ks.length) (fun env s hs => ?_) ?_
  · exact ⟨s.rest.length, s, rfl, by rw [← hs, ParserState.kinds, List.length_map], rfl⟩
  · rintro _ rfl
    exact h

theorem state {f : ParserState → Parser β} (h : ∀ s, Takes (f s) ks rest R) :
    Takes (Parser.state >>= f) ks rest R :=
  look (Q := fun _ => True) (fun _ s _ => ⟨s, s, rfl, trivial, rfl⟩) fun s _ => h s

/-- A look whether a token stands next tells whether it does. -/
theorem compare {k' : TokenKind} {f : Bool → Parser β}
    (h : Takes (f (k == k')) (k :: ks) rest R) :
    Takes (Parser.isNext k' >>= f) (k :: ks) rest R := by
  refine bind (m := k :: ks) (Q := fun b => b = (k == k')) ?_ (by rintro _ rfl; exact h)
  exact peek fun pos => .pure rfl

/-- The next token is asked for and stands there. -/
theorem isNext {f : Bool → Parser β} (h : Takes (f true) (k :: ks) rest R) :
    Takes (Parser.isNext k >>= f) (k :: ks) rest R :=
  compare (by rwa [beq_self_eq_true])

/-- The next token is another than the one asked for. -/
theorem notNext {k' : TokenKind} {f : Bool → Parser β} (hne : k ≠ k')
    (h : Takes (f false) (k :: ks) rest R) : Takes (Parser.isNext k' >>= f) (k :: ks) rest R :=
  compare (by rwa [beq_eq_false_iff_ne.2 hne])

theorem expect {f : Position → Parser β} (h : ∀ pos, Takes (f pos) ks rest R) :
    Takes (Parser.expect k >>= f) (k :: ks) rest R := by
  refine bind (m := ks) (Q := fun _ => True) ?_ fun pos _ => h pos
  refine peek fun pos => ?_
  rw [if_pos (by simp)]
  exact advance (.pure trivial)

theorem expectPunct {sign : Punct} {f : Unit → Parser β} (h : Takes (f ()) ks rest R) :
    Takes (Parser.expectPunct sign >>= f) (.punct sign :: ks) rest R :=
  bind (m := ks) (Q := fun _ => True) (expect fun _ => .pure trivial) fun _ _ => h

theorem skip {sign : Punct} {f : Bool → Parser β} (h : Takes (f true) ks rest R) :
    Takes (Parser.skipPunct sign >>= f) (.punct sign :: ks) rest R := by
  refine bind (m := ks) (Q := fun b => b = true) (isNext ?_) (by rintro _ rfl; exact h)
  exact advance (.pure rfl)

theorem noSkip {sign : Punct} {f : Bool → Parser β} (hne : k ≠ .punct sign)
    (h : Takes (f false) (k :: ks) rest R) :
    Takes (Parser.skipPunct sign >>= f) (k :: ks) rest R :=
  bind (m := k :: ks) (Q := fun b => b = false) (notNext hne (.pure rfl))
    (by rintro _ rfl; exact h)

theorem ident {name : String} {f : String × Position → Parser β}
    (h : ∀ pos, Takes (f (name, pos)) ks rest R) :
    Takes (Parser.ident >>= f) (.ident name :: ks) rest R := by
  refine bind (m := ks) (Q := fun r => r.1 = name) ?_ (by rintro ⟨_, pos⟩ rfl; exact h pos)
  exact peek fun pos => advance (.pure rfl)

theorem integer {n : Nat} {f : Nat → Parser β} (h : Takes (f n) ks rest R) :
    Takes (Parser.integer >>= f) (.int n :: ks) rest R := by
  refine bind (m := ks) (Q := fun m => m = n) ?_ (by rintro _ rfl; exact h)
  exact peek fun pos => advance (.pure rfl)

/-! ## Scopes and names -/

theorem nameRef {name : String} {pos : Position} {f : NameRef → Parser β}
    (h : ∀ r : NameRef, r.name = name → Takes (f r) ks rest R) :
    Takes (Parser.nameRef name pos >>= f) ks rest R :=
  look (fun _ s _ => ⟨_, _, Parser.nameRef_eq name pos s, rfl, rfl⟩) h

theorem declare {name : String} {kind : SymbolKind} {pos : Position} {node : NodeId}
    {f : Unit → Parser β} (h : Takes (f ()) ks rest R) :
    Takes (Parser.declare name kind pos node >>= f) ks rest R :=
  look (Q := fun _ => True)
    (fun env s _ => ⟨_, _, Parser.declare_true name kind pos node env s, trivial, rfl⟩) fun _ _ => h

/-- A scope has no effect on what tokens are taken. -/
theorem inScope {kind : ScopeKind} {f : ScopeId × α → Parser β} (hp : Takes p ks m Q)
    (h : ∀ id a, Q a → Takes (f (id, a)) m rest R) :
    Takes (Parser.inScope kind p >>= f) ks rest R := by
  refine bind (Q := fun r => Q r.2) (fun env s hs => ?_) fun r hr => h r.1 r.2 hr
  obtain ⟨a, s₁, hp, ha, hs₁⟩ := hp env (s.enter env kind) hs
  have hscope : Parser.inScope kind p env s = ((p env (s.enter env kind)).1.map
      (s.session.symbols.scopes.size, ·), (p env (s.enter env kind)).2.leave) := rfl
  rw [hp] at hscope
  exact ⟨_, _, hscope, ha, hs₁⟩

end Takes

/-- If the parser succeeds on tokens of the kinds `ks`, then `R` holds of its value and of what it
leaves. -/
def Gives {α : Type} (p : Parser α) (ks : List TokenKind) (R : α → List TokenKind → Prop) : Prop :=
  ∀ env s a s', s.kinds = ks → p env s = (.ok a, s') → R a s'.kinds

namespace Gives

variable {α β : Type} {p : Parser α} {f : α → Parser β} {ks : List TokenKind} {k : TokenKind}
  {Q : α → List TokenKind → Prop} {R : β → List TokenKind → Prop}

theorem pure {a : α} (h : Q a ks) : Gives (Pure.pure a : Parser α) ks Q := by
  intro env s b s' hs hp
  obtain ⟨rfl, rfl⟩ := Parser.pure_ok.1 hp
  rwa [hs]

theorem bind (hp : Gives p ks Q) (hf : ∀ a rest, Q a rest → Gives (f a) rest R) :
    Gives (p >>= f) ks R := by
  intro env s b s' hs h
  obtain ⟨a, s₁, hp', hf'⟩ := Parser.bind_ok.1 h
  exact hf a _ (hp env s a s₁ hs hp') env s₁ b s' rfl hf'

theorem mono {Q' : α → List TokenKind → Prop} (hp : Gives p ks Q)
    (h : ∀ a rest, Q a rest → Q' a rest) : Gives p ks Q' :=
  fun env s a s' hs hp' => h a _ (hp env s a s' hs hp')

/-- The kind of the first token; no token counts as the end mark. -/
theorem nextKind_kinds (s : ParserState) : (s.rest.headD ⟨.eof, {}⟩).kind = s.kinds.headD .eof := by
  rw [ParserState.kinds]
  cases s.rest <;> rfl

theorem peek {f : Token → Parser β} (h : ∀ pos, Gives (f ⟨ks.headD .eof, pos⟩) ks R) :
    Gives (Parser.peek >>= f) ks R := by
  intro env s b s' hs hp
  obtain ⟨t, s₁, hpeek, hf⟩ := Parser.bind_ok.1 hp
  cases hpeek
  have hkind := nextKind_kinds s
  rw [hs] at hkind
  generalize s.rest.headD ⟨.eof, {}⟩ = t at hf hkind
  obtain ⟨_, pos⟩ := t
  subst hkind
  exact h pos env s b s' hs hf

theorem advance {f : Unit → Parser β} (h : Gives (f ()) ks.tail R) :
    Gives (Parser.advance >>= f) ks R := by
  intro env s b s' hs hp
  obtain ⟨_, s₁, hadvance, hf⟩ := Parser.bind_ok.1 hp
  cases hadvance
  refine h env _ b s' ?_ hf
  rw [← hs, ParserState.kinds, ParserState.kinds, ← List.map_tail]

theorem remaining {f : Nat → Parser β} (h : Gives (f ks.length) ks R) :
    Gives (Parser.remaining >>= f) ks R := by
  intro env s b s' hs hp
  obtain ⟨n, s₁, hremaining, hf⟩ := Parser.bind_ok.1 hp
  cases hremaining
  have hlen : ks.length = s.rest.length := by rw [← hs, ParserState.kinds, List.length_map]
  rw [hlen] at h
  exact h env s b s' hs hf

theorem expected {what : String} : Gives (Parser.expected what : Parser α) ks Q := by
  intro env s a s' _ hp
  cases hp

theorem isNext {f : Bool → Parser β} (hk : k ≠ .eof)
    (hyes : ∀ rest, ks = k :: rest → Gives (f true) ks R) (hno : Gives (f false) ks R) :
    Gives (Parser.isNext k >>= f) ks R := by
  refine bind (Q := fun b rest => ks = rest ∧ (ks.headD .eof == k) = b) ?_ ?_
  · exact peek fun pos => .pure ⟨rfl, rfl⟩
  · rintro b _ ⟨rfl, hb⟩
    cases b with
    | false => exact hno
    | true =>
      cases ks with
      | nil => exact absurd (eq_of_beq hb).symm hk
      | cons k' rest =>
        obtain rfl : k' = k := eq_of_beq hb
        exact hyes rest rfl

theorem expect {f : Position → Parser β} (hk : k ≠ .eof)
    (h : ∀ pos rest, ks = k :: rest → Gives (f pos) rest R) :
    Gives (Parser.expect k >>= f) ks R := by
  refine bind (Q := fun _ rest => ks = k :: rest) ?_ fun pos rest hrest => h pos rest hrest
  refine peek fun pos => ?_
  split
  · rename_i hnext
    cases ks with
    | nil => exact absurd (eq_of_beq hnext).symm hk
    | cons k' rest =>
      obtain rfl : k' = k := eq_of_beq hnext
      exact advance (.pure rfl)
  · exact expected

theorem expectPunct {sign : Punct} {f : Unit → Parser β}
    (h : ∀ rest, ks = .punct sign :: rest → Gives (f ()) rest R) :
    Gives (Parser.expectPunct sign >>= f) ks R :=
  bind (Q := fun _ rest => ks = .punct sign :: rest)
    (expect (by simp) fun _ _ hrest => .pure hrest) fun _ rest hrest => h rest hrest

theorem skip {sign : Punct} {f : Bool → Parser β}
    (hyes : ∀ rest, ks = .punct sign :: rest → Gives (f true) rest R)
    (hno : Gives (f false) ks R) : Gives (Parser.skipPunct sign >>= f) ks R := by
  refine bind (Q := fun b rest => if b then ks = .punct sign :: rest else rest = ks)
    (isNext (by simp) (fun rest hrest => ?_) (.pure rfl)) fun b rest hrest => ?_
  · subst hrest
    exact advance (.pure rfl)
  · cases b with
    | true => exact hyes rest hrest
    | false =>
      obtain rfl : rest = ks := hrest
      exact hno

theorem ident {f : String × Position → Parser β}
    (h : ∀ name pos rest, ks = .ident name :: rest → Gives (f (name, pos)) rest R) :
    Gives (Parser.ident >>= f) ks R := by
  refine bind (Q := fun r rest => ks = .ident r.1 :: rest) ?_ fun r rest hrest =>
    h r.1 r.2 rest hrest
  refine peek fun pos => ?_
  cases ks with
  | nil => exact expected
  | cons k rest =>
    cases k with
    | ident name => exact advance (.pure rfl)
    | _ => exact expected

theorem nameRef {name : String} {pos : Position} {f : NameRef → Parser β}
    (h : ∀ r : NameRef, r.name = name → Gives (f r) ks R) :
    Gives (Parser.nameRef name pos >>= f) ks R := by
  intro env s b s' hs hp
  obtain ⟨r, s₁, href, hf⟩ := Parser.bind_ok.1 hp
  rw [Parser.nameRef_eq] at href
  cases href
  exact h _ rfl env { s with seq := s.seq + 1 } b s' hs hf

end Gives

end Scaffold.Source
