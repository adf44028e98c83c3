import Scaffold.Proofs.InStep
import Scaffold.Proofs.Likeness
import Scaffold.Proofs.Parser.Taking

/-!
# Parsers in two sessions

A parser is run twice on tokens of the same kinds, in sessions that need not be the same. It goes the
same way both times, because nothing but the tokens decides where it goes; what it numbers and
declares gets other numbers. A `Link` says which numbers of the two sessions belong together, and
when the sessions are in step; the steps of the parsers keep them in step. `Agrees` is the statement
about a parser, closed under what parsers are made of.

* `Agrees`: both runs succeed, with values that are alike, or both fail.
-/

namespace Scaffold.Source

/-- Sessions in step. A world says which numbers belong together; more are added as the sessions go
on. -/
structure Link where
  World : Type
  /-- The second world is the first at a later time. -/
  le : World → World → Prop
  refl : ∀ w, le w w
  trans : ∀ {u v w}, le u v → le v w → le u w
  numbers : World → Numbers
  mono : ∀ {w w'}, le w w' → (numbers w).Le (numbers w')
  /-- Positions and errors are the same both times. -/
  exact : Prop
  /-- Two parsers are in step, whatever tokens are ahead of them. -/
  states : World → ParserEnv → ParserState → ParserEnv → ParserState → Prop
  path : ∀ {w env s env' s'}, states w env s env' s' → exact → env.source.path = env'.source.path
  platform : ∀ {w env s env' s'}, states w env s env' s' →
    s.session.platform = s'.session.platform
  current : ∀ {w env s env' s'}, states w env s env' s' →
    (numbers w).scope env.file (s.scope env) (s'.scope env')
  tokens : ∀ {w env s env' s'} (ts ts' : List Token), states w env s env' s' →
    states w env { s with rest := ts } env' { s' with rest := ts' }
  own : ∀ {w env s env' s'} (id id' : NodeId), states w env s env' s' →
    states w env { s with owner := id } env' { s' with owner := id' }
  report : ∀ {w env s env' s' e e'}, (exact → e = e') → states w env s env' s' →
    states w env { s with session := s.session.report e } env'
      { s' with session := s'.session.report e' }
  takeSeq : ∀ {w env s env' s'}, states w env s env' s' → ∃ w₁, le w w₁ ∧
    (numbers w₁).seq env.file s.seq s'.seq ∧
    states w₁ env { s with seq := s.seq + 1 } env' { s' with seq := s'.seq + 1 }
  takeNode : ∀ {w env s env' s'}, states w env s env' s' → ∃ w₁, le w w₁ ∧
    (numbers w₁).node s.session.nextNode s'.session.nextNode ∧
    states w₁ env { s with session := s.session.takeNode.2 } env'
      { s' with session := s'.session.takeNode.2 }
  enter : ∀ {w env s env' s'} (kind : ScopeKind), kind ≠ .file → states w env s env' s' →
    ∃ w₁, le w w₁ ∧
      (numbers w₁).scope env.file s.session.symbols.scopes.size s'.session.symbols.scopes.size ∧
      states w₁ env (s.enter env kind) env' (s'.enter env' kind)
  leave : ∀ {w env s env' s'}, states w env s env' s' →
    (numbers w).scope env.file (s.leave.scope env) (s'.leave.scope env') →
    states w env s.leave env' s'.leave
  declare : ∀ {w env s env' s'} (name : String) (kind : SymbolKind) {pos pos' : Position}
    {id id' : NodeId}, (exact → pos = pos') → (kind ≠ .local → (numbers w).node id id') →
    states w env s env' s' →
    ∃ w₁, le w w₁ ∧ states w₁ env (Parser.declare name kind pos id true env s).2 env'
      (Parser.declare name kind pos' id' true env' s').2

/-- How two runs come out: both well, with values so related, or both with an error. -/
inductive Outcomes {α β : Type} (exact : Prop) (V : α → β → Prop) :
    Except CompileError α → Except CompileError β → Prop where
  | ok {a : α} {b : β} : V a b → Outcomes exact V (.ok a) (.ok b)
  | error {e e' : CompileError} : (exact → e = e') → Outcomes exact V (.error e) (.error e')

theorem Outcomes.imp {α β : Type} {exact : Prop} {V V' : α → β → Prop} {r : Except CompileError α}
    {r' : Except CompileError β} (h : Outcomes exact V r r') (hV : ∀ a b, V a b → V' a b) :
    Outcomes exact V' r r' := by
  cases h with
  | ok h => exact .ok (hV _ _ h)
  | error h => exact .error h

theorem Outcomes.map {α β γ δ : Type} {exact : Prop} {V : α → β → Prop} {W : γ → δ → Prop}
    {r : Except CompileError α} {r' : Except CompileError β} {g : α → γ} {g' : β → δ}
    (h : Outcomes exact V r r') (hW : ∀ a b, V a b → W (g a) (g' b)) :
    Outcomes exact W (r.map g) (r'.map g') := by
  cases h with
  | ok h => exact .ok (hW _ _ h)
  | error h => exact .error h

namespace Link

variable (K : Link)

/-- What the numbers that belong together make alike, before names are bound. -/
def likeness (w : K.World) : Likeness :=
  (K.numbers w).unbound K.exact

theorem likeness_le {w w' : K.World} (h : K.le w w') : (K.likeness w).Le (K.likeness w') :=
  (K.mono h).unbound

/-- Tokens of the same kinds. -/
def Tokens : List Token → List Token → Prop :=
  List.Forall₂ fun t t' => t.kind = t'.kind ∧ (K.exact → t.pos = t'.pos)

/-- Two runs, from two states, end in step. -/
structure Ends (env env' : ParserEnv) (s s' : ParserState) {α β : Type}
    (V : K.World → α → β → Prop) (w : K.World) (r : Except CompileError α × ParserState)
    (r' : Except CompileError β × ParserState) : Prop where
  states : K.states w env r.2 env' r'.2
  tokens : K.Tokens r.2.rest r'.2.rest
  stack : r.2.session.stack = s.session.stack
  stack' : r'.2.session.stack = s'.session.stack
  values : Outcomes K.exact (V w) r.1 r'.1

end Link

/-- Two parsers agree: on tokens of the same kinds, in sessions in step, they read as many tokens and
stay in step, and both succeed, with values so related, or both fail. -/
def Agrees (K : Link) (env env' : ParserEnv) (w : K.World) {α β : Type} (p : Parser α)
    (p' : Parser β) (V : K.World → α → β → Prop) : Prop :=
  ∀ w₁ s s', K.le w w₁ → K.states w₁ env s env' s' → K.Tokens s.rest s'.rest →
    ∃ w₂, K.le w₁ w₂ ∧ K.Ends env env' s s' V w₂ (p env s) (p' env' s')

namespace Agrees

variable {K : Link} {env env' : ParserEnv} {w : K.World} {α β γ δ : Type} {p : Parser α}
  {p' : Parser β} {f : α → Parser γ} {f' : β → Parser δ} {V : K.World → α → β → Prop}
  {W : K.World → γ → δ → Prop}

theorem pure {a : α} {b : β} (h : ∀ w₁, K.le w w₁ → V w₁ a b) :
    Agrees K env env' w (Pure.pure a) (Pure.pure b) V :=
  fun w₁ _ _ hle hstates htokens =>
    ⟨w₁, K.refl _, hstates, htokens, rfl, rfl, .ok (h w₁ hle)⟩

theorem bind (hp : Agrees K env env' w p p' V)
    (hf : ∀ w₁ a b, K.le w w₁ → V w₁ a b → Agrees K env env' w₁ (f a) (f' b) W) :
    Agrees K env env' w (p >>= f) (p' >>= f') W := by
  intro w₁ s s' hle hstates htokens
  obtain ⟨w₂, hle₂, hends⟩ := hp w₁ s s' hle hstates htokens
  show ∃ w₂, K.le w₁ w₂ ∧ K.Ends env env' s s' W w₂ (Parser.bind p f env s) (Parser.bind p' f' env' s')
  unfold Parser.bind
  generalize p env s = x at hends ⊢
  generalize p' env' s' = x' at hends ⊢
  obtain ⟨r, s₁⟩ := x
  obtain ⟨r', s₁'⟩ := x'
  obtain ⟨hstates₁, htokens₁, hstack, hstack', hvalues⟩ := hends
  cases hvalues with
  | ok hV =>
    obtain ⟨w₃, hle₃, hends⟩ := hf w₂ _ _ (K.trans hle hle₂) hV w₂ s₁ s₁' (K.refl _) hstates₁ htokens₁
    exact ⟨w₃, K.trans hle₂ hle₃, hends.states, hends.tokens, hends.stack.trans hstack,
      hends.stack'.trans hstack', hends.values⟩
  | error he => exact ⟨w₂, hle₂, hstates₁, htokens₁, hstack, hstack', .error he⟩

/-- A first step whose value is the same both times. -/
theorem same {p p' : Parser α} {f : α → Parser γ} {f' : α → Parser δ}
    (hp : Agrees K env env' w p p' fun _ a b => a = b)
    (hf : ∀ a, Agrees K env env' w (f a) (f' a) W) : Agrees K env env' w (p >>= f) (p' >>= f') W :=
  bind hp fun _ a b hle hab w₂ s s' hle₂ => by
    subst hab
    exact hf a w₂ s s' (K.trans hle hle₂)

theorem mono {w' : K.World} (h : Agrees K env env' w p p' V) (hle : K.le w w') :
    Agrees K env env' w' p p' V :=
  fun w₁ s s' hle₁ => h w₁ s s' (K.trans hle hle₁)

/-- A first step that changes the states and keeps them in step. -/
theorem step {g : ParserState → ParserState} {a : α} {b : β}
    (hp : ∀ s, p env s = (.ok a, g s)) {g' : ParserState → ParserState}
    (hp' : ∀ s, p' env' s = (.ok b, g' s)) (hrest : ∀ s, (g s).rest = s.rest)
    (hrest' : ∀ s, (g' s).rest = s.rest) (hstack : ∀ s, (g s).session.stack = s.session.stack)
    (hstack' : ∀ s, (g' s).session.stack = s.session.stack)
    (hstates : ∀ w₁ s s', K.le w w₁ → K.states w₁ env s env' s' →
      ∃ w₂, K.le w₁ w₂ ∧ V w₂ a b ∧ K.states w₂ env (g s) env' (g' s')) :
    Agrees K env env' w p p' V := by
  intro w₁ s s' hle hs htokens
  obtain ⟨w₂, hle₂, hV, hs₁⟩ := hstates w₁ s s' hle hs
  rw [hp, hp']
  exact ⟨w₂, hle₂, hs₁, by rwa [hrest, hrest'], hstack s, hstack' s', .ok hV⟩

/-! ## Tokens -/

theorem peek {f : Token → Parser γ} {f' : Token → Parser δ}
    (h : ∀ k pos pos', (K.exact → pos = pos') →
      Agrees K env env' w (f ⟨k, pos⟩) (f' ⟨k, pos'⟩) W) :
    Agrees K env env' w (Parser.peek >>= f) (Parser.peek >>= f') W := by
  have hpeek : Agrees K env env' w Parser.peek Parser.peek
      fun _ t t' => t.kind = t'.kind ∧ (K.exact → t.pos = t'.pos) := by
    intro w₁ s s' hle hstates htokens
    refine ⟨w₁, K.refl _, hstates, htokens, rfl, rfl, .ok ?_⟩
    generalize s.rest = ts, s'.rest = ts' at htokens
    cases htokens with
    | nil => exact ⟨rfl, fun _ => rfl⟩
    | cons ht => exact ht
  refine bind hpeek ?_
  rintro w₁ ⟨k, pos⟩ ⟨_, pos'⟩ hle ⟨rfl, hpos⟩
  exact (h k pos pos' hpos).mono hle

theorem peekKind (n : Nat) {f : TokenKind → Parser γ} {f' : TokenKind → Parser δ}
    (h : ∀ k, Agrees K env env' w (f k) (f' k) W) :
    Agrees K env env' w (Parser.peekKind n >>= f) (Parser.peekKind n >>= f') W := by
  refine same (fun w₁ s s' hle hstates htokens => ?_) h
  have hkinds : s.rest.map (·.kind) = s'.rest.map (·.kind) :=
    List.forall₂_eq_eq_eq ▸ List.forall₂_map_left_iff.2 (List.forall₂_map_right_iff.2
      (htokens.imp fun _ _ h => h.1))
  have hn : ∀ ts : List Token, (ts[n]?).map (·.kind) = (ts.map (·.kind))[n]? := fun _ =>
    List.getElem?_map.symm
  exact ⟨w₁, K.refl _, hstates, htokens, rfl, rfl, .ok (by rw [hn, hn, hkinds])⟩

theorem move :
    Agrees K env env' w Parser.advance Parser.advance fun _ (a b : Unit) => a = b := by
  intro w₁ s s' hle hstates htokens
  refine ⟨w₁, K.refl _, K.tokens _ _ hstates, ?_, rfl, rfl, .ok rfl⟩
  show K.Tokens s.rest.tail s'.rest.tail
  generalize s.rest = ts, s'.rest = ts' at htokens
  cases htokens with
  | nil => exact .nil
  | cons _ hts => exact hts

theorem advance {f : Unit → Parser γ} {f' : Unit → Parser δ}
    (h : Agrees K env env' w (f ()) (f' ()) W) :
    Agrees K env env' w (Parser.advance >>= f) (Parser.advance >>= f') W :=
  same move fun _ => h

theorem remaining {f : Nat → Parser γ} {f' : Nat → Parser δ}
    (h : ∀ n, Agrees K env env' w (f n) (f' n) W) :
    Agrees K env env' w (Parser.remaining >>= f) (Parser.remaining >>= f') W := by
  refine same (fun w₁ s s' hle hstates htokens => ?_) h
  exact ⟨w₁, K.refl _, hstates, htokens, rfl, rfl, .ok htokens.length_eq⟩

theorem given {f f' : ParserEnv → Parser γ} {W : K.World → γ → γ → Prop}
    (h : Agrees K env env' w (f env) (f' env') W) :
    Agrees K env env' w (Parser.env >>= f) (Parser.env >>= f') W :=
  h

/-- Two failures for the same fault of the file. -/
theorem fault {pos pos' : Position} {fault : Fault} (hpos : K.exact → pos = pos') :
    Agrees K env env' w (Parser.fail (.fault env.source.path pos fault) : Parser α)
      (Parser.fail (.fault env'.source.path pos' fault) : Parser β) V :=
  fun w₁ _ _ _ hstates htokens =>
    ⟨w₁, K.refl _, hstates, htokens, rfl, rfl,
      .error fun hexact => by rw [K.path hstates hexact, hpos hexact]⟩

theorem expected {what : String} :
    Agrees K env env' w (Parser.expected what : Parser α) (Parser.expected what : Parser β) V :=
  peek fun _ _ _ hpos => fault hpos

theorem isNext {k : TokenKind} {f : Bool → Parser γ} {f' : Bool → Parser δ}
    (h : ∀ b, Agrees K env env' w (f b) (f' b) W) :
    Agrees K env env' w (Parser.isNext k >>= f) (Parser.isNext k >>= f') W :=
  same (peek fun _ _ _ _ => .pure fun _ _ => rfl) h

theorem expect {k : TokenKind} {f : Position → Parser γ} {f' : Position → Parser δ}
    (h : ∀ pos pos', (K.exact → pos = pos') → Agrees K env env' w (f pos) (f' pos') W) :
    Agrees K env env' w (Parser.expect k >>= f) (Parser.expect k >>= f') W := by
  refine bind (V := fun _ pos pos' => K.exact → pos = pos') ?_ fun _ pos pos' hle hpos =>
    (h pos pos' hpos).mono hle
  refine peek fun _ _ _ hpos => ?_
  split
  · exact advance (.pure fun _ _ => hpos)
  · exact expected

theorem punct {sign : Punct} : Agrees K env env' w (Parser.expectPunct sign)
    (Parser.expectPunct sign) fun _ (a b : Unit) => a = b :=
  expect fun _ _ _ => .pure fun _ _ => rfl

theorem expectPunct {sign : Punct} {f : Unit → Parser γ} {f' : Unit → Parser δ}
    (h : Agrees K env env' w (f ()) (f' ()) W) :
    Agrees K env env' w (Parser.expectPunct sign >>= f) (Parser.expectPunct sign >>= f') W :=
  same punct fun _ => h

theorem skipPunct {sign : Punct} {f : Bool → Parser γ} {f' : Bool → Parser δ}
    (h : ∀ b, Agrees K env env' w (f b) (f' b) W) :
    Agrees K env env' w (Parser.skipPunct sign >>= f) (Parser.skipPunct sign >>= f') W := by
  refine same (isNext fun b => ?_) h
  split
  · exact advance (.pure fun _ _ => rfl)
  · exact .pure fun _ _ => rfl

theorem ident {f : String × Position → Parser γ} {f' : String × Position → Parser δ}
    (h : ∀ name pos pos', (K.exact → pos = pos') →
      Agrees K env env' w (f (name, pos)) (f' (name, pos')) W) :
    Agrees K env env' w (Parser.ident >>= f) (Parser.ident >>= f') W := by
  refine bind (V := fun _ x y => x.1 = y.1 ∧ (K.exact → x.2 = y.2)) ?_ ?_
  · refine peek fun k pos pos' hpos => ?_
    cases k with
    | ident name => exact advance (.pure fun _ _ => ⟨rfl, hpos⟩)
    | _ => exact expected
  · rintro w₁ ⟨name, pos⟩ ⟨_, pos'⟩ hle ⟨rfl, hpos⟩
    exact (h name pos pos' hpos).mono hle

theorem quoted {f : String → Parser γ} {f' : String → Parser δ}
    (h : ∀ text, Agrees K env env' w (f text) (f' text) W) :
    Agrees K env env' w (Parser.quoted >>= f) (Parser.quoted >>= f') W := by
  refine same (peek fun k pos pos' _ => ?_) h
  cases k with
  | str text => exact advance (.pure fun _ _ => rfl)
  | _ => exact expected

theorem integer {f : Nat → Parser γ} {f' : Nat → Parser δ}
    (h : ∀ n, Agrees K env env' w (f n) (f' n) W) :
    Agrees K env env' w (Parser.integer >>= f) (Parser.integer >>= f') W := by
  refine same (peek fun k pos pos' _ => ?_) h
  cases k with
  | int n => exact advance (.pure fun _ _ => rfl)
  | _ => exact expected

/-! ## Repetition -/

section

variable {step : α → Parser α} {step' : β → Parser β}
  (hmono : ∀ (w w' : K.World) a b, K.le w w' → V w a b → V w' a b)
  (hstep : ∀ w₁ a b, K.le w w₁ → V w₁ a b → Agrees K env env' w₁ (step a) (step' b) V)

include hmono hstep

theorem untilFuel {stop stop' : Parser Bool}
    (hstop : ∀ w₁, Agrees K env env' w₁ stop stop' fun _ b b' => b = b') :
    ∀ (fuel : Nat) {w₁ a b}, K.le w w₁ → V w₁ a b →
      Agrees K env env' w₁ (Parser.untilFuel stop step fuel a) (Parser.untilFuel stop' step' fuel b) V
  | 0, w₁, a, b, hle, hab => .pure fun _ h => hmono _ _ _ _ h hab
  | fuel + 1, w₁, a, b, hle, hab => by
    refine same (hstop w₁) fun stopped => ?_
    split
    · exact .pure fun _ h => hmono _ _ _ _ h hab
    · exact .bind (hstep _ _ _ hle hab) fun w₂ a' b' hle₂ hab' =>
        untilFuel hstop fuel (K.trans hle hle₂) hab'

theorem untilClose {close : Punct} {a : α} {b : β} (hab : V w a b) :
    Agrees K env env' w (Parser.untilClose close step a) (Parser.untilClose close step' b) V :=
  remaining fun _ => untilFuel hmono hstep (fun _ => peek fun _ _ _ _ => .pure fun _ _ => rfl) _
    (K.refl w) hab

theorem commaFuel {close : Punct} : ∀ (fuel : Nat) {w₁ a b}, K.le w w₁ → V w₁ a b →
    Agrees K env env' w₁ (Parser.commaFuel close step fuel a) (Parser.commaFuel close step' fuel b) V
  | 0, w₁, a, b, hle, hab => .pure fun _ h => hmono _ _ _ _ h hab
  | fuel + 1, w₁, a, b, hle, hab => by
    refine isNext fun closed => ?_
    split
    · exact .pure fun _ h => hmono _ _ _ _ h hab
    · refine .bind (hstep _ _ _ hle hab) fun w₂ a' b' hle₂ hab' => skipPunct fun more => ?_
      split
      · exact commaFuel fuel (K.trans hle hle₂) hab'
      · exact .pure fun _ h => hmono _ _ _ _ h hab'

theorem commaList {close : Punct} {a : α} {b : β} (hab : V w a b) :
    Agrees K env env' w (Parser.commaList close step a) (Parser.commaList close step' b) V :=
  remaining fun _ => commaFuel hmono hstep _ (K.refl w) hab

end

/-! ## Scopes, names and reports -/

theorem state {f f' : ParserState → Parser γ} {W : K.World → γ → γ → Prop}
    (h : ∀ s s' : ParserState, s.session.platform = s'.session.platform →
      Agrees K env env' w (f s) (f' s') W) :
    Agrees K env env' w (Parser.state >>= f) (Parser.state >>= f') W :=
  fun w₁ s s' hle hstates htokens => h s s' (K.platform hstates) w₁ s s' hle hstates htokens

theorem own {id id' : NodeId} {f : Unit → Parser γ} {f' : Unit → Parser δ}
    (h : Agrees K env env' w (f ()) (f' ()) W) :
    Agrees K env env' w (Parser.change (fun s => { s with owner := id }) >>= f)
      (Parser.change (fun s => { s with owner := id' }) >>= f') W :=
  same (step (fun _ => rfl) (fun _ => rfl) (fun _ => rfl) (fun _ => rfl) (fun _ => rfl)
    (fun _ => rfl) fun w₁ _ _ _ hs => ⟨w₁, K.refl _, rfl, K.own id id' hs⟩) fun _ => h

theorem reports {pos pos' : Position} (hpos : K.exact → pos = pos') (declaration reason : String) :
    Agrees K env env' w (Parser.invalid pos declaration reason)
      (Parser.invalid pos' declaration reason) fun _ u u' => u = u' :=
  fun w₁ _ _ _ hs htokens =>
    ⟨w₁, K.refl _, K.report (fun hexact => by rw [K.path hs hexact, hpos hexact]) hs, htokens, rfl,
      rfl, .ok rfl⟩

theorem invalid {pos pos' : Position} {declaration reason : String} {f : Unit → Parser γ}
    {f' : Unit → Parser δ} (hpos : K.exact → pos = pos')
    (h : Agrees K env env' w (f ()) (f' ()) W) :
    Agrees K env env' w (Parser.invalid pos declaration reason >>= f)
      (Parser.invalid pos' declaration reason >>= f') W :=
  same (reports hpos declaration reason) fun _ => h

theorem takeNode {f : NodeId → Parser γ} {f' : NodeId → Parser δ}
    (h : ∀ w₁ id id', K.le w w₁ → (K.numbers w₁).node id id' →
      Agrees K env env' w₁ (f id) (f' id') W) :
    Agrees K env env' w (Parser.takeNode >>= f) (Parser.takeNode >>= f') W := by
  refine bind (V := fun w => (K.numbers w).node) (fun w₁ s s' hle hstates htokens => ?_) h
  obtain ⟨w₂, hle₂, hnode, hstates₂⟩ := K.takeNode hstates
  exact ⟨w₂, hle₂, hstates₂, htokens, rfl, rfl, .ok hnode⟩

theorem takeSeq {f f' : Nat → Parser γ} {W : K.World → γ → γ → Prop}
    (h : ∀ w₁ q q', K.le w w₁ → (K.numbers w₁).seq env.file q q' →
      Agrees K env env' w₁ (f q) (f' q') W) :
    Agrees K env env' w (Parser.takeSeq >>= f) (Parser.takeSeq >>= f') W := by
  refine bind (V := fun w => (K.numbers w).seq env.file) (fun w₁ s s' hle hstates htokens => ?_) h
  obtain ⟨w₂, hle₂, hseq, hstates₂⟩ := K.takeSeq hstates
  exact ⟨w₂, hle₂, hstates₂, htokens, rfl, rfl, .ok hseq⟩

theorem nameRef {name : String} {pos pos' : Position} {f : NameRef → Parser γ}
    {f' : NameRef → Parser δ} (hpos : K.exact → pos = pos')
    (h : ∀ w₁ r r', K.le w w₁ → (K.likeness w₁).ref r r' → Agrees K env env' w₁ (f r) (f' r') W) :
    Agrees K env env' w (Parser.nameRef name pos >>= f) (Parser.nameRef name pos' >>= f') W := by
  refine bind (V := fun w => (K.likeness w).ref) (fun w₁ s s' hle hstates htokens => ?_) h
  rw [Parser.nameRef_eq, Parser.nameRef_eq]
  obtain ⟨w₂, hle₂, hseq, hstates₂⟩ := K.takeSeq hstates
  exact ⟨w₂, hle₂, hstates₂, htokens, rfl, rfl,
    .ok ⟨rfl, hpos, ⟨_, (K.mono hle₂).scope (K.current hstates), hseq⟩, rfl, rfl⟩⟩

theorem declare {name : String} {kind : SymbolKind} {pos pos' : Position} {id id' : NodeId}
    {active : Bool} {f f' : Unit → Parser γ} {W : K.World → γ → γ → Prop}
    (hpos : K.exact → pos = pos') (hnode : kind ≠ .local → (K.numbers w).node id id')
    (h : Agrees K env env' w (f ()) (f' ()) W) :
    Agrees K env env' w (Parser.declare name kind pos id active >>= f)
      (Parser.declare name kind pos' id' active >>= f') W := by
  refine same ?_ fun _ => h
  cases active with
  | false => exact .pure fun _ _ => rfl
  | true =>
    have hrun : ∀ (env : ParserEnv) (pos : Position) (id : NodeId) (s : ParserState),
        Parser.declare name kind pos id true env s
          = (.ok (), (Parser.declare name kind pos id true env s).2) ∧
        (Parser.declare name kind pos id true env s).2.rest = s.rest ∧
        (Parser.declare name kind pos id true env s).2.session.stack = s.session.stack := by
      intro env pos id s
      rw [Parser.declare_true]
      rcases s.session.symbols.declare (s.scope env) (s.symbol env name kind pos id)
        with ⟨_ | _, _⟩ <;> exact ⟨rfl, rfl, rfl⟩
    exact step (fun s => (hrun env pos id s).1) (fun s => (hrun env' pos' id' s).1)
      (fun s => (hrun env pos id s).2.1) (fun s => (hrun env' pos' id' s).2.1)
      (fun s => (hrun env pos id s).2.2) (fun s => (hrun env' pos' id' s).2.2)
      fun w₁ s s' hle hs => by
        obtain ⟨w₂, hle₂, hs₂⟩ := K.declare name kind hpos
          (fun h => (K.mono hle).node (hnode h)) hs
        exact ⟨w₂, hle₂, rfl, hs₂⟩

/-- Work in a scope of its own. -/
theorem inScope {kind : ScopeKind} (hkind : kind ≠ .file)
    (hp : ∀ w₁, K.le w w₁ → Agrees K env env' w₁ p p' V)
    {f : ScopeId × α → Parser γ} {f' : ScopeId × β → Parser δ}
    (h : ∀ w₁ c c' a b, K.le w w₁ → (K.numbers w₁).scope env.file c c' → V w₁ a b →
      Agrees K env env' w₁ (f (c, a)) (f' (c', b)) W) :
    Agrees K env env' w (Parser.inScope kind p >>= f) (Parser.inScope kind p' >>= f') W := by
  refine bind (V := fun w x y => (K.numbers w).scope env.file x.1 y.1 ∧ V w x.2 y.2)
    (fun w₁ s s' hle hstates htokens => ?_)
    fun w₁ x y hle hV => h w₁ x.1 y.1 x.2 y.2 hle hV.1 hV.2
  obtain ⟨w₂, hle₂, hscope, hinner⟩ := K.enter kind hkind hstates
  obtain ⟨w₃, hle₃, hends⟩ := hp w₂ (K.trans hle hle₂) w₂ _ _ (K.refl _) hinner htokens
  have houter : (p env (s.enter env kind)).2.leave.session.stack = s.session.stack :=
    congrArg List.tail hends.stack
  have houter' : (p' env' (s'.enter env' kind)).2.leave.session.stack = s'.session.stack :=
    congrArg List.tail hends.stack'
  have hcurrent : (K.numbers w₃).scope env.file
      ((p env (s.enter env kind)).2.leave.scope env)
      ((p' env' (s'.enter env' kind)).2.leave.scope env') := by
    rw [ParserState.scope, houter, ParserState.scope, houter']
    exact (K.mono (K.trans hle₂ hle₃)).scope (K.current hstates)
  exact ⟨w₃, K.trans hle₂ hle₃, K.leave hends.states hcurrent, hends.tokens, houter, houter',
    hends.values.map fun _ _ hV => ⟨(K.mono hle₃).scope hscope, hV⟩⟩

end Agrees

end Scaffold.Source

/-!
## Parsers in sessions in step

Parsers keep sessions in step: what they number, open and declare belongs together in both.
-/

namespace Scaffold.Source

open SymbolTable

/-- Two parsers are in step: they read one file, at places and in scopes that belong together, in
sessions in step. -/
structure ParserState.InStep (N : Numbers) (exact : Prop) (before : Diagnostics) (env : ParserEnv)
    (s : ParserState) (env' : ParserEnv) (s' : ParserState) : Prop where
  session : s.session.InStep N exact before s'.session
  file : N.file env.file env'.file
  path : env.source.path = env'.source.path
  root : N.scope env.file env.root env'.root
  isFile : s.session.symbols.IsFile env.root
  current : N.scope env.file (s.scope env) (s'.scope env')
  places : ∀ {q q'}, N.seq env.file q q' → q < s.seq ∧ q' < s'.seq
  seq : exact → s.seq = s'.seq
  imports : s.imports = s'.imports
  reading : s.session.imports.get? env.source.path = none ∧
    s'.session.imports.get? env.source.path = none

namespace ParserState.InStep

variable {N : Numbers} {exact : Prop} {before : Diagnostics} {env env' : ParserEnv}
  {s s' : ParserState}

theorem takeSeq (h : InStep N exact before env s env' s') :
    InStep (N.addSeq env.file s.seq s'.seq) exact before env { s with seq := s.seq + 1 } env'
      { s' with seq := s'.seq + 1 } where
  session := h.session.addSeq h.places h.seq
  file := h.file
  path := h.path
  root := h.root
  isFile := h.isFile
  current := h.current
  places := by
    rintro q q' (hq | ⟨-, rfl, rfl⟩)
    · exact ⟨Nat.lt_succ_of_lt (h.places hq).1, Nat.lt_succ_of_lt (h.places hq).2⟩
    · exact ⟨Nat.lt_succ_self _, Nat.lt_succ_self _⟩
  seq hexact := congrArg (· + 1) (h.seq hexact)
  imports := h.imports
  reading := h.reading

theorem enter (h : InStep N exact before env s env' s') (kind : ScopeKind) :
    InStep (N.addScope env.file s.session.symbols.scopes.size s'.session.symbols.scopes.size) exact
      before env (s.enter env kind) env' (s'.enter env' kind) where
  session := h.session.addScope kind (.some h.current) env.file env'.file _ _
  file := h.file
  path := h.path
  root := .inl h.root
  isFile := h.isFile.grows (grows_addScope _ kind _ env.file (fun _ => False) 0)
  current := .inr ⟨rfl, rfl, rfl⟩
  places := h.places
  seq := h.seq
  imports := h.imports
  reading := h.reading

/-- The symbol of a declaration, in both files. -/
theorem symbol (h : InStep N exact before env s env' s') (name : String) (kind : SymbolKind)
    {pos pos' : Position} {id id' : NodeId} (hpos : exact → pos = pos')
    (hnode : kind ≠ .local → N.node id id') :
    SymbolsAlike N exact env.file (s.symbol env name kind pos id)
      (s'.symbol env' name kind pos' id') :=
  ⟨rfl, rfl, h.file, rfl, h.path, hpos, hnode⟩

theorem declare (h : InStep N exact before env s env' s') (name : String) (kind : SymbolKind)
    {pos pos' : Position} {id id' : NodeId} (hpos : exact → pos = pos')
    (hnode : kind ≠ .local → N.node id id') : ∃ N₁ : Numbers, N.Le N₁ ∧
      (∀ {g q q'}, N₁.seq g q q' → N.seq g q q' ∨ g = env.file) ∧
      ParserState.InStep N₁ exact before env (Parser.declare name kind pos id true env s).2 env'
        (Parser.declare name kind pos' id' true env' s').2 := by
  have hnext := h.takeSeq
  have hlookup := h.session.tables.lookup h.current name
  rw [Parser.declare_true, Parser.declare_true, declare_eq, declare_eq]
  have hname : (s.symbol env name kind pos id).name = name := rfl
  have hname' : (s'.symbol env' name kind pos' id').name = name := rfl
  rw [hname, hname']
  generalize hl : s.session.symbols.lookup (s.scope env) name = l at hlookup
  generalize hl' : s'.session.symbols.lookup (s'.scope env') name = l' at hlookup
  have hplaces : ∀ {g q q'}, (N.addSeq env.file s.seq s'.seq).seq g q q' →
      N.seq g q q' ∨ g = env.file := fun hq => hq.imp_right And.left
  cases hlookup with
  | none =>
    have hle := N.le_addSeq env.file s.seq s'.seq
    have hbind := hnext.session.bind (hle.scope h.current)
      ((h.symbol name kind hpos hnode).mono hle) (.inr (.inr ⟨rfl, rfl, rfl⟩)) h.reading
    refine ⟨_, hle.trans (Numbers.le_addSymbol _ _ _), hplaces, hbind, hnext.file, hnext.path, hnext.root,
      ?_, hnext.current, hnext.places, hnext.seq, hnext.imports, hnext.reading⟩
    exact h.isFile.grows (grows_bind _ _ _)
  | @some i i' hi =>
    obtain ⟨f, hi⟩ := hi
    obtain ⟨y, y', hy, hy', hsymbols⟩ := h.session.tables.symbols hi
    dsimp only
    rw [hy, hy']
    have hsame : exact → [CompileError.toDiagnostic
        (.fault env.source.path pos (.duplicateSymbol name y.pos))]
        = [CompileError.toDiagnostic
          (.fault env'.source.path pos' (.duplicateSymbol name y'.pos))] := fun hexact => by
      rw [h.path, hpos hexact, hsymbols.pos hexact]
    have hreport := hnext.session.report hsame
    exact ⟨_, N.le_addSeq _ _ _, hplaces, hreport, hnext.file, hnext.path, hnext.root, hnext.isFile,
      hnext.current, hnext.places, hnext.seq, hnext.imports, hnext.reading⟩

end ParserState.InStep

/-- The link of sessions in step. -/
def Link.sessions (exact : Prop) (before : Diagnostics) : Link where
  World := Numbers
  le := Numbers.Le
  refl := Numbers.Le.refl
  trans := Numbers.Le.trans
  numbers := id
  mono := id
  exact := exact
  states N := ParserState.InStep N exact before
  path h _ := h.path
  platform h := h.session.platform
  current h := h.current
  tokens _ _ h := { h with }
  own _ _ h := { h with }
  report he h :=
    { h with session := h.session.report fun hexact => by rw [he hexact] }
  takeSeq h := ⟨_, Numbers.le_addSeq _ _ _, .inr ⟨rfl, rfl, rfl⟩, h.takeSeq⟩
  takeNode {N _ s _ s'} h := by
    have hle := N.le_addNode s.session.nextNode s'.session.nextNode
    exact ⟨_, hle, .inr ⟨rfl, rfl⟩, h.session.takeNode, hle.file h.file, h.path, hle.scope h.root,
      h.isFile, hle.scope h.current, h.places, h.seq, h.imports, h.reading⟩
  enter kind _ h := ⟨_, Numbers.le_addScope _ _ _, .inr ⟨rfl, rfl, rfl⟩, h.enter kind⟩
  leave h hcurrent :=
    ⟨{ h.session with }, h.file, h.path, h.root, h.isFile, hcurrent, h.places, h.seq,
      h.imports, h.reading⟩
  declare name kind _ _ _ _ hpos hnode h :=
    (h.declare name kind hpos hnode).imp fun _ hle => ⟨hle.1, hle.2.2⟩

end Scaffold.Source
