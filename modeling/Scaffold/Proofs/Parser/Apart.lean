import Scaffold.Compiler
import Scaffold.Proofs.Parser.Run

/-!
# Parsers that keep apart from other files

Only import statements lead from one file to another. Every other parser leaves the files of the
session alone, does the same whatever loading a file would do, fails for a fault of its own file,
and passes no import statement. `Apart P p Q` says all of this of a parser, with what is known of
the tokens ahead before and after it; `Tame p` is the form in which it is used. Which parsers are
like this follows with the rest of what is known of them (`Parser.Passage`).

* `importStatements`: the import statements among tokens. There is one place where the parser passes
  over tokens without a look at them, the precision of a number type, so what stands in parentheses
  is no statement.
* `importing`: what an import statement does behind its tokens.
-/

namespace Scaffold

/-- The two sessions have the same documents, started the same files, and follow the same chain. -/
structure Session.SameFiles (s s' : Session) : Prop where
  imports : s'.imports = s.imports
  files : s'.symbols.files = s.symbols.files

namespace Session.SameFiles

variable {s s' s'' : Session}

theorem refl (s : Session) : s.SameFiles s :=
  ⟨rfl, rfl⟩

theorem trans (h : s.SameFiles s') (h' : s'.SameFiles s'') : s.SameFiles s'' :=
  ⟨h'.imports.trans h.imports, h'.files.trans h.files⟩

end Session.SameFiles

def Session.onto (platform : Option Platform) (s : Session) : Session :=
  { s with platform }

namespace Source

/-! ## Import statements -/

/-- The file that an import names, by the tokens after its first word. -/
def importName? : List Token → Option String
  | ⟨.str name, _⟩ :: ⟨.punct .semicolon, _⟩ :: _ => some name
  | _ => none

/-- What the import statements among tokens name, in order, up to the end mark. What stands in
parentheses is no statement: `inside` says that the last parenthesis was an opening one. -/
def importStatements : (inside : Bool) → List Token → List String
  | _, [] => []
  | inside, ⟨kind, _⟩ :: rest =>
    match kind with
    | .eof => []
    | .punct .parenOpen => importStatements true rest
    | .punct .parenClose => importStatements false rest
    | .keyword .importKw =>
      if inside then importStatements inside rest
      else (importName? rest).toList ++ importStatements inside rest
    | _ => importStatements inside rest

/-- The kind of the first token; no token counts as the end mark. -/
def nextKind (ts : List Token) : TokenKind :=
  (ts.headD ⟨.eof, {}⟩).kind

theorem eq_cons_of_nextKind {ts : List Token} {kind : TokenKind} (h : nextKind ts = kind)
    (hkind : kind ≠ .eof) : ∃ pos, ts = ⟨kind, pos⟩ :: ts.tail := by
  cases ts with
  | nil => exact absurd h.symm hkind
  | cons t ts =>
    obtain ⟨k, pos⟩ := t
    obtain rfl : k = kind := h
    exact ⟨pos, rfl⟩

/-- Passing a token of this kind has no effect on what import statements there are. -/
def IsPlain : TokenKind → Prop
  | .eof | .punct .parenOpen | .punct .parenClose | .keyword .importKw => False
  | _ => True

variable {inside : Bool} {t : Token} {ts : List Token} {ws : List String}

theorem importStatements_cons_of_plain (h : IsPlain t.kind) :
    importStatements inside (t :: ts) = importStatements inside ts := by
  obtain ⟨kind, pos⟩ := t
  rw [importStatements.eq_def]
  dsimp only
  split
  · exact h.elim
  · exact h.elim
  · exact h.elim
  · exact h.elim
  · rfl

theorem importStatements_of_nextKind_eof (h : nextKind ts = .eof) :
    importStatements inside ts = [] := by
  cases ts with
  | nil => rfl
  | cons t ts =>
    obtain ⟨kind, pos⟩ := t
    obtain rfl : kind = .eof := h
    rfl

/-- What is known of the tokens ahead: the import statements that are left, and something about the
next token. With `inside` a parenthesis may be open. -/
structure Ahead (inside : Bool) (next : TokenKind → Prop) (ws : List String) (ts : List Token) :
    Prop where
  statements : importStatements false ts = ws ∨ inside = true ∧ importStatements true ts = ws
  next : next (nextKind ts)

/-- Nothing is known of the next token. -/
def anything (_ : TokenKind) : Prop := True

theorem Ahead.forget {next : TokenKind → Prop} (h : Ahead inside next ws ts) :
    Ahead inside anything ws ts :=
  ⟨h.statements, trivial⟩

theorem Ahead.outside (h : Ahead false anything ws ts) : Ahead inside anything ws ts :=
  ⟨.inl (h.statements.resolve_right fun h => Bool.false_ne_true h.1), trivial⟩

theorem Ahead.tail {next : TokenKind → Prop} (h : Ahead inside next ws ts)
    (hplain : ∀ kind, next kind → IsPlain kind) : Ahead inside anything ws ts.tail := by
  have hkind := hplain _ h.next
  cases ts with
  | nil => exact hkind.elim
  | cons t ts =>
    have hsame : ∀ b, importStatements b (t :: ts) = importStatements b ts := fun _ =>
      importStatements_cons_of_plain hkind
    have hstatements := h.statements
    rw [hsame, hsame] at hstatements
    exact ⟨hstatements, trivial⟩

/-! ## Targets -/

/-- The annotations that a token holds. -/
def annotationsOf : TokenKind → List (String × AnnotationValue)
  | .annotations pairs => pairs
  | _ => []

/-- No annotation among the tokens says which platforms a declaration is for. -/
def Unmarked (ts : List Token) : Prop :=
  ∀ t ∈ ts, ∀ x ∈ annotationsOf t.kind, x.1 ≠ "platform"

instance (ts : List Token) : Decidable (Unmarked ts) :=
  inferInstanceAs (Decidable (∀ t ∈ ts, ∀ x ∈ annotationsOf t.kind, x.1 ≠ "platform"))

theorem Unmarked.suffix {ts ts' : List Token} (h : Unmarked ts) (hsuffix : ts' <:+ ts) :
    Unmarked ts' :=
  fun t ht => h t (hsuffix.subset ht)

/-- The same state in a session for another target. -/
def ParserState.onto (platform : Option Platform) (s : ParserState) : ParserState :=
  { s with session := s.session.onto platform }

/-! ## Keeping apart -/

/-- The files of the session, the open scopes and the imports of the file are the same, and no number
is given back. -/
structure Still (s s' : ParserState) : Prop where
  imports : s'.imports = s.imports
  stack : s'.session.stack = s.session.stack
  session : s.session.SameFiles s'.session
  numbers : s.session.nextNode ≤ s'.session.nextNode

theorem Still.refl (s : ParserState) : Still s s :=
  ⟨rfl, rfl, .refl _, Nat.le_refl _⟩

theorem Still.trans {s s' s'' : ParserState} (h : Still s s') (h' : Still s' s'') : Still s s'' :=
  ⟨h'.imports.trans h.imports, h'.stack.trans h.stack, h.session.trans h'.session,
    Nat.le_trans h.numbers h'.numbers⟩

/-- The error is a fault of the file itself, and no mere warning. -/
def IsOwnFault (file : Path) (e : CompileError) : Prop :=
  ∃ pos fault, e = .fault file pos fault ∧ fault.severity = .error

theorem IsOwnFault.noCycle {file : Path} {e : CompileError} (h : IsOwnFault file e)
    (chain : List Path) : e ≠ .importCycle chain := by
  obtain ⟨pos, fault, rfl, -⟩ := h
  exact nofun

/-- The parser has nothing to do with other files, and with the target only where tokens name it;
where `P` holds of the tokens ahead of it, `Q` holds of those ahead of it when it succeeds. -/
structure Apart {α : Type} (P : List Token → Prop) (p : Parser α) (Q : List Token → Prop) :
    Prop where
  load : ∀ env load s, p { env with load } s = p env s
  platform : ∀ env platform s, Unmarked s.rest →
    p env (s.onto platform) = ((p env s).1, (p env s).2.onto platform)
  still : ∀ env s, Still s (p env s).2
  error : ∀ env s e s', p env s = (.error e, s') → IsOwnFault env.source.path e
  suffix : ∀ env s a s', p env s = (.ok a, s') → s'.rest <:+ s.rest
  tokens : ∀ env s a s', p env s = (.ok a, s') → P s.rest → Q s'.rest

/-- The parser keeps apart from other files, where no parenthesis is open. -/
def Tame {α : Type} (p : Parser α) : Prop :=
  ∀ ws, Apart (Ahead false anything ws) p (Ahead false anything ws)

namespace Apart

variable {α β : Type} {P Q R : List Token → Prop} {p : Parser α} {f : α → Parser β}

theorem mono {P' Q' : List Token → Prop} (h : Apart P p Q) (hP : ∀ ts, P' ts → P ts)
    (hQ : ∀ ts, Q ts → Q' ts) : Apart P' p Q' where
  load := h.load
  platform := h.platform
  still := h.still
  error := h.error
  suffix := h.suffix
  tokens env s a s' hp hs := hQ _ (h.tokens env s a s' hp (hP _ hs))

theorem pure (a : α) : Apart P (Pure.pure a : Parser α) P where
  load _ _ _ := rfl
  platform _ _ _ _ := rfl
  still _ s := .refl s
  error _ _ _ _ h := by cases h
  suffix _ _ _ _ h := by
    cases h
    exact List.suffix_refl _
  tokens _ _ _ _ h hs := by
    cases h
    exact hs

theorem bind (hp : Apart P p Q) (hf : ∀ a, Apart Q (f a) R) : Apart P (p >>= f) R where
  load env load s := by
    show Parser.bind p f _ s = Parser.bind p f env s
    unfold Parser.bind
    rw [hp.load]
    split
    · exact (hf _).load env load _
    · rfl
  platform env platform s hs := by
    show Parser.bind p f env _ = ((Parser.bind p f env s).1, (Parser.bind p f env s).2.onto platform)
    have hfirst := hp.platform env platform s hs
    unfold Parser.bind
    rw [hfirst]
    rcases heq : p env s with ⟨e | a, s₁⟩
    · rfl
    · exact (hf a).platform env platform s₁ (hs.suffix (hp.suffix env s a s₁ heq))
  still env s := by
    have hfirst := hp.still env s
    show Still s (Parser.bind p f env s).2
    unfold Parser.bind
    split
    · rename_i a s₁ heq
      rw [heq] at hfirst
      exact hfirst.trans ((hf a).still env s₁)
    · rename_i heq
      rw [heq] at hfirst
      exact hfirst
  error env s e s' h := by
    replace h : Parser.bind p f env s = _ := h
    unfold Parser.bind at h
    split at h
    · exact (hf _).error _ _ _ _ h
    · rename_i heq
      cases h
      exact hp.error _ _ _ _ heq
  suffix env s a s' h := by
    replace h : Parser.bind p f env s = _ := h
    unfold Parser.bind at h
    split at h
    · rename_i b s₁ heq
      exact ((hf b).suffix _ _ _ _ h).trans (hp.suffix _ _ _ _ heq)
    · cases h
  tokens env s a s' h hs := by
    replace h : Parser.bind p f env s = _ := h
    unfold Parser.bind at h
    split at h
    · rename_i b s₁ heq
      exact (hf b).tokens _ _ _ _ h (hp.tokens _ _ _ _ heq hs)
    · cases h

/-- A parser that reads no token and always succeeds. -/
theorem of_fixed (hload : ∀ env load s, p { env with load } s = p env s)
    (hplatform : ∀ env platform s, p env (s.onto platform)
      = ((p env s).1, (p env s).2.onto platform))
    (h : ∀ env s, ∃ a s', p env s = (.ok a, s') ∧ s'.rest = s.rest ∧ Still s s') :
    Apart P p P where
  load := hload
  platform env platform s _ := hplatform env platform s
  still env s := by
    obtain ⟨a, s', hp, -, hstill⟩ := h env s
    rw [hp]
    exact hstill
  error env s e s' hp := by
    obtain ⟨a, s₁, hp', -⟩ := h env s
    rw [hp] at hp'
    cases hp'
  suffix env s a s' hp := by
    obtain ⟨b, s₁, hp', hrest, -⟩ := h env s
    rw [hp] at hp'
    cases hp'
    exact hrest ▸ List.suffix_refl _
  tokens env s a s' hp hs := by
    obtain ⟨b, s₁, hp', hrest, -⟩ := h env s
    rw [hp] at hp'
    cases hp'
    rwa [hrest]

/-- A parser that only fails, for a fault of its file. -/
theorem of_fault (hload : ∀ env load s, p { env with load } s = p env s)
    (hplatform : ∀ env platform s, p env (s.onto platform)
      = ((p env s).1, (p env s).2.onto platform))
    (h : ∀ env s, ∃ pos fault, p env s = (.error (.fault env.source.path pos fault), s) ∧
      fault.severity = .error) : Apart P p Q where
  load := hload
  platform env platform s _ := hplatform env platform s
  still env s := by
    obtain ⟨pos, fault, hp, -⟩ := h env s
    rw [hp]
    exact .refl s
  error env s e s' hp := by
    obtain ⟨pos, fault, hp', hsevere⟩ := h env s
    rw [hp] at hp'
    cases hp'
    exact ⟨pos, fault, rfl, hsevere⟩
  suffix env s a s' hp := by
    obtain ⟨pos, fault, hp', -⟩ := h env s
    rw [hp] at hp'
    cases hp'
  tokens env s a s' hp := by
    obtain ⟨pos, fault, hp', -⟩ := h env s
    rw [hp] at hp'
    cases hp'

/-- The parser does the same as one that keeps apart, by what tokens are ahead. -/
theorem of_runs (h : ∀ ts : List Token, ∃ q P', Apart P' q Q ∧ (P ts → P' ts) ∧
    ∀ env s, s.rest = ts → p env s = q env s) : Apart P p Q where
  load env load s := by
    obtain ⟨q, P', hq, -, hrun⟩ := h s.rest
    rw [hrun _ s rfl, hrun _ s rfl]
    exact hq.load env load s
  platform env platform s hs := by
    obtain ⟨q, P', hq, -, hrun⟩ := h s.rest
    rw [hrun _ s rfl, hrun _ (s.onto platform) rfl]
    exact hq.platform env platform s hs
  still env s := by
    obtain ⟨q, P', hq, -, hrun⟩ := h s.rest
    rw [hrun _ s rfl]
    exact hq.still env s
  error env s e s' hp := by
    obtain ⟨q, P', hq, -, hrun⟩ := h s.rest
    rw [hrun _ s rfl] at hp
    exact hq.error env s e s' hp
  suffix env s a s' hp := by
    obtain ⟨q, P', hq, -, hrun⟩ := h s.rest
    rw [hrun _ s rfl] at hp
    exact hq.suffix env s a s' hp
  tokens env s a s' hp hs := by
    obtain ⟨q, P', hq, hP, hrun⟩ := h s.rest
    rw [hrun _ s rfl] at hp
    exact hq.tokens env s a s' hp (hP hs)

end Apart

namespace Tame

variable {α β : Type} {p : Parser α} {f : α → Parser β}

theorem pure (a : α) : Tame (Pure.pure a : Parser α) :=
  fun _ => .pure a

theorem bind (hp : Tame p) (hf : ∀ a, Tame (f a)) : Tame (p >>= f) :=
  fun ws => (hp ws).bind fun a => hf a ws

/-- What a tame parser does to the tokens ahead, where no parenthesis is open. -/
theorem tokens (hp : Tame p) {env : ParserEnv} {s s' : ParserState} {a : α}
    (h : p env s = (.ok a, s')) : s'.rest.length ≤ s.rest.length ∧
      importStatements false s'.rest = importStatements false s.rest := by
  have hpart := hp (importStatements false s.rest)
  have hahead := hpart.tokens env s a s' h ⟨.inl rfl, trivial⟩
  exact ⟨(hpart.suffix env s a s' h).length_le,
    hahead.statements.resolve_right fun h => Bool.false_ne_true h.1⟩

end Tame

namespace Parser

variable {α β : Type} {R : List Token → Prop} {inside : Bool} {next : TokenKind → Prop}
  {ws : List String}

theorem bind_run {p : Parser α} {f : α → Parser β} {env : ParserEnv} {s s' : ParserState} {a : α}
    (h : p env s = (.ok a, s')) : (p >>= f) env s = f a env s' := by
  show Parser.bind p f env s = _
  rw [Parser.bind, h]

theorem bind_failed {p : Parser α} {f : α → Parser β} {env : ParserEnv} {s s' : ParserState}
    {e : CompileError} (h : p env s = (.error e, s')) : (p >>= f) env s = (.error e, s') := by
  show Parser.bind p f env s = _
  rw [Parser.bind, h]

/-! ## Tokens -/

theorem skipPunct_run (p : Punct) (env : ParserEnv) (s : ParserState) : skipPunct p env s =
    if nextKind s.rest = .punct p then (.ok true, { s with rest := s.rest.tail })
    else (.ok false, s) := by
  have hrun : skipPunct p env s = (if nextKind s.rest == .punct p then
      (do advance; return true : Parser Bool) else pure false) env s := rfl
  rw [hrun]
  by_cases hnext : nextKind s.rest = .punct p
  · rw [if_pos hnext, if_pos (by simpa using hnext)]
    rfl
  · rw [if_neg hnext, if_neg (by simpa using hnext)]
    rfl

theorem skipPunct_ok {p : Punct} {env : ParserEnv} {s s₁ : ParserState}
    (h : skipPunct p env s = (.ok true, s₁)) :
    nextKind s.rest = .punct p ∧ s₁.rest = s.rest.tail := by
  rw [skipPunct_run] at h
  split at h
  · rename_i hnext
    cases h
    exact ⟨hnext, rfl⟩
  · cases h

theorem expected_apart {P : List Token → Prop} (what : String) :
    Apart P (expected what : Parser α) R :=
  .of_fault (fun _ _ _ => rfl) (fun _ _ _ => rfl) fun _ _ => ⟨_, _, rfl, rfl⟩

/-- What follows depends on the state but not on its target. -/
theorem state_apart {P : List Token → Prop} {f : ParserState → Parser β}
    (h : ∀ s, Apart P (f s) R) (honto : ∀ s platform, f (s.onto platform) = f s) :
    Apart P (state >>= f) R where
  load env load s := (h s).load env load s
  platform env platform s hs := by
    show f (s.onto platform) env (s.onto platform) = _
    rw [honto]
    exact (h s).platform env platform s hs
  still env s := (h s).still env s
  error env s e s' hp := (h s).error env s e s' hp
  suffix env s a s' hp := (h s).suffix env s a s' hp
  tokens env s a s' hp hs := (h s).tokens env s a s' hp hs

theorem remaining_apart {P : List Token → Prop} : Apart P remaining P :=
  .of_fixed (fun _ _ _ => rfl) (fun _ _ _ => rfl) fun _ s => ⟨_, _, rfl, rfl, .refl s⟩

theorem remaining_tame : Tame remaining :=
  fun _ => remaining_apart

/-- A look at the tokens tells something of the kind of the next one. -/
theorem look_apart {p : Parser α} {f : α → Parser β} {told : α → TokenKind → Prop}
    (hp : ∀ ts, ∃ a, told a (nextKind ts) ∧ ∀ env s, s.rest = ts → p env s = (.ok a, s))
    (hf : ∀ a, Apart (Ahead inside (fun kind => next kind ∧ told a kind) ws) (f a) R) :
    Apart (Ahead inside next ws) (p >>= f) R := by
  refine .of_runs fun ts => ?_
  obtain ⟨a, ha, hp⟩ := hp ts
  exact ⟨f a, _, hf a, fun hs => ⟨hs.statements, hs.next, ha⟩, fun env s hs => bind_run (hp env s hs)⟩

theorem peek_apart {f : Token → Parser β}
    (h : ∀ t, Apart (Ahead inside (fun kind => next kind ∧ kind = t.kind) ws) (f t) R) :
    Apart (Ahead inside next ws) (peek >>= f) R :=
  look_apart (fun ts => ⟨ts.headD ⟨.eof, {}⟩, rfl, fun _ _ hs => hs ▸ rfl⟩) h

theorem isNext_apart {kind : TokenKind} {f : Bool → Parser β}
    (h : ∀ b, Apart (Ahead inside (fun k => next k ∧ (b = true → k = kind)) ws) (f b) R) :
    Apart (Ahead inside next ws) (isNext kind >>= f) R :=
  look_apart (fun ts => ⟨nextKind ts == kind, by simp, fun _ _ hs => hs ▸ rfl⟩) h

theorem peek_tame : Tame peek :=
  fun _ => .of_fixed (fun _ _ _ => rfl) (fun _ _ _ => rfl) fun _ s => ⟨_, _, rfl, rfl, .refl s⟩

theorem isNext_tame (kind : TokenKind) : Tame (isNext kind) :=
  fun _ => .of_fixed (fun _ _ _ => rfl) (fun _ _ _ => rfl) fun _ s => ⟨_, _, rfl, rfl, .refl s⟩

theorem advance_of {P Q : List Token → Prop} (h : ∀ ts, P ts → Q ts.tail) : Apart P advance Q where
  load _ _ _ := rfl
  platform _ _ _ _ := rfl
  still _ s := ⟨rfl, rfl, .refl _, Nat.le_refl _⟩
  error _ _ _ _ hp := by cases hp
  suffix _ s _ _ hp := by
    cases hp
    exact List.tail_suffix _
  tokens _ s _ _ hp hs := by
    cases hp
    exact h _ hs

/-- Moving past a token that no import statement starts with. -/
theorem advance_plain (h : ∀ kind, next kind → IsPlain kind) :
    Apart (Ahead inside next ws) advance (Ahead inside anything ws) :=
  advance_of fun _ hs => hs.tail h

theorem expect_tame {kind : TokenKind} (hkind : IsPlain kind) : Tame (expect kind) := by
  refine fun _ => peek_apart fun t => ?_
  split
  · rename_i ht
    exact .bind (advance_plain fun _ hk => hk.2 ▸ eq_of_beq ht ▸ hkind) fun _ => .pure _
  · exact expected_apart _

theorem expectPunct_tame {p : Punct} (hp : IsPlain (.punct p)) : Tame (expectPunct p) :=
  .bind (expect_tame hp) fun _ => .pure _

theorem expectKeyword_tame {k : Keyword} (hk : IsPlain (.keyword k)) : Tame (expectKeyword k) :=
  expect_tame hk

theorem skipPunct_tame {p : Punct} (hp : IsPlain (.punct p)) : Tame (skipPunct p) := by
  refine fun _ => isNext_apart fun b => ?_
  split
  · rename_i hb
    exact .bind (advance_plain fun _ hk => hk.2 hb ▸ hp) fun _ => .pure _
  · exact .mono (.pure _) (fun _ => id) fun _ => Ahead.forget

/-- A token of another kind may be passed, whatever it leads to. -/
theorem expect_apart (kind : TokenKind) :
    Apart (Ahead false (fun _ => False) []) (expect kind) (Ahead false anything []) := by
  refine peek_apart fun t => ?_
  split
  · exact .bind (advance_of fun _ hs => hs.next.1.elim) fun _ => .pure _
  · exact expected_apart _

/-! ## Parentheses -/

theorem importStatements_open {b : Bool} {ts : List Token} (h : nextKind ts = .punct .parenOpen) :
    importStatements b ts = importStatements true ts.tail := by
  cases ts with
  | nil => cases h
  | cons t ts =>
    obtain ⟨kind, pos⟩ := t
    obtain rfl : kind = .punct .parenOpen := h
    rfl

theorem importStatements_close {b : Bool} {ts : List Token}
    (h : nextKind ts = .punct .parenClose) :
    importStatements b ts = importStatements false ts.tail := by
  cases ts with
  | nil => cases h
  | cons t ts =>
    obtain ⟨kind, pos⟩ := t
    obtain rfl : kind = .punct .parenClose := h
    rfl

/-- Moving past an opening parenthesis. -/
theorem open_apart (h : ∀ kind, next kind → kind = .punct .parenOpen) :
    Apart (Ahead inside next ws) advance (fun ts => importStatements true ts = ws) := by
  refine advance_of fun ts hs => ?_
  have hsame := fun b => importStatements_open (b := b) (h _ hs.next)
  have hstatements := hs.statements
  rw [hsame, hsame] at hstatements
  exact hstatements.elim id (·.2)

theorem inside_of_open {ts : List Token} (h : importStatements true ts = ws) :
    Ahead true anything ws ts :=
  ⟨.inr ⟨rfl, h⟩, trivial⟩

/-! ## Scopes -/

/-- Work in a scope of its own keeps apart if it does anywhere. -/
theorem inScope_apart {α : Type} {P Q : List Token → Prop} {p : Parser α} (kind : ScopeKind)
    (h : Apart P p Q) : Apart P (inScope kind p) Q := by
  let enter (env : ParserEnv) (s : ParserState) : ParserState :=
    { s with session := { s.session with
        symbols := (s.session.symbols.addScope kind (some (s.scope env)) env.file).2
        stack := s.session.symbols.scopes.size :: s.session.stack } }
  let leave (s : ParserState) : ParserState :=
    { s with session := { s.session with stack := s.session.stack.tail } }
  have heq : ∀ env s, inScope kind p env s = ((p env (enter env s)).1.map
      (s.session.symbols.scopes.size, ·), leave (p env (enter env s)).2) := fun _ _ => rfl
  refine ⟨fun env load s => ?_, fun env platform s hs => ?_, fun env s => ?_,
    fun env s e s' hp => ?_, fun env s a s' hp => ?_, fun env s a s' hp hs => ?_⟩
  · rw [heq, heq]
    have hload := h.load env load (enter env s)
    have henter : enter { env with load } s = enter env s := rfl
    rw [henter, hload]
  · rw [heq, heq]
    have hplatform := h.platform env platform (enter env s) hs
    have henter : enter env (s.onto platform) = (enter env s).onto platform := rfl
    rw [henter, hplatform]
    rfl
  · rw [heq]
    have hstill := h.still env (enter env s)
    refine ⟨hstill.imports, ?_, ⟨hstill.session.imports, hstill.session.files⟩, hstill.numbers⟩
    show (p env (enter env s)).2.session.stack.tail = s.session.stack
    rw [hstill.stack]
    rfl
  · rw [heq] at hp
    cases hr : p env (enter env s) with
    | mk r s₁ =>
      rw [hr] at hp
      cases r with
      | error e' =>
        cases hp
        exact h.error _ _ _ _ hr
      | ok b => cases hp
  · rw [heq] at hp
    cases hr : p env (enter env s) with
    | mk r s₁ =>
      rw [hr] at hp
      cases r with
      | error e' => cases hp
      | ok b =>
        cases hp
        exact h.suffix env (enter env s) b s₁ hr
  · rw [heq] at hp
    cases hr : p env (enter env s) with
    | mk r s₁ =>
      rw [hr] at hp
      cases r with
      | error e' => cases hp
      | ok b =>
        cases hp
        exact h.tokens env (enter env s) b s₁ hr hs

end Parser

/-! ## Imports -/

/-- What an import of the file `found` does, by what loading a file does. -/
def importing {α : Type} (env : ParserEnv) (load : Loader) (found : SourceFile)
    (value : Document → α) (s : ParserState) : Except CompileError α × ParserState :=
  match load found s.session with
  | (.error e, session) => (.error e, { s with seq := s.seq + 1, session })
  | (.ok d, session) => (.ok (value d), s.addImport env d session)

end Source

end Scaffold
