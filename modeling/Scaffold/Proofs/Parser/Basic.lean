import Scaffold.Proofs.Reading
import Scaffold.Source.Parser.Basic

/-!
# Parsers that only read

Most parsers move over tokens, number the names they come across and report faults, and leave
everything else alone. `Reads env s us s'` says that this is all that happened between two states,
and that the names `us` are new names, written in the innermost scope in between. `Scans` is the
same for a parser, after names that were read before it; its rules follow the programs.
-/

namespace Scaffold.Source

def ParserState.scope (env : ParserEnv) (s : ParserState) : ScopeId :=
  s.session.stack.headD env.root

/-- Between the two states only tokens were read, and the names `us` came up. -/
structure Reads (env : ParserEnv) (s : ParserState) (us : List Use) (s' : ParserState) : Prop where
  session : ∃ more, s'.session = { s.session with diagnostics := s.session.diagnostics ++ more }
  imports : s'.imports = s.imports
  owner : s'.owner = s.owner
  seq : s.seq ≤ s'.seq
  uses : ∀ u ∈ us, u.ref.target = none ∧ u.ref.scope = s.scope env ∧
    s.seq ≤ u.ref.seq ∧ u.ref.seq < s'.seq

namespace Reads

variable {env : ParserEnv} {s s' s'' : ParserState} {us us' : List Use}

theorem refl (s : ParserState) : Reads env s [] s :=
  ⟨⟨[], by simp⟩, rfl, rfl, Nat.le_refl _, by simp⟩

theorem stack (h : Reads env s us s') : s'.session.stack = s.session.stack := by
  obtain ⟨more, hs⟩ := h.session
  rw [hs]

theorem symbols (h : Reads env s us s') : s'.session.symbols = s.session.symbols := by
  obtain ⟨more, hs⟩ := h.session
  rw [hs]

theorem scope (h : Reads env s us s') : s'.scope env = s.scope env := by
  rw [ParserState.scope, h.stack]
  rfl

theorem mono (h : Reads env s us s') (hsub : ∀ u ∈ us', u ∈ us) : Reads env s us' s' :=
  ⟨h.session, h.imports, h.owner, h.seq, fun u hu => h.uses u (hsub u hu)⟩

theorem trans (h : Reads env s us s') (h' : Reads env s' us' s'') :
    Reads env s (us ++ us') s'' where
  session := by
    obtain ⟨more, hs⟩ := h.session
    obtain ⟨more', hs'⟩ := h'.session
    exact ⟨more ++ more', by rw [hs', hs]; simp⟩
  imports := h'.imports.trans h.imports
  owner := h'.owner.trans h.owner
  seq := Nat.le_trans h.seq h'.seq
  uses u hu := by
    obtain hu | hu := List.mem_append.1 hu
    · obtain ⟨ht, hsc, hle, hlt⟩ := h.uses u hu
      exact ⟨ht, hsc, hle, Nat.lt_of_lt_of_le hlt h'.seq⟩
    · obtain ⟨ht, hsc, hle, hlt⟩ := h'.uses u hu
      exact ⟨ht, hsc.trans h.scope, Nat.le_trans h.seq hle, hlt⟩

end Reads

/-- A parser that reads: after the names in `pre` were read, its success leaves the names that `U`
finds in its result. -/
def Scans {α : Type} (env : ParserEnv) (pre : List Use) (p : Parser α) (U : α → List Use) : Prop :=
  ∀ s₀ s a s', Reads env s₀ pre s → p env s = (.ok a, s') → Reads env s₀ (U a) s'

namespace Parser

variable {α β : Type} {env : ParserEnv} {s s' : ParserState}

theorem bind_ok {p : Parser α} {f : α → Parser β} {b : β} :
    (p >>= f) env s = (.ok b, s') ↔
      ∃ a s₁, p env s = (.ok a, s₁) ∧ f a env s₁ = (.ok b, s') := by
  constructor
  · intro h
    cases hp : p env s with
    | mk r s₁ =>
      cases r with
      | ok a => exact ⟨a, s₁, rfl, by simpa [Bind.bind, Parser.bind, hp] using h⟩
      | error e => simp [Bind.bind, Parser.bind, hp] at h
  · rintro ⟨a, s₁, hp, hf⟩
    simp [Bind.bind, Parser.bind, hp, hf]

theorem pure_ok {a b : α} : (pure a : Parser α) env s = (.ok b, s') ↔ a = b ∧ s = s' := by
  simp [Pure.pure, Parser.pure]

end Parser

namespace Scans

variable {α β : Type} {env : ParserEnv} {pre pre' : List Use}

theorem reads {p : Parser α} {U : α → List Use} (h : Scans env [] p U) {s s' : ParserState} {a : α}
    (hp : p env s = (.ok a, s')) : Reads env s (U a) s' :=
  h _ _ _ _ (.refl s) hp

theorem pure {a : α} {U : α → List Use} (h : ∀ u ∈ U a, u ∈ pre) :
    Scans env pre (Pure.pure a) U := by
  intro s₀ s b s' hpre hp
  obtain ⟨rfl, rfl⟩ := Parser.pure_ok.1 hp
  exact hpre.mono h

theorem bind {p : Parser α} {f : α → Parser β} {U : α → List Use} {W : β → List Use}
    (hp : Scans env [] p U) (hf : ∀ a, Scans env (pre ++ U a) (f a) W) :
    Scans env pre (p >>= f) W := by
  intro s₀ s b s' hpre h
  obtain ⟨a, s₁, ha, hb⟩ := Parser.bind_ok.1 h
  exact hf a _ _ _ _ (hpre.trans (hp.reads ha)) hb

/-- Going on with names read before: what the first part finds is handed on with them. -/
theorem andThen {p : Parser α} {f : α → Parser β} {U : α → List Use} {W : β → List Use}
    (hp : Scans env pre p U) (hf : ∀ a, Scans env (U a) (f a) W) : Scans env pre (p >>= f) W := by
  intro s₀ s b s' hpre h
  obtain ⟨a, s₁, ha, hb⟩ := Parser.bind_ok.1 h
  exact hf a _ _ _ _ (hp _ _ _ _ hpre ha) hb

theorem mono {p : Parser α} {U W : α → List Use} (h : Scans env pre p U)
    (hpre : ∀ u ∈ pre, u ∈ pre') (hsub : ∀ a, ∀ u ∈ W a, u ∈ U a) : Scans env pre' p W :=
  fun _ _ _ _ hr hp => (h _ _ _ _ (hr.mono hpre) hp).mono (hsub _)

/-- A parser that finds no names may go first. -/
theorem skip {p : Parser α} {f : α → Parser β} {W : β → List Use} (hp : Scans env [] p fun _ => [])
    (hf : ∀ a, Scans env pre (f a) W) : Scans env pre (p >>= f) W := by
  refine hp.bind fun a => ?_
  rw [List.append_nil]
  exact hf a

theorem of_eq {p : Parser α} {U : α → List Use} (h : ∀ s, ∃ r, p env s = (r, s))
    (hU : ∀ a, U a = []) : Scans env [] p U := by
  intro s₀ s a s' hpre hp
  obtain ⟨r, hr⟩ := h s
  rw [hp] at hr
  cases hr
  rw [hU]
  exact hpre

theorem of_fails {p : Parser α} {U : α → List Use} (h : ∀ s, ∃ e s', p env s = (.error e, s')) :
    Scans env pre p U := by
  intro s₀ s a s' _ hp
  obtain ⟨e, s₁, he⟩ := h s
  rw [hp] at he
  cases he

end Scans

namespace Parser

variable {α β : Type} {env : ParserEnv} {pre : List Use}

/-! ## Tokens -/

theorem env_scans : Scans env [] Parser.env fun _ => [] :=
  .of_eq (fun _ => ⟨_, rfl⟩) fun _ => rfl

theorem peek_scans : Scans env [] peek fun _ => [] :=
  .of_eq (fun _ => ⟨_, rfl⟩) fun _ => rfl

theorem peekKind_scans (n : Nat) : Scans env [] (peekKind n) fun _ => [] :=
  .of_eq (fun _ => ⟨_, rfl⟩) fun _ => rfl

theorem remaining_scans : Scans env [] remaining fun _ => [] :=
  .of_eq (fun _ => ⟨_, rfl⟩) fun _ => rfl

theorem advance_scans : Scans env [] advance fun _ => [] := by
  intro s₀ s a s' hpre hp
  cases hp
  exact ⟨hpre.session, hpre.imports, hpre.owner, hpre.seq, by simp⟩

theorem expected_scans (what : String) {U : α → List Use} : Scans env pre (expected what) U :=
  .of_fails fun _ => ⟨_, _, rfl⟩

theorem isNext_scans (kind : TokenKind) : Scans env [] (isNext kind) fun _ => [] :=
  .bind peek_scans fun _ => .pure (by simp)

theorem atEnd_scans : Scans env [] atEnd fun _ => [] :=
  isNext_scans .eof

theorem isPunct_scans (p : Punct) : Scans env [] (isPunct p) fun _ => [] :=
  isNext_scans _

theorem isKeyword_scans (k : Keyword) : Scans env [] (isKeyword k) fun _ => [] :=
  isNext_scans _

theorem isIdent_scans (name : String) : Scans env [] (isIdent name) fun _ => [] :=
  isNext_scans _

theorem expect_scans (kind : TokenKind) : Scans env [] (expect kind) fun _ => [] := by
  refine .bind peek_scans fun t => ?_
  split
  · exact .bind advance_scans fun _ => .pure (by simp)
  · exact expected_scans _

theorem expectKeyword_scans (k : Keyword) : Scans env [] (expectKeyword k) fun _ => [] :=
  expect_scans _

theorem expectPunct_scans (p : Punct) : Scans env [] (expectPunct p) fun _ => [] :=
  (expect_scans _).bind fun _ => .pure (by simp)

theorem skipPunct_scans (p : Punct) : Scans env [] (skipPunct p) fun _ => [] := by
  refine (isPunct_scans p).bind fun _ => ?_
  split
  · exact .bind advance_scans fun _ => .pure (by simp)
  · exact .pure (by simp)

theorem ident_scans : Scans env [] ident fun _ => [] := by
  refine .bind peek_scans fun t => ?_
  split
  · exact .bind advance_scans fun _ => .pure (by simp)
  · exact expected_scans _

theorem quoted_scans : Scans env [] quoted fun _ => [] := by
  refine .bind peek_scans fun t => ?_
  split
  · exact .bind advance_scans fun _ => .pure (by simp)
  · exact expected_scans _

theorem integer_scans : Scans env [] integer fun _ => [] := by
  refine .bind peek_scans fun t => ?_
  split
  · exact .bind advance_scans fun _ => .pure (by simp)
  · exact expected_scans _

/-! ## Repetition -/

section

variable {step : β → Parser β} {U : β → List Use}

theorem untilFuel_scans {stop : Parser Bool} (hstop : Scans env [] stop fun _ => [])
    (hstep : ∀ b, Scans env (U b) (step b) U) :
    ∀ (fuel : Nat) (b : β), Scans env (U b) (untilFuel stop step fuel b) U
  | 0, b => .pure fun _ => id
  | fuel + 1, b => by
    refine hstop.skip fun _ => ?_
    split
    · exact .pure fun _ => id
    · exact (hstep b).andThen fun b' => untilFuel_scans hstop hstep fuel b'

theorem untilClose_scans (close : Punct) (hstep : ∀ b, Scans env (U b) (step b) U) (b : β) :
    Scans env (U b) (untilClose close step b) U :=
  .skip remaining_scans fun _ =>
    untilFuel_scans (.bind peek_scans fun _ => .pure (by simp)) hstep _ b

theorem commaFuel_scans (close : Punct) (hstep : ∀ b, Scans env (U b) (step b) U) :
    ∀ (fuel : Nat) (b : β), Scans env (U b) (commaFuel close step fuel b) U
  | 0, b => .pure fun _ => id
  | fuel + 1, b => by
    refine (isPunct_scans close).skip fun _ => ?_
    split
    · exact .pure fun _ => id
    · refine (hstep b).andThen fun b' => (skipPunct_scans .comma).skip fun _ => ?_
      split
      · exact commaFuel_scans close hstep fuel b'
      · exact .pure fun _ => id

theorem commaList_scans (close : Punct) (hstep : ∀ b, Scans env (U b) (step b) U) (b : β) :
    Scans env (U b) (commaList close step b) U :=
  .skip remaining_scans fun _ => commaFuel_scans close hstep _ b

end

/-! ## Reports and names -/

theorem report_scans (e : CompileError) : Scans env [] (report e) fun _ => [] := by
  intro s₀ s a s' hpre hp
  cases hp
  obtain ⟨more, hs⟩ := hpre.session
  refine ⟨⟨more ++ [e.toDiagnostic], ?_⟩, hpre.imports, hpre.owner, hpre.seq, by simp⟩
  simp [Session.report, hs]

theorem invalid_scans (pos : Position) (declaration reason : String) :
    Scans env [] (invalid pos declaration reason) fun _ => [] :=
  .bind env_scans fun _ => report_scans _

theorem takeSeq_scans : Scans env [] takeSeq fun _ => [] := by
  intro s₀ s a s' hpre hp
  cases hp
  exact ⟨hpre.session, hpre.imports, hpre.owner, Nat.le_succ_of_le hpre.seq, by simp⟩

/-- A name is new, written in the innermost scope and at the next place. -/
theorem nameRef_eq (name : String) (pos : Position) (s : ParserState) :
    nameRef name pos env s = (.ok { name, pos, scope := s.scope env, seq := s.seq },
      { s with seq := s.seq + 1 }) := rfl

theorem nameRef_scans (e : Expectation) (name : String) (pos : Position) :
    Scans env [] (nameRef name pos) fun r => [⟨e, r⟩] := by
  intro s₀ s a s' hpre hp
  rw [nameRef_eq] at hp
  cases hp
  refine ⟨hpre.session, hpre.imports, hpre.owner, Nat.le_succ_of_le hpre.seq, fun u hu => ?_⟩
  rw [List.mem_singleton.1 hu]
  exact ⟨rfl, hpre.scope, hpre.seq, Nat.lt_succ_self _⟩

end Parser

end Scaffold.Source
