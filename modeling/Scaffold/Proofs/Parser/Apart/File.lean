import Scaffold.Proofs.Parser.Passage.Decl

/-!
# How a file meets other files

A file is read item by item, and an item is one of two things (`Meeting`): it has nothing to do with
other files, or it is an import statement, and then all it does is to load the file that it names.

* `decls_comes`: what holds before a file is read and is kept by the loads that its import statements
  ask for, in order, holds when the file is at its end.
-/

namespace Scaffold.Source

/-- Whatever loading a file would do, the parser comes to this end, and no import led there. -/
structure Ran {α : Type} (p : Parser α) (env : ParserEnv) (s : ParserState)
    (r : Except CompileError α) (s' : ParserState) : Prop where
  run : ∀ load, p { env with load } s = (r, s')
  still : Still s s'
  error : ∀ e, r = .error e → IsOwnFault env.source.path e

/-- The parser has nothing to do with other files here, or comes to an import statement. -/
inductive Meeting {α : Type} (p : Parser α) (env : ParserEnv) (s : ParserState) : Prop where
  | none {r : Except CompileError α} {s' : ParserState} (ran : Ran p env s r s')
    (tokens : ∀ a, r = .ok a → s'.rest.length < s.rest.length ∧
      importStatements false s'.rest = importStatements false s.rest)
  | load (s₁ : ParserState) (written : String) (found : SourceFile) (value : Document → α)
    (run : ∀ load, p { env with load } s = importing env load found value s₁)
    (still : Still s s₁) (shorter : s₁.rest.length < s.rest.length)
    (statements : importStatements false s.rest = written :: importStatements false s₁.rest)
    (located : env.source.locate env.tree written = some found)

variable {α β : Type} {p : Parser α} {f : α → Parser β} {env : ParserEnv} {s s₁ s₂ : ParserState}

theorem Apart.ran {P Q : List Token → Prop} (hp : Apart P p Q) {r : Except CompileError α}
    (h : p env s = (r, s₁)) : Ran p env s r s₁ where
  run load := (hp.load env load s).trans h
  still := by
    have hstill := hp.still env s
    rwa [h] at hstill
  error := by
    rintro e rfl
    exact hp.error env s e s₁ h

namespace Ran

theorem bind {a : α} {r : Except CompileError β} (hp : Ran p env s (.ok a) s₁)
    (hf : Ran (f a) env s₁ r s₂) : Ran (p >>= f) env s r s₂ where
  run load := (Parser.bind_run (hp.run load)).trans (hf.run load)
  still := hp.still.trans hf.still
  error := hf.error

theorem failed {e : CompileError} (hp : Ran p env s (.error e) s₁) :
    Ran (p >>= f) env s (.error e) s₁ where
  run load := Parser.bind_failed (hp.run load)
  still := hp.still
  error e' he := hp.error e' (by cases he; rfl)

theorem meeting {e : CompileError} (hp : Ran p env s (.error e) s₁) : Meeting p env s :=
  .none hp fun _ h => by cases h

end Ran

theorem Whole.meeting (hp : Whole p) (env : ParserEnv) (s : ParserState) : Meeting p env s := by
  cases h : p env s with
  | mk r s' =>
    refine .none ((hp.tame []).ran h) ?_
    rintro a rfl
    exact ⟨(hp.passing : Passing anything p).shorter env s a s' trivial h, (hp.tame.tokens h).2⟩

namespace Meeting

/-- What a parser meets is met when its value is put to use. -/
theorem map {g : α → β} (hp : Meeting p env s) (hf : ∀ a, f a = pure (g a)) :
    Meeting (p >>= f) env s := by
  cases hp with
  | none hran htokens =>
    rename_i r s'
    cases r with
    | error e => exact hran.failed.meeting
    | ok a =>
      have hpure : Ran (f a) env s' (.ok (g a)) s' := by
        rw [hf]
        exact ⟨fun _ => rfl, .refl _, nofun⟩
      exact .none (hran.bind hpure) fun _ _ => htokens a rfl
  | load s₁ written found value hrun hstill hlen hstatements hfound =>
    refine .load s₁ written found (fun d => g (value d)) (fun load => ?_) hstill hlen hstatements
      hfound
    show Parser.bind p f _ s = _
    rw [Parser.bind, hrun]
    unfold importing
    rcases load found s₁.session with ⟨e | d, session⟩
    · rfl
    · dsimp only
      rw [hf]
      rfl

/-- What is met after a parser that keeps apart. -/
theorem after (hp : Tame p) (hf : ∀ a s₁, p env s = (.ok a, s₁) → Meeting (f a) env s₁) :
    Meeting (p >>= f) env s := by
  cases h : p env s with
  | mk r s₁ =>
    have hran := (hp []).ran h
    cases r with
    | error e => exact hran.failed.meeting
    | ok a =>
      obtain ⟨hlen, hsame⟩ := hp.tokens h
      cases hf a s₁ h with
      | none hran' htokens =>
        refine .none (hran.bind hran') fun b hb => ?_
        obtain ⟨hlen', hsame'⟩ := htokens b hb
        exact ⟨Nat.lt_of_lt_of_le hlen' hlen, hsame'.trans hsame⟩
      | load s₂ written found value hrun hstill hlen' hstatements hfound =>
        refine .load s₂ written found value (fun load => ?_) (hran.still.trans hstill)
          (Nat.lt_of_lt_of_le hlen' hlen) (hsame.symm.trans hstatements) hfound
        exact (Parser.bind_run (hran.run load)).trans (hrun load)

end Meeting

namespace Parser

/-! ## Import statements -/

theorem importDecl_meeting (h : Header) (env : ParserEnv) (s : ParserState) :
    Meeting (importDecl h) env s := by
  have hend : Passage True false anything ⟨false, 0⟩ (expectPunct .semicolon) none := expectSemicolon
  cases h₁ : expectKeyword .importKw env s with
  | mk r₁ s₁ =>
    have hran₁ := (expect_apart _).ran h₁
    cases r₁ with
    | error e => exact hran₁.failed.meeting
    | ok pos =>
      cases h₂ : quoted env s₁ with
      | mk r₂ s₂ =>
        have hran₂ := (quoted_level.tame []).ran h₂
        cases r₂ with
        | error e => exact (hran₁.bind hran₂.failed).meeting
        | ok written =>
          cases h₃ : expectPunct .semicolon env s₂ with
          | mk r₃ s₃ =>
            have hran₃ := (hend.apart trivial []).ran h₃
            cases r₃ with
            | error e => exact (hran₁.bind (hran₂.bind hran₃.failed)).meeting
            | ok u =>
              have hstill := hran₁.still.trans (hran₂.still.trans hran₃.still)
              cases hfound : env.source.locate env.tree written with
              | none =>
                have hmissing : IsOwnFault env.source.path
                    (.fault env.source.path h.pos (.importNotFound written)) := ⟨_, _, rfl, rfl⟩
                exact Ran.meeting ⟨fun load => importDecl_missing h load (hran₁.run load)
                  (hran₂.run load) (hran₃.run load) hfound,
                  ⟨hstill.imports, hstill.stack, hstill.session, hstill.numbers⟩,
                  fun e he => by cases he; exact hmissing⟩
              | some found =>
                obtain ⟨hlen, hstatements⟩ := statement_tokens h₁ h₂ h₃
                exact .load s₃ written found _ (fun load => importDecl_run h load (hran₁.run load)
                  (hran₂.run load) (hran₃.run load) hfound) hstill hlen hstatements hfound

theorem decl_meeting (env : ParserEnv) (s : ParserState) : Meeting decl env s := by
  rw [decl_eq]
  refine .after header_level.tame fun hd s₁ _ => .after peek_tame fun t s₂ _ => .map ?_ fun _ => rfl
  by_cases hkind : t.kind = .keyword .importKw
  · rw [hkind]
    exact (importDecl_meeting hd.1 env s₂).map fun _ => rfl
  · exact (declOf_whole hd.1 hd.2 hkind).meeting env s₂

theorem step_meeting (ds : List Decl) (env : ParserEnv) (s : ParserState) :
    Meeting (decls.step ds) env s := by
  have htame : Tame (skipPunct .semicolon) := skipPunct_tame trivial
  cases h : skipPunct .semicolon env s with
  | mk r s₁ =>
    have hran := (htame []).ran h
    cases r with
    | error e => exact hran.failed.meeting
    | ok skipped =>
      cases skipped with
      | true =>
        refine .none (hran.bind ⟨fun _ => rfl, .refl _, nofun⟩) fun _ _ => ⟨?_, (htame.tokens h).2⟩
        obtain ⟨hkind, hrest⟩ := skipPunct_ok h
        obtain ⟨pos, hcons⟩ := eq_cons_of_nextKind hkind nofun
        rw [hrest, hcons]
        exact Nat.lt_succ_self _
      | false =>
        refine .after htame fun b s₂ h' => ?_
        rw [h] at h'
        cases h'
        exact (decl_meeting env s₁).map fun _ => rfl

/-! ## Whole files -/

/-- How reading comes out: well, or with an error. -/
def Comes (good : List Path → Session → Prop) (bad : CompileError → Session → Prop)
    (r : Except CompileError α × ParserState) : Prop :=
  (∀ a, r.1 = .ok a → good r.2.imports r.2.session) ∧ ∀ e, r.1 = .error e → bad e r.2.session

theorem untilFuel_atEnd (step : β → Parser β) (fuel : Nat) (b : β) (env : ParserEnv)
    (s : ParserState) : untilFuel atEnd step (fuel + 1) b env s =
      if nextKind s.rest = .eof then (.ok b, s)
      else (step b >>= untilFuel atEnd step fuel) env s := by
  have hstop : atEnd env s = (.ok (nextKind s.rest == .eof), s) := rfl
  rw [untilFuel, bind_run hstop]
  by_cases h : nextKind s.rest = .eof
  · rw [if_pos h, if_pos (by simpa using h)]
    rfl
  · rw [if_neg h, if_neg (by simpa using h)]

section

variable {meets : List String → List Path → Session → Prop} {bad : CompileError → Session → Prop}
  {load : Loader}

/-- The import statements that are left, the files imported so far and the session are such that any
file the next statement names is loaded alike by the two loaders, and well. -/
structure Loading (env : ParserEnv) (load : Loader)
    (meets : List String → List Path → Session → Prop) (bad : CompileError → Session → Prop) :
    Prop where
  still : ∀ {ws ps s s'}, meets ws ps s → s'.stack = s.stack → s.SameFiles s' → meets ws ps s'
  fault : ∀ {ws ps s e}, meets ws ps s → IsOwnFault env.source.path e → bad e s
  same : ∀ {w ws ps s f}, meets (w :: ws) ps s → env.source.locate env.tree w = some f →
    load f s = env.load f s
  ok : ∀ {w ws ps s f d s'}, meets (w :: ws) ps s → env.source.locate env.tree w = some f →
    env.load f s = (.ok d, s') → meets ws (ps ++ [d.path]) s'
  error : ∀ {w ws ps s f e s'}, meets (w :: ws) ps s → env.source.locate env.tree w = some f →
    env.load f s = (.error e, s') → bad e s'

theorem untilFuel_comes (hload : Loading env load meets bad) :
    ∀ (fuel : Nat) (ds : List Decl) (s : ParserState), s.rest.length < fuel →
      meets (importStatements false s.rest) s.imports s.session →
      untilFuel atEnd decls.step fuel ds { env with load } s
          = untilFuel atEnd decls.step fuel ds env s ∧
        Comes (meets []) bad (untilFuel atEnd decls.step fuel ds env s)
  | 0, _, _, hfuel, _ => absurd hfuel (Nat.not_lt_zero _)
  | fuel + 1, ds, s, hfuel, hs => by
    rw [untilFuel_atEnd, untilFuel_atEnd]
    split
    · rename_i hend
      rw [importStatements_of_nextKind_eof hend] at hs
      exact ⟨rfl, fun _ _ => hs, nofun⟩
    · cases step_meeting ds env s with
      | none hran htokens =>
        rename_i r s₁
        have hs₁ := hload.still hs hran.still.stack hran.still.session
        cases r with
        | error e =>
          rw [bind_failed (hran.run load), bind_failed (hran.run env.load)]
          exact ⟨rfl, nofun, fun e' he => by cases he; exact hload.fault hs₁ (hran.error e rfl)⟩
        | ok ds' =>
          obtain ⟨hlen, hsame⟩ := htokens ds' rfl
          rw [bind_run (hran.run load), bind_run (hran.run env.load)]
          refine untilFuel_comes hload fuel ds' s₁ (by omega) ?_
          rw [hsame, hran.still.imports]
          exact hs₁
      | load s₁ written found value hrun hstill hlen hstatements hfound =>
        rw [hstatements] at hs
        have hs₁ := hload.still hs hstill.stack hstill.session
        rw [← hstill.imports] at hs₁
        have hsame := hload.same hs₁ hfound
        have hstep := hrun load
        have hstep' : decls.step ds env s = _ := hrun env.load
        rw [importing, hsame] at hstep
        rw [importing] at hstep'
        rcases hout : env.load found s₁.session with ⟨e | d, session⟩
        · rw [hout] at hstep hstep'
          rw [bind_failed hstep, bind_failed hstep']
          exact ⟨rfl, nofun, fun e' he => by cases he; exact hload.error hs₁ hfound hout⟩
        · rw [hout] at hstep hstep'
          rw [bind_run hstep, bind_run hstep']
          have hnext : meets (importStatements false s₁.rest) (s₁.imports ++ [d.path])
              (s₁.addImport env d session).session :=
            hload.still (hload.ok hs₁ hfound hout) rfl ⟨rfl, rfl⟩
          exact untilFuel_comes hload fuel _ (s₁.addImport env d session)
            (show s₁.rest.length < fuel by omega) hnext

/-- A file whose import statements are all met is read to its end, whichever of the two loaders is
used. -/
theorem decls_comes (hload : Loading env load meets bad)
    (hs : meets (importStatements false s.rest) s.imports s.session) :
    decls { env with load } s = decls env s ∧ Comes (meets []) bad (decls env s) :=
  untilFuel_comes hload _ [] s (Nat.lt_succ_self _) hs

end

end Parser

end Scaffold.Source
