import Scaffold.Proofs.Parser.Passage
import Scaffold.Proofs.Parser.Sentence

/-!
# The passages of types, expressions and statements

Every type, expression and statement that is read passes a token at least, and leaves the declaration
where it is. The loops and recursions among their parsers need no more fuel than there are tokens
(`*_agree`), and stop where nothing is left that they could go on with (`*_ends`).
-/

namespace Scaffold.Source.Parser

variable {c : Prop} {n : Bool} {next : TokenKind → Prop}

/-! ## Types -/

/-- A size may stand in parentheses. -/
theorem sizeOr_level (fallback : Nat) : Level c false (sizeOr fallback) := by
  intro next σ
  refine .skipPunct σ.steps_open ?_ (.pure _)
  exact .start integer_level fun _ => .closed fun _ => .settled (.pure _)

/-- Between parentheses any token may be passed that does not close. -/
theorem importStatements_tail {ts : List Token} (hclose : nextKind ts ≠ .punct .parenClose)
    (hend : nextKind ts ≠ .eof) : importStatements true ts.tail = importStatements true ts := by
  cases ts with
  | nil => rfl
  | cons t ts =>
    obtain ⟨kind, pos⟩ := t
    rw [List.tail_cons, importStatements.eq_def true (⟨kind, pos⟩ :: ts)]
    dsimp only
    split
    · exact absurd rfl hend
    · rfl
    · exact absurd rfl hclose
    · rfl
    · rfl

theorem skipInside_apart {ws : List String} {stop : Parser Bool}
    (hstop : ∀ env s, stop env s
      = (.ok (nextKind s.rest == .punct .parenClose || nextKind s.rest == .eof), s)) :
    ∀ fuel : Nat, Apart (fun ts => importStatements true ts = ws)
      (untilFuel stop (fun () => advance) fuel ()) (fun ts => importStatements true ts = ws)
  | 0 => .pure ()
  | fuel + 1 => by
    have hmove : Apart (fun ts => importStatements true ts = ws ∧
          ¬(nextKind ts = .punct .parenClose ∨ nextKind ts = .eof))
        (advance >>= untilFuel stop (fun () => advance) fuel)
        (fun ts => importStatements true ts = ws) := by
      refine .bind (advance_of fun ts hs => ?_) fun _ => skipInside_apart hstop fuel
      rw [importStatements_tail (not_or.1 hs.2).1 (not_or.1 hs.2).2]
      exact hs.1
    refine .of_runs fun ts => ?_
    by_cases hnext : nextKind ts = .punct .parenClose ∨ nextKind ts = .eof
    · refine ⟨_, _, .pure (), id, fun env s hs => ?_⟩
      rw [untilFuel, bind_run (hstop env s), hs, if_pos (by simpa using hnext)]
    · refine ⟨_, _, hmove, fun hs => ⟨hs, hnext⟩, fun env s hs => ?_⟩
      rw [untilFuel, bind_run (hstop env s), hs, if_neg (by simpa using hnext)]

/-- Between parentheses every token is passed that does not close. -/
theorem skipInside_passes (d : Nat) {env : ParserEnv} : ∀ (fuel : Nat) (s s' : ParserState),
    s.rest.length < fuel →
    untilFuel (atClose .parenClose) (fun () => advance) fuel () env s = (.ok (), s') →
    nextKind s'.rest = .punct .parenClose → ∃ c, s.rest = c ++ s'.rest ∧
      (⟨true, d⟩ : Scan).Leads c (some ⟨true, d⟩) ∧
      ∀ (fuel : Nat) (ts : List Token), (c ++ ts).length < fuel →
        nextKind ts = .punct .parenClose →
        untilFuel (atClose .parenClose) (fun () => advance) fuel () env { s with rest := c ++ ts }
          = (.ok (), { s' with rest := ts })
  | 0, _, _, hfuel, _, _ => absurd hfuel (Nat.not_lt_zero _)
  | fuel + 1, s, s', hfuel, hrun, hclose => by
    have hstop : ∀ s : ParserState, atClose .parenClose env s
      = (.ok (nextKind s.rest == .punct .parenClose || nextKind s.rest == .eof), s) := fun _ => rfl
    rw [untilFuel, bind_run (hstop s)] at hrun
    by_cases hnext : nextKind s.rest = .punct .parenClose ∨ nextKind s.rest = .eof
    · rw [if_pos (by simpa using hnext)] at hrun
      obtain ⟨-, rfl⟩ := pure_ok.1 hrun
      refine ⟨[], rfl, .nil _, fun fuel ts hfuel hts => ?_⟩
      obtain ⟨fuel, rfl⟩ := Nat.exists_eq_succ_of_ne_zero (Nat.ne_of_gt (Nat.zero_lt_of_lt hfuel))
      rw [untilFuel, bind_run (hstop _), if_pos]
      · rfl
      · exact Bool.or_eq_true_iff.2 (.inl (beq_iff_eq.2 hts))
    · rw [if_neg (by simpa using hnext)] at hrun
      obtain ⟨hnoclose, hend⟩ := not_or.1 hnext
      obtain ⟨pos, hcons⟩ := eq_cons_of_nextKind rfl hend
      have hlength : s.rest.tail.length < fuel := by
        rw [hcons] at hfuel
        exact Nat.lt_of_succ_lt_succ hfuel
      obtain ⟨c, hrest, hleads, hagain⟩ :=
        skipInside_passes d fuel { s with rest := s.rest.tail } s' hlength hrun hclose
      refine ⟨⟨nextKind s.rest, pos⟩ :: c, ?_, .cons ?_ hleads, fun fuel ts hfuel hts => ?_⟩
      · exact hcons.trans (congrArg _ hrest)
      · generalize nextKind s.rest = kind at hnoclose
        cases kind with
        | punct p => cases p <;> first | rfl | exact absurd rfl hnoclose
        | _ => rfl
      · obtain ⟨fuel, rfl⟩ := Nat.exists_eq_succ_of_ne_zero (Nat.ne_of_gt (Nat.zero_lt_of_lt hfuel))
        rw [untilFuel, bind_run (hstop _), if_neg]
        · exact hagain fuel ts (Nat.lt_of_succ_lt_succ hfuel) hts
        · intro hstopped
          obtain h | h := Bool.or_eq_true_iff.1 hstopped
          · exact hnoclose (beq_iff_eq.1 h)
          · exact hend (beq_iff_eq.1 h)

/-- A sign is read where it stands next, and moved past. -/
theorem expectPunct_ok_iff {sign : Punct} {env : ParserEnv} {s s' : ParserState} {u : Unit} :
    expectPunct sign env s = (.ok u, s') ↔
      nextKind s.rest = .punct sign ∧ s' = { s with rest := s.rest.tail } := by
  have hrun : expectPunct sign env s = ((if nextKind s.rest == .punct sign then (do
      advance
      return (s.rest.headD ⟨.eof, {}⟩).pos)
    else expected (TokenKind.punct sign).describe : Parser Position) >>= fun _ => pure ()) env s := rfl
  rw [hrun]
  by_cases hkind : nextKind s.rest = .punct sign
  · rw [if_pos (beq_iff_eq.2 hkind)]
    constructor
    · intro h
      cases h
      exact ⟨hkind, rfl⟩
    · rintro ⟨-, rfl⟩
      rfl
  · rw [if_neg (mt beq_iff_eq.1 hkind)]
    constructor
    · intro h
      cases h
    · exact fun h => absurd h.1 hkind

/-- The precision of a number type, behind its parenthesis. -/
def restOfPrecision : Parser Unit := do
  untilClose .parenClose (fun () => advance) ()
  expectPunct .parenClose

theorem restOfPrecision_framed (σ : Scan) :
    Framed (· = .punct .parenOpen) σ (advance >>= fun _ => restOfPrecision) (some σ) := by
  intro env s u s' hnext hrun
  obtain ⟨_, s₁, hadvance, hrun⟩ := bind_ok.1 hrun
  cases hadvance
  obtain ⟨_, s₂, hskip, hclose⟩ := bind_ok.1 hrun
  obtain ⟨hkind, rfl⟩ := expectPunct_ok_iff.1 hclose
  obtain ⟨pos, hcons⟩ := eq_cons_of_nextKind hnext nofun
  obtain ⟨pos', hcons'⟩ := eq_cons_of_nextKind hkind nofun
  obtain ⟨c, hrest, hleads, hagain⟩ :=
    skipInside_passes σ.depth _ { s with rest := s.rest.tail } s₂ (Nat.lt_succ_self _) hskip hkind
  refine ⟨⟨.punct .parenOpen, pos⟩ :: c ++ [⟨.punct .parenClose, pos'⟩], ?_, fun σ₀ hle => ?_,
    fun ts _ _ => ?_⟩
  · rw [List.append_assoc, hcons]
    refine congrArg _ (hrest.trans ?_)
    rw [hcons']
    rfl
  · have hdepth : σ₀.next (.punct .parenOpen) = some ⟨true, σ.depth⟩ := by
      rw [← hle.1]
      rfl
    refine ⟨some ⟨false, σ.depth⟩, ?_, .some σ.outside_le⟩
    exact (Scan.Leads.cons hdepth hleads).append (.cons rfl (.nil _))
  · have hmid := hagain _ (⟨.punct .parenClose, pos'⟩ :: ts) (Nat.lt_succ_self _) rfl
    have hend : expectPunct .parenClose env { s₂ with rest := ⟨.punct .parenClose, pos'⟩ :: ts }
        = (.ok (), { s₂ with rest := ts }) := expectPunct_ok_iff.2 ⟨rfl, rfl⟩
    rw [List.append_assoc]
    exact (bind_run rfl).trans ((bind_run hmid).trans hend)

theorem restOfPrecision_apart {ws : List String} {inside : Bool} :
    Apart (Ahead inside (· = .punct .parenOpen) ws) (advance >>= fun _ => restOfPrecision)
      (Ahead inside anything ws) := by
  have hskip : Apart (fun ts => importStatements true ts = ws)
      (untilClose .parenClose (fun () => advance) ()) (fun ts => importStatements true ts = ws) :=
    .of_runs fun ts => ⟨_, _, skipInside_apart (fun _ _ => rfl) (ts.length + 1), id,
      fun _ _ hs => hs ▸ rfl⟩
  have hclose : Passage True true anything ⟨true, 0⟩ (expectPunct .parenClose) (some ⟨false, 0⟩) :=
    .expectPunct (Scan.steps_close _)
  exact .bind (open_apart fun _ => id) fun _ => .bind hskip fun _ =>
    (hclose.apart trivial ws).mono (fun _ => inside_of_open) fun _ => Ahead.outside

/-- The precision of a number type is passed without a look at its tokens, so the parenthesis that
opens and the one that closes are taken together. -/
theorem skipPrecision_level : Level c false skipPrecision := by
  intro next σ
  have hmoving : Moving (advance >>= fun _ => restOfPrecision) :=
    .bind advance_moving fun _ =>
      .bind (untilClose_moving .parenClose (fun _ => advance_moving) ()) fun _ => expectPunct_moving _
  exact .passed ⟨fun _ => restOfPrecision_framed σ, fun _ _ => restOfPrecision_apart, hmoving, nofun⟩
    (.pure _)

/-- A type is a word, with other types behind it in brackets. -/
theorem typeFuel_level : ∀ (fuel : Nat) {c : Prop} {n : Bool}, Level c n (typeFuel fuel)
  | 0, _, _ => fun _ _ => .expected _
  | fuel + 1, _, _ => by
    intro next σ
    refine .start ident_level fun word => .isNext fun b => ?_
    split
    · rename_i hlist
      exact .first (.asked (Bool.and_eq_true_iff.1 hlist).2 (show Passable (.punct .less) from trivial)
        (.plain (fun _ => rfl) σ)) fun _ => .step (typeFuel_level fuel) fun _ =>
        .first (.expectPunct (.plain (fun _ => rfl) σ)) fun _ => .pure _
    · split
      · exact .step (sizeOr_level _) fun _ => .pure _
      · split
        · exact .step (sizeOr_level _) fun _ => .pure _
        · split
          · split
            · exact .step skipPrecision_level fun _ => .pure _
            · exact .pure _
          · exact .step (nameRef_idle _ _).level fun _ => .pure _

/-- A list of a type is longer than that type. -/
theorem typeFuel_agree : ∀ n fuel fuel', n ≤ fuel → n ≤ fuel' →
    Agree anything n (typeFuel fuel) (typeFuel fuel')
  | 0, _, _, _, _ => .zero
  | n + 1, 0, _, hfuel, _ => absurd hfuel (Nat.not_succ_le_zero _)
  | n + 1, _, 0, _, hfuel' => absurd hfuel' (Nat.not_succ_le_zero _)
  | n + 1, fuel + 1, fuel' + 1, hfuel, hfuel' => by
    have ih := typeFuel_agree n fuel fuel' (Nat.le_of_succ_le_succ hfuel)
      (Nat.le_of_succ_le_succ hfuel')
    refine .first ident_level.passing fun word => .step (isNext_moving _) fun _ => ?_
    split
    · exact .step advance_moving fun _ => ih.bind (typeFuel_level _).moving fun _ => .refl _
    · exact .refl _

theorem typeRef_level : Level c n typeRef :=
  fun _ _ => .rounds (.of_agree typeFuel_agree) fun fuel => typeFuel_level fuel _ _

/-! ## Literals and names -/

theorem next_of_literalOf? {kind : TokenKind} {l : Literal} (h : literalOf? kind = some l) (σ : Scan) :
    σ.next kind = some σ := by
  cases kind with
  | punct p => cases h
  | raw text => cases h
  | _ => rfl

theorem passable_of_literalOf? {kind : TokenKind} {l : Literal} (h : literalOf? kind = some l) :
    Passable kind := by
  cases kind with
  | keyword k => cases k <;> trivial
  | eof => cases h
  | _ => trivial

/-- A literal, behind its sign if it has one. -/
def literalPart (negative : Bool) : Parser Literal := do
  let t ← peek
  match if negative then (literalOf? t.kind).bind negated? else literalOf? t.kind with
  | some l =>
    advance
    return l
  | none => expected "a literal"

theorem literal_level : Level c n literal := by
  intro next σ
  have hlast : ∀ {n : Bool} (negative : Bool), Passage c n anything σ (literalPart negative) (some σ) := by
    intro n negative
    refine .peek fun t => ?_
    split
    · rename_i l hl
      obtain ⟨plain, hplain⟩ : ∃ plain, literalOf? t.kind = some plain := by
        cases hplain : literalOf? t.kind with
        | none => simp [hplain] at hl
        | some plain => exact ⟨plain, rfl⟩
      exact .andPure (.seen rfl (passable_of_literalOf? hplain)
        (.plain (next_of_literalOf? hplain) σ)) _
    · exact .expected _
  exact .skipPunct (.plain (fun _ => rfl) σ) (hlast true) (hlast false)

theorem namesFuel_level : ∀ (fuel : Nat) (names : List String),
    Level c false (nameList.namesFuel fuel names)
  | 0, _ => pure_level _
  | fuel + 1, _ => fun _ σ => .start ident_level fun _ =>
    .skipPunct (.plain (fun _ => rfl) σ) (namesFuel_level fuel _ _ _) (.pure _)

theorem namesFuel_agree : ∀ n fuel fuel', n ≤ fuel → n ≤ fuel' → ∀ names,
    Agree anything n (nameList.namesFuel fuel names) (nameList.namesFuel fuel' names)
  | 0, _, _, _, _, _ => .zero
  | n + 1, 0, _, hfuel, _, _ => absurd hfuel (Nat.not_succ_le_zero _)
  | n + 1, _, 0, _, hfuel', _ => absurd hfuel' (Nat.not_succ_le_zero _)
  | n + 1, fuel + 1, fuel' + 1, hfuel, hfuel', names => by
    refine .first ident_level.passing fun name => .step (skipPunct_moving _) fun more => ?_
    split
    · exact namesFuel_agree n fuel fuel' (Nat.le_of_succ_le_succ hfuel)
        (Nat.le_of_succ_le_succ hfuel') _
    · exact .refl _

theorem namesFuel_ends : ∀ n fuel, n ≤ fuel → ∀ names,
    Stops anything n (nameList.namesFuel fuel names) (· ≠ .punct .comma)
  | 0, _, _, _ => .zero
  | n + 1, 0, hfuel, _ => absurd hfuel (Nat.not_succ_le_zero _)
  | n + 1, fuel + 1, hfuel, names => by
    refine .step ident_level.moving fun name => .skipPunct ?_ (.pure _ fun kind hkind => hkind.2)
    exact namesFuel_ends n fuel (Nat.le_of_succ_le_succ hfuel) _

/-- The names stand in parentheses of their own, which are closed again. -/
theorem nameList_level : Level c n nameList :=
  fun _ _ => .opened fun _ => .roundsFirst
    (.of_agree fun n fuel fuel' h h' => namesFuel_agree n fuel fuel' h h' [])
    (fun fuel => namesFuel_level fuel [] _ _) fun _ => .closed fun _ => .settled (.pure _)

theorem pathFuel_level : ∀ (fuel : Nat) (names : List String),
    Level c false (nativePath.pathFuel fuel names)
  | 0, _ => pure_level _
  | fuel + 1, _ => fun _ σ => .skipPunct (.plain (fun _ => rfl) σ)
    (.start ident_level fun _ => pathFuel_level fuel _ _ _) (.pure _)

theorem pathFuel_agree : ∀ n fuel fuel', n ≤ fuel → n ≤ fuel' → ∀ names,
    Agree anything n (nativePath.pathFuel fuel names) (nativePath.pathFuel fuel' names)
  | 0, _, _, _, _, _ => .zero
  | n + 1, 0, _, hfuel, _, _ => absurd hfuel (Nat.not_succ_le_zero _)
  | n + 1, _, 0, _, hfuel', _ => absurd hfuel' (Nat.not_succ_le_zero _)
  | n + 1, fuel + 1, fuel' + 1, hfuel, hfuel', names => by
    refine .skipPunct (.step ident_level.moving fun name => ?_) (.refl _)
    exact pathFuel_agree n fuel fuel' (Nat.le_of_succ_le_succ hfuel)
      (Nat.le_of_succ_le_succ hfuel') _

theorem pathFuel_ends : ∀ n fuel, n ≤ fuel → ∀ names,
    Stops anything n (nativePath.pathFuel fuel names) (· ≠ .punct .dot)
  | 0, _, _, _ => .zero
  | n + 1, 0, hfuel, _ => absurd hfuel (Nat.not_succ_le_zero _)
  | n + 1, fuel + 1, hfuel, names => by
    refine .skipPunct (.step ident_level.moving fun name => ?_) (.pure _ fun kind hkind => hkind.2)
    exact pathFuel_ends n fuel (Nat.le_of_succ_le_succ hfuel) _

theorem nativePath_level : Level c n nativePath :=
  fun _ _ => .start ident_level fun name => .rounds
    (.of_agree fun n fuel fuel' h h' => pathFuel_agree n fuel fuel' h h' [name.1])
    fun fuel => pathFuel_level fuel _ _ _

/-! ## Expressions -/

/-- The operator of a level that stands next, if any. -/
theorem operator?_run (level : OperatorLevel) (env : ParserEnv) (s : ParserState) :
    operator? level env s = (.ok (operatorOf? level (nextKind s.rest)), s) := by
  have hpeek : peek env s = (.ok (s.rest.headD ⟨.eof, {}⟩), s) := rfl
  rw [operator?, bind_run hpeek, nextKind]
  cases (s.rest.headD ⟨.eof, {}⟩).kind <;> rfl

theorem ne_eof_of_operatorOf? {level : OperatorLevel} {kind : TokenKind} {op : BinaryOp}
    (h : operatorOf? level kind = some op) : kind ≠ .eof := by
  rintro rfl
  cases h

theorem passable_of_operatorOf? {level : OperatorLevel} {kind : TokenKind} {op : BinaryOp}
    (h : operatorOf? level kind = some op) : Passable kind := by
  cases kind with
  | punct p => trivial
  | _ => cases h

def operators : List Punct :=
  operatorLevels.flatMap fun level => level.map (·.1)

theorem next_of_operatorOf? {level : OperatorLevel} {kind : TokenKind} {op : BinaryOp}
    (hlevel : level ∈ operatorLevels) (h : operatorOf? level kind = some op) (σ : Scan) :
    σ.next kind = some σ := by
  cases kind with
  | punct p =>
    obtain ⟨l₁, l₂, hsplit, -⟩ := List.lookup_eq_some_iff.1 h
    have hp : p ∈ operators :=
      List.mem_flatMap.2 ⟨level, hlevel, by rw [hsplit]; simp⟩
    simp only [operators, operatorLevels, List.flatMap_cons, List.map_cons, List.map_nil,
      List.flatMap_nil, List.append_nil, List.cons_append, List.nil_append, List.mem_cons,
      List.not_mem_nil, or_false] at hp
    rcases hp with rfl | rfl | rfl | rfl | rfl | rfl | rfl | rfl | rfl | rfl | rfl | rfl | rfl <;>
      rfl
  | _ => cases h

section

variable {inner : Parser Expr} (hinner : ∀ {n : Bool}, Level c n inner)
include hinner

theorem arguments_level : Level c n (arguments inner) :=
  fun _ _ => .opened fun _ => .bind (.commaList fun _ => .start hinner fun _ => .pure _) fun _ =>
    .closed fun _ => .settled (.pure _)

/-- The kind of the token tells which of the operands it is. -/
theorem primary_level : Level c n (primary inner) := by
  intro next σ
  refine .peek fun t => ?_
  split
  · rename_i hl
    exact .andPure (.seen rfl (passable_of_literalOf? hl) (.plain (next_of_literalOf? hl) σ)) _
  · split
    · rename_i ht
      exact .first (.seen ht trivial (.plain (fun _ => rfl) σ)) fun _ =>
        .step (nameRef_idle _ _).level fun _ => .pure _
    · rename_i ht
      exact .first (.seen ht trivial σ.steps_open) fun _ => .step hinner fun _ =>
        .closed fun _ => .settled (.pure _)
    · rename_i ht
      exact .first (.seen ht trivial (.plain (fun _ => rfl) σ)) fun _ =>
        .step nativePath_level fun _ => .step (arguments_level hinner) fun _ => .pure _
    · exact .expected _

theorem suffixFuel_level : ∀ (fuel : Nat) (e : Expr), Level c false (suffixFuel inner fuel e)
  | 0, _ => pure_level _
  | fuel + 1, e => by
    intro next σ
    refine .skipPunct (.plain (fun _ => rfl) σ) ?_ (.isNext fun called => ?_)
    · exact .start ident_level fun _ => suffixFuel_level fuel _ _ _
    · split
      · exact .start (arguments_level hinner) fun _ => suffixFuel_level fuel _ _ _
      · exact .pure _

/-- Of operators that are not those of the language it is not known where they lead. -/
theorem chainFuel_level {level : OperatorLevel} (hlevel : c → level ∈ operatorLevels) :
    ∀ (fuel : Nat) (lhs : Expr), Level c false (chainFuel level inner fuel lhs)
  | 0, _ => pure_level _
  | fuel + 1, lhs => by
    intro next σ
    refine .look (g := fun ts => operatorOf? level (nextKind ts))
      (fun op kind => operatorOf? level kind = op) (fun env s => ?_) (fun ts => ?_) fun op => ?_
    · rw [operator?_run, nextKind_take]
    · rw [nextKind_take]
    · cases op with
      | none => exact .pure _
      | some op =>
        refine .first (.advance (fun kind hkind => ne_eof_of_operatorOf? hkind.2) fun hc kind hkind =>
          ⟨passable_of_operatorOf? hkind.2, .plain (next_of_operatorOf? (hlevel hc) hkind.2) σ⟩)
          fun _ => ?_
        exact .start hinner fun _ => chainFuel_level hlevel fuel _ _ _

end

section

variable {inner : Parser Expr} (hinner : ∀ {n : Bool}, Level False n inner)
include hinner

/-- Member accesses and calls go on as long as a point or a parenthesis stands next. -/
theorem suffixFuel_agree : ∀ n fuel fuel', n ≤ fuel → n ≤ fuel' → ∀ e,
    Agree anything n (suffixFuel inner fuel e) (suffixFuel inner fuel' e)
  | 0, _, _, _, _, _ => .zero
  | n + 1, 0, _, hfuel, _, _ => absurd hfuel (Nat.not_succ_le_zero _)
  | n + 1, _, 0, _, hfuel', _ => absurd hfuel' (Nat.not_succ_le_zero _)
  | n + 1, fuel + 1, fuel' + 1, hfuel, hfuel', e => by
    have ih := suffixFuel_agree n fuel fuel' (Nat.le_of_succ_le_succ hfuel)
      (Nat.le_of_succ_le_succ hfuel')
    refine .skipPunct (.step ident_level.moving fun name => ih _) ?_
    refine .step (isNext_moving _) fun called => ?_
    split
    · exact .first (arguments_level hinner).passing fun args => ih _
    · exact .refl _

theorem suffixFuel_ends : ∀ n fuel, n ≤ fuel → ∀ e,
    Stops anything n (suffixFuel inner fuel e)
      fun kind => kind ≠ .punct .dot ∧ kind ≠ .punct .parenOpen
  | 0, _, _, _ => .zero
  | n + 1, 0, hfuel, _ => absurd hfuel (Nat.not_succ_le_zero _)
  | n + 1, fuel + 1, hfuel, e => by
    have ih := suffixFuel_ends n fuel (Nat.le_of_succ_le_succ hfuel)
    refine .skipPunct (.step ident_level.moving fun name => ih _) (.isNext fun called => ?_)
    split
    · exact .first (arguments_level hinner).passing fun args => ih _
    · rename_i hcalled
      exact .pure _ fun kind hkind => ⟨hkind.1.2, fun heq => hcalled (hkind.2.2 heq)⟩

theorem chainFuel_agree (level : OperatorLevel) :
    ∀ n fuel fuel', n ≤ fuel → n ≤ fuel' → ∀ lhs,
      Agree anything n (chainFuel level inner fuel lhs) (chainFuel level inner fuel' lhs)
  | 0, _, _, _, _, _ => .zero
  | n + 1, 0, _, hfuel, _, _ => absurd hfuel (Nat.not_succ_le_zero _)
  | n + 1, _, 0, _, hfuel', _ => absurd hfuel' (Nat.not_succ_le_zero _)
  | n + 1, fuel + 1, fuel' + 1, hfuel, hfuel', lhs => by
    refine .look (fun op kind => operatorOf? level kind = op) (fun env s =>
      ⟨_, rfl, operator?_run level env s⟩) fun op => ?_
    cases op with
    | none => exact .refl _
    | some op =>
      refine .first (.advance fun kind hkind => ne_eof_of_operatorOf? hkind.2) fun _ =>
        .step (Level.moving hinner) fun rhs => ?_
      exact chainFuel_agree level n fuel fuel' (Nat.le_of_succ_le_succ hfuel)
        (Nat.le_of_succ_le_succ hfuel') _

theorem chainFuel_ends (level : OperatorLevel) :
    ∀ n fuel, n ≤ fuel → ∀ lhs, Stops anything n (chainFuel level inner fuel lhs)
      (operatorOf? level · = none)
  | 0, _, _, _ => .zero
  | n + 1, 0, hfuel, _ => absurd hfuel (Nat.not_succ_le_zero _)
  | n + 1, fuel + 1, hfuel, lhs => by
    refine .look (fun op kind => operatorOf? level kind = op) (fun env s =>
      ⟨_, rfl, operator?_run level env s⟩) fun op => ?_
    cases op with
    | none => exact .pure _ fun kind hkind => hkind.2
    | some op =>
      refine .first (.advance fun kind hkind => ne_eof_of_operatorOf? hkind.2) fun _ =>
        .step (Level.moving hinner) fun rhs => ?_
      exact chainFuel_ends level n fuel (Nat.le_of_succ_le_succ hfuel) _

end

section

variable {inner : Parser Expr} (hinner : ∀ {n : Bool}, Level c n inner)
include hinner

theorem suffixed_level : Level c n (suffixed inner) :=
  fun _ _ => .start (primary_level hinner) fun e => .rounds
    (.of_agree fun n fuel fuel' h h' =>
      suffixFuel_agree (fun {_} => hinner.loose) n fuel fuel' h h' e)
    fun fuel => suffixFuel_level hinner fuel e _ _

theorem binary_level : ∀ (levels : List OperatorLevel) {n : Bool},
    (c → ∀ level ∈ levels, level ∈ operatorLevels) → Level c n (binary inner levels)
  | [], _, _ => hinner
  | level :: tighter, _, hlevels => by
    have htighter : ∀ {n : Bool}, Level c n (binary inner tighter) := fun {_} =>
      binary_level tighter fun hc l hl => hlevels hc l (List.mem_cons_of_mem _ hl)
    intro next σ
    refine .start htighter fun lhs => .rounds (.of_agree fun n fuel fuel' h h' =>
      chainFuel_agree (fun {_} => htighter.loose) level n fuel fuel' h h' lhs) fun fuel => ?_
    exact chainFuel_level htighter (fun hc => hlevels hc level List.mem_cons_self) fuel lhs _ _

end

theorem unaryFuel_level : ∀ (fuel : Nat) {c : Prop} {n : Bool}, Level c n (unaryFuel fuel)
  | 0, _, _ => fun _ _ => .expected _
  | fuel + 1, _, _ => by
    intro next σ
    refine .peek fun t => ?_
    split
    · rename_i ht
      exact .first (.seen ht trivial (.plain (fun _ => rfl) σ)) fun _ =>
        .step (unaryFuel_level fuel) fun _ => .pure _
    · rename_i ht
      exact .first (.seen ht trivial (.plain (fun _ => rfl) σ)) fun _ =>
        .step (unaryFuel_level fuel) fun _ => .pure _
    · exact suffixed_level (fun {_} => binary_level (fun {_} => unaryFuel_level fuel) _
        fun _ _ => id) _ _

/-- The operators of the language stand between operands. -/
theorem operators_level (fuel : Nat) : Level c n (binary (unaryFuel fuel) operatorLevels) :=
  binary_level (fun {_} => unaryFuel_level fuel) _ fun _ _ => id

section

variable {n : Nat} {inner inner' : Parser Expr} (hinner : ∀ {n : Bool}, Level False n inner')
  (h : Agree anything n inner inner')
include hinner h

/-- Arguments stand behind a parenthesis. -/
theorem arguments_congr : Agree next (n + 1) (arguments inner) (arguments inner') := by
  refine .first (expectPunct_passing _) fun _ => .bind ?_ ?_ fun args => .refl _
  · exact .step remaining_moving fun fuel =>
      commaFuel_congr .parenClose (fun args => .bind (Level.moving hinner) fun _ => .pure _)
        (fun args => h.bind (Level.moving hinner) fun _ => .refl _) _ []
  · exact commaList_moving .parenClose (fun args => .bind (Level.moving hinner) fun _ => .pure _) []

theorem primary_congr : Agree next (n + 1) (primary inner) (primary inner') := by
  refine .peek fun t => ?_
  split
  · exact .refl _
  · split
    · exact .refl _
    · rename_i ht
      exact .first (.seen ht nofun) fun _ => h.bind (Level.moving hinner) fun _ => .refl _
    · rename_i ht
      refine .first (.seen ht nofun) fun _ => .step nativePath_level.moving fun path => ?_
      exact (Agree.mono (arguments_congr hinner h) (Nat.le_succ n)).bind
        (arguments_level hinner).moving fun _ => .refl _
    · exact .refl _

theorem suffixFuel_congr : ∀ (fuel : Nat) (e : Expr),
    Agree anything n (suffixFuel inner fuel e) (suffixFuel inner' fuel e)
  | 0, _ => .refl _
  | fuel + 1, e => by
    refine .step (skipPunct_moving _) fun point => ?_
    split
    · exact .step ident_level.moving fun name => suffixFuel_congr fuel _
    · refine .step (isNext_moving _) fun called => ?_
      split
      · exact (Agree.mono (arguments_congr hinner h) (Nat.le_succ n)).bind
          (arguments_level hinner).moving fun args => suffixFuel_congr fuel _
      · exact .refl _

theorem suffixed_congr : Agree next (n + 1) (suffixed inner) (suffixed inner') :=
  .firstOf (primary_congr hinner h) (primary_level hinner).passing fun e =>
    .step remaining_moving fun _ => suffixFuel_congr hinner h _ e

theorem chainFuel_congr (level : OperatorLevel) : ∀ (fuel : Nat) (lhs : Expr),
    Agree anything n (chainFuel level inner fuel lhs) (chainFuel level inner' fuel lhs)
  | 0, _ => .refl _
  | fuel + 1, lhs => by
    refine .look (fun _ _ => True) (fun env s => ⟨_, trivial, operator?_run level env s⟩)
      fun op => ?_
    cases op with
    | none => exact .refl _
    | some op =>
      exact .step advance_moving fun _ => h.bind (Level.moving hinner) fun rhs => chainFuel_congr level fuel _

end

theorem binary_congr {n : Nat} {inner inner' : Parser Expr}
    (hinner : ∀ {n : Bool}, Level False n inner') (h : Agree anything n inner inner') :
    ∀ levels : List OperatorLevel, Agree anything n (binary inner levels) (binary inner' levels)
  | [] => h
  | level :: tighter => by
    have htighter := binary_congr hinner h tighter
    have hlevel : ∀ {n : Bool}, Level False n (binary inner' tighter) := fun {_} =>
      binary_level hinner tighter False.elim
    exact htighter.bind (Level.moving hlevel) fun lhs => .step remaining_moving fun _ =>
      chainFuel_congr hlevel htighter level _ lhs

/-- Every sign in front of an operand is a token, and so is the parenthesis around an expression. -/
theorem unaryFuel_agree : ∀ n fuel fuel', n ≤ fuel → n ≤ fuel' →
    Agree anything n (unaryFuel fuel) (unaryFuel fuel')
  | 0, _, _, _, _ => .zero
  | n + 1, 0, _, hfuel, _ => absurd hfuel (Nat.not_succ_le_zero _)
  | n + 1, _, 0, _, hfuel' => absurd hfuel' (Nat.not_succ_le_zero _)
  | n + 1, fuel + 1, fuel' + 1, hfuel, hfuel' => by
    have ih := unaryFuel_agree n fuel fuel' (Nat.le_of_succ_le_succ hfuel)
      (Nat.le_of_succ_le_succ hfuel')
    refine .peek fun t => ?_
    split
    · rename_i ht
      exact .first (.seen ht nofun) fun _ => ih.bind (unaryFuel_level fuel').moving fun _ => .refl _
    · rename_i ht
      exact .first (.seen ht nofun) fun _ => ih.bind (unaryFuel_level fuel').moving fun _ => .refl _
    · exact suffixed_congr (fun {_} => operators_level fuel')
        (binary_congr (fun {_} => unaryFuel_level fuel') ih operatorLevels)

theorem operators_agree : ∀ n fuel fuel', n ≤ fuel → n ≤ fuel' →
    Agree anything n (binary (unaryFuel fuel) operatorLevels)
      (binary (unaryFuel fuel') operatorLevels) :=
  fun n fuel fuel' h h' =>
    binary_congr (fun {_} => unaryFuel_level fuel') (unaryFuel_agree n fuel fuel' h h') operatorLevels

theorem expr_level : Level c n expr :=
  fun _ _ => .rounds (.of_agree operators_agree) fun fuel => operators_level fuel _ _

theorem condition_level : Level c n condition :=
  fun _ _ => .opened fun _ => .step expr_level fun _ => .closed fun _ => .settled (.pure _)

/-! ## Statements -/

/-- An expression, perhaps assigned to. -/
theorem exprStmt_inBraces (pos : Position) : InBraces n (exprStmt pos) := by
  intro next d
  have hend : ∀ {n : Bool} (stmt : Stmt), Passage True n anything ⟨false, d + 1⟩ (do
      expectPunct .semicolon
      return stmt : Parser Stmt) (some ⟨false, d + 1⟩) := fun stmt =>
    expectSemicolon.andPure fun _ => stmt
  refine .start expr_level fun e => .skipPunct (.plain (fun _ => rfl) _) ?_ (hend _)
  exact .start expr_level fun value => hend _

theorem declareStmt_inBraces : InBraces n declareStmt := by
  intro next d
  unfold declareStmt
  refine .start (expectKeyword_level trivial) fun pos => .step ident_level fun name => ?_
  dsimp -zeta only
  extract_lets withType
  have htype : ∀ type, Passage True false anything ⟨false, d + 1⟩ (withType type)
      (some ⟨false, d + 1⟩) := by
    intro type
    dsimp -zeta only [withType]
    have hinit : ∀ init : Option Expr, Passage True false anything ⟨false, d + 1⟩ (do
        expectPunct .semicolon
        declare name.1 .local name.2 (← state).owner
        return .declare name.1 type init pos : Parser Stmt) (some ⟨false, d + 1⟩) := fun init =>
      .first expectSemicolon fun _ => .state
        (fun s => .step (declare_idle _ _ _ s.owner _).level fun _ => .pure _) (fun _ _ => rfl)
        fun _ _ => rfl
    refine .skipPunct (.plain (fun _ => rfl) _) ?_ (hinit none)
    exact .step expr_level fun init => hinit (some init)
  refine .isNext fun _ => .isNext fun _ => ?_
  split
  · exact .forget (htype none)
  · exact .step typeRef_level fun type => htype (some type)

section

variable {stmt : Parser Stmt} (hstmt : ∀ {n : Bool}, InBraces n stmt)
include hstmt

/-- Braces around statements end what they belong to, unless it stands in braces itself. -/
theorem blockOf_whole : Whole (blockOf stmt) := by
  intro next d
  have hbody : Passage True false anything ⟨false, d + 1⟩ (inScope .block
      (untilClose .braceClose (fun body => do return body ++ [← stmt]) []))
      (some ⟨false, d + 1⟩) :=
    .inScope nofun (.untilClose fun _ => .first (hstmt _ _) fun _ => .pure _)
  exact .first (.expectPunct (.outside rfl)) fun _ => hbody.bind fun _ =>
    .andPure (.expectPunct (.outside rfl)) _

theorem condStmt_inBraces : InBraces n (condStmt stmt) := by
  intro next d
  have hblock := blockOf_whole hstmt anything (d + 1)
  refine .start (expectKeyword_level trivial) fun _ => .step condition_level fun _ =>
    .first hblock fun _ => .isNext fun more => ?_
  split
  · rename_i hmore
    refine .first (.asked hmore (show Passable (.keyword .elseKw) from trivial)
      (.plain (fun _ => rfl) ⟨false, d + 1⟩)) fun _ => .isNext fun _ => ?_
    split
    · exact .first (hstmt _ _) fun _ => .pure _
    · exact .first hblock.forget fun _ => .pure _
  · exact .pure _

theorem eachStmt_inBraces : InBraces n (eachStmt stmt) := by
  intro next d
  unfold eachStmt
  refine .start (expectKeyword_level trivial) fun pos => .opened fun _ => .step ident_level fun var =>
    .step (expectKeyword_level trivial) fun _ => .step expr_level fun first => ?_
  dsimp -zeta only
  have hiter : ∀ iter : ForIter, Passage True false anything ⟨true, d + 1⟩
      (eachPart stmt var.1 var.2 iter pos) (some ⟨false, d + 1⟩) := fun iter =>
    .closed fun _ => .state (fun s => .first (.inScope nofun (.step (declare_idle _ _ _ s.owner _).level
      fun _ => blockOf_whole hstmt _ (d + 1))) fun _ => .pure _) (fun _ _ => rfl) fun _ _ => rfl
  refine .skipPunct (.plain (fun _ => rfl) _) ?_ (hiter (.each first))
  exact .step expr_level fun last => hiter (.range first last)

end

theorem stmtFuel_inBraces : ∀ (fuel : Nat) {n : Bool}, InBraces n (stmtFuel fuel)
  | 0, _ => fun _ _ => .expected _
  | fuel + 1, _ => by
    have ih : ∀ {n : Bool}, InBraces n (stmtFuel fuel) := fun {_} => stmtFuel_inBraces fuel
    intro next d
    refine .peek fun t => ?_
    split
    · exact declareStmt_inBraces _ _
    · exact condStmt_inBraces ih _ _
    · rename_i ht
      exact .first (.seen ht trivial (.plain (fun _ => rfl) _)) fun _ => .step condition_level fun _ =>
        .first (blockOf_whole ih _ (d + 1)) fun _ => .pure _
    · exact eachStmt_inBraces ih _ _
    · rename_i ht
      refine .first (.seen ht trivial (.plain (fun _ => rfl) _)) fun _ => ?_
      extract_lets withValue
      have hvalue : ∀ value, Passage True false anything ⟨false, d + 1⟩ (withValue value)
          (some ⟨false, d + 1⟩) := fun value => expectSemicolon.andPure _
      refine .isNext fun _ => ?_
      split
      · exact .forget (hvalue none)
      · exact .step expr_level fun value => hvalue (some value)
    · rename_i ht
      exact .first (.seen ht trivial (.plain (fun _ => rfl) _)) fun _ => expectSemicolon.andPure _
    · rename_i ht
      exact .first (.seen ht trivial (.plain (fun _ => rfl) _)) fun _ => expectSemicolon.andPure _
    · exact exprStmt_inBraces _ _ _

section

variable {n : Nat} {stmt stmt' : Parser Stmt} (hstmt : ∀ {n : Bool}, InBraces n stmt')
  (h : Agree anything n stmt stmt')
include hstmt h

theorem blockOf_congr : Agree next (n + 1) (blockOf stmt) (blockOf stmt') := by
  have hmoving : ∀ body : List Stmt, Moving (do return body ++ [← stmt']) := fun _ =>
    .bind (InBraces.moving hstmt) fun _ => .pure _
  refine .first (expectPunct_passing _) fun _ => .bind (inScope_congr .block ?_)
    (inScope_moving nofun (untilClose_moving .braceClose hmoving [])) fun _ => .refl _
  exact untilClose_congr .braceClose hmoving (fun _ => h.bind (InBraces.moving hstmt) fun _ => .refl _) []

theorem condStmt_congr : Agree next (n + 1) (condStmt stmt) (condStmt stmt') := by
  have hblock : Agree anything n (blockOf stmt) (blockOf stmt') :=
    Agree.mono (blockOf_congr hstmt h) (Nat.le_succ n)
  refine .first (expectKeyword_passing _) fun _ => .step condition_level.moving fun _ =>
    hblock.bind (blockOf_whole hstmt).moving fun _ => .step (isNext_moving _) fun more => ?_
  split
  · refine .step advance_moving fun _ => .step (isNext_moving _) fun nested => ?_
    split
    · exact h.bind (InBraces.moving hstmt) fun _ => .refl _
    · exact hblock.bind (blockOf_whole hstmt).moving fun _ => .refl _
  · exact .refl _

theorem eachStmt_congr : Agree next (n + 1) (eachStmt stmt) (eachStmt stmt') := by
  have hblock : Agree anything n (blockOf stmt) (blockOf stmt') :=
    Agree.mono (blockOf_congr hstmt h) (Nat.le_succ n)
  unfold eachStmt
  refine .first (expectKeyword_passing _) fun pos => .step (expectPunct_moving _) fun _ =>
    .step ident_level.moving fun var => .step (expectKeyword_moving _) fun _ =>
    .step expr_level.moving fun first => ?_
  have hiter : ∀ iter : ForIter, Agree anything n
      (do expectPunct .parenClose
          let owner := (← state).owner
          let inner ← inScope .block do
            declare var.1 .local var.2 owner
            blockOf stmt
          return Stmt.each var.1 iter inner.2 pos)
      (do expectPunct .parenClose
          let owner := (← state).owner
          let inner ← inScope .block do
            declare var.1 .local var.2 owner
            blockOf stmt'
          return Stmt.each var.1 iter inner.2 pos) := fun iter =>
    .step (expectPunct_moving _) fun _ => .step state_moving fun s =>
      .bind (inScope_congr .block (.step (declare_idle _ _ _ _ _).moving fun _ => hblock))
        (inScope_moving nofun (.bind (declare_idle _ _ _ _ _).moving fun _ => (blockOf_whole hstmt).moving))
        fun _ => .refl _
  refine .step (skipPunct_moving _) fun range => ?_
  split
  · exact .step expr_level.moving fun last => hiter (.range first last)
  · exact hiter (.each first)

end

/-- A statement in a block is shorter than the block, by its opening brace. -/
theorem stmtFuel_agree : ∀ n fuel fuel', n ≤ fuel → n ≤ fuel' →
    Agree anything n (stmtFuel fuel) (stmtFuel fuel')
  | 0, _, _, _, _ => .zero
  | n + 1, 0, _, hfuel, _ => absurd hfuel (Nat.not_succ_le_zero _)
  | n + 1, _, 0, _, hfuel' => absurd hfuel' (Nat.not_succ_le_zero _)
  | n + 1, fuel + 1, fuel' + 1, hfuel, hfuel' => by
    have ih := stmtFuel_agree n fuel fuel' (Nat.le_of_succ_le_succ hfuel)
      (Nat.le_of_succ_le_succ hfuel')
    have hstmt : ∀ {n : Bool}, InBraces n (stmtFuel fuel') := fun {_} => stmtFuel_inBraces fuel'
    refine .peek fun t => ?_
    split
    · exact .refl _
    · exact condStmt_congr hstmt ih
    · rename_i ht
      refine .first (.seen ht nofun) fun _ => .step condition_level.moving fun test => ?_
      exact (Agree.mono (blockOf_congr hstmt ih) (Nat.le_succ n)).bind (blockOf_whole hstmt).moving
        fun _ => .refl _
    · exact eachStmt_congr hstmt ih
    · exact .refl _
    · exact .refl _
    · exact .refl _
    · exact .refl _

/-- A body ends the declaration that it belongs to, unless that is a member. -/
theorem block_whole : Whole block :=
  fun _ _ => .rounds (.of_agree fun n fuel fuel' h h' => Agree.mono
      (blockOf_congr (fun {_} => stmtFuel_inBraces fuel') (stmtFuel_agree n fuel fuel' h h'))
      (Nat.le_succ n))
    fun fuel => blockOf_whole (fun {_} => stmtFuel_inBraces fuel) _ _

end Scaffold.Source.Parser
