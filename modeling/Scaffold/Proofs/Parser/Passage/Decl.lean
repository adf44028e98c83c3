import Scaffold.Proofs.Parser.Passage.Term

/-!
# The passages of declarations

Each kind of declaration, and each member of a mapper or controller, passes the tokens up to the one
that ends it. An import statement is the exception: behind its own tokens it loads its file, so it
does not keep apart from other files.

* `tableItem_inBraces`: the one place where the parser looks further ahead than the next token.
* `*Decl_whole`: the kinds of declarations but imports, gathered in `declOf_whole`.
* `importDecl_missing`, `importDecl_run`: what an import statement comes to.
-/

namespace Scaffold.Source.Parser

variable {c : Prop} {n : Bool} {next : TokenKind → Prop}

/-! ## Headers -/

theorem annotationsFuel_level : ∀ (fuel : Nat) (b : AnnotationBlock),
    Level c false (annotations.annotationsFuel fuel b)
  | 0, _ => pure_level _
  | fuel + 1, _ => by
    intro next σ
    refine .peek fun t => ?_
    split
    · rename_i ht
      exact .first (.seen ht trivial (.plain (fun _ => rfl) σ)) fun _ =>
        annotationsFuel_level fuel _ _ _
    · exact .pure _

theorem annotationsFuel_agree : ∀ n fuel fuel', n ≤ fuel → n ≤ fuel' → ∀ b,
    Agree anything n (annotations.annotationsFuel fuel b) (annotations.annotationsFuel fuel' b)
  | 0, _, _, _, _, _ => .zero
  | n + 1, 0, _, hfuel, _, _ => absurd hfuel (Nat.not_succ_le_zero _)
  | n + 1, _, 0, _, hfuel', _ => absurd hfuel' (Nat.not_succ_le_zero _)
  | n + 1, fuel + 1, fuel' + 1, hfuel, hfuel', b => by
    refine .peek fun t => ?_
    split
    · rename_i ht
      exact .first (.seen ht nofun) fun _ => annotationsFuel_agree n fuel fuel'
        (Nat.le_of_succ_le_succ hfuel) (Nat.le_of_succ_le_succ hfuel') _
    · exact .refl _

theorem annotationsFuel_ends : ∀ n fuel, n ≤ fuel → ∀ b,
    Stops anything n (annotations.annotationsFuel fuel b) fun kind => ∀ pairs, kind ≠ .annotations pairs
  | 0, _, _, _ => .zero
  | n + 1, 0, hfuel, _ => absurd hfuel (Nat.not_succ_le_zero _)
  | n + 1, fuel + 1, hfuel, b => by
    refine .peek fun t => ?_
    split
    · rename_i ht
      exact .first (.seen ht nofun) fun _ => annotationsFuel_ends n fuel
        (Nat.le_of_succ_le_succ hfuel) _
    · rename_i ht
      exact .pure b fun kind hkind pairs heq => ht pairs (hkind.2.symm.trans heq)

theorem annotations_level : Level c false annotations :=
  fun _ _ => .rounds
    (.of_agree fun n fuel fuel' h h' => annotationsFuel_agree n fuel fuel' h h' {})
    fun fuel => annotationsFuel_level fuel _ _ _

/-- The number of a declaration is taken without a look at the tokens. -/
theorem takeNode_idle : Idle takeNode where
  untouched _ _ _ := rfl
  apart _ := .of_fixed (fun _ _ _ => rfl) (fun _ _ _ => rfl) fun _ _ =>
    ⟨_, _, rfl, rfl, rfl, rfl, ⟨rfl, rfl⟩, Nat.le_succ _⟩
  moving := .quiet fun _ _ => ⟨List.suffix_refl _, .of_eq rfl rfl rfl, rfl⟩

/-- The header asks for the target, which makes no difference where no annotation names one. -/
theorem header_level : Level c false header := by
  intro next σ
  have hblock : Passage c false next σ annotations (some σ) := annotations_level next σ
  have hrest : ∀ (b : AnnotationBlock) (active : Bool), Passage c false anything σ (do
      let id ← takeNode
      return (⟨id, (← peek).pos, b⟩, active) : Parser (Header × Bool)) (some σ) := fun b active =>
    .step takeNode_idle.level fun id => .peek fun t => .pure _
  refine ⟨fun hc => .bind (hblock.framed hc) fun b => .state (fun s =>
    (hrest b (s.session.isActive b)).framed hc) fun _ _ => rfl, fun hc ws => ?_, ?_, nofun⟩
  · have hahead := hblock.apart hc ws
    refine ⟨fun env load s => ?_, fun env platform s hs => ?_, fun env s => ?_,
      fun env s e s' hp => ?_, fun env s a s' hp => ?_, fun env s a s' hp hs => ?_⟩ <;>
      rw [header_run] at *
    · rw [header_run]
    · have hlacks := takeAnnotations_lacks hs (AnnotationBlock.lacks_empty _)
      have hactive : (s.session.onto platform).isActive (takeAnnotations {} s.rest).1
          = s.session.isActive (takeAnnotations {} s.rest).1 := by
        rw [hlacks.isActive, hlacks.isActive]
      rw [header_run]
      exact congrArg (fun active => (Except.ok (_, active), _)) hactive
    · exact ⟨rfl, rfl, ⟨rfl, rfl⟩, Nat.le_succ _⟩
    · cases hp
    · cases hp
      have hsuffix := hahead.suffix _ _ _ _ (annotations_run env s)
      exact hsuffix
    · cases hp
      have htokens := hahead.tokens _ _ _ _ (annotations_run env s) hs
      exact htokens
  · exact hblock.moving.bind fun b => .bind state_moving fun s => (hrest b _).moving

/-! ## Columns -/

/-- The parser succeeds only behind this sign. -/
def EndsBehind {α : Type} (sign : Punct) (p : Parser α) : Prop :=
  ∀ env s a s', p env s = (.ok a, s') → ∃ pos, ⟨.punct sign, pos⟩ :: s'.rest <:+ s.rest

namespace EndsBehind

variable {α β : Type} {sign : Punct} {p : Parser α} {f : α → Parser β}

theorem expected (what : String) : EndsBehind sign (Parser.expected what : Parser α) :=
  fun _ _ _ _ h => by cases h

theorem step (hp : Moving p) (hf : ∀ a, EndsBehind sign (f a)) : EndsBehind sign (p >>= f) := by
  intro env s b s' h
  obtain ⟨a, s₁, hrun, hrest⟩ := Parser.bind_ok.1 h
  obtain ⟨pos, hsuffix⟩ := hf a env s₁ b s' hrest
  have hmoved := hp.suffix env s
  rw [hrun] at hmoved
  exact ⟨pos, hsuffix.trans hmoved⟩

theorem skipPunct {f : Bool → Parser β} (b : β) (hyes : f true = pure b)
    (hno : EndsBehind sign (f false)) : EndsBehind sign (skipPunct sign >>= f) := by
  intro env s b' s' h
  obtain ⟨skipped, s₁, hrun, hrest⟩ := Parser.bind_ok.1 h
  cases skipped with
  | true =>
    obtain ⟨hkind, htail⟩ := Parser.skipPunct_ok hrun
    obtain ⟨pos, hcons⟩ := eq_cons_of_nextKind hkind nofun
    rw [hyes] at hrest
    cases hrest
    have hsame : ⟨.punct sign, pos⟩ :: s'.rest = s.rest := by
      rw [htail, hcons, List.tail_cons]
    exact ⟨pos, hsame ▸ List.suffix_refl _⟩
  | false =>
    rw [Parser.skipPunct_run] at hrun
    split at hrun
    · cases hrun
    · cases hrun
      exact hno env _ b' s' hrest

end EndsBehind

theorem columnFuel_inBraces : ∀ (fuel : Nat) (col : Column), InBraces false (columnFuel fuel col)
  | 0, _ => fun _ _ => .expected _
  | fuel + 1, _ => by
    have ih := columnFuel_inBraces fuel
    intro next d
    refine .skipPunct (.outside rfl) (.pure _) (.isNext fun auto => ?_)
    split
    · rename_i hb
      exact .first (.asked hb trivial (.plain (fun _ => rfl) _)) fun _ => ih _ _ _
    refine .isNext fun null => ?_
    split
    · rename_i hb
      exact .first (.asked hb trivial (.plain (fun _ => rfl) _)) fun _ => ih _ _ _
    refine .isNext fun not => ?_
    split
    · rename_i hb
      exact .first (.asked hb trivial (.plain (fun _ => rfl) _)) fun _ =>
        .step (expectKeyword_level trivial) fun _ => ih _ _ _
    refine .isNext fun default => ?_
    split
    · rename_i hb
      exact .first (.asked hb trivial (.plain (fun _ => rfl) _)) fun _ =>
        .step literal_level fun _ => ih _ _ _
    · exact .expected _

theorem columnFuel_agree : ∀ n fuel fuel', n ≤ fuel → n ≤ fuel' → ∀ col,
    Agree anything n (columnFuel fuel col) (columnFuel fuel' col)
  | 0, _, _, _, _, _ => .zero
  | n + 1, 0, _, hfuel, _, _ => absurd hfuel (Nat.not_succ_le_zero _)
  | n + 1, _, 0, _, hfuel', _ => absurd hfuel' (Nat.not_succ_le_zero _)
  | n + 1, fuel + 1, fuel' + 1, hfuel, hfuel', col => by
    have ih := columnFuel_agree n fuel fuel' (Nat.le_of_succ_le_succ hfuel)
      (Nat.le_of_succ_le_succ hfuel')
    -- Every modifier starts with a word that was looked at.
    have hword : ∀ {kind : TokenKind} {f g : Unit → Parser Column} {b : Bool} {seen : TokenKind → Prop},
        b = true → kind ≠ .eof → (∀ u, Agree anything n (f u) (g u)) →
        Agree (fun k => seen k ∧ (b = true → k = kind)) (n + 1) (advance >>= f) (advance >>= g) :=
      fun hb hkind hf => .first (.advance fun k hk => hk.2 hb ▸ hkind) hf
    refine .skipPunct (.refl _) (.isNext fun b => ?_)
    split
    · exact hword ‹_› nofun fun _ => ih _
    refine .isNext fun b => ?_
    split
    · exact hword ‹_› nofun fun _ => ih _
    refine .isNext fun b => ?_
    split
    · exact hword ‹_› nofun fun _ => .step (expectKeyword_moving _) fun _ => ih _
    refine .isNext fun b => ?_
    split
    · exact hword ‹_› nofun fun _ => .step literal_level.moving fun _ => ih _
    · exact .refl _

/-- The modifiers of a column end with a semicolon. -/
theorem columnFuel_ends : ∀ (fuel : Nat) (col : Column),
    EndsBehind .semicolon (columnFuel fuel col)
  | 0, _ => .expected _
  | fuel + 1, col => by
    have ih := columnFuel_ends fuel
    refine .skipPunct col rfl (.step (isNext_moving _) fun _ => ?_)
    split
    · exact .step advance_moving fun _ => ih _
    refine .step (isNext_moving _) fun _ => ?_
    split
    · exact .step advance_moving fun _ => ih _
    refine .step (isNext_moving _) fun _ => ?_
    split
    · exact .step advance_moving fun _ => .step (expectKeyword_moving _) fun _ => ih _
    refine .step (isNext_moving _) fun _ => ?_
    split
    · exact .step advance_moving fun _ => .step literal_level.moving fun _ => ih _
    · exact .expected _

theorem column_inBraces : InBraces n column :=
  fun _ _ => .start ident_level fun _ => .step typeRef_level fun _ => .rounds
    (.of_agree fun n fuel fuel' h h' => columnFuel_agree n fuel fuel' h h' _)
    fun fuel => columnFuel_inBraces fuel _ _ _

/-! ## Tables

A table tells a key, an index and a column apart by three tokens, and each of them has as many.
-/

section

variable (table : String) (b : TableBody) (hnext : ∀ kind, next kind → ∃ name, kind = .ident name)
include hnext

/-- Moving past a word that is not reserved. -/
theorem advanceWord {next' : TokenKind → Prop} (h : ∀ kind, next' kind → next kind) (σ : Scan) :
    Passage c n next' σ advance (some σ) := by
  have hword : ∀ kind, next' kind → Passable kind ∧ σ.Steps kind (some σ) := by
    intro kind hkind
    obtain ⟨name, rfl⟩ := hnext kind (h kind hkind)
    exact ⟨trivial, .plain (fun _ => rfl) σ⟩
  exact .advance (fun kind hkind => (hword kind hkind).1.ne_eof) fun _ => hword

theorem keyItem_passage {d : Nat} :
    Passage True n next ⟨false, d + 1⟩ (keyItem table b) (some ⟨false, d + 1⟩) :=
  .peek fun _ => .first (advanceWord hnext (fun _ => And.left) _) fun _ => .step nameList_level fun names =>
    .step (reports_idle names _).level fun _ => expectSemicolon.andPure _

theorem indexItem_passage {d : Nat} :
    Passage True n next ⟨false, d + 1⟩ (indexItem table b) (some ⟨false, d + 1⟩) :=
  .isNext fun _ => .peek fun _ => .first (advanceWord hnext (fun _ h => h.1.1) _) fun _ =>
    .step ident_level fun _ => .step nameList_level fun columns =>
    .step (reports_idle columns _).level fun _ => expectSemicolon.andPure _

end

theorem columnItem_inBraces (table : String) (b : TableBody) : InBraces n (columnItem table b) := by
  intro next d
  refine .first (column_inBraces _ _) fun col => ?_
  split
  · exact .step (invalid_idle _ _ _).level fun _ => .pure _
  · exact .pure _

/-- The parser passes so many tokens at least when it succeeds. -/
def Takes {α : Type} (n : Nat) (p : Parser α) : Prop :=
  ∀ env s a s', p env s = (.ok a, s') → s'.rest.length + n ≤ s.rest.length

namespace Takes

variable {α β : Type} {n : Nat} {p : Parser α} {f : α → Parser β}

theorem none (hp : Moving p) : Takes 0 p :=
  fun _ _ _ _ h => hp.length_le h

theorem skip (hp : Moving p) (hf : ∀ a, Takes n (f a)) : Takes n (p >>= f) := by
  intro env s b s' h
  obtain ⟨a, s₁, hfirst, hsecond⟩ := bind_ok.1 h
  exact Nat.le_trans (hf a env s₁ b s' hsecond) (hp.length_le hfirst)

theorem first (hp : Passing anything p) (hf : ∀ a, Takes n (f a)) : Takes (n + 1) (p >>= f) := by
  intro env s b s' h
  obtain ⟨a, s₁, hfirst, hsecond⟩ := bind_ok.1 h
  have hlater := hf a env s₁ b s' hsecond
  have hshorter := hp.shorter env s a s₁ trivial hfirst
  omega

/-- Where more tokens follow, there was one to move past. -/
theorem advance {f : Unit → Parser β} (hf : Takes (n + 1) (f ())) :
    Takes (n + 2) (Parser.advance >>= f) := by
  intro env s b s' h
  obtain ⟨_, s₁, hfirst, hsecond⟩ := bind_ok.1 h
  cases hfirst
  have hlater := hf env _ b s' hsecond
  have htail := List.length_tail (l := s.rest)
  dsimp only at hlater
  omega

end Takes

theorem keyItem_takes (table : String) (b : TableBody) : Takes 3 (keyItem table b) :=
  .skip peek_moving fun _ => .advance (.first nameList_level.passing fun names =>
    .skip (reports_idle names _).moving fun _ => .first (expectPunct_passing _) fun _ => .none (.pure _))

theorem indexItem_takes (table : String) (b : TableBody) : Takes 4 (indexItem table b) :=
  .skip (isNext_moving _) fun _ => .skip peek_moving fun _ =>
    .advance (.first ident_level.passing fun _ => .first nameList_level.passing fun columns =>
      .skip (reports_idle columns _).moving fun _ =>
        .first (expectPunct_passing _) fun _ => .none (.pure _))

theorem columnFuel_takes (fuel : Nat) (col : Column) : Takes 1 (columnFuel fuel col) := by
  intro env s a s' h
  obtain ⟨pos, hsuffix⟩ := columnFuel_ends fuel col env s a s' h
  exact hsuffix.length_le

theorem columnItem_takes (table : String) (b : TableBody) : Takes 3 (columnItem table b) := by
  have hcolumn : Takes 3 column :=
    .first ident_level.passing fun _ => .first typeRef_level.passing fun _ => .skip remaining_moving fun _ =>
      columnFuel_takes _ _
  intro env s a s' h
  obtain ⟨col, s₁, hfirst, hsecond⟩ := bind_ok.1 h
  refine Nat.le_trans (Nat.add_le_add_right (Moving.length_le ?_ hsecond) 3)
    (hcolumn env s col s₁ hfirst)
  split
  · exact .bind (invalid_idle _ _ _).moving fun _ => .pure _
  · exact .pure _

/-- The kind of the token that stands `n` further on. -/
def kindAt (n : Nat) (ts : List Token) : TokenKind :=
  ((ts[n]?).map (·.kind)).getD .eof

/-- The token is a name. -/
def isName : TokenKind → Bool
  | .ident _ => true
  | _ => false

/-- The parser for what the tokens start with. -/
def itemOf (table : String) (b : TableBody) (ts : List Token) : Parser TableBody :=
  if nextKind ts == .ident "key" && kindAt 1 ts == .punct .parenOpen then keyItem table b
  else if (nextKind ts == .ident "index" || nextKind ts == .ident "unique") && isName (kindAt 1 ts)
      && kindAt 2 ts == .punct .parenOpen then indexItem table b
  else columnItem table b

theorem itemOf_take (table : String) (b : TableBody) (ts : List Token) :
    itemOf table b (ts.take 3) = itemOf table b ts := by
  rcases ts with _ | ⟨t, _ | ⟨t', _ | ⟨t'', ts⟩⟩⟩ <;> rfl

theorem tableItem_eq (table : String) (b : TableBody) (env : ParserEnv) (s : ParserState) :
    tableItem table b env s = itemOf table b s.rest env s := by
  have hkind : ∀ n, peekKind n env s = (.ok (kindAt n s.rest), s) := fun _ => rfl
  have hword : ∀ name, isIdent name env s = (.ok (nextKind s.rest == .ident name), s) := fun _ => rfl
  unfold tableItem itemOf
  rw [bind_run (hkind 1), bind_run (hkind 2), bind_run (hword "key")]
  by_cases hkey : (nextKind s.rest == .ident "key" && kindAt 1 s.rest == .punct .parenOpen) = true
  · rw [if_pos hkey, if_pos hkey]
  · rw [if_neg hkey, if_neg hkey, bind_run (hword "index"), bind_run (hword "unique")]
    rfl

theorem itemOf_takes (table : String) (b : TableBody) (ts : List Token) :
    Takes 3 (itemOf table b ts) := by
  unfold itemOf
  split
  · exact keyItem_takes table b
  · split
    · exact fun env s a s' h => Nat.le_of_succ_le (indexItem_takes table b env s a s' h)
    · exact columnItem_takes table b

theorem itemOf_passage (table : String) (b : TableBody) (ts : List Token) {d : Nat} :
    Passage True n (· = nextKind ts) ⟨false, d + 1⟩ (itemOf table b ts) (some ⟨false, d + 1⟩) := by
  unfold itemOf
  split
  · rename_i hkey
    refine keyItem_passage table b ?_
    rintro kind rfl
    exact ⟨_, beq_iff_eq.1 (Bool.and_eq_true_iff.1 hkey).1⟩
  · split
    · rename_i hindex
      refine indexItem_passage table b ?_
      rintro kind rfl
      simp only [Bool.and_eq_true, Bool.or_eq_true] at hindex
      obtain h | h := hindex.1.1
      · exact ⟨_, beq_iff_eq.1 h⟩
      · exact ⟨_, beq_iff_eq.1 h⟩
    · exact columnItem_inBraces table b _ _

/-- Three tokens are looked at, and all of them are passed, so what follows makes no difference. -/
theorem tableItem_framed (table : String) (b : TableBody) {d : Nat} :
    Framed next ⟨false, d + 1⟩ (tableItem table b) (some ⟨false, d + 1⟩) := by
  intro env s a s' _ hrun
  rw [tableItem_eq] at hrun
  obtain ⟨taken, hrest, hcovers, hagain⟩ :=
    (itemOf_passage (n := false) table b s.rest).framed trivial env s a s' rfl hrun
  have htakes := itemOf_takes table b s.rest env s a s' hrun
  refine ⟨taken, hrest, hcovers, fun ts hlength hts => ?_⟩
  have hthree : (taken ++ ts).take 3 = s.rest.take 3 := by
    have hc : 3 ≤ taken.length := by
      rw [hrest, List.length_append] at htakes
      omega
    rw [hrest, List.take_append_of_le_length hc, List.take_append_of_le_length hc]
  rw [tableItem_eq]
  show itemOf table b (taken ++ ts) env _ = _
  rw [← itemOf_take, hthree, itemOf_take]
  exact hagain ts hlength hts

theorem tableItem_inBraces (table : String) (b : TableBody) : InBraces n (tableItem table b) := by
  intro next d
  have hitem : ∀ ts, Passage True n (· = nextKind ts) ⟨false, d + 1⟩ (itemOf table b ts)
      (some ⟨false, d + 1⟩) := fun ts => itemOf_passage table b ts
  have hmoving : Moving (tableItem table b) := fun env s => by
    rw [tableItem_eq]
    exact (hitem s.rest).moving env s
  refine ⟨fun _ => tableItem_framed table b, fun hc ws => .of_runs fun ts => ?_, hmoving,
    fun hn => ⟨hmoving, fun env s a s' _ h => ?_⟩⟩
  · exact ⟨_, _, (hitem ts).apart hc ws, fun hs => ⟨hs.statements, rfl⟩,
      fun env s hs => hs ▸ tableItem_eq table b env s⟩
  · rw [tableItem_eq] at h
    exact ((hitem s.rest).passing hn).shorter env s a s' rfl h

/-! ## Fields, parameters and members -/

theorem fieldsStep_inBraces (owner : String) (fs : List Field) :
    InBraces n (fields.step owner fs) := by
  intro next d
  refine .start ident_level fun _ => .step typeRef_level fun _ => .first expectSemicolon fun _ => ?_
  split
  · exact .step (invalid_idle _ _ _).level fun _ => .pure _
  · exact .pure _

theorem fields_whole (owner : String) : Whole (fields owner) :=
  fun _ _ => .first (.expectPunct (.outside rfl)) fun _ =>
    .bind (.untilClose fun fs => fieldsStep_inBraces owner fs _ _) fun _ =>
    .andPure (.expectPunct (.outside rfl)) _

theorem paramsStep_level (owner : String) (node : NodeId) (ps : List Field) :
    Level c n (params.step owner node ps) := by
  intro next σ
  refine .start ident_level fun _ => .step typeRef_level fun _ => ?_
  split
  · exact .step (invalid_idle _ _ _).level fun _ => .pure _
  · exact .step (declare_idle _ _ _ _ _).level fun _ => .pure _

/-- The parameters stand in parentheses, and are declared in the scope around. -/
theorem params_level (owner : String) (node : NodeId) : Level c n (params owner node) :=
  fun _ _ => .opened fun _ => .bind (.commaList fun ps => paramsStep_level owner node ps _ _) fun _ =>
    .closed fun _ => .settled (.pure _)

/-- A member of a client ends with its semicolon. -/
theorem apiStep_inBraces (ms : List ApiMember) : InBraces n (apiDecl.step ms) := by
  intro next d
  refine .start ident_level fun name => ?_
  have hwith : ∀ handler : Option String, Passage True false anything ⟨false, d + 1⟩ (do
      expectPunct .semicolon
      return ms ++ [⟨← nameRef name.1 name.2, handler, name.2⟩] : Parser (List ApiMember))
      (some ⟨false, d + 1⟩) := fun handler =>
    .first expectSemicolon fun _ => .step (nameRef_idle _ _).level fun _ => .pure _
  refine .skipPunct (.plain (fun _ => rfl) _) ?_ (hwith none)
  exact .step ident_level fun handler => hwith (some handler.1)

section

variable {α : Type} {member : Header → Bool → Parser α} (active : Bool)
  (hmember : ∀ h active next d, Passage c true next ⟨false, d⟩ (member h active) (Scan.behind d))
include hmember

/-- A member of a mapper or controller, with its header. -/
theorem membersStep_passage (items : List α) {d : Nat} :
    Passage c true next ⟨false, d⟩ (members.step active member items) (Scan.behind d) :=
  .step header_level fun _ => .andPure (hmember _ _ _ _) _

theorem members_passage {d : Nat} :
    Passage c n next ⟨false, d⟩ (members active member) (Scan.behind d) := by
  have hscope : ScopeKind.declaration ≠ .file := nofun
  refine .first (.expectPunct (.outside rfl)) fun _ => .andPure (.inScope hscope ?_) _
  exact .bind (.untilClose fun items => membersStep_passage (d := d + 1) active hmember items) fun _ =>
    .andPure (.expectPunct (.outside rfl)) _

end

/-! ## Behind the last token -/

/-- Annotations are checked on what was read already. -/
theorem checkHandler_idle (controller : String) (f : Func) : Idle (checkHandler controller f) := by
  unfold checkHandler
  extract_lets declaration notes body route
  have hbody : ∀ u, Idle (body u) := by
    intro u
    dsimp -zeta only [body]
    split
    · exact .pure _
    · split
      · exact invalid_idle _ _ _
      · exact .pure _
  have hroute : ∀ u, Idle (route u) := by
    intro u
    dsimp -zeta only [route]
    split
    · exact .bind (invalid_idle _ _ _) hbody
    · exact hbody ()
  split
  · exact .bind (invalid_idle _ _ _) hroute
  · split
    · exact .bind (invalid_idle _ _ _) hroute
    · exact hroute ()

mutual

theorem attachComponent_idle (pos : Position) : ∀ node : MarkupNode,
    Idle (attachComponent pos node)
  | .element tag attrs _ children => by
    rw [attachComponent]
    have hwith : ∀ component : Option NameRef, Idle (do
        return MarkupNode.element tag attrs component (← attachComponents pos children)) :=
      fun component => .bind (attachComponents_idle pos children) fun _ => .pure _
    split
    · exact .bind (nameRef_idle _ _) fun r => hwith (some r)
    · exact hwith none
  | .text s => by
    rw [attachComponent]
    · exact .pure _
    · intro tag attrs component children h
      cases h
  | .interpolation source => by
    rw [attachComponent]
    · exact .pure _
    · intro tag attrs component children h
      cases h

theorem attachComponents_idle (pos : Position) : ∀ nodes : List MarkupNode,
    Idle (attachComponents pos nodes)
  | [] => by
    rw [attachComponents]
    exact .pure _
  | node :: rest => by
    rw [attachComponents]
    exact .bind (attachComponent_idle pos node) fun _ =>
      .bind (attachComponents_idle pos rest) fun _ => .pure _

end

/-! ## Declarations -/

/-- A handler, as it is read in the braces of its controller. -/
def handlerDecl (controller : String) (h : Header) (active : Bool) : Parser Func := do
  let f ← funcDecl h active .handler
  if active then checkHandler controller f
  return f

section

variable (hd : Header) (active : Bool)

/-- A declaration starts with its word and its name. -/
theorem named_whole {α : Type} {k : Keyword} {kind : SymbolKind} {node : NodeId}
    {rest : String × Position → Unit → Parser α} (hk : Passable (.keyword k))
    (hrest : ∀ name u d, Passage True false anything ⟨false, d⟩ (rest name u) (Scan.behind d)) :
    Whole (expectKeyword k >>= fun _ => ident >>= fun name =>
      declare name.1 kind name.2 node active >>= rest name) :=
  fun _ d => .start (expectKeyword_level hk) fun _ => .step ident_level fun name =>
    .step (declare_idle _ _ _ _ _).level fun u => hrest name u d

theorem domainDecl_whole : Whole (domainDecl hd active) :=
  named_whole active trivial fun _ _ _ => .step typeRef_level fun _ => expectSemicolon.andPure _

theorem tableDecl_whole : Whole (tableDecl hd active) := by
  refine named_whole active trivial fun name _ d => .first (.expectPunct (.outside rfl)) fun _ => ?_
  refine .bind (.untilClose fun b => tableItem_inBraces name.1 b _ d) fun b => ?_
  refine .last (.expectPunct (.outside rfl)) fun _ => ?_
  split
  · exact .bind (invalid_idle _ _ _) fun _ => .pure _
  · exact .pure _

theorem entityDecl_whole : Whole (entityDecl hd active) := by
  refine named_whole active trivial fun name _ d => ?_
  have hwith : ∀ table : Option NameRef, Passage True false anything ⟨false, d⟩ (do
      if ← isPunct .braceOpen then return ⟨hd, name.1, table, ← fields s!"entity {name.1}"⟩
      else
        expectPunct .semicolon
        return ⟨hd, name.1, table, []⟩ : Parser Entity) (Scan.behind d) := by
    intro table
    refine .isNext fun _ => ?_
    split
    · exact .andPure (fields_whole _ _ d).lax _
    · exact expectSemicolon.andPure _
  refine .skipPunct (.plain (fun _ => rfl) _) ?_ (hwith none)
  exact .step ident_level fun _ => .step (nameRef_idle _ _).level fun r => hwith (some r)

theorem recordDecl_whole : Whole (recordDecl hd active) :=
  named_whole active trivial fun _ _ d => .andPure (fields_whole _ _ d).lax _

theorem apiDecl_whole : Whole (apiDecl hd active) :=
  named_whole active trivial fun _ _ d => .first (.expectPunct (.outside rfl)) fun _ =>
    .bind (.untilClose fun ms => apiStep_inBraces ms _ d) fun _ =>
    .andPure (.expectPunct (.outside rfl)) _

theorem propertyDecl_whole : Whole (propertyDecl hd active) := by
  refine named_whole active trivial fun name _ d => .step typeRef_level fun type => ?_
  have hwith : ∀ value : Option Expr, Passage True false anything ⟨false, d⟩ (do
      expectPunct .semicolon
      return ⟨hd, name.1, type, value⟩ : Parser Property) (Scan.behind d) := fun value =>
    expectSemicolon.andPure _
  refine .skipPunct (.plain (fun _ => rfl) _) ?_ (hwith none)
  exact .step expr_level fun value => hwith (some value)

theorem pageDecl_whole : Whole (pageDecl hd active) := by
  refine named_whole active trivial fun name _ d => .step (skipPunct_level fun _ => rfl) fun _ => ?_
  extract_lets withParent
  have hparent : ∀ parent, Passage True false anything ⟨false, d⟩ (withParent parent)
      (Scan.behind d) := by
    intro parent
    dsimp -zeta only [withParent]
    extract_lets withLayout
    have hlayout : ∀ layout, Passage True false anything ⟨false, d⟩ (withLayout layout)
        (Scan.behind d) := by
      intro layout
      refine .peek fun t => ?_
      split
      · rename_i ht
        refine .last (.seen ht trivial (.outside rfl)) fun _ => ?_
        extract_lets withMarkup
        have hmarkup : ∀ nodes, Idle (withMarkup nodes) := fun nodes =>
          .bind (attachComponents_idle _ nodes) fun _ => .pure _
        split
        · exact hmarkup _
        · exact .bind (invalid_idle _ _ _) fun _ => hmarkup []
      · exact .expected _
    split
    · exact .step (nameRef_idle _ _).level fun r => hlayout (some r)
    · exact hlayout none
  split
  · exact .step ident_level fun _ => .step (nameRef_idle _ _).level fun r => hparent (some r)
  · exact hparent none

theorem funcDecl_whole (kind : SymbolKind) : Whole (funcDecl hd active kind) := by
  refine named_whole active trivial fun name _ d => .step (own_idle _).level fun _ => ?_
  have hscope : ScopeKind.declaration ≠ .file := nofun
  refine .andPure (.inScope hscope (.step (params_level _ _) fun _ => .isNext fun _ => ?_)) _
  split
  · exact .andPure (block_whole _ d).lax _
  · exact .step typeRef_level fun _ => .andPure (block_whole _ d).lax _

theorem queryDecl_whole : Whole (queryDecl hd active) := by
  refine named_whole active trivial fun name _ d => .step takeSeq_idle.level fun _ => ?_
  have hscope : ScopeKind.declaration ≠ .file := nofun
  refine @Passage.bind _ _ _ _ _ _ ⟨false, d⟩ _ _ _
    (.inScope hscope (.step (params_level _ _) fun _ => .peek fun _ => ?_)) fun _ => .peek fun t => ?_
  · split
    · exact .pure _
    · exact .step typeRef_level fun _ => .pure _
  · split
    · rename_i ht
      exact .andPure (.seen ht trivial (.outside rfl)) _
    · exact .expected _

theorem handlerDecl_whole (controller : String) : Whole (handlerDecl controller hd active) := by
  refine fun _ d => .last (funcDecl_whole hd active .handler _ d) fun f => ?_
  split
  · exact .bind (checkHandler_idle _ _) fun _ => .pure _
  · exact .pure _

theorem mapperDecl_whole : Whole (mapperDecl hd active) :=
  named_whole active trivial fun _ _ _ => .andPure (members_passage active queryDecl_whole) _

theorem controllerDecl_whole : Whole (controllerDecl hd active) :=
  named_whole active trivial fun name _ _ => .andPure
    (members_passage active fun h active => handlerDecl_whole h active name.1) _

end

/-! ## Import statements -/

section

variable {env : ParserEnv} {s s₁ s₂ : ParserState}

theorem expect_ok {kind : TokenKind} {pos : Position} (h : expect kind env s = (.ok pos, s₁)) :
    nextKind s.rest = kind ∧ s₁.rest = s.rest.tail := by
  obtain ⟨t, s₂, h₂, h⟩ := bind_ok.1 h
  cases h₂
  split at h
  · rename_i hkind
    cases h
    exact ⟨eq_of_beq hkind, rfl⟩
  · cases h

theorem quoted_ok {w : String} (h : quoted env s = (.ok w, s₁)) :
    nextKind s.rest = .str w ∧ s₁.rest = s.rest.tail := by
  obtain ⟨t, s₂, h₂, h⟩ := bind_ok.1 h
  cases h₂
  cases hkind : (s.rest.headD ⟨.eof, {}⟩).kind with
  | str written =>
    rw [hkind] at h
    cases h
    exact ⟨hkind, rfl⟩
  | _ =>
    rw [hkind] at h
    cases h

/-- The tokens of an import statement. -/
theorem statement_tokens {s₃ : ParserState} {pos : Position} {written : String} {u : Unit}
    (h₁ : expectKeyword .importKw env s = (.ok pos, s₁)) (h₂ : quoted env s₁ = (.ok written, s₂))
    (h₃ : expectPunct .semicolon env s₂ = (.ok u, s₃)) : s₃.rest.length < s.rest.length ∧
      importStatements false s.rest = written :: importStatements false s₃.rest := by
  obtain ⟨_, _, h₃, hpure⟩ := bind_ok.1 h₃
  cases hpure
  obtain ⟨hkind₁, hrest₁⟩ := expect_ok h₁
  obtain ⟨hkind₂, hrest₂⟩ := quoted_ok h₂
  obtain ⟨hkind₃, hrest₃⟩ := expect_ok h₃
  obtain ⟨pos₁, hcons₁⟩ := eq_cons_of_nextKind hkind₁ nofun
  obtain ⟨pos₂, hcons₂⟩ := eq_cons_of_nextKind hkind₂ nofun
  obtain ⟨pos₃, hcons₃⟩ := eq_cons_of_nextKind hkind₃ nofun
  rw [hcons₁, ← hrest₁, hcons₂, ← hrest₂, hcons₃, ← hrest₃]
  refine ⟨?_, rfl⟩
  simp only [List.length_cons]
  omega

/-- What an import statement does behind its tokens. -/
def importPart (h : Header) (written : String) : Parser Import := do
  let seq ← takeSeq
  let e ← Parser.env
  match e.source.locate e.tree written with
  | none => fail (.fault e.source.path h.pos (.importNotFound written))
  | some found =>
    match ← session (e.load found) with
    | .error err => fail err
    | .ok document =>
      session fun s => ((), { s with symbols := s.symbols.addImport e.root document.scope seq })
      change fun s => { s with imports := s.imports ++ [document.path] }
      return ⟨h, written, document.path⟩

section

variable {s₃ : ParserState} {pos : Position} {written : String} {u : Unit} (h : Header)
  (load : Loader)

/-- Nothing is loaded where no file is found, and the statement has its place in the order all the
same. -/
theorem importPart_missing (hfound : env.source.locate env.tree written = none) :
    importPart h written { env with load } s =
      (.error (.fault env.source.path h.pos (.importNotFound written)),
        { s with seq := s.seq + 1 }) := by
  have hseq : takeSeq { env with load } s = (.ok s.seq, { s with seq := s.seq + 1 }) := rfl
  refine (bind_run hseq).trans ((bind_run rfl).trans ?_)
  dsimp only
  rw [hfound]
  rfl

theorem importPart_run {found : SourceFile} (hfound : env.source.locate env.tree written = some found) :
    importPart h written { env with load } s =
      importing env load found (fun d => ⟨h, written, d.path⟩) s := by
  have hseq : takeSeq { env with load } s = (.ok s.seq, { s with seq := s.seq + 1 }) := rfl
  refine (bind_run hseq).trans ((bind_run rfl).trans ?_)
  have hsession : session (load found) { env with load } { s with seq := s.seq + 1 }
      = (.ok (load found s.session).1,
        { s with seq := s.seq + 1, session := (load found s.session).2 }) := rfl
  dsimp only
  rw [hfound]
  unfold importing
  rcases hload : load found s.session with ⟨e | d, session⟩
  · rw [hload] at hsession
    exact (bind_run hsession).trans rfl
  · rw [hload] at hsession
    exact (bind_run hsession).trans rfl

/-- After its tokens, an import statement looks for its file. -/
theorem importDecl_missing (h₁ : expectKeyword .importKw { env with load } s = (.ok pos, s₁))
    (h₂ : quoted { env with load } s₁ = (.ok written, s₂))
    (h₃ : expectPunct .semicolon { env with load } s₂ = (.ok u, s₃))
    (hfound : env.source.locate env.tree written = none) : importDecl h { env with load } s =
      (.error (.fault env.source.path h.pos (.importNotFound written)),
        { s₃ with seq := s₃.seq + 1 }) :=
  (bind_run h₁).trans ((bind_run h₂).trans ((bind_run h₃).trans (importPart_missing h load hfound)))

/-- The file that an import statement means is loaded. -/
theorem importDecl_run {found : SourceFile}
    (h₁ : expectKeyword .importKw { env with load } s = (.ok pos, s₁))
    (h₂ : quoted { env with load } s₁ = (.ok written, s₂))
    (h₃ : expectPunct .semicolon { env with load } s₂ = (.ok u, s₃))
    (hfound : env.source.locate env.tree written = some found) : importDecl h { env with load } s =
      importing env load found (fun d => ⟨h, written, d.path⟩) s₃ :=
  (bind_run h₁).trans ((bind_run h₂).trans ((bind_run h₃).trans (importPart_run h load hfound)))

end

end

section

variable (hd : Header) (active : Bool)

theorem importPart_untouched (written : String) : Untouched (importPart hd written) := by
  refine takeSeq_idle.untouched.bind fun seq => .bind (fun _ _ _ => rfl) fun e => ?_
  split
  · exact fun _ _ _ => rfl
  · refine .bind (fun _ _ _ => rfl) fun loaded => ?_
    split
    · exact fun _ _ _ => rfl
    · exact .bind (fun _ _ _ => rfl) fun _ => .bind (fun _ _ _ => rfl) fun _ => .pure _

theorem importPart_moving (written : String) : Moving (importPart hd written) := by
  intro env s
  cases hfound : env.source.locate env.tree written with
  | none =>
    have hmissing : importPart hd written env s = _ := importPart_missing hd env.load hfound
    rw [hmissing]
    exact takeSeq_idle.moving env s
  | some found =>
    have hload : importPart hd written env s = _ := importPart_run hd env.load hfound
    rw [hload]
    exact .load s found _

/-- The file that an import statement means is loaded after the tokens of the statement. -/
theorem importDecl_passing : Passing next (importDecl hd) :=
  .first (expectKeyword_passing _) fun _ => .bind quoted_level.moving fun written =>
    .bind (expectPunct_moving _) fun _ => importPart_moving hd written

/-- What an import loads is no matter of the tokens. -/
theorem importDecl_framed {d : Nat} : Framed next ⟨false, d⟩ (importDecl hd) (Scan.behind d) :=
  .bind (.expect nofun (.plain (fun _ => rfl) _)) fun _ => .bind quoted_level.framed fun written =>
    .last expectSemicolon_framed fun _ => importPart_untouched hd written

/-! ## Files -/

/-- The declaration that starts with a token of such a kind. -/
def declOf : TokenKind → Parser Decl
  | .keyword .importKw => do return .importFile (← importDecl hd)
  | .keyword .domainKw => do return .domain (← domainDecl hd active)
  | .keyword .tableKw => do return .table (← tableDecl hd active)
  | .keyword .entityKw => do return .entity (← entityDecl hd active)
  | .keyword .structKw => do return .record (← recordDecl hd active)
  | .keyword .mapperKw => do return .mapper (← mapperDecl hd active)
  | .keyword .controllerKw => do return .controller (← controllerDecl hd active)
  | .keyword .apiKw => do return .api (← apiDecl hd active)
  | .keyword .htmlKw => do return .page (← pageDecl hd active)
  | .keyword .propertyKw => do return .property (← propertyDecl hd active)
  | .keyword .funcKw => do return .func (← funcDecl hd active .func)
  | _ => expected "a declaration"

/-- Import statements apart, a declaration keeps to its own tokens. -/
theorem declOf_whole {kind : TokenKind} (hkind : kind ≠ .keyword .importKw) :
    Whole (declOf hd active kind) := by
  intro next d
  unfold declOf
  split
  · exact absurd rfl hkind
  · exact .andPure (domainDecl_whole hd active _ d) _
  · exact .andPure (tableDecl_whole hd active _ d) _
  · exact .andPure (entityDecl_whole hd active _ d) _
  · exact .andPure (recordDecl_whole hd active _ d) _
  · exact .andPure (mapperDecl_whole hd active _ d) _
  · exact .andPure (controllerDecl_whole hd active _ d) _
  · exact .andPure (apiDecl_whole hd active _ d) _
  · exact .andPure (pageDecl_whole hd active _ d) _
  · exact .andPure (propertyDecl_whole hd active _ d) _
  · exact .andPure (funcDecl_whole hd active .func _ d) _
  · exact .expected _

end

/-- Sequencing is associative. -/
theorem bind_bind {α β γ : Type} (p : Parser α) (f : α → Parser β) (g : β → Parser γ) :
    (p >>= fun a => f a >>= g) = (p >>= f) >>= g := by
  funext env s
  rcases hrun : p env s with ⟨e | a, s₁⟩
  · have hfirst : (p >>= f) env s = (.error e, s₁) := bind_failed hrun
    rw [bind_failed hrun, bind_failed hfirst]
  · have hsecond : (p >>= f) env s = f a env s₁ := bind_run hrun
    rw [bind_run hrun]
    rcases hrun' : f a env s₁ with ⟨e | b, s₂⟩
    · rw [bind_failed hrun', bind_failed (hsecond.trans hrun')]
    · rw [bind_run hrun', bind_run (hsecond.trans hrun')]

/-- A declaration is its header, and what the next token decides. -/
theorem decl_eq : decl = header >>= fun hd => peek >>= fun t => declOf hd.1 hd.2 t.kind >>= fun d =>
    pure (if hd.2 then some d else none) := by
  unfold decl
  refine congrArg _ (funext fun hd => ?_)
  dsimp only
  refine congrArg _ (funext fun t => ?_)
  generalize t.kind = kind
  cases kind with
  | keyword k => cases k <;> first | exact bind_bind _ _ _ | rfl
  | _ => rfl

/-- A declaration passes the tokens up to its end. -/
theorem decl_framed : Framed next {} decl none := by
  rw [decl_eq]
  refine .bind header_level.framed fun hd => .peek fun t => .andPure ?_ _
  by_cases hkind : t.kind = .keyword .importKw
  · rw [hkind]
    exact .andPure (importDecl_framed hd.1) _
  · exact (declOf_whole hd.1 hd.2 hkind).framed

theorem decl_passing : Passing next decl := by
  rw [decl_eq]
  refine .later header_level.moving fun hd => .peek fun t => .first ?_ fun _ => .pure _
  by_cases hkind : t.kind = .keyword .importKw
  · rw [hkind]
    exact .first (importDecl_passing hd.1) fun _ => .pure _
  · exact (declOf_whole hd.1 hd.2 hkind).passing

theorem declsStep_passing (ds : List Decl) : Passing next (decls.step ds) :=
  .skipPunct (.pure _) (.first decl_passing fun _ => .pure _)

theorem decls_moving : Moving decls :=
  .bind remaining_moving fun _ => untilFuel_moving (.bind peek_moving fun _ => .pure _)
    (fun ds => (declsStep_passing ds : Passing anything _).moving) _ []

end Scaffold.Source.Parser
