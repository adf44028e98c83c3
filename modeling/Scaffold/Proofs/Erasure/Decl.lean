import Scaffold.Proofs.Erasure.Reading

/-!
# Reading what is left of a file

What is left of a declaration is read as the declaration is, and so is what is left of a file.
Mappers and controllers are one thing here: a word, a name, and members in braces (`Group`). Import
statements stay whatever their annotations say, because they load their files in any case.

* `Group.Lawful.keeps_up`: the statement for declarations with members.
* `decl_import_iff`: an import statement, its tokens first and then what it loads.
* `remains_keep_up`: the statement for one declaration.
* `decls_keep_up`: the statement for a file.
-/

namespace Scaffold.Source

namespace Parser

variable {α δ : Type} {N₀ N : Numbers} {env env' : ParserEnv} {s s₁ s' : ParserState}

/-! ## Declarations with members -/

/-- The parts of a declaration with members: its word, how a member is read, and what is made of
them. -/
structure Group (α δ : Type) where
  word : Keyword
  kind : SymbolKind
  member : String → Header → Bool → Parser α
  make : Header → String → List α → δ
  wrap : δ → Decl
  Alike : Likeness → α → α → Prop

namespace Group

variable (G : Group α δ)

/-- The declaration, behind its header. -/
def body (hd : Header) (active : Bool) : Parser δ := do
  let _ ← expectKeyword G.word
  let (name, pos) ← ident
  declare name G.kind pos hd.id active
  return G.make hd name (← members active (G.member name))

/-- The start of the declaration, up to its members. -/
def head : Parser ((Header × Bool) × String) := do
  let hd ← header
  let _ ← expectKeyword G.word
  let (name, pos) ← ident
  declare name G.kind pos hd.1.id hd.2
  return (hd, name)

/-- What is used of the parsers of such declarations. -/
structure Lawful : Prop where
  /-- What is left of them is found member by member. -/
  word_cut : G.word = .mapperKw ∨ G.word = .controllerKw
  word_wrap : ∀ d, leadingWord (G.wrap d) = G.word
  wrapped : ∀ {d}, leadingWord d = G.word → ∃ d', d = G.wrap d'
  step_iff : ∀ {env s s₁ hd active d}, DeclStep env hd active s s₁ (G.wrap d) ↔
    G.body hd active env s = (.ok d, s₁)
  whole : ∀ name hd active, Whole (G.member name hd active)
  declaring : ∀ {env name hd active item s s₁}, env.Loads →
    G.member name hd active env s = (.ok item, s₁) → ∃ d us, Declaring env s (Declared.when active d) us s₁
  mono : ∀ {L L' a a'}, L.Le L' → G.Alike L a a' → G.Alike L' a a'
  agrees : ∀ (K : Link) {env env' w h h'} name active, h.Alike (K.likeness w) h' →
    Agrees K env env' w (G.member name h active) (G.member name h' active)
      fun w => G.Alike (K.likeness w)
  make_alike : ∀ {L h h' as as'} name, h.Alike L h' → List.Forall₂ (G.Alike L) as as' →
    (G.wrap (G.make h name as)).Alike L (G.wrap (G.make h' name as'))

end Group

def mapperGroup : Group Query Mapper where
  word := .mapperKw
  kind := .mapper
  member _ := queryDecl
  make := .mk
  wrap := .mapper
  Alike := Query.Alike

def controllerGroup : Group Func Controller where
  word := .controllerKw
  kind := .controller
  member := handlerDecl
  make := .mk
  wrap := .controller
  Alike := Func.Alike

theorem mapperGroup_lawful : mapperGroup.Lawful where
  word_cut := .inl rfl
  word_wrap _ := rfl
  wrapped {d} hword := by
    cases d with
    | mapper d => exact ⟨d, rfl⟩
    | _ => cases hword
  step_iff := ⟨fun h => by cases h with | mapper h => exact h, .mapper⟩
  whole _ := queryDecl_whole
  declaring hload h := ⟨_, _, queryDecl_declaring hload h⟩
  mono hle h := Query.Alike.mono hle h
  agrees K _ _ _ _ _ _ active hh := queryDecl_agrees K hh active
  make_alike _ hh hs := .mapper ⟨hh, rfl, hs⟩

theorem handlerDecl_declaring {controller : String} {hd : Header} {active : Bool} {f : Func}
    (hload : env.Loads) (h : handlerDecl controller hd active env s = (.ok f, s₁)) :
    ∃ d us, Declaring env s (Declared.when active d) us s₁ := by
  obtain ⟨g, s₂, h₂, h⟩ := bind_ok.1 h
  obtain ⟨-, hd, -⟩ := funcDecl_parsed hload rfl h₂
  have hread : Reads env s₂ [] s₁ := by
    split at h
    · obtain ⟨_, s₃, h₃, h⟩ := bind_ok.1 h
      obtain ⟨-, rfl⟩ := pure_ok.1 h
      exact (checkHandler_scans _ _).reads h₃
    · obtain ⟨-, rfl⟩ := pure_ok.1 h
      exact .refl _
  have hall := hd.trans hload (.reads hread)
  rw [List.append_nil] at hall
  exact ⟨_, _, hall⟩

theorem controllerGroup_lawful : controllerGroup.Lawful where
  word_cut := .inr rfl
  word_wrap _ := rfl
  wrapped {d} hword := by
    cases d with
    | controller d => exact ⟨d, rfl⟩
    | _ => cases hword
  step_iff := ⟨fun h => by cases h with | controller h => exact h, .controller⟩
  whole name hd active := handlerDecl_whole hd active name
  declaring hload h := handlerDecl_declaring hload h
  mono hle h := Func.Alike.mono hle h
  agrees K _ _ _ _ _ name active hh := handlerDecl_agrees K name hh active
  make_alike _ hh hs := .controller ⟨hh, rfl, hs⟩

/-! ## Members -/

/-- A member has a header. -/
theorem membersStep_ok {member : Header → Bool → Parser α} {active : Bool} {items items₁ : List α}
    (h : members.step active member items env s = (.ok items₁, s₁)) : ∃ hd s₂ item,
      header env s = (.ok hd, s₂) ∧ member hd.1 (active && hd.2) env s₂ = (.ok item, s₁) ∧
      items₁ = if active && hd.2 then items ++ [item] else items := by
  obtain ⟨hd, s₂, h₂, h⟩ := bind_ok.1 h
  obtain ⟨item, s₃, h₃, h⟩ := bind_ok.1 h
  obtain ⟨rfl, rfl⟩ := pure_ok.1 h
  exact ⟨hd, s₂, item, h₂, h₃, rfl⟩

theorem inScope_of_ok {kind : ScopeKind} {p : Parser α} {a : α}
    (h : p env (s.enter env kind) = (.ok a, s₁)) :
    inScope kind p env s = (.ok (s.session.symbols.scopes.size, a), s₁.leave) :=
  congrArg (fun r => (r.1.map (s.session.symbols.scopes.size, ·), r.2.leave)) h

/-- Members end at a closing brace, or with the file. -/
def endsMembers (kind : TokenKind) : Bool :=
  kind == .punct .braceClose || kind == .eof

/-- The members of a declaration: an opening brace, a loop in a new scope, and a closing brace. -/
theorem members_ok_iff {member : Header → Bool → Parser α} {active : Bool} {items : List α} :
    members active member env s = (.ok items, s₁) ↔ nextKind s.rest = .punct .braceOpen ∧
      ∃ s₂, untilFuel (atClose .braceClose) (members.step active member) (s.rest.tail.length + 1) [] env
        (({ s with rest := s.rest.tail } : ParserState).enter env .declaration) = (.ok items, s₂) ∧
        nextKind s₂.rest = .punct .braceClose ∧
        s₁ = ({ s₂ with rest := s₂.rest.tail } : ParserState).leave := by
  constructor
  · intro h
    obtain ⟨_, s₂, hopen, h⟩ := bind_ok.1 h
    obtain ⟨hkind, rfl⟩ := expectPunct_ok_iff.1 hopen
    obtain ⟨⟨scope, items'⟩, s₃, hscope, h⟩ := bind_ok.1 h
    obtain ⟨rfl, rfl⟩ := pure_ok.1 h
    obtain ⟨-, s₄, hin, rfl⟩ := inScope_ok hscope
    obtain ⟨items, s₅, hloop, hin⟩ := bind_ok.1 hin
    obtain ⟨_, s₆, hclose, hin⟩ := bind_ok.1 hin
    obtain ⟨rfl, rfl⟩ := pure_ok.1 hin
    obtain ⟨hkind', rfl⟩ := expectPunct_ok_iff.1 hclose
    exact ⟨hkind, s₅, hloop, hkind', rfl⟩
  · rintro ⟨hkind, s₂, hloop, hkind', rfl⟩
    refine bind_ok.2 ⟨(), _, expectPunct_ok_iff.2 ⟨hkind, rfl⟩, bind_ok.2 ⟨(_, items), _,
      inScope_of_ok (bind_ok.2 ⟨items, s₂, hloop, bind_ok.2 ⟨(), _, expectPunct_ok_iff.2
        ⟨hkind', rfl⟩, rfl⟩⟩), rfl⟩⟩

namespace Group

variable {G : Group α δ} (hG : G.Lawful) {name : String} {items items' items₁ : List α}
  {c z : List Token}
include hG

theorem Lawful.step_whole (name : String) (active : Bool) (items : List α) :
    Whole (members.step active (G.member name) items) :=
  fun _ _ => membersStep_passage active (fun h active => hG.whole name h active) items

/-- The tokens of a member do not end with its annotations. -/
theorem Lawful.headed {active : Bool} (h : members.step active (G.member name) items env s = (.ok items₁, s₁))
    (hrest : s.rest = c ++ s₁.rest) : Headed c := by
  have hframed : Framed anything {} (members.step active (G.member name) items) none :=
    (hG.step_whole name active items).framed
  obtain ⟨c', hrest', -, hagain⟩ := hframed env s items₁ s₁ trivial h
  obtain rfl : c = c' := List.append_cancel_right (hrest.symm.trans hrest')
  obtain ⟨hd, s₂, item, hheader, hmember, -⟩ := membersStep_ok (hagain [] (Nat.zero_le _) nofun)
  have hpassing : Passing anything (G.member name hd.1 (active && hd.2)) := (hG.whole _ _ _).passing
  have hshorter := hpassing.shorter _ _ _ _ trivial hmember
  rw [header_run, List.append_nil] at hheader
  cases hheader
  intro hnil
  rw [hnil] at hshorter
  exact absurd hshorter (Nat.not_lt_zero _)

theorem Lawful.step_declaring (hload : env.Loads) {active : Bool}
    (h : members.step active (G.member name) items env s = (.ok items₁, s₁)) :
    ∃ ds us, Declaring env s ds us s₁ := by
  obtain ⟨hd, s₂, item, hheader, hmember, -⟩ := membersStep_ok h
  obtain ⟨d, us, hd⟩ := hG.declaring hload hmember
  exact ⟨_, _, (header_declaring hload hheader).trans hload hd⟩

omit hG in
/-- Two parsers are abreast between members, and have read members that are alike. -/
structure MembersAbreast (G : Group α δ) (N₀ : Numbers) (env env' : ParserEnv)
    (platform : Option Platform) (N : Numbers) (items : List α) (s : ParserState)
    (items' : List α) (s' : ParserState) : Prop where
  items : List.Forall₂ (G.Alike (N.unbound False)) items items'
  states : ParserState.Abreast N₀ N env s env' s'
  standing : Standing env s
  platform : s.session.platform = platform

/-- What is left of a member is read as the member is. -/
theorem Lawful.member_keeps_up (hload : env.Loads) {platform : Option Platform}
    (h : MembersAbreast G N₀ env env' platform N items s items' s')
    (hrun : members.step true (G.member name) items env s = (.ok items₁, s₁))
    (hclean : s₁.session.Clean) (hrest : s.rest = c ++ s₁.rest) (hlength : z.length ≤ s₁.rest.length)
    (hkinds : SameKinds s'.rest (memberRemains platform c ++ z)) :
    (memberRemains platform c = [] → MembersAbreast G N₀ env env' platform N items₁ s₁ items' s') ∧
    (memberRemains platform c ≠ [] → ∃ N₁ items₁' s₁', N.Le N₁ ∧
      members.step true (G.member name) items' env' s' = (.ok items₁', s₁') ∧
      MembersAbreast G N₀ env env' platform N₁ items₁ s₁ items₁' s₁' ∧ SameKinds s₁'.rest z) := by
  obtain ⟨_, _, hdeclaring⟩ := hG.step_declaring hload hrun
  have hstanding := hdeclaring.run.standing hload h.standing
  have hplatform := (hdeclaring.run.advances hload).platform.trans h.platform
  have hstill := (((hG.step_whole name true items).tame []).ran hrun).still
  have hheaded := hG.headed hrun hrest
  obtain ⟨⟨hd, on⟩, s₂, item, hheader, hmember, rfl⟩ := membersStep_ok hrun
  rw [memberRemains, ← h.platform, header_active hheader hrest hheaded] at hkinds ⊢
  rw [h.platform]
  cases on with
  | false =>
    obtain ⟨d, us, hd⟩ := hG.declaring hload hmember
    have haside := h.states.aside hload h.standing ((header_declaring hload hheader).trans hload hd)
      hstill hclean
    exact ⟨fun _ => ⟨h.items, haside, hstanding, hplatform⟩, fun hnone => absurd rfl hnone⟩
  | true =>
    refine ⟨fun hnil => absurd hnil ?_, fun _ => ?_⟩
    · show c ≠ []
      rintro rfl
      exact hheaded rfl
    · obtain ⟨N₁, items₁', s₁', hle, hrun', hitems, hstates, hkinds₁⟩ :=
        (hG.step_whole name true items).framed.keep_up
          (membersStep_agrees (Link.abreast N₀) (V := fun N => G.Alike (N.unbound False))
            (fun _ _ _ _ hle => hG.mono hle.unbound)
            (fun _ _ _ active hh => hG.agrees (Link.abreast N₀) name active hh) true h.items)
          h.states hrun hrest hlength (fun hsome => absurd hsome Bool.false_ne_true) hkinds
      exact ⟨N₁, items₁', s₁', hle, hrun', ⟨hitems, hstates, hstanding, hplatform⟩, hkinds₁⟩

end Group

/-! ## The start -/

theorem ident_ok {x : String × Position} (h : ident env s = (.ok x, s₁)) :
    nextKind s.rest = .ident x.1 ∧ s₁.rest = s.rest.tail := by
  obtain ⟨t, s₂, h₂, h⟩ := bind_ok.1 h
  cases h₂
  cases hkind : (s.rest.headD ⟨.eof, {}⟩).kind with
  | ident name =>
    rw [hkind] at h
    cases h
    exact ⟨hkind, rfl⟩
  | _ =>
    rw [hkind] at h
    cases h

namespace Group

variable (G : Group α δ)

theorem head_framed {next : TokenKind → Prop} : Framed next {} G.head (some {}) :=
  .bind header_level.framed fun _ => .bind (.expect nofun (.plain (fun _ => rfl) _)) fun _ =>
    .bind ident_level.framed fun _ => .bind (declare_idle _ _ _ _ _).untouched.framed fun _ => .pure _

theorem head_agrees (K : Link) {w : K.World} : Agrees K env env' w G.head G.head
    fun w x x' => x.1.1.Alike (K.likeness w) x'.1.1 ∧ x.1.2 = x'.1.2 ∧ x.2 = x'.2 := by
  refine .bind (header_agrees K) ?_
  rintro w₁ ⟨hd, on⟩ ⟨hd', _⟩ - ⟨hh, rfl⟩
  exact .expect fun _ _ _ => .ident fun _ _ _ hpos => .declare hpos (fun _ => hh.node)
    (.pure fun _ hle => ⟨hh.mono (K.likeness_le hle), rfl, rfl⟩)

variable {G} {x : (Header × Bool) × String}

/-- The start is the header, the word and the name. -/
theorem head_ok (h : G.head env s = (.ok x, s₁)) : ∃ s₂ s₃ s₄ p pos u,
    header env s = (.ok x.1, s₂) ∧ expectKeyword G.word env s₂ = (.ok p, s₃) ∧
    ident env s₃ = (.ok (x.2, pos), s₄) ∧
    declare x.2 G.kind pos x.1.1.id x.1.2 env s₄ = (.ok u, s₁) := by
  obtain ⟨hd, s₂, h₂, h⟩ := bind_ok.1 h
  obtain ⟨p, s₃, h₃, h⟩ := bind_ok.1 h
  obtain ⟨⟨name, pos⟩, s₄, h₄, h⟩ := bind_ok.1 h
  obtain ⟨u, s₅, h₅, h⟩ := bind_ok.1 h
  obtain ⟨rfl, rfl⟩ := pure_ok.1 h
  exact ⟨s₂, s₃, s₄, p, pos, u, h₂, h₃, h₄, h₅⟩

theorem head_run (hload : env.Loads) (hroot : s.scope env = env.root)
    (h : G.head env s = (.ok x, s₁)) : Run env s s₁ := by
  obtain ⟨s₂, s₃, s₄, p, pos, u, h₂, h₃, h₄, h₅⟩ := head_ok h
  have hheader := header_declaring hload h₂
  have hscope := (hheader.run.advances hload).scope.trans hroot
  exact hheader.run.trans (named_declaring hload (fun _ => hscope) h₃ h₄ h₅).run

/-- There is no brace at the start. -/
theorem head_tokens (h : G.head env s = (.ok x, s₁)) :
    ∃ c, s.rest = c ++ s₁.rest ∧ ∀ t ∈ c, isBeforeMembers t = true := by
  obtain ⟨s₂, s₃, s₄, p, pos, u, h₂, h₃, h₄, h₅⟩ := head_ok h
  obtain ⟨c, hc, hall⟩ := takeAnnotations_split {} s.rest
  rw [header_run] at h₂
  obtain rfl := congrArg Prod.snd h₂
  obtain ⟨hword, hrest₃⟩ := expect_ok h₃
  obtain ⟨hname, hrest₄⟩ := ident_ok h₄
  obtain ⟨pos₁, hcons₁⟩ := eq_cons_of_nextKind hword nofun
  obtain ⟨pos₂, hcons₂⟩ := eq_cons_of_nextKind hname nofun
  have hrest₅ := (declare_idle _ _ _ _ _).untouched.rest_eq h₅
  refine ⟨c ++ [⟨.keyword G.word, pos₁⟩, ⟨.ident x.2, pos₂⟩], ?_, ?_⟩
  · rw [hrest₅, hrest₄, List.append_assoc, List.cons_append, List.singleton_append, ← hcons₂, hrest₃,
      ← hcons₁]
    exact hc
  · simp only [List.forall_mem_append, List.forall_mem_cons]
    refine ⟨fun t ht => ?_, rfl, rfl, nofun⟩
    obtain ⟨pairs, hkind⟩ := hall t ht
    rw [isBeforeMembers, hkind]
    rfl

/-- A declaration with members is its start, and then the members. -/
theorem Lawful.decl_iff (hG : G.Lawful) {o : Option Decl} :
    (decl env s = (.ok o, s₁) ∧ leadingKind s.rest = .keyword G.word) ↔ ∃ x items s₂,
      G.head env s = (.ok x, s₂) ∧ members x.1.2 (G.member x.2) env s₂ = (.ok items, s₁) ∧
      o = if x.1.2 then some (G.wrap (G.make x.1.1 x.2 items)) else none := by
  constructor
  · rintro ⟨h, hk⟩
    obtain ⟨hd, d, s₂, hheader, hstep, rfl⟩ := decl_steps s s o s₁ rfl h
    have hword := hstep.nextKind.symm.trans ((header_leading hheader).trans hk)
    obtain ⟨d, rfl⟩ := hG.wrapped (TokenKind.keyword.inj hword)
    obtain ⟨p, s₃, h₃, hbody⟩ := bind_ok.1 (hG.step_iff.1 hstep)
    obtain ⟨⟨name, pos⟩, s₄, h₄, hbody⟩ := bind_ok.1 hbody
    obtain ⟨u, s₅, h₅, hbody⟩ := bind_ok.1 hbody
    obtain ⟨items, s₆, h₆, hbody⟩ := bind_ok.1 hbody
    obtain ⟨rfl, rfl⟩ := pure_ok.1 hbody
    exact ⟨(hd, name), items, s₅, bind_ok.2 ⟨hd, s₂, hheader, bind_ok.2 ⟨p, s₃, h₃,
      bind_ok.2 ⟨(name, pos), s₄, h₄, bind_ok.2 ⟨u, s₅, h₅, rfl⟩⟩⟩⟩, h₆, rfl⟩
  · rintro ⟨⟨hd, name⟩, items, s₂, hhead, hmembers, rfl⟩
    obtain ⟨s₃, s₄, s₅, p, pos, u, h₃, h₄, h₅, h₆⟩ := head_ok hhead
    refine ⟨decl_of_step h₃ (hG.step_iff.2 (bind_ok.2 ⟨p, s₄, h₄, bind_ok.2 ⟨(name, pos), s₅, h₅,
      bind_ok.2 ⟨u, s₂, h₆, bind_ok.2 ⟨items, s₁, hmembers, rfl⟩⟩⟩⟩)), ?_⟩
    rw [← header_leading h₃]
    exact (expect_ok h₄).1

/-- What is left of a declaration with members is read as the declaration is. -/
theorem Lawful.keeps_up (hG : G.Lawful) (hload : env.Loads) {o : Option Decl} {c z : List Token}
    (h : ParserState.Abreast N₀ N env s env' s') (hs : Standing env s)
    (hroot : s.scope env = env.root) (hrun : decl env s = (.ok o, s₁))
    (hk : leadingKind s.rest = .keyword G.word)
    (hincluded : isExcluded s.session.platform c = false) (hclean : s₁.session.Clean)
    (hrest : s.rest = c ++ s₁.rest) (hlength : z.length ≤ s₁.rest.length)
    (hkinds : SameKinds s'.rest (withoutMembers s.session.platform c ++ z)) :
    ∃ N₁ o' s₁', N.Le N₁ ∧ decl env' s' = (.ok o', s₁') ∧
      Option.Rel (Decl.Alike (N₁.unbound False)) o o' ∧
      ParserState.Abreast N₀ N₁ env s₁ env' s₁' ∧ SameKinds s₁'.rest z := by
  have hheaded := decl_headed hrun hrest
  obtain ⟨x, items, s₂, hhead, hmembers, rfl⟩ := hG.decl_iff.1 ⟨hrun, hk⟩
  have hactive : x.1.2 = true := by
    obtain ⟨_, _, _, _, _, _, hheader, -⟩ := head_ok hhead
    rw [header_active hheader hrest hheaded] at hincluded
    simpa using hincluded
  rw [hactive] at hmembers
  obtain ⟨c₀, hc₀, hwords⟩ := head_tokens hhead
  obtain ⟨hopen, s₃, hloop, hclose, rfl⟩ := members_ok_iff.1 hmembers
  obtain ⟨pos, hcons⟩ := eq_cons_of_nextKind hopen (by decide)
  obtain ⟨pos', hcons'⟩ := eq_cons_of_nextKind hclose (by decide)
  have hstop : ∀ env s, (do
      let t ← peek
      return t.kind == .punct .braceClose || t.kind == .eof : Parser Bool) env s
        = (.ok (endsMembers (nextKind s.rest)), s) := fun _ _ => rfl
  obtain ⟨ms, hrounds⟩ := untilFuel_rounds hstop
    (fun items => (hG.step_whole x.2 true items).framed) _ [] items _ s₃
    (Nat.lt_succ_self _) hloop
  have hms : s₂.rest.tail = ms.flatten ++ s₃.rest := hrounds.rest
  have htokens : c = c₀ ++ ⟨.punct .braceOpen, pos⟩ ::
      (ms.flatten ++ [⟨.punct .braceClose, pos'⟩]) := by
    have hall : c ++ s₃.rest.tail = _ := hrest.symm
    rw [hc₀, hcons, hms, hcons', List.tail_cons] at hall
    refine (List.append_left_inj s₃.rest.tail).1 (hall.trans ?_)
    simp only [List.append_assoc, List.cons_append, List.nil_append]
  have hcut : hasMembers c = true := by
    rw [hrest, hheaded.leadingKind_append] at hk
    rw [hasMembers, hk]
    obtain hword | hword := hG.word_cut <;> rw [hword] <;> rfl
  rw [htokens] at hcut
  rw [htokens, withoutMembers_eq _ hcut hwords rfl hrounds.leads rfl, List.append_assoc,
    List.cons_append, List.append_assoc, List.singleton_append] at hkinds
  -- The start is read alike.
  have hshort : ((ms.map (memberRemains s.session.platform)).flatten ++
      ⟨.punct .braceClose, pos'⟩ :: z).length ≤ s₂.rest.tail.length := by
    have hleft := (flatten_map_sublist (memberRemains_leavesOut s.session.platform) ms).length_le
    have hlength : z.length ≤ s₃.rest.tail.length := hlength
    rw [hms, hcons', List.length_append, List.length_append, List.length_cons, List.length_cons]
    omega
  obtain ⟨N₁, x', s₂', hle₁, hhead', ⟨hheader, hon, hname⟩, h₁, hkinds₁⟩ :=
    G.head_framed.keep_up (G.head_agrees (Link.abreast N₀)) h hhead hc₀
      (by rw [hcons]; exact Nat.succ_le_succ hshort) (fun _ => by rw [hcons]; rfl) hkinds
  -- The members are read in a new scope.
  obtain ⟨N₂, hle₂, -, h₂⟩ := (Link.abreast N₀).enter .declaration (by decide)
    ((Link.abreast N₀).tokens s₂.rest.tail s₂'.rest.tail h₁)
  have hrun₂ := head_run hload hroot hhead
  have hs₂ := hrun₂.standing hload hs
  have hs₂' : Standing env { s₂ with rest := s₂.rest.tail } := ⟨hs₂.session, hs₂.root⟩
  obtain ⟨N₃, items', s₃', hle₃, hloop', h₃, hkinds₃⟩ := hrounds.keep_up
    (G := MembersAbreast G N₀ env env' s.session.platform)
    hstop (memberRemains_leavesOut s.session.platform)
    (fun items t items₁ t₁ _ hstep => by
      obtain ⟨_, _, hd⟩ := hG.step_declaring hload hstep
      exact hd.run.advances hload)
    (fun _ _ _ _ _ _ _ _ _ h _ _ => hG.member_keeps_up hload h)
    (s₂'.rest.tail.length + 1) N₂ [] _ (⟨.punct .braceClose, pos'⟩ :: z)
    ⟨.nil, h₂, hs₂'.enter _, (hrun₂.advances hload).platform⟩ rfl hclean
    (Nat.lt_succ_self _) (by rw [hcons']; exact Nat.succ_le_succ hlength) hclose.symm hkinds₁.tail
  -- The scope around the members is left again.
  have hitems : Passage True false anything ⟨false, 1⟩
      (untilClose .braceClose (members.step true (G.member x.2)) []) (some ⟨false, 1⟩) :=
    .untilClose fun items => hG.step_whole x.2 true items _ 1
  have hstack : ∀ {env : ParserEnv} (s₂ : ParserState) {s₃ : ParserState} {items : List α}, untilClose .braceClose
      (members.step true (G.member x.2)) [] env (s₂.enter env .declaration) = (.ok items, s₃) →
      s₃.session.stack.tail = s₂.session.stack := fun _ _ _ hloop =>
    congrArg List.tail ((hitems.apart trivial []).ran hloop).still.stack
  have hleft : (Link.abreast N₀).states N₃ env
      ({ s₃ with rest := s₃.rest.tail } : ParserState).leave env'
      ({ s₃' with rest := s₃'.rest.tail } : ParserState).leave := by
    refine (Link.abreast N₀).leave ((Link.abreast N₀).tokens _ _ h₃.states) ?_
    have hscope := (hle₂.trans hle₃).scope h₁.inStep.current
    rwa [ParserState.scope, ParserState.scope, ← hstack { s₂ with rest := s₂.rest.tail } hloop,
      ← hstack { s₂' with rest := s₂'.rest.tail } hloop'] at hscope
  have hmembers' : members x'.1.2 (G.member x'.2) env' s₂' = (.ok items',
      ({ s₃' with rest := s₃'.rest.tail } : ParserState).leave) := by
    rw [← hon, hactive, ← hname]
    exact members_ok_iff.2 ⟨hkinds₁.nextKind_eq, s₃', hloop', hkinds₃.nextKind_eq, rfl⟩
  refine ⟨N₃, _, _, (hle₁.trans hle₂).trans hle₃,
    (hG.decl_iff.2 ⟨x', items', s₂', hhead', hmembers', rfl⟩).1, ?_, hleft, hkinds₃.tail⟩
  rw [← hon, hactive, if_pos rfl, if_pos rfl, ← hname]
  exact .some (hG.make_alike x.2 (hheader.mono (hle₂.trans hle₃).unbound) h₃.items)

end Group

end Parser

end Scaffold.Source

namespace Scaffold.Source

namespace Parser

variable {N₀ N : Numbers} {env env' : ParserEnv} {s s₁ s' : ParserState} {c z : List Token}

/-! ## Imports -/

/-- The tokens of an import statement. -/
def importHead : Parser ((Header × Bool) × String) := do
  let hd ← header
  let _ ← expectKeyword .importKw
  let written ← quoted
  expectPunct .semicolon
  return (hd, written)

theorem importHead_framed {next : TokenKind → Prop} : Framed next {} importHead none :=
  .bind header_level.framed fun _ => .bind (.expect nofun (.plain (fun _ => rfl) _)) fun _ =>
    .bind quoted_level.framed fun _ => .andPure expectSemicolon_framed _

theorem importHead_agrees (K : Link) {w : K.World} : Agrees K env env' w importHead importHead
    fun w x x' => x.1.1.Alike (K.likeness w) x'.1.1 ∧ x.1.2 = x'.1.2 ∧ x.2 = x'.2 :=
  .bind (header_agrees K) fun _ _ _ _ hx => .expect fun _ _ _ => .quoted fun _ =>
    .expectPunct (.pure fun _ hle => ⟨hx.1.mono (K.likeness_le hle), hx.2, rfl⟩)

theorem importHead_declaring (hload : env.Loads) {x : (Header × Bool) × String}
    (h : importHead env s = (.ok x, s₁)) : Declaring env s [] [] s₁ := by
  obtain ⟨hd, s₂, h₂, h⟩ := bind_ok.1 h
  obtain ⟨_, s₃, h₃, h⟩ := bind_ok.1 h
  obtain ⟨written, s₄, h₄, h⟩ := bind_ok.1 h
  obtain ⟨_, s₅, h₅, h⟩ := bind_ok.1 h
  obtain ⟨-, rfl⟩ := pure_ok.1 h
  have hread := (((expectKeyword_scans _).reads h₃).trans (quoted_scans.reads h₄)).trans
    ((expectPunct_scans _).reads h₅)
  exact (header_declaring hload h₂).trans hload (.reads hread)

/-- An import statement is read, then the file that it means is found and loaded. -/
theorem decl_import_iff {o : Option Decl} :
    (decl env s = (.ok o, s₁) ∧ leadingKind s.rest = .keyword .importKw) ↔
      ∃ x s₂ f d session, importHead env s = (.ok x, s₂) ∧
        env.source.locate env.tree x.2 = some f ∧ env.load f s₂.session = (.ok d, session) ∧
        s₁ = s₂.addImport env d session ∧
        o = if x.1.2 then some (.importFile ⟨x.1.1, x.2, d.path⟩) else none := by
  constructor
  · rintro ⟨h, hk⟩
    obtain ⟨hd, d, s₂, hheader, hstep, rfl⟩ := decl_steps s s o s₁ rfl h
    have hword := hstep.nextKind.symm.trans ((header_leading hheader).trans hk)
    cases hstep with
    | importFile himport =>
      obtain ⟨_, s₃, h₃, hrest⟩ := bind_ok.1 himport
      obtain ⟨written, s₄, h₄, hrest⟩ := bind_ok.1 hrest
      obtain ⟨_, s₅, h₅, -⟩ := bind_ok.1 hrest
      have hhead : importHead env s = (.ok (hd, written), s₅) := bind_ok.2 ⟨hd, s₂, hheader,
        bind_ok.2 ⟨_, s₃, h₃, bind_ok.2 ⟨written, s₄, h₄, bind_ok.2 ⟨_, s₅, h₅, rfl⟩⟩⟩⟩
      cases hfile : env.source.locate env.tree written with
      | none =>
        have hmissing : importDecl hd.1 env s₂ = _ := importDecl_missing hd.1 env.load h₃ h₄ h₅ hfile
        rw [hmissing] at himport
        cases himport
      | some f =>
        have hrun : importDecl hd.1 env s₂ = _ := importDecl_run hd.1 env.load h₃ h₄ h₅ hfile
        rw [hrun, importing] at himport
        rcases hload : env.load f s₅.session with ⟨e | d, session⟩ <;> rw [hload] at himport <;>
          cases himport
        exact ⟨(hd, written), s₅, f, d, session, hhead, hfile, hload, rfl, rfl⟩
    | _ => cases hword
  · rintro ⟨x, s₂, f, d, session, h, hfile, hload, rfl, rfl⟩
    obtain ⟨hd, s₃, h₃, h⟩ := bind_ok.1 h
    obtain ⟨_, s₄, h₄, h⟩ := bind_ok.1 h
    obtain ⟨written, s₅, h₅, h⟩ := bind_ok.1 h
    obtain ⟨_, s₆, h₆, h⟩ := bind_ok.1 h
    obtain ⟨rfl, rfl⟩ := pure_ok.1 h
    have hrun : importDecl hd.1 env s₃ = _ := importDecl_run hd.1 env.load h₄ h₅ h₆ hfile
    rw [importing, hload] at hrun
    refine ⟨decl_of_step h₃ (.importFile hrun), ?_⟩
    rw [← header_leading h₃]
    exact (expect_ok h₄).1

/-- An import statement is read alike, and loads its file. -/
theorem import_keeps_up (hkeep : env.Loads) (hkeep' : env'.Loads)
    (hload : LoadsAbreast s.session.platform env.load env'.load)
    (hlocate : ∀ written, env'.source.locate env'.tree written
      = env.source.locate env.tree written) {o : Option Decl}
    (h : ParserState.Abreast N₀ N env s env' s') (hs : Standing env s)
    (hrun : decl env s = (.ok o, s₁)) (hk : leadingKind s.rest = .keyword .importKw)
    (hclean : s₁.session.Clean) (hrest : s.rest = c ++ s₁.rest) (hlength : z.length ≤ s₁.rest.length)
    (hkinds : SameKinds s'.rest (c ++ z)) :
    ∃ N₁ o' s₁', N.Le N₁ ∧ decl env' s' = (.ok o', s₁') ∧
      Option.Rel (Decl.Alike (N₁.unbound False)) o o' ∧
      ParserState.Abreast N₀ N₁ env s₁ env' s₁' ∧ SameKinds s₁'.rest z := by
  obtain ⟨x, s₂, f, d, session, hhead, hfile, hloaded, rfl, rfl⟩ := decl_import_iff.1 ⟨hrun, hk⟩
  obtain ⟨N₁, x', s₂', hle, hhead', ⟨hheader, hactive, hwritten⟩, habreast, hkinds₂⟩ :=
    importHead_framed.keep_up (importHead_agrees (Link.abreast N₀)) h hhead hrest hlength nofun hkinds
  have hran := (importHead_declaring hkeep hhead).run
  have hload₂ : LoadsAbreast s₂.session.platform env.load env'.load := by
    rwa [(hran.advances hkeep).platform]
  obtain ⟨N₂, d', session', hloaded', hle₂, hpath, habreast₂⟩ :=
    habreast.addImport hkeep hkeep' hload₂ (hran.standing hkeep hs).session hloaded hclean
  have hfile' : env'.source.locate env'.tree x'.2 = some f := by rw [hlocate, ← hwritten, hfile]
  refine ⟨N₂, _, _, hle.trans hle₂,
    (decl_import_iff.2 ⟨x', s₂', f, d', session', hhead', hfile', hloaded', rfl, rfl⟩).1, ?_, habreast₂,
    hkinds₂⟩
  rw [← hactive]
  split
  · exact .some (.importFile ⟨hheader.mono hle₂.unbound, hwritten, hpath⟩)
  · exact .none

/-! ## Declarations -/

section

variable (hkeep : env.Loads) (hkeep' : env'.Loads)
  (hload : LoadsAbreast s.session.platform env.load env'.load)
  (hlocate : ∀ written, env'.source.locate env'.tree written = env.source.locate env.tree written)
include hkeep hkeep' hload hlocate

/-- What is left of a declaration is read as the declaration is. Where nothing is left of it, it leaves
no name. -/
theorem remains_keep_up {o : Option Decl} (h : ParserState.Abreast N₀ N env s env' s')
    (hs : Standing env s) (hroot : s.scope env = env.root) (hrun : decl env s = (.ok o, s₁))
    (hclean : s₁.session.Clean) (hrest : s.rest = c ++ s₁.rest) (hlength : z.length ≤ s₁.rest.length)
    (hkinds : SameKinds s'.rest (remains false s.session.platform c ++ z)) :
    (remains false s.session.platform c = [] →
      o = none ∧ ParserState.Abreast N₀ N env s₁ env' s') ∧
    (remains false s.session.platform c ≠ [] → ∃ N₁ o' s₁', N.Le N₁ ∧
      decl env' s' = (.ok o', s₁') ∧ Option.Rel (Decl.Alike (N₁.unbound False)) o o' ∧
      ParserState.Abreast N₀ N₁ env s₁ env' s₁' ∧ SameKinds s₁'.rest z) := by
  have hheaded := decl_headed hrun hrest
  have hleading : leadingKind c = leadingKind s.rest := by rw [hrest, hheaded.leadingKind_append]
  have hc : c ≠ [] := by
    rintro rfl
    exact hheaded rfl
  by_cases hk : leadingKind s.rest = .keyword .importKw
  · rw [remains_of_import _ (hleading.trans hk)] at hkinds ⊢
    exact ⟨fun hnil => absurd hnil hc, fun _ => import_keeps_up hkeep hkeep' hload hlocate h hs hrun hk
      hclean hrest hlength hkinds⟩
  cases hexcluded : isExcluded s.session.platform c with
  | true =>
    rw [remains_of_excluded _ _ hexcluded (hleading ▸ hk)] at hkinds ⊢
    obtain ⟨hd, d, s₂, hheader, -, rfl⟩ := decl_steps s s o s₁ rfl hrun
    have hinactive : hd.2 = false := by
      rw [header_active hheader hrest hheaded] at hexcluded
      simpa using hexcluded
    rw [hinactive, if_neg Bool.false_ne_true] at hrun ⊢
    obtain ⟨us, hdeclaring⟩ := decl_aside hkeep hroot hrun hk
    exact ⟨fun _ => ⟨rfl, h.aside hkeep hs hdeclaring (decl_apart hrun hk).1 hclean⟩,
      fun hnone => absurd rfl hnone⟩
  | false =>
    rw [remains_of_included _ _ hexcluded] at hkinds ⊢
    refine ⟨fun hnil => absurd hnil (withoutMembers_ne_nil _ hc), fun _ => ?_⟩
    by_cases hmapper : leadingKind s.rest = .keyword .mapperKw
    · exact mapperGroup_lawful.keeps_up hkeep h hs hroot hrun hmapper hexcluded hclean hrest hlength hkinds
    by_cases hcontroller : leadingKind s.rest = .keyword .controllerKw
    · exact controllerGroup_lawful.keeps_up hkeep h hs hroot hrun hcontroller hexcluded hclean hrest
        hlength hkinds
    have hplain : hasMembers c = false := by
      rw [hasMembers, hleading, beq_eq_false_iff_ne.2 hmapper, beq_eq_false_iff_ne.2 hcontroller,
        Bool.or_self]
    rw [withoutMembers_of_plain _ hplain] at hkinds
    exact decl_keeps_up hlocate h hrun hk hrest hlength hkinds

end

/-! ## Files -/

/-- Two parsers are abreast between declarations, and have read declarations that are alike. -/
structure DeclsAbreast (N₀ : Numbers) (env env' : ParserEnv) (platform : Option Platform)
    (N : Numbers) (ds : List Decl) (s : ParserState) (ds' : List Decl) (s' : ParserState) : Prop where
  decls : List.Forall₂ (Decl.Alike (N.unbound False)) ds ds'
  states : ParserState.Abreast N₀ N env s env' s'
  standing : Standing env s
  platform : s.session.platform = platform

theorem declsStep_framed {next : TokenKind → Prop} (ds : List Decl) :
    Framed next {} (decls.step ds) none := by
  refine .passed ?_ (decl_framed.andPure _)
  refine .last (.advance ?_) fun _ => .pure ds
  rintro kind rfl
  exact ⟨nofun, .outside rfl⟩

/-- A semicolon is passed, or a declaration is read. -/
theorem declsStep_iff {ds ds₁ : List Decl} : decls.step ds env s = (.ok ds₁, s₁) ↔
    (nextKind s.rest = .punct .semicolon ∧ ds₁ = ds ∧ s₁ = { s with rest := s.rest.tail }) ∨
    (nextKind s.rest ≠ .punct .semicolon ∧ ∃ o, decl env s = (.ok o, s₁) ∧ ds₁ = ds ++ o.toList) := by
  have hskip := skipPunct_run .semicolon env s
  by_cases hkind : nextKind s.rest = .punct .semicolon
  · rw [if_pos hkind] at hskip
    rw [show decls.step ds env s = _ from bind_run hskip]
    refine ⟨fun h => ?_, ?_⟩
    · cases h
      exact .inl ⟨hkind, rfl, rfl⟩
    · rintro (⟨-, rfl, rfl⟩ | ⟨hnot, -⟩)
      · rfl
      · exact absurd hkind hnot
  · rw [if_neg hkind] at hskip
    rw [show decls.step ds env s = _ from bind_run hskip]
    refine ⟨fun h => ?_, ?_⟩
    · obtain ⟨o, s₂, ho, h⟩ := bind_ok.1 h
      obtain ⟨rfl, rfl⟩ := pure_ok.1 h
      exact .inr ⟨hkind, o, ho, rfl⟩
    · rintro (⟨hyes, -⟩ | ⟨-, o, ho, rfl⟩)
      · exact absurd hyes hkind
      · exact bind_ok.2 ⟨o, s₁, ho, rfl⟩

theorem declsStep_run (hload : env.Loads) {ds ds₁ : List Decl} (hroot : s.scope env = env.root)
    (h : decls.step ds env s = (.ok ds₁, s₁)) : Run env s s₁ := by
  obtain ⟨-, -, rfl⟩ | ⟨-, o, ho, -⟩ := declsStep_iff.1 h
  · exact .read (advance_scans.reads (a := ()) rfl)
  · exact decl_run hload hroot ho

section

variable (hkeep : env.Loads) (hkeep' : env'.Loads)
  (hlocate : ∀ written, env'.source.locate env'.tree written = env.source.locate env.tree written)
include hkeep hkeep' hlocate

/-- What is left of a round of the loop is read as the round is. -/
theorem declsStep_keeps_up {platform : Option Platform}
    (hload : LoadsAbreast platform env.load env'.load) {ds ds' ds₁ : List Decl}
    (h : DeclsAbreast N₀ env env' platform N ds s ds' s') (hroot : s.scope env = env.root)
    (hrun : decls.step ds env s = (.ok ds₁, s₁)) (hclean : s₁.session.Clean)
    (hrest : s.rest = c ++ s₁.rest) (hlength : z.length ≤ s₁.rest.length)
    (hkinds : SameKinds s'.rest (remains false platform c ++ z)) :
    (remains false platform c = [] → DeclsAbreast N₀ env env' platform N ds₁ s₁ ds' s') ∧
    (remains false platform c ≠ [] → ∃ N₁ ds₁' s₁', N.Le N₁ ∧
      decls.step ds' env' s' = (.ok ds₁', s₁') ∧
      DeclsAbreast N₀ env env' platform N₁ ds₁ s₁ ds₁' s₁' ∧ SameKinds s₁'.rest z) := by
  have hran := declsStep_run hkeep hroot hrun
  have hstanding := hran.standing hkeep h.standing
  have hplatform := (hran.advances hkeep).platform.trans h.platform
  obtain ⟨hkind, rfl, rfl⟩ | ⟨hkind, o, ho, rfl⟩ := declsStep_iff.1 hrun
  · obtain ⟨pos, hcons⟩ := eq_cons_of_nextKind hkind nofun
    obtain rfl : c = [⟨.punct .semicolon, pos⟩] :=
      (List.append_left_inj s.rest.tail).1 (hrest.symm.trans hcons)
    rw [remains_semicolon false platform rfl] at hkinds ⊢
    exact ⟨fun hnil => absurd hnil (List.cons_ne_nil _ _), fun _ => ⟨N, ds', _, .refl N,
      declsStep_iff.2 (.inl ⟨hkinds.nextKind_eq, rfl, rfl⟩), ⟨h.decls,
        (Link.abreast N₀).tokens _ _ h.states, hstanding, hplatform⟩, hkinds.tail⟩⟩
  · rw [← h.platform] at hkinds ⊢
    obtain ⟨haside, hread⟩ := remains_keep_up hkeep hkeep' (h.platform ▸ hload) hlocate h.states
      h.standing hroot ho hclean hrest hlength hkinds
    refine ⟨fun hnil => ?_, fun hnone => ?_⟩
    · obtain ⟨rfl, hstates⟩ := haside hnil
      rw [Option.toList_none, List.append_nil]
      exact ⟨h.decls, hstates, hstanding, hplatform.trans h.platform.symm⟩
    · obtain ⟨N₁, o', s₁', hle, ho', halike, hstates, hkinds₁⟩ := hread hnone
      have hkind' : nextKind s'.rest ≠ .punct .semicolon := by
        rwa [hkinds.nextKind_eq, (remains_leavesOut false _).nextKind hnone z s₁.rest, ← hrest]
      refine ⟨N₁, _, s₁', hle, declsStep_iff.2 (.inr ⟨hkind', o', ho', rfl⟩), ⟨?_, hstates, hstanding,
        hplatform.trans h.platform.symm⟩, hkinds₁⟩
      refine List.rel_append (h.decls.imp fun _ _ hd => hd.mono hle.unbound) ?_
      cases halike with
      | none => exact .nil
      | some hd => exact .cons hd .nil

def endsFile (kind : TokenKind) : Bool :=
  kind == .eof

/-- What is left of a file is read as the file is. -/
theorem decls_keep_up {ds : List Decl}
    (hload : LoadsAbreast s.session.platform env.load env'.load)
    (h : ParserState.Abreast N₀ N env s env' s')
    (hs : Standing env s) (hroot : s.scope env = env.root) (hrun : decls env s = (.ok ds, s₁))
    (hclean : s₁.session.Clean)
    (hkinds : SameKinds s'.rest (erasure false s.session.platform s.rest)) :
    ∃ N₁ ds' s₁', N.Le N₁ ∧ decls env' s' = (.ok ds', s₁') ∧
      List.Forall₂ (Decl.Alike (N₁.unbound False)) ds ds' ∧
      ParserState.Abreast N₀ N₁ env s₁ env' s₁' := by
  have hstop : ∀ env s, atEnd env s = (.ok (endsFile (nextKind s.rest)), s) := fun _ _ => rfl
  obtain ⟨cs, hrounds⟩ := untilFuel_rounds hstop (fun ds => declsStep_framed ds)
    _ [] ds s s₁ (Nat.lt_succ_self _) hrun
  have herasure : erasure false s.session.platform s.rest
      = (cs.map (remains false s.session.platform)).flatten
        ++ erasure false s.session.platform s₁.rest := by
    conv_lhs => rw [hrounds.rest]
    exact mapCuts_flatten hrounds.leads _
  have hend := beq_iff_eq.1 hrounds.ended
  rw [herasure] at hkinds
  obtain ⟨N₁, ds', s₁', hle, hrun', habreast, -⟩ := hrounds.keep_up
    (G := DeclsAbreast N₀ env env' s.session.platform) hstop
    (remains_leavesOut false s.session.platform)
    (fun _ _ _ _ hroot hstep => (declsStep_run hkeep hroot hstep).advances hkeep)
    (fun _ _ _ _ _ _ _ _ _ h hroot _ => declsStep_keeps_up hkeep hkeep' hlocate hload h hroot)
    (s'.rest.length + 1) N [] s' _ ⟨.nil, h, hs, rfl⟩ hroot hclean (Nat.lt_succ_self _)
    (erasure_sublist false _ s₁.rest).length_le ((nextKind_erasure_of_eof false _ hend).trans hend.symm)
    hkinds
  exact ⟨N₁, ds', s₁', hle, hrun', habreast.decls, habreast.states⟩

end

end Parser

end Scaffold.Source
