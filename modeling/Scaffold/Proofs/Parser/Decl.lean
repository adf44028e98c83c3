import Scaffold.Proofs.Parser.Function

/-!
# How declarations are parsed

Every declaration but an import binds its name in the scope of the file and leaves the rest of that
scope alone.

* `*_scans`: the parts of declarations that only read.
* `decl_parsed`: what a declaration declares, the names in it, and how its bodies will be read.
-/

namespace Scaffold.Source

namespace Parser

variable {env : ParserEnv} {s s' : ParserState}

/-! ## Parts of declarations -/

theorem columnFuel_scans : ∀ (fuel : Nat) (c : Column),
    Scans env c.type.uses (columnFuel fuel c) fun c => c.type.uses
  | 0, _ => expected_scans _
  | fuel + 1, c => by
    have ih := columnFuel_scans fuel
    refine (skipPunct_scans _).skip fun _ => ?_
    split
    · exact .pure fun _ => id
    refine (isIdent_scans _).skip fun _ => ?_
    split
    · exact .skip advance_scans fun _ => ih { c with auto := true }
    refine (isKeyword_scans _).skip fun _ => ?_
    split
    · exact .skip advance_scans fun _ => ih { c with nullable := true }
    refine (isIdent_scans _).skip fun _ => ?_
    split
    · exact .skip advance_scans fun _ => (expectKeyword_scans _).skip fun _ =>
        ih { c with nullable := false }
    refine (isIdent_scans _).skip fun _ => ?_
    split
    · exact .skip advance_scans fun _ => .skip literal_scans fun value =>
        ih { c with default := some value }
    · exact expected_scans _

theorem column_scans : Scans env [] column fun c => c.type.uses :=
  .skip ident_scans fun name => .bind typeRef_scans fun type => .skip remaining_scans fun _ =>
    columnFuel_scans _ ⟨name.1, type, false, false, none, name.2⟩

theorem forIn_scans {α : Type} {f : α → PUnit → Parser (ForInStep PUnit)}
    (hf : ∀ a u, Scans env [] (f a u) fun _ => []) :
    ∀ (xs : List α) (u : PUnit), Scans env [] (forIn xs u f) fun _ => []
  | [], _ => .pure (by simp)
  | x :: xs, u => by
    rw [List.forIn_cons]
    refine (hf x u).skip fun r => ?_
    cases r with
    | done u => exact .pure (by simp)
    | yield u => exact forIn_scans hf xs u

def TableBody.uses (b : TableBody) : List Use :=
  b.columns.flatMap (·.type.uses)

theorem keyItem_scans (table : String) (b : TableBody) :
    Scans env b.uses (keyItem table b) TableBody.uses := by
  refine .skip peek_scans fun _ => .skip advance_scans fun _ => .skip nameList_scans fun names => ?_
  refine (forIn_scans (fun name u => ?_) names _).skip fun _ => ?_
  · split
    · exact (invalid_scans _ _ _).skip fun _ => .pure (by simp)
    · exact .pure (by simp)
  · exact (expectPunct_scans _).skip fun _ => .pure fun _ => id

theorem indexItem_scans (table : String) (b : TableBody) :
    Scans env b.uses (indexItem table b) TableBody.uses := by
  refine (isIdent_scans _).skip fun _ => .skip peek_scans fun _ => .skip advance_scans fun _ =>
    .skip ident_scans fun _ => .skip nameList_scans fun columns => ?_
  refine (forIn_scans (fun name u => ?_) columns _).skip fun _ => ?_
  · split
    · exact (invalid_scans _ _ _).skip fun _ => .pure (by simp)
    · exact .pure (by simp)
  · exact (expectPunct_scans _).skip fun _ => .pure fun _ => id

theorem columnItem_scans (table : String) (b : TableBody) :
    Scans env b.uses (columnItem table b) TableBody.uses := by
  refine .bind column_scans fun c => ?_
  split
  · exact (invalid_scans _ _ _).skip fun _ => .pure fun _ => List.mem_append_left _
  · exact .pure (by simp [TableBody.uses])

theorem tableItem_scans (table : String) (b : TableBody) :
    Scans env b.uses (tableItem table b) TableBody.uses := by
  refine (peekKind_scans _).skip fun second => (peekKind_scans _).skip fun third => ?_
  extract_lets secondIsName
  refine (isIdent_scans _).skip fun _ => ?_
  split
  · exact keyItem_scans table b
  · refine (isIdent_scans _).skip fun _ => (isIdent_scans _).skip fun _ => ?_
    split
    · exact indexItem_scans table b
    · exact columnItem_scans table b

theorem fields_scans (owner : String) : Scans env [] (fields owner) Field.usesAll := by
  refine (expectPunct_scans _).skip fun _ => ?_
  refine (untilClose_scans .braceClose (U := Field.usesAll) (fun fs => ?_) []).andThen fun fs =>
    (expectPunct_scans _).skip fun _ => .pure fun _ => id
  refine .skip ident_scans fun _ => .bind typeRef_scans fun type => (expectPunct_scans _).skip fun _ => ?_
  split
  · exact (invalid_scans _ _ _).skip fun _ => .pure fun _ => List.mem_append_left _
  · exact .pure (by simp [Field.usesAll])

/-- The names of the members of a client. -/
theorem apiStep_scans (ms : List ApiMember) :
    Scans env (ms.map fun m => ⟨.controller, m.controller⟩) (apiDecl.step ms)
      fun ms => ms.map fun m => ⟨.controller, m.controller⟩ := by
  refine .skip ident_scans fun _ => ?_
  dsimp -zeta only
  extract_lets withHandler
  have hwith : ∀ handler, Scans env (ms.map fun m => ⟨.controller, m.controller⟩)
      (withHandler handler) fun ms => ms.map fun m => ⟨.controller, m.controller⟩ := fun handler =>
    (expectPunct_scans _).skip fun _ => (nameRef_scans .controller _ _).bind fun r =>
      .pure (by simp)
  refine (skipPunct_scans _).skip fun _ => ?_
  split
  · exact .skip ident_scans fun name => hwith (some name.1)
  · exact hwith none

mutual

theorem attachComponent_scans (pos : Position) : ∀ node : MarkupNode,
    Scans env [] (attachComponent pos node) nodeUses
  | .element tag attrs _ children => by
    rw [attachComponent]
    have hwith : ∀ component : Option NameRef, Scans env (component.map (⟨.page, ·⟩)).toList
        (do return .element tag attrs component (← attachComponents pos children))
        nodeUses := fun component =>
      (attachComponents_scans pos children).bind fun _ => .pure (by simp [nodeUses])
    split
    · exact (nameRef_scans .page _ _).bind fun r => hwith (some r)
    · exact hwith none
  | .text s => by
    rw [attachComponent]
    · exact .pure (by simp [nodeUses])
    · intro tag attrs component children h
      cases h
  | .interpolation source => by
    rw [attachComponent]
    · exact .pure (by simp [nodeUses])
    · intro tag attrs component children h
      cases h

theorem attachComponents_scans (pos : Position) : ∀ nodes : List MarkupNode,
    Scans env [] (attachComponents pos nodes) markupUses
  | [] => by
    rw [attachComponents]
    exact .pure (by simp [markupUses])
  | node :: rest => by
    rw [attachComponents]
    exact (attachComponent_scans pos node).bind fun _ => (attachComponents_scans pos rest).bind
      fun _ => .pure (by simp [markupUses])

end

end Parser

/-! ## Declarations -/

namespace Triple

variable {α β : Type} {env : ParserEnv} {Q : α → ParserState → Prop} {s₀ : ParserState}
  {ds : List Declared} {us : List Use} (hload : env.Loads)
include hload

/-- The names that a parser reads come up in the declaration. -/
theorem scan {p : Parser β} {k : β → Parser α} {U : β → List Use} (hp : Scans env [] p U)
    (hk : ∀ b, Triple env (Declaring env s₀ ds (us ++ U b)) (k b) Q) :
    Triple env (Declaring env s₀ ds us) (p >>= k) Q :=
  .read hp (fun _ _ _ h hr => by simpa using h.trans hload (.reads hr)) hk

/-- A parser that finds no names adds nothing to the declaration. -/
theorem pass {p : Parser β} {k : β → Parser α} (hp : Scans env [] p fun _ => [])
    (hk : ∀ b, Triple env (Declaring env s₀ ds us) (k b) Q) :
    Triple env (Declaring env s₀ ds us) (p >>= k) Q :=
  scan hload hp fun b => by
    rw [List.append_nil]
    exact hk b

/-- The name of a declaration is bound as soon as it is read. -/
theorem declare {name : String} {kind : SymbolKind} {pos : Position} {node : NodeId} {active : Bool}
    {k : Unit → Parser α} (hkind : kind.isType = true → s₀.scope env = env.root)
    (hk : ∀ u, Triple env (Declaring env s₀ (Declared.when active ⟨name, kind, node⟩) us) (k u) Q) :
    Triple env (Declaring env s₀ [] us) (Parser.declare name kind pos node active >>= k) Q := by
  refine .bind (fun s u s' h hd => ?_) hk
  have hscope := (h.run.advances hload).scope
  simpa using h.trans hload (.declare (fun hty => hscope.trans (hkind hty)) hd)

end Triple

/-- Between the two states a declaration was parsed. -/
structure DeclParsed (env : ParserEnv) (s : ParserState) (active : Bool) (d : Decl)
    (s' : ParserState) : Prop where
  declaring : Declaring env s (if active then d.declared?.toList else []) d.uses s'
  level : d.isData = true → ∀ u ∈ d.uses, u.ref.scope = s.scope env
  bodies : s'.session.Clean → Standing env s → ∀ x ∈ d.bodies, FuncRead env.root s.seq s' x.1 x.2

/-- A declaration without bodies. -/
theorem DeclParsed.plain {env : ParserEnv} {s s' : ParserState} {active : Bool} {d : Decl}
    (hd : d.bodies = []) (hlevel : d.isData = true → ∀ u ∈ d.uses, u.ref.scope = s.scope env)
    (h : Declaring env s (if active then d.declared?.toList else []) d.uses s') :
    DeclParsed env s active d s' := by
  refine ⟨h, hlevel, fun _ _ x hx => ?_⟩
  rw [hd] at hx
  cases hx

namespace Parser

section

variable {env : ParserEnv} {s s' : ParserState} (hload : env.Loads)
  (hroot : s.scope env = env.root) {hd : Header} {active : Bool}
include hload hroot

/-- What a declaration reads after its name stands in the same scope. -/
theorem reads_level {k : Keyword} {kind : SymbolKind} {p pos : Position} {name : String} {u : Unit}
    {s₁ s₂ s₃ s₄ s₅ : ParserState} {us : List Use} (hs : Declaring env s [] [] s₁)
    (h₁ : expectKeyword k env s₁ = (.ok p, s₂)) (h₂ : ident env s₂ = (.ok (name, pos), s₃))
    (h₃ : declare name kind pos hd.id active env s₃ = (.ok u, s₄)) (hr : Reads env s₄ us s₅) :
    ∀ u ∈ us, u.ref.scope = s.scope env := by
  intro u hu
  obtain ⟨-, hscope, -⟩ := hr.uses u hu
  have ha := hs.run.advances hload
  have hname := named_declaring hload (fun _ => ha.scope.trans hroot) h₁ h₂ h₃
  exact hscope.trans ((hname.run.advances hload).scope.trans ha.scope)

theorem domainDecl_parsed : Triple env (Declaring env s [] []) (domainDecl hd active)
    fun d => DeclParsed env s active (.domain d) := by
  intro s₁ d s₂ hs h
  have hdeclaring : Triple env (Declaring env s [] []) (domainDecl hd active) fun d =>
      Declaring env s (if active then (Decl.domain d).declared?.toList else []) (Decl.domain d).uses :=
    .pass hload (expectKeyword_scans _) fun _ => .pass hload ident_scans fun _ =>
      .declare hload (fun _ => hroot) fun _ => .scan hload typeRef_scans fun _ =>
      .pass hload (expectPunct_scans _) fun _ => .pure fun _ h => h
  refine .plain rfl (fun _ => ?_) (hdeclaring s₁ d s₂ hs h)
  obtain ⟨_, s₃, h₃, h⟩ := bind_ok.1 h
  obtain ⟨_, s₄, h₄, h⟩ := bind_ok.1 h
  obtain ⟨_, s₅, h₅, h⟩ := bind_ok.1 h
  obtain ⟨type, s₆, h₆, h⟩ := bind_ok.1 h
  obtain ⟨_, s₇, h₇, h⟩ := bind_ok.1 h
  obtain ⟨rfl, rfl⟩ := pure_ok.1 h
  exact reads_level hload hroot hs h₃ h₄ h₅ (typeRef_scans.reads h₆)

theorem tableDecl_parsed : Triple env (Declaring env s [] []) (tableDecl hd active)
    fun t => DeclParsed env s active (.table t) := by
  intro s₁ t s₂ hs h
  have hdeclaring : Triple env (Declaring env s [] []) (tableDecl hd active) fun t =>
      Declaring env s (if active then (Decl.table t).declared?.toList else []) (Decl.table t).uses := by
    unfold tableDecl
    refine .pass hload (expectKeyword_scans _) fun _ => .pass hload ident_scans fun _ =>
      .declare hload (fun _ => hroot) fun _ => .pass hload (expectPunct_scans _) fun _ => ?_
    refine .scan hload (untilClose_scans .braceClose (tableItem_scans _) {}) fun b =>
      .pass hload (expectPunct_scans _) fun _ => ?_
    extract_lets done
    split
    · exact .pass hload (invalid_scans _ _ _) fun _ => .pure fun _ h => h
    · exact .pure fun _ h => h
  refine .plain rfl (fun _ => ?_) (hdeclaring s₁ t s₂ hs h)
  obtain ⟨_, s₃, h₃, h⟩ := bind_ok.1 h
  obtain ⟨⟨name, pos⟩, s₄, h₄, h⟩ := bind_ok.1 h
  obtain ⟨_, s₅, h₅, h⟩ := bind_ok.1 h
  obtain ⟨_, s₆, h₆, h⟩ := bind_ok.1 h
  obtain ⟨b, s₇, h₇, h⟩ := bind_ok.1 h
  obtain ⟨_, s₈, h₈, h⟩ := bind_ok.1 h
  have hread := ((expectPunct_scans _).reads h₆).trans
    ((untilClose_scans .braceClose (tableItem_scans name) {}).reads h₇)
  have hlevel := reads_level hload hroot hs h₃ h₄ h₅ hread
  split at h
  · obtain ⟨_, s₉, h₉, h⟩ := bind_ok.1 h
    obtain ⟨rfl, rfl⟩ := pure_ok.1 h
    exact hlevel
  · obtain ⟨rfl, rfl⟩ := pure_ok.1 h
    exact hlevel

theorem entityDecl_parsed : Triple env (Declaring env s [] []) (entityDecl hd active)
    fun e => DeclParsed env s active (.entity e) := by
  unfold entityDecl
  refine .pass hload (expectKeyword_scans _) fun _ => .pass hload ident_scans fun name =>
    .declare hload (fun _ => hroot) fun _ => .pass hload (skipPunct_scans _) fun _ => ?_
  extract_lets withTable
  have hwith : ∀ table : Option NameRef, Triple env (Declaring env s
      (Declared.when active ⟨name.1, .entity, hd.id⟩) (table.map (⟨.table, ·⟩)).toList)
      (withTable table) fun e => DeclParsed env s active (.entity e) := by
    intro table
    refine .pass hload (isPunct_scans _) fun _ => ?_
    split
    · exact .scan hload (fields_scans _) fun _ => .pure fun _ h => .plain rfl nofun h
    · refine .pass hload (expectPunct_scans _) fun _ => .pure fun _ h => .plain rfl nofun (h.mono ?_)
      simp [Decl.uses, Field.usesAll]
  split
  · exact .pass hload ident_scans fun _ => .scan hload (nameRef_scans .table _ _) fun r =>
      hwith (some r)
  · exact hwith none

theorem recordDecl_parsed : Triple env (Declaring env s [] []) (recordDecl hd active)
    fun r => DeclParsed env s active (.record r) :=
  .pass hload (expectKeyword_scans _) fun _ => .pass hload ident_scans fun _ =>
    .declare hload (fun _ => hroot) fun _ => .scan hload (fields_scans _) fun _ =>
    .pure fun _ h => .plain rfl nofun h

theorem apiDecl_parsed : Triple env (Declaring env s [] []) (apiDecl hd active)
    fun a => DeclParsed env s active (.api a) :=
  .pass hload (expectKeyword_scans _) fun _ => .pass hload ident_scans fun _ =>
    .declare hload (fun _ => hroot) fun _ => .pass hload (expectPunct_scans _) fun _ =>
    .scan hload (untilClose_scans .braceClose apiStep_scans []) fun _ =>
    .pass hload (expectPunct_scans _) fun _ => .pure fun _ h => .plain rfl nofun h

theorem pageDecl_parsed : Triple env (Declaring env s [] []) (pageDecl hd active)
    fun p => DeclParsed env s active (.page p) := by
  unfold pageDecl
  refine .pass hload (expectKeyword_scans _) fun _ => .pass hload ident_scans fun name =>
    .declare hload (fun _ => hroot) fun _ => .pass hload (skipPunct_scans _) fun _ => ?_
  extract_lets withParent
  have hparent : ∀ parent : Option NameRef, Triple env (Declaring env s
      (Declared.when active ⟨name.1, .page, hd.id⟩) (parent.map (⟨.page, ·⟩)).toList)
      (withParent parent) fun p => DeclParsed env s active (.page p) := by
    intro parent
    dsimp -zeta only [withParent]
    extract_lets withLayout
    have hlayout : ∀ layout : Option NameRef, Triple env (Declaring env s
        (Declared.when active ⟨name.1, .page, hd.id⟩)
        ((parent.map (⟨.page, ·⟩)).toList ++ (layout.map (⟨.page, ·⟩)).toList))
        (withLayout layout) fun p => DeclParsed env s active (.page p) := by
      intro layout
      refine .pass hload peek_scans fun t => ?_
      split
      · refine .pass hload advance_scans fun _ => ?_
        extract_lets withMarkup
        have hmarkup : ∀ nodes, Triple env (Declaring env s
            (Declared.when active ⟨name.1, .page, hd.id⟩)
            ((parent.map (⟨.page, ·⟩)).toList ++ (layout.map (⟨.page, ·⟩)).toList))
            (withMarkup nodes) fun p => DeclParsed env s active (.page p) := fun nodes =>
          .scan hload (attachComponents_scans _ _) fun _ => .pure fun _ h => .plain rfl nofun h
        split
        · exact hmarkup _
        · exact .pass hload (invalid_scans _ _ _) fun _ => hmarkup []
      · intro s₁ p s₂ _ h
        cases h
    split
    · exact .scan hload (nameRef_scans .page _ _) fun r => hlayout (some r)
    · have hnone := hlayout none
      rw [Option.map, Option.toList, List.append_nil] at hnone
      exact hnone
  split
  · exact .pass hload ident_scans fun _ => .scan hload (nameRef_scans .page _ _) fun r =>
      hparent (some r)
  · exact hparent none

theorem propertyDecl_parsed : Triple env (Declaring env s [] []) (propertyDecl hd active)
    fun p => DeclParsed env s active (.property p) := by
  unfold propertyDecl
  refine .pass hload (expectKeyword_scans _) fun _ => .pass hload ident_scans fun name =>
    .declare hload (fun _ => hroot) fun _ => .scan hload typeRef_scans fun type =>
    .pass hload (skipPunct_scans _) fun _ => ?_
  extract_lets withValue
  have hwith : ∀ value : Option Expr, Triple env (Declaring env s
      (Declared.when active ⟨name.1, .property, hd.id⟩) (type.uses ++ value.elim [] Expr.uses))
      (withValue value) fun p => DeclParsed env s active (.property p) := fun value =>
    .pass hload (expectPunct_scans _) fun _ => .pure fun _ h => .plain rfl nofun h
  split
  · exact .scan hload expr_scans fun value => hwith (some value)
  · have hnone := hwith none
    rw [Option.elim, List.append_nil] at hnone
    exact hnone

theorem mapperDecl_parsed : Triple env (Declaring env s [] []) (mapperDecl hd active)
    fun m => DeclParsed env s active (.mapper m) := by
  unfold mapperDecl
  refine .pass hload (expectKeyword_scans _) fun _ => .pass hload ident_scans fun name =>
    .declare hload (fun _ => hroot) fun _ => ?_
  refine .bind (M := fun qs => Declaring env s (Declared.when active ⟨name.1, .mapper, hd.id⟩)
    (qs.flatMap Query.uses)) (fun s₁ qs s₂ hs h => ?_) fun _ => .pure fun _ h => .plain rfl nofun h
  let Read (s₀ : ParserState) (qs : List Query) (s : ParserState) : Prop :=
    ∃ ds, Declaring env s₀ ds (qs.flatMap Query.uses) s
  have hstill : ∀ {s₀ qs s s'}, Read s₀ qs s → Declaring env s [] [] s' → Read s₀ qs s' := by
    rintro s₀ qs s s' ⟨ds, hj⟩ hd
    exact ⟨ds, by simpa using hj.trans hload hd⟩
  have hquery : ∀ {s₀ qs s hd a q s'}, Read s₀ qs s → queryDecl hd a env s = (.ok q, s') →
      Read s₀ (if a then qs ++ [q] else qs) s' := by
    rintro s₀ qs s hd a q s' ⟨ds, hj⟩ hq
    refine ⟨_, (hj.trans hload (queryDecl_declaring hload hq)).mono fun u hu => ?_⟩
    cases a with
    | false => exact List.mem_append_left _ hu
    | true => simpa using hu
  obtain ⟨s₃, s₄, hread, ⟨ds, hin⟩, rfl⟩ := members_ok hload (J := Read)
    (fun s₀ => ⟨[], .reads (.refl s₀)⟩) hstill hquery h
  simpa using hs.trans hload ((Declaring.reads hread).trans hload (hin.inside hload (by decide)))

theorem controllerDecl_parsed : Triple env (Declaring env s [] []) (controllerDecl hd active)
    fun c => DeclParsed env s active (.controller c) := by
  unfold controllerDecl
  refine .pass hload (expectKeyword_scans _) fun _ => .pass hload ident_scans fun name =>
    .declare hload (fun _ => hroot) fun _ => ?_
  intro s₁ c s₂ hs h
  obtain ⟨fs, s₃, h₃, h⟩ := bind_ok.1 h
  obtain ⟨rfl, rfl⟩ := pure_ok.1 h
  have hhandler : ∀ {s₀ fs s hd a f s'}, HandlersRead env s₀ fs s →
      (do
        let f ← funcDecl hd a .handler
        if a then checkHandler name.1 f
        return f : Parser Func) env s = (.ok f, s') →
      HandlersRead env s₀ (if a then fs ++ [f] else fs) s' := by
    intro s₀ fs s hd a f s' hj h
    obtain ⟨g, s₄, h₄, h⟩ := bind_ok.1 h
    have hg := hj.handler hload h₄
    split at h
    · obtain ⟨_, s₅, h₅, h⟩ := bind_ok.1 h
      obtain ⟨rfl, rfl⟩ := pure_ok.1 h
      exact hg.still hload (.reads ((checkHandler_scans _ _).reads h₅))
    · obtain ⟨rfl, rfl⟩ := pure_ok.1 h
      exact hg
  obtain ⟨s₄, s₅, hread, hin, rfl⟩ := members_ok hload (J := HandlersRead env)
    (fun s₀ => ⟨.reads (.refl s₀), fun _ _ _ hf => absurd hf List.not_mem_nil⟩)
    (fun hj hd => HandlersRead.still hload hj hd) hhandler h₃
  have hbefore := hs.trans hload (.reads hread)
  have hall := hbefore.trans hload (hin.declaring.inside hload (by decide))
  rw [List.append_nil, List.append_nil] at hall
  refine ⟨hall, nofun, fun hclean hs x hx => ?_⟩
  obtain ⟨f, hf, rfl⟩ := List.mem_map.1 hx
  have ha := hbefore.run.advances hload
  have hread := hin.leave hload hclean (hbefore.run.standing hload hs) f hf
  rw [ha.scope, hroot] at hread
  exact hread.early ha.seq

theorem topFunc_parsed : Triple env (Declaring env s [] []) (funcDecl hd active .func)
    fun f => DeclParsed env s active (.func f) := by
  intro s₁ f s₂ hs h
  obtain ⟨rfl, hdecl, hread⟩ := funcDecl_parsed hload rfl h
  have ha := hs.run.advances hload
  refine ⟨hs.trans hload hdecl, nofun, fun hclean hs' x hx => ?_⟩
  have hfunc := hread hclean (hs.run.standing hload hs')
  rw [ha.scope, hroot] at hfunc
  rw [List.mem_singleton.1 hx]
  exact hfunc.early ha.seq

end

/-! ## Imports -/

variable {env : ParserEnv} {s s' : ParserState}

/-- An import loads its file and makes it visible from here on. -/
theorem importDecl_ok {hd : Header} {i : Import} (h : importDecl hd env s = (.ok i, s')) :
    ∃ s₁ f d session, Reads env s [] s₁ ∧ env.load f s₁.session = (.ok d, session) ∧
      s' = s₁.addImport env d session := by
  obtain ⟨_, s₁, h₁, h⟩ := bind_ok.1 h
  obtain ⟨written, s₂, h₂, h⟩ := bind_ok.1 h
  obtain ⟨_, s₃, h₃, h⟩ := bind_ok.1 h
  have hread := (((expectKeyword_scans _).reads h₁).trans (quoted_scans.reads h₂)).trans
    ((expectPunct_scans _).reads h₃)
  obtain ⟨seq, s₄, h₄, h⟩ := bind_ok.1 h
  cases h₄
  obtain ⟨e, s₅, h₅, h⟩ := bind_ok.1 h
  cases h₅
  cases hfile : env.source.locate env.tree written with
  | none =>
    rw [hfile] at h
    cases h
  | some f =>
    rw [hfile] at h
    obtain ⟨r, s₆, h₆, h⟩ := bind_ok.1 h
    cases hload : env.load f s₃.session with
    | mk loaded session =>
      have hsession : Parser.session (env.load f) env { s₃ with seq := s₃.seq + 1 }
          = (.ok (env.load f s₃.session).1,
            { s₃ with seq := s₃.seq + 1, session := (env.load f s₃.session).2 }) := rfl
      rw [hload] at hsession
      rw [hsession] at h₆
      cases h₆
      cases loaded with
      | error e => cases h
      | ok d =>
        cases h
        exact ⟨s₃, f, d, session, hread, hload, rfl⟩

/-- Between the two states an import was parsed. -/
def ImportParsed (env : ParserEnv) (s s' : ParserState) : Prop :=
  ∃ s₁ f d session, Declaring env s [] [] s₁ ∧ env.load f s₁.session = (.ok d, session) ∧
    s' = s₁.addImport env d session

/-- Between the two states a declaration of a file was parsed: it declares what it stands for, unless
it is for other platforms; an import loads its file even then. -/
def DeclEnd (env : ParserEnv) (s : ParserState) (o : Option Decl) (s' : ParserState) : Prop :=
  (∃ (active : Bool) (d : Decl), o = (if active then some d else none) ∧
    DeclParsed env s active d s') ∨
  (∃ (active : Bool) (i : Import), o = (if active then some (.importFile i) else none) ∧
    ImportParsed env s s')

theorem decl_ends (hload : env.Loads) (hroot : s.scope env = env.root) :
    Triple env (Declaring env s [] []) decl (DeclEnd env s) := by
  unfold decl
  refine .bind (M := fun _ => Declaring env s [] []) (fun s₁ hd s₂ hs h => ?_) fun hd => ?_
  · exact hs.trans hload (header_declaring hload h)
  dsimp -zeta only
  refine .pass hload peek_scans fun t => ?_
  extract_lets done
  have hdone : ∀ d, Triple env (DeclParsed env s hd.2 d) (done d) (DeclEnd env s) := fun d =>
    .pure fun _ h => .inl ⟨hd.2, d, rfl, h⟩
  split
  · refine .bind (M := fun _ => ImportParsed env s) (fun s₁ i s₂ hs h => ?_) fun i =>
      .pure fun _ h => .inr ⟨hd.2, i, rfl, h⟩
    obtain ⟨s₃, f, d, session, hread, hfile, rfl⟩ := importDecl_ok h
    exact ⟨s₃, f, d, session, hs.trans hload (.reads hread), hfile, rfl⟩
  · exact .bind (domainDecl_parsed hload hroot) fun d => hdone (.domain d)
  · exact .bind (tableDecl_parsed hload hroot) fun t => hdone (.table t)
  · exact .bind (entityDecl_parsed hload hroot) fun e => hdone (.entity e)
  · exact .bind (recordDecl_parsed hload hroot) fun r => hdone (.record r)
  · exact .bind (mapperDecl_parsed hload hroot) fun m => hdone (.mapper m)
  · exact .bind (controllerDecl_parsed hload hroot) fun c => hdone (.controller c)
  · exact .bind (apiDecl_parsed hload hroot) fun a => hdone (.api a)
  · exact .bind (pageDecl_parsed hload hroot) fun p => hdone (.page p)
  · exact .bind (propertyDecl_parsed hload hroot) fun p => hdone (.property p)
  · exact .bind (topFunc_parsed hload hroot) fun f => hdone (.func f)
  · intro s₁ o s₂ _ h
    cases h

/-! ## Kinds of declarations -/

/-- Between the two states a declaration of one of the kinds was parsed, after its header. -/
inductive DeclStep (env : ParserEnv) (hd : Header) (active : Bool) (s s' : ParserState) :
    Decl → Prop where
  | importFile {d : Import} : importDecl hd env s = (.ok d, s') →
    DeclStep env hd active s s' (.importFile d)
  | domain {d : Domain} : domainDecl hd active env s = (.ok d, s') →
    DeclStep env hd active s s' (.domain d)
  | table {d : Table} : tableDecl hd active env s = (.ok d, s') →
    DeclStep env hd active s s' (.table d)
  | entity {d : Entity} : entityDecl hd active env s = (.ok d, s') →
    DeclStep env hd active s s' (.entity d)
  | record {d : Record} : recordDecl hd active env s = (.ok d, s') →
    DeclStep env hd active s s' (.record d)
  | mapper {d : Mapper} : mapperDecl hd active env s = (.ok d, s') →
    DeclStep env hd active s s' (.mapper d)
  | controller {d : Controller} : controllerDecl hd active env s = (.ok d, s') →
    DeclStep env hd active s s' (.controller d)
  | api {d : Api} : apiDecl hd active env s = (.ok d, s') →
    DeclStep env hd active s s' (.api d)
  | page {d : Page} : pageDecl hd active env s = (.ok d, s') →
    DeclStep env hd active s s' (.page d)
  | property {d : Property} : propertyDecl hd active env s = (.ok d, s') →
    DeclStep env hd active s s' (.property d)
  | func {d : Func} : funcDecl hd active .func env s = (.ok d, s') →
    DeclStep env hd active s s' (.func d)

/-- A declaration is a header and then one of the kinds; it counts if it takes part. -/
theorem decl_steps (s₀ : ParserState) : Triple env (· = s₀) decl fun o s => ∃ hd d s₁,
    header env s₀ = (.ok hd, s₁) ∧ DeclStep env hd.1 hd.2 s₁ s d ∧
      o = if hd.2 then some d else none := by
  unfold decl
  refine .bind (M := fun hd s => header env s₀ = (.ok hd, s)) (fun s hd s' heq h => heq ▸ h)
    fun hd => ?_
  dsimp -zeta only
  refine .bind (M := fun _ s => header env s₀ = (.ok hd, s)) (fun s t s' hheader h => ?_) fun t => ?_
  · cases h
    exact hheader
  extract_lets done
  have hkind : ∀ {α : Type} {p : Parser α} {make : α → Decl},
      (∀ {s a s'}, p env s = (.ok a, s') → DeclStep env hd.1 hd.2 s s' (make a)) →
      Triple env (fun s => header env s₀ = (.ok hd, s)) (p >>= fun a => done (make a)) fun o s =>
        ∃ hd d s₁, header env s₀ = (.ok hd, s₁) ∧ DeclStep env hd.1 hd.2 s₁ s d ∧
          o = if hd.2 then some d else none := by
    intro α p make hstep s o s' hheader h
    obtain ⟨a, s₁, ha, h⟩ := bind_ok.1 h
    obtain ⟨rfl, rfl⟩ := pure_ok.1 h
    exact ⟨hd, make a, s, hheader, hstep ha, rfl⟩
  split
  · exact hkind .importFile
  · exact hkind .domain
  · exact hkind .table
  · exact hkind .entity
  · exact hkind .record
  · exact hkind .mapper
  · exact hkind .controller
  · exact hkind .api
  · exact hkind .page
  · exact hkind .property
  · exact hkind .func
  · intro s o s' _ h
    cases h

/-- A declaration does what parsers do. -/
theorem decl_run (hload : env.Loads) {o : Option Decl} (hroot : s.scope env = env.root)
    (h : decl env s = (.ok o, s')) : Run env s s' := by
  obtain ⟨active, d, -, hd⟩ | ⟨active, i, -, s₁, f, d, session, hd, hfile, rfl⟩ :=
    decl_ends hload hroot s o s' (.reads (.refl s)) h
  · exact hd.declaring.run
  · exact hd.run.trans (.load hfile ((hd.run.advances hload).scope.trans hroot))

/-- A declaration leaves the scopes around it open and takes nothing back. -/
theorem decl_advances (hload : env.Loads) {o : Option Decl} (hroot : s.scope env = env.root)
    (h : decl env s = (.ok o, s')) : Advances env s s' :=
  (decl_run hload hroot h).advances hload

/-- Between the two states declarations were parsed, and this is true of each of them. -/
structure DeclsRead (env : ParserEnv) (P : Decl → ParserState → Prop) (s₀ : ParserState)
    (ds : List Decl) (s : ParserState) : Prop where
  advances : Advances env s₀ s
  each : ∀ d ∈ ds, P d s

/-- What each kind of declaration brings about, and what stays true afterwards, is true of all
declarations of a file. -/
theorem decls_read (hload : env.Loads) {P : Decl → ParserState → Prop} {s₀ : ParserState}
    (hroot : s₀.scope env = env.root) (hlater : ∀ d s s', P d s → Advances env s s' → P d s')
    (hstep : ∀ (hd : Header × Bool) (s s' : ParserState) (d : Decl), Advances env s₀ s →
      DeclStep env hd.1 hd.2 s s' d → P d s') :
    Triple env (DeclsRead env P s₀ []) decls (DeclsRead env P s₀) := by
  have hstill : ∀ ds s s', DeclsRead env P s₀ ds s → Reads env s [] s' → DeclsRead env P s₀ ds s' :=
    fun ds s s' h hr =>
      ⟨h.advances.trans (.of_reads hr), fun d hd => hlater d s s' (h.each d hd) (.of_reads hr)⟩
  refine .read remaining_scans (fun _ => hstill []) fun n => ?_
  refine .untilFuel (J := DeclsRead env P s₀) atEnd_scans hstill (fun ds => ?_) _ []
  refine .read (skipPunct_scans _) (fun _ => hstill ds) fun skipped => ?_
  split
  · exact .pure fun _ => id
  · intro s ds' s' hds h
    obtain ⟨o, s₁, h₁, h⟩ := bind_ok.1 h
    obtain ⟨rfl, rfl⟩ := pure_ok.1 h
    have ha := decl_advances hload (hds.advances.scope.trans hroot) h₁
    refine ⟨hds.advances.trans ha, List.forall_mem_append.2
      ⟨fun d hd => hlater d s s₁ (hds.each d hd) ha, fun d hd => ?_⟩⟩
    obtain ⟨header, d', s₂, hheader, hd', rfl⟩ := decl_steps s s o s₁ rfl h₁
    have hbefore := hds.advances.trans ((header_declaring hload hheader).run.advances hload)
    split at hd
    · rw [List.mem_singleton.1 hd]
      exact hstep header s₂ s₁ d' hbefore hd'
    · cases hd

/-- The declarations of a file leave the scopes around them open and take nothing back. -/
theorem decls_advances (hload : env.Loads) {ds : List Decl} (hroot : s.scope env = env.root)
    (h : decls env s = (.ok ds, s')) : Advances env s s' := by
  have hread := decls_read hload (P := fun _ _ => True) hroot (fun _ _ _ _ _ => trivial)
    (fun _ _ _ _ _ _ => trivial)
  have hstart : DeclsRead env (fun _ _ => True) s [] s := ⟨.of_reads (.refl s), nofun⟩
  exact (hread s ds s' hstart h).advances

end Parser

end Scaffold.Source
