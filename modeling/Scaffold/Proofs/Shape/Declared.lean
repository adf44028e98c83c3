import Scaffold.Proofs.Compilation
import Scaffold.Proofs.Parser.Placement
import Scaffold.Proofs.Shape

/-!
# Where result shapes are declared

A shape is made up for a name that means nothing where the query stands; so it means nothing in the
file either, and the shape can be declared there. The second pass then finds it.

* `declareAll_free`: shapes with new names are all declared.
* `Binder.decls_returns`: the return type of a query is bound to what its name means.
* `parseDocument_shapes`: the shapes of a parsed file.
-/

namespace Scaffold

namespace SymbolTable

variable {t : SymbolTable}

/-- Declared names are found if no two are the same. -/
theorem Declares.lookup {bs : List (String × SymbolId)} {ds : List Declared} (h : t.Declares bs ds)
    (hnodup : (ds.map (·.name)).Nodup) {d : Declared} (hd : d ∈ ds) :
    ∃ id, bs.lookup d.name = some id ∧ t.Stands (d.name, id) d := by
  induction h with
  | nil => cases hd
  | @cons b d' bs ds hb _ ih =>
    obtain ⟨hnew, hnodup⟩ := List.nodup_cons.1 hnodup
    obtain ⟨name, id⟩ := b
    have hname : name = d'.name := hb.1
    subst hname
    obtain rfl | hd := List.mem_cons.1 hd
    · exact ⟨id, by simp, hb⟩
    · have hne : d.name ≠ d'.name := fun heq => hnew (List.mem_map.2 ⟨d, hd, heq⟩)
      obtain ⟨id', hlookup, hstands⟩ := ih hnodup hd
      exact ⟨id', by rw [List.lookup_cons, beq_false_of_ne hne]; exact hlookup, hstands⟩

end SymbolTable

/-- Lists related member by member have members at the same places. -/
theorem forall₂_getElem? {α β : Type} {R : α → β → Prop} {xs : List α} {ys : List β}
    (h : List.Forall₂ R xs ys) {i : Nat} {x : α} (hx : xs[i]? = some x) :
    ∃ y, ys[i]? = some y ∧ R x y := by
  induction h generalizing i with
  | nil => cases hx
  | cons hxy _ ih =>
    cases i with
    | zero =>
      cases hx
      exact ⟨_, rfl, hxy⟩
    | succ i => exact ih hx

namespace Source

/-! ## Binding return types -/

/-- The return type of a query is bound: if its name means a type, that is its target. -/
def ReturnBound (t : SymbolTable) (q q' : Query) : Prop :=
  ∀ r id symbol, q.returns.bind TypeRef.coreName? = some r → r.target = none →
    t.resolve r.scope r.name r.seq = some id → t.symbols[id]? = some symbol →
    symbol.kind.isType = true →
    q'.returns.bind TypeRef.coreName? = some { r with target := some id }

namespace Binder

variable (b : Binder)

/-- A name that means something of a kind its place accepts is bound. -/
theorem name_found {e : Expectation} {r : NameRef} {id : SymbolId} {symbol : Symbol}
    (hr : b.symbols.resolve r.scope r.name r.seq = some id)
    (hs : b.symbols.symbols[id]? = some symbol) (hk : e.accepts symbol.kind = true)
    (ds : Diagnostics) : (b.name e r).run ds = ({ r with target := some id }, ds) := by
  unfold Binder.name
  rw [hr]
  dsimp only
  rw [hs]
  dsimp only
  rw [if_pos hk]
  rfl

theorem type_found {r : NameRef} {id : SymbolId} {symbol : Symbol} (hnew : r.target = none)
    (hr : b.symbols.resolve r.scope r.name r.seq = some id)
    (hs : b.symbols.symbols[id]? = some symbol) (hk : symbol.kind.isType = true) :
    ∀ (ty : TypeRef) (ds : Diagnostics), ty.coreName? = some r →
      ((b.type ty).run ds).1.coreName? = some { r with target := some id }
  | .primitive _, _, h => nomatch h
  | .list item, ds, h => type_found hnew hr hs hk item ds h
  | .named r', ds, h => by
    cases h
    unfold Binder.type
    rw [hnew]
    show TypeRef.coreName? (.named ((b.name .type r).run ds).1) = _
    rw [b.name_found (e := .type) hr hs hk ds]
    rfl

theorem type?_found {r : NameRef} {id : SymbolId} {symbol : Symbol} (hnew : r.target = none)
    (hr : b.symbols.resolve r.scope r.name r.seq = some id)
    (hs : b.symbols.symbols[id]? = some symbol) (hk : symbol.kind.isType = true)
    (ty : Option TypeRef) (ds : Diagnostics) (h : ty.bind TypeRef.coreName? = some r) :
    ((b.type? ty).run ds).1.bind TypeRef.coreName? = some { r with target := some id } := by
  cases ty with
  | none => cases h
  | some ty => exact b.type_found hnew hr hs hk ty ds h

theorem queries_returns (mapper : String) : ∀ (qs : List Query) (ds : Diagnostics),
    List.Forall₂ (ReturnBound b.symbols) qs ((b.queries mapper qs).run ds).1
  | [], _ => .nil
  | q :: rest, ds => by
    refine .cons (fun r id symbol hcore hnew hr hs hk => ?_) (queries_returns mapper rest _)
    exact type?_found { b with context := s!"query {mapper}.{q.name}" } hnew hr hs hk q.returns _
      hcore

/-- Binding a declaration binds the return types of its queries. -/
theorem otherDecl_returns (d : Decl) (ds : Diagnostics) :
    List.Forall₂ (fun x y => y.1 = x.1 ∧ ReturnBound b.symbols x.2 y.2) d.queries
      ((b.otherDecl d).run ds).1.queries := by
  cases d with
  | mapper m =>
    show List.Forall₂ _ (m.queries.map (m.name, ·))
      (((b.queries m.name m.queries).run ds).1.map (m.name, ·))
    rw [List.forall₂_map_left_iff, List.forall₂_map_right_iff]
    exact (b.queries_returns m.name m.queries ds).imp fun q q' h => ⟨rfl, h⟩
  | _ => exact .nil

theorem decls_returns : ∀ (decls : List Decl) (ds : Diagnostics),
    List.Forall₂ (fun x y => y.1 = x.1 ∧ ReturnBound b.symbols x.2 y.2)
      (decls.flatMap Decl.queries) (((Binder.decls b.otherDecl decls).run ds).1.flatMap Decl.queries)
  | [], _ => .nil
  | d :: rest, ds => List.rel_append (b.otherDecl_returns d ds) (decls_returns rest _)

/-- The first pass leaves the queries as they are. -/
theorem decls_queries : ∀ (decls : List Decl) (ds : Diagnostics),
    ((Binder.decls b.dataDecl decls).run ds).1.flatMap Decl.queries = decls.flatMap Decl.queries
  | [], _ => rfl
  | d :: rest, ds => by
    have hd : ((b.dataDecl d).run ds).1.queries = d.queries := by
      cases d <;> rfl
    show ((b.dataDecl d).run ds).1.queries ++ _ = _
    rw [hd, List.flatMap_cons]
    exact congrArg (d.queries ++ ·) (decls_queries rest _)

end Binder

/-- The name of a return type is new and stands in the scope of its query. -/
theorem QueryIn.core {t : SymbolTable} {outer : ScopeId} {q : Query} {r : NameRef}
    (h : QueryIn t outer q) (hr : q.returns.bind TypeRef.coreName? = some r) :
    r.target = none ∧ r.scope = q.scope := by
  have hmem : ∀ ty : TypeRef, ty.coreName? = some r → ⟨.type, r⟩ ∈ ty.uses := by
    intro ty hty
    induction ty with
    | primitive p => cases hty
    | list item ih => exact ih hty
    | named r' =>
      cases hty
      exact List.mem_singleton.2 rfl
  obtain ⟨ty, hty, hcore⟩ := Option.bind_eq_some_iff.1 hr
  refine h.returns ⟨.type, r⟩ ?_
  rw [hty]
  exact hmem ty hcore

/-! ## Declaring shapes -/

namespace Shape

/-- The name of the shape means the shape in this scope. -/
def Known (t : SymbolTable) (scope : ScopeId) (shape : ResultShape) (id : SymbolId) : Prop :=
  t.lookup scope shape.name = some id ∧
    ∃ symbol, t.symbols[id]? = some symbol ∧ symbol.declared = ⟨shape.name, .shape, shape.id⟩

/-- Shapes whose names are new in the scope of the file are all declared there. -/
theorem declareAll_free {d : Document} : ∀ (shapes : List ResultShape) {s : Session},
    s.symbols.IsFile d.scope → (shapes.map (·.name)).Nodup →
    (∀ shape ∈ shapes, s.symbols.lookup d.scope shape.name = none) →
    List.Forall₂ (fun p shape => shape = { p with id := shape.id }) shapes
      (declareAll d shapes s).1
  | [], _, _, _, _ => .nil
  | shape :: rest, s, hfile, hnodup, hfree => by
    obtain ⟨hnew, hnodup⟩ := List.nodup_cons.1 hnodup
    obtain ⟨hshape, hrest⟩ := List.forall_mem_cons.1 hfree
    have hnext := hfile.grows ((declare_ok hfile shape).1.symbols 0)
    have hdeclare := declare_eq d s shape
    rw [hshape] at hdeclare
    rw [hdeclare] at hnext
    unfold declareAll
    rw [hdeclare]
    refine .cons rfl (declareAll_free rest hnext hnodup fun shape' hs => ?_)
    have hne : shape'.name ≠ shape.name := fun heq => hnew (List.mem_map.2 ⟨shape', hs, heq⟩)
    rw [SymbolTable.lookup_eq_names]
    refine (congrArg (List.lookup shape'.name)
      (SymbolTable.names_bind s.symbols (symbol d s shape) hfile.lt)).trans ?_
    rw [List.lookup_append, ← SymbolTable.lookup_eq_names, hrest shape' hs]
    simp [symbol, hne]

/-- Declared shapes with distinct names that are new are known. -/
theorem ShapesDeclared.known {d : Document} {s s' : Session} {shapes : List ResultShape}
    (h : ShapesDeclared d s shapes s') (hnodup : (shapes.map (·.name)).Nodup) {shape : ResultShape}
    (hs : shape ∈ shapes) (hfree : s.symbols.lookup d.scope shape.name = none) :
    ∃ id, Known s'.symbols d.scope shape id := by
  obtain ⟨bs, hnames, hdeclares⟩ := h.names
  have hnodup' : ((shapes.map fun shape => (⟨shape.name, .shape, shape.id⟩ : Declared)).map
      (·.name)).Nodup := by
    rwa [List.map_map]
  obtain ⟨id, hlookup, -, hsymbol⟩ := hdeclares.lookup hnodup' (List.mem_map_of_mem hs)
  refine ⟨id, ?_, hsymbol⟩
  rw [SymbolTable.lookup_eq_names, hnames, List.lookup_append, ← SymbolTable.lookup_eq_names, hfree]
  exact hlookup

end Shape

/-! ## The shapes of a file -/

/-- What the shapes of a document are made from: its domains and tables are bound. -/
def shapeEnv (d : Document) (s : Session) : Shape.Env :=
  ⟨{ d with decls := (firstPass d s).1 }, s.imports, s.symbols⟩

namespace Shape

/-- A field of the shape stands for each entry of the select list of its query, and all that is not
known of them is reported; but a star that fits no table leaves no trace. -/
structure MadeFrom (env : Env) (mq : String × Query) (shape : ResultShape) (ws : Diagnostics) :
    Prop where
  nodup : (shape.columns.map (·.name)).Nodup
  unlisted : Sql.selectList? mq.2.sql = none → shape.columns = []
  listed : ∀ list, Sql.selectList? mq.2.sql = some list →
    Accounts env mq.1 mq.2 (readTables env mq.2 list) list.columns shape.columns ws
  silent : ∀ list, Sql.selectList? mq.2.sql = some list → ∀ qualifier,
    (∀ s ∈ readTables env mq.2 list, s.fits qualifier = false) →
    ∀ d, addColumn env mq.1 mq.2 (readTables env mq.2 list) d (.star qualifier) = d

theorem madeFrom_ofQuery (env : Env) (mq : String × Query) {r : NameRef} {shape : ResultShape}
    (hshape : shape = { ofQuery env mq r with id := shape.id }) {ws : Diagnostics}
    (hws : ∀ w ∈ (columns env mq.1 mq.2).warnings, w ∈ ws) : MadeFrom env mq shape ws := by
  have hcolumns : shape.columns = (columns env mq.1 mq.2).fields := congrArg (·.columns) hshape
  refine ⟨?_, fun hnone => ?_, fun list hlist => ?_, fun list _ qualifier => addColumn_silent⟩
  · rw [hcolumns]
    exact columns_nodup env mq.1 mq.2
  · rw [hcolumns, columns_of_none env mq.1 hnone]
  · rw [hcolumns]
    exact (columns_accounts env mq.1 hlist).mono hws

/-- The document has the shapes that its queries ask for. -/
structure Synthesized (env : Env) (d : Document) (s : Session) : Prop where
  /-- No shape clashes with a declaration or with another shape. -/
  declared : List.Forall₂ (fun p shape => shape = { p with id := shape.id } ∧
    ∃ id, Known s.symbols d.scope shape id) (pending env).shapes d.shapes
  nodup : (d.shapes.map (·.name)).Nodup
  /-- Every shape is that of a query that asks for one. -/
  made : ∀ shape ∈ d.shapes, ∃ mq ∈ env.document.queries, ∃ r, Undeclared env mq.2 r ∧
    shape = { ofQuery env mq r with id := shape.id } ∧ MadeFrom env mq shape s.diagnostics
  /-- Every query that asks for a shape returns its own, or that of an earlier query. -/
  bound : ∀ (i : Nat) (mq : String × Query) (r : NameRef), env.document.queries[i]? = some mq →
    Undeclared env mq.2 r → ∃ shape ∈ d.shapes, ∃ id q', Known s.symbols d.scope shape id ∧
      shape.name = r.name ∧ d.queries[i]? = some (mq.1, q') ∧
      q'.returns.bind TypeRef.coreName? = some { r with target := some id } ∧
      ∃ j ≤ i, ∃ mq₀ r₀, env.document.queries[j]? = some mq₀ ∧ Undeclared env mq₀.2 r₀ ∧
        shape = { ofQuery env mq₀ r₀ with id := shape.id }

/-- Shapes are declared under the names they ask for. -/
theorem names_of_declared {ps shapes : List ResultShape}
    (h : List.Forall₂ (fun p shape => shape = { p with id := shape.id }) ps shapes) :
    shapes.map (·.name) = ps.map (·.name) := by
  induction h with
  | nil => rfl
  | cons hp _ ih =>
    rw [List.map_cons, List.map_cons, ih, hp]

theorem Known.closeChildren {t : SymbolTable} {scope : ScopeId} {shape : ResultShape} {id : SymbolId}
    (h : Known t scope shape id) (file : FileId) : Known (t.closeChildren file) scope shape id := by
  refine ⟨?_, h.2⟩
  rw [SymbolTable.lookup_eq_names, SymbolTable.names_closeChildren, ← SymbolTable.lookup_eq_names]
  exact h.1

section

variable {env : Env} {root : ScopeId} {q : Query} {r : NameRef} (h : Undeclared env q r)
  (hplaced : QueryPlaced root env.symbols q) (hfile : env.symbols.IsFile root)
include h hplaced hfile

/-- A name that means nothing in a query is new in its file and in the scopes between. -/
theorem Undeclared.lookup : env.symbols.lookup root r.name = none ∧
    ∃ mapper, env.symbols.Within root mapper ∧ QueryIn env.symbols mapper q ∧
      env.symbols.lookup mapper r.name = none ∧ env.symbols.lookup q.scope r.name = none := by
  obtain ⟨mapper, hmapper, hquery⟩ := hplaced
  obtain ⟨outside, heq⟩ := hquery.scope.exists_resolve hmapper hfile r.name q.seq
  rw [h.unresolved] at heq
  obtain ⟨hscope, hrest⟩ := Option.or_eq_none_iff.1 heq.symm
  obtain ⟨hmembers, hrest⟩ := Option.or_eq_none_iff.1 hrest
  exact ⟨(Option.or_eq_none_iff.1 hrest).1, mapper, hmapper, hquery, hmembers, hscope⟩

/-- Once the name is declared in the file, the return type of the query means it. -/
theorem Undeclared.resolve {t : SymbolTable} (hg : env.symbols.Grows (· = root) 0 t) {id : SymbolId}
    (hid : t.lookup root r.name = some id) :
    r.target = none ∧ t.resolve r.scope r.name r.seq = some id := by
  obtain ⟨-, mapper, hmapper, hquery, hmembers, hscope⟩ := h.lookup hplaced hfile
  obtain ⟨htarget, hr⟩ := hquery.core h.returns
  refine ⟨htarget, ?_⟩
  obtain ⟨outside, heq⟩ := (hquery.scope.grows hg).exists_resolve (hmapper.grows hg)
    (hfile.grows hg) r.name r.seq
  rw [hr, heq, hquery.scope.lookup_eq (Nat.le_of_lt hmapper.1) hg, hscope,
    hmapper.lookup_eq (Nat.le_refl root) hg, hmembers, hid]
  rfl

end

end Shape

section

variable {d d' : Document} {s s' : Session}

open Shape

/-- If all names are new, the shapes that are asked for are declared, and all warnings are given. -/
theorem shaped_free (hfile : s.symbols.IsFile d.scope) (hshapes : d.shapes = [])
    (hfree : ∀ p ∈ (pending (shapeEnv d s)).shapes, s.symbols.lookup d.scope p.name = none) :
    List.Forall₂ (fun p shape => shape = { p with id := shape.id } ∧
        ∃ id, Known (shaped d s).2.symbols d.scope shape id)
      (pending (shapeEnv d s)).shapes (shaped d s).1.shapes ∧
    s.symbols.Grows (· = d.scope) 0 (shaped d s).2.symbols ∧
    ∀ w ∈ (pending (shapeEnv d s)).warnings, w ∈ (shaped d s).2.diagnostics := by
  have hnodup := (pending_gathered (shapeEnv d s)).nodup
  obtain ⟨shapes, s₁, hdeclare⟩ : ∃ shapes s₁, declareAll (shapeEnv d s).document
      (pending (shapeEnv d s)).shapes { s with
        diagnostics := (firstPass d s).2 ++ (pending (shapeEnv d s)).warnings } = (shapes, s₁) :=
    ⟨_, _, rfl⟩
  have hshaped :
      shaped d s = ({ (shapeEnv d s).document with shapes := d.shapes ++ shapes }, s₁) := by
    refine Eq.trans ?_ (congrArg (fun r : List ResultShape × Session =>
      ({ (shapeEnv d s).document with shapes := d.shapes ++ r.1 }, r.2)) hdeclare)
    rfl
  obtain ⟨hdeclared, -⟩ := declareAll_ok (d := (shapeEnv d s).document)
    (pending (shapeEnv d s)).shapes (s := { s with
      diagnostics := (firstPass d s).2 ++ (pending (shapeEnv d s)).warnings }) hfile
  have hall := declareAll_free (d := (shapeEnv d s).document) (pending (shapeEnv d s)).shapes
    (s := { s with diagnostics := (firstPass d s).2 ++ (pending (shapeEnv d s)).warnings }) hfile
    hnodup hfree
  rw [hdeclare] at hdeclared hall
  rw [hshaped]
  dsimp only at hdeclared hall ⊢
  rw [hshapes, List.nil_append]
  refine ⟨?_, hdeclared.symbols 0, fun w hw => ?_⟩
  · have hknown : ∀ shape ∈ shapes, ∃ id, Known s₁.symbols d.scope shape id := by
      intro shape hs
      obtain ⟨p, hp, hshape⟩ := forall₂_mem_right hall hs
      refine hdeclared.known ?_ hs ?_
      · rw [names_of_declared hall]
        exact hnodup
      · rw [hshape]
        exact hfree p hp
    exact ((List.forall₂_and_left _ _).2 ⟨hknown, hall.flip⟩).flip.imp fun _ _ h => ⟨h.2, h.1⟩
  · rw [hdeclared.diagnostics]
    exact List.mem_append_right _ hw

/-- Completing a document whose queries stand in mappers gives it the shapes they ask for. -/
theorem complete_synthesized (hfile : s.symbols.IsFile d.scope)
    (hplaced : ∀ x ∈ d.decls, x.Placed d.scope s.symbols) (hshapes : d.shapes = [])
    (h : complete d s = (d', s')) : Synthesized (shapeEnv d s) d' s' := by
  -- The first pass leaves the queries alone, so they are placed in the names that shapes see.
  have hqueries : (shapeEnv d s).document.queries = d.queries :=
    Binder.decls_queries ⟨s.symbols, d.path, ""⟩ d.decls s.diagnostics
  have hplaced' : ∀ mq ∈ (shapeEnv d s).document.queries, QueryPlaced d.scope s.symbols mq.2 := by
    intro mq hmq
    rw [hqueries] at hmq
    obtain ⟨x, hx, hmq⟩ := List.mem_flatMap.1 hmq
    cases x with
    | mapper m =>
      obtain ⟨q, hq, rfl⟩ := List.mem_map.1 hmq
      exact hplaced _ hx q hq
    | _ => cases hmq
  have hgathered := pending_gathered (shapeEnv d s)
  obtain ⟨hdeclared, hg, hws⟩ := shaped_free hfile hshapes fun p hp => by
    obtain ⟨mq, hmq, r, hr, rfl, -⟩ := hgathered.made p hp
    exact (hr.lookup (hplaced' mq hmq) hfile).1
  -- The second pass looks names up among the declared shapes too.
  have hreturns : List.Forall₂ (fun x y => y.1 = x.1 ∧ ReturnBound (shaped d s).2.symbols x.2 y.2)
      (shapeEnv d s).document.queries ((secondPass d s).1.flatMap Decl.queries) :=
    Binder.decls_returns ⟨(shaped d s).2.symbols, d.path, ""⟩ (firstPass d s).1 _
  obtain ⟨⟨more, hmore⟩, -⟩ := secondPass_ends (d := d) (s := s)
  have hdiagnostics : ∀ w ∈ (shaped d s).2.diagnostics, w ∈ (secondPass d s).2 := by
    intro w hw
    rw [hmore]
    exact List.mem_append_left _ hw
  rw [complete_eq] at h
  cases h
  refine ⟨?_, ?_, fun shape hs => ?_, fun i mq r hi hr => ?_⟩
  · refine hdeclared.imp fun p shape ⟨hshape, id, hid⟩ => ⟨hshape, id, hid.closeChildren _⟩
  · have hnames := names_of_declared (hdeclared.imp fun _ _ h => h.1)
    exact hnames ▸ hgathered.nodup
  · obtain ⟨p, hp, hshape, -⟩ := forall₂_mem_right hdeclared hs
    obtain ⟨mq, hmq, r, hr, rfl, hwarned⟩ := hgathered.made p hp
    exact ⟨mq, hmq, r, hr, hshape, madeFrom_ofQuery _ mq hshape fun w hw =>
      hdiagnostics w (hws w (hwarned w hw))⟩
  · obtain ⟨j, hj, mq₀, r₀, hget, hr₀, hname, hp⟩ := hgathered.served i mq r hi hr
    obtain ⟨shape, hs, hshape, id, hid⟩ := forall₂_mem_right hdeclared.flip hp
    have hsame : shape.name = r.name := (congrArg (·.name) hshape).trans hname
    obtain ⟨y, hy, hmapper, hbound⟩ := forall₂_getElem? hreturns hi
    obtain ⟨symbol, hsymbol, hsays⟩ := hid.2
    obtain ⟨htarget, hresolve⟩ := hr.resolve (hplaced' mq (List.mem_of_getElem? hi)) hfile hg
      (hsame ▸ hid.1)
    have hkind : symbol.kind = .shape := congrArg (·.kind) hsays
    refine ⟨shape, hs, id, y.2, hid.closeChildren _, hsame, ?_,
      hbound r id symbol hr.returns htarget hresolve hsymbol (by rw [hkind]; rfl),
      j, hj, mq₀, r₀, hget, hr₀, hshape⟩
    rw [← hmapper]
    exact hy

end

section

variable {tree : FileTree} {depth : Nat} {text : String} {f : SourceFile} {s s' : Session}
  {d : Document}

/-- A parsed file has the shapes that its queries ask for. Each accounts for a select list, entry by
entry; only a star that fits no table leaves no trace. No shape clashes with a declaration, and the
return type of every query that asks for one is bound to its own or to that of an earlier query. -/
theorem parseDocument_shapes (h : parseDocument tree (loadFile tree depth) text f s = (.ok d, s')) :
    ∃ tokens ds final, tokenize text = .ok tokens ∧
      Parser.decls (fileEnv tree (loadFile tree depth) f s) (fileStart tokens f s)
        = (.ok ds, final) ∧
      complete (parsedDocument f s final ds) (fileEnd final) = (d, s') ∧
      Shape.Synthesized (shapeEnv (parsedDocument f s final ds) (fileEnd final)) d s' := by
  obtain ⟨tokens, ds, final, htokens, hdecls, hcomplete⟩ := parseDocument_decls h
  refine ⟨tokens, ds, final, htokens, hdecls, hcomplete, ?_⟩
  have hload : (fileEnv tree (loadFile tree depth) f s).Loads := loadFile_keeps depth
  have hfile : (fileTable f s.symbols).IsFile s.symbols.scopes.size :=
    ⟨_, scopes_fileTable f s.symbols, rfl⟩
  have hat : (fileStart tokens f s).At (fileEnv tree (loadFile tree depth) f s)
      s.symbols.scopes.size := ⟨rfl, hfile.lt⟩
  obtain ⟨ha, hplaced⟩ := Parser.decls_placed hload hat _ ds final ⟨.of_reads (.refl _), nofun⟩ hdecls
  exact complete_synthesized (hfile.grows ha.symbols) hplaced rfl hcomplete

theorem parseDocument_shapes_query :
    let text := "table t \x7b id int; name text; key(id); \x7d
mapper M \x7b query a() R \x7b select t.*, nope from t \x7d
query b() list<R> \x7b select id from t \x7d \x7d"
    let f : SourceFile := { path := ⟨"main.jssp"⟩ }
    ∃ d s', parseDocument {} (loadFile {} 0) text f {} = (.ok d, s') ∧
      d.shapes.map (fun shape => (shape.name, shape.query, shape.columns.map (·.name)))
        = [("R", "a", ["id", "name", "nope"])] ∧
      ∃ tokens ds final, tokenize text = .ok tokens ∧
        Parser.decls (fileEnv {} (loadFile {} 0) f {}) (fileStart tokens f {}) = (.ok ds, final) ∧
        complete (parsedDocument f {} final ds) (fileEnd final) = (d, s') ∧
        Shape.Synthesized (shapeEnv (parsedDocument f {} final ds) (fileEnd final)) d s' := by
  intro text f
  have hshapes : (parseDocument {} (loadFile {} 0) text f {}).1.toOption.map
      (·.shapes.map fun shape => (shape.name, shape.query, shape.columns.map (·.name)))
        = some [("R", "a", ["id", "name", "nope"])] := by
    set_option maxRecDepth 1000 in
    rw [parseDocument_eq_parseTokens, show tokenize text = _ from tokenize_of_hasChars rfl]
    decide +kernel
  rcases hparse : parseDocument {} (loadFile {} 0) text f {} with ⟨e | d, s'⟩
  · rw [hparse] at hshapes
    cases hshapes
  · rw [hparse] at hshapes
    exact ⟨d, s', rfl, Option.some.inj hshapes, parseDocument_shapes hparse⟩

/-- The star of `x` is in the select list, but neither in the shape nor in a warning. -/
theorem not_heard_star :
    let r := parseDocument {} (loadFile {} 0) "table t \x7b id int; key(id); \x7d
mapper M \x7b query q() R \x7b select x.*, id from t; \x7d \x7d" { path := ⟨"main.jssp"⟩ } {}
    r.1.toOption.map (·.queries.map fun mq => Sql.selectList? mq.2.sql)
        = some [some ⟨[.star (some "x"), .column none "id" none], [⟨"t", none⟩]⟩] ∧
      r.1.toOption.map (·.shapes.map (·.columns.map (·.name))) = some [["id"]] ∧
      r.2.diagnostics.isEmpty = true := by
  rw [parseDocument_eq_parseTokens, tokenize_of_hasChars rfl]
  decide +kernel

end

end Source

end Scaffold
