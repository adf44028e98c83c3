import Scaffold.Compiler
import Scaffold.Proofs.Binding

/-!
# What completing a document does

Completing binds the names of a document in two passes, and between them makes up the result shapes,
whose columns are copies of table columns that are bound already.

* `Resolved t u`: the name has a symbol of its own name, of a kind its place accepts.
* `Shape.pending_copied`: the names in the columns of shapes come from tables.
* `ShapesDeclared`: shapes are numbered and declared in the scope of the file, and nothing else
  changes.
* `complete_ok`: what completing does and leaves alone, as `Completes`.
* `Completes.declares`, `Completes.resolved`: without errors the document declares what it declared
  before and its shapes, and every name in it is resolved.
-/

namespace Scaffold.Source

/-- The name is bound to a symbol of this name whose kind its place accepts. -/
def Resolved (t : SymbolTable) (u : Use) : Prop :=
  ∃ id symbol, u.ref.target = some id ∧ t.symbols[id]? = some symbol ∧
    symbol.name = u.ref.name ∧ u.expects.accepts symbol.kind = true

section

variable {t t' : SymbolTable} {live : ScopeId → Prop} {q : Nat}

theorem Resolved.grows {u : Use} (h : Resolved t u) (hg : t.Grows live q t') : Resolved t' u := by
  obtain ⟨id, symbol, ht, hs, hrest⟩ := h
  exact ⟨id, symbol, ht, hg.symbols hs, hrest⟩

theorem Binds.resolved {u u' : Use} (h : Binds t u u') : Resolved t u' := by
  obtain ⟨hexp, id, symbol, -, hs, hname, hk, href⟩ := h
  refine ⟨id, symbol, ?_, hs, ?_, ?_⟩
  · rw [href]
  · rw [href]
    exact hname
  · rw [hexp]
    exact hk

theorem Bound.resolved {us us' : List Use} (h : Bound t us us') (hwf : t.WellFormed)
    (hfresh : Fresh us) : ∀ u ∈ us', Resolved t u := by
  intro u hu
  obtain ⟨u₀, -, hb⟩ := forall₂_mem_right (h hwf hfresh) hu
  exact hb.resolved

end

/-! ## Result shapes -/

namespace Shape

theorem table?_of_decls {d : Document} {id : NodeId} {table : Table} (h : d.table? id = some table) :
    .table table ∈ d.decls := by
  unfold Document.table? at h
  obtain ⟨decl, hdecl, heq⟩ := List.exists_of_findSome?_eq_some h
  split at heq
  · split at heq
    · cases heq
      exact hdecl
    · cases heq
  · cases heq

/-- The name stands in a column of a table of these declarations, or of a finished document. -/
def FromTable (decls : List Decl) (imports : ImportTable) (u : Use) : Prop :=
  (∃ table, .table table ∈ decls ∧ u ∈ (Decl.table table).uses) ∨
    ∃ p d, imports.get? p = some d ∧ u ∈ d.uses

/-- The names in the fields were copied from tables. -/
def FieldsCopied (env : Env) (fs : List Field) : Prop :=
  ∀ u ∈ Field.usesAll fs, FromTable env.document.decls env.imports u

/-- The names in the columns of a table are names of its document. -/
theorem table_uses {d : Document} {table : Table} (h : .table table ∈ d.decls) {u : Use}
    (hu : u ∈ (Decl.table table).uses) : u ∈ d.uses :=
  List.mem_append_left _ (List.mem_flatMap.2 ⟨_, h, hu⟩)

section

variable {env : Env}

/-- A table that a query reads is declared in the document or in a finished one. -/
theorem table?_copied {q : Query} {name : String} {table : Table}
    (h : table? env q name = some table) {u : Use} (hu : u ∈ (Decl.table table).uses) :
    FromTable env.document.decls env.imports u := by
  unfold table? at h
  obtain ⟨id, -, h⟩ := Option.bind_eq_some_iff.1 h
  obtain ⟨symbol, -, h⟩ := Option.bind_eq_some_iff.1 h
  split at h
  · cases h
  · split at h
    · exact .inl ⟨table, table?_of_decls h, hu⟩
    · obtain ⟨d, hd, h⟩ := Option.bind_eq_some_iff.1 h
      exact .inr ⟨_, d, hd, table_uses (table?_of_decls h) hu⟩

theorem Draft.add_copied {d : Draft} (h : FieldsCopied env d.fields) (name : String)
    {type : TypeRef} (htype : ∀ u ∈ type.uses, FromTable env.document.decls env.imports u)
    (pos : Position) : FieldsCopied env (d.add name type pos).fields := by
  unfold Draft.add
  split
  · exact h
  · intro u hu
    simp only [Field.usesAll, List.flatMap_append, List.mem_append, List.flatMap_singleton] at hu
    obtain hu | hu := hu
    · exact h u hu
    · exact htype u hu

theorem primitive_copied (p : Primitive) :
    ∀ u ∈ (TypeRef.primitive p).uses, FromTable env.document.decls env.imports u :=
  fun _ hu => nomatch hu

/-- Every field is copied from a table column, or of a primitive type. -/
theorem addColumn_copied {sources : List ReadTable}
    (hsources : ∀ s ∈ sources, ∀ table, s.2 = some table → ∀ u ∈ (Decl.table table).uses,
      FromTable env.document.decls env.imports u) (mapper : String)
    (q : Query) {d : Draft} (h : FieldsCopied env d.fields) (c : Sql.SelectColumn) :
    FieldsCopied env (addColumn env mapper q sources d c).fields := by
  cases c with
  | star qualifier =>
    refine List.foldlRecOn (motive := fun d : Draft => FieldsCopied env d.fields) _ _ h
      fun d hd s hs => ?_
    split
    · rename_i table htable
      refine List.foldlRecOn (motive := fun d : Draft => FieldsCopied env d.fields) _ _ hd
        fun d hd c hc => ?_
      refine d.add_copied hd _ (fun u hu => ?_) _
      exact hsources s (List.mem_of_mem_filter hs) table htable u (List.mem_flatMap.2 ⟨c, hc, hu⟩)
    · exact hd
  | column qualifier name renamed =>
    dsimp only [addColumn]
    split
    · rename_i c hc
      obtain ⟨table, htable, hfind⟩ := List.exists_of_findSome?_eq_some hc
      obtain ⟨s, hs, hs'⟩ := List.mem_filterMap.1 htable
      refine d.add_copied h _ (fun u hu => ?_) _
      exact hsources s (List.mem_of_mem_filter hs) table hs' u
        (List.mem_flatMap.2 ⟨c, List.mem_of_find?_eq_some hfind, hu⟩)
    · refine Draft.add_copied ?_ _ (primitive_copied _) _
      exact h
  | expr name function =>
    dsimp only [addColumn]
    split
    · exact d.add_copied h _ (primitive_copied _) _
    · refine Draft.add_copied ?_ _ (primitive_copied _) _
      exact h

theorem columns_copied (mapper : String) (q : Query) :
    FieldsCopied env (columns env mapper q).fields := by
  unfold columns
  split
  · exact fun _ hu => nomatch hu
  · refine List.foldlRecOn (motive := fun d : Draft => FieldsCopied env d.fields) _ _
      (fun _ hu => nomatch hu) fun d hd c _ => ?_
    refine addColumn_copied (fun s hs table hs' u hu => ?_) mapper q hd c
    obtain ⟨source, -, rfl⟩ := List.mem_map.1 hs
    exact table?_copied hs' hu

/-- The columns of all shapes that are made up are copied from tables. -/
theorem pending_copied : ∀ shape ∈ (pending env).shapes, FieldsCopied env shape.columns := by
  unfold pending
  let Good (p : Pending) : Prop := ∀ shape ∈ p.shapes, FieldsCopied env shape.columns
  refine List.foldlRecOn (motive := Good) env.document.decls _ (fun _ hs => nomatch hs)
    fun p hp d _ => ?_
  split
  · rename_i m _
    refine List.foldlRecOn (motive := Good) m.queries _ hp fun p hp q _ => ?_
    unfold addQuery
    split
    · exact hp
    · dsimp only
      split
      · exact hp
      · intro shape hs
        obtain hs | hs := List.mem_append.1 hs
        · exact hp shape hs
        · rw [List.mem_singleton.1 hs]
          exact columns_copied _ _
  · exact hp

end

/-! ## Declaring shapes -/

/-- Between the two sessions the shapes were numbered and declared in the scope of the document. -/
structure ShapesDeclared (d : Document) (s : Session) (shapes : List ResultShape) (s' : Session) :
    Prop where
  imports : s'.imports = s.imports
  stack : s'.stack = s.stack
  platform : s'.platform = s.platform
  diagnostics : s'.diagnostics = s.diagnostics
  nextNode : s.nextNode ≤ s'.nextNode
  symbols : ∀ q, s.symbols.Grows (· = d.scope) q s'.symbols
  size : s'.symbols.scopes.size = s.symbols.scopes.size
  table : s.symbols.WellFormed → s'.symbols.WellFormed
  names : ∃ bs, s'.symbols.names d.scope = s.symbols.names d.scope ++ bs ∧
    s'.symbols.Declares bs (shapes.map fun shape => ⟨shape.name, .shape, shape.id⟩)

namespace ShapesDeclared

variable {d : Document} {s s' s'' : Session} {shapes shapes' : List ResultShape}

theorem trans (h : ShapesDeclared d s shapes s') (h' : ShapesDeclared d s' shapes' s'') :
    ShapesDeclared d s (shapes ++ shapes') s'' where
  imports := h'.imports.trans h.imports
  stack := h'.stack.trans h.stack
  platform := h'.platform.trans h.platform
  diagnostics := h'.diagnostics.trans h.diagnostics
  nextNode := Nat.le_trans h.nextNode h'.nextNode
  symbols q := (h.symbols q).trans (Nat.le_refl q) (h'.symbols q)
  size := h'.size.trans h.size
  table hs := h'.table (h.table hs)
  names := by
    obtain ⟨bs, hn, hd⟩ := h.names
    obtain ⟨bs', hn', hd'⟩ := h'.names
    refine ⟨bs ++ bs', by rw [hn', hn, List.append_assoc], ?_⟩
    rw [List.map_append]
    exact List.rel_append ((h'.symbols 0).declares hd) hd'

end ShapesDeclared

/-- The symbol of a shape. -/
def symbol (d : Document) (s : Session) (shape : ResultShape) : Symbol :=
  { name := shape.name, kind := .shape, file := d.file, path := d.path, pos := shape.pos, seq := 0
    scope := d.scope, node := s.nextNode }

/-- A shape whose name is free is declared, and any other is dropped. -/
theorem declare_symbol (d : Document) (s : Session) (shape : ResultShape) :
    declare d s shape = match s.symbols.declare d.scope (symbol d s shape) with
      | (.ok _, symbols) => (some { shape with id := s.nextNode }, { s.takeNode.2 with symbols })
      | (.error _, _) => (none, s.takeNode.2) :=
  rfl

theorem declare_eq (d : Document) (s : Session) (shape : ResultShape) :
    declare d s shape = match s.symbols.lookup d.scope shape.name with
      | some _ => (none, s.takeNode.2)
      | none => (some { shape with id := s.nextNode },
          { s.takeNode.2 with symbols := s.symbols.bind d.scope (symbol d s shape) }) := by
  have hdeclare := SymbolTable.declare_eq s.symbols d.scope (symbol d s shape)
  rw [show (symbol d s shape).name = shape.name from rfl] at hdeclare
  rw [declare_symbol, hdeclare]
  cases s.symbols.lookup d.scope shape.name <;> rfl

theorem declare_ok {d : Document} {s : Session} (hfile : s.symbols.IsFile d.scope)
    (shape : ResultShape) :
    ShapesDeclared d s (declare d s shape).1.toList (declare d s shape).2 ∧
      ∀ shape' ∈ (declare d s shape).1, shape'.columns = shape.columns := by
  rw [declare_eq]
  cases hl : s.symbols.lookup d.scope shape.name with
  | some previous =>
    refine ⟨⟨rfl, rfl, rfl, rfl, Nat.le_succ _, fun _ => .refl _, rfl, id, [], ?_, .nil⟩, by simp⟩
    exact (List.append_nil _).symm
  | none =>
    obtain ⟨sc, hsc, hk⟩ := hfile
    have hlt : d.scope < s.symbols.scopes.size := (Array.getElem?_eq_some_iff.1 hsc).1
    refine ⟨⟨rfl, rfl, rfl, rfl, Nat.le_succ _, fun q => ?_, Array.size_modify, fun ht => ?_,
      [(shape.name, s.symbols.symbols.size)], ?_, ?_⟩, by simp⟩
    · exact SymbolTable.grows_bind_file s.symbols hsc hk (symbol d s shape) q
    · refine ht.bind hl fun _ sc' hsc' => ?_
      rw [hsc] at hsc'
      cases hsc'
      exact hk
    · exact SymbolTable.names_bind s.symbols (symbol d s shape) hlt
    · exact .cons (SymbolTable.stands_bind s.symbols d.scope (symbol d s shape)) .nil

theorem declareAll_ok {d : Document} : ∀ (shapes : List ResultShape) {s : Session},
    s.symbols.IsFile d.scope →
    ShapesDeclared d s (declareAll d shapes s).1 (declareAll d shapes s).2 ∧
      ∀ shape' ∈ (declareAll d shapes s).1, ∃ shape ∈ shapes, shape'.columns = shape.columns
  | [], s, _ =>
    ⟨⟨rfl, rfl, rfl, rfl, Nat.le_refl _, fun _ => .refl _, rfl, id, [], (List.append_nil _).symm,
      .nil⟩,
      fun _ hs => nomatch hs⟩
  | shape :: rest, s, hfile => by
    obtain ⟨hfirst, hcolumns⟩ := declare_ok hfile shape
    obtain ⟨hrest, hcolumns'⟩ := declareAll_ok rest (hfile.grows (hfirst.symbols 0))
    refine ⟨hfirst.trans hrest, fun shape' hs => ?_⟩
    obtain hs | hs := List.mem_append.1 hs
    · exact ⟨shape, List.mem_cons_self, hcolumns shape' (Option.mem_toList.1 hs)⟩
    · obtain ⟨shape₀, hmem, heq⟩ := hcolumns' shape' hs
      exact ⟨shape₀, List.mem_cons_of_mem _ hmem, heq⟩

end Shape

/-! ## The three steps -/

/-- The declarations after the first pass, and the problems so far. -/
def firstPass (d : Document) (s : Session) : List Decl × Diagnostics :=
  (Binder.decls (Binder.dataDecl ⟨s.symbols, d.path, ""⟩) d.decls).run s.diagnostics

/-- The document and the session once the shapes are declared. -/
def shaped (d : Document) (s : Session) : Document × Session :=
  Shape.synthesize { d with decls := (firstPass d s).1 } { s with diagnostics := (firstPass d s).2 }

/-- The declarations after the second pass, and all problems. -/
def secondPass (d : Document) (s : Session) : List Decl × Diagnostics :=
  (Binder.decls (Binder.otherDecl ⟨(shaped d s).2.symbols, d.path, ""⟩) (firstPass d s).1).run
    (shaped d s).2.diagnostics

theorem complete_eq (d : Document) (s : Session) : complete d s =
    ({ (shaped d s).1 with decls := (secondPass d s).1 },
      { (shaped d s).2 with
        diagnostics := (secondPass d s).2
        symbols := (shaped d s).2.symbols.closeChildren d.file }) := rfl

section

variable {d : Document} {s : Session}

theorem firstPass_ends :
    (∃ more, (firstPass d s).2 = s.diagnostics ++ more) ∧
    (Diagnostics.hasErrors (firstPass d s).2 = false → List.Forall₂
      (fun a b => if a.isData then DeclBound s.symbols a b else b = a) d.decls (firstPass d s).1) :=
  Binder.decls_ends (Binder.dataDecl_ends _) d.decls s.diagnostics

theorem shaped_ok (hfile : s.symbols.IsFile d.scope) : ∃ shapes,
    (shaped d s).1 = { d with decls := (firstPass d s).1, shapes := d.shapes ++ shapes } ∧
    (∃ more, (shaped d s).2.diagnostics = (firstPass d s).2 ++ more) ∧
    Shape.ShapesDeclared d { s with diagnostics := (shaped d s).2.diagnostics } shapes
      (shaped d s).2 ∧
    ∀ shape' ∈ shapes, ∃ shape ∈ (Shape.pending ⟨{ d with decls := (firstPass d s).1 }, s.imports,
      s.symbols⟩).shapes, shape'.columns = shape.columns := by
  obtain ⟨hdeclared, hcolumns⟩ := Shape.declareAll_ok (d := { d with decls := (firstPass d s).1 })
    (Shape.pending ⟨{ d with decls := (firstPass d s).1 }, s.imports, s.symbols⟩).shapes
    (s := { s with diagnostics := (firstPass d s).2 ++ (Shape.pending
      ⟨{ d with decls := (firstPass d s).1 }, s.imports, s.symbols⟩).warnings }) hfile
  refine ⟨_, rfl, ⟨_, hdeclared.diagnostics⟩, ?_, hcolumns⟩
  exact ⟨hdeclared.imports, hdeclared.stack, hdeclared.platform, rfl, hdeclared.nextNode,
    hdeclared.symbols, hdeclared.size, hdeclared.table, hdeclared.names⟩

theorem secondPass_ends :
    (∃ more, (secondPass d s).2 = (shaped d s).2.diagnostics ++ more) ∧
    (Diagnostics.hasErrors (secondPass d s).2 = false → List.Forall₂
      (fun a b => if a.isData then b = a else DeclBound (shaped d s).2.symbols a b)
      (firstPass d s).1 (secondPass d s).1) :=
  Binder.decls_ends (Binder.otherDecl_ends _) (firstPass d s).1 (shaped d s).2.diagnostics

/-- What completing a document comes to; `t` is the table that the second pass looks names up in. -/
structure Completes (d : Document) (s : Session) (t : SymbolTable) (d' : Document) (s' : Session) :
    Prop where
  document : d' = { d with decls := d'.decls, shapes := d'.shapes }
  session : s' = { s with
    diagnostics := s'.diagnostics
    nextNode := s'.nextNode
    symbols := t.closeChildren d.file }
  diagnostics : ∃ more, s'.diagnostics = s.diagnostics ++ more
  nextNode : s.nextNode ≤ s'.nextNode
  symbols : ∀ q, s.symbols.Grows (· = d.scope) q t
  size : t.scopes.size = s.symbols.scopes.size
  table : s.symbols.WellFormed → t.WellFormed
  decls : s'.Clean → List.Forall₂ (fun a b => DeclBound (if a.isData then s.symbols else t) a b)
    d.decls d'.decls
  shapes : ∃ shapes bs, d'.shapes = d.shapes ++ shapes ∧
    t.names d.scope = s.symbols.names d.scope ++ bs ∧
    t.Declares bs (shapes.map fun shape => ⟨shape.name, .shape, shape.id⟩) ∧
    (s'.Clean → ∀ shape ∈ shapes, ∀ u ∈ Field.usesAll shape.columns,
      Shape.FromTable d'.decls s.imports u)

/-- The second pass leaves the tables as they are. -/
theorem secondPass_tables {t : SymbolTable} {as bs : List Decl} (h : List.Forall₂
      (fun a b => if a.isData then b = a else DeclBound t a b) as bs) {table : Table}
    (htable : .table table ∈ as) : .table table ∈ bs := by
  obtain ⟨b, hb, hab⟩ := forall₂_mem_right h.flip htable
  have hsame : b = .table table := hab
  exact hsame ▸ hb

/-- Each declaration is bound in one of the two passes. -/
theorem forall₂_passes {t t' : SymbolTable} {as ms bs : List Decl}
    (h : List.Forall₂ (fun a b => if a.isData then DeclBound t a b else b = a) as ms)
    (h' : List.Forall₂ (fun a b => if a.isData then b = a else DeclBound t' a b) ms bs) :
    List.Forall₂ (fun a b => DeclBound (if a.isData then t else t') a b) as bs := by
  induction h generalizing bs with
  | nil =>
    cases h'
    exact .nil
  | cons ha _ ih =>
    cases h' with
    | cons hb hrest =>
      refine .cons ?_ (ih hrest)
      rename_i a m _ _ _ b _
      cases hdata : a.isData with
      | true =>
        rw [hdata, if_pos rfl] at ha
        rw [ha.isData, hdata, if_pos rfl] at hb
        rw [hb]
        exact ha
      | false =>
        rw [hdata, if_neg Bool.false_ne_true] at ha
        rw [ha, hdata, if_neg Bool.false_ne_true] at hb
        exact hb

/-- Completing binds all names, in the two passes, and declares the shapes in between. -/
theorem complete_ok {d' : Document} {s' : Session} (hfile : s.symbols.IsFile d.scope)
    (h : complete d s = (d', s')) : ∃ t, Completes d s t d' s' := by
  obtain ⟨shapes, hdoc, ⟨more, hdiag⟩, hshapes, hcolumns⟩ := shaped_ok hfile (d := d)
  obtain ⟨⟨more₁, hfirst⟩, hpass₁⟩ := firstPass_ends (d := d) (s := s)
  obtain ⟨⟨more₂, hsecond⟩, hpass₂⟩ := secondPass_ends (d := d) (s := s)
  have hdiagnostics : (secondPass d s).2 = s.diagnostics ++ (more₁ ++ more ++ more₂) := by
    rw [hsecond, hdiag, hfirst, List.append_assoc, List.append_assoc, List.append_assoc]
  rw [complete_eq, hdoc] at h
  cases h
  refine ⟨(shaped d s).2.symbols, rfl, ?_, ⟨_, hdiagnostics⟩, hshapes.nextNode, hshapes.symbols,
    hshapes.size, hshapes.table, fun hclean => ?_, ?_⟩
  · simp only [Session.mk.injEq]
    exact ⟨hshapes.platform, hshapes.imports, trivial, trivial, hshapes.stack, trivial⟩
  · refine forall₂_passes (hpass₁ ?_) (hpass₂ hclean)
    have hclean' : Diagnostics.hasErrors (secondPass d s).2 = false := hclean
    rw [hsecond, hdiag, List.append_assoc] at hclean'
    exact Diagnostics.hasErrors_of_append hclean'
  · obtain ⟨bs, hnames, hdeclares⟩ := hshapes.names
    refine ⟨shapes, bs, rfl, hnames, hdeclares, fun hclean shape' hshape u hu => ?_⟩
    obtain ⟨shape, hpending, hcols⟩ := hcolumns shape' hshape
    rw [hcols] at hu
    obtain ⟨table, htable, hu⟩ | hdoc := Shape.pending_copied shape hpending u hu
    · exact .inl ⟨table, secondPass_tables (hpass₂ hclean) htable, hu⟩
    · exact .inr hdoc

end

namespace Completes

variable {d d' : Document} {s s' : Session} {t : SymbolTable} (h : Completes d s t d' s')
  (hclean : s'.Clean)
include h hclean

/-- Binding changes nothing in what is declared, and the shapes come after it. -/
theorem declares (hshapes : d.shapes = []) (hd : s.symbols.Declares (s.symbols.names d.scope)
    (d.decls.filterMap Decl.declared?)) : t.Declares (t.names d.scope) d'.declared := by
  have hdecls : d'.decls.filterMap Decl.declared? = d.decls.filterMap Decl.declared? := by
    have hbound := h.decls hclean
    generalize d.decls = as at hbound
    generalize d'.decls = bs at hbound
    induction hbound with
    | nil => rfl
    | cons hab _ ih => rw [List.filterMap_cons, List.filterMap_cons, hab.declared, ih]
  obtain ⟨shapes, bs, hnew, hnames, hdeclares, -⟩ := h.shapes
  rw [Document.declared, hdecls, hnew, hshapes, List.nil_append, hnames]
  exact List.rel_append ((h.symbols 0).declares hd) hdeclares

/-- Every name of a completed document is resolved. -/
theorem resolved (hwf : s.symbols.WellFormed) (hshapes : d.shapes = [])
    (hfresh : ∀ a ∈ d.decls, Fresh a.uses)
    (himports : ∀ {p d}, s.imports.get? p = some d → ∀ u ∈ d.uses, Resolved s.symbols u) :
    ∀ u ∈ d'.uses, Resolved t u := by
  have hdecls : ∀ b ∈ d'.decls, ∀ u ∈ b.uses, Resolved t u := by
    intro b hb u hu
    obtain ⟨a, ha, hab⟩ := forall₂_mem_right (h.decls hclean) hb
    split at hab
    · exact (hab.uses.resolved hwf (hfresh a ha) u hu).grows (h.symbols 0)
    · exact hab.uses.resolved (h.table hwf) (hfresh a ha) u hu
  intro u hu
  obtain hu | hu := List.mem_append.1 hu
  · obtain ⟨b, hb, hu⟩ := List.mem_flatMap.1 hu
    exact hdecls b hb u hu
  · obtain ⟨shapes, -, hnew, -, -, hcopied⟩ := h.shapes
    rw [hnew, hshapes, List.nil_append] at hu
    obtain ⟨shape, hshape, hu⟩ := List.mem_flatMap.1 hu
    obtain ⟨table, htable, hu⟩ | ⟨p, d₀, hd₀, hu⟩ := hcopied hclean shape hshape u hu
    · exact hdecls _ htable u hu
    · exact (himports hd₀ u hu).grows (h.symbols 0)

end Completes

end Scaffold.Source
