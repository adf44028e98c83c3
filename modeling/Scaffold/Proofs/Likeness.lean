import Mathlib.Data.List.Forall2
import Mathlib.Data.Option.Basic
import Scaffold.Source.Document

/-!
# Sources that are alike

Two readings of the same tokens give trees of the same shape. What may differ is where things stand,
and the numbers by which files, declarations, scopes and names are known. `Likeness` says which of
these count as the same, and the relations `Alike` carry it through the trees.

Each relation is monotone: trees that are alike stay alike when more numbers are matched.
-/

namespace Scaffold.Source

/-- Which names, which declarations, which places in a scope and which positions count as the
same. -/
structure Likeness where
  ref : NameRef → NameRef → Prop
  node : NodeId → NodeId → Prop
  place : ScopeId → Nat → ScopeId → Nat → Prop
  pos : Position → Position → Prop

namespace Likeness

/-- The second likeness holds wherever the first does. -/
structure Le (L L' : Likeness) : Prop where
  ref : ∀ {r r'}, L.ref r r' → L'.ref r r'
  node : ∀ {i i'}, L.node i i' → L'.node i i'
  place : ∀ {c q c' q'}, L.place c q c' q' → L'.place c q c' q'
  pos : ∀ {p p'}, L.pos p p' → L'.pos p p'

end Likeness

variable {L L' : Likeness}

/-! ## Types, expressions and statements -/

/-- Types of the same form whose names are the same. -/
inductive TypeRef.Alike (L : Likeness) : TypeRef → TypeRef → Prop where
  | primitive (p : Primitive) : Alike L (.primitive p) (.primitive p)
  | list {item item' : TypeRef} : Alike L item item' → Alike L (.list item) (.list item')
  | named {r r' : NameRef} : L.ref r r' → Alike L (.named r) (.named r')

/-- Expressions of the same form whose names are the same. -/
inductive Expr.Alike (L : Likeness) : Expr → Expr → Prop where
  | literal (l : Literal) : Alike L (.literal l) (.literal l)
  | name {r r' : NameRef} : L.ref r r' → Alike L (.name r) (.name r')
  | member {object object' : Expr} (name : String) : Alike L object object' →
    Alike L (.member object name) (.member object' name)
  | call {callee callee' : Expr} {args args' : List Expr} : Alike L callee callee' →
    List.Forall₂ (Alike L) args args' → Alike L (.call callee args) (.call callee' args')
  | native (path : List String) {args args' : List Expr} {pos pos' : Position} : L.pos pos pos' →
    List.Forall₂ (Alike L) args args' → Alike L (.native path args pos) (.native path args' pos')
  | unary (op : UnaryOp) {e e' : Expr} : Alike L e e' → Alike L (.unary op e) (.unary op e')
  | binary (op : BinaryOp) {lhs lhs' rhs rhs' : Expr} : Alike L lhs lhs' → Alike L rhs rhs' →
    Alike L (.binary op lhs rhs) (.binary op lhs' rhs')

/-- Loops over what is the same. -/
inductive ForIter.Alike (L : Likeness) : ForIter → ForIter → Prop where
  | range {first first' last last' : Expr} : Expr.Alike L first first' → Expr.Alike L last last' →
    Alike L (.range first last) (.range first' last')
  | each {items items' : Expr} : Expr.Alike L items items' → Alike L (.each items) (.each items')

/-- Statements of the same form whose names are the same. -/
inductive Stmt.Alike (L : Likeness) : Stmt → Stmt → Prop where
  | declare (name : String) {type type' : Option TypeRef} {init init' : Option Expr}
    {pos pos' : Position} : L.pos pos pos' → Option.Rel (TypeRef.Alike L) type type' →
    Option.Rel (Expr.Alike L) init init' →
    Alike L (.declare name type init pos) (.declare name type' init' pos')
  | assign {target target' value value' : Expr} {pos pos' : Position} : L.pos pos pos' →
    Expr.Alike L target target' → Expr.Alike L value value' →
    Alike L (.assign target value pos) (.assign target' value' pos')
  | cond {test test' : Expr} {yes yes' : List Stmt} {no no' : Option (List Stmt)}
    {pos pos' : Position} : L.pos pos pos' → Expr.Alike L test test' →
    List.Forall₂ (Alike L) yes yes' → Option.Rel (List.Forall₂ (Alike L)) no no' →
    Alike L (.cond test yes no pos) (.cond test' yes' no' pos')
  | loop {test test' : Expr} {body body' : List Stmt} {pos pos' : Position} : L.pos pos pos' →
    Expr.Alike L test test' → List.Forall₂ (Alike L) body body' →
    Alike L (.loop test body pos) (.loop test' body' pos')
  | each (var : String) {iter iter' : ForIter} {body body' : List Stmt} {pos pos' : Position} :
    L.pos pos pos' → ForIter.Alike L iter iter' → List.Forall₂ (Alike L) body body' →
    Alike L (.each var iter body pos) (.each var iter' body' pos')
  | ret {value value' : Option Expr} {pos pos' : Position} : L.pos pos pos' →
    Option.Rel (Expr.Alike L) value value' → Alike L (.ret value pos) (.ret value' pos')
  | leave {pos pos' : Position} : L.pos pos pos' → Alike L (.leave pos) (.leave pos')
  | next {pos pos' : Position} : L.pos pos pos' → Alike L (.next pos) (.next pos')
  | expr {e e' : Expr} {pos pos' : Position} : L.pos pos pos' → Expr.Alike L e e' →
    Alike L (.expr e pos) (.expr e' pos')

theorem TypeRef.Alike.mono (hle : L.Le L') : ∀ {t t' : TypeRef}, t.Alike L t' → t.Alike L' t'
  | _, _, .primitive p => .primitive p
  | _, _, .list h => .list (h.mono hle)
  | _, _, .named h => .named (hle.ref h)

mutual

theorem Expr.Alike.mono (hle : L.Le L') : ∀ {e e' : Expr}, e.Alike L e' → e.Alike L' e'
  | _, _, .literal l => .literal l
  | _, _, .name h => .name (hle.ref h)
  | _, _, .member part h => .member part (h.mono hle)
  | _, _, .call h hs => .call (h.mono hle) (Expr.Alike.monoAll hle hs)
  | _, _, .native path hpos hs => .native path (hle.pos hpos) (Expr.Alike.monoAll hle hs)
  | _, _, .unary op h => .unary op (h.mono hle)
  | _, _, .binary op h h' => .binary op (h.mono hle) (h'.mono hle)

theorem Expr.Alike.monoAll (hle : L.Le L') : ∀ {es es' : List Expr},
    List.Forall₂ (Expr.Alike L) es es' → List.Forall₂ (Expr.Alike L') es es'
  | _, _, .nil => .nil
  | _, _, .cons h hs => .cons (h.mono hle) (Expr.Alike.monoAll hle hs)

end

theorem ForIter.Alike.mono (hle : L.Le L') : ∀ {i i' : ForIter}, i.Alike L i' → i.Alike L' i'
  | _, _, .range h h' => .range (h.mono hle) (h'.mono hle)
  | _, _, .each h => .each (h.mono hle)

/-- A value that may be missing is related by any wider relation too. -/
theorem relOption_mono {α β : Type} {R S : α → β → Prop} (h : ∀ a b, R a b → S a b) :
    ∀ {a : Option α} {b : Option β}, Option.Rel R a b → Option.Rel S a b
  | _, _, .none => .none
  | _, _, .some hr => .some (h _ _ hr)

/-- Lists related member by member stay so when related members are added. -/
theorem forall₂_snoc {α β : Type} {R : α → β → Prop} {as : List α} {bs : List β}
    (h : List.Forall₂ R as bs) {a : α} {b : β} (hab : R a b) :
    List.Forall₂ R (as ++ [a]) (bs ++ [b]) :=
  List.rel_append h (.cons hab .nil)

mutual

theorem Stmt.Alike.mono (hle : L.Le L') : ∀ {s s' : Stmt}, s.Alike L s' → s.Alike L' s'
  | _, _, .declare name hpos htype hinit =>
    .declare name (hle.pos hpos) (relOption_mono (fun _ _ h => h.mono hle) htype)
      (relOption_mono (fun _ _ h => h.mono hle) hinit)
  | _, _, .assign hpos h h' => .assign (hle.pos hpos) (h.mono hle) (h'.mono hle)
  | _, _, .cond hpos h hyes hno => .cond (hle.pos hpos) (h.mono hle) (Stmt.Alike.monoAll hle hyes)
      (Stmt.Alike.monoElse hle hno)
  | _, _, .loop hpos h hbody => .loop (hle.pos hpos) (h.mono hle) (Stmt.Alike.monoAll hle hbody)
  | _, _, .each var hpos h hbody =>
    .each var (hle.pos hpos) (h.mono hle) (Stmt.Alike.monoAll hle hbody)
  | _, _, .ret hpos h => .ret (hle.pos hpos) (relOption_mono (fun _ _ h => h.mono hle) h)
  | _, _, .leave hpos => .leave (hle.pos hpos)
  | _, _, .next hpos => .next (hle.pos hpos)
  | _, _, .expr hpos h => .expr (hle.pos hpos) (h.mono hle)

theorem Stmt.Alike.monoAll (hle : L.Le L') : ∀ {ss ss' : List Stmt},
    List.Forall₂ (Stmt.Alike L) ss ss' → List.Forall₂ (Stmt.Alike L') ss ss'
  | _, _, .nil => .nil
  | _, _, .cons h hs => .cons (h.mono hle) (Stmt.Alike.monoAll hle hs)

theorem Stmt.Alike.monoElse (hle : L.Le L') : ∀ {ss ss' : Option (List Stmt)},
    Option.Rel (List.Forall₂ (Stmt.Alike L)) ss ss' →
    Option.Rel (List.Forall₂ (Stmt.Alike L')) ss ss'
  | _, _, .none => .none
  | _, _, .some hs => .some (Stmt.Alike.monoAll hle hs)

end

/-! ## Declarations -/

/-- Headers with the same annotations and matching numbers. -/
structure Header.Alike (L : Likeness) (h h' : Header) : Prop where
  node : L.node h.id h'.id
  pos : L.pos h.pos h'.pos
  annotations : h.annotations = h'.annotations

/-- Fields of one name and alike types. -/
structure Field.Alike (L : Likeness) (f f' : Field) : Prop where
  name : f.name = f'.name
  type : f.type.Alike L f'.type
  pos : L.pos f.pos f'.pos

/-- Imports of one file. -/
structure Import.Alike (L : Likeness) (d d' : Import) : Prop where
  header : d.header.Alike L d'.header
  written : d.written = d'.written
  resolved : d.resolved = d'.resolved

/-- Columns that differ in nothing but the names in their types. -/
structure Column.Alike (L : Likeness) (c c' : Column) : Prop where
  name : c.name = c'.name
  type : c.type.Alike L c'.type
  auto : c.auto = c'.auto
  nullable : c.nullable = c'.nullable
  default : c.default = c'.default
  pos : L.pos c.pos c'.pos

/-- Indexes of one name and the same columns. -/
structure Index.Alike (L : Likeness) (i i' : Index) : Prop where
  name : i.name = i'.name
  columns : i.columns = i'.columns
  unique : i.unique = i'.unique
  pos : L.pos i.pos i'.pos

structure Domain.Alike (L : Likeness) (d d' : Domain) : Prop where
  header : d.header.Alike L d'.header
  name : d.name = d'.name
  type : d.type.Alike L d'.type

structure Table.Alike (L : Likeness) (t t' : Table) : Prop where
  header : t.header.Alike L t'.header
  name : t.name = t'.name
  columns : List.Forall₂ (Column.Alike L) t.columns t'.columns
  keys : t.keys = t'.keys
  indexes : List.Forall₂ (Index.Alike L) t.indexes t'.indexes

structure Entity.Alike (L : Likeness) (e e' : Entity) : Prop where
  header : e.header.Alike L e'.header
  name : e.name = e'.name
  table : Option.Rel L.ref e.table e'.table
  fields : List.Forall₂ (Field.Alike L) e.fields e'.fields

structure Record.Alike (L : Likeness) (r r' : Record) : Prop where
  header : r.header.Alike L r'.header
  name : r.name = r'.name
  fields : List.Forall₂ (Field.Alike L) r.fields r'.fields

structure Query.Alike (L : Likeness) (q q' : Query) : Prop where
  header : q.header.Alike L q'.header
  name : q.name = q'.name
  params : List.Forall₂ (Field.Alike L) q.params q'.params
  returns : Option.Rel (TypeRef.Alike L) q.returns q'.returns
  sql : q.sql = q'.sql
  sqlPos : L.pos q.sqlPos q'.sqlPos
  place : L.place q.scope q.seq q'.scope q'.seq

structure Mapper.Alike (L : Likeness) (m m' : Mapper) : Prop where
  header : m.header.Alike L m'.header
  name : m.name = m'.name
  queries : List.Forall₂ (Query.Alike L) m.queries m'.queries

structure Func.Alike (L : Likeness) (f f' : Func) : Prop where
  header : f.header.Alike L f'.header
  name : f.name = f'.name
  params : List.Forall₂ (Field.Alike L) f.params f'.params
  returns : Option.Rel (TypeRef.Alike L) f.returns f'.returns
  body : List.Forall₂ (Stmt.Alike L) f.body f'.body

structure Controller.Alike (L : Likeness) (c c' : Controller) : Prop where
  header : c.header.Alike L c'.header
  name : c.name = c'.name
  handlers : List.Forall₂ (Func.Alike L) c.handlers c'.handlers

structure ApiMember.Alike (L : Likeness) (m m' : ApiMember) : Prop where
  controller : L.ref m.controller m'.controller
  handler : m.handler = m'.handler
  pos : L.pos m.pos m'.pos

structure Api.Alike (L : Likeness) (a a' : Api) : Prop where
  header : a.header.Alike L a'.header
  name : a.name = a'.name
  members : List.Forall₂ (ApiMember.Alike L) a.members a'.members

/-- Markup of the same form whose components are the same. -/
inductive NodeAlike (L : Likeness) : MarkupNode → MarkupNode → Prop where
  | element (tag : String) (attrs : List (String × Option String))
    {component component' : Option NameRef} {children children' : List MarkupNode} :
    Option.Rel L.ref component component' → List.Forall₂ (NodeAlike L) children children' →
    NodeAlike L (.element tag attrs component children) (.element tag attrs component' children')
  | text (s : String) : NodeAlike L (.text s) (.text s)
  | interpolation (source : String) : NodeAlike L (.interpolation source) (.interpolation source)

structure Page.Alike (L : Likeness) (p p' : Page) : Prop where
  header : p.header.Alike L p'.header
  name : p.name = p'.name
  parent : Option.Rel L.ref p.parent p'.parent
  layout : Option.Rel L.ref p.layout p'.layout
  markup : List.Forall₂ (NodeAlike L) p.markup p'.markup

structure Property.Alike (L : Likeness) (p p' : Property) : Prop where
  header : p.header.Alike L p'.header
  name : p.name = p'.name
  type : p.type.Alike L p'.type
  value : Option.Rel (Expr.Alike L) p.value p'.value

/-- Declarations of the same kind that are alike. -/
inductive Decl.Alike (L : Likeness) : Decl → Decl → Prop where
  | importFile {d d' : Import} : d.Alike L d' → Alike L (.importFile d) (.importFile d')
  | domain {d d' : Domain} : d.Alike L d' → Alike L (.domain d) (.domain d')
  | table {d d' : Table} : d.Alike L d' → Alike L (.table d) (.table d')
  | entity {d d' : Entity} : d.Alike L d' → Alike L (.entity d) (.entity d')
  | record {d d' : Record} : d.Alike L d' → Alike L (.record d) (.record d')
  | mapper {d d' : Mapper} : d.Alike L d' → Alike L (.mapper d) (.mapper d')
  | controller {d d' : Controller} : d.Alike L d' → Alike L (.controller d) (.controller d')
  | api {d d' : Api} : d.Alike L d' → Alike L (.api d) (.api d')
  | page {d d' : Page} : d.Alike L d' → Alike L (.page d) (.page d')
  | property {d d' : Property} : d.Alike L d' → Alike L (.property d) (.property d')
  | func {d d' : Func} : d.Alike L d' → Alike L (.func d) (.func d')

/-- Result shapes of one query with alike columns. -/
structure ResultShape.Alike (L : Likeness) (s s' : ResultShape) : Prop where
  node : L.node s.id s'.id
  name : s.name = s'.name
  mapper : s.mapper = s'.mapper
  query : s.query = s'.query
  columns : List.Forall₂ (Field.Alike L) s.columns s'.columns
  pos : L.pos s.pos s'.pos

mutual

theorem NodeAlike.mono (hle : L.Le L') : ∀ {n n' : MarkupNode}, NodeAlike L n n' → NodeAlike L' n n'
  | _, _, .element tag attrs h hs =>
    .element tag attrs (relOption_mono (fun _ _ h => hle.ref h) h) (NodeAlike.monoAll hle hs)
  | _, _, .text s => .text s
  | _, _, .interpolation source => .interpolation source

theorem NodeAlike.monoAll (hle : L.Le L') : ∀ {ns ns' : List MarkupNode},
    List.Forall₂ (NodeAlike L) ns ns' → List.Forall₂ (NodeAlike L') ns ns'
  | _, _, .nil => .nil
  | _, _, .cons h hs => .cons (NodeAlike.mono hle h) (NodeAlike.monoAll hle hs)

end

section

variable (hle : L.Le L')

include hle

theorem Header.Alike.mono {h h' : Header} (ha : h.Alike L h') : h.Alike L' h' :=
  ⟨hle.node ha.node, hle.pos ha.pos, ha.annotations⟩

theorem Field.Alike.mono {f f' : Field} (h : f.Alike L f') : f.Alike L' f' :=
  ⟨h.name, h.type.mono hle, hle.pos h.pos⟩

theorem Field.Alike.monoAll {fs fs' : List Field} (h : List.Forall₂ (Field.Alike L) fs fs') :
    List.Forall₂ (Field.Alike L') fs fs' :=
  h.imp fun _ _ h => h.mono hle

theorem Column.Alike.mono {c c' : Column} (h : c.Alike L c') : c.Alike L' c' :=
  ⟨h.name, h.type.mono hle, h.auto, h.nullable, h.default, hle.pos h.pos⟩

theorem Index.Alike.mono {i i' : Index} (h : i.Alike L i') : i.Alike L' i' :=
  ⟨h.name, h.columns, h.unique, hle.pos h.pos⟩

theorem Table.Alike.mono {t t' : Table} (h : t.Alike L t') : t.Alike L' t' :=
  ⟨h.header.mono hle, h.name, h.columns.imp fun _ _ h => h.mono hle, h.keys,
    h.indexes.imp fun _ _ h => h.mono hle⟩

theorem Query.Alike.mono {q q' : Query} (h : q.Alike L q') : q.Alike L' q' :=
  ⟨h.header.mono hle, h.name, Field.Alike.monoAll hle h.params,
    relOption_mono (fun _ _ h => h.mono hle) h.returns, h.sql, hle.pos h.sqlPos, hle.place h.place⟩

theorem Func.Alike.mono {f f' : Func} (h : f.Alike L f') : f.Alike L' f' :=
  ⟨h.header.mono hle, h.name, Field.Alike.monoAll hle h.params,
    relOption_mono (fun _ _ h => h.mono hle) h.returns, Stmt.Alike.monoAll hle h.body⟩

theorem ApiMember.Alike.mono {m m' : ApiMember} (h : m.Alike L m') : m.Alike L' m' :=
  ⟨hle.ref h.controller, h.handler, hle.pos h.pos⟩

theorem Decl.Alike.mono : ∀ {d d' : Decl}, d.Alike L d' → d.Alike L' d'
  | _, _, .importFile h => .importFile ⟨h.header.mono hle, h.written, h.resolved⟩
  | _, _, .domain h => .domain ⟨h.header.mono hle, h.name, h.type.mono hle⟩
  | _, _, .table h => .table (h.mono hle)
  | _, _, .entity h => .entity ⟨h.header.mono hle, h.name,
      relOption_mono (fun _ _ h => hle.ref h) h.table, Field.Alike.monoAll hle h.fields⟩
  | _, _, .record h => .record ⟨h.header.mono hle, h.name, Field.Alike.monoAll hle h.fields⟩
  | _, _, .mapper h => .mapper ⟨h.header.mono hle, h.name, h.queries.imp fun _ _ h => h.mono hle⟩
  | _, _, .controller h =>
    .controller ⟨h.header.mono hle, h.name, h.handlers.imp fun _ _ h => h.mono hle⟩
  | _, _, .api h => .api ⟨h.header.mono hle, h.name, h.members.imp fun _ _ h => h.mono hle⟩
  | _, _, .page h => .page ⟨h.header.mono hle, h.name,
      relOption_mono (fun _ _ h => hle.ref h) h.parent,
      relOption_mono (fun _ _ h => hle.ref h) h.layout, NodeAlike.monoAll hle h.markup⟩
  | _, _, .property h => .property ⟨h.header.mono hle, h.name, h.type.mono hle,
      relOption_mono (fun _ _ h => h.mono hle) h.value⟩
  | _, _, .func h => .func (h.mono hle)

theorem ResultShape.Alike.mono {s s' : ResultShape} (h : s.Alike L s') : s.Alike L' s' :=
  ⟨hle.node h.node, h.name, h.mapper, h.query, Field.Alike.monoAll hle h.columns, hle.pos h.pos⟩

end

/-! ## Documents -/

/-- The numbers of two sessions that belong together. Scopes, places and symbols go by the number that
their file has in the first session. -/
structure Numbers where
  file : FileId → FileId → Prop
  scope : FileId → ScopeId → ScopeId → Prop
  /-- Places in the order of a file. -/
  seq : FileId → Nat → Nat → Prop
  symbol : FileId → SymbolId → SymbolId → Prop
  node : NodeId → NodeId → Prop

namespace Numbers

variable {N N' N'' : Numbers} {exact : Prop}

/-- The second numbers hold the first. -/
structure Le (N N' : Numbers) : Prop where
  file : ∀ {f f'}, N.file f f' → N'.file f f'
  scope : ∀ {f c c'}, N.scope f c c' → N'.scope f c c'
  seq : ∀ {f q q'}, N.seq f q q' → N'.seq f q q'
  symbol : ∀ {f i i'}, N.symbol f i i' → N'.symbol f i i'
  node : ∀ {i i'}, N.node i i' → N'.node i i'

theorem Le.refl (N : Numbers) : N.Le N :=
  ⟨id, id, id, id, id⟩

theorem Le.trans (h : N.Le N') (h' : N'.Le N'') : N.Le N'' :=
  ⟨h'.file ∘ h.file, h'.scope ∘ h.scope, h'.seq ∘ h.seq, h'.symbol ∘ h.symbol, h'.node ∘ h.node⟩

/-- The second numbers hold the first, and no more places than these. -/
structure AddsNoPlace (N N' : Numbers) : Prop where
  le : N.Le N'
  places : ∀ {f q q'}, N'.seq f q q' → N.seq f q q'

theorem AddsNoPlace.refl (N : Numbers) : N.AddsNoPlace N :=
  ⟨.refl N, id⟩

theorem AddsNoPlace.trans (h : N.AddsNoPlace N') (h' : N'.AddsNoPlace N'') : N.AddsNoPlace N'' :=
  ⟨h.le.trans h'.le, h.places ∘ h'.places⟩

/-- Two places, each in a scope and in the order of the same file. -/
def Place (N : Numbers) (c : ScopeId) (q : Nat) (c' : ScopeId) (q' : Nat) : Prop :=
  ∃ f, N.scope f c c' ∧ N.seq f q q'

/-- Two symbols of one file. -/
def Symbols (N : Numbers) (i i' : SymbolId) : Prop :=
  ∃ f, N.symbol f i i'

/-- What is alike if names with this relation between their symbols are. Positions are the same if
`exact` holds. -/
def likeness (N : Numbers) (exact : Prop)
    (targets : Option SymbolId → Option SymbolId → Prop) : Likeness where
  ref r r' := r.name = r'.name ∧ (exact → r.pos = r'.pos) ∧ N.Place r.scope r.seq r'.scope r'.seq ∧
    targets r.target r'.target
  node := N.node
  place := N.Place
  pos p p' := exact → p = p'

def unbound (N : Numbers) (exact : Prop) : Likeness :=
  N.likeness exact fun i i' => i = none ∧ i' = none

def bound (N : Numbers) (exact : Prop) : Likeness :=
  N.likeness exact (Option.Rel N.Symbols)

theorem Le.place (h : N.Le N') {c c' : ScopeId} {q q' : Nat} (hp : N.Place c q c' q') :
    N'.Place c q c' q' :=
  hp.imp fun _ hf => ⟨h.scope hf.1, h.seq hf.2⟩

theorem Le.unbound (h : N.Le N') : (N.unbound exact).Le (N'.unbound exact) where
  ref hr := ⟨hr.1, hr.2.1, h.place hr.2.2.1, hr.2.2.2⟩
  node := h.node
  place := h.place
  pos := id

theorem Le.bound (h : N.Le N') : (N.bound exact).Le (N'.bound exact) where
  ref hr := ⟨hr.1, hr.2.1, h.place hr.2.2.1,
    relOption_mono (fun _ _ hi => hi.imp fun _ => h.symbol) hr.2.2.2⟩
  node := h.node
  place := h.place
  pos := id

end Numbers

/-- Documents of one file whose declarations and shapes are alike. -/
structure Document.Alike (N : Numbers) (L : Likeness) (d d' : Document) : Prop where
  file : N.file d.file d'.file
  path : d.path = d'.path
  origin : d.origin = d'.origin
  scope : N.scope d.file d.scope d'.scope
  imports : d.imports = d'.imports
  decls : List.Forall₂ (Decl.Alike L) d.decls d'.decls
  shapes : List.Forall₂ (ResultShape.Alike L) d.shapes d'.shapes

end Scaffold.Source
