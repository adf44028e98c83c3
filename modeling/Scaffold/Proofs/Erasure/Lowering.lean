import Scaffold.Proofs.Erasure.Loading
import Scaffold.Proofs.Lowering.Contents
import Scaffold.Proofs.Lowering.Records

/-!
# The code model of what is left

Documents that are alike become code models that differ in nothing but where their elements were
declared. Lowering looks at a symbol for its kind, its name and its declaration, and these belong
together in sessions that are abreast.

* `CodeModel.withoutOrigins`: a code model without the places of its declarations.
* `Lowering.documentsModel_alike`: documents that are alike become the same model up to places.
* `Entry.lower_erased`: what is not for the target leaves no trace in the code model.
-/

namespace Scaffold

open Source (Numbers)

/-! ## Models without places -/

namespace Model

def DataType.withoutOrigin (t : DataType) : DataType :=
  { t with origin := default }

def Operation.withoutOrigin (o : Operation) : Operation :=
  { o with origin := default }

/-- A mapper without its place and those of its operations. -/
def DataAccess.withoutOrigins (a : DataAccess) : DataAccess :=
  { a with operations := a.operations.map (·.withoutOrigin), origin := default }

def Route.withoutOrigin (r : Route) : Route :=
  { r with origin := default }

/-- A service without its place and those of its routes. -/
def Service.withoutOrigins (s : Service) : Service :=
  { s with routes := s.routes.map (·.withoutOrigin), origin := default }

def ClientApi.withoutOrigin (a : ClientApi) : ClientApi :=
  { a with origin := default }

def Page.withoutOrigin (p : Page) : Page :=
  { p with origin := default }

def Procedure.withoutOrigin (p : Procedure) : Procedure :=
  { p with origin := default }

def Constant.withoutOrigin (c : Constant) : Constant :=
  { c with origin := default }

end Model

namespace CodeModel

/-- A model without the places of its elements: lines, columns and the numbers of declarations. -/
def withoutOrigins (m : CodeModel) : CodeModel where
  dataTypes := m.dataTypes.map (·.withoutOrigin)
  mappers := m.mappers.map (·.withoutOrigins)
  services := m.services.map (·.withoutOrigins)
  clients := m.clients.map (·.withoutOrigin)
  pages := m.pages.map (·.withoutOrigin)
  procedures := m.procedures.map (·.withoutOrigin)
  constants := m.constants.map (·.withoutOrigin)

theorem withoutOrigins_append (m m' : CodeModel) :
    (m ++ m').withoutOrigins = m.withoutOrigins ++ m'.withoutOrigins := by
  ext1 <;> simp [withoutOrigins]

end CodeModel

/-! ## Lists and options -/

section

variable {α β γ : Type} {R : α → β → Prop}

/-- Functions that agree on related members map lists that are so related to the same list. -/
theorem map_eq_of_forall₂ {f : α → γ} {g : β → γ} (hfg : ∀ a b, R a b → f a = g b) {as : List α}
    {bs : List β} (h : List.Forall₂ R as bs) : as.map f = bs.map g := by
  induction h with
  | nil => rfl
  | cons hab _ ih => rw [List.map_cons, List.map_cons, hfg _ _ hab, ih]

theorem filterMap_eq_of_forall₂ {f : α → Option γ} {g : β → Option γ} (hfg : ∀ a b, R a b → f a = g b)
    {as : List α} {bs : List β} (h : List.Forall₂ R as bs) : as.filterMap f = bs.filterMap g := by
  induction h with
  | nil => rfl
  | cons hab _ ih => rw [List.filterMap_cons, List.filterMap_cons, hfg _ _ hab, ih]

theorem map_eq_of_relOption {f : α → γ} {g : β → γ} (hfg : ∀ a b, R a b → f a = g b) {a : Option α}
    {b : Option β} (h : Option.Rel R a b) : a.map f = b.map g := by
  cases h with
  | none => rfl
  | some hab => exact congrArg some (hfg _ _ hab)

theorem relOption_bind {δ : Type} {S : γ → δ → Prop} {f : α → Option γ} {g : β → Option δ}
    {a : Option α} {b : Option β} (h : Option.Rel R a b)
    (hfg : ∀ x y, a = some x → R x y → Option.Rel S (f x) (g y)) :
    Option.Rel S (a.bind f) (b.bind g) := by
  cases h with
  | none => exact .none
  | some hab => exact hfg _ _ rfl hab

end

/-! ## Declarations with a number -/

theorem Source.Decl.Alike.header {L : Source.Likeness} {d d' : Source.Decl} (h : d.Alike L d') :
    d.header.Alike L d'.header := by
  obtain h | h | h | h | h | h | h | h | h | h | h := h <;> exact h.header

namespace Source.Document.Alike

variable {N : Numbers} {d d' : Document} {i i' : NodeId}

theorem domain? (h : d.Alike N (N.bound False) d') (hN : N.OneToOne) (hi : N.node i i') :
    Option.Rel (Domain.Alike (N.bound False)) (d.domain? i) (d'.domain? i') := by
  have hdecl : Option.Rel (Decl.Alike (N.bound False)) (d.decl? i) (d'.decl? i') := by
    refine Shape.relOption_find? (fun a a' ha => ?_) h.decls
    exact beq_eq_beq.2 (hN.node ha.header.node hi)
  unfold Document.domain?
  generalize d.decl? i = x, d'.decl? i' = x' at hdecl
  cases hdecl with
  | none => exact .none
  | some ha =>
    cases ha with
    | domain hd => exact .some hd
    | _ => exact .none

theorem table? (h : d.Alike N (N.bound False) d') (hN : N.OneToOne) (hi : N.node i i') :
    Option.Rel (Table.Alike (N.bound False)) (d.table? i) (d'.table? i') :=
  Shape.document_table?_alike .inl hN h.decls hi

theorem controller? (h : d.Alike N (N.bound False) d') (hN : N.OneToOne) (hi : N.node i i') :
    Option.Rel (Controller.Alike (N.bound False)) (d.controller? i) (d'.controller? i') := by
  refine Shape.relOption_findSome? (fun a a' ha => ?_) h.decls
  cases ha with
  | @controller c c' hc =>
    have hnumber : (c.header.id == i) = (c'.header.id == i') :=
      beq_eq_beq.2 (hN.node hc.header.node hi)
    dsimp only
    rw [hnumber]
    split
    · exact .some hc
    · exact .none
  | _ => exact .none

end Source.Document.Alike

namespace Lowering

variable {N : Numbers} {env env' : Env}

/-! ## Symbols -/

/-- What lowering reads in two sessions that are abreast. -/
structure Env.Alike (N : Numbers) (env env' : Env) : Prop where
  numbers : N.OneToOne
  platform : env.platform = env'.platform
  tables : env.symbols.TablesAlike N False env'.symbols
  imports : ImportTable.Alike N env.imports env'.imports

/-- The names of a declaration mean what may stand there. -/
def Fits (env : Env) (d : Source.Decl) : Prop :=
  ∀ u ∈ d.uses, ∀ y, target? env u.ref = some y → u.expects.accepts y.kind = true

/-- Symbols of some file that are alike. -/
def Matches (N : Numbers) (y y' : Symbol) : Prop :=
  ∃ f, SymbolTable.SymbolsAlike N False f y y'

section

variable (h : Env.Alike N env env')
include h

theorem target?_alike {r r' : NameRef} (hr : (N.bound False).ref r r') :
    Option.Rel (Matches N) (target? env r) (target? env' r') := by
  refine relOption_bind hr.2.2.2 fun i i' _ hi => ?_
  obtain ⟨f, hi⟩ := hi
  obtain ⟨y, y', hy, hy', hsymbols⟩ := h.tables.symbols hi
  rw [hy, hy']
  exact .some ⟨f, hsymbols⟩

theorem documentOf?_alike {y y' : Symbol} (hy : Matches N y y') :
    Option.Rel (fun d d' => d.Alike N (N.bound False) d') (documentOf? env y) (documentOf? env' y') := by
  obtain ⟨f, hy⟩ := hy
  rw [documentOf?, documentOf?, ← hy.path]
  exact h.imports.get? y.path

/-! ## Types -/

theorem typeWith_alike {domain domain' : Symbol → Model.Ty}
    (hdomain : ∀ y y', Matches N y y' → y.kind = .domain → domain y = domain' y')
    {t t' : Source.TypeRef} (ht : t.Alike (N.bound False) t') :
    typeWith env domain t = typeWith env' domain' t' := by
  induction ht with
  | primitive p => rfl
  | list _ ih => exact congrArg Model.Ty.list ih
  | named hr =>
    have htarget := target?_alike h hr
    rw [typeWith, typeWith]
    generalize target? env _ = x, target? env' _ = x' at htarget
    cases htarget with
    | none => rfl
    | @some y y' hy =>
      obtain ⟨f, hsymbols⟩ := hy
      dsimp only
      rw [← hsymbols.kind, ← hsymbols.name]
      split
      · rename_i hkind
        exact hdomain y y' ⟨f, hsymbols⟩ (by simpa using hkind)
      · rfl

/-- Domains stand for the same types, however deep. -/
theorem domainType_alike : ∀ (depth : Nat) (y y' : Symbol), Matches N y y' → y.kind = .domain →
    domainType env depth y = domainType env' depth y'
  | 0, _, _, _, _ => rfl
  | depth + 1, y, y', hy, hkind => by
    have hdomain : Option.Rel (Source.Domain.Alike (N.bound False))
        ((documentOf? env y).bind (·.domain? y.node))
        ((documentOf? env' y').bind (·.domain? y'.node)) := by
      refine relOption_bind (documentOf?_alike h hy) fun d d' _ hd => ?_
      obtain ⟨f, hsymbols⟩ := hy
      exact hd.domain? h.numbers (hsymbols.node (by rw [hkind]; decide))
    rw [domainType, domainType]
    generalize (documentOf? env y).bind _ = x, (documentOf? env' y').bind _ = x' at hdomain
    cases hdomain with
    | none => rfl
    | some hd => exact typeWith_alike h (domainType_alike depth) hd.type

theorem lowerType_alike {t t' : Source.TypeRef} (ht : t.Alike (N.bound False) t') :
    lowerType env t = lowerType env' t' :=
  typeWith_alike h (domainType_alike h maxDomainDepth) ht

theorem lowerReturns_alike {t t' : Option Source.TypeRef}
    (ht : Option.Rel (Source.TypeRef.Alike (N.bound False)) t t') :
    lowerReturns env t = lowerReturns env' t' := by
  rw [lowerReturns, lowerReturns, map_eq_of_relOption (fun _ _ ht => lowerType_alike h ht) ht]

theorem lowerFields_alike {fs fs' : List Source.Field}
    (hfs : List.Forall₂ (Source.Field.Alike (N.bound False)) fs fs') :
    lowerFields env fs = lowerFields env' fs' :=
  map_eq_of_forall₂ (fun f f' hf => by rw [hf.name, lowerType_alike h hf.type]) hfs

theorem lowerParams_alike {fs fs' : List Source.Field}
    (hfs : List.Forall₂ (Source.Field.Alike (N.bound False)) fs fs') :
    lowerParams env fs = lowerParams env' fs' :=
  map_eq_of_forall₂ (fun f f' hf => by rw [hf.name, lowerType_alike h hf.type]) hfs

theorem tableFields_alike {t t' : Source.Table} (ht : t.Alike (N.bound False) t') :
    tableFields env t = tableFields env' t' := by
  refine map_eq_of_forall₂ (fun c c' hc => ?_) ht.columns
  rw [hc.name, lowerType_alike h hc.type, hc.nullable, hc.auto, hc.default, ht.keys]

/-! ## Expressions and statements -/

omit h

mutual

theorem lowerExpr_alike (h : Env.Alike N env env') : ∀ {e e' : Source.Expr}, e.Alike (N.bound False) e' →
    lowerExpr env e = lowerExpr env' e'
  | _, _, .literal _ => by rw [lowerExpr, lowerExpr]
  | _, _, .name hr => by
    have hkind := map_eq_of_relOption (f := fun y => nameKind y.kind) (g := fun y => nameKind y.kind)
      (fun y y' ⟨_, hy⟩ => congrArg nameKind hy.kind) (target?_alike h hr)
    rw [lowerExpr, lowerExpr, hr.1, hkind]
  | _, _, .member _ he => by rw [lowerExpr, lowerExpr, lowerExpr_alike h he]
  | _, _, .call he hes => by rw [lowerExpr, lowerExpr, lowerExpr_alike h he, lowerExprs_alike h hes]
  | _, _, .native _ _ hes => by rw [lowerExpr, lowerExpr, lowerExprs_alike h hes]
  | _, _, .unary _ he => by rw [lowerExpr, lowerExpr, lowerExpr_alike h he]
  | _, _, .binary _ he he' => by rw [lowerExpr, lowerExpr, lowerExpr_alike h he, lowerExpr_alike h he']

theorem lowerExprs_alike (h : Env.Alike N env env') : ∀ {es es' : List Source.Expr},
    List.Forall₂ (Source.Expr.Alike (N.bound False)) es es' →
    lowerExprs env es = lowerExprs env' es'
  | _, _, .nil => by rw [lowerExprs, lowerExprs]
  | _, _, .cons he hes => by rw [lowerExprs, lowerExprs, lowerExpr_alike h he, lowerExprs_alike h hes]

end

theorem lowerIter_alike (h : Env.Alike N env env') : ∀ {i i' : Source.ForIter}, i.Alike (N.bound False) i' →
    lowerIter env i = lowerIter env' i'
  | _, _, .range he he' => by rw [lowerIter, lowerIter, lowerExpr_alike h he, lowerExpr_alike h he']
  | _, _, .each he => by rw [lowerIter, lowerIter, lowerExpr_alike h he]

theorem lowerExpr_map_alike (h : Env.Alike N env env') {e e' : Option Source.Expr}
    (he : Option.Rel (Source.Expr.Alike (N.bound False)) e e') :
    e.map (lowerExpr env) = e'.map (lowerExpr env') :=
  map_eq_of_relOption (fun _ _ he => lowerExpr_alike h he) he

mutual

theorem lowerStmt_alike (h : Env.Alike N env env') : ∀ {s s' : Source.Stmt}, s.Alike (N.bound False) s' →
    lowerStmt env s = lowerStmt env' s'
  | _, _, .declare _ _ htype hinit => by
    rw [lowerStmt, lowerStmt, lowerExpr_map_alike h hinit,
      map_eq_of_relOption (fun _ _ ht => lowerType_alike h ht) htype]
  | _, _, .assign _ he he' => by
    rw [lowerStmt, lowerStmt, lowerExpr_alike h he, lowerExpr_alike h he']
  | _, _, .cond _ he hyes hno => by
    rw [lowerStmt, lowerStmt, lowerExpr_alike h he, lowerBlock_alike h hyes, lowerElse_alike h hno]
  | _, _, .loop _ he hbody => by
    rw [lowerStmt, lowerStmt, lowerExpr_alike h he, lowerBlock_alike h hbody]
  | _, _, .each _ _ hiter hbody => by
    rw [lowerStmt, lowerStmt, lowerIter_alike h hiter, lowerBlock_alike h hbody]
  | _, _, .ret _ he => by rw [lowerStmt, lowerStmt, lowerExpr_map_alike h he]
  | _, _, .leave _ => by rw [lowerStmt, lowerStmt]
  | _, _, .next _ => by rw [lowerStmt, lowerStmt]
  | _, _, .expr _ he => by rw [lowerStmt, lowerStmt, lowerExpr_alike h he]

theorem lowerBlock_alike (h : Env.Alike N env env') : ∀ {ss ss' : List Source.Stmt},
    List.Forall₂ (Source.Stmt.Alike (N.bound False)) ss ss' →
    lowerBlock env ss = lowerBlock env' ss'
  | _, _, .nil => by rw [lowerBlock, lowerBlock]
  | _, _, .cons hs hss => by rw [lowerBlock, lowerBlock, lowerStmt_alike h hs, lowerBlock_alike h hss]

theorem lowerElse_alike (h : Env.Alike N env env') : ∀ {ss ss' : Option (List Source.Stmt)},
    Option.Rel (List.Forall₂ (Source.Stmt.Alike (N.bound False))) ss ss' →
    lowerElse env ss = lowerElse env' ss'
  | _, _, .none => by rw [lowerElse, lowerElse]
  | _, _, .some hss => by rw [lowerElse, lowerElse, lowerBlock_alike h hss]

end

mutual

theorem lowerMarkupNode_alike {L : Source.Likeness} : ∀ {n n' : MarkupNode},
    Source.NodeAlike L n n' → lowerMarkupNode n = lowerMarkupNode n'
  | _, _, .element _ _ hcomponent hs => by
    rw [lowerMarkupNode, lowerMarkupNode, lowerMarkup_alike hs]
    cases hcomponent <;> rfl
  | _, _, .text _ => rfl
  | _, _, .interpolation _ => rfl

theorem lowerMarkup_alike {L : Source.Likeness} : ∀ {ns ns' : List MarkupNode},
    List.Forall₂ (Source.NodeAlike L) ns ns' → lowerMarkup ns = lowerMarkup ns'
  | _, _, .nil => rfl
  | _, _, .cons hn hns => by
    rw [lowerMarkup, lowerMarkup, lowerMarkupNode_alike hn, lowerMarkup_alike hns]

end

include h

/-! ## Data types -/

theorem lowerDomain_alike {d d' : Source.Domain} (hd : d.Alike (N.bound False) d') :
    (lowerDomain env d).withoutOrigin = (lowerDomain env' d').withoutOrigin := by
  simp only [lowerDomain, Model.DataType.withoutOrigin, hd.name, lowerType_alike h hd.type]

theorem lowerTable_alike {t t' : Source.Table} (ht : t.Alike (N.bound False) t') :
    (lowerTable env t).withoutOrigin = (lowerTable env' t').withoutOrigin := by
  have hindexes : t.indexes.map (fun i => (⟨i.name, i.columns, i.unique⟩ : Model.Index))
      = t'.indexes.map fun i => ⟨i.name, i.columns, i.unique⟩ :=
    map_eq_of_forall₂ (fun i i' hi => by rw [hi.name, hi.columns, hi.unique]) ht.indexes
  simp only [lowerTable, Model.DataType.withoutOrigin, ht.name, tableFields_alike h ht, ht.keys,
    hindexes]

/-- An entity has tables that are alike behind it, since no variable stands for a table. -/
theorem baseTable?_alike {e e' : Source.Entity} (he : e.Alike (N.bound False) e')
    (hfits : Fits env (.entity e)) :
    Option.Rel (Source.Table.Alike (N.bound False)) (baseTable? env e) (baseTable? env' e') := by
  refine relOption_bind he.table fun r r' hr href => ?_
  refine relOption_bind (target?_alike h href) fun y y' hy hsymbols => ?_
  have hkind : y.kind = .table := by
    have huse : ⟨.table, r⟩ ∈ (Source.Decl.entity e).uses := by simp [Source.Decl.uses, hr]
    simpa [Source.Expectation.accepts] using hfits _ huse y hy
  refine relOption_bind (documentOf?_alike h hsymbols) fun d d' _ hd => ?_
  obtain ⟨f, hsymbols⟩ := hsymbols
  exact hd.table? h.numbers (hsymbols.node (by rw [hkind]; decide))

theorem lowerEntity_alike {e e' : Source.Entity} (he : e.Alike (N.bound False) e')
    (hfits : Fits env (.entity e)) :
    (lowerEntity env e).withoutOrigin = (lowerEntity env' e').withoutOrigin := by
  have hentity : ∀ (env : Env) (e : Source.Entity), lowerEntity env e =
      { name := e.name, kind := .entity
        fields := ((baseTable? env e).map (tableFields env)).getD [] ++ lowerFields env e.fields
        keys := ((baseTable? env e).map (·.keys)).getD [], table := (baseTable? env e).map (·.name)
        origin := originOf e.header } := fun _ _ => rfl
  have hbase := baseTable?_alike h he hfits
  have hfields := map_eq_of_relOption (fun _ _ ht => tableFields_alike h ht) hbase
  have hkeys : (baseTable? env e).map (·.keys) = (baseTable? env' e').map (·.keys) :=
    map_eq_of_relOption (fun _ _ ht => ht.keys) hbase
  have hname : (baseTable? env e).map (·.name) = (baseTable? env' e').map (·.name) :=
    map_eq_of_relOption (fun _ _ ht => ht.name) hbase
  simp only [hentity, Model.DataType.withoutOrigin, he.name, hfields, hkeys, hname,
    lowerFields_alike h he.fields]

theorem lowerRecord_alike {r r' : Source.Record} (hr : r.Alike (N.bound False) r') :
    (lowerRecord env r).withoutOrigin = (lowerRecord env' r').withoutOrigin := by
  simp only [lowerRecord, Model.DataType.withoutOrigin, hr.name, lowerFields_alike h hr.fields]

theorem lowerShape_alike {s s' : Source.ResultShape} (hs : s.Alike (N.bound False) s') :
    (lowerShape env s).withoutOrigin = (lowerShape env' s').withoutOrigin := by
  simp only [lowerShape, Model.DataType.withoutOrigin, hs.name, lowerFields_alike h hs.columns]

/-! ## Mappers -/

theorem operationOf_alike {q q' : Source.Query} (hq : q.Alike (N.bound False) q') :
    (operationOf env q).withoutOrigin = (operationOf env' q').withoutOrigin := by
  simp only [operationOf, Model.Operation.withoutOrigin, hq.name, hq.sql, lowerParams_alike h hq.params,
    lowerReturns_alike h hq.returns]

omit h in
/-- Parameters of the same names. -/
theorem any_name_alike {L : Source.Likeness} {fs fs' : List Source.Field}
    (hfs : List.Forall₂ (Source.Field.Alike L) fs fs') (name : String) :
    fs.any (·.name == name) = fs'.any (·.name == name) :=
  Source.Shape.any_eq_of_forall₂ (fun _ _ hf => by rw [hf.name]) hfs

omit h in
theorem isBound_alike {L : Source.Likeness} {q q' : Source.Query} (hq : q.Alike L q') :
    isBound q = isBound q' := by
  rw [isBound, isBound, hq.sql, funext (any_name_alike hq.params)]

theorem mapperOf_alike {m m' : Source.Mapper} (hm : m.Alike (N.bound False) m') :
    (mapperOf env m).withoutOrigins = (mapperOf env' m').withoutOrigins := by
  have hqueries : List.Forall₂ (Source.Query.Alike (N.bound False)) (m.queries.filter isBound)
      (m'.queries.filter isBound) :=
    List.rel_filter (fun _ _ hq => Bool.coe_iff_coe.2 (isBound_alike hq)) hm.queries
  have hoperations := map_eq_of_forall₂ (fun _ _ hq => operationOf_alike h hq) hqueries
  simp only [mapperOf, Model.DataAccess.withoutOrigins, hm.name, hm.header.annotations, List.map_map,
    Function.comp_def, hoperations]

/-! ## Routes and calls -/

omit h in
theorem handlerAddress?_alike {L : Source.Likeness} {c c' : Source.Controller} (hc : c.Alike L c')
    {f f' : Source.Func} (hf : f.Alike L f') : handlerAddress? c f = handlerAddress? c' f' := by
  rw [handlerAddress?, handlerAddress?, hc.header.annotations, hf.header.annotations]

theorem spec?_alike {c c' : Source.Controller} (hc : c.Alike (N.bound False) c')
    {f f' : Source.Func} (hf : f.Alike (N.bound False) f') : spec? env c f = spec? env' c' f' := by
  have hbindings : ∀ placeholders body, (f.params.map fun p =>
        ({ name := p.name, type := lowerType env p.type
           source := bindingSource placeholders body p.name } : Model.Binding))
      = f'.params.map fun p =>
        { name := p.name, type := lowerType env' p.type
          source := bindingSource placeholders body p.name } := fun _ _ =>
    map_eq_of_forall₂ (fun p p' hp => by rw [hp.name, lowerType_alike h hp.type]) hf.params
  rw [spec?, spec?, handlerAddress?_alike hc hf, hf.header.annotations,
    lowerReturns_alike h hf.returns]
  simp only [any_name_alike hf.params, hbindings]

theorem routesOf_alike {c c' : Source.Controller} (hc : c.Alike (N.bound False) c') :
    (routesOf env c c.handlers).map (·.withoutOrigin)
      = (routesOf env' c' c'.handlers).map (·.withoutOrigin) := by
  rw [routesOf, routesOf, List.map_filterMap, List.map_filterMap]
  refine filterMap_eq_of_forall₂ (fun f f' hf => ?_) hc.handlers
  rw [spec?_alike h hc hf, Option.map_map, Option.map_map]
  refine congrArg (Option.map · _) (funext fun spec => ?_)
  simp only [Function.comp_apply, routeOf, Model.Route.withoutOrigin, hf.name, hf.header.annotations,
    lowerBlock_alike h hf.body]

theorem serviceOf_alike {c c' : Source.Controller} (hc : c.Alike (N.bound False) c') :
    (serviceOf env c).withoutOrigins = (serviceOf env' c').withoutOrigins := by
  simp only [serviceOf, Model.Service.withoutOrigins, hc.name, hc.header.annotations,
    routesOf_alike h hc]

theorem callsOf_alike {c c' : Source.Controller} (hc : c.Alike (N.bound False) c')
    {fs fs' : List Source.Func} (hfs : List.Forall₂ (Source.Func.Alike (N.bound False)) fs fs') :
    callsOf env c fs = callsOf env' c' fs' := by
  refine filterMap_eq_of_forall₂ (fun f f' hf => ?_) hfs
  rw [spec?_alike h hc hf]
  refine congrArg (Option.map · _) (funext fun spec => ?_)
  simp only [callOf, hf.name, hc.name, hf.header.annotations]

omit h in
theorem memberHandlers_alike {L : Source.Likeness} {m m' : Source.ApiMember} (hm : m.Alike L m')
    {c c' : Source.Controller} (hc : c.Alike L c') :
    List.Forall₂ (Source.Func.Alike L) (memberHandlers m c) (memberHandlers m' c') := by
  rw [memberHandlers, memberHandlers, ← hm.handler]
  split
  · exact hc.handlers
  · exact Source.Shape.forall₂_toList
      (Source.Shape.relOption_find? (fun _ _ hf => by rw [hf.name]) hc.handlers)

/-- A member of a client refers to controllers that are alike, since no variable stands for one. -/
theorem memberCalls_alike {m m' : Source.ApiMember} (hm : m.Alike (N.bound False) m')
    (hkind : ∀ y, target? env m.controller = some y → y.kind = .controller) :
    memberCalls env m = memberCalls env' m' := by
  have hcontroller : Option.Rel (fun x x' : Source.Document × Source.Controller =>
      x.2.Alike (N.bound False) x'.2) (memberController? env m) (memberController? env' m') := by
    unfold memberController?
    refine relOption_bind (target?_alike h hm.controller) fun y y' hy hsymbols => ?_
    refine relOption_bind (documentOf?_alike h hsymbols) fun d d' _ hd => ?_
    obtain ⟨f, hsymbols⟩ := hsymbols
    have hnode := hsymbols.node (by rw [hkind y hy]; decide)
    exact relOption_bind (hd.controller? h.numbers hnode) fun _ _ _ hc => .some hc
  rw [memberCalls, memberCalls]
  generalize memberController? env m = x, memberController? env' m' = x' at hcontroller
  cases hcontroller with
  | none => rfl
  | some hc => exact callsOf_alike h hc (memberHandlers_alike hm hc)

theorem clientOf_alike {a a' : Source.Api} (ha : a.Alike (N.bound False) a')
    (hfits : Fits env (.api a)) :
    (clientOf env a).withoutOrigin = (clientOf env' a').withoutOrigin := by
  have hkind : ∀ m ∈ a.members, ∀ y, target? env m.controller = some y → y.kind = .controller := by
    intro m hm y hy
    have huse : ⟨.controller, m.controller⟩ ∈ (Source.Decl.api a).uses :=
      List.mem_map_of_mem (f := fun m : Source.ApiMember => Source.Use.mk .controller m.controller) hm
    simpa [Source.Expectation.accepts] using hfits _ huse y hy
  have hcalls : a.members.flatMap (memberCalls env) = a'.members.flatMap (memberCalls env') := by
    have hmembers := ha.members
    generalize a.members = ms, a'.members = ms' at hmembers hkind
    induction hmembers with
    | nil => rw [List.flatMap_nil, List.flatMap_nil]
    | cons hm _ ih =>
      rw [List.flatMap_cons, List.flatMap_cons,
        memberCalls_alike h hm (hkind _ List.mem_cons_self),
        ih fun m hm => hkind m (List.mem_cons_of_mem _ hm)]
  simp only [clientOf, Model.ClientApi.withoutOrigin, ha.name, ha.header.annotations, hcalls]

/-! ## Declarations and documents -/

omit h in
theorem lowerPage_alike {L : Source.Likeness} (hL : ∀ r r', L.ref r r' → r.name = r'.name)
    {p p' : Source.Page} (hp : p.Alike L p') :
    (lowerPage p).withoutOrigin = (lowerPage p').withoutOrigin := by
  simp only [lowerPage, Model.Page.withoutOrigin, hp.name, hp.header.annotations,
    map_eq_of_relOption hL hp.parent, map_eq_of_relOption hL hp.layout, lowerMarkup_alike hp.markup]

theorem lowerProperty_alike {p p' : Source.Property} (hp : p.Alike (N.bound False) p') :
    (lowerProperty env p).withoutOrigin = (lowerProperty env' p').withoutOrigin := by
  simp only [lowerProperty, Model.Constant.withoutOrigin, hp.name, lowerType_alike h hp.type,
    lowerExpr_map_alike h hp.value]

theorem lowerFunc_alike {f f' : Source.Func} (hf : f.Alike (N.bound False) f') :
    (lowerFunc env f).withoutOrigin = (lowerFunc env' f').withoutOrigin := by
  simp only [lowerFunc, Model.Procedure.withoutOrigin, hf.name, lowerParams_alike h hf.params,
    lowerReturns_alike h hf.returns, lowerBlock_alike h hf.body]

theorem declModel_alike {d d' : Source.Decl} (hd : d.Alike (N.bound False) d') (hfits : Fits env d) :
    (declModel env d).withoutOrigins = (declModel env' d').withoutOrigins := by
  cases hd with
  | importFile _ => rfl
  | domain hd => ext1 <;> simp [declModel, CodeModel.withoutOrigins, lowerDomain_alike h hd]
  | table hd => ext1 <;> simp [declModel, CodeModel.withoutOrigins, lowerTable_alike h hd]
  | entity hd => ext1 <;> simp [declModel, CodeModel.withoutOrigins, lowerEntity_alike h hd hfits]
  | record hd => ext1 <;> simp [declModel, CodeModel.withoutOrigins, lowerRecord_alike h hd]
  | mapper hd => ext1 <;> simp [declModel, CodeModel.withoutOrigins, mapperOf_alike h hd]
  | controller hd => ext1 <;> simp [declModel, CodeModel.withoutOrigins, serviceOf_alike h hd]
  | api hd => ext1 <;> simp [declModel, CodeModel.withoutOrigins, clientOf_alike h hd hfits]
  | page hd =>
    have hpage := lowerPage_alike (L := N.bound False) (fun _ _ hr => hr.1) hd
    ext1 <;> simp [declModel, CodeModel.withoutOrigins, hpage]
  | property hd => ext1 <;> simp [declModel, CodeModel.withoutOrigins, lowerProperty_alike h hd]
  | func hd => ext1 <;> simp [declModel, CodeModel.withoutOrigins, lowerFunc_alike h hd]

theorem declPart_alike {d d' : Source.Decl} (hd : d.Alike (N.bound False) d') (hfits : Fits env d) :
    (declPart env d).withoutOrigins = (declPart env' d').withoutOrigins := by
  have hcategory : category? d = category? d' := by cases hd <;> rfl
  have hexpresses : env.expresses = env'.expresses := by
    funext category
    rw [Env.expresses, Env.expresses, h.platform]
  rw [declPart, declPart, hcategory, hexpresses]
  split
  · exact declModel_alike h hd hfits
  · rfl

theorem documentModel_alike {d d' : Source.Document} (hd : d.Alike N (N.bound False) d')
    (hfits : ∀ x ∈ d.decls, Fits env x) :
    (documentModel env d).withoutOrigins = (documentModel env' d').withoutOrigins := by
  have hdecls := hd.decls
  rw [documentModel, documentModel]
  generalize d.decls = xs, d'.decls = xs' at hdecls hfits
  induction hdecls with
  | nil =>
    have hshapes := map_eq_of_forall₂ (fun _ _ hs => lowerShape_alike h hs) hd.shapes
    ext1 <;> simp [CodeModel.withoutOrigins, Function.comp_def, hshapes]
  | cons hx _ ih =>
    rw [List.foldr_cons, List.foldr_cons, CodeModel.withoutOrigins_append,
      CodeModel.withoutOrigins_append, declPart_alike h hx (hfits _ List.mem_cons_self),
      ih fun x hx => hfits x (List.mem_cons_of_mem _ hx)]

theorem documentsModel_alike {ds ds' : List Source.Document}
    (hds : List.Forall₂ (fun d d' => d.Alike N (N.bound False) d') ds ds')
    (hfits : ∀ d ∈ ds, ∀ x ∈ d.decls, Fits env x) :
    (documentsModel env ds).withoutOrigins = (documentsModel env' ds').withoutOrigins := by
  unfold documentsModel
  induction hds with
  | nil => rw [List.foldr_nil, List.foldr_nil]
  | cons hd _ ih =>
    rw [List.foldr_cons, List.foldr_cons, CodeModel.withoutOrigins_append,
      CodeModel.withoutOrigins_append, documentModel_alike h hd (hfits _ List.mem_cons_self),
      ih fun d hd => hfits d (List.mem_cons_of_mem _ hd)]

end

end Lowering

/-! ## Programs -/

namespace Session.Abreast

variable {N : Numbers} {s s' : Session}

theorem loweringEnv (h : s.Abreast N s') : Lowering.Env.Alike N s.loweringEnv s'.loweringEnv :=
  ⟨h.inStep.numbers, h.inStep.platform, h.inStep.tables, h.imports⟩

theorem projectDocuments (h : s.Abreast N s') :
    List.Forall₂ (fun d d' => d.Alike N (N.bound False) d') s.projectDocuments
      s'.projectDocuments := by
  refine List.rel_filter (fun d d' hd => ?_) h.imports.documents
  have horigin : d.origin = d'.origin := hd.origin
  simp only [horigin]

end Session.Abreast

namespace Source

/-- The import statements of a text are for the target. -/
def ImportsStay (platform : Option Platform) (text : String) : Prop :=
  ∀ ts, tokenize text = .ok ts → ∀ d ∈ cut {} ts,
    leadingKind d = .keyword .importKw → isExcluded platform d = false

/-- A text is what is left of another one without the declarations, queries and handlers that are not
for the target. With `imports` an import statement is a declaration like the others, and all of them are
for the target; otherwise import statements stay whatever their annotations say. -/
structure Erases (imports : Bool) (platform : Option Platform) (text text' : String) : Prop where
  erased : ErasedText imports platform text text'
  stay : imports = true → ImportsStay platform text

theorem Erases.withImports {imports : Bool} {platform : Option Platform} {text text' : String}
    (h : Erases imports platform text text') : ErasedText false platform text text' := by
  intro ts hts
  cases imports with
  | false => exact h.erased ts hts
  | true =>
    obtain ⟨ts', hts', hkinds⟩ := h.erased ts hts
    exact ⟨ts', hts', erasure_of_imports true platform (h.stay rfl ts hts) ▸ hkinds⟩

section

variable (imports : Bool) (platform : Option Platform) (text text' : String)

instance (ts ts' : List Token) : Decidable (SameKinds ts ts') :=
  inferInstanceAs (Decidable (_ = _))

instance : Decidable (ImportsStay platform text) :=
  inferInstanceAs (Decidable (∀ ts, tokenize text = .ok ts → ∀ d ∈ cut {} ts, _))

instance : Decidable (ErasedText imports platform text text') :=
  inferInstanceAs (Decidable (∀ ts, tokenize text = .ok ts → ∃ ts', tokenize text' = .ok ts' ∧ _))

instance : Decidable (Erases imports platform text text') :=
  decidable_of_iff (ErasedText imports platform text text' ∧
    (imports = true → ImportsStay platform text)) ⟨fun h => ⟨h.1, h.2⟩, fun h => ⟨h.erased, h.stay⟩⟩

end

end Source

namespace Entry

open Source (ErasedText Erases)

variable {tree tree' : FileTree} {platform : Option Platform} {e e' : Entry} {d : Source.Document}
  {s t : Session} {model : CodeModel}

/-- Without errors, names are bound to what may stand there. -/
theorem fits (h : e.compile tree platform = (.ok d, s)) (hclean : s.Clean) :
    ∀ d' ∈ s.projectDocuments, ∀ x ∈ d'.decls, Lowering.Fits s.loweringEnv x := by
  obtain ⟨-, -, hsound⟩ := compile_sound h hclean
  intro d' hd' x hx u hu y hy
  obtain ⟨p, -, hp⟩ := List.mem_filterMap.1 (List.mem_filter.1 hd').1
  have huse : u ∈ d'.uses := List.mem_append_left _ (List.mem_flatMap.2 ⟨x, hx, hu⟩)
  obtain ⟨id, symbol, htarget, hsymbol, -, hkind⟩ := (hsound.docs hp).uses u huse
  have hfound : Lowering.target? s.loweringEnv u.ref = some symbol := by
    rw [Lowering.target?, htarget, Option.bind_some]
    exact hsymbol
  cases hfound.symm.trans hy
  exact hkind

/-- What is not for the target leaves no trace in the code model. The files of a second program are
those of the first without the declarations, queries and handlers that are not for the target; import
statements stay, or all of them are for the target. If the first program compiles and lowers without
errors, the second one compiles, and where it lowers, the code models differ in nothing but the places
of their elements. -/
theorem lower_erased {imports : Bool} (htree : tree.Alike (Erases imports platform) tree')
    (he : e.Alike (Erases imports platform) e') (hrun : e.compile tree platform = (.ok d, s))
    (hlower : s.lower = (.ok model, t)) (hclean : t.diagnostics.hasErrors = false) :
    ∃ d' s', e'.compile tree' platform = (.ok d', s') ∧
      ∀ model' t', s'.lower = (.ok model', t') → model'.withoutOrigins = model.withoutOrigins := by
  obtain ⟨hmodel, more, hmore, -⟩ := (compile_worked hrun).lower_model hlower
  have hcompiled : s.Clean := Session.Clean.of_append hclean ⟨more, hmore⟩
  obtain ⟨N, d', s', hrun', hs, -⟩ := compile_abreast (htree.mono fun _ _ h => h.withImports)
    (he.mono fun _ _ h => h.withImports) hrun hcompiled
  refine ⟨d', s', hrun', fun model' t' hlower' => ?_⟩
  rw [((compile_worked hrun').lower_model hlower').1, hmodel]
  exact (Lowering.documentsModel_alike hs.loweringEnv hs.projectDocuments (fits hrun hcompiled)).symm

/-- Files with a record, a function and a query that are for Java only. -/
def conditionalTree : FileTree :=
  { entries := [(["b.jssp"], .file ("struct B \x7b x int; \x7d " ++
        "[platform='java'] struct C \x7b y int; \x7d")),
      (["main.jssp"], .file ("[platform='java'] func f(b int) \x7b var c = b; \x7d " ++
        "import 'b.jssp'; struct A \x7b x B; \x7d mapper M \x7b " ++
        "[platform='java'] query p() \x7b delete from t \x7d query q() \x7b delete from u \x7d \x7d"))] }

/-- The same files without these. -/
def unconditionalTree : FileTree :=
  { entries := [(["b.jssp"], .file "struct B \x7b x int; \x7d"),
      (["main.jssp"], .file ("import 'b.jssp'; struct A \x7b x B; \x7d mapper M \x7b " ++
        "query q() \x7b delete from u \x7d \x7d"))] }

/-- In a server in Go nothing is left of what is for Java. -/
theorem lower_erased_members :
    let e : Entry := .file ⟨"main.jssp"⟩ []
    conditionalTree.Alike (Erases true (some .gin)) unconditionalTree ∧
    ∃ d s model t d' s' model' t', e.compile conditionalTree (some .gin) = (.ok d, s) ∧
      s.lower = (.ok model, t) ∧ t.diagnostics.hasErrors = false ∧
      e.compile unconditionalTree (some .gin) = (.ok d', s') ∧ s'.lower = (.ok model', t') ∧
      model.dataTypes.map (·.name) = ["B", "A"] ∧
      model.mappers.map (·.operations.map (·.name)) = [["q"]] ∧
      model'.withoutOrigins = model.withoutOrigins := by
  intro e
  have htree : conditionalTree.Alike (Erases true (some .gin)) unconditionalTree := by
    refine ⟨.cons ⟨rfl, .file (by decide +kernel)⟩ (.cons ⟨rfl, .file ⟨?_, fun _ => ?_⟩⟩ .nil), rfl⟩
    · rw [ErasedText, tokenize_of_hasChars (.append (.append rfl rfl) rfl),
        tokenize_of_hasChars (.append rfl rfl)]
      decide +kernel
    · rw [Source.ImportsStay, tokenize_of_hasChars (.append (.append rfl rfl) rfl)]
      decide +kernel
  have hfacts : (e.compile conditionalTree (some .gin)).1.isOk = true ∧
      (e.compile conditionalTree (some .gin)).2.lower.1.isOk = true ∧
      (e.compile conditionalTree (some .gin)).2.lower.2.diagnostics.hasErrors = false ∧
      (e.compile conditionalTree (some .gin)).2.lower.1.toOption.map (fun model =>
        (model.dataTypes.map (·.name), model.mappers.map (·.operations.map (·.name))))
          = some (["B", "A"], [["q"]]) ∧
      (e.compile unconditionalTree (some .gin)).2.lower.1.isOk = true := by
    rw [show e.compile conditionalTree (some .gin) = _ from compile_file conditionalTree
        (.cons (.append rfl rfl) (.cons (.append (.append rfl rfl) rfl) .nil)) _,
      show e.compile unconditionalTree (some .gin) = _ from compile_file unconditionalTree
        (.cons rfl (.cons (.append rfl rfl) .nil)) _]
    decide +kernel
  obtain ⟨hok, hlowers, hclean, hnames, hlowers'⟩ := hfacts
  obtain ⟨d, hd⟩ := exists_of_isOk hok
  obtain ⟨model, hmodel⟩ := exists_of_isOk hlowers
  obtain ⟨model', hmodel'⟩ := exists_of_isOk hlowers'
  obtain ⟨d', s', hd', hsame⟩ := lower_erased htree (.file _ _) hd hmodel hclean
  rw [hd'] at hmodel'
  rw [hmodel] at hnames
  obtain ⟨htypes, hmappers⟩ := Prod.mk.inj (Option.some.inj hnames)
  exact ⟨htree, d, _, model, _, d', s', model', _, hd, hmodel, hclean, hd', hmodel', htypes, hmappers,
    hsame model' _ hmodel'⟩

/-- A file with an import statement that is for Java only. -/
def importingTree : FileTree :=
  { entries := [(["b.jssp"], .file "struct B \x7b y int; \x7d"),
      (["main.jssp"], .file "[platform='java'] import 'b.jssp'; struct A \x7b x int; \x7d")] }

/-- The same file without it. -/
def aloneTree : FileTree :=
  { entries := [(["b.jssp"], .file "struct B \x7b y int; \x7d"),
      (["main.jssp"], .file "struct A \x7b x int; \x7d")] }

/-- A file is imported whatever the annotations of the import statement say, so its record is in the code
model for Python, too. Without the import statement it is not. -/
theorem lower_imports_excluded :
    let e : Entry := .file ⟨"main.jssp"⟩ []
    importingTree.Alike (ErasedText true (some .python)) aloneTree ∧
    ∃ d s model t d' s' model' t', e.compile importingTree (some .python) = (.ok d, s) ∧
      s.lower = (.ok model, t) ∧ t.diagnostics.hasErrors = false ∧
      e.compile aloneTree (some .python) = (.ok d', s') ∧ s'.lower = (.ok model', t') ∧
      t'.diagnostics.hasErrors = false ∧ model.dataTypes.map (·.name) = ["B", "A"] ∧
      model'.dataTypes.map (·.name) = ["A"] ∧ model'.withoutOrigins ≠ model.withoutOrigins := by
  intro e
  have htree : importingTree.Alike (ErasedText true (some .python)) aloneTree :=
    ⟨.cons ⟨rfl, .file (by decide +kernel)⟩ (.cons ⟨rfl, .file (by decide +kernel)⟩ .nil), rfl⟩
  have hfacts : (e.compile importingTree (some .python)).1.isOk = true ∧
      (e.compile importingTree (some .python)).2.lower.2.diagnostics.hasErrors = false ∧
      (e.compile importingTree (some .python)).2.lower.1.toOption.map
        (·.dataTypes.map (·.name)) = some ["B", "A"] ∧
      (e.compile aloneTree (some .python)).1.isOk = true ∧
      (e.compile aloneTree (some .python)).2.lower.2.diagnostics.hasErrors = false ∧
      (e.compile aloneTree (some .python)).2.lower.1.toOption.map
        (·.dataTypes.map (·.name)) = some ["A"] := by
    decide +kernel
  obtain ⟨hok, hclean, hnames, hok', hclean', hnames'⟩ := hfacts
  obtain ⟨d, hd⟩ := exists_of_isOk hok
  obtain ⟨d', hd'⟩ := exists_of_isOk hok'
  rcases hlower : (e.compile importingTree (some .python)).2.lower with ⟨_ | model, t⟩ <;>
    rw [hlower] at hnames hclean
  · cases hnames
  rcases hlower' : (e.compile aloneTree (some .python)).2.lower with ⟨_ | model', t'⟩ <;>
    rw [hlower'] at hnames' hclean'
  · cases hnames'
  have htypes : model.dataTypes.map (·.name) = ["B", "A"] := Option.some.inj hnames
  have htypes' : model'.dataTypes.map (·.name) = ["A"] := Option.some.inj hnames'
  refine ⟨htree, d, _, model, t, d', _, model', t', hd, hlower, hclean, hd', hlower', hclean', htypes,
    htypes', fun hsame => ?_⟩
  have hlengths := congrArg (fun m : CodeModel => m.dataTypes.length) hsame
  simp only [CodeModel.withoutOrigins, List.length_map] at hlengths
  have hlength := congrArg List.length htypes
  have hlength' := congrArg List.length htypes'
  rw [List.length_map] at hlength hlength'
  rw [hlength, hlength'] at hlengths
  cases hlengths

end Entry

end Scaffold
