import Mathlib.Data.List.Flatten
import Mathlib.Data.List.Perm.Subperm
import Scaffold.Proofs.Lowering
import Scaffold.Proofs.Numbering

/-!
# What the code model contains

Lowering reads the declarations of the documents once, in order, and each of them goes to the list of
its category, or is left out with a warning.

* `mapperOf`, `serviceOf`, `clientOf`: what declarations with members become, as functions.
* `Makes`: a step that succeeds has this value, and adds this to the model and these warnings about
  what is left out. `allDocuments_makes` puts the steps together.
* `Session.lower_contents`: the lists of the model, the numbers in it, and the warnings.
-/

namespace Scaffold

namespace CodeModel

/-- The elements of one model, and then those of another one. -/
def append (m m' : CodeModel) : CodeModel where
  dataTypes := m.dataTypes ++ m'.dataTypes
  mappers := m.mappers ++ m'.mappers
  services := m.services ++ m'.services
  clients := m.clients ++ m'.clients
  pages := m.pages ++ m'.pages
  procedures := m.procedures ++ m'.procedures
  constants := m.constants ++ m'.constants

instance : Append CodeModel := ⟨append⟩

@[simp] theorem dataTypes_append (m m' : CodeModel) :
    (m ++ m').dataTypes = m.dataTypes ++ m'.dataTypes := rfl

@[simp] theorem mappers_append (m m' : CodeModel) : (m ++ m').mappers = m.mappers ++ m'.mappers := rfl

@[simp] theorem services_append (m m' : CodeModel) :
    (m ++ m').services = m.services ++ m'.services := rfl

@[simp] theorem clients_append (m m' : CodeModel) : (m ++ m').clients = m.clients ++ m'.clients := rfl

@[simp] theorem pages_append (m m' : CodeModel) : (m ++ m').pages = m.pages ++ m'.pages := rfl

@[simp] theorem procedures_append (m m' : CodeModel) :
    (m ++ m').procedures = m.procedures ++ m'.procedures := rfl

@[simp] theorem constants_append (m m' : CodeModel) :
    (m ++ m').constants = m.constants ++ m'.constants := rfl

@[ext] theorem ext_fields {m m' : CodeModel} (hdata : m.dataTypes = m'.dataTypes)
    (hmappers : m.mappers = m'.mappers) (hservices : m.services = m'.services)
    (hclients : m.clients = m'.clients) (hpages : m.pages = m'.pages)
    (hprocedures : m.procedures = m'.procedures) (hconstants : m.constants = m'.constants) :
    m = m' := by
  cases m
  cases m'
  simp_all

@[simp] theorem append_empty (m : CodeModel) : m ++ ({} : CodeModel) = m := by
  ext1 <;> simp

@[simp] theorem empty_append (m : CodeModel) : ({} : CodeModel) ++ m = m := rfl

theorem append_assoc (m m' m'' : CodeModel) : m ++ m' ++ m'' = m ++ (m' ++ m'') := by
  ext1 <;> simp

/-- The numbers of the declarations and members that are in the model. -/
def nodes (m : CodeModel) : List NodeId :=
  m.dataTypes.map (·.origin.node)
    ++ m.mappers.flatMap (fun a => a.origin.node :: a.operations.map (·.origin.node))
    ++ m.services.flatMap (fun a => a.origin.node :: a.routes.map (·.origin.node))
    ++ m.clients.map (·.origin.node) ++ m.pages.map (·.origin.node)
    ++ m.procedures.map (·.origin.node) ++ m.constants.map (·.origin.node)

theorem nodes_append (m m' : CodeModel) : (m ++ m').nodes.Perm (m.nodes ++ m'.nodes) := by
  rw [List.perm_iff_count]
  intro n
  simp only [nodes, dataTypes_append, mappers_append, services_append, clients_append, pages_append,
    procedures_append, constants_append, List.map_append, List.flatMap_append, List.count_append]
  omega

end CodeModel

namespace Lowering

/-! ## Declarations with members -/

/-- All parameters that the SQL of a query uses are declared. -/
def isBound (q : Source.Query) : Bool :=
  (Sql.parameters q.sql).all fun name => q.params.any (·.name == name)

/-- What a query becomes. -/
def operationOf (env : Env) (q : Source.Query) : Model.Operation :=
  { name := q.name, kind := Sql.statementKind q.sql, params := lowerParams env q.params
    returns := lowerReturns env q.returns
    returnsMany := (lowerReturns env q.returns).any Model.Ty.isList, sql := q.sql
    positionalSql := Sql.positional q.sql, bindOrder := Sql.bindOrder q.sql
    origin := originOf q.header }

/-- What a mapper becomes. -/
def mapperOf (env : Env) (m : Source.Mapper) : Model.DataAccess :=
  { name := m.name, datasource := m.header.annotations.text? "datasource"
    operations := (m.queries.filter isBound).map (operationOf env), origin := originOf m.header }

/-- What a handler answers, if it has an address and all placeholders there are parameters. -/
def spec? (env : Env) (c : Source.Controller) (f : Source.Func) : Option RouteSpec :=
  match handlerAddress? c f with
  | none => none
  | some (method, path) =>
    if (Url.placeholders path).all fun name => f.params.any (·.name == name) then
      some
        { method, path
          bindings := f.params.map fun p =>
            { name := p.name, type := lowerType env p.type
              source := bindingSource (Url.placeholders path) (f.header.annotations.text? "body")
                p.name }
          returns := lowerReturns env f.returns }
    else none

/-- The route of a handler. -/
def routeOf (env : Env) (f : Source.Func) (spec : RouteSpec) : Model.Route :=
  { handler := f.name, method := spec.method, path := spec.path, bindings := spec.bindings
    returns := spec.returns, body := lowerBlock env f.body
    id := (f.header.annotations.get? "id").bind AnnotationValue.int?
    comment := f.header.annotations.text? "comment", origin := originOf f.header }

def routesOf (env : Env) (c : Source.Controller) (fs : List Source.Func) : List Model.Route :=
  fs.filterMap fun f => (spec? env c f).map (routeOf env f)

/-- What a controller becomes. -/
def serviceOf (env : Env) (c : Source.Controller) : Model.Service :=
  { name := c.name, baseUrl := (c.header.annotations.text? "baseUrl").getD ""
    comment := c.header.annotations.text? "comment", routes := routesOf env c c.handlers
    origin := originOf c.header }

/-- The call of a handler. -/
def callOf (c : Source.Controller) (f : Source.Func) (spec : RouteSpec) : Model.ClientCall :=
  { name := f.name, service := c.name, method := spec.method, path := spec.path
    bindings := spec.bindings, returns := spec.returns
    comment := f.header.annotations.text? "comment" }

def callsOf (env : Env) (c : Source.Controller) (fs : List Source.Func) : List Model.ClientCall :=
  fs.filterMap fun f => (spec? env c f).map (callOf c f)

/-- The handlers of a controller that a member of a client refers to. -/
def memberHandlers (m : Source.ApiMember) (c : Source.Controller) : List Source.Func :=
  match m.handler with
  | none => c.handlers
  | some name => (c.handlers.find? (·.name == name)).toList

/-- The calls of a member. -/
def memberCalls (env : Env) (m : Source.ApiMember) : List Model.ClientCall :=
  match memberController? env m with
  | none => []
  | some (_, c) => callsOf env c (memberHandlers m c)

/-- What a client becomes. -/
def clientOf (env : Env) (a : Source.Api) : Model.ClientApi :=
  { name := a.name, baseUrl := (a.header.annotations.text? "baseUrl").getD ""
    calls := a.members.flatMap (memberCalls env), origin := originOf a.header }

/-! ## Steps -/

/-- The problem is that something is left out of the model. -/
def isOmission (d : Diagnostic) : Bool :=
  d.code == .platformUnsupported

/-- A step that succeeds has this value, adds this to the model, and reports these omissions. -/
def Makes {α : Type} (m : Lower α) (a : α) (added : CodeModel) (omitted : Diagnostics) : Prop :=
  ∀ s x s', m.run s = (.ok x, s') → x = a ∧ s'.model = s.model ++ added ∧
    ∃ more, s'.diagnostics = s.diagnostics ++ more ∧ more.filter isOmission = omitted

namespace Makes

variable {α β : Type} {m : Lower α} {f : α → Lower β} {a : α} {b : β} {added added' : CodeModel}
  {omitted omitted' : Diagnostics}

theorem pure (a : α) : Makes (Pure.pure a) a {} [] := by
  intro s x s' h
  cases h
  exact ⟨rfl, (CodeModel.append_empty _).symm, [], (List.append_nil _).symm, rfl⟩

theorem bind (hm : Makes m a added omitted) (hf : Makes (f a) b added' omitted') :
    Makes (m >>= f) b (added ++ added') (omitted ++ omitted') := by
  intro s x s' h
  rw [run_bind] at h
  split at h
  · rename_i a' s₁ hrun
    obtain ⟨rfl, hmodel, more, hmore, homitted⟩ := hm _ _ _ hrun
    obtain ⟨rfl, hmodel', more', hmore', homitted'⟩ := hf _ _ _ h
    refine ⟨rfl, ?_, more ++ more', ?_, ?_⟩
    · rw [hmodel', hmodel, CodeModel.append_assoc]
    · rw [hmore', hmore, List.append_assoc]
    · rw [List.filter_append, homitted, homitted']
  · cases h

/-- A step that adds nothing comes first. -/
theorem step (hm : Makes m a {} []) (hf : Makes (f a) b added omitted) :
    Makes (m >>= f) b added omitted :=
  hm.bind hf

theorem get {f : State → Lower β} (h : ∀ s, Makes (f s) b added omitted) :
    Makes (get >>= f) b added omitted :=
  fun s x s' hrun => h s s x s' hrun

/-- A step that fails has no value. -/
theorem throw (e : CompileError) (f : α → Lower β) : Makes (throw e >>= f) b added omitted := by
  intro s x s' h
  cases h

theorem modify {g : State → State} (hmodel : ∀ s, (g s).model = s.model ++ added)
    (hdiagnostics : ∀ s, (g s).diagnostics = s.diagnostics) :
    Makes (modify g : Lower Unit) () added [] := by
  intro s x s' h
  cases h
  exact ⟨rfl, hmodel s, [], (hdiagnostics s).trans (List.append_nil _).symm, rfl⟩

theorem report (e : CompileError) :
    Makes (report e) () {} ([e.toDiagnostic].filter isOmission) := by
  intro s x s' h
  cases h
  exact ⟨rfl, (CodeModel.append_empty _).symm, _, rfl, rfl⟩

theorem forIn {g : α → PUnit → Lower (ForInStep PUnit)}
    (h : ∀ a, Makes (g a ⟨⟩) (.yield ⟨⟩) {} []) :
    ∀ as : List α, Makes (forIn as PUnit.unit g) ⟨⟩ {} []
  | [] => pure _
  | a :: as => by
    rw [List.forIn_cons]
    exact (h a).step (forIn h as)

end Makes

section

variable (env : Env) (path : Path)

theorem find?_missing {names : List String} {declared : String → Bool} :
    (names.find? fun name => !declared name) = none ↔ names.all declared = true := by
  simp

theorem lowerQuery_makes (mapper : String) (q : Source.Query) :
    Makes (lowerQuery env path mapper q)
      (if isBound q then some (operationOf env q) else none) {} [] := by
  unfold lowerQuery
  dsimp only
  split
  · rename_i name hname
    have hnot : ¬ isBound q = true := by
      rw [isBound, ← find?_missing, hname]
      exact nofun
    rw [if_neg hnot]
    exact (Makes.report _).step (.pure _)
  · rename_i hnone
    have hbound : isBound q = true := find?_missing.1 hnone
    rw [if_pos hbound]
    refine (Makes.forIn (fun p => ?_) _).step (.pure _)
    split
    · exact (Makes.report _).step (.pure _)
    · exact .pure _

theorem lowerQueries_makes (mapper : String) : ∀ qs : List Source.Query,
    Makes (lowerQueries env path mapper qs) ((qs.filter isBound).map (operationOf env)) {} []
  | [] => .pure _
  | q :: rest => by
    have hpair := (lowerQuery_makes env path mapper q).step (f := fun op => do
      return op.toList ++ (← lowerQueries env path mapper rest))
      ((lowerQueries_makes mapper rest).step (.pure _))
    rw [List.filter_cons]
    split at hpair
    · rename_i hq
      rw [if_pos hq]
      exact hpair
    · rename_i hq
      rw [if_neg hq]
      exact hpair

theorem routeSpec_makes (c : Source.Controller) (f : Source.Func) :
    Makes (routeSpec env path c f) (spec? env c f) {} [] := by
  unfold routeSpec spec?
  cases handlerAddress? c f with
  | none => exact .pure _
  | some address =>
    obtain ⟨method, full⟩ := address
    dsimp only
    cases hfind : (Url.placeholders full).find? fun name => !f.params.any (·.name == name) with
    | some name =>
      have hnot : ¬ ((Url.placeholders full).all fun name => f.params.any (·.name == name)) = true := by
        rw [← find?_missing, hfind]
        exact nofun
      rw [if_neg hnot]
      refine .get fun s => ?_
      split
      · refine Makes.step (Makes.modify ?_ fun _ => rfl) ((Makes.report _).step (.pure _))
        exact fun _ => (CodeModel.append_empty _).symm
      · exact .pure _
    | none =>
      rw [if_pos (find?_missing.1 hfind)]
      exact .pure _

theorem lowerHandlers_makes (c : Source.Controller) : ∀ fs : List Source.Func,
    Makes (lowerHandlers env path c fs) (routesOf env c fs) {} []
  | [] => .pure _
  | f :: rest => by
    refine (routeSpec_makes env path c f).step ?_
    rw [routesOf, List.filterMap_cons]
    cases spec? env c f with
    | none => exact lowerHandlers_makes c rest
    | some spec =>
      refine .get fun s => ?_
      split
      · exact .throw _ _
      · refine Makes.step (Makes.modify ?_ fun _ => rfl) ((lowerHandlers_makes c rest).step (.pure _))
        exact fun _ => (CodeModel.append_empty _).symm

theorem lowerCalls_makes (c : Source.Controller) : ∀ fs : List Source.Func,
    Makes (lowerCalls env path c fs) (callsOf env c fs) {} []
  | [] => .pure _
  | f :: rest => by
    refine (routeSpec_makes env path c f).step ?_
    rw [callsOf, List.filterMap_cons]
    cases spec? env c f with
    | none => exact lowerCalls_makes c rest
    | some spec => exact (lowerCalls_makes c rest).step (.pure _)

theorem lowerMember_makes (api : String) (m : Source.ApiMember) :
    Makes (lowerMember env path api m) (memberCalls env m) {} [] := by
  unfold lowerMember memberCalls memberHandlers
  cases memberController? env m with
  | none => exact .pure _
  | some found =>
    obtain ⟨d, c⟩ := found
    dsimp only
    cases m.handler with
    | none => exact lowerCalls_makes env _ c _
    | some name =>
      dsimp only
      cases c.handlers.find? (·.name == name) with
      | some f => exact lowerCalls_makes env _ c [f]
      | none => exact (Makes.report _).step (.pure _)

theorem lowerMembers_makes (api : String) : ∀ ms : List Source.ApiMember,
    Makes (lowerMembers env path api ms) (ms.flatMap (memberCalls env)) {} []
  | [] => .pure _
  | m :: rest => (lowerMember_makes env path api m).step
      ((lowerMembers_makes api rest).step (.pure _))

end

/-! ## Documents -/

def Env.expresses (env : Env) (category : Category) : Bool :=
  env.platform.all (·.supports category)

/-- The warning that a construct is left out, if it is. -/
def omission? (env : Env) (category : Category) (construct : String) : Option Diagnostic :=
  env.platform.bind fun p =>
    if p.supports category then none
    else some (CompileError.platformUnsupported p.key construct).toDiagnostic

/-- The warning that a declaration is left out, if it is. -/
def declOmission? (env : Env) (d : Source.Decl) : Option Diagnostic :=
  (category? d).bind fun category =>
    omission? env category s!"{d.kindText} {d.name?.getD default}"

/-- What a declaration becomes. -/
def declModel (env : Env) : Source.Decl → CodeModel
  | .importFile _ => {}
  | .domain d => { dataTypes := [lowerDomain env d] }
  | .table t => { dataTypes := [lowerTable env t] }
  | .entity e => { dataTypes := [lowerEntity env e] }
  | .record r => { dataTypes := [lowerRecord env r] }
  | .mapper m => { mappers := [mapperOf env m] }
  | .controller c => { services := [serviceOf env c] }
  | .api a => { clients := [clientOf env a] }
  | .page p => { pages := [lowerPage p] }
  | .property p => { constants := [lowerProperty env p] }
  | .func f => { procedures := [lowerFunc env f] }

/-- What a declaration becomes, if the target expresses it. -/
def declPart (env : Env) (d : Source.Decl) : CodeModel :=
  if (category? d).all env.expresses then declModel env d else {}

/-- What the declarations and shapes of a document become. -/
def documentModel (env : Env) (d : Source.Document) : CodeModel :=
  d.decls.foldr (declPart env · ++ ·) { dataTypes := d.shapes.map (lowerShape env) }

def documentsModel (env : Env) (ds : List Source.Document) : CodeModel :=
  ds.foldr (documentModel env · ++ ·) {}

section

variable (env : Env)

theorem supported_makes (category : Category) (construct : String) :
    Makes (supported env category construct) (env.expresses category) {}
      (omission? env category construct).toList := by
  unfold supported Env.expresses omission?
  cases env.platform with
  | none => exact .pure _
  | some p =>
    dsimp only [Option.all_some, Option.bind_some]
    cases p.supports category with
    | true => exact .pure _
    | false =>
      exact (Makes.report (.platformUnsupported p.key construct)).bind (f := fun _ => Pure.pure false)
        (.pure false)

theorem extend_makes {f : CodeModel → CodeModel} {added : CodeModel} (h : ∀ m, f m = m ++ added) :
    Makes (extend f) () added [] :=
  .modify (fun s => h s.model) fun _ => rfl

theorem addData_makes (d : Model.DataType) : Makes (addData d) () { dataTypes := [d] } [] := by
  refine extend_makes fun m => ?_
  ext1 <;> simp

theorem addDecl_makes (path : Path) (d : Source.Decl) :
    Makes (addDecl env path d) () (declModel env d) [] := by
  cases d with
  | importFile i => exact .pure _
  | domain d => exact addData_makes (lowerDomain env d)
  | table t => exact addData_makes (lowerTable env t)
  | entity e => exact addData_makes (lowerEntity env e)
  | record r => exact addData_makes (lowerRecord env r)
  | mapper m =>
    have hvalue : Makes (lowerMapper env path m) (mapperOf env m) {} [] :=
      (lowerQueries_makes env path m.name m.queries).step (.pure _)
    refine hvalue.step (extend_makes fun model => ?_)
    ext1 <;> simp [declModel]
  | controller c =>
    have hvalue : Makes (lowerController env path c) (serviceOf env c) {} [] :=
      (lowerHandlers_makes env path c c.handlers).step (.pure _)
    refine hvalue.step (extend_makes fun model => ?_)
    ext1 <;> simp [declModel]
  | api a =>
    have hvalue : Makes (lowerApi env path a) (clientOf env a) {} [] :=
      (lowerMembers_makes env path a.name a.members).step (.pure _)
    refine hvalue.step (extend_makes fun model => ?_)
    ext1 <;> simp [declModel]
  | page p =>
    rw [addDecl]
    refine extend_makes fun model => ?_
    ext1 <;> simp [declModel]
  | property p =>
    rw [addDecl]
    refine extend_makes fun model => ?_
    ext1 <;> simp [declModel]
  | func f =>
    rw [addDecl]
    refine extend_makes fun model => ?_
    ext1 <;> simp [declModel]

theorem lowerDecl_makes (path : Path) (d : Source.Decl) :
    Makes (lowerDecl env path d) () (declPart env d) (declOmission? env d).toList := by
  unfold lowerDecl declPart declOmission?
  cases hcategory : category? d with
  | none =>
    cases d with
    | importFile i => exact .pure _
    | _ => cases hcategory
  | some category =>
    dsimp only [Option.all_some, Option.bind_some]
    have hadd : Makes (if env.expresses category = true then addDecl env path d else Pure.pure ())
        () (if env.expresses category = true then declModel env d else {}) [] := by
      split
      · exact addDecl_makes env path d
      · exact .pure ()
    have hboth := fun construct => (supported_makes env category construct).bind (f := fun b =>
      if b = true then addDecl env path d else Pure.pure ()) hadd
    simp only [CodeModel.empty_append, List.append_nil] at hboth
    exact hboth _

theorem allDecls_makes (path : Path) {shapes : List Source.ResultShape} {next : Lower Unit}
    (hnext : Makes next () { dataTypes := shapes.map (lowerShape env) } []) :
    ∀ ds : List Source.Decl, Makes (allDecls env path ds >>= fun _ => next) ()
      (ds.foldr (declPart env · ++ ·) { dataTypes := shapes.map (lowerShape env) })
      (ds.filterMap (declOmission? env))
  | [] => (Makes.pure ()).step hnext
  | d :: rest => by
    have hall := (lowerDecl_makes env path d).bind (f := fun _ => do
      allDecls env path rest
      next) (allDecls_makes path hnext rest)
    rw [allDecls, bind_assoc, List.foldr_cons, List.filterMap_cons]
    cases homitted : declOmission? env d with
    | none =>
      rw [homitted] at hall
      exact hall
    | some w =>
      rw [homitted] at hall
      exact hall

theorem allShapes_makes : ∀ shapes : List Source.ResultShape,
    Makes (allShapes env shapes) () { dataTypes := shapes.map (lowerShape env) } []
  | [] => .pure _
  | shape :: rest => by
    rw [allShapes, supported_data, pure_bind]
    exact (addData_makes (lowerShape env shape)).bind (f := fun _ => allShapes env rest)
      (allShapes_makes rest)

/-- Every declaration that the target expresses and every shape is lowered, in order, and every other
declaration is reported. -/
theorem allDocuments_makes : ∀ ds : List Source.Document,
    Makes (allDocuments env ds) () (documentsModel env ds)
      (ds.flatMap fun d => d.decls.filterMap (declOmission? env))
  | [] => .pure _
  | d :: rest => by
    have hdocument := allDecls_makes env d.path (allShapes_makes env d.shapes) d.decls
    have hall := hdocument.bind (f := fun _ => allDocuments env rest) (allDocuments_makes rest)
    rw [allDocuments, ← bind_assoc]
    exact hall

end

/-! ## The lists of the model -/

section

variable (env : Env) {β : Type} {part : CodeModel → List β}

/-- A list of the model holds what the declarations and shapes give it, in order. -/
theorem documentsModel_part (hempty : part {} = [])
    (happend : ∀ m m', part (m ++ m') = part m ++ part m') (ds : List Source.Document) :
    part (documentsModel env ds) = ds.flatMap fun d =>
      d.decls.flatMap (fun x => part (declPart env x))
        ++ part { dataTypes := d.shapes.map (lowerShape env) } := by
  have hdecls : ∀ (last : CodeModel) (xs : List Source.Decl),
      part (xs.foldr (declPart env · ++ ·) last)
        = xs.flatMap (fun x => part (declPart env x)) ++ part last := by
    intro last xs
    induction xs with
    | nil => rfl
    | cons x rest ih => rw [List.foldr_cons, happend, ih, List.flatMap_cons, List.append_assoc]
  induction ds with
  | nil => exact hempty
  | cons d rest ih =>
    rw [List.flatMap_cons, ← ih, ← hdecls]
    exact happend _ _

/-- A list whose elements are the declarations of one category. -/
theorem documentsModel_list {category : Category} {select : Source.Decl → Option β}
    (hempty : part {} = []) (happend : ∀ m m', part (m ++ m') = part m ++ part m')
    (hshapes : ∀ ts, part { dataTypes := ts } = [])
    (hselect : ∀ d, part (declModel env d) = (select d).toList)
    (hcategory : ∀ d x, select d = some x → category? d = some category)
    (ds : List Source.Document) : part (documentsModel env ds) =
      if env.expresses category then ds.flatMap fun d => d.decls.filterMap select else [] := by
  have hpart : ∀ d, part (declPart env d) =
      if env.expresses category then (select d).toList else [] := by
    intro d
    unfold declPart
    cases hd : select d with
    | none =>
      have hnone : part (declModel env d) = [] := by rw [hselect, hd, Option.toList_none]
      rw [Option.toList_none, ite_self]
      split
      · exact hnone
      · exact hempty
    | some x =>
      rw [hcategory d x hd, Option.all_some]
      split
      · rw [hselect, hd]
      · exact hempty
  rw [documentsModel_part env hempty happend]
  simp only [hpart, hshapes, List.append_nil]
  split
  · simp only [List.filterMap_eq_flatMap_toList]
  · simp

end

theorem routesOf_nodes (env : Env) (c : Source.Controller) (fs : List Source.Func) :
    ((routesOf env c fs).map (·.origin.node)).Sublist (fs.map (·.header.id)) := by
  induction fs with
  | nil => exact List.Sublist.slnil
  | cons f rest ih =>
    rw [routesOf, List.filterMap_cons]
    cases spec? env c f with
    | none => exact ih.cons _
    | some spec => exact ih.cons_cons _

/-- What a declaration becomes has its numbers. -/
theorem declModel_nodes (env : Env) (d : Source.Decl) :
    (declModel env d).nodes.Sublist d.nodes := by
  cases d with
  | importFile i => exact List.nil_sublist _
  | mapper m =>
    have hqueries : ((m.queries.filter isBound).map (operationOf env)).map (·.origin.node)
        = (m.queries.filter isBound).map (·.header.id) := by
      rw [List.map_map]
      rfl
    have hsub := (List.filter_sublist (p := isBound) (l := m.queries)).map (·.header.id)
    simp only [CodeModel.nodes, declModel, Source.Decl.nodes, mapperOf, List.map_nil, List.nil_append,
      List.flatMap_cons, List.flatMap_nil, List.append_nil, hqueries]
    exact hsub.cons_cons _
  | controller c =>
    simp only [CodeModel.nodes, declModel, Source.Decl.nodes, serviceOf, List.map_nil,
      List.nil_append, List.flatMap_cons, List.flatMap_nil, List.append_nil]
    exact (routesOf_nodes env c c.handlers).cons_cons _
  | domain _ | table _ | entity _ | record _ | api _ | page _ | property _ | func _ =>
    exact List.Sublist.refl _

theorem documentsModel_nodes (env : Env) (ds : List Source.Document) :
    (documentsModel env ds).nodes.Subperm (ds.flatMap Source.Document.nodes) := by
  have hpart : ∀ d, (declPart env d).nodes.Subperm d.nodes := by
    intro d
    unfold declPart
    split
    · exact (declModel_nodes env d).subperm
    · exact List.nil_subperm
  have hdocument : ∀ d, (documentModel env d).nodes.Subperm d.nodes := by
    intro d
    unfold documentModel Source.Document.nodes
    induction d.decls with
    | nil =>
      have hshapes : (d.shapes.map (lowerShape env)).map (·.origin.node) = d.shapes.map (·.id) := by
        rw [List.map_map]
        rfl
      simp only [List.foldr_nil, CodeModel.nodes, List.map_nil, List.flatMap_nil, List.append_nil,
        List.nil_append, hshapes]
      exact List.Subperm.refl _
    | cons x rest ih =>
      rw [List.foldr_cons, List.flatMap_cons, List.append_assoc]
      exact (CodeModel.nodes_append _ _).subperm.trans ((hpart x).append ih)
  induction ds with
  | nil => exact List.nil_subperm
  | cons d rest ih =>
    exact (CodeModel.nodes_append _ _).subperm.trans ((hdocument d).append ih)

end Lowering

namespace Source.Document

def mappers (d : Document) : List Mapper :=
  d.decls.filterMap fun | .mapper m => some m | _ => none

def controllers (d : Document) : List Controller :=
  d.decls.filterMap fun | .controller c => some c | _ => none

def apis (d : Document) : List Api :=
  d.decls.filterMap fun | .api a => some a | _ => none

def pages (d : Document) : List Page :=
  d.decls.filterMap fun | .page p => some p | _ => none

def properties (d : Document) : List Property :=
  d.decls.filterMap fun | .property p => some p | _ => none

def funcs (d : Document) : List Func :=
  d.decls.filterMap fun | .func f => some f | _ => none

variable {d : Document}

theorem mem_controllers {c : Controller} : c ∈ d.controllers ↔ .controller c ∈ d.decls := by
  rw [controllers, List.mem_filterMap]
  constructor
  · rintro ⟨x, hx, heq⟩
    cases x <;> cases heq
    exact hx
  · exact fun hc => ⟨_, hc, rfl⟩

theorem mem_apis {a : Api} : a ∈ d.apis ↔ .api a ∈ d.decls := by
  rw [apis, List.mem_filterMap]
  constructor
  · rintro ⟨x, hx, heq⟩
    cases x <;> cases heq
    exact hx
  · exact fun ha => ⟨_, ha, rfl⟩

theorem mem_of_controller? {id : NodeId} {c : Controller} (h : d.controller? id = some c) :
    .controller c ∈ d.decls := by
  obtain ⟨x, hx, hc⟩ := List.exists_of_findSome?_eq_some h
  cases x with
  | controller c' =>
    dsimp only at hc
    split at hc
    · cases hc
      exact hx
    · cases hc
  | _ => cases hc

end Source.Document

namespace Lowering

/-- The controller that a member of a client refers to is declared in a document of the session. -/
theorem memberController?_mem {env : Env} {m : Source.ApiMember} {d : Source.Document}
    {c : Source.Controller} (h : memberController? env m = some (d, c)) :
    (∃ p, env.imports.get? p = some d) ∧ c ∈ d.controllers := by
  unfold memberController? at h
  simp only [Option.bind_eq_bind, Option.bind_eq_some_iff, Option.pure_def, Option.some.injEq,
    Prod.mk.injEq] at h
  obtain ⟨symbol, -, d', hget, c', hc, rfl, rfl⟩ := h
  exact ⟨⟨_, hget⟩, Source.Document.mem_controllers.2 (Source.Document.mem_of_controller? hc)⟩

theorem memberHandlers_subset (m : Source.ApiMember) (c : Source.Controller) :
    ∀ f ∈ memberHandlers m c, f ∈ c.handlers := by
  intro f hf
  unfold memberHandlers at hf
  split at hf
  · exact hf
  · exact List.mem_of_find?_eq_some (Option.mem_toList.1 hf)

section

variable (env : Env) (ds : List Source.Document)

/-- Every target expresses what it has no choice about. -/
theorem expresses_always {category : Category} (h : ∀ p : Platform, p.supports category = true) :
    env.expresses category = true := by
  unfold Env.expresses
  cases env.platform with
  | none => rfl
  | some p => exact h p

theorem documentsModel_dataTypes : (documentsModel env ds).dataTypes =
    ds.flatMap fun d => d.decls.filterMap (declType? env) ++ d.shapes.map (lowerShape env) := by
  have hdata : env.expresses .data = true := expresses_always env fun _ => rfl
  have hpart : ∀ d, (declPart env d).dataTypes = (declType? env d).toList := by
    intro d
    unfold declPart
    cases d with
    | importFile i => rfl
    | domain _ | table _ | entity _ | record _ =>
      simp only [category?, Option.all_some, hdata, if_true]
      rfl
    | mapper _ | controller _ | api _ | page _ | property _ | func _ =>
      split
      · rfl
      · rfl
  rw [@documentsModel_part env _ CodeModel.dataTypes rfl fun _ _ => rfl]
  simp only [hpart, List.filterMap_eq_flatMap_toList]

theorem documentsModel_mappers : (documentsModel env ds).mappers =
    if env.expresses .mapper then ds.flatMap fun d => d.mappers.map (mapperOf env) else [] := by
  simp only [Source.Document.mappers, List.map_filterMap]
  refine documentsModel_list env rfl (fun _ _ => rfl) (fun _ => rfl) (fun d => ?_) (fun d x h => ?_) ds
  · cases d <;> rfl
  · cases d <;> first | rfl | cases h

theorem documentsModel_services : (documentsModel env ds).services =
    if env.expresses .controller then ds.flatMap fun d => d.controllers.map (serviceOf env)
    else [] := by
  simp only [Source.Document.controllers, List.map_filterMap]
  refine documentsModel_list env rfl (fun _ _ => rfl) (fun _ => rfl) (fun d => ?_) (fun d x h => ?_) ds
  · cases d <;> rfl
  · cases d <;> first | rfl | cases h

theorem documentsModel_clients : (documentsModel env ds).clients =
    if env.expresses .api then ds.flatMap fun d => d.apis.map (clientOf env) else [] := by
  simp only [Source.Document.apis, List.map_filterMap]
  refine documentsModel_list env rfl (fun _ _ => rfl) (fun _ => rfl) (fun d => ?_) (fun d x h => ?_) ds
  · cases d <;> rfl
  · cases d <;> first | rfl | cases h

theorem documentsModel_pages : (documentsModel env ds).pages =
    if env.expresses .page then ds.flatMap fun d => d.pages.map lowerPage else [] := by
  simp only [Source.Document.pages, List.map_filterMap]
  refine documentsModel_list env rfl (fun _ _ => rfl) (fun _ => rfl) (fun d => ?_) (fun d x h => ?_) ds
  · cases d <;> rfl
  · cases d <;> first | rfl | cases h

theorem documentsModel_constants : (documentsModel env ds).constants =
    ds.flatMap fun d => d.properties.map (lowerProperty env) := by
  have hlist : (documentsModel env ds).constants = if env.expresses .property then
      ds.flatMap fun d => d.properties.map (lowerProperty env) else [] := by
    simp only [Source.Document.properties, List.map_filterMap]
    refine documentsModel_list env rfl (fun _ _ => rfl) (fun _ => rfl) (fun d => ?_)
      (fun d x h => ?_) ds
    · cases d <;> rfl
    · cases d <;> first | rfl | cases h
  rwa [if_pos (expresses_always env fun _ => rfl)] at hlist

theorem documentsModel_procedures : (documentsModel env ds).procedures =
    ds.flatMap fun d => d.funcs.map (lowerFunc env) := by
  have hlist : (documentsModel env ds).procedures = if env.expresses .func then
      ds.flatMap fun d => d.funcs.map (lowerFunc env) else [] := by
    simp only [Source.Document.funcs, List.map_filterMap]
    refine documentsModel_list env rfl (fun _ _ => rfl) (fun _ => rfl) (fun d => ?_)
      (fun d x h => ?_) ds
    · cases d <;> rfl
    · cases d <;> first | rfl | cases h
  rwa [if_pos (expresses_always env fun _ => rfl)] at hlist

end

end Lowering

namespace Session

variable {s s' : Session} {model : CodeModel}

/-- The model is made of the documents that lowering reads, and what was left out is reported. -/
theorem lower_model (h : s.lower = (.ok model, s')) :
    model = Lowering.documentsModel s.loweringEnv s.loweredDocuments ∧
    ∃ more, s'.diagnostics = s.diagnostics ++ more ∧ more.filter Lowering.isOmission =
      s.loweredDocuments.flatMap fun d => d.decls.filterMap (Lowering.declOmission? s.loweringEnv) := by
  have hlower := s.lower_eq
  dsimp only at hlower
  rw [h] at hlower
  rcases hrun : (Lowering.allDocuments s.loweringEnv s.loweredDocuments).run
    { diagnostics := s.diagnostics } with ⟨_ | _, final⟩
  · rw [hrun] at hlower
    cases hlower
  · rw [hrun] at hlower
    cases hlower
    obtain ⟨-, hmodel, hmore⟩ := Lowering.allDocuments_makes _ _ _ _ _ hrun
    exact ⟨hmodel, hmore⟩

/-- In a session that was used, these are the project's documents. -/
theorem Worked.lower_model (hs : s.Worked) (h : s.lower = (.ok model, s')) :
    model = Lowering.documentsModel s.loweringEnv s.projectDocuments ∧
    ∃ more, s'.diagnostics = s.diagnostics ++ more ∧ more.filter Lowering.isOmission =
      s.projectDocuments.flatMap fun d => d.decls.filterMap (Lowering.declOmission? s.loweringEnv) :=
  hs.loweredDocuments ▸ Session.lower_model h

/-- Whatever a session was used for, when the code model is made: its data types are those of the
project's documents, in the order in which these were finished, per document the declared ones in
source order and then the shapes; its other lists are the declarations of their category, or empty if
the target does not express it; the operations of a mapper are its queries whose parameters are all
declared. No two declarations of the documents have the same number, and so no two elements of the
model, and of the problems that are added those about omissions are one for each declaration that the
target does not express. -/
theorem lower_contents (hs : s.Worked) (h : s.lower = (.ok model, s')) :
    let env := s.loweringEnv
    let ds := s.projectDocuments
    model.dataTypes = ds.flatMap (fun d =>
      d.decls.filterMap (Lowering.declType? env) ++ d.shapes.map (Lowering.lowerShape env)) ∧
    model.mappers = (if env.expresses .mapper then
      ds.flatMap fun d => d.mappers.map (Lowering.mapperOf env) else []) ∧
    model.services = (if env.expresses .controller then
      ds.flatMap fun d => d.controllers.map (Lowering.serviceOf env) else []) ∧
    model.clients = (if env.expresses .api then
      ds.flatMap fun d => d.apis.map (Lowering.clientOf env) else []) ∧
    model.pages = (if env.expresses .page then
      ds.flatMap fun d => d.pages.map Lowering.lowerPage else []) ∧
    model.constants = ds.flatMap (fun d => d.properties.map (Lowering.lowerProperty env)) ∧
    model.procedures = ds.flatMap (fun d => d.funcs.map (Lowering.lowerFunc env)) ∧
    (∀ a ∈ model.mappers, ∃ d ∈ ds, ∃ m ∈ d.mappers, a.name = m.name ∧
      a.operations = (m.queries.filter fun q => (Sql.parameters q.sql).all fun name =>
        q.params.any (·.name == name)).map (Lowering.operationOf env)) ∧
    (ds.flatMap Source.Document.nodes).Nodup ∧ model.nodes.Nodup ∧
    ∃ more, s'.diagnostics = s.diagnostics ++ more ∧
      more.filter (·.code == .platformUnsupported)
        = ds.flatMap fun d => d.decls.filterMap (Lowering.declOmission? env) := by
  intro env ds
  obtain ⟨rfl, hmore⟩ := hs.lower_model h
  have hnodes : (ds.flatMap Source.Document.nodes).Nodup := by
    refine hs.numbered.2.nodup.sublist ?_
    exact List.filter_sublist.flatMap _
  have hmappers := Lowering.documentsModel_mappers env ds
  refine ⟨Lowering.documentsModel_dataTypes env ds, hmappers,
    Lowering.documentsModel_services env ds, Lowering.documentsModel_clients env ds,
    Lowering.documentsModel_pages env ds, Lowering.documentsModel_constants env ds,
    Lowering.documentsModel_procedures env ds, fun a ha => ?_, hnodes, ?_, hmore⟩
  · rw [hmappers] at ha
    split at ha
    · obtain ⟨d, hd, ha⟩ := List.mem_flatMap.1 ha
      obtain ⟨m, hm, rfl⟩ := List.mem_map.1 ha
      exact ⟨d, hd, m, hm, rfl, rfl⟩
    · cases ha
  obtain ⟨l, hperm, hsub⟩ := Lowering.documentsModel_nodes env ds
  exact hperm.nodup_iff.1 (hnodes.sublist hsub)

/-- Two files, one of them with a query whose parameter is not declared and with a client. -/
def contentsTree : FileTree :=
  { entries := [(["b.jssp"], .file "table t \x7b id int; \x7d"),
      (["a.jssp"], .file ("import 'b.jssp'; mapper M \x7b query q() R \x7b select id from t; \x7d " ++
        "query r() \x7b select :n; \x7d \x7d api A \x7b \x7d"))] }

/-- The session of a server in which a broken text was compiled before. -/
def contentsSession : Session :=
  ((Call.file contentsTree ⟨"a.jssp"⟩ []).run
    ((Call.text contentsTree "struct" ⟨"c.jssp"⟩).run { platform := some .gin }).2).2

/-- The client is left out with one warning, and the query with an error. -/
theorem lower_contents_server : ∃ model s', contentsSession.Worked ∧
    contentsSession.lower = (.ok model, s') ∧
    model.dataTypes.map (·.name) = ["t", "R"] ∧
    model.mappers.map (·.operations.map (·.name)) = [["q"]] ∧ model.clients = [] ∧
    model.nodes.Nodup ∧ ∃ more, s'.diagnostics = contentsSession.diagnostics ++ more ∧
      (more.filter (·.code == .platformUnsupported)).map (·.message)
        = ["platform 'gin' does not support api A"] := by
  have hs : contentsSession.Worked := .afterCall (.afterCall (.new _) _) _
  have hfacts : contentsSession.lower.1.isOk = true ∧
      (contentsSession.lower.1.toOption.getD {}).dataTypes.map (·.name) = ["t", "R"] ∧
      (contentsSession.lower.1.toOption.getD {}).mappers.map (·.operations.map (·.name)) = [["q"]] ∧
      (contentsSession.projectDocuments.flatMap fun d =>
        d.decls.filterMap (Lowering.declOmission? contentsSession.loweringEnv)).map (·.message)
        = ["platform 'gin' does not support api A"] ∧
      contentsSession.loweringEnv.expresses .api = false := by
    rw [show contentsSession = afterCall (.file contentsTree ⟨"a.jssp"⟩ [])
        (afterCall (.text contentsTree "struct" ⟨"c.jssp"⟩) { platform := some .gin }) from rfl,
      afterCall_file contentsTree (.cons rfl (.cons (.append rfl rfl) .nil))]
    decide +kernel
  -- From here on nothing is computed again.
  generalize contentsSession = s at *
  obtain ⟨hok, hdata, hmappers, homitted, hapi⟩ := hfacts
  obtain ⟨model, hmodel⟩ := Entry.exists_of_isOk hok
  obtain ⟨-, -, -, hclients, -, -, -, -, -, hnodup, more, hmore, hskipped⟩ := lower_contents hs hmodel
  rw [hmodel] at hdata hmappers
  rw [hapi] at hclients
  rw [← hskipped] at homitted
  exact ⟨model, _, hs, hmodel, hdata, hmappers, hclients, hnodup, more, hmore, homitted⟩

end Session

end Scaffold
