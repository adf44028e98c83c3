import Scaffold.Model.Basic
import Scaffold.Session
import Scaffold.Sql.Select
import Scaffold.Url

/-!
From documents to the code model. Constructs that the target cannot express are left out with a
warning; domains are replaced by their types; a handler becomes a route of its service and a call of
every client that refers to it.

| here | in the program |
| --- | --- |
| `lower`, `lowerDocuments` | `lower`, with the set `lowered` |
| `lowerDecl`, `supported` | `lower_node`, `supports` |
| `target?`, `documentOf?` | `target`, `document_of` |
| `typeWith`, `lowerType`, `domainType` | `lower_type_at`, `lower_type`, `domain_type` |
| `lowerReturns`, `lowerFields`, `lowerParams` | `lower_returns`, `lower_fields`, `lower_params` |
| `lowerTable`, `tableFields` | `lower_table`, `table_fields` |
| `lowerEntity`, `lowerShape` | `lower_entity`, `lower_shape` |
| `lowerMapper`, `lowerQueries` | `lower_mapper` |
| `lowerController`, `lowerHandlers` | `lower_controller` |
| `lowerApi`, `lowerMember`, `lowerCalls` | `lower_api` |
| `routeSpec`, `handlerAddress?`, `bindingSource` | `route_spec` |
| `lowerBlock`, `lowerStmt` | `lower_block`, `lower_stmt` |
| `lowerExpr`, `nameKind` | `lower_expr`, `name_kind` |
| `lowerMarkup`, `originAt` | `lower_markup`, `origin` |
-/

namespace Scaffold

namespace Lowering

/-- What lowering reads. -/
structure Env where
  symbols : SymbolTable
  imports : ImportTable
  platform : Option Platform

/-- What lowering builds. -/
structure State where
  /-- Handlers whose faults have been reported. -/
  reported : List NodeId := []
  /-- Methods and paths that are taken. -/
  routes : List (HttpMethod × String) := []
  diagnostics : Diagnostics := []
  model : CodeModel := {}

/-- A lowering step. What it reported stays when it fails. -/
abbrev Lower (α : Type) : Type := ExceptT CompileError (StateM State) α

def report (e : CompileError) : Lower Unit :=
  modify fun s => { s with diagnostics := s.diagnostics ++ [e.toDiagnostic] }

/-! ## Types -/

def target? (env : Env) (r : NameRef) : Option Symbol :=
  r.target.bind (env.symbols.symbols[·]?)

def documentOf? (env : Env) (s : Symbol) : Option Source.Document :=
  env.imports.get? s.path

/-- The kind of data type that a symbol declares. -/
def dataKind : SymbolKind → Model.DataKind
  | .table => .table
  | .entity => .entity
  | .shape => .queryResult
  | _ => .record

/-- A type whose domains are given by `domain`. An unbound name is any type. -/
def typeWith (env : Env) (domain : Symbol → Model.Ty) : Source.TypeRef → Model.Ty
  | .primitive p => .primitive p
  | .list item => .list (typeWith env domain item)
  | .named r =>
    match target? env r with
    | none => .primitive .any
    | some s => if s.kind == .domain then domain s else .named s.name (dataKind s.kind)

/-- The type that a domain stands for, through at most `depth` domains. -/
def domainType (env : Env) : (depth : Nat) → Symbol → Model.Ty
  | 0, _ => .primitive .any
  | depth + 1, s =>
    match (documentOf? env s).bind (·.domain? s.node) with
    | some d => typeWith env (domainType env depth) d.type
    | none => .primitive .any

/-- How many domains may be defined through each other. -/
def maxDomainDepth : Nat := 16

def lowerType (env : Env) (t : Source.TypeRef) : Model.Ty :=
  typeWith env (domainType env maxDomainDepth) t

/-- A return type; one without values counts as none. -/
def lowerReturns (env : Env) (t : Option Source.TypeRef) : Option Model.Ty :=
  (t.map (lowerType env)).filter (!·.isVoid)

def originAt (pos : Position) (node : NodeId) : Model.Origin :=
  ⟨pos.line, pos.col, node⟩

def originOf (h : Source.Header) : Model.Origin :=
  originAt h.pos h.id

/-! ## Data -/

def lowerFields (env : Env) (fs : List Source.Field) : List Model.Field :=
  fs.map fun f => { name := f.name, type := lowerType env f.type }

def lowerParams (env : Env) (fs : List Source.Field) : List Model.Parameter :=
  fs.map fun f => { name := f.name, type := lowerType env f.type }

/-- The columns of a table as fields. -/
def tableFields (env : Env) (t : Source.Table) : List Model.Field :=
  t.columns.map fun c =>
    { name := c.name, type := lowerType env c.type, nullable := c.nullable, auto := c.auto,
      key := t.keys.contains c.name, default := c.default }

/-- A domain. -/
def lowerDomain (env : Env) (d : Source.Domain) : Model.DataType :=
  { name := d.name, kind := .domain, aliasOf := some (lowerType env d.type),
    origin := originOf d.header }

/-- A table. -/
def lowerTable (env : Env) (t : Source.Table) : Model.DataType :=
  { name := t.name, kind := .table, fields := tableFields env t, keys := t.keys,
    indexes := t.indexes.map fun i => ⟨i.name, i.columns, i.unique⟩, table := some t.name,
    origin := originOf t.header }

/-- An entity: the columns of its table, then its own fields. -/
def lowerEntity (env : Env) (e : Source.Entity) : Model.DataType :=
  let table := do
    let s ← target? env (← e.table)
    (← documentOf? env s).table? s.node
  { name := e.name, kind := .entity
    fields := (table.map (tableFields env)).getD [] ++ lowerFields env e.fields
    keys := (table.map (·.keys)).getD [], table := table.map (·.name), origin := originOf e.header }

def lowerRecord (env : Env) (r : Source.Record) : Model.DataType :=
  { name := r.name, kind := .record, fields := lowerFields env r.fields, origin := originOf r.header }

/-- A result shape. -/
def lowerShape (env : Env) (s : Source.ResultShape) : Model.DataType :=
  { name := s.name, kind := .queryResult, fields := lowerFields env s.columns,
    origin := originAt s.pos s.id }

/-! ## Expressions and statements -/

/-- What a name bound to a symbol of this kind refers to. -/
def nameKind : SymbolKind → Model.NameKind
  | .local => .local
  | .param => .param
  | .property => .constant
  | .func => .procedure
  | .mapper => .dataAccess
  | .controller => .service
  | .api => .client
  | k => if k.isType then .type else .other

mutual

/-- An expression. -/
def lowerExpr (env : Env) : Source.Expr → Model.Expr
  | .literal l => .literal l
  | .name r =>
    .name r.name (((target? env r).map fun s => nameKind s.kind).getD .other)
  | .member object name => .member (lowerExpr env object) name
  | .call callee args => .call (lowerExpr env callee) (lowerExprs env args)
  | .native path args _ => .native path (lowerExprs env args)
  | .unary op e => .unary op (lowerExpr env e)
  | .binary op lhs rhs => .binary op (lowerExpr env lhs) (lowerExpr env rhs)

/-- Expressions. -/
def lowerExprs (env : Env) : List Source.Expr → List Model.Expr
  | [] => []
  | e :: rest => lowerExpr env e :: lowerExprs env rest

end

/-- What a loop runs over. -/
def lowerIter (env : Env) : Source.ForIter → Model.ForIter
  | .range first last => .range (lowerExpr env first) (lowerExpr env last)
  | .each items => .each (lowerExpr env items)

mutual

/-- A statement. -/
def lowerStmt (env : Env) : Source.Stmt → Model.Stmt
  | .declare name type init _ =>
    .declare name (type.map (lowerType env)) (init.map (lowerExpr env))
  | .assign target value _ => .assign (lowerExpr env target) (lowerExpr env value)
  | .cond test yes no _ => .cond (lowerExpr env test) (lowerBlock env yes) (lowerElse env no)
  | .loop test body _ => .loop (lowerExpr env test) (lowerBlock env body)
  | .each var iter body _ => .each var (lowerIter env iter) (lowerBlock env body)
  | .ret value _ => .ret (value.map (lowerExpr env))
  | .leave _ => .leave
  | .next _ => .next
  | .expr e _ => .expr (lowerExpr env e)

/-- Statements. -/
def lowerBlock (env : Env) : List Source.Stmt → List Model.Stmt
  | [] => []
  | s :: rest => lowerStmt env s :: lowerBlock env rest

/-- The statements of an `else`. -/
def lowerElse (env : Env) : Option (List Source.Stmt) → Option (List Model.Stmt)
  | none => none
  | some body => some (lowerBlock env body)

end

mutual

/-- A piece of markup. -/
def lowerMarkupNode : MarkupNode → Model.Markup
  | .element tag attrs component children =>
    .element tag attrs component.isSome (lowerMarkup children)
  | .text s => .text s
  | .interpolation source => .interpolation source

/-- Pieces of markup. -/
def lowerMarkup : List MarkupNode → List Model.Markup
  | [] => []
  | node :: rest => lowerMarkupNode node :: lowerMarkup rest

end

/-! ## Mappers -/

/-- A query, or nothing if its SQL uses a parameter that is not declared. A declared parameter that
is not used is worth a warning. -/
def lowerQuery (env : Env) (path : Path) (mapper : String) (q : Source.Query) :
    Lower (Option Model.Operation) := do
  let declaration := s!"{mapper}.{q.name}"
  let used := Sql.parameters q.sql
  match used.find? fun name => !q.params.any (·.name == name) with
  | some name =>
    report (.fault path q.sqlPos (.unboundParameter declaration name))
    return none
  | none =>
    for p in q.params do
      if !used.contains p.name then
        report (.fault path p.pos (.unusedParameter declaration p.name))
    let returns := lowerReturns env q.returns
    return some
      { name := q.name, kind := Sql.statementKind q.sql, params := lowerParams env q.params, returns
        returnsMany := returns.any Model.Ty.isList, sql := q.sql
        positionalSql := Sql.positional q.sql, bindOrder := Sql.bindOrder q.sql
        origin := originOf q.header }

/-- The queries of a mapper. -/
def lowerQueries (env : Env) (path : Path) (mapper : String) :
    List Source.Query → Lower (List Model.Operation)
  | [] => pure []
  | q :: rest => do
    let op ← lowerQuery env path mapper q
    return op.toList ++ (← lowerQueries env path mapper rest)

/-- A mapper. -/
def lowerMapper (env : Env) (path : Path) (m : Source.Mapper) : Lower Model.DataAccess := do
  let operations ← lowerQueries env path m.name m.queries
  return { name := m.name, datasource := m.header.annotations.text? "datasource", operations
           origin := originOf m.header }

/-! ## Routes -/

/-- What a handler answers. -/
structure RouteSpec where
  method : HttpMethod
  path : String
  bindings : List Model.Binding
  returns : Option Model.Ty

/-- Where the value of a parameter travels: in the path if it is a placeholder there, in the body if
the handler says so, else in the query. -/
def bindingSource (placeholders : List String) (body : Option String) (name : String) :
    Model.BindingSource :=
  if placeholders.contains name then .path
  else if body == some name then .body
  else .query

/-- The method and path of a handler, if its annotations give them. -/
def handlerAddress? (c : Source.Controller) (f : Source.Func) : Option (HttpMethod × String) := do
  let method ← HttpMethod.ofText? (← f.header.annotations.text? "method")
  let base := (c.header.annotations.text? "baseUrl").getD ""
  return (method, Url.join base (← f.header.annotations.text? "route"))

/-- What a handler answers. A placeholder without a parameter is reported once per handler, and such
a handler answers nothing. -/
def routeSpec (env : Env) (path : Path) (c : Source.Controller) (f : Source.Func) :
    Lower (Option RouteSpec) := do
  match handlerAddress? c f with
  | none => return none
  | some (method, full) =>
    let placeholders := Url.placeholders full
    match placeholders.find? fun name => !f.params.any (·.name == name) with
    | some missing =>
      if !(← get).reported.contains f.header.id then
        modify fun s => { s with reported := s.reported ++ [f.header.id] }
        report (.fault path f.header.pos (.unboundParameter s!"{c.name}.{f.name}" missing))
      return none
    | none =>
      let body := f.header.annotations.text? "body"
      let bindings := f.params.map fun p =>
        { name := p.name, type := lowerType env p.type
          source := bindingSource placeholders body p.name : Model.Binding }
      return some { method, path := full, bindings, returns := lowerReturns env f.returns }

/-- The routes of a controller. Two handlers that answer the same requests end lowering. -/
def lowerHandlers (env : Env) (path : Path) (c : Source.Controller) :
    List Source.Func → Lower (List Model.Route)
  | [] => pure []
  | f :: rest => do
    match ← routeSpec env path c f with
    | none => lowerHandlers env path c rest
    | some spec =>
      if (← get).routes.contains (spec.method, spec.path) then
        throw (.fault path f.header.pos (.duplicateRoute spec.method.upper spec.path))
      modify fun s => { s with routes := s.routes ++ [(spec.method, spec.path)] }
      let route : Model.Route :=
        { handler := f.name, method := spec.method, path := spec.path, bindings := spec.bindings
          returns := spec.returns, body := lowerBlock env f.body
          id := (f.header.annotations.get? "id").bind AnnotationValue.int?
          comment := f.header.annotations.text? "comment", origin := originOf f.header }
      return route :: (← lowerHandlers env path c rest)

/-- A controller. -/
def lowerController (env : Env) (path : Path) (c : Source.Controller) : Lower Model.Service := do
  let routes ← lowerHandlers env path c c.handlers
  return { name := c.name, baseUrl := (c.header.annotations.text? "baseUrl").getD ""
           comment := c.header.annotations.text? "comment", routes, origin := originOf c.header }

/-! ## Clients -/

/-- The calls of handlers. -/
def lowerCalls (env : Env) (path : Path) (c : Source.Controller) :
    List Source.Func → Lower (List Model.ClientCall)
  | [] => pure []
  | f :: rest => do
    match ← routeSpec env path c f with
    | none => lowerCalls env path c rest
    | some spec =>
      let call : Model.ClientCall :=
        { name := f.name, service := c.name, method := spec.method, path := spec.path
          bindings := spec.bindings, returns := spec.returns
          comment := f.header.annotations.text? "comment" }
      return call :: (← lowerCalls env path c rest)

/-- The controller that a member of a client refers to, with its document. -/
def memberController? (env : Env) (m : Source.ApiMember) :
    Option (Source.Document × Source.Controller) := do
  let s ← target? env m.controller
  let d ← documentOf? env s
  return (d, ← d.controller? s.node)

/-- The calls of a member: of one handler, or of all handlers of a controller. -/
def lowerMember (env : Env) (path : Path) (api : String) (m : Source.ApiMember) :
    Lower (List Model.ClientCall) := do
  match memberController? env m with
  | none => return []
  | some (d, c) =>
    match m.handler with
    | none => lowerCalls env d.path c c.handlers
    | some name =>
      match c.handlers.find? (·.name == name) with
      | some f => lowerCalls env d.path c [f]
      | none =>
        report (.fault path m.pos (.unresolvedSymbol s!"{c.name}.{name}" s!"api {api}"))
        return []

/-- The calls of members. -/
def lowerMembers (env : Env) (path : Path) (api : String) :
    List Source.ApiMember → Lower (List Model.ClientCall)
  | [] => pure []
  | m :: rest => do
    let calls ← lowerMember env path api m
    return calls ++ (← lowerMembers env path api rest)

/-- A client. -/
def lowerApi (env : Env) (path : Path) (a : Source.Api) : Lower Model.ClientApi := do
  let calls ← lowerMembers env path a.name a.members
  return { name := a.name, baseUrl := (a.header.annotations.text? "baseUrl").getD "", calls
           origin := originOf a.header }

/-! ## Declarations -/

/-- A page. -/
def lowerPage (p : Source.Page) : Model.Page :=
  { name := p.name, route := p.header.annotations.text? "route"
    title := p.header.annotations.text? "title", parent := p.parent.map (·.name)
    layout := p.layout.map (·.name), markup := lowerMarkup p.markup, origin := originOf p.header }

/-- A property. -/
def lowerProperty (env : Env) (p : Source.Property) : Model.Constant :=
  { name := p.name, type := lowerType env p.type, value := p.value.map (lowerExpr env)
    origin := originOf p.header }

/-- A function. -/
def lowerFunc (env : Env) (f : Source.Func) : Model.Procedure :=
  { name := f.name, params := lowerParams env f.params, returns := lowerReturns env f.returns
    body := lowerBlock env f.body, isEntry := f.name == "main", origin := originOf f.header }

/-- The category of a declaration; imports have none. -/
def category? : Source.Decl → Option Category
  | .importFile _ => none
  | .domain _ | .table _ | .entity _ | .record _ => some .data
  | .mapper _ => some .mapper
  | .controller _ => some .controller
  | .api _ => some .api
  | .page _ => some .page
  | .property _ => some .property
  | .func _ => some .func

/-- Whether the target expresses a category; if not, a warning says what is left out. -/
def supported (env : Env) (category : Category) (construct : String) : Lower Bool := do
  match env.platform with
  | none => return true
  | some p =>
    if p.supports category then return true
    else
      report (.platformUnsupported p.key construct)
      return false

def extend (f : CodeModel → CodeModel) : Lower Unit :=
  modify fun s => { s with model := f s.model }

def addData (d : Model.DataType) : Lower Unit :=
  extend fun m => { m with dataTypes := m.dataTypes ++ [d] }

/-- Adds a supported declaration to the model. -/
def addDecl (env : Env) (path : Path) : Source.Decl → Lower Unit
  | .importFile _ => pure ()
  | .domain d => addData (lowerDomain env d)
  | .table t => addData (lowerTable env t)
  | .entity e => addData (lowerEntity env e)
  | .record r => addData (lowerRecord env r)
  | .mapper m => do
    let x ← lowerMapper env path m
    extend fun m => { m with mappers := m.mappers ++ [x] }
  | .controller c => do
    let x ← lowerController env path c
    extend fun m => { m with services := m.services ++ [x] }
  | .api a => do
    let x ← lowerApi env path a
    extend fun m => { m with clients := m.clients ++ [x] }
  | .page p => extend fun m => { m with pages := m.pages ++ [lowerPage p] }
  | .property p => extend fun m => { m with constants := m.constants ++ [lowerProperty env p] }
  | .func f => extend fun m => { m with procedures := m.procedures ++ [lowerFunc env f] }

/-- Lowers a declaration, if the target expresses it. -/
def lowerDecl (env : Env) (path : Path) (d : Source.Decl) : Lower Unit := do
  match category? d with
  | none => return
  | some category =>
    if ← supported env category s!"{d.kindText} {d.name?.getD default}" then addDecl env path d

/-- Lowers declarations in order. One whose number was lowered before is passed over; the numbers
that are lowered then are handed on. -/
def lowerDecls (env : Env) (path : Path) :
    (lowered : List NodeId) → List Source.Decl → Lower (List NodeId)
  | lowered, [] => pure lowered
  | lowered, d :: rest => do
    if lowered.contains d.header.id then lowerDecls env path lowered rest
    else
      lowerDecl env path d
      lowerDecls env path (lowered ++ [d.header.id]) rest

/-- Lowers result shapes in order, each number once. -/
def lowerShapes (env : Env) :
    (lowered : List NodeId) → List Source.ResultShape → Lower (List NodeId)
  | lowered, [] => pure lowered
  | lowered, s :: rest => do
    if lowered.contains s.id then lowerShapes env lowered rest
    else
      if ← supported env .data s!"query result {s.name}" then addData (lowerShape env s)
      lowerShapes env (lowered ++ [s.id]) rest

/-- Lowers documents in order, each number once. -/
def lowerDocuments (env : Env) : (lowered : List NodeId) → List Source.Document → Lower Unit
  | _, [] => pure ()
  | lowered, d :: rest => do
    let lowered ← lowerDecls env d.path lowered d.decls
    let lowered ← lowerShapes env lowered d.shapes
    lowerDocuments env lowered rest

end Lowering

namespace Session

/-- The code model of the project's documents. -/
def lower (s : Session) : Except CompileError CodeModel × Session :=
  let env : Lowering.Env := { symbols := s.symbols, imports := s.imports, platform := s.platform }
  let (result, final) :=
    (Lowering.lowerDocuments env [] s.projectDocuments).run { diagnostics := s.diagnostics }
  (result.map fun () => final.model, { s with diagnostics := final.diagnostics })

end Session

end Scaffold
