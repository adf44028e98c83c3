import Scaffold.Data
import Scaffold.Model.Basic

/-!
The code model as a data document. Alternatives are tagged with their kind, and most entries without
a value are left out.
-/

namespace Scaffold

namespace Model

namespace DataKind

/-- The word for a kind of data type. -/
def word : DataKind → String
  | .domain => "domain"
  | .table => "table"
  | .entity => "entity"
  | .record => "struct"
  | .queryResult => "query_result"

end DataKind

namespace NameKind

/-- The word for a kind of name. -/
def word : NameKind → String
  | .local => "local"
  | .param => "param"
  | .constant => "constant"
  | .procedure => "procedure"
  | .dataAccess => "data_access"
  | .service => "service"
  | .client => "client"
  | .type => "type"
  | .other => "other"

end NameKind

namespace BindingSource

/-- The word for where a value travels. -/
def word : BindingSource → String
  | .path => "path"
  | .query => "query"
  | .body => "body"

end BindingSource

/-- A literal. -/
def literalData : Literal → Data
  | .int n => .tagged "int" (.int n)
  | .float x => .tagged "float" (.float x)
  | .str s => .tagged "str" (.str s)
  | .bool b => .tagged "bool" (.bool b)
  | .null => .tag "null"

/-- A type. -/
def Ty.toData : Ty → Data
  | .primitive p => .tagged "primitive" (.str p.spelling)
  | .list item => .tagged "list" item.toData
  | .named name kind => .tagged "named" (.map [("name", .str name), ("kind", .str kind.word)])

def returnsData (t : Option Ty) : Data :=
  Data.optional Ty.toData t

def Origin.toData (o : Origin) : Data :=
  .map [("line", .int o.line), ("column", .int o.column), ("node", .int o.node)]

/-- A field. -/
def Field.toData (f : Field) : Data :=
  .map ([("name", .str f.name), ("ty", f.type.toData), ("nullable", .bool f.nullable),
    ("auto", .bool f.auto), ("key", .bool f.key)] ++ Data.entry? "default" literalData f.default)

def Index.toData (i : Index) : Data :=
  .map [("name", .str i.name), ("columns", .texts i.columns), ("unique", .bool i.unique)]

/-- A data type. -/
def DataType.toData (d : DataType) : Data :=
  .map ([("name", .str d.name), ("kind", .str d.kind.word),
      ("fields", .list (d.fields.map Field.toData)), ("keys", .texts d.keys),
      ("indexes", .list (d.indexes.map Index.toData))]
    ++ Data.entry? "table" .str d.table ++ Data.entry? "alias_of" Ty.toData d.aliasOf
    ++ [("origin", d.origin.toData)])

def Parameter.toData (p : Parameter) : Data :=
  .map [("name", .str p.name), ("ty", p.type.toData)]

/-- An SQL statement. -/
def Operation.toData (o : Operation) : Data :=
  .map [("name", .str o.name), ("kind", .str o.kind.text),
    ("params", .list (o.params.map Parameter.toData)), ("returns", returnsData o.returns),
    ("returns_many", .bool o.returnsMany), ("sql", .str o.sql),
    ("positional_sql", .str o.positionalSql), ("bind_order", .texts o.bindOrder),
    ("origin", o.origin.toData)]

/-- A group of SQL statements. -/
def DataAccess.toData (a : DataAccess) : Data :=
  .map ([("name", .str a.name)] ++ Data.entry? "datasource" .str a.datasource
    ++ [("operations", .list (a.operations.map Operation.toData)), ("origin", a.origin.toData)])

def Binding.toData (b : Binding) : Data :=
  .map [("name", .str b.name), ("ty", b.type.toData), ("source", .str b.source.word)]

mutual

/-- An expression. -/
def Expr.toData : Expr → Data
  | .literal l => .tagged "literal" (literalData l)
  | .name name kind => .tagged "name" (.map [("name", .str name), ("kind", .str kind.word)])
  | .member object name =>
    .tagged "member" (.map [("object", object.toData), ("name", .str name)])
  | .call callee args =>
    .tagged "call" (.map [("callee", callee.toData), ("args", .list (exprsData args))])
  | .native path args =>
    .tagged "native" (.map [("path", .texts path), ("args", .list (exprsData args))])
  | .unary op e => .tagged "unary" (.map [("op", .str op.word), ("expr", e.toData)])
  | .binary op lhs rhs =>
    .tagged "binary" (.map [("op", .str op.word), ("lhs", lhs.toData), ("rhs", rhs.toData)])

/-- Expressions. -/
def exprsData : List Expr → List Data
  | [] => []
  | e :: rest => e.toData :: exprsData rest

end

/-- What a loop runs over. -/
def ForIter.toData : ForIter → Data
  | .range first last => .tagged "range" (.list [first.toData, last.toData])
  | .each items => .tagged "each" items.toData

mutual

/-- A statement. -/
def Stmt.toData : Stmt → Data
  | .declare name type init =>
    .tagged "var" (.map [("name", .str name), ("ty", returnsData type),
      ("init", Data.optional Expr.toData init)])
  | .assign target value =>
    .tagged "assign" (.map [("target", target.toData), ("value", value.toData)])
  | .cond test yes no =>
    .tagged "if" (.map [("cond", test.toData), ("then", .list (stmtsData yes)),
      ("otherwise", elseData no)])
  | .loop test body =>
    .tagged "while" (.map [("cond", test.toData), ("body", .list (stmtsData body))])
  | .each var iter body =>
    .tagged "for" (.map [("var", .str var), ("iter", iter.toData),
      ("body", .list (stmtsData body))])
  | .ret value => .tagged "return" (Data.optional Expr.toData value)
  | .leave => .tag "break"
  | .next => .tag "continue"
  | .expr e => .tagged "expr" e.toData

/-- Statements. -/
def stmtsData : List Stmt → List Data
  | [] => []
  | s :: rest => s.toData :: stmtsData rest

/-- Statements, or null. -/
def elseData : Option (List Stmt) → Data
  | none => .null
  | some body => .list (stmtsData body)

end

/-- A route. -/
def Route.toData (r : Route) : Data :=
  .map ([("handler", .str r.handler), ("method", .str r.method.upper), ("path", .str r.path),
      ("bindings", .list (r.bindings.map Binding.toData)), ("returns", returnsData r.returns),
      ("body", .list (stmtsData r.body))]
    ++ Data.entry? "id" .int r.id ++ Data.entry? "comment" .str r.comment
    ++ [("origin", r.origin.toData)])

/-- A service. -/
def Service.toData (s : Service) : Data :=
  .map ([("name", .str s.name), ("base_url", .str s.baseUrl)]
    ++ Data.entry? "comment" .str s.comment
    ++ [("routes", .list (s.routes.map Route.toData)), ("origin", s.origin.toData)])

/-- A request of a client. -/
def ClientCall.toData (c : ClientCall) : Data :=
  .map ([("name", .str c.name), ("service", .str c.service), ("method", .str c.method.upper),
      ("path", .str c.path), ("bindings", .list (c.bindings.map Binding.toData)),
      ("returns", returnsData c.returns)]
    ++ Data.entry? "comment" .str c.comment)

/-- A client. -/
def ClientApi.toData (c : ClientApi) : Data :=
  .map [("name", .str c.name), ("base_url", .str c.baseUrl),
    ("calls", .list (c.calls.map ClientCall.toData)), ("origin", c.origin.toData)]

mutual

/-- A piece of markup. -/
def Markup.toData : Markup → Data
  | .element tag attrs component children =>
    .tagged "element" (.map [("tag", .str tag),
      ("attrs", .list (attrs.map fun (n, v) => .list [.str n, Data.optional .str v])),
      ("children", .list (markupData children)), ("component", .bool component)])
  | .text s => .tagged "text" (.str s)
  | .interpolation source => .tagged "interpolation" (.str source)

/-- Pieces of markup. -/
def markupData : List Markup → List Data
  | [] => []
  | m :: rest => m.toData :: markupData rest

end

/-- A page. -/
def Page.toData (p : Page) : Data :=
  .map ([("name", .str p.name)] ++ Data.entry? "route" .str p.route
    ++ Data.entry? "title" .str p.title ++ Data.entry? "parent" .str p.parent
    ++ Data.entry? "layout" .str p.layout
    ++ [("markup", .list (markupData p.markup)), ("origin", p.origin.toData)])

/-- A function. -/
def Procedure.toData (p : Procedure) : Data :=
  .map [("name", .str p.name), ("params", .list (p.params.map Parameter.toData)),
    ("returns", returnsData p.returns), ("body", .list (stmtsData p.body)),
    ("is_entry", .bool p.isEntry), ("origin", p.origin.toData)]

/-- A named value. -/
def Constant.toData (c : Constant) : Data :=
  .map [("name", .str c.name), ("ty", c.type.toData), ("value", Data.optional Expr.toData c.value),
    ("origin", c.origin.toData)]

end Model

/-- A whole program. -/
def CodeModel.toData (m : CodeModel) : Data :=
  .map [("data_types", .list (m.dataTypes.map Model.DataType.toData)),
    ("mappers", .list (m.mappers.map Model.DataAccess.toData)),
    ("services", .list (m.services.map Model.Service.toData)),
    ("clients", .list (m.clients.map Model.ClientApi.toData)),
    ("pages", .list (m.pages.map Model.Page.toData)),
    ("procedures", .list (m.procedures.map Model.Procedure.toData)),
    ("constants", .list (m.constants.map Model.Constant.toData))]

end Scaffold
