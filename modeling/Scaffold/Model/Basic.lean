import Scaffold.HttpMethod
import Scaffold.Model.Term
import Scaffold.Sql.Select

/-!
The code model: a whole program, independent of any platform. Generators and prompts are made from
it.

| here | in the program |
| --- | --- |
| `Operation` | `DataAccessOperation` |
| `Binding` | `RouteBinding` |
| `Page` | `PageComponent` |
| `records`, `dataType?`, `entry?`, `isEmpty` | `records`, `data_type`, `entry`, `is_empty` |
-/

namespace Scaffold.Model

/-- Where an element of the model was declared. -/
structure Origin where
  line : Nat
  column : Nat
  node : Nat
  deriving DecidableEq, Inhabited

/-- A field of a data type. -/
structure Field where
  name : String
  type : Ty
  nullable : Bool := false
  auto : Bool := false
  key : Bool := false
  default : Option Literal := none
  deriving DecidableEq, Inhabited

/-- An index of a table. -/
structure Index where
  name : String
  columns : List String
  unique : Bool
  deriving DecidableEq, Inhabited

/-- A data type. -/
structure DataType where
  name : String
  kind : DataKind
  fields : List Field := []
  keys : List String := []
  indexes : List Index := []
  /-- The table behind an entity. -/
  table : Option String := none
  /-- The type that a domain stands for. -/
  aliasOf : Option Ty := none
  origin : Origin
  deriving DecidableEq, Inhabited

/-- A parameter. -/
structure Parameter where
  name : String
  type : Ty
  deriving DecidableEq, Inhabited

/-- An SQL statement with parameters. -/
structure Operation where
  name : String
  kind : Sql.StatementKind
  params : List Parameter
  returns : Option Ty
  returnsMany : Bool
  /-- The statement as written. -/
  sql : String
  /-- The statement with question marks for its parameters. -/
  positionalSql : String
  /-- The parameter of each question mark. -/
  bindOrder : List String
  origin : Origin
  deriving DecidableEq, Inhabited

/-- A group of SQL statements. -/
structure DataAccess where
  name : String
  datasource : Option String
  operations : List Operation
  origin : Origin
  deriving DecidableEq, Inhabited

/-- Where the value of a parameter travels in a request. -/
inductive BindingSource where
  | path
  | query
  | body
  deriving DecidableEq, Inhabited

/-- A parameter of a request. -/
structure Binding where
  name : String
  type : Ty
  source : BindingSource
  deriving DecidableEq, Inhabited

/-- Requests with a method and a path that one handler answers. -/
structure Route where
  handler : String
  method : HttpMethod
  path : String
  bindings : List Binding
  returns : Option Ty
  body : List Stmt
  id : Option Int
  comment : Option String
  origin : Origin
  deriving Inhabited

/-- Routes under one base address. -/
structure Service where
  name : String
  baseUrl : String
  comment : Option String
  routes : List Route
  origin : Origin
  deriving Inhabited

/-- A request that a client makes. -/
structure ClientCall where
  name : String
  service : String
  method : HttpMethod
  path : String
  bindings : List Binding
  returns : Option Ty
  comment : Option String
  deriving DecidableEq, Inhabited

/-- A client of services. -/
structure ClientApi where
  name : String
  baseUrl : String
  calls : List ClientCall
  origin : Origin
  deriving DecidableEq, Inhabited

/-- A piece of page markup. -/
inductive Markup where
  | element (tag : String) (attrs : List (String × Option String)) (component : Bool)
      (children : List Markup)
  | text (s : String)
  | interpolation (source : String)
  deriving Inhabited

namespace Markup

mutual

/-- The components in a piece of markup, in order and with repetitions. -/
def componentsIn : Markup → List String
  | .element tag _ component children => (if component then [tag] else []) ++ components children
  | .text _ => []
  | .interpolation _ => []

/-- The components in pieces of markup, in order and with repetitions. -/
def components : List Markup → List String
  | [] => []
  | node :: rest => node.componentsIn ++ components rest

end

end Markup

/-- A page. -/
structure Page where
  name : String
  route : Option String
  title : Option String
  parent : Option String
  layout : Option String
  markup : List Markup
  origin : Origin
  deriving Inhabited

/-- A function. -/
structure Procedure where
  name : String
  params : List Parameter
  returns : Option Ty
  body : List Stmt
  /-- The program starts here. -/
  isEntry : Bool
  origin : Origin
  deriving Inhabited

/-- A named value. -/
structure Constant where
  name : String
  type : Ty
  value : Option Expr
  origin : Origin
  deriving Inhabited

end Scaffold.Model

namespace Scaffold

/-- A whole program. -/
structure CodeModel where
  dataTypes : List Model.DataType := []
  mappers : List Model.DataAccess := []
  services : List Model.Service := []
  clients : List Model.ClientApi := []
  pages : List Model.Page := []
  procedures : List Model.Procedure := []
  constants : List Model.Constant := []
  deriving Inhabited

namespace CodeModel

/-- How many data types were declared; made-up query results do not count. -/
def entityCount (m : CodeModel) : Nat :=
  m.dataTypes.countP (·.kind != .queryResult)

def dataType? (m : CodeModel) (name : String) : Option Model.DataType :=
  m.dataTypes.find? (·.name == name)

/-- The data types that become records; domains are replaced by their types. -/
def records (m : CodeModel) : List Model.DataType :=
  m.dataTypes.filter (·.kind != .domain)

def entry? (m : CodeModel) : Option Model.Procedure :=
  m.procedures.find? (·.isEntry)

/-- Nothing is declared. -/
def isEmpty (m : CodeModel) : Bool :=
  m.dataTypes.isEmpty && m.mappers.isEmpty && m.services.isEmpty && m.clients.isEmpty
    && m.pages.isEmpty && m.procedures.isEmpty && m.constants.isEmpty

end CodeModel

end Scaffold
