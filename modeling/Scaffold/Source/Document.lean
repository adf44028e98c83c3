import Scaffold.Annotation
import Scaffold.Markup
import Scaffold.Operator
import Scaffold.Path
import Scaffold.Primitive
import Scaffold.Source.Name

/-!
Declarations, and the documents that files of declarations become.

| here | in the program |
| --- | --- |
| `Document` | `AstDocument` |
| `Decl`, `Header` | `AstNode`, `NodeMeta` |
| `Table`, `Entity`, `Record` | `TableDecl`, `EntityDecl`, `StructDecl` |
| `Mapper`, `Query` | `MapperDecl`, `QueryDecl` |
| `Controller`, `Api`, `ApiMember` | `ControllerDecl`, `ApiDecl`, `ApiMember` |
| `Page`, `Property`, `Func` | `PageDecl`, `PropertyDecl`, `FuncDecl` |
| `ResultShape` | `ResultShape` |
-/

/-! ## Terms

Types, expressions and statements as they stand in a source.
-/

namespace Scaffold.Source

/-- A type as written. -/
inductive TypeRef where
  | primitive (p : Primitive)
  | list (item : TypeRef)
  | named (name : NameRef)
  deriving DecidableEq, Inhabited

/-- An expression as written; parentheses leave no trace. -/
inductive Expr where
  | literal (l : Literal)
  | name (r : NameRef)
  | member (object : Expr) (name : String)
  | call (callee : Expr) (args : List Expr)
  /-- A call that the platform provides; its name is not looked up. -/
  | native (path : List String) (args : List Expr) (pos : Position)
  | unary (op : UnaryOp) (e : Expr)
  | binary (op : BinaryOp) (lhs rhs : Expr)
  deriving Inhabited

/-- What a loop runs over. -/
inductive ForIter where
  | range (first last : Expr)
  | each (items : Expr)
  deriving Inhabited

/-- A statement. -/
inductive Stmt where
  | declare (name : String) (type : Option TypeRef) (init : Option Expr) (pos : Position)
  | assign (target value : Expr) (pos : Position)
  | cond (test : Expr) (yes : List Stmt) (no : Option (List Stmt)) (pos : Position)
  | loop (test : Expr) (body : List Stmt) (pos : Position)
  | each (var : String) (iter : ForIter) (body : List Stmt) (pos : Position)
  | ret (value : Option Expr) (pos : Position)
  | leave (pos : Position)
  | next (pos : Position)
  | expr (e : Expr) (pos : Position)
  deriving Inhabited

/-! ## Declarations -/

/-- What every declaration has. -/
structure Header where
  id : NodeId
  pos : Position
  annotations : AnnotationBlock
  deriving Inhabited

/-- A field of a record or a parameter of a function. -/
structure Field where
  name : String
  type : TypeRef
  pos : Position
  deriving DecidableEq, Inhabited

/-- An import and the file it was found to mean. -/
structure Import where
  header : Header
  written : String
  resolved : Path
  deriving Inhabited

/-- A name for a type, replaced by that type wherever it is used. -/
structure Domain where
  header : Header
  name : String
  type : TypeRef
  deriving Inhabited

/-- A column of a table. -/
structure Column where
  name : String
  type : TypeRef
  auto : Bool := false
  nullable : Bool := false
  default : Option Literal := none
  pos : Position
  deriving Inhabited

/-- An index of a table. -/
structure Index where
  name : String
  columns : List String
  unique : Bool
  pos : Position
  deriving Inhabited

/-- A database table. -/
structure Table where
  header : Header
  name : String
  columns : List Column
  keys : List String
  indexes : List Index
  deriving Inhabited

/-- A record, perhaps with the columns of a table. -/
structure Entity where
  header : Header
  name : String
  table : Option NameRef
  fields : List Field
  deriving Inhabited

/-- A record. -/
structure Record where
  header : Header
  name : String
  fields : List Field
  deriving Inhabited

/-- A named SQL statement with parameters. -/
structure Query where
  header : Header
  name : String
  params : List Field
  returns : Option TypeRef
  sql : String
  sqlPos : Position
  /-- The scope of the parameters; table names are looked up from here. -/
  scope : ScopeId
  seq : Nat
  deriving Inhabited

/-- A group of queries. -/
structure Mapper where
  header : Header
  name : String
  queries : List Query
  deriving Inhabited

/-- A function with a body. -/
structure Func where
  header : Header
  name : String
  params : List Field
  returns : Option TypeRef
  body : List Stmt
  deriving Inhabited

/-- A group of functions that answer requests. -/
structure Controller where
  header : Header
  name : String
  handlers : List Func
  deriving Inhabited

/-- A controller, or one handler of it, that a client calls. -/
structure ApiMember where
  controller : NameRef
  handler : Option String
  pos : Position
  deriving Inhabited

/-- A client of controllers. -/
structure Api where
  header : Header
  name : String
  members : List ApiMember
  deriving Inhabited

/-- A page of markup. -/
structure Page where
  header : Header
  name : String
  parent : Option NameRef
  layout : Option NameRef
  markup : List MarkupNode
  deriving Inhabited

/-- A named value. -/
structure Property where
  header : Header
  name : String
  type : TypeRef
  value : Option Expr
  deriving Inhabited

/-- A top-level declaration. -/
inductive Decl where
  | importFile (d : Import)
  | domain (d : Domain)
  | table (d : Table)
  | entity (d : Entity)
  | record (d : Record)
  | mapper (d : Mapper)
  | controller (d : Controller)
  | api (d : Api)
  | page (d : Page)
  | property (d : Property)
  | func (d : Func)
  deriving Inhabited

namespace Decl

/-- The word for the kind of a declaration. -/
def kindText : Decl → String
  | .importFile _ => "import"
  | .domain _ => "domain"
  | .table _ => "table"
  | .entity _ => "entity"
  | .record _ => "struct"
  | .mapper _ => "mapper"
  | .controller _ => "controller"
  | .api _ => "api"
  | .page _ => "page"
  | .property _ => "property"
  | .func _ => "func"

/-- The common part of a declaration. -/
def header : Decl → Header
  | .importFile d => d.header
  | .domain d => d.header
  | .table d => d.header
  | .entity d => d.header
  | .record d => d.header
  | .mapper d => d.header
  | .controller d => d.header
  | .api d => d.header
  | .page d => d.header
  | .property d => d.header
  | .func d => d.header

/-- The declared name; an import declares none. -/
def name? : Decl → Option String
  | .importFile _ => none
  | .domain d => some d.name
  | .table d => some d.name
  | .entity d => some d.name
  | .record d => some d.name
  | .mapper d => some d.name
  | .controller d => some d.name
  | .api d => some d.name
  | .page d => some d.name
  | .property d => some d.name
  | .func d => some d.name

end Decl

/-- The record of columns that a select returns, made up where its name is declared nowhere. -/
structure ResultShape where
  id : NodeId
  name : String
  mapper : String
  query : String
  columns : List Field
  pos : Position
  deriving Inhabited

/-- Where a document comes from. -/
inductive Origin where
  /-- Part of the project: it becomes part of the code model. -/
  | project
  /-- Found in a library root: it only provides symbols. -/
  | builtin
  deriving DecidableEq, Inhabited

/-- A parsed file. -/
structure Document where
  file : FileId
  path : Path
  origin : Origin
  scope : ScopeId
  /-- The files imported, in order. -/
  imports : List Path
  decls : List Decl
  shapes : List ResultShape := []
  deriving Inhabited

namespace Document

def decl? (d : Document) (id : NodeId) : Option Decl :=
  d.decls.find? (·.header.id == id)

/-- The domain with a number. -/
def domain? (d : Document) (id : NodeId) : Option Domain :=
  match d.decl? id with
  | some (.domain x) => some x
  | _ => none

/-- The table with a number. -/
def table? (d : Document) (id : NodeId) : Option Table :=
  d.decls.findSome? fun
    | .table t => if t.header.id == id then some t else none
    | _ => none

/-- The controller with a number. -/
def controller? (d : Document) (id : NodeId) : Option Controller :=
  d.decls.findSome? fun
    | .controller c => if c.header.id == id then some c else none
    | _ => none

end Document

end Scaffold.Source
