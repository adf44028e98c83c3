import Scaffold.Session

/-!
Finding out what names mean. Every name of a parsed file is looked up from the scope it was written
in, and must be of a kind that its place accepts; what is not is reported.

| here | in the program |
| --- | --- |
| `Expectation` | `Expect` |
| `name` | `bind` |
| `type`, `fields`, `func` | `bind_type`, `bind_fields`, `bind_func` |
| `stmts`, `expr`, `markup` | `bind_stmts`, `bind_expr`, `bind_markup` |
| `dataDecl`, `otherDecl` | `bind_node` |
| `decls` | `complete`, either of its two passes |
-/

namespace Scaffold.Source

/-- What a place accepts. -/
inductive Expectation where
  | type
  | table
  | page
  | controller
  | value
  deriving DecidableEq, Inhabited

namespace Expectation

/-- A symbol of this kind may stand here. -/
def accepts : Expectation → SymbolKind → Bool
  | .type, kind => kind.isType
  | .table, kind => kind == .table
  | .page, kind => kind == .page
  | .controller, kind => kind == .controller
  | .value, _ => true

/-- What is expected, in words. -/
def text : Expectation → String
  | .type => "a type"
  | .table => "a table"
  | .page => "a page"
  | .controller => "a controller"
  | .value => "a value"

end Expectation

/-- What names are bound against, and how problems are placed. -/
structure Binder where
  symbols : SymbolTable
  path : Path
  /-- The declaration being bound, in words. -/
  context : String

/-- Binding collects the problems it finds. -/
abbrev Bind (α : Type) : Type := StateM Diagnostics α

namespace Binder

def report (b : Binder) (pos : Position) (f : Fault) : Bind Unit :=
  modify (· ++ [(CompileError.fault b.path pos f).toDiagnostic])

/-- Binds a name. -/
def name (b : Binder) (expectation : Expectation) (r : NameRef) : Bind NameRef := do
  match b.symbols.resolve r.scope r.name r.seq with
  | none =>
    b.report r.pos (.unresolvedSymbol r.name b.context)
    return r
  | some id =>
    match b.symbols.symbols[id]? with
    | none => return r
    | some symbol =>
      if expectation.accepts symbol.kind then return { r with target := some id }
      else
        b.report r.pos (.kindMismatch r.name expectation.text symbol.kind.text)
        return r

/-- Binds a name that may be missing. -/
def name? (b : Binder) (expectation : Expectation) : Option NameRef → Bind (Option NameRef)
  | none => pure none
  | some r => do return some (← b.name expectation r)

/-- Binds the name in a type, unless it is bound already. -/
def type (b : Binder) : TypeRef → Bind TypeRef
  | .primitive p => pure (.primitive p)
  | .list item => do return .list (← b.type item)
  | .named r => do
    if r.target.isNone then return .named (← b.name .type r) else return .named r

/-- Binds a type that may be missing. -/
def type? (b : Binder) : Option TypeRef → Bind (Option TypeRef)
  | none => pure none
  | some t => do return some (← b.type t)

/-- Binds the types of fields. -/
def fields (b : Binder) : List Field → Bind (List Field)
  | [] => pure []
  | f :: rest => do
    let type ← b.type f.type
    return { f with type } :: (← b.fields rest)

/-- Binds the types of columns. -/
def columns (b : Binder) : List Column → Bind (List Column)
  | [] => pure []
  | c :: rest => do
    let type ← b.type c.type
    return { c with type } :: (← b.columns rest)

mutual

/-- Binds the names of an expression from left to right. -/
def expr (b : Binder) : Expr → Bind Expr
  | .literal l => pure (.literal l)
  | .name r => do return .name (← b.name .value r)
  | .member object name => do return .member (← b.expr object) name
  | .call callee args => do
    let callee ← b.expr callee
    return .call callee (← b.exprs args)
  | .native path args pos => do return .native path (← b.exprs args) pos
  | .unary op e => do return .unary op (← b.expr e)
  | .binary op lhs rhs => do
    let lhs ← b.expr lhs
    return .binary op lhs (← b.expr rhs)

/-- Binds the names of expressions. -/
def exprs (b : Binder) : List Expr → Bind (List Expr)
  | [] => pure []
  | e :: rest => do
    let e ← b.expr e
    return e :: (← b.exprs rest)

end

/-- Binds an expression that may be missing. -/
def expr? (b : Binder) : Option Expr → Bind (Option Expr)
  | none => pure none
  | some e => do return some (← b.expr e)

/-- Binds what a loop runs over. -/
def iter (b : Binder) : ForIter → Bind ForIter
  | .range first last => do
    let first ← b.expr first
    return .range first (← b.expr last)
  | .each items => do return .each (← b.expr items)

mutual

/-- Binds the names of a statement in the order they are written. -/
def stmt (b : Binder) : Stmt → Bind Stmt
  | .declare name type init pos => do
    let type ← b.type? type
    return .declare name type (← b.expr? init) pos
  | .assign target value pos => do
    let target ← b.expr target
    return .assign target (← b.expr value) pos
  | .cond test yes no pos => do
    let test ← b.expr test
    let yes ← b.stmts yes
    return .cond test yes (← b.stmts? no) pos
  | .loop test body pos => do
    let test ← b.expr test
    return .loop test (← b.stmts body) pos
  | .each var iter body pos => do
    let iter ← b.iter iter
    return .each var iter (← b.stmts body) pos
  | .ret value pos => do return .ret (← b.expr? value) pos
  | .leave pos => pure (.leave pos)
  | .next pos => pure (.next pos)
  | .expr e pos => do return .expr (← b.expr e) pos

/-- Binds the names of statements. -/
def stmts (b : Binder) : List Stmt → Bind (List Stmt)
  | [] => pure []
  | s :: rest => do
    let s ← b.stmt s
    return s :: (← b.stmts rest)

/-- Binds the names of statements that may be missing. -/
def stmts? (b : Binder) : Option (List Stmt) → Bind (Option (List Stmt))
  | none => pure none
  | some body => do return some (← b.stmts body)

end

mutual

/-- Binds the components of a node, outermost first. -/
def markupNode (b : Binder) : MarkupNode → Bind MarkupNode
  | .element tag attrs component children => do
    let component ← b.name? .page component
    return .element tag attrs component (← b.markup children)
  | node => pure node

/-- Binds the components of nodes. -/
def markup (b : Binder) : List MarkupNode → Bind (List MarkupNode)
  | [] => pure []
  | node :: rest => do
    let node ← b.markupNode node
    return node :: (← b.markup rest)

end

/-- Binds a function. -/
def func (b : Binder) (f : Func) : Bind Func := do
  let params ← b.fields f.params
  let returns ← b.type? f.returns
  let body ← b.stmts f.body
  return { f with params, returns, body }

/-- Binds the queries of a mapper. -/
def queries (b : Binder) (mapper : String) : List Query → Bind (List Query)
  | [] => pure []
  | q :: rest => do
    let inner := { b with context := s!"query {mapper}.{q.name}" }
    let params ← inner.fields q.params
    let returns ← inner.type? q.returns
    return { q with params, returns } :: (← b.queries mapper rest)

/-- Binds the handlers of a controller. -/
def handlers (b : Binder) (controller : String) : List Func → Bind (List Func)
  | [] => pure []
  | f :: rest => do
    let f ← { b with context := s!"handler {controller}.{f.name}" : Binder }.func f
    return f :: (← b.handlers controller rest)

/-- Binds the controllers of a client. -/
def members (b : Binder) : List ApiMember → Bind (List ApiMember)
  | [] => pure []
  | m :: rest => do
    let controller ← b.name .controller m.controller
    return { m with controller } :: (← b.members rest)

/-- Binds domains and table columns, whose types result shapes copy. -/
def dataDecl (b : Binder) : Decl → Bind Decl
  | .domain d => do
    let type ← { b with context := s!"domain {d.name}" : Binder }.type d.type
    return .domain { d with type }
  | .table t => do
    let columns ← { b with context := s!"table {t.name}" : Binder }.columns t.columns
    return .table { t with columns }
  | d => pure d

/-- Binds all other declarations. -/
def otherDecl (b : Binder) : Decl → Bind Decl
  | .entity e => do
    let b := { b with context := s!"entity {e.name}" }
    let table ← b.name? .table e.table
    let fields ← b.fields e.fields
    return .entity { e with table, fields }
  | .record r => do
    let fields ← { b with context := s!"struct {r.name}" : Binder }.fields r.fields
    return .record { r with fields }
  | .mapper m => do return .mapper { m with queries := ← b.queries m.name m.queries }
  | .controller c => do return .controller { c with handlers := ← b.handlers c.name c.handlers }
  | .api a => do
    let members ← { b with context := s!"api {a.name}" : Binder }.members a.members
    return .api { a with members }
  | .page p => do
    let b := { b with context := s!"page {p.name}" }
    let parent ← b.name? .page p.parent
    let layout ← b.name? .page p.layout
    let markup ← b.markup p.markup
    return .page { p with parent, layout, markup }
  | .property p => do
    let b := { b with context := s!"property {p.name}" }
    let type ← b.type p.type
    let value ← b.expr? p.value
    return .property { p with type, value }
  | .func f => do return .func (← { b with context := s!"function {f.name}" : Binder }.func f)
  | d => pure d

/-- Binds declarations one by one. -/
def decls (bindDecl : Decl → Bind Decl) : List Decl → Bind (List Decl)
  | [] => pure []
  | d :: rest => do
    let d ← bindDecl d
    return d :: (← decls bindDecl rest)

end Binder

end Scaffold.Source
