import Scaffold.Code
import Scaffold.Model.Basic
import Scaffold.Naming
import Scaffold.Number.Format

/-!
Statements and expressions in the languages that code is generated for. A dialect says how a language
writes each construct; most follow the C family and say little.

| here | in the program |
| --- | --- |
| `Dialect` | `Dialect`, one field for each function |
| `spell` | the cases of every `type_name` |
| `isConsoleLog`, `literal` | `is_console_log`, `render_literal` |
| `BinaryOp.precedence`, `needsParens` | `precedence`, `operand` |
| `expr` | `render_expr` |
| `block`, `filled`, `close` | `render_block`, `empty_block`, `close_block` |
| `stmt`, `otherwise` | `render_stmt` |
| `stmtsExprs`, `Expr.all` | `walk_exprs` |
| `prints`, `referenced` | `prints`, `referenced` |
-/

namespace Scaffold

namespace Model.Ty

/-- A type, given how scalar types, lists and data types are written. -/
def spell (primitive : Primitive → String) (list named : String → String) : Ty → String
  | .primitive p => primitive p
  | .list item => list (spell primitive list named item)
  | .named name _ => named name

end Model.Ty

/-- The native call that prints a line. -/
def isConsoleLog : List String → Bool
  | [a, b] => a == "console" && (b == "log" || b == "print")
  | _ => false

/-- How a language writes each construct. -/
structure Dialect where
  typeName : Model.Ty → String
  /-- A call that prints its arguments with spaces between them. -/
  print : List String → String
  /-- A variable with perhaps a type and perhaps a value, without what ends a statement. -/
  declare : (name : String) → Option Model.Ty → Option String → String
  /-- The head of a loop over numbers. -/
  forRange : (var first last : String) → String
  /-- The head of a loop over items. -/
  forEach : (var items : String) → String
  quote : String → String := fun s => "\"" ++ Naming.escape s ++ "\""
  null : String := "null"
  bool : Bool → String := fun b => if b then "true" else "false"
  binarySign : BinaryOp → String := BinaryOp.sign
  unarySign : UnaryOp → String := fun
    | .not => "!"
    | .neg => "-"
  binary : BinaryOp → (lhs rhs : String) → String := fun op lhs rhs =>
    lhs ++ " " ++ binarySign op ++ " " ++ rhs
  name : String → Model.NameKind → String := fun name _ => name
  native : (path args : List String) → String := fun path args =>
    if isConsoleLog path then print args
    else Text.joinWith "." path ++ "(" ++ Text.joinWith ", " args ++ ")"
  /-- What ends a statement. -/
  terminator : String := ";"
  ifOpen : String → String := fun test => "if (" ++ test ++ ") \x7b"
  elseIfOpen : String → String := fun test => "\x7d else if (" ++ test ++ ") \x7b"
  elseOpen : String := "\x7d else \x7b"
  whileOpen : String → String := fun test => "while (" ++ test ++ ") \x7b"
  /-- The line that closes a block, empty where indentation alone does. -/
  blockClose : String := "\x7d"
  /-- What stands in an empty block, where something must. -/
  emptyBlock : Option String := none

namespace Dialect

/-- A literal. A number with a fraction part always shows it. -/
def literal (d : Dialect) : Literal → String
  | .int n => toString n
  | .float x =>
    let text := Number.plainText x
    if text.toList.any fun c => c == '.' || c == 'e' then text else text ++ ".0"
  | .str s => d.quote s
  | .bool b => d.bool b
  | .null => d.null

def parenthesized (needed : Bool) (text : String) : String :=
  if needed then "(" ++ text ++ ")" else text

/-- An operand of a binary operator needs parentheses if its own operator binds less tightly, on the
right also if it binds equally. -/
def needsParens (parent : BinaryOp) (right : Bool) : Model.Expr → Bool
  | .binary op _ _ =>
    op.precedence < parent.precedence || (right && op.precedence == parent.precedence)
  | _ => false

/-- A binary expression. -/
def isBinary : Model.Expr → Bool
  | .binary .. => true
  | _ => false

mutual

/-- An expression. -/
def expr (d : Dialect) : Model.Expr → String
  | .literal l => d.literal l
  | .name name kind => d.name name kind
  | .member object name => d.expr object ++ "." ++ name
  | .call callee args => d.expr callee ++ "(" ++ Text.joinWith ", " (d.exprs args) ++ ")"
  | .native path args => d.native path (d.exprs args)
  | .unary op e => d.unarySign op ++ parenthesized (isBinary e) (d.expr e)
  | .binary op lhs rhs =>
    d.binary op (parenthesized (needsParens op false lhs) (d.expr lhs))
      (parenthesized (needsParens op true rhs) (d.expr rhs))

/-- Expressions. -/
def exprs (d : Dialect) : List Model.Expr → List String
  | [] => []
  | e :: rest => d.expr e :: d.exprs rest

end

/-- The head of a loop. -/
def forOpen (d : Dialect) (var : String) : Model.ForIter → String
  | .range first last => d.forRange var (d.expr first) (d.expr last)
  | .each items => d.forEach var (d.expr items)

def close (d : Dialect) : Code :=
  if d.blockClose == "" then [] else Code.line d.blockClose

/-- The body of a block, with a filler if it is empty and must not be. -/
def filled (d : Dialect) (body : Code) : Code :=
  if body.isEmpty then (d.emptyBlock.map Code.line).getD [] else body

mutual

/-- A statement. -/
def stmt (d : Dialect) : Model.Stmt → Code
  | .declare name type init =>
    Code.line (d.declare name type (init.map d.expr) ++ d.terminator)
  | .assign target value =>
    Code.line (d.expr target ++ " = " ++ d.expr value ++ d.terminator)
  | .cond test yes no =>
    Code.line (d.ifOpen (d.expr test)) ++ Code.nest (d.filled (d.stmts yes)) ++ d.otherwise no
      ++ d.close
  | .loop test body =>
    Code.line (d.whileOpen (d.expr test)) ++ Code.nest (d.filled (d.stmts body)) ++ d.close
  | .each var iter body =>
    Code.line (d.forOpen var iter) ++ Code.nest (d.filled (d.stmts body)) ++ d.close
  | .ret value =>
    match value with
    | some e => Code.line ("return " ++ d.expr e ++ d.terminator)
    | none => Code.line ("return" ++ d.terminator)
  | .leave => Code.line ("break" ++ d.terminator)
  | .next => Code.line ("continue" ++ d.terminator)
  | .expr e => Code.line (d.expr e ++ d.terminator)

/-- Statements. -/
def stmts (d : Dialect) : List Model.Stmt → Code
  | [] => []
  | s :: rest => d.stmt s ++ d.stmts rest

/-- The `else` of a choice. A single choice in it continues the chain. -/
def otherwise (d : Dialect) : Option (List Model.Stmt) → Code
  | none => []
  | some [.cond test yes no] =>
    Code.line (d.elseIfOpen (d.expr test)) ++ Code.nest (d.filled (d.stmts yes)) ++ d.otherwise no
  | some body => Code.line d.elseOpen ++ Code.nest (d.filled (d.stmts body))

end

def block (d : Dialect) (body : List Model.Stmt) : Code :=
  d.filled (d.stmts body)

/-- A type, or `fallback` if there is none. -/
def typeOr (d : Dialect) (fallback : String) (t : Option Model.Ty) : String :=
  (t.map d.typeName).getD fallback

/-- A value, or `fallback` if there is none. -/
def valueOr (d : Dialect) (fallback : String) (e : Option Model.Expr) : String :=
  (e.map d.expr).getD fallback

/-- The statements of the function where the program starts, if there is one. -/
def entryBlock (d : Dialect) (m : CodeModel) : Code :=
  (m.entry?.map fun p => d.block p.body).getD []

end Dialect

/-! ## What bodies refer to -/

namespace Model

mutual

/-- An expression and all expressions inside it, from the outside in and from left to right. -/
def Expr.all : Expr → List Expr
  | .literal l => [.literal l]
  | .name name kind => [.name name kind]
  | .member object name => .member object name :: object.all
  | .call callee args => .call callee args :: (callee.all ++ allOf args)
  | .native path args => .native path args :: allOf args
  | .unary op e => .unary op e :: e.all
  | .binary op lhs rhs => .binary op lhs rhs :: (lhs.all ++ rhs.all)

/-- All expressions inside expressions. -/
def allOf : List Expr → List Expr
  | [] => []
  | e :: rest => e.all ++ allOf rest

end

/-- All expressions of what a loop runs over. -/
def ForIter.all : ForIter → List Expr
  | .range first last => first.all ++ last.all
  | .each items => items.all

mutual

/-- All expressions of a statement. -/
def Stmt.exprs : Stmt → List Expr
  | .declare _ _ init => (init.map Expr.all).getD []
  | .assign target value => target.all ++ value.all
  | .cond test yes no => test.all ++ (stmtsExprs yes ++ elseExprs no)
  | .loop test body => test.all ++ stmtsExprs body
  | .each _ iter body => iter.all ++ stmtsExprs body
  | .ret value => (value.map Expr.all).getD []
  | .leave => []
  | .next => []
  | .expr e => e.all

/-- All expressions of statements. -/
def stmtsExprs : List Stmt → List Expr
  | [] => []
  | s :: rest => s.exprs ++ stmtsExprs rest

/-- All expressions of an `else`. -/
def elseExprs : Option (List Stmt) → List Expr
  | none => []
  | some body => stmtsExprs body

end

/-- Some statement prints a line. -/
def prints (body : List Stmt) : Bool :=
  (stmtsExprs body).any fun
    | .native path _ => isConsoleLog path
    | _ => false

/-- The names of a kind that statements refer to, in order of first use. -/
def referenced (kind : NameKind) (body : List Stmt) : List String :=
  Text.distinct ((stmtsExprs body).filterMap fun
    | .name name k => if k == kind then some name else none
    | _ => none)

/-- The mappers that the routes of a service use, in order of first use. -/
def Service.mappersUsed (s : Service) : List String :=
  Text.distinct (s.routes.flatMap fun r => referenced .dataAccess r.body)

end Model

end Scaffold
