import Scaffold.Operator
import Scaffold.Primitive

/-!
Types, expressions and statements of the code model. Names are bound: a name says what kind of thing
it refers to, and no scopes are left.

| here | in the program |
| --- | --- |
| `Ty` | `ModelType` |
| `Ty.isList`, `element`, `isVoid` | `is_list`, `element`, `is_void` |
-/

namespace Scaffold.Model

/-- What a data type was declared as. -/
inductive DataKind where
  | domain
  | table
  | entity
  | record
  /-- Made up for the result of a select. -/
  | queryResult
  deriving DecidableEq, Inhabited

/-- A type. -/
inductive Ty where
  | primitive (p : Primitive)
  | list (item : Ty)
  /-- A data type of the model. -/
  | named (name : String) (kind : DataKind)
  deriving DecidableEq, Inhabited

namespace Ty

/-- A list type. -/
def isList : Ty → Bool
  | .list _ => true
  | _ => false

/-- The item type of a list, else the type itself. -/
def element : Ty → Ty
  | .list item => item
  | t => t

def isVoid (t : Ty) : Bool :=
  t == .primitive .void

end Ty

/-- What a name in an expression refers to. -/
inductive NameKind where
  | local
  | param
  | constant
  | procedure
  | dataAccess
  | service
  | client
  | type
  | other
  deriving DecidableEq, Inhabited

/-- An expression. -/
inductive Expr where
  | literal (l : Literal)
  | name (name : String) (kind : NameKind)
  | member (object : Expr) (name : String)
  | call (callee : Expr) (args : List Expr)
  | native (path : List String) (args : List Expr)
  | unary (op : UnaryOp) (e : Expr)
  | binary (op : BinaryOp) (lhs rhs : Expr)
  deriving Inhabited

/-- What a loop runs over. -/
inductive ForIter where
  | range (first last : Expr)
  | each (items : Expr)
  deriving Inhabited

/-- A statement. -/
inductive Stmt where
  | declare (name : String) (type : Option Ty) (init : Option Expr)
  | assign (target value : Expr)
  | cond (test : Expr) (yes : List Stmt) (no : Option (List Stmt))
  | loop (test : Expr) (body : List Stmt)
  | each (var : String) (iter : ForIter) (body : List Stmt)
  | ret (value : Option Expr)
  | leave
  | next
  | expr (e : Expr)
  deriving Inhabited

end Scaffold.Model
