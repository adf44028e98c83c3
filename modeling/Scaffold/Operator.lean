import Scaffold.Number.Binary64

/-!
Literals and operators, shared by source expressions and the code model.

| here | in the program |
| --- | --- |
| `Literal`, `UnaryOp`, `BinaryOp` | `Literal`, `UnaryOp`, `BinaryOp` |
| `BinaryOp.sign`, `precedence` | `symbol`, `precedence` |
-/

namespace Scaffold

/-- A literal value. -/
inductive Literal where
  | int (n : Int)
  | float (x : Binary64)
  | str (s : String)
  | bool (b : Bool)
  | null
  deriving DecidableEq, Inhabited

/-- An operator with one operand. -/
inductive UnaryOp where
  | not
  | neg
  deriving DecidableEq, Inhabited

namespace UnaryOp

/-- The word for an operator. -/
def word : UnaryOp → String
  | .not => "not"
  | .neg => "neg"

end UnaryOp

/-- An operator with two operands. -/
inductive BinaryOp where
  | or
  | and
  | eq
  | notEq
  | lt
  | le
  | gt
  | ge
  | add
  | sub
  | mul
  | div
  | rem
  deriving DecidableEq, Inhabited

namespace BinaryOp

/-- The sign of an operator. -/
def sign : BinaryOp → String
  | .or => "||"
  | .and => "&&"
  | .eq => "=="
  | .notEq => "!="
  | .lt => "<"
  | .le => "<="
  | .gt => ">"
  | .ge => ">="
  | .add => "+"
  | .sub => "-"
  | .mul => "*"
  | .div => "/"
  | .rem => "%"

/-- The word for an operator. -/
def word : BinaryOp → String
  | .or => "or"
  | .and => "and"
  | .eq => "eq"
  | .notEq => "not_eq"
  | .lt => "lt"
  | .le => "le"
  | .gt => "gt"
  | .ge => "ge"
  | .add => "add"
  | .sub => "sub"
  | .mul => "mul"
  | .div => "div"
  | .rem => "rem"

/-- How tightly an operator binds. -/
def precedence : BinaryOp → Nat
  | .or => 1
  | .and => 2
  | .eq | .notEq => 3
  | .lt | .le | .gt | .ge => 4
  | .add | .sub => 5
  | .mul | .div | .rem => 6

end BinaryOp

end Scaffold
