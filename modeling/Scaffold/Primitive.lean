/-!
The built-in scalar types.

| here | in the program |
| --- | --- |
| `ofWord?`, `spelling` | `from_name`, `fmt` |
-/

namespace Scaffold

/-- A built-in scalar type. -/
inductive Primitive where
  | int
  | bigint
  | float
  | double
  | decimal
  | bool
  | string
  | text
  | char (size : Nat)
  | varchar (size : Nat)
  | date
  | datetime
  | void
  | any
  deriving DecidableEq, Inhabited

namespace Primitive

/-- The plain spelling of a scalar type. -/
def spelling : Primitive → String
  | .int => "int"
  | .bigint => "bigint"
  | .float => "float"
  | .double => "double"
  | .decimal => "decimal"
  | .bool => "bool"
  | .string => "string"
  | .text => "text"
  | .char n => s!"char({n})"
  | .varchar n => s!"varchar({n})"
  | .date => "date"
  | .datetime => "datetime"
  | .void => "void"
  | .any => "any"

/-- The scalar type without a size that a word names; two of them have a second name. -/
def ofWord? (word : String) : Option Primitive :=
  [("int", .int), ("bigint", .bigint), ("long", .bigint), ("float", .float), ("double", .double),
    ("decimal", .decimal), ("bool", .bool), ("boolean", .bool), ("string", .string),
    ("text", .text), ("date", .date), ("datetime", .datetime), ("void", .void),
    ("any", .any)].lookup word

end Primitive

end Scaffold
