import Scaffold.Source.Parser.Basic

/-!
Parsers for types, literals, expressions and statements.

| here | in the program |
| --- | --- |
| `typeRef` | `parse_type` |
| `literal`, `nameList` | `parse_literal`, `parse_name_list` |
| `primary`, `suffixed`, `arguments` | `parse_primary`, `parse_postfix`, `parse_args` |
| `unaryFuel`, `expr` | `parse_unary`, `parse_expr` |
| `binary`, `chainFuel` | `parse_binary` and its loop |
| `block`, `stmtFuel` | `parse_block`, `parse_stmt` |
| `declareStmt`, `condStmt` | `parse_var`, `parse_if` |
| `eachStmt`, `condition` | `parse_for`, `parse_condition` |
-/

namespace Scaffold.Source.Parser

/-! ## Types and literals -/

/-- The largest size a text type can have. -/
def maxSize : Nat := Nat.pow 2 32 - 1

/-- The size of a text type, in parentheses; a size out of range counts as the largest one. -/
def sizeOr (fallback : Nat) : Parser Nat := do
  if ← skipPunct .parenOpen then
    let n ← integer
    expectPunct .parenClose
    return min n maxSize
  else return fallback

/-- Moves past everything up to a closing parenthesis. -/
def skipPrecision : Parser Unit := do
  if ← skipPunct .parenOpen then
    untilClose .parenClose (fun () => advance) ()
    expectPunct .parenClose

/-- A type. Lists nest at most as deep as there are tokens. -/
def typeFuel : (fuel : Nat) → Parser TypeRef
  | 0 => expected "identifier"
  | fuel + 1 => do
    let (word, pos) ← ident
    if word == "list" && (← isPunct .less) then
      advance
      let item ← typeFuel fuel
      expectPunct .greater
      return .list item
    else if word == "char" then return .primitive (.char (← sizeOr 1))
    else if word == "varchar" then return .primitive (.varchar (← sizeOr 255))
    else
      match Primitive.ofWord? word with
      | some p =>
        -- Precision and scale do not matter to any target.
        if p == .decimal then skipPrecision
        return .primitive p
      | none => return .named (← nameRef word pos)

def typeRef : Parser TypeRef := do
  typeFuel ((← remaining) + 1)

/-- The literal a token stands for. -/
def literalOf? : TokenKind → Option Literal
  | .int n => some (.int n)
  | .float x => some (.float x)
  | .str s => some (.str s)
  | .keyword .trueKw => some (.bool true)
  | .keyword .falseKw => some (.bool false)
  | .keyword .nullKw => some .null
  | _ => none

/-- A number with the other sign; other literals have no sign. -/
def negated? : Literal → Option Literal
  | .int n => some (.int (-n))
  | .float x => some (.float x.neg)
  | _ => none

/-- A literal, if it is a number perhaps with a minus sign. -/
def literal : Parser Literal := do
  let negative ← skipPunct .minus
  let plain := literalOf? (← peek).kind
  match if negative then plain.bind negated? else plain with
  | some l =>
    advance
    return l
  | none => expected "a literal"

/-- Names in parentheses, at least one, separated by commas. -/
def nameList : Parser (List String) := do
  expectPunct .parenOpen
  let names ← namesFuel ((← remaining) + 1) []
  expectPunct .parenClose
  return names
where
  namesFuel : (fuel : Nat) → List String → Parser (List String)
    | 0, names => pure names
    | fuel + 1, names => do
      let (name, _) ← ident
      if ← skipPunct .comma then namesFuel fuel (names ++ [name]) else return names ++ [name]

/-! ## Expressions -/

/-- Arguments in parentheses. -/
def arguments (expr : Parser Expr) : Parser (List Expr) := do
  expectPunct .parenOpen
  let args ← commaList .parenClose (fun args => do return args ++ [← expr]) []
  expectPunct .parenClose
  return args

/-- The names of a native call, separated by points. -/
def nativePath : Parser (List String) := do
  let (first, _) ← ident
  pathFuel ((← remaining) + 1) [first]
where
  pathFuel : (fuel : Nat) → List String → Parser (List String)
    | 0, names => pure names
    | fuel + 1, names => do
      if ← skipPunct .dot then
        let (name, _) ← ident
        pathFuel fuel (names ++ [name])
      else return names

/-- A literal, a name, an expression in parentheses or a native call. -/
def primary (expr : Parser Expr) : Parser Expr := do
  let t ← peek
  match literalOf? t.kind with
  | some l =>
    advance
    return .literal l
  | none =>
    match t.kind with
    | .ident name =>
      advance
      return .name (← nameRef name t.pos)
    | .punct .parenOpen =>
      advance
      let e ← expr
      expectPunct .parenClose
      return e
    | .punct .atSign =>
      advance
      let path ← nativePath
      let args ← arguments expr
      return .native path args t.pos
    | _ => expected "an expression"

/-- Member accesses and calls after an expression. -/
def suffixFuel (expr : Parser Expr) : (fuel : Nat) → Expr → Parser Expr
  | 0, e => pure e
  | fuel + 1, e => do
    if ← skipPunct .dot then
      let (name, _) ← ident
      suffixFuel expr fuel (.member e name)
    else if ← isPunct .parenOpen then
      let args ← arguments expr
      suffixFuel expr fuel (.call e args)
    else return e

/-- A primary expression with the member accesses and calls that follow it. -/
def suffixed (expr : Parser Expr) : Parser Expr := do
  let e ← primary expr
  suffixFuel expr ((← remaining) + 1) e

/-- Binary operators that bind equally. -/
abbrev OperatorLevel := List (Punct × BinaryOp)

/-- The operators from the loosest to the tightest. -/
def operatorLevels : List OperatorLevel :=
  [[(.either, .or)],
    [(.both, .and)],
    [(.equal, .eq), (.notEqual, .notEq)],
    [(.less, .lt), (.lessEq, .le), (.greater, .gt), (.greaterEq, .ge)],
    [(.plus, .add), (.minus, .sub)],
    [(.star, .mul), (.slash, .div), (.percent, .rem)]]

/-- The operator of a level that stands next. -/
def operator? (level : OperatorLevel) : Parser (Option BinaryOp) := do
  match (← peek).kind with
  | .punct p => return level.lookup p
  | _ => return none

/-- Further operands of a level; operators of one level group to the left. -/
def chainFuel (level : OperatorLevel) (operand : Parser Expr) : (fuel : Nat) → Expr → Parser Expr
  | 0, lhs => pure lhs
  | fuel + 1, lhs => do
    match ← operator? level with
    | some op =>
      advance
      let rhs ← operand
      chainFuel level operand fuel (.binary op lhs rhs)
    | none => return lhs

/-- An expression of operators from the given levels. -/
def binary (unary : Parser Expr) : List OperatorLevel → Parser Expr
  | [] => unary
  | level :: tighter => do
    let lhs ← binary unary tighter
    chainFuel level (binary unary tighter) ((← remaining) + 1) lhs

/-- An expression whose outermost operator is not binary. Expressions nest at most as deep as there
are tokens. -/
def unaryFuel : (fuel : Nat) → Parser Expr
  | 0 => expected "an expression"
  | fuel + 1 => do
    match (← peek).kind with
    | .punct .bang =>
      advance
      return .unary .not (← unaryFuel fuel)
    | .punct .minus =>
      advance
      return .unary .neg (← unaryFuel fuel)
    | _ => suffixed (binary (unaryFuel fuel) operatorLevels)

def expr : Parser Expr := do
  binary (unaryFuel ((← remaining) + 1)) operatorLevels

/-! ## Statements -/

/-- Statements in braces, in a scope of their own. -/
def blockOf (stmt : Parser Stmt) : Parser (List Stmt) := do
  expectPunct .braceOpen
  let (_, body) ← inScope .block
    (untilClose .braceClose (fun body => do return body ++ [← stmt]) [])
  expectPunct .braceClose
  return body

/-- An expression in parentheses. -/
def condition : Parser Expr := do
  expectPunct .parenOpen
  let e ← expr
  expectPunct .parenClose
  return e

/-- A variable. It is declared after its initial value has been read, which therefore does not see
it. -/
def declareStmt : Parser Stmt := do
  let pos ← expectKeyword .varKw
  let (name, namePos) ← ident
  let type ←
    if (← isPunct .assign) || (← isPunct .semicolon) then pure none
    else do pure (some (← typeRef))
  let init ← if ← skipPunct .assign then do pure (some (← expr)) else pure none
  expectPunct .semicolon
  declare name .local namePos (← state).owner
  return .declare name type init pos

/-- A choice; `else` is followed by a block or by another choice. -/
def condStmt (stmt : Parser Stmt) : Parser Stmt := do
  let pos ← expectKeyword .ifKw
  let test ← condition
  let yes ← blockOf stmt
  if ← isKeyword .elseKw then
    advance
    if ← isKeyword .ifKw then return .cond test yes (some [← stmt]) pos
    else return .cond test yes (some (← blockOf stmt)) pos
  else return .cond test yes none pos

/-- A loop over a range or over items. Its variable lives in a scope around the body. -/
def eachStmt (stmt : Parser Stmt) : Parser Stmt := do
  let pos ← expectKeyword .forKw
  expectPunct .parenOpen
  let (var, varPos) ← ident
  let _ ← expectKeyword .inKw
  let first ← expr
  let iter ←
    if ← skipPunct .range then do pure (ForIter.range first (← expr)) else pure (ForIter.each first)
  expectPunct .parenClose
  let owner := (← state).owner
  let (_, body) ← inScope .block do
    declare var .local varPos owner
    blockOf stmt
  return .each var iter body pos

/-- An assignment or an expression on its own. -/
def exprStmt (pos : Position) : Parser Stmt := do
  let e ← expr
  if ← skipPunct .assign then
    let value ← expr
    expectPunct .semicolon
    return .assign e value pos
  else
    expectPunct .semicolon
    return .expr e pos

/-- A statement. Statements nest at most as deep as there are tokens. -/
def stmtFuel : (fuel : Nat) → Parser Stmt
  | 0 => expected "an expression"
  | fuel + 1 => do
    let t ← peek
    match t.kind with
    | .keyword .varKw => declareStmt
    | .keyword .ifKw => condStmt (stmtFuel fuel)
    | .keyword .whileKw =>
      advance
      let test ← condition
      let body ← blockOf (stmtFuel fuel)
      return .loop test body t.pos
    | .keyword .forKw => eachStmt (stmtFuel fuel)
    | .keyword .returnKw =>
      advance
      let value ← if ← isPunct .semicolon then pure none else do pure (some (← expr))
      expectPunct .semicolon
      return .ret value t.pos
    | .keyword .breakKw =>
      advance
      expectPunct .semicolon
      return .leave t.pos
    | .keyword .continueKw =>
      advance
      expectPunct .semicolon
      return .next t.pos
    | _ => exprStmt t.pos

def block : Parser (List Stmt) := do
  blockOf (stmtFuel ((← remaining) + 1))

end Scaffold.Source.Parser
