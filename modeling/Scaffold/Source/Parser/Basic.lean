import Scaffold.Session
import Scaffold.Token

/-!
The parser's state and its steps on tokens and scopes. A parser reads tokens from the front of a
list that ends with an end mark, and works on the session as it goes: what it reported and declared
stays when it fails.

| here | in the program |
| --- | --- |
| `Parser` | the functions of `Parser`, which change it and may fail |
| `peekKind`, `isNext` | `peek_at`, `check` |
| `isIdent` | `check_ident` |
| `ident`, `quoted`, `integer` | `expect_ident`, `expect_string`, `expect_integer` |
| `inScope` | `in_scope` with `enter_scope` and `leave_scope` |
| `takeSeq`, `takeNode` | `next_seq`, `next_node_id` |
| `expected` | `error` |
-/

namespace Scaffold.Source

/-- What a parser is given. -/
structure ParserEnv where
  file : FileId
  source : SourceFile
  root : ScopeId
  tree : FileTree
  /-- Parses the file that an import was found to mean. -/
  load : SourceFile → Session → Except CompileError Document × Session

/-- What a parser changes. -/
structure ParserState where
  rest : List Token
  /-- Counts names and declarations in the order of the file. -/
  seq : Nat := 0
  /-- The declaration that owns the variables of the body being read. -/
  owner : NodeId := 0
  imports : List Path := []
  session : Session

/-- A parser for an `α`. -/
def Parser (α : Type) : Type :=
  ParserEnv → ParserState → Except CompileError α × ParserState

namespace Parser

variable {α β : Type}

protected def pure (a : α) : Parser α :=
  fun _ s => (.ok a, s)

/-- One parser after the other; a failure ends both. -/
protected def bind (p : Parser α) (f : α → Parser β) : Parser β :=
  fun env s =>
    match p env s with
    | (.ok a, s) => f a env s
    | (.error e, s) => (.error e, s)

instance : Monad Parser where
  pure := Parser.pure
  bind := Parser.bind

instance : Inhabited (Parser α) where
  default := fun _ s => (.error .cancelled, s)

def env : Parser ParserEnv :=
  fun env s => (.ok env, s)

def state : Parser ParserState :=
  fun _ s => (.ok s, s)

def change (f : ParserState → ParserState) : Parser Unit :=
  fun _ s => (.ok (), f s)

def fail (e : CompileError) : Parser α :=
  fun _ s => (.error e, s)

/-! ## Tokens -/

def peek : Parser Token :=
  fun _ s => (.ok (s.rest.headD ⟨.eof, {}⟩), s)

/-- The kind of the token that stands `n` further on. -/
def peekKind (n : Nat) : Parser TokenKind :=
  fun _ s => (.ok (((s.rest[n]?).map (·.kind)).getD .eof), s)

def advance : Parser Unit :=
  change fun s => { s with rest := s.rest.tail }

def remaining : Parser Nat :=
  fun _ s => (.ok s.rest.length, s)

def atEnd : Parser Bool := do
  return (← peek).kind == .eof

def isNext (kind : TokenKind) : Parser Bool := do
  return (← peek).kind == kind

def isPunct (p : Punct) : Parser Bool :=
  isNext (.punct p)

def isKeyword (k : Keyword) : Parser Bool :=
  isNext (.keyword k)

def isIdent (name : String) : Parser Bool :=
  isNext (.ident name)

/-- Fails because something else should stand here. -/
def expected (what : String) : Parser α := do
  let t ← peek
  fail (.fault (← env).source.path t.pos (.mismatch what t.kind.describe))

/-- Moves past a token of this kind and gives its position. -/
def expect (kind : TokenKind) : Parser Position := do
  let t ← peek
  if t.kind == kind then
    advance
    return t.pos
  else expected kind.describe

def expectPunct (p : Punct) : Parser Unit := do
  let _ ← expect (.punct p)

def expectKeyword (k : Keyword) : Parser Position :=
  expect (.keyword k)

/-- Moves past a sign if it stands here. -/
def skipPunct (p : Punct) : Parser Bool := do
  if ← isPunct p then
    advance
    return true
  else return false

/-- A name and its position. -/
def ident : Parser (String × Position) := do
  let t ← peek
  match t.kind with
  | .ident name =>
    advance
    return (name, t.pos)
  | _ => expected "identifier"

/-- A quoted text. -/
def quoted : Parser String := do
  match (← peek).kind with
  | .str s =>
    advance
    return s
  | _ => expected "string"

/-- An integer. -/
def integer : Parser Nat := do
  match (← peek).kind with
  | .int n =>
    advance
    return n
  | _ => expected "integer"

/-! ## Repetition -/

/-- Repeats a step until `stop` holds. -/
def untilFuel (stop : Parser Bool) (step : β → Parser β) : (fuel : Nat) → β → Parser β
  | 0, b => pure b
  | fuel + 1, b => do
    if ← stop then return b else untilFuel stop step fuel (← step b)

/-- Repeats a step until a closing sign or the end of the file stands next. Each step reads a token,
so the number of tokens is enough fuel. -/
def untilClose (close : Punct) (step : β → Parser β) (start : β) : Parser β := do
  let stop : Parser Bool := do
    let t ← peek
    return t.kind == .punct close || t.kind == .eof
  untilFuel stop step ((← remaining) + 1) start

/-- Items separated by commas, up to `close`, which is not read. Nothing has to follow a comma. -/
def commaFuel (close : Punct) (step : β → Parser β) : (fuel : Nat) → β → Parser β
  | 0, b => pure b
  | fuel + 1, b => do
    if ← isPunct close then return b
    let b ← step b
    if ← skipPunct .comma then commaFuel close step fuel b else return b

/-- Items separated by commas, up to `close`, which is not read. Each item reads a token, so the
number of tokens is enough fuel. -/
def commaList (close : Punct) (step : β → Parser β) (start : β) : Parser β := do
  commaFuel close step ((← remaining) + 1) start

/-! ## Scopes and symbols -/

/-- Works on the session. -/
def session (f : Session → α × Session) : Parser α :=
  fun _ s =>
    let (a, session) := f s.session
    (.ok a, { s with session })

def report (e : CompileError) : Parser Unit :=
  session fun s => ((), s.report e)

/-- Reports that a declaration breaks a rule of its kind. -/
def invalid (pos : Position) (declaration reason : String) : Parser Unit := do
  report (.fault (← env).source.path pos (.invalid declaration reason))

def takeNode : Parser NodeId :=
  session Session.takeNode

def takeSeq : Parser Nat :=
  fun _ s => (.ok s.seq, { s with seq := s.seq + 1 })

def currentScope : Parser ScopeId := do
  return (← state).session.stack.headD (← env).root

/-- A name that refers to a declaration. -/
def nameRef (name : String) (pos : Position) : Parser NameRef := do
  let scope ← currentScope
  let seq ← takeSeq
  return { name, pos, scope, seq }

/-- Opens a scope inside the innermost one. -/
def enterScope (kind : ScopeKind) : Parser ScopeId := do
  let parent ← currentScope
  let file := (← env).file
  session fun s =>
    let (id, symbols) := s.symbols.addScope kind (some parent) file
    (id, { s with symbols, stack := id :: s.stack })

/-- Runs a parser in a new scope, which is left again whether it fails or not. -/
def inScope (kind : ScopeKind) (p : Parser α) : Parser (ScopeId × α) := do
  let id ← enterScope kind
  fun env s =>
    let (result, s) := p env s
    let s := { s with session := { s.session with stack := s.session.stack.tail } }
    (result.map (id, ·), s)

/-- Declares a name in the innermost scope. A declaration that takes no part binds nothing, and a
name that is taken is reported. -/
def declare (name : String) (kind : SymbolKind) (pos : Position) (node : NodeId)
    (active : Bool := true) : Parser Unit := do
  if active then
    let scope ← currentScope
    let seq ← takeSeq
    let e ← env
    let symbol : Symbol := { name, kind, file := e.file, path := e.source.path, pos, seq, scope, node }
    session fun s =>
      match s.symbols.declare scope symbol with
      | (.ok _, symbols) => ((), { s with symbols })
      | (.error previous, symbols) =>
        let before := ((symbols.symbols[previous]?).map (·.pos)).getD {}
        ((), s.report (.fault e.source.path pos (.duplicateSymbol name before)))

end Parser

end Scaffold.Source
