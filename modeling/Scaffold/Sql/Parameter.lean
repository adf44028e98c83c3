import Scaffold.Token.Lexer

/-!
Bind parameters in SQL text. A parameter is a colon and a name outside of quotes and line comments;
a double colon is a cast and binds nothing.

| here | in the program |
| --- | --- |
| `pieces`, `quotedTail` | `skip_quoted` |
| `bindOrder`, `parameters` | `bind_parameters` |
| `positional` | `to_positional` |
| `withPlaceholders` | `rewrite_parameters` |
-/

namespace Scaffold.Sql

/-- A quote sign of SQL: of a literal or of a quoted identifier. -/
def isQuote (c : Char) : Bool :=
  c == '\'' || c == '"' || c == (Char.ofNat 0x60)

/-- The rest of a quoted text, its closing quote included. A doubled quote inside does not close it,
and a text that is never closed runs to the end. -/
def quotedTail (quote : Char) : List Char → List Char
  | [] => []
  | c :: cs =>
    if c == quote then
      match cs with
      | d :: ds => if d == quote then c :: d :: quotedTail quote ds else [c]
      | [] => [c]
    else c :: quotedTail quote cs

/-- What SQL text is made of: characters that stay as they are, and parameters. -/
inductive Piece where
  | char (c : Char)
  | param (name : String)
  deriving DecidableEq

/-- Characters that stay as they are. -/
def verbatim (cs : List Char) : List Piece :=
  cs.map .char

/-- The pieces of SQL text. `skip` counts the characters that belong to a piece already given. -/
def piecesFrom : (skip : Nat) → List Char → List Piece
  | _, [] => []
  | skip + 1, _ :: cs => piecesFrom skip cs
  | 0, c :: cs =>
    if isQuote c then
      let tail := quotedTail c cs
      verbatim (c :: tail) ++ piecesFrom tail.length cs
    else if c == '-' && cs.head? == some '-' then
      let comment := cs.takeWhile (· != '\n')
      verbatim (c :: comment) ++ piecesFrom comment.length cs
    else if c == ':' && cs.head? == some ':' then
      verbatim [':', ':'] ++ piecesFrom 1 cs
    else if c == ':' && cs.head?.any Lexer.isNameStart then
      let name := cs.takeWhile Lexer.isNameChar
      .param (String.ofList name) :: piecesFrom name.length cs
    else .char c :: piecesFrom 0 cs

def pieces (sql : String) : List Piece :=
  piecesFrom 0 sql.toList

/-- The name of each parameter in order; a name used twice appears twice. -/
def bindOrder (sql : String) : List String :=
  (pieces sql).filterMap fun
    | .param name => some name
    | .char _ => none

/-- The text of pieces whose parameters are written by `placeholder`, which is given the name and
how many parameters came before. -/
def renderFrom (placeholder : String → Nat → String) : (index : Nat) → List Piece → String
  | _, [] => ""
  | index, .char c :: rest => c.toString ++ renderFrom placeholder index rest
  | index, .param name :: rest =>
    placeholder name index ++ renderFrom placeholder (index + 1) rest

def withPlaceholders (placeholder : String → Nat → String) (sql : String) : String :=
  renderFrom placeholder 0 (pieces sql)

def positional (sql : String) : String :=
  withPlaceholders (fun _ _ => "?") sql

def parameters (sql : String) : List String :=
  Text.distinct (bindOrder sql)

end Scaffold.Sql
