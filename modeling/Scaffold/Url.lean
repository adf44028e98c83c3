import Scaffold.Model.Basic

/-!
Path templates of requests: text with placeholders in braces. A placeholder is a name, perhaps
followed by a colon and a pattern.

| here | in the program |
| --- | --- |
| `placeholders`, `holeName` | `route_placeholders` |
| `join` | `join_path` |
| `template`, `parts` | `url_template`, `url_parts` |
| `bodyBinding?` | `body_binding` |
-/

namespace Scaffold.Url

def textPiece {α : Type} (make : List Char → α) (text : List Char) : List α :=
  if text.isEmpty then [] else [make text]

/-- A piece of a template: text, or what stands between braces. -/
inductive Piece where
  | text (cs : List Char)
  | hole (inner : List Char)
  deriving DecidableEq, Inhabited

/-- The pieces of a template; `text` is what was read of the current text, and `skip` counts the
characters of a hole already given. A brace that is never closed is text. -/
def piecesFrom : (skip : Nat) → (text : List Char) → List Char → List Piece
  | _, text, [] => textPiece .text text
  | skip + 1, text, _ :: cs => piecesFrom skip text cs
  | 0, text, c :: cs =>
    if c == '\x7b' then
      match Text.splitFirstChars '\x7d' cs with
      | some (inner, _) =>
        textPiece .text text ++ .hole inner :: piecesFrom (inner.length + 1) [] cs
      | none => textPiece .text (text ++ c :: cs)
    else piecesFrom 0 (text ++ [c]) cs

def pieces (template : String) : List Piece :=
  piecesFrom 0 [] template.toList

/-- What stands before the colon of a placeholder. -/
def holeName (inner : List Char) : List Char :=
  inner.takeWhile (· != ':')

/-- The names of the placeholders of a path, in order. -/
def placeholders (path : String) : List String :=
  (pieces path).filterMap fun
    | .text _ => none
    | .hole inner =>
      let name := Text.trimChars (holeName inner)
      if name.isEmpty then none else some (String.ofList name)

/-- A text or a parameter of a template. -/
inductive Part where
  | text (s : String)
  | param (name : String)
  deriving DecidableEq, Inhabited

/-- The texts and parameters of a template. -/
def parts (template : String) : List Part :=
  (pieces template).map fun
    | .text cs => .text (String.ofList cs)
    | .hole inner => .param (String.ofList (holeName inner))

def braced (name : String) : String :=
  "\x7b" ++ name ++ "\x7d"

/-- The whole template of a request: the path, and a query with every query parameter. -/
def template (path : String) (bindings : List Model.Binding) : String :=
  let query := (bindings.filter (·.source == .query)).map fun b => b.name ++ "=" ++ braced b.name
  if query.isEmpty then path else path ++ "?" ++ Text.joinWith "&" query

/-- The parameter that travels as the body of a request, if any. -/
def bodyBinding? (bindings : List Model.Binding) : Option Model.Binding :=
  bindings.find? (·.source == .body)

/-- Joins a base address and a route. The result starts with a slash unless it names a scheme. -/
def join (base route : String) : String :=
  let base := Text.trimEndOf '/' base
  let route := Text.trimStartOf '/' route
  let joined :=
    if base == "" then route else if route == "" then base else base ++ "/" ++ route
  if Text.startsWith "/" joined || Text.holds "://" joined then joined else "/" ++ joined

end Scaffold.Url
