import Scaffold.Markup
import Scaffold.Text.Basic
import Scaffold.Text.Letter

/-!
Reading page markup. Elements nest and must be closed by name, except for the ones that close
themselves and those that never have content. Comments are dropped, and text is trimmed.

| here | in the program |
| --- | --- |
| `parse` | `parse_markup` |
| `children` | `parse_children`, `parse_element` |
| `readAttrs`, `readValue` | the attributes in `parse_element`, `read_attr_value` |
| `textNodes` | `flush_text` |
| `element`, `voidTags` | `element`, `VOID_ELEMENTS` |
-/

namespace Scaffold.Markup

/-- Why markup is refused, and how many characters were read before. -/
structure Error where
  offset : Nat
  message : String
  deriving DecidableEq, Inhabited

/-- Why markup is refused, and how many characters are left unread. -/
structure Stop where
  unread : Nat
  message : String

def voidTags : List String :=
  ["area", "br", "col", "embed", "hr", "img", "input", "link", "meta", "source", "track", "wbr"]

def isNameChar (c : Char) : Bool :=
  Text.isAlnum c || c == '-' || c == '_' || c == ':' || c == '.' || c == '@'

/-- The text read so far, which is given backwards, as a node, unless it is blank. -/
def textNodes (text : List Char) : List MarkupNode :=
  let trimmed := Text.trimChars text.reverse
  if trimmed.isEmpty then [] else [.text (String.ofList trimmed)]

/-- The rest after the end mark of a comment, or nothing if there is none. -/
def afterComment : List Char → List Char
  | [] => []
  | c :: cs => (Text.afterHeadChars "-->".toList (c :: cs)).getD (afterComment cs)

/-- The expression up to two closing braces and the rest after them. -/
def readInterpolation : List Char → Option (List Char × List Char)
  | [] => none
  | '\x7d' :: '\x7d' :: rest => some ([], rest)
  | c :: cs => (readInterpolation cs).map fun (e, rest) => (c :: e, rest)

/-- The value of an attribute: quoted, or everything up to a blank, `>` or `/`. -/
def readValue (cs : List Char) : Except Stop (String × List Char) :=
  match cs with
  | [] => .error ⟨0, "missing attribute value"⟩
  | c :: rest =>
    if c == '"' || c == '\'' then
      let value := rest.takeWhile (· != c)
      match rest.dropWhile (· != c) with
      | [] => .error ⟨0, "unterminated attribute value"⟩
      | _ :: after => .ok (String.ofList value, after)
    else
      let inside (x : Char) : Bool := !Text.isBlank x && x != '>' && x != '/'
      .ok (String.ofList ((c :: rest).takeWhile inside), (c :: rest).dropWhile inside)

/-- How an opening tag ends. -/
inductive TagEnd where
  | selfClosed
  | opened

/-- The attributes up to the end of the opening tag. Each round reads a character, so the length of
the text is enough fuel. -/
def readAttrs (tag : String) : (fuel : Nat) → List Char →
    Except Stop (List (String × Option String) × TagEnd × List Char)
  | 0, cs => .error ⟨cs.length, s!"unterminated <{tag}>"⟩
  | fuel + 1, cs =>
    match cs.dropWhile Text.isBlank with
    | [] => .error ⟨0, s!"unterminated <{tag}>"⟩
    | '/' :: '>' :: rest => .ok ([], .selfClosed, rest)
    | '>' :: rest => .ok ([], .opened, rest)
    | c :: rest =>
      let name := (c :: rest).takeWhile isNameChar
      let after := (c :: rest).dropWhile isNameChar
      if name.isEmpty then .error ⟨(c :: rest).length, s!"unexpected '{c}' in <{tag}>"⟩
      else do
        let (value, after) ←
          match after.dropWhile Text.isBlank with
          | '=' :: more => do
            let (value, after) ← readValue (more.dropWhile Text.isBlank)
            pure (some value, after)
          | more => pure (none, more)
        let (attrs, ending, rest) ← readAttrs tag fuel after
        return ((String.ofList name, value) :: attrs, ending, rest)

/-- A closing tag, after its `</`: the name and the rest after `>`. -/
def readClosing (cs : List Char) : Except Stop (String × List Char) :=
  let name := String.ofList (cs.takeWhile isNameChar)
  match (cs.dropWhile isNameChar).dropWhile Text.isBlank with
  | '>' :: rest => .ok (name, rest)
  | rest => .error ⟨rest.length, s!"expected '>' after </{name}"⟩

mutual

/-- The nodes up to the closing tag of `closing`, or up to the end at the top level; `text` is what
was read of the current text, backwards. Each round reads a character, so one more than the length
of the text is enough fuel. -/
def children (closing : Option String) : (fuel : Nat) → (text : List Char) → List Char →
    Except Stop (List MarkupNode × List Char)
  | 0, _, cs => .error ⟨cs.length, "unterminated markup"⟩
  | fuel + 1, text, cs =>
    match cs with
    | [] =>
      match closing with
      | some tag => .error ⟨0, s!"missing </{tag}>"⟩
      | none => .ok (textNodes text, [])
    | '\x7b' :: '\x7b' :: rest =>
      match readInterpolation rest with
      | none => .error ⟨0, "unterminated interpolation"⟩
      | some (source, rest) => do
        let (nodes, rest) ← children closing fuel [] rest
        let node := MarkupNode.interpolation (String.ofList (Text.trimChars source))
        return (textNodes text ++ node :: nodes, rest)
    | '<' :: '!' :: '-' :: '-' :: _ => children closing fuel text (afterComment cs)
    | '<' :: '/' :: rest => do
      let (name, rest) ← readClosing rest
      match closing with
      | some tag =>
        if tag == name then return (textNodes text, rest)
        else .error ⟨rest.length, s!"expected </{tag}>, found </{name}>"⟩
      | none => .error ⟨rest.length, s!"unexpected </{name}>"⟩
    | '<' :: c :: rest =>
      if Text.isLetter c then do
        let (node, rest) ← element fuel (c :: rest)
        let (nodes, rest) ← children closing fuel [] rest
        return (textNodes text ++ node :: nodes, rest)
      else children closing fuel ('<' :: text) (c :: rest)
    | c :: rest => children closing fuel (c :: text) rest

/-- An element, after its `<`. -/
def element : (fuel : Nat) → List Char → Except Stop (MarkupNode × List Char)
  | 0, cs => .error ⟨cs.length, "unterminated markup"⟩
  | fuel + 1, cs => do
    let tag := String.ofList (cs.takeWhile isNameChar)
    let (attrs, ending, rest) ← readAttrs tag fuel (cs.dropWhile isNameChar)
    match ending with
    | .selfClosed => return (.element tag attrs none [], rest)
    | .opened =>
      if voidTags.contains (Text.lowerAscii tag) then return (.element tag attrs none [], rest)
      else
        let (nodes, rest) ← children (some tag) fuel [] rest
        return (.element tag attrs none nodes, rest)

end

/-- The nodes of a markup text. -/
def parse (text : String) : Except Error (List MarkupNode) :=
  let cs := text.toList
  match children none (2 * cs.length + 2) [] cs with
  | .ok (nodes, _) => .ok nodes
  | .error stop => .error ⟨cs.length - stop.unread, stop.message⟩

end Scaffold.Markup
