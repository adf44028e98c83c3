import Scaffold.Yaml.Cursor
import Scaffold.Yaml.Scalar.Plain
import Scaffold.Yaml.Scalar.Value

/-!
Scalars between quotes. A single quote is written twice between single quotes; between double quotes
a backslash starts an escape.
-/

namespace Scaffold.Yaml

/-- The character of a one-letter escape. -/
def escaped? : Char → Option Char
  | '0' => some '\x00'
  | 'a' => some '\x07'
  | 'b' => some '\x08'
  | 't' | '\t' => some '\t'
  | 'n' => some '\n'
  | 'v' => some '\x0b'
  | 'f' => some '\x0c'
  | 'r' => some '\r'
  | 'e' => some '\x1b'
  | ' ' => some ' '
  | '"' => some '"'
  | '/' => some '/'
  | '\\' => some '\\'
  | 'N' => some '\x85'
  | '_' => some '\xa0'
  | 'L' => some '\u2028'
  | 'P' => some '\u2029'
  | _ => none

/-- How many digits follow the letter of a numeric escape. -/
def escapeWidth? : Char → Option Nat
  | 'x' => some 2
  | 'u' => some 4
  | 'U' => some 8
  | _ => none

def charOf? (n : Nat) : Option Char :=
  if n < 0xD800 || (0xDFFF < n && n ≤ 0x10FFFF) then some (Char.ofNat n) else none

/-- An escape that was read: its character, and how many characters it takes after the
backslash. -/
structure Escape where
  char : Char
  width : Nat

/-- The escape at a backslash, in a scalar begun at `start`. -/
def readEscape (start : Mark) (c : Cursor) : Except SyntaxFault Escape :=
  match c.rest.drop 1 with
  | [] => .error (c.fault .quotedEscape start .unknownEscape)
  | letter :: rest =>
    match escaped? letter, escapeWidth? letter with
    | some char, _ => .ok ⟨char, 1⟩
    | none, none => .error (c.fault .quotedEscape start .unknownEscape)
    | none, some width =>
      let digits := rest.take width
      let number := if digits.length == width then natInBase? 16 digits else none
      match number, number.bind charOf? with
      | none, _ => .error ((c.skip 2).fault .quotedEscape start .noHexDigit)
      | some _, none => .error ((c.skip 2).fault .quotedEscape start .noSuchChar)
      | some _, some char => .ok ⟨char, width + 1⟩

/-- A scalar that was read, and the place after it. -/
structure ScalarRead where
  text : List Char
  cursor : Cursor

def ScalarRead.after (text : List Char) (read : ScalarRead) : ScalarRead :=
  { read with text := text ++ read.text }

/-- A quoted scalar, begun at `start`, after a gap in it. `skip` counts the characters of an escape
still to be passed over. -/
def quotedFrom (quote : Char) (start : Mark) : Gap → (skip : Nat) → Mark → List Char →
    Except SyntaxFault ScalarRead
  | _, _, mark, [] => .error (Cursor.fault ⟨[], mark⟩ .quotedScalar start .endInQuotes)
  | gap, skip + 1, mark, c :: cs =>
    quotedFrom quote start gap skip (if isBreak c then mark.nextLine else mark.advance 1) cs
  | gap, 0, mark, c :: cs =>
    let here : Cursor := ⟨c :: cs, mark⟩
    let next := mark.advance 1
    let write (char : Char) := ScalarRead.after (gap.text ++ [char])
    if here.atDocumentMark then .error (here.fault .quotedScalar start .documentMarkInQuotes)
    else if isBreak c then quotedFrom quote start (gap.addBreak c) 0 mark.nextLine cs
    else if isBlank c then quotedFrom quote start (gap.addBlank c) 0 next cs
    else if c == '\'' && quote == '\'' && cs.head? == some '\'' then
      (quotedFrom quote start .empty 1 next cs).map (write '\'')
    else if c == quote then .ok ⟨gap.text, ⟨cs, next⟩⟩
    else if c == '\\' && quote == '"' then
      if cs.head?.any isBreak then
        (quotedFrom quote start (.joined []) 1 next cs).map (·.after gap.text)
      else
        match readEscape start here with
        | .error fault => .error fault
        | .ok escape => (quotedFrom quote start .empty escape.width next cs).map (write escape.char)
    else (quotedFrom quote start .empty 0 next cs).map (write c)

/-- The quoted scalar at a place. -/
def readQuoted (c : Cursor) : Except SyntaxFault ScalarRead :=
  match c.rest with
  | quote :: cs => quotedFrom quote c.mark .empty 0 (c.mark.advance 1) cs
  | [] => .error (c.fault .quotedScalar c.mark .endInQuotes)

end Scaffold.Yaml
