import Scaffold.Number.Reading
import Scaffold.Position
import Scaffold.Text.Letter
import Scaffold.Token

/-!
From text to tokens. Two constructs depend on what came before: a bracket opens a block of
annotations that is one token, and after the word `query` or `html` the next opening brace starts a
raw block that runs to its matching closing brace.

| here | in the program |
| --- | --- |
| `Cursor` | `Lexer` |
| `tokenize` | `tokenize` |
| `lexQuoted`, `readQuoted` | `read_quoted` |
| `lexNumber`, `lexWord` | `lex_number`, `lex_word` |
| `lexRaw` | `lex_raw_block` |
| `lexPairs`, `lexPair`, `lexValue` | `lex_annotation`, `read_annotation_value` |
| `extensible?`, `doubled?`, `single` | `one_or_two`, `pair`, `single` |
| `skipTrivia` | `skip_trivia` |
-/

/-! ## Cursors

A place inside a text together with what is still to be read there.
-/

namespace Scaffold

/-- The unread rest of a text and the position of its first character. -/
structure Cursor where
  rest : List Char
  pos : Position := {}
  deriving DecidableEq, Inhabited

namespace Cursor

def drop (c : Cursor) (n : Nat) : Cursor :=
  ⟨c.rest.drop n, c.pos.afterAll (c.rest.take n)⟩

/-- The longest run of `p` characters here. -/
def run (c : Cursor) (p : Char → Bool) : List Char :=
  c.rest.takeWhile p

/-- Moves past the longest run of `p` characters. -/
def skip (c : Cursor) (p : Char → Bool) : Cursor :=
  ⟨c.rest.dropWhile p, c.pos.afterAll (c.rest.takeWhile p)⟩

def skipBlanks (c : Cursor) : Cursor :=
  c.skip Text.isBlank

end Cursor

end Scaffold

namespace Scaffold.Lexer

/-- What the next opening brace starts, if not an ordinary block. -/
inductive RawMode where
  | sql
  | markup
  deriving DecidableEq

/-! ## Blanks and comments -/

/-- What is being skipped. -/
inductive Trivia where
  | blanks
  | lineComment
  | blockComment (start : Position)

/-- Moves past blanks, line comments and block comments; a block comment must end. -/
def skipTrivia : Trivia → Position → List Char → Except Mismatch Cursor
  | .blanks, p, '/' :: '/' :: cs => skipTrivia .lineComment ((p.after '/').after '/') cs
  | .blanks, p, '/' :: '*' :: cs => skipTrivia (.blockComment p) ((p.after '/').after '*') cs
  | .blanks, p, c :: cs =>
    if Text.isBlank c then skipTrivia .blanks (p.after c) cs else .ok ⟨c :: cs, p⟩
  | .blanks, p, [] => .ok ⟨[], p⟩
  | .lineComment, p, c :: cs =>
    if c == '\n' then skipTrivia .blanks (p.after c) cs else skipTrivia .lineComment (p.after c) cs
  | .lineComment, p, [] => .ok ⟨[], p⟩
  | .blockComment _, p, '*' :: '/' :: cs => skipTrivia .blanks ((p.after '*').after '/') cs
  | .blockComment start, p, c :: cs => skipTrivia (.blockComment start) (p.after c) cs
  | .blockComment start, _, [] => .error ⟨start, "'*/'", "end of file"⟩

/-! ## Quoted text -/

/-- The character that a backslash and `c` stand for. -/
def unescape : Char → Char
  | 'n' => '\n'
  | 't' => '\t'
  | 'r' => '\r'
  | c => c

/-- The text up to the closing quote and the place after the quote; `none` if the quote is
missing. -/
def readQuoted (quote : Char) : Position → List Char → Option (List Char × Cursor)
  | _, [] => none
  | p, c :: cs =>
    if c == quote then some ([], ⟨cs, p.after c⟩)
    else if c == '\\' then
      match cs with
      | [] => none
      | e :: rest =>
        (readQuoted quote ((p.after c).after e) rest).map fun (text, after) =>
          (unescape e :: text, after)
    else (readQuoted quote (p.after c) cs).map fun (text, after) => (c :: text, after)

/-- Quoted text whose opening quote is the next character. -/
def lexQuoted (quote : Char) (c : Cursor) : Except Mismatch (String × Cursor) :=
  match readQuoted quote (c.pos.after quote) (c.rest.drop 1) with
  | some (text, after) => .ok (String.ofList text, after)
  | none => .error ⟨c.pos, s!"closing {quote}", "end of file"⟩

/-! ## Raw blocks -/

/-- The text up to the brace that closes `depth` open ones, and the place after that brace. In SQL a
brace inside single quotes does not count. -/
def readRaw (mode : RawMode) : (depth : Nat) → (quoted : Bool) → Position → List Char →
    Option (List Char × Cursor)
  | _, _, _, [] => none
  | depth, true, p, c :: cs =>
    (readRaw mode depth (c != '\'') (p.after c) cs).map fun (text, after) => (c :: text, after)
  | depth, false, p, c :: cs =>
    if c == '\x7d' && depth ≤ 1 then some ([], ⟨cs, p.after c⟩)
    else
      let depth := if c == '\x7b' then depth + 1 else if c == '\x7d' then depth - 1 else depth
      (readRaw mode depth (c == '\'' && mode == .sql) (p.after c) cs).map fun (text, after) =>
        (c :: text, after)

/-- A raw block whose opening brace is the next character; its text is trimmed. -/
def lexRaw (mode : RawMode) (c : Cursor) : Except Mismatch (TokenKind × Cursor) :=
  match readRaw mode 1 false (c.pos.after '\x7b') (c.rest.drop 1) with
  | some (text, after) => .ok (.raw (String.ofList (Text.trimChars text)), after)
  | none => .error ⟨c.pos, "'\x7d'", "end of file"⟩

/-! ## Numbers and words -/

/-- A run of digits is an integer; a point with a digit after it makes it a decimal. -/
def lexNumber (c : Cursor) : Except Mismatch (TokenKind × Cursor) :=
  let whole := c.run Char.isDigit
  let after := c.skip Char.isDigit
  match after.rest with
  | '.' :: d :: more =>
    if d.isDigit then
      let fraction := (d :: more).takeWhile Char.isDigit
      let x := Binary64.ofMagnitude false (Number.DecimalText.magnitude ⟨whole, fraction, 0⟩)
      .ok (.float x, after.drop (fraction.length + 1))
    else integer whole after
  | _ => integer whole after
where
  integer (digits : List Char) (after : Cursor) : Except Mismatch (TokenKind × Cursor) :=
    let n := Number.digitsValue digits
    if n < Nat.pow 2 63 then .ok (.int n, after)
    else .error ⟨c.pos, "an integer", s!"'{String.ofList digits}'"⟩

def isNameStart (c : Char) : Bool :=
  Text.isLetter c || c == '_'

def isNameChar (c : Char) : Bool :=
  Text.isAlnum c || c == '_'

/-- A reserved word or a name. -/
def lexWord (c : Cursor) : TokenKind × Cursor :=
  let word := String.ofList (c.run isNameChar)
  let after := c.skip isNameChar
  match Keyword.ofText? word with
  | some k => (.keyword k, after)
  | none => (.ident word, after)

/-! ## Annotations -/

def isKeyChar (c : Char) : Bool :=
  Text.isAlnum c || c == '_' || c == '-' || c == '.'

/-- What an unquoted value means: a truth value, an integer, a number, or its own text. -/
def plainValue (word : String) : AnnotationValue :=
  if word == "true" then .bool true
  else if word == "false" then .bool false
  else
    match Number.readInt64? word with
    | some n => .int n
    | none =>
      match Number.readBinary64? word with
      | some x => .float x
      | none => .str word

/-- The value after an equals sign: quoted text, or everything up to a comma, bracket or line
end. -/
def lexValue (c : Cursor) : Except Mismatch (AnnotationValue × Cursor) :=
  match c.rest with
  | [] => .error ⟨c.pos, "annotation value", "end of file"⟩
  | ch :: _ =>
    if ch == '"' || ch == '\'' then do
      let (text, after) ← lexQuoted ch c
      return (.str text, after)
    else
      let stops (x : Char) : Bool := x != ',' && x != ']' && x != '\n'
      let word := String.ofList (Text.trimChars (c.run stops))
      if word == "" then .error ⟨c.pos, "annotation value", "nothing"⟩
      else .ok (plainValue word, c.skip stops)

/-- One key with its value; a key alone is a flag. -/
def lexPair (c : Cursor) : Except Mismatch ((String × AnnotationValue) × Cursor) :=
  let key := String.ofList (c.run isKeyChar)
  if key == "" then
    .error ⟨c.pos, "annotation key", s!"'{String.ofList (c.rest.take 1)}'"⟩
  else
    let after := (c.skip isKeyChar).skipBlanks
    match after.rest with
    | '=' :: _ => do
      let (value, after) ← lexValue (after.drop 1).skipBlanks
      return ((key, value), after)
    | _ => .ok ((key, .bool true), after)

/-- The pairs up to the closing bracket, separated by commas. Each round reads at least one
character, so the length of the text is enough fuel. -/
def lexPairs : (fuel : Nat) → Cursor → Except Mismatch (List (String × AnnotationValue) × Cursor)
  | 0, c => .error ⟨c.pos, "']'", "end of file"⟩
  | fuel + 1, c =>
    let c := c.skipBlanks
    match c.rest with
    | [] => .error ⟨c.pos, "']'", "end of file"⟩
    | ']' :: _ => .ok ([], c.drop 1)
    | _ => do
      let (pair, after) ← lexPair c
      let after := after.skipBlanks
      match after.rest with
      | [] => .error ⟨after.pos, "']'", "end of file"⟩
      | ',' :: _ => do
        let (pairs, after) ← lexPairs fuel (after.drop 1)
        return (pair :: pairs, after)
      | ']' :: _ => return ([pair], after.drop 1)
      | other :: _ => .error ⟨after.pos, "',' or ']'", s!"'{other}'"⟩

/-! ## Tokens -/

/-- A sign of one character. -/
def single? : Char → Option Punct
  | '\x7b' => some .braceOpen
  | '\x7d' => some .braceClose
  | '(' => some .parenOpen
  | ')' => some .parenClose
  | ':' => some .colon
  | ';' => some .semicolon
  | ',' => some .comma
  | '@' => some .atSign
  | '+' => some .plus
  | '-' => some .minus
  | '*' => some .star
  | '/' => some .slash
  | '%' => some .percent
  | _ => none

/-- A sign that a second character may extend: that character, the short and the long form. -/
def extensible? : Char → Option (Char × Punct × Punct)
  | '<' => some ('=', .less, .lessEq)
  | '>' => some ('=', .greater, .greaterEq)
  | '=' => some ('=', .assign, .equal)
  | '!' => some ('=', .bang, .notEqual)
  | '.' => some ('.', .dot, .range)
  | _ => none

/-- A sign that must be written twice. -/
def doubled? : Char → Option Punct
  | '&' => some .both
  | '|' => some .either
  | _ => none

/-- The token that starts with `ch`, the next character of `c`. The fuel is for the pairs of
annotations; the length of the unread text is enough. -/
def lexToken (fuel : Nat) (mode : Option RawMode) (ch : Char) (c : Cursor) :
    Except Mismatch (TokenKind × Cursor) :=
  if ch == '\x7b' && mode.isSome then lexRaw (mode.getD .sql) c
  else
    match single? ch with
    | some p => .ok (.punct p, c.drop 1)
    | none =>
    match extensible? ch with
    | some (second, short, long) =>
      if (c.rest.drop 1).head? == some second then .ok (.punct long, c.drop 2)
      else .ok (.punct short, c.drop 1)
    | none =>
    match doubled? ch with
    | some p =>
      if (c.rest.drop 1).head? == some ch then .ok (.punct p, c.drop 2)
      else .error ⟨c.pos, s!"'{ch}{ch}'", s!"'{ch}'"⟩
    | none =>
      if ch == '"' || ch == '\'' then do
        let (text, after) ← lexQuoted ch c
        return (.str text, after)
      else if ch == '[' then do
        let (pairs, after) ← lexPairs fuel (c.drop 1)
        return (.annotations pairs, after)
      else if ch.isDigit then lexNumber c
      else if isNameStart ch then .ok (lexWord c)
      else .error ⟨c.pos, "a token", s!"'{ch}'"⟩

/-- How a token changes what the next opening brace starts. -/
def nextMode (mode : Option RawMode) : TokenKind → Option RawMode
  | .keyword .queryKw => some .sql
  | .keyword .htmlKw => some .markup
  | .raw _ => none
  | _ => mode

/-- The tokens of the unread text, the last one marking its end. Each token takes at least one
character, so one more than the length of the text is enough fuel. -/
def tokens : (fuel : Nat) → Option RawMode → Cursor → Except Mismatch (List Token)
  | 0, _, c => .ok [⟨.eof, c.pos⟩]
  | fuel + 1, mode, c => do
    let c ← skipTrivia .blanks c.pos c.rest
    match c.rest with
    | [] => return [⟨.eof, c.pos⟩]
    | ch :: _ =>
      let (kind, after) ← lexToken fuel mode ch c
      let rest ← tokens fuel (nextMode mode kind) after
      return ⟨kind, c.pos⟩ :: rest

end Scaffold.Lexer

namespace Scaffold

def tokenize (source : String) : Except Mismatch (List Token) :=
  Lexer.tokens (source.toList.length + 1) none ⟨source.toList, {}⟩

end Scaffold
