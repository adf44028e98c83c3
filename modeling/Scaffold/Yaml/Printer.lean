import Scaffold.Data
import Scaffold.Number.Format
import Scaffold.Yaml.Character
import Scaffold.Yaml.Scalar.Value

/-!
Data documents as YAML in block style. A text is written plain where it reads back as itself, as a
literal block if it has several lines, and quoted otherwise.
-/

namespace Scaffold.Yaml

/-- Characters that may stand in a document as they are. -/
def isPrintable (c : Char) : Bool :=
  let n := c.toNat
  n == 0x0A || (0x20 ≤ n && n ≤ 0x7E)
    || (0xA0 ≤ n && n != 0xFEFF && n != 0xFFFE && n != 0xFFFF)

/-- Each character with those around it. -/
def neighbours : (previous : Option Char) → List Char → List (Option Char × Char × Option Char)
  | _, [] => []
  | previous, c :: cs => (previous, c, cs.head?) :: neighbours (some c) cs

/-- No character follows, or a gap. -/
def gapAt (c : Option Char) : Bool :=
  c.all isGap

/-- A first character that means something else unless quoted. -/
def opensOther (cs : List Char) : Bool :=
  match cs with
  | [] => true
  | c :: rest =>
    "#,[]\x7b\x7d&*!|>'\"%@`".toList.contains c
      || ((c == '?' || c == ':' || c == '-') && gapAt rest.head?)
      || Text.startsWith "---" (String.ofList cs) || Text.startsWith "..." (String.ofList cs)

/-- A later colon that ends a key, or a hash that starts a comment. -/
def breaksOff (previous : Option Char) (c : Char) (next : Option Char) : Bool :=
  previous.isSome && ((c == ':' && gapAt next) || (c == '#' && previous.any isGap))

def hasOuterSpace (cs : List Char) : Bool :=
  cs.head? == some ' ' || cs.getLast? == some ' '

/-- A space right before a line end, or a character that cannot stand as it is. -/
def needsEscapes (cs : List Char) : Bool :=
  (neighbours none cs).any fun (_, c, next) =>
    !isPrintable c || (c == ' ' && next.any isBreak)

def hasIndentedLine (cs : List Char) : Bool :=
  (neighbours none cs).any fun (previous, c, _) => c == ' ' && previous.any isBreak

/-- The text may stand without quotes. -/
def isPlain (cs : List Char) : Bool :=
  !opensOther cs && !hasOuterSpace cs && !needsEscapes cs && !cs.any isBreak
    && !(neighbours none cs).any fun (previous, c, next) => breaksOff previous c next

/-- The last `n` digits of a number in base 16, in upper case. -/
def hexDigits : (n : Nat) → Nat → String
  | 0, _ => ""
  | n + 1, value =>
    hexDigits n (value / 16) ++ ("0123456789ABCDEF".toList.getD (value % 16) '0').toString

/-- How a character is written between double quotes. -/
def escapeChar (c : Char) : String :=
  match c.toNat with
  | 0x00 => "\\0"
  | 0x07 => "\\a"
  | 0x08 => "\\b"
  | 0x09 => "\\t"
  | 0x0A => "\\n"
  | 0x0B => "\\v"
  | 0x0C => "\\f"
  | 0x0D => "\\r"
  | 0x1B => "\\e"
  | 0x22 => "\\\""
  | 0x5C => "\\\\"
  | 0x85 => "\\N"
  | 0x2028 => "\\L"
  | 0x2029 => "\\P"
  | n =>
    if isPrintable c then c.toString
    else if n ≤ 0xFF then "\\x" ++ hexDigits 2 n
    else if n ≤ 0xFFFF then "\\u" ++ hexDigits 4 n
    else "\\U" ++ hexDigits 8 n

def doubleQuoted (s : String) : String :=
  "\"" ++ Text.mapEach escapeChar s ++ "\""

/-- Every line but the first indented; line ends stay as they are, and empty lines carry no
indentation. `atStart` says that a line has just begun. -/
def indentLines (indent : Nat) : (atStart : Bool) → List Char → List Char
  | _, [] => []
  | atStart, c :: cs =>
    if isBreak c then c :: indentLines indent true cs
    else
      (if atStart then List.replicate indent ' ' else []) ++ c :: indentLines indent false cs

/-- The text between single quotes; the closing one is indented where it starts a line. -/
def singleQuoted (indent : Nat) (s : String) : String :=
  let doubled := s.toList.flatMap fun c => if c == '\'' then ['\'', '\''] else [c]
  let close := if s.toList.getLast?.any isBreak then Text.repeated indent " " else ""
  "'" ++ String.ofList (indentLines indent false doubled) ++ close ++ "'"

/-- What a literal block says of line ends at its end: none, one, or all of them are kept. -/
def chompMark (cs : List Char) : String :=
  match cs.reverse with
  | [] => "-"
  | [c] => if isBreak c then "+" else "-"
  | c :: d :: _ => if !isBreak c then "-" else if isBreak d then "+" else ""

/-- The text as a literal block; a first line that looks indented needs its indentation said. -/
def literalBlock (indent : Nat) (s : String) : String :=
  let cs := s.toList
  let hint := if cs.head?.any fun c => c == ' ' || isBreak c then "2" else ""
  let body := String.ofList (indentLines indent true cs)
  let ended := if cs.getLast?.any isBreak then body else body ++ "\n"
  "|" ++ hint ++ chompMark cs ++ "\n" ++ ended

/-- A scalar in quotes, and between single ones if they can hold it. -/
def quoted (indent : Nat) (s : String) : String :=
  if needsEscapes s.toList || hasIndentedLine s.toList then doubleQuoted s
  else singleQuoted indent s

/-- A text as the value of a key or an item, with the line end; further lines of it are indented by
`indent`. -/
def textLine (indent : Nat) (s : String) : String :=
  let cs := s.toList
  if cs.contains '\n' then
    if needsEscapes cs || cs.getLast? == some ' ' then doubleQuoted s ++ "\n"
    else literalBlock indent s
  else if isAmbiguous s then quoted indent s ++ "\n"
  else if isPlain cs then s ++ "\n"
  else quoted indent s ++ "\n"

mutual

/-- A value after a key that stands at column `indent`. A list under a key is not indented. -/
def valueText (indent : Nat) : Data → String
  | .null => " null\n"
  | .bool b => if b then " true\n" else " false\n"
  | .int n => " " ++ toString n ++ "\n"
  | .float x => " " ++ Number.scalarText x ++ "\n"
  | .str s => " " ++ textLine (indent + 2) s
  | .list [] => " []\n"
  | .list (d :: ds) => "\n" ++ itemsText indent (d :: ds)
  | .map [] => " \x7b\x7d\n"
  | .map ((k, v) :: es) => "\n" ++ entriesText (indent + 2) ((k, v) :: es)

/-- Entries at column `indent`. -/
def entriesText (indent : Nat) : List (String × Data) → String
  | [] => ""
  | (k, v) :: es =>
    Text.repeated indent " " ++ k ++ ":" ++ valueText indent v ++ entriesText indent es

/-- Items at column `indent`. -/
def itemsText (indent : Nat) : List Data → String
  | [] => ""
  | d :: ds => Text.repeated indent " " ++ "-" ++ itemText indent d ++ itemsText indent ds

/-- A value after the dash of an item at column `indent`. What it holds starts on the same line. -/
def itemText (indent : Nat) : Data → String
  | .null => " null\n"
  | .bool b => if b then " true\n" else " false\n"
  | .int n => " " ++ toString n ++ "\n"
  | .float x => " " ++ Number.scalarText x ++ "\n"
  | .str s => " " ++ textLine (indent + 2) s
  | .list [] => " []\n"
  | .list (d :: ds) => " -" ++ itemText (indent + 2) d ++ itemsText (indent + 2) ds
  | .map [] => " \x7b\x7d\n"
  | .map ((k, v) :: es) =>
    " " ++ k ++ ":" ++ valueText (indent + 2) v ++ entriesText (indent + 2) es

end

/-- A document of entries. -/
def document (entries : List (String × Data)) : String :=
  match entries with
  | [] => "\x7b\x7d\n"
  | entries => entriesText 0 entries

end Scaffold.Yaml
