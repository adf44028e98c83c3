/-!
The classes of characters that YAML documents are made of.
-/

namespace Scaffold.Yaml

def isBreak (c : Char) : Bool :=
  c == '\n' || c == '\r' || c == '\x85' || c == '\u2028' || c == '\u2029'

def isBlank (c : Char) : Bool :=
  c == ' ' || c == '\t'

def isGap (c : Char) : Bool :=
  isBlank c || isBreak c

/-- Nothing follows, or a blank or a line end. -/
def gapNext : List Char → Bool
  | [] => true
  | c :: _ => isGap c

/-- Characters of anchors, tag handles and directive names. -/
def isWordChar (c : Char) : Bool :=
  c.isAlphanum || c == '_' || c == '-'

def isFlowSign (c : Char) : Bool :=
  ",[]\x7b\x7d".toList.contains c

/-- Characters that never start a plain scalar, dashes before text apart. -/
def isIndicator (c : Char) : Bool :=
  isFlowSign c || "-?:#&*!|>'\"%@`".toList.contains c

/-- Characters that may stand in a document. -/
def isAllowed (c : Char) : Bool :=
  let n := c.toNat
  n == 0x09 || n == 0x0A || n == 0x0D || n == 0x85 || (0x20 ≤ n && n ≤ 0x7E)
    || (0xA0 ≤ n && n != 0xFFFE && n != 0xFFFF)

/-- Every line end that stands for a plain one as a line feed; the two separators of lines and
paragraphs stay. -/
def plainBreaks : List Char → List Char
  | [] => []
  | '\r' :: '\n' :: cs => '\n' :: plainBreaks cs
  | c :: cs => (if c == '\r' || c == '\x85' then '\n' else c) :: plainBreaks cs

end Scaffold.Yaml
