import Scaffold.Yaml.Character
import Scaffold.Yaml.SyntaxFault

/-!
Reading places in a YAML document whose line ends are plain, and the way from one token to the next.
-/

namespace Scaffold.Yaml

/-- A place in a document and what is left from there on. -/
structure Cursor where
  rest : List Char
  mark : Mark := {}
  deriving Inhabited

namespace Cursor

def next? (c : Cursor) : Option Char :=
  c.rest.head?

/-- The place after `n` characters of this line. -/
def skip (c : Cursor) (n : Nat) : Cursor :=
  ⟨c.rest.drop n, c.mark.advance n⟩

/-- The characters of this line that satisfy `p`, up to the first that does not. -/
def run (p : Char → Bool) (c : Cursor) : List Char :=
  c.rest.takeWhile p

/-- The place after the characters of this line that satisfy `p`. -/
def skipRun (p : Char → Bool) (c : Cursor) : Cursor :=
  c.skip (c.run p).length

def skipBreak (c : Cursor) : Cursor :=
  ⟨c.rest.drop 1, c.mark.nextLine⟩

/-- A mark that starts or ends a document, made of three times `sign`. -/
def atTriple (sign : Char) (c : Cursor) : Bool :=
  c.mark.column == 0 && match c.rest with
    | x :: y :: z :: rest => x == sign && y == sign && z == sign && gapNext rest
    | _ => false

def atDocumentMark (c : Cursor) : Bool :=
  c.atTriple '-' || c.atTriple '.'

/-- A fault at this place, met while reading what began at `start`. -/
def fault (c : Cursor) (activity : Activity) (start : Mark) (problem : Problem) : SyntaxFault :=
  ⟨problem, c.mark, some (activity, start)⟩

/-- The start of the next token: blanks, comments and line ends are passed over, and a mark of byte
order where a line starts. A tab is a blank in a flow collection and where no key may start; outside
flow collections a key may start on every new line. The result says whether one may. -/
def tokenFrom (flow : Bool) : (keyAllowed comment : Bool) → Mark → List Char → Cursor × Bool
  | keyAllowed, _, mark, [] => (⟨[], mark⟩, keyAllowed)
  | keyAllowed, comment, mark, c :: cs =>
    if isBreak c then tokenFrom flow (keyAllowed || !flow) false mark.nextLine cs
    else if comment || c == '#' then tokenFrom flow keyAllowed true (mark.advance 1) cs
    else if c == ' ' || (c == '\t' && (flow || !keyAllowed)) || (c == '\uFEFF' && mark.column == 0)
    then tokenFrom flow keyAllowed false (mark.advance 1) cs
    else (⟨c :: cs, mark⟩, keyAllowed)

/-- The rest of a line after something that ends it: blanks and a comment. -/
def skipLineTail (c : Cursor) : Cursor :=
  let c := c.skipRun isBlank
  if c.next? == some '#' then c.skipRun (!isBreak ·) else c

/-- The start of the next line, if no text is left on this one. -/
def endLine? (c : Cursor) : Option Cursor :=
  match c.skipLineTail with
  | ⟨[], mark⟩ => some ⟨[], mark⟩
  | ⟨x :: rest, mark⟩ => if isBreak x then some ⟨rest, mark.nextLine⟩ else none

end Cursor

end Scaffold.Yaml
