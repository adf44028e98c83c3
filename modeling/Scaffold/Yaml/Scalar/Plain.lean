import Scaffold.Yaml.Character
import Scaffold.Yaml.Cursor

/-!
Plain scalars: text without quotes, ended by a colon before a gap, a comment, a line that is not
indented enough, a document mark, or a sign of the flow collection that it stands in.
-/

/-! ## Gaps

Blanks and line ends inside a scalar. They wait until more text follows: blanks on one line stand
for themselves, and line ends fold. One plain line end becomes a space; of several the first is
dropped. The separators of lines and paragraphs are kept.
-/

namespace Scaffold.Yaml

/-- What was passed over since the last character of a scalar, the newest character first. -/
inductive Gap where
  /-- Blanks on one line, perhaps none. -/
  | inline (blanks : List Char)
  /-- A first line end and further ones. -/
  | folded (first : Char) (more : List Char)
  /-- An escaped line end, which vanishes, and further ones. -/
  | joined (more : List Char)
  deriving DecidableEq, Inhabited

namespace Gap

def empty : Gap :=
  .inline []

/-- Nothing was passed over. -/
def isEmpty : Gap → Bool
  | .inline [] => true
  | _ => false

/-- A line end was passed over. -/
def isCrossed : Gap → Bool
  | .inline _ => false
  | _ => true

/-- What the passed characters stand for. -/
def text : Gap → List Char
  | .inline blanks => blanks.reverse
  | .folded first more =>
    if first != '\n' then first :: more.reverse
    else if more.isEmpty then [' '] else more.reverse
  | .joined more => more.reverse

/-- A blank more; blanks at the start of a line do not count. -/
def addBlank (c : Char) : Gap → Gap
  | .inline blanks => .inline (c :: blanks)
  | gap => gap

/-- A line end more; blanks before it do not count. -/
def addBreak (c : Char) : Gap → Gap
  | .inline _ => .folded c []
  | .folded first more => .folded first (c :: more)
  | .joined more => .joined (c :: more)

end Gap

/-! ## Plain scalars -/

/-- A plain scalar that was read. -/
structure PlainRead where
  text : List Char
  /-- The place after the scalar and the gap that follows it. -/
  cursor : Cursor
  /-- The gap crosses a line end. -/
  isCrossed : Bool

/-- A plain scalar may start here. -/
def startsPlain (flow : Bool) : List Char → Bool
  | [] => false
  | c :: cs =>
    (!isGap c && !isIndicator c) || (c == '-' && !cs.head?.any isBlank)
      || (!flow && (c == '?' || c == ':') && !gapNext cs)

/-- A colon that ends a plain scalar. -/
def endsKey : List Char → Bool
  | ':' :: rest => gapNext rest
  | _ => false

/-- A colon right before a sign: in a flow collection it could mean two things. -/
def isUnclearColon : List Char → Bool
  | ':' :: d :: _ => isFlowSign d || d == '?'
  | _ => false

/-- A plain scalar, begun at `start`, after a gap in it. Outside flow collections its further lines
are indented by `margin` at least, and nowhere may a tab stand in that margin. -/
def plainFrom (flow : Bool) (margin : Nat) (start : Mark) : Gap → Mark → List Char →
    Except SyntaxFault PlainRead
  | gap, mark, [] => .ok ⟨[], ⟨[], mark⟩, gap.isCrossed⟩
  | gap, mark, c :: cs =>
    let here : Cursor := ⟨c :: cs, mark⟩
    if isBreak c then plainFrom flow margin start (gap.addBreak c) mark.nextLine cs
    else if isBlank c then
      if c == '\t' && gap.isCrossed && mark.column < margin then
        .error (here.fault .plainScalar start .tabInPlain)
      else plainFrom flow margin start (gap.addBlank c) (mark.advance 1) cs
    else if !gap.isEmpty && ((!flow && mark.column < margin) || here.atDocumentMark || c == '#')
    then .ok ⟨[], here, gap.isCrossed⟩
    else if flow && isUnclearColon (c :: cs) then
      .error (here.fault .plainScalar start .colonInPlain)
    else if endsKey (c :: cs) || (flow && isFlowSign c) then .ok ⟨[], here, gap.isCrossed⟩
    else
      (plainFrom flow margin start .empty (mark.advance 1) cs).map fun read =>
        { read with text := gap.text ++ c :: read.text }

def readPlain (flow : Bool) (margin : Nat) (c : Cursor) : Except SyntaxFault PlainRead :=
  plainFrom flow margin c.mark .empty c.mark c.rest

end Scaffold.Yaml
