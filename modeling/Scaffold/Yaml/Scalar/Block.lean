import Scaffold.Yaml.Scalar.Quoted

/-!
Scalars in a block of indented lines. A literal block keeps its line ends; a folded one joins lines
that are not indented further.
-/

namespace Scaffold.Yaml

/-- What happens to the line ends at the end of a block. -/
inductive Chomp where
  | strip
  | clip
  | keep
  deriving DecidableEq, Inhabited

/-- The head of a block: how its end is chomped, and how far it is said to be indented. -/
structure BlockHead where
  chomp : Chomp := .clip
  increment : Option Nat := none

def readChomp (c : Cursor) : Option Chomp :=
  if c.next? == some '+' then some .keep else if c.next? == some '-' then some .strip else none

/-- The digit that says how far a block is indented, in a block begun at `start`. -/
def readIncrement (start : Mark) (c : Cursor) : Except SyntaxFault (Option Nat) :=
  match c.next? with
  | some '0' => .error (c.fault .blockScalar start .zeroIndent)
  | some d => .ok (if d.isDigit then some (d.toNat - '0'.toNat) else none)
  | none => .ok none

/-- The head of a block begun at `start`, after its sign; the two parts of a head stand in either
order. -/
def readBlockHead (start : Mark) (c : Cursor) : Except SyntaxFault (BlockHead × Cursor) := do
  let width {α : Type} (o : Option α) := if o.isSome then 1 else 0
  match readChomp c with
  | some chomp =>
    let increment ← readIncrement start (c.skip 1)
    return (⟨chomp, increment⟩, c.skip (1 + width increment))
  | none =>
    let increment ← readIncrement start c
    let chomp := if increment.isSome then readChomp (c.skip 1) else none
    return (⟨chomp.getD .clip, increment⟩, c.skip (width increment + width chomp))

/-- The indentation and the line ends before the next line with text. -/
structure Breaks where
  text : List Char
  /-- The widest indentation. -/
  widest : Nat
  cursor : Cursor

/-- Passes over line ends and indentation up to column `indent`, or of any width if that is not
known yet, in a block begun at `start`. No tab may stand in the indentation. -/
def breaksFrom (start : Mark) (indent : Option Nat) : Mark → List Char → Except SyntaxFault Breaks
  | mark, [] => .ok ⟨[], mark.column, ⟨[], mark⟩⟩
  | mark, c :: cs =>
    let here : Cursor := ⟨c :: cs, mark⟩
    let inMargin := indent.all (mark.column < ·)
    if c == ' ' && inMargin then breaksFrom start indent (mark.advance 1) cs
    else if c == '\t' && inMargin then .error (here.fault .blockScalar start .tabInBlock)
    else if isBreak c then
      (breaksFrom start indent mark.nextLine cs).map fun breaks =>
        { breaks with text := c :: breaks.text, widest := max mark.column breaks.widest }
    else .ok ⟨[], mark.column, here⟩

/-- What two lines of a folded block are joined by: the line end after the first, and those that
follow. A plain line end between lines that both are not indented further becomes a space or
vanishes. -/
def foldedJoin (first : List Char) (more : List Char) (isFolded : Bool) : List Char :=
  if isFolded && first.head? == some '\n' then if more.isEmpty then [' '] else more
  else first ++ more

/-- The lines of a block at column `indent`. `first` is the line end of the line before, `breaks`
are those after it, and `wasMore` says that the line before was indented further. -/
def blockLines (start : Mark) (folded : Bool) (indent : Nat) (chomp : Chomp) : (fuel : Nat) →
    (wasMore : Bool) → (first : List Char) → Breaks → Except SyntaxFault ScalarRead
  | 0, _, _, breaks => .ok ⟨[], breaks.cursor⟩
  | fuel + 1, wasMore, first, breaks =>
    let c := breaks.cursor
    if c.mark.column != indent || c.rest.isEmpty then
      let tail :=
        match chomp with
        | .strip => []
        | .clip => first
        | .keep => first ++ breaks.text
      .ok ⟨tail, c⟩
    else do
      let isMore := c.next?.any isBlank
      let line := c.run (!isBreak ·)
      let stop := c.skip line.length
      let ending := stop.rest.take 1
      let next := if ending.isEmpty then stop else stop.skipBreak
      let more ← breaksFrom start (some indent) next.mark next.rest
      let read ← blockLines start folded indent chomp fuel isMore ending more
      let gap := foldedJoin first breaks.text (folded && !wasMore && !isMore)
      return read.after (gap ++ line)

/-- The block at its sign, inside a block collection whose items are indented by `margin` at
least. -/
def readBlock (folded : Bool) (margin : Nat) (c : Cursor) : Except SyntaxFault ScalarRead := do
  let (head, stop) ← readBlockHead c.mark (c.skip 1)
  match stop.endLine? with
  | none => .error (stop.skipLineTail.fault .blockScalar c.mark .noLineEnd)
  | some body =>
    let said := head.increment.map (margin - 1 + ·)
    let breaks ← breaksFrom c.mark said body.mark body.rest
    let indent := said.getD (max breaks.widest (max margin 1))
    blockLines c.mark folded indent head.chomp (body.rest.length + 1) false [] breaks

end Scaffold.Yaml
