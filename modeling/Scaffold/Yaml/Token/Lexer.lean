import Scaffold.Yaml.Scalar.Block
import Scaffold.Yaml.Scalar.Plain
import Scaffold.Yaml.Token

/-!
From the characters of a document to its tokens. Whether something is a key shows only at the colon
after it, so the lexer keeps, for every collection around, the place where a key may have begun and
puts the missing tokens there when the colon comes. A key stays on one line and is not longer than
1024 characters.
-/

namespace Scaffold.Yaml

/-- A token that may turn out to be the first of a key. -/
structure KeyCandidate where
  /-- How many tokens stand before it. -/
  number : Nat
  mark : Mark
  /-- Nothing but a key can stand there. -/
  isRequired : Bool
  deriving DecidableEq, Inhabited

/-- The state of the lexer. -/
structure Lexer where
  cursor : Cursor
  /-- Items of the innermost open block are indented by one less; zero if no block is open. -/
  margin : Nat := 0
  /-- The margins of the blocks around, innermost first. -/
  margins : List Nat := []
  /-- A key may start here. -/
  keyAllowed : Bool := true
  /-- The candidate in the innermost flow collection, or outside all of them. -/
  candidate : Option KeyCandidate := none
  /-- The candidates around the open flow collections, innermost first. -/
  around : List (Option KeyCandidate) := []
  /-- The tokens read so far, newest first. -/
  tokens : List Token := []
  /-- How many tokens that is. -/
  count : Nat := 0
  deriving Inhabited

namespace Lexer

def inFlow (s : Lexer) : Bool :=
  !s.around.isEmpty

def mark (s : Lexer) : Mark :=
  s.cursor.mark

/-- A fault at this place without more to say about it. -/
def fault (s : Lexer) (problem : Problem) : SyntaxFault :=
  ⟨problem, s.mark, none⟩

/-- One token more, which takes what lies between here and `stop`. -/
def emit (s : Lexer) (kind : Token.Kind) (stop : Cursor) : Lexer :=
  { s with
    cursor := stop
    tokens := ⟨kind, s.mark, stop.mark⟩ :: s.tokens
    count := s.count + 1 }

/-- One token more that takes no text, in front of all but the first `number` tokens. -/
def insert (s : Lexer) (number : Nat) (kind : Token.Kind) (mark : Mark) : Lexer :=
  { s with
    tokens := s.tokens.insertIdx (s.count - number) ⟨kind, mark, mark⟩
    count := s.count + 1 }

/-! ## Keys -/

/-- The longest key, in characters. -/
def maxKey : Nat := 1024

/-- What is left of a candidate when the lexer has reached `mark`. -/
def keepCandidate (mark : Mark) : Option KeyCandidate → Except SyntaxFault (Option KeyCandidate)
  | none => .ok none
  | some key =>
    if key.mark.line < mark.line || key.mark.column + maxKey < mark.column then
      if key.isRequired then .error ⟨.noColon, mark, some (.simpleKey, key.mark)⟩ else .ok none
    else .ok (some key)

/-- Without the candidates that have become too long. -/
def dropStale (s : Lexer) : Except SyntaxFault Lexer := do
  let around ← s.around.mapM (keepCandidate s.mark)
  let candidate ← keepCandidate s.mark s.candidate
  return { s with candidate, around }

/-- Without the innermost candidate. -/
def dropCandidate (s : Lexer) : Except SyntaxFault Lexer :=
  match s.candidate with
  | some key =>
    if key.isRequired then .error ⟨.noColon, s.mark, some (.simpleKey, key.mark)⟩
    else .ok { s with candidate := none }
  | none => .ok s

/-- The next token is a candidate, if a key may start here. -/
def saveCandidate (s : Lexer) : Except SyntaxFault Lexer := do
  if !s.keyAllowed then return s
  else
    let isRequired := !s.inFlow && s.margin == s.mark.column + 1
    let s ← s.dropCandidate
    return { s with candidate := some ⟨s.count, s.mark, isRequired⟩ }

/-! ## Blocks -/

/-- Opens a block at a column, unless one as far to the right is open; its token stands in front of
all but the first `number` tokens. -/
def openBlock (s : Lexer) (kind : Token.Kind) (number : Nat) (mark : Mark) : Lexer :=
  if s.inFlow || mark.column < s.margin then s
  else
    { s.insert number kind mark with
      margin := mark.column + 1
      margins := s.margin :: s.margins }

/-- The margins that are left when the blocks with a margin above `limit` are closed, and how many
blocks are closed then; `closed` of them are already. -/
def marginsWithin (limit : Nat) : (margin : Nat) → (margins : List Nat) → (closed : Nat) →
    Nat × List Nat × Nat
  | margin, [], closed => if margin ≤ limit then (margin, [], closed) else (0, [], closed + 1)
  | margin, outer :: margins, closed =>
    if margin ≤ limit then (margin, outer :: margins, closed)
    else marginsWithin limit outer margins (closed + 1)

/-- Closes the blocks with a margin above `limit`; in a flow collection none ends. -/
def closeBlocks (s : Lexer) (limit : Nat) : Lexer :=
  if s.inFlow then s
  else
    let (margin, margins, closed) := marginsWithin limit s.margin s.margins 0
    { s with
      margin, margins
      tokens := List.replicate closed ⟨.blockEnd, s.mark, s.mark⟩ ++ s.tokens
      count := s.count + closed }

/-! ## Tokens -/

/-- The end of the text, which counts as a line of its own. -/
def readEnd (s : Lexer) : Except SyntaxFault Lexer := do
  let mark := if s.mark.column == 0 then s.mark else s.mark.nextLine
  let s := { s with cursor := ⟨[], mark⟩ }.closeBlocks 0
  let s ← s.dropCandidate
  return { s with keyAllowed := false }.emit .streamEnd s.cursor

/-- A directive or a document mark, which ends all blocks. -/
def readOuter (s : Lexer) (kind : Token.Kind) (stop : Cursor) : Except SyntaxFault Lexer := do
  let s ← (s.closeBlocks 0).dropCandidate
  return { s with keyAllowed := false }.emit kind stop

/-- A directive. -/
def readDirectiveToken (s : Lexer) : Except SyntaxFault Lexer := do
  -- what the directive ends is looked at before the directive itself
  let _ ← (s.closeBlocks 0).dropCandidate
  let (directive, stop) ← readDirective s.cursor
  s.readOuter (.directive directive) stop

/-- An opening bracket. -/
def openFlow (s : Lexer) (kind : Token.Kind) : Except SyntaxFault Lexer := do
  let s ← s.saveCandidate
  let s := s.emit kind (s.cursor.skip 1)
  return { s with candidate := none, around := s.candidate :: s.around, keyAllowed := true }

/-- A closing bracket. -/
def closeFlow (s : Lexer) (kind : Token.Kind) : Except SyntaxFault Lexer := do
  let s ← s.dropCandidate
  let s := { s with keyAllowed := false }.emit kind (s.cursor.skip 1)
  return match s.around with
    | [] => s
    | candidate :: around => { s with candidate, around }

/-- A comma between the items of a flow collection. -/
def readFlowEntry (s : Lexer) : Except SyntaxFault Lexer := do
  let s ← s.dropCandidate
  return { s with keyAllowed := true }.emit .flowEntry (s.cursor.skip 1)

/-- The dash of an item. -/
def readBlockEntry (s : Lexer) : Except SyntaxFault Lexer := do
  if !s.inFlow && !s.keyAllowed then .error (s.fault .entryNotAllowed)
  else
    let s ← (s.openBlock .blockSequenceStart s.count s.mark).dropCandidate
    return { s with keyAllowed := true }.emit .blockEntry (s.cursor.skip 1)

/-- The question mark of a key. -/
def readKey (s : Lexer) : Except SyntaxFault Lexer := do
  if !s.inFlow && !s.keyAllowed then .error (s.fault .keyNotAllowed)
  else
    let s ← (s.openBlock .blockMappingStart s.count s.mark).dropCandidate
    return { s with keyAllowed := !s.inFlow }.emit .key (s.cursor.skip 1)

/-- The colon of a value. -/
def readValue (s : Lexer) : Except SyntaxFault Lexer :=
  match s.candidate with
  | some key =>
    let s := s.insert key.number .key key.mark
    let s := s.openBlock .blockMappingStart key.number key.mark
    .ok ({ s with candidate := none, keyAllowed := false }.emit .value (s.cursor.skip 1))
  | none =>
    if !s.inFlow && !s.keyAllowed then .error (s.fault .valueNotAllowed)
    else
      let s := s.openBlock .blockMappingStart s.count s.mark
      .ok ({ s with keyAllowed := !s.inFlow }.emit .value (s.cursor.skip 1))

/-- An anchor or a reference. -/
def readAnchorToken (s : Lexer) (activity : Activity) (kind : String → Token.Kind) :
    Except SyntaxFault Lexer := do
  let s ← s.saveCandidate
  let (name, stop) ← readAnchor activity s.cursor
  return { s with keyAllowed := false }.emit (kind (String.ofList name)) stop

/-- A tag. -/
def readTagToken (s : Lexer) : Except SyntaxFault Lexer := do
  let s ← s.saveCandidate
  let (tag, stop) ← readTag s.inFlow s.cursor
  return { s with keyAllowed := false }.emit (.tag tag) stop

/-- A scalar in a block of lines. -/
def readBlockToken (s : Lexer) (folded : Bool) : Except SyntaxFault Lexer := do
  let s ← s.dropCandidate
  let read ← readBlock folded s.margin s.cursor
  let style : ScalarStyle := if folded then .folded else .literal
  return { s with keyAllowed := true }.emit (.scalar (String.ofList read.text) style) read.cursor

/-- A scalar between quotes. -/
def readQuotedToken (s : Lexer) : Except SyntaxFault Lexer := do
  let s ← s.saveCandidate
  let read ← readQuoted s.cursor
  return { s with keyAllowed := false }.emit (.scalar (String.ofList read.text) .quoted) read.cursor

/-- A plain scalar. If its gap crosses a line end, a key may start after it. -/
def readPlainToken (s : Lexer) : Except SyntaxFault Lexer := do
  let s ← s.saveCandidate
  let read ← readPlain s.inFlow s.margin s.cursor
  return { s with keyAllowed := read.isCrossed }.emit (.scalar (String.ofList read.text) .plain)
    read.cursor

/-- The token at this place, told by its first character `c` and what follows it. -/
def readToken (s : Lexer) (c : Char) (next : List Char) : Except SyntaxFault Lexer :=
  let isAlone := gapNext next
  if s.mark.column == 0 && c == '%' then s.readDirectiveToken
  else if s.cursor.atTriple '-' then s.readOuter .documentStart (s.cursor.skip 3)
  else if s.cursor.atTriple '.' then s.readOuter .documentEnd (s.cursor.skip 3)
  else if c == '[' then s.openFlow .flowSequenceStart
  else if c == '\x7b' then s.openFlow .flowMappingStart
  else if c == ']' then s.closeFlow .flowSequenceEnd
  else if c == '\x7d' then s.closeFlow .flowMappingEnd
  else if c == ',' then s.readFlowEntry
  else if c == '-' && isAlone then s.readBlockEntry
  else if c == '?' && (s.inFlow || isAlone) then s.readKey
  else if c == ':' && (s.inFlow || isAlone) then s.readValue
  else if c == '*' then s.readAnchorToken .reference .reference
  else if c == '&' then s.readAnchorToken .anchor .anchor
  else if c == '!' then s.readTagToken
  else if c == '|' && !s.inFlow then s.readBlockToken false
  else if c == '>' && !s.inFlow then s.readBlockToken true
  else if c == '\'' || c == '"' then s.readQuotedToken
  else if startsPlain s.inFlow (c :: next) then s.readPlainToken
  else .error (s.cursor.fault .nextToken s.mark .noSuchToken)

/-- Reads one more token, and the ends of the blocks that it is not part of. -/
def step (s : Lexer) : Except SyntaxFault Lexer := do
  let (cursor, keyAllowed) :=
    Cursor.tokenFrom s.inFlow s.keyAllowed false s.cursor.mark s.cursor.rest
  let s ← { s with cursor, keyAllowed }.dropStale
  let s := s.closeBlocks (s.mark.column + 1)
  match s.cursor.rest with
  | [] => s.readEnd
  | c :: next => s.readToken c next

/-- How many tokens are settled: those in front of the first candidate. -/
def settled (s : Lexer) : Nat :=
  (s.candidate :: s.around).foldl (fun n key => min n ((key.map (·.number)).getD n)) s.count

def isDone (s : Lexer) : Bool :=
  s.tokens.head?.any (·.kind == .streamEnd)

end Lexer

/-- The tokens of a document, and why there are no more of them if it breaks off. -/
structure Lexing where
  tokens : List Token
  fault : Option SyntaxFault := none
  deriving Inhabited

/-- Reads tokens until the text ends or a fault stops it; then only tokens count that were settled
before. Every step takes a character, so a text is enough fuel for itself. -/
def Lexer.run : (fuel : Nat) → Lexer → Lexing
  | 0, s => ⟨s.tokens.reverse, none⟩
  | fuel + 1, s =>
    match s.step >>= dropStale with
    | .error fault => ⟨s.tokens.reverse.take s.settled, some fault⟩
    | .ok next => if next.isDone then ⟨next.tokens.reverse, none⟩ else run fuel next

def tokens (cs : List Char) : Lexing :=
  Lexer.run (cs.length + 1) { cursor := ⟨cs, {}⟩ }

end Scaffold.Yaml
