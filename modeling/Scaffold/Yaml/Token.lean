import Scaffold.Yaml.Token.Property

/-!
Tokens of YAML documents. Block collections have tokens of their own where they begin and end,
although nothing is written there but indentation; a key has one in front of it.
-/

/-! ## Directives

Lines in front of a document that say which version of the language it uses and what its tag handles
stand for.
-/

namespace Scaffold.Yaml

/-- A directive. -/
inductive Directive where
  | version (major minor : Nat)
  /-- The handle stands for a longer text in front of a tag. -/
  | handle (name expansion : String)
  deriving DecidableEq, Inhabited

/-- The longest number in a version. -/
def maxVersionDigits : Nat := 9

/-- A number of a version, in a directive begun at `start`. -/
def readVersionNumber (start : Mark) (c : Cursor) : Except SyntaxFault (Nat × Cursor) :=
  let digits := c.run Char.isDigit
  if digits.isEmpty then .error (c.fault .versionDirective start .noVersionNumber)
  else if maxVersionDigits < digits.length then
    .error ((c.skip maxVersionDigits).fault .versionDirective start .longVersionNumber)
  else .ok (Number.digitsValue digits, c.skip digits.length)

/-- The numbers of a version. -/
def readVersion (start : Mark) (c : Cursor) : Except SyntaxFault (Directive × Cursor) := do
  let (major, stop) ← readVersionNumber start (c.skipRun isBlank)
  if stop.next? != some '.' then .error (stop.fault .versionDirective start .noVersionPoint)
  else
    let (minor, stop) ← readVersionNumber start (stop.skip 1)
    return (.version major minor, stop)

/-- A handle and what it stands for. -/
def readExpansion (start : Mark) (c : Cursor) : Except SyntaxFault (Directive × Cursor) := do
  let (name, stop) ← readHandle .directive start (c.skipRun isBlank)
  if !stop.next?.any isBlank then .error (stop.fault .tagDirective start .noBlank)
  else
    let (text, stop) ← readTagText true .directive start [] (stop.skipRun isBlank)
    if !gapNext stop.rest then .error (stop.fault .tagDirective start .noTagEnd)
    else return (.handle (String.ofList name) (String.ofList text), stop)

/-- The directive at its percent sign, and the start of the next line. -/
def readDirective (c : Cursor) : Except SyntaxFault (Directive × Cursor) := do
  let name := (c.skip 1).run isWordChar
  let stop := c.skip (1 + name.length)
  if name.isEmpty then .error (stop.fault .directive c.mark .noDirectiveName)
  else if !gapNext stop.rest then .error (stop.fault .directive c.mark .badDirectiveName)
  else
    let (directive, stop) ←
      if name == "YAML".toList then readVersion c.mark stop
      else if name == "TAG".toList then readExpansion c.mark stop
      else .error (stop.fault .directive c.mark .unknownDirective)
    match stop.endLine? with
    | none => .error (stop.skipLineTail.fault .directive c.mark .noLineEnd)
    | some next => return (directive, next)

/-! ## Tokens -/

/-- How a scalar was written. -/
inductive ScalarStyle where
  | plain
  | quoted
  | literal
  | folded
  deriving DecidableEq, Inhabited

/-- What a token is. -/
inductive Token.Kind where
  | streamEnd
  | directive (d : Directive)
  | documentStart
  | documentEnd
  | blockSequenceStart
  | blockMappingStart
  | blockEnd
  | flowSequenceStart
  | flowSequenceEnd
  | flowMappingStart
  | flowMappingEnd
  | blockEntry
  | flowEntry
  | key
  | value
  | reference (name : String)
  | anchor (name : String)
  | tag (t : Tag)
  | scalar (text : String) (style : ScalarStyle)
  deriving DecidableEq, Inhabited

/-- A token with the places where it starts and stops. -/
structure Token where
  kind : Token.Kind
  start : Mark
  stop : Mark
  deriving DecidableEq, Inhabited

end Scaffold.Yaml
