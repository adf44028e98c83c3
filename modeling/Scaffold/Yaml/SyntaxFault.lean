
/-!
What can be wrong with the syntax of a YAML document. A fault is a problem at a place, and often
also what was being read when the problem was met and where that began.
-/

/-! ## Places

Places in a YAML document.
-/

namespace Scaffold.Yaml

/-- A place in a document: its line and its column, both counted from zero. -/
structure Mark where
  line : Nat := 0
  column : Nat := 0
  deriving DecidableEq, Inhabited

namespace Mark

/-- The place `n` characters further on the same line. -/
def advance (m : Mark) (n : Nat) : Mark :=
  { m with column := m.column + n }

def nextLine (m : Mark) : Mark :=
  ⟨m.line + 1, 0⟩

def isStart (m : Mark) : Bool :=
  m.line == 0 && m.column == 0

/-- The place as messages give it, counted from one; the start of a document is not given. -/
def note (m : Mark) : String :=
  if m.isStart then "" else s!" at line {m.line + 1} column {m.column + 1}"

end Mark

/-! ## Faults -/

/-- What was being read. -/
inductive Activity where
  | nextToken
  | simpleKey
  | plainScalar
  | quotedScalar
  | quotedEscape
  | blockScalar
  | anchor
  | reference
  | tag
  | tagText
  | directive
  | versionDirective
  | tagDirective
  | tagDirectiveHandle
  | tagDirectiveMark
  | tagDirectiveText
  | node
  | blockNode
  | flowNode
  | blockSequence
  | blockMapping
  | flowSequence
  | flowMapping
  deriving DecidableEq, Inhabited

/-- The text of an activity. -/
def Activity.text : Activity → String
  | .nextToken => "while scanning for the next token"
  | .simpleKey => "while scanning a simple key"
  | .plainScalar => "while scanning a plain scalar"
  | .quotedScalar => "while scanning a quoted scalar"
  | .quotedEscape => "while parsing a quoted scalar"
  | .blockScalar => "while scanning a block scalar"
  | .anchor => "while scanning an anchor"
  | .reference => "while scanning an alias"
  | .tag => "while scanning a tag"
  | .tagText => "while parsing a tag"
  | .directive => "while scanning a directive"
  | .versionDirective => "while scanning a %YAML directive"
  | .tagDirective => "while scanning a %TAG directive"
  | .tagDirectiveHandle => "while parsing a tag directive"
  | .tagDirectiveMark => "while scanning a tag directive"
  | .tagDirectiveText => "while parsing a %TAG directive"
  | .node => "while parsing a node"
  | .blockNode => "while parsing a block node"
  | .flowNode => "while parsing a flow node"
  | .blockSequence => "while parsing a block collection"
  | .blockMapping => "while parsing a block mapping"
  | .flowSequence => "while parsing a flow sequence"
  | .flowMapping => "while parsing a flow mapping"

/-- What is wrong. -/
inductive Problem where
  | noSuchToken
  | noColon
  | entryNotAllowed
  | keyNotAllowed
  | valueNotAllowed
  | colonInPlain
  | tabInPlain
  | documentMarkInQuotes
  | endInQuotes
  | unknownEscape
  | noHexDigit
  | noSuchChar
  | zeroIndent
  | noLineEnd
  | tabInBlock
  | noWordChar
  | noTagClose
  | noTagEnd
  | noTagMark
  | noTagText
  | noOctet
  | badFirstOctet
  | badLaterOctet
  | noDirectiveName
  | badDirectiveName
  | unknownDirective
  | noVersionNumber
  | noVersionPoint
  | longVersionNumber
  | noBlank
  | repeatedVersion
  | otherVersion
  | repeatedHandle
  | unknownHandle
  | noDocumentStart
  | noContent
  | noDash
  | noKey
  | noSequenceSign
  | noMappingSign
  deriving DecidableEq, Inhabited

/-- The text of a problem. -/
def Problem.text : Problem → String
  | .noSuchToken => "found character that cannot start any token"
  | .noColon => "could not find expected ':'"
  | .entryNotAllowed => "block sequence entries are not allowed in this context"
  | .keyNotAllowed => "mapping keys are not allowed in this context"
  | .valueNotAllowed => "mapping values are not allowed in this context"
  | .colonInPlain => "found unexpected ':'"
  | .tabInPlain => "found a tab character that violates indentation"
  | .documentMarkInQuotes => "found unexpected document indicator"
  | .endInQuotes => "found unexpected end of stream"
  | .unknownEscape => "found unknown escape character"
  | .noHexDigit => "did not find expected hexdecimal number"
  | .noSuchChar => "found invalid Unicode character escape code"
  | .zeroIndent => "found an indentation indicator equal to 0"
  | .noLineEnd => "did not find expected comment or line break"
  | .tabInBlock => "found a tab character where an indentation space is expected"
  | .noWordChar => "did not find expected alphabetic or numeric character"
  | .noTagClose => "did not find the expected '>'"
  | .noTagEnd => "did not find expected whitespace or line break"
  | .noTagMark => "did not find expected '!'"
  | .noTagText => "did not find expected tag URI"
  | .noOctet => "did not find URI escaped octet"
  | .badFirstOctet => "found an incorrect leading UTF-8 octet"
  | .badLaterOctet => "found an incorrect trailing UTF-8 octet"
  | .noDirectiveName => "could not find expected directive name"
  | .badDirectiveName => "found unexpected non-alphabetical character"
  | .unknownDirective => "found unknown directive name"
  | .noVersionNumber => "did not find expected version number"
  | .noVersionPoint => "did not find expected digit or '.' character"
  | .longVersionNumber => "found extremely long version number"
  | .noBlank => "did not find expected whitespace"
  | .repeatedVersion => "found duplicate %YAML directive"
  | .otherVersion => "found incompatible YAML document"
  | .repeatedHandle => "found duplicate %TAG directive"
  | .unknownHandle => "found undefined tag handle"
  | .noDocumentStart => "did not find expected <document start>"
  | .noContent => "did not find expected node content"
  | .noDash => "did not find expected '-' indicator"
  | .noKey => "did not find expected key"
  | .noSequenceSign => "did not find expected ',' or ']'"
  | .noMappingSign => "did not find expected ',' or '\x7d'"

/-- A problem at a place, met while reading something that began at another place. -/
structure SyntaxFault where
  problem : Problem
  mark : Mark
  during : Option (Activity × Mark) := none
  deriving DecidableEq, Inhabited

/-- The text of a fault. Where the problem stands at the start of what was being read, the place is
given once. -/
def SyntaxFault.message (f : SyntaxFault) : String :=
  let context :=
    match f.during with
    | none => ""
    | some (activity, start) =>
      ", " ++ activity.text ++ if start == f.mark then "" else start.note
  f.problem.text ++ f.mark.note ++ context

end Scaffold.Yaml
