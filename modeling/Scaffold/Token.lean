import Scaffold.Annotation
import Scaffold.Position

/-!
The words and signs a source text is made of.

| here | in the program |
| --- | --- |
| `TokenKind` | `TokenKind` |
| `Keyword.ofText?` | `keyword` |
| `Punct.text` | `symbol` |
| `describe` | `describe` |
-/

namespace Scaffold

/-- Reserved words. -/
inductive Keyword where
  | importKw | domainKw | tableKw | entityKw | structKw | mapperKw | queryKw | controllerKw
  | apiKw | htmlKw | propertyKw | funcKw | varKw | ifKw | elseKw | whileKw | forKw | inKw
  | returnKw | breakKw | continueKw | trueKw | falseKw | nullKw
  deriving DecidableEq, Inhabited

namespace Keyword

/-- The spelling of a reserved word. -/
def text : Keyword → String
  | .importKw => "import"
  | .domainKw => "domain"
  | .tableKw => "table"
  | .entityKw => "entity"
  | .structKw => "struct"
  | .mapperKw => "mapper"
  | .queryKw => "query"
  | .controllerKw => "controller"
  | .apiKw => "api"
  | .htmlKw => "html"
  | .propertyKw => "property"
  | .funcKw => "func"
  | .varKw => "var"
  | .ifKw => "if"
  | .elseKw => "else"
  | .whileKw => "while"
  | .forKw => "for"
  | .inKw => "in"
  | .returnKw => "return"
  | .breakKw => "break"
  | .continueKw => "continue"
  | .trueKw => "true"
  | .falseKw => "false"
  | .nullKw => "null"

/-- All reserved words. -/
def all : List Keyword :=
  [.importKw, .domainKw, .tableKw, .entityKw, .structKw, .mapperKw, .queryKw, .controllerKw,
    .apiKw, .htmlKw, .propertyKw, .funcKw, .varKw, .ifKw, .elseKw, .whileKw, .forKw, .inKw,
    .returnKw, .breakKw, .continueKw, .trueKw, .falseKw, .nullKw]

def ofText? (word : String) : Option Keyword :=
  all.find? (·.text == word)

end Keyword

/-- Punctuation and operator signs. -/
inductive Punct where
  | braceOpen | braceClose | parenOpen | parenClose
  | less | greater | lessEq | greaterEq | equal | notEqual | assign | bang
  | both | either | plus | minus | star | slash | percent
  | colon | semicolon | comma | dot | range | atSign
  deriving DecidableEq, Inhabited

namespace Punct

/-- The spelling of a sign. -/
def text : Punct → String
  | .braceOpen => "\x7b"
  | .braceClose => "\x7d"
  | .parenOpen => "("
  | .parenClose => ")"
  | .less => "<"
  | .greater => ">"
  | .lessEq => "<="
  | .greaterEq => ">="
  | .equal => "=="
  | .notEqual => "!="
  | .assign => "="
  | .bang => "!"
  | .both => "&&"
  | .either => "||"
  | .plus => "+"
  | .minus => "-"
  | .star => "*"
  | .slash => "/"
  | .percent => "%"
  | .colon => ":"
  | .semicolon => ";"
  | .comma => ","
  | .dot => "."
  | .range => ".."
  | .atSign => "@"

end Punct

/-- What a token is. -/
inductive TokenKind where
  | keyword (k : Keyword)
  | punct (p : Punct)
  | ident (name : String)
  | str (text : String)
  | int (n : Nat)
  | float (x : Binary64)
  /-- A bracketed block of annotations, split into pairs. -/
  | annotations (pairs : List (String × AnnotationValue))
  /-- The text between the braces of a query or page, taken as it stands. -/
  | raw (text : String)
  | eof
  deriving DecidableEq, Inhabited

namespace TokenKind

/-- How a token is named in a message. -/
def describe : TokenKind → String
  | .keyword k => s!"'{k.text}'"
  | .punct p => s!"'{p.text}'"
  | .ident name => s!"identifier '{name}'"
  | .str s => s!"string '{s}'"
  | .int n => s!"integer {n}"
  | .float x => s!"number {Number.plainText x}"
  | .annotations _ => "annotation block"
  | .raw _ => "raw block"
  | .eof => "end of file"

end TokenKind

/-- A token and where it starts. -/
structure Token where
  kind : TokenKind
  pos : Position
  deriving DecidableEq, Inhabited

/-- A place at which something else was expected. -/
structure Mismatch where
  pos : Position
  expected : String
  found : String
  deriving DecidableEq, Inhabited

end Scaffold
