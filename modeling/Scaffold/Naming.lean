import Scaffold.Text.Basic
import Scaffold.Text.Case
import Scaffold.Text.Letter

/-!
Names in the cases that target languages use, and text inside their string literals.

| here | in the program |
| --- | --- |
| `words`, `capitalize` | `words`, `capitalize` |
| `pascal`, `camel` | `pascal`, `camel` |
| `snake`, `kebab`, `screaming` | `snake`, `kebab`, `screaming` |
| `escape`, `oneLine` | `escape`, `one_line` |
-/

namespace Scaffold.Naming

/-- A capital starts a word after a small letter or a digit, and after a capital when a small letter
follows (`HTTPServer` is `http` and `server`). -/
def startsWord (previous : Option Char) (c : Char) (next : Option Char) : Bool :=
  match previous with
  | none => false
  | some p =>
    Text.isUpper c
      && (Text.isLower p || p.isDigit || (Text.isUpper p && next.any Text.isLower))

/-- The text cut where words start and at characters that are neither letters nor numbers, which
are dropped; `previous` is the character of the same word in front of the text. Pieces may be
empty. -/
def pieces : (previous : Option Char) → List Char → List (List Char)
  | _, [] => [[]]
  | previous, c :: cs =>
    if Text.isAlnum c then
      match pieces (some c) cs with
      | [] => [[c]]
      | word :: words =>
        if startsWord previous c cs.head? then [] :: (c :: word) :: words
        else (c :: word) :: words
    else [] :: pieces none cs

/-- The lower case words of a name: they end at characters that are neither letters nor numbers and
at changes of case. -/
def words (name : String) : List String :=
  ((pieces none name.toList).filter (!·.isEmpty)).map fun word =>
    String.ofList (word.flatMap Text.toLower)

/-- The word with its first character in upper case. -/
def capitalize (word : String) : String :=
  match word.toList with
  | [] => ""
  | c :: cs => String.ofList (Text.toUpper c ++ cs)

def pascal (name : String) : String :=
  String.join ((words name).map capitalize)

/-- Capitalized words without separators, the first one in lower case. -/
def camel (name : String) : String :=
  match words name with
  | [] => ""
  | first :: rest => first ++ String.join (rest.map capitalize)

def snake (name : String) : String :=
  Text.joinWith "_" (words name)

def kebab (name : String) : String :=
  Text.joinWith "-" (words name)

def upper (s : String) : String :=
  String.ofList (s.toList.flatMap Text.toUpper)

def screaming (name : String) : String :=
  upper (snake name)

/-- How a character is written between double quotes. -/
def escapeChar : Char → String
  | '\\' => "\\\\"
  | '"' => "\\\""
  | '\n' => "\\n"
  | '\r' => "\\r"
  | '\t' => "\\t"
  | c => c.toString

def escape (s : String) : String :=
  Text.mapEach escapeChar s

/-- Text on one line: every run of blanks becomes one space, none stays at the ends. -/
def oneLine (s : String) : String :=
  Text.joinWith " " (Text.words s)

end Scaffold.Naming
