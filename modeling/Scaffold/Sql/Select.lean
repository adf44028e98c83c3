import Scaffold.Sql.Parameter

/-!
What lowering needs to know of a query: the kind of its statement, and for a select the list of its
columns and the tables they come from. The text is cut into words, signs and literals; nothing is
known of its grammar beyond that.

| here | in the program |
| --- | --- |
| `lexemes` | `tokenize` |
| `statementKind` | `statement_kind` |
| `selectList?` | `select_columns` |
| `selectItem`, `splitRenamed` | `select_item`, `split_alias` |
| `tableSources`, `endWords` | `table_sources`, `CLAUSE_END` |
| `matchesName`, `outputName` | `matches`, `output_name` |
-/

namespace Scaffold.Sql

/-- A word, sign or literal of SQL. -/
inductive Lexeme where
  | word (s : String)
  | sign (c : Char)
  | literal
  deriving DecidableEq, Inhabited

namespace Lexeme

/-- The word `w`, in any case. -/
def isWord (w : String) : Lexeme → Bool
  | .word s => Text.sameLetters s w
  | _ => false

/-- The text of a lexeme; a literal is written as a question mark. -/
def text : Lexeme → String
  | .word s => s
  | .sign c => c.toString
  | .literal => "?"

end Lexeme

/-- A character inside a word: words hold their qualifying points and the colons of parameters. -/
def isWordChar (c : Char) : Bool :=
  Lexer.isNameChar c || c == '.' || c == ':'

/-- The characters of a word that starts here; a star directly after a point belongs to it. -/
def wordHere (cs : List Char) : List Char :=
  let word := cs.takeWhile isWordChar
  let next := (cs.drop word.length).head?
  if next == some '*' && word.getLast? == some '.' then word ++ ['*'] else word

/-- The lexemes of SQL text. `skip` counts the characters that belong to a lexeme already given. -/
def lexemesFrom : (skip : Nat) → List Char → List Lexeme
  | _, [] => []
  | skip + 1, _ :: cs => lexemesFrom skip cs
  | 0, c :: cs =>
    if Text.isBlank c then lexemesFrom 0 cs
    else if c == '-' && cs.head? == some '-' then
      lexemesFrom (cs.takeWhile (· != '\n')).length cs
    else if c == '\'' then .literal :: lexemesFrom (quotedTail c cs).length cs
    else if isQuote c then
      let tail := quotedTail c cs
      .word (String.ofList tail.dropLast) :: lexemesFrom tail.length cs
    else if Lexer.isNameChar c || c == ':' then
      let word := wordHere (c :: cs)
      .word (String.ofList word) :: lexemesFrom (word.length - 1) cs
    else .sign c :: lexemesFrom 0 cs

def lexemes (sql : String) : List Lexeme :=
  lexemesFrom 0 sql.toList

/-- What a statement does. -/
inductive StatementKind where
  | select
  | insert
  | update
  | delete
  | other
  deriving DecidableEq, Inhabited

namespace StatementKind

/-- The word for a kind of statement. -/
def text : StatementKind → String
  | .select => "select"
  | .insert => "insert"
  | .update => "update"
  | .delete => "delete"
  | .other => "other"

/-- The kind that a first word announces. -/
def ofWord (word : String) : StatementKind :=
  let word := Text.lowerAscii word
  if word == "select" || word == "with" then .select
  else if word == "insert" || word == "replace" then .insert
  else if word == "update" then .update
  else if word == "delete" then .delete
  else .other

end StatementKind

/-- The kind of a statement, from its first word. -/
def statementKind (sql : String) : StatementKind :=
  let firstWord := (lexemes sql).findSome? fun
    | .word w => some w
    | _ => none
  StatementKind.ofWord (firstWord.getD "")

/-- One entry of a select list. -/
inductive SelectColumn where
  /-- A column, perhaps of a named table, perhaps renamed. -/
  | column (qualifier : Option String) (name : String) (renamed : Option String)
  /-- All columns, perhaps of a named table. -/
  | star (qualifier : Option String)
  /-- Any other expression, with the function it calls if it is a call. -/
  | expr (name : String) (function : Option String)
  deriving DecidableEq, Inhabited

namespace SelectColumn

/-- The name of the entry in the result. -/
def outputName? : SelectColumn → Option String
  | .column _ name renamed => some (renamed.getD name)
  | .star _ => none
  | .expr name _ => some name

end SelectColumn

/-- A table that a select reads. -/
structure TableSource where
  name : String
  renamed : Option String
  deriving DecidableEq, Inhabited

namespace TableSource

def matchesName (t : TableSource) (qualifier : String) : Bool :=
  t.renamed == some qualifier || t.name == qualifier

end TableSource

/-- The columns and tables of a select. -/
structure SelectList where
  columns : List SelectColumn
  tables : List TableSource
  deriving DecidableEq, Inhabited

/-! ## Columns -/

/-- The nesting depth after a lexeme. -/
def depthAfter (depth : Int) : Lexeme → Int
  | .sign '(' => depth + 1
  | .sign ')' => depth - 1
  | _ => depth

/-- What follows the first `select` outside of parentheses. -/
def afterSelect? : (depth : Int) → List Lexeme → Option (List Lexeme)
  | _, [] => none
  | depth, t :: ts =>
    if depth == 0 && t.isWord "select" then some ts else afterSelect? (depthAfter depth t) ts

/-- The entries up to `from` or a semicolon outside of parentheses, and what is left from there. -/
def splitItems : (depth : Int) → (item : List Lexeme) → List Lexeme →
    List (List Lexeme) × List Lexeme
  | _, item, [] => ([item], [])
  | depth, item, t :: ts =>
    if depth == 0 && t == .sign ',' then
      let (items, rest) := splitItems depth [] ts
      (item :: items, rest)
    else if depth == 0 && (t == .sign ';' || t.isWord "from") then ([item], t :: ts)
    else splitItems (depthAfter depth t) (item ++ [t]) ts

/-- An entry without the name it is given: after `as`, or as a last word that follows a word or a
closing parenthesis and has no point. -/
def splitRenamed (item : List Lexeme) : List Lexeme × Option String :=
  match item.reverse with
  | .word name :: second :: rest =>
    if !rest.isEmpty && second.isWord "as" then (rest.reverse, some name)
    else
      let implicit :=
        match second with
        | .word _ => true
        | .sign c => c == ')'
        | .literal => false
      if implicit && !name.toList.contains '.' then ((second :: rest).reverse, some name)
      else (item, none)
  | _ => (item, none)

/-- What an entry of the list selects. -/
def selectItem (item : List Lexeme) : SelectColumn :=
  let (body, renamed) := splitRenamed item
  match body with
  | [.sign '*'] => .star none
  | [.word word] =>
    match Text.beforeTail ".*" word with
    | some qualifier => .star (some qualifier)
    | none =>
      match Text.splitLast '.' word with
      | some (qualifier, name) => .column (some qualifier) name renamed
      | none => .column none word renamed
  | _ =>
    let function :=
      match body with
      | .word f :: .sign '(' :: _ => some (Text.lowerAscii f)
      | _ => none
    let derived := function.getD (String.join (body.map Lexeme.text))
    .expr (renamed.getD derived) function

/-! ## Tables -/

/-- Words that cannot be the new name of a table. -/
def clauseWords : List String :=
  ["where", "group", "order", "limit", "having", "union", "offset", "on", "using", "join",
    "inner", "left", "right", "full", "cross", "outer", "natural", "for"]

def endWords : List String :=
  ["where", "group", "order", "limit", "having", "union"]

/-- The new name that follows a table, and how many lexemes it takes. -/
def tableName? : List Lexeme → Option (String × Nat)
  | .word a :: rest =>
    if Text.sameLetters a "as" then
      match rest with
      | .word b :: _ => plain b 2
      | _ => none
    else plain a 1
  | _ => none
where
  plain (name : String) (count : Nat) : Option (String × Nat) :=
    if clauseWords.any (Text.sameLetters name) then none else some (name, count)

/-- The tables of a `from` clause: the first word, and the word after each comma or `join`, outside
of parentheses. `skip` counts the lexemes of a new name already taken. -/
def tableSources : (skip : Nat) → (expected : Bool) → (depth : Int) → List Lexeme →
    List TableSource
  | _, _, _, [] => []
  | skip + 1, expected, depth, _ :: ts => tableSources skip expected depth ts
  | 0, expected, depth, t :: ts =>
    if t == .sign '(' || t == .sign ')' then tableSources 0 expected (depthAfter depth t) ts
    else if 0 < depth then tableSources 0 expected depth ts
    else if t == .sign ';' then []
    else if t == .sign ',' || t.isWord "join" then tableSources 0 true depth ts
    else if endWords.any (t.isWord ·) then []
    else
      match t with
      | .word name =>
        if expected then
          match tableName? ts with
          | some (renamed, count) => ⟨name, some renamed⟩ :: tableSources count false depth ts
          | none => ⟨name, none⟩ :: tableSources 0 false depth ts
        else tableSources 0 expected depth ts
      | _ => tableSources 0 expected depth ts

/-- The columns and tables of the outermost select; `none` if there is none. -/
def selectList? (sql : String) : Option SelectList := do
  let ts ← afterSelect? 0 (lexemes sql)
  let ts :=
    match ts with
    | t :: rest => if t.isWord "distinct" || t.isWord "all" then rest else t :: rest
    | [] => []
  let (items, rest) := splitItems 0 [] ts
  let columns := (items.filter (!·.isEmpty)).map selectItem
  let tables :=
    match rest with
    | t :: more => if t.isWord "from" then tableSources 0 true 0 more else []
    | [] => []
  return ⟨columns, tables⟩

end Scaffold.Sql
