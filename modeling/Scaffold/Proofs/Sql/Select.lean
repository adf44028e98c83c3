import Scaffold.Proofs.Sql.Part
import Scaffold.Proofs.Url

/-!
# Reading a select list back

A select that was written from its columns, its tables and their new names is read back as these
columns and tables (`WrittenSelect.selectList?_text`). A call may hold any text with balanced
parentheses, a join any condition without a comma outside of parentheses, and behind the tables may
stand any text that a clause word or a semicolon starts.

* `Enclosed`: lexemes that the scans for columns and tables pass over.
* `Delimited`: parts that end where a blank, a comma or a semicolon follows.
-/

namespace Scaffold.Sql

/-! ## What is written -/

/-- The words that tell the scans where something starts or ends. -/
def reservedWords : List String :=
  ["select", "distinct", "all", "from", "as"] ++ clauseWords

/-- A text of letters, numbers and underscores. -/
def isPlain (s : String) : Bool :=
  !s.toList.isEmpty && s.toList.all Lexer.isNameChar

/-- An identifier: a plain word that is not reserved in any case. -/
structure Ident where
  name : String
  plain : isPlain name = true
  free : reservedWords.any (Text.sameLetters name) = false

/-- Lexemes with balanced parentheses from this depth on, none of which stops a scan outside of
parentheses. -/
def enclosed (stops : Lexeme → Bool) : (depth : Int) → List Lexeme → Bool
  | depth, [] => depth == 0
  | depth, t :: ts =>
    !(depth == 0 && stops t) && decide (0 ≤ depthAfter depth t)
      && enclosed stops (depthAfter depth t) ts

/-- What separates entries of a select list or ends it. -/
def stopsItem (t : Lexeme) : Bool :=
  t == .sign ',' || t == .sign ';' || t.isWord "from"

/-- What makes the scan for tables expect a table or ends it. -/
def stopsTable (t : Lexeme) : Bool :=
  t == .sign ',' || t == .sign ';' || t.isWord "join" || endWords.any (t.isWord ·)

/-- The new name of a column or a table, and how it is given. -/
inductive Renaming where
  | none
  | as (name : Ident)
  | bare (name : Ident)

namespace Renaming

/-- The new name. -/
def name? : Renaming → Option String
  | .none => Option.none
  | .as i | .bare i => some i.name

/-- The new name as it is written. -/
def text : Renaming → String
  | .none => ""
  | .as i => " as " ++ i.name
  | .bare i => " " ++ i.name

end Renaming

/-- The arguments of a call: text that ends where a parenthesis follows, with balanced
parentheses. -/
structure Argument where
  text : String
  closed : parts (text ++ ")") = parts text ++ [.sign ')']
  balanced : enclosed (fun _ => false) 0 (lexemes text) = true

example : Argument := ⟨"a, (')', 1)", by cbv, by cbv⟩

/-- An entry of a select list as it is written. -/
inductive WrittenColumn where
  | column (qualifier : Option Ident) (name : Ident) (renamed : Renaming)
  | star
  | starOf (qualifier : Ident)
  | call (function : Ident) (arguments : Argument) (renamed : Renaming)

namespace WrittenColumn

/-- The entry as it is written. -/
def text : WrittenColumn → String
  | .column none name renamed => name.name ++ renamed.text
  | .column (some q) name renamed => q.name ++ "." ++ name.name ++ renamed.text
  | .star => "*"
  | .starOf q => q.name ++ ".*"
  | .call f args renamed => f.name ++ "(" ++ args.text ++ ")" ++ renamed.text

/-- The entry as it is read. -/
def read : WrittenColumn → SelectColumn
  | .column q name renamed => .column (q.map (·.name)) name.name renamed.name?
  | .star => .star none
  | .starOf q => .star (some q.name)
  | .call f _ renamed =>
    .expr (renamed.name?.getD (Text.lowerAscii f.name)) (some (Text.lowerAscii f.name))

end WrittenColumn

/-- A table as it is written. -/
structure WrittenTable where
  name : Ident
  renamed : Renaming

namespace WrittenTable

def text (t : WrittenTable) : String :=
  t.name.name ++ t.renamed.text

def read (t : WrittenTable) : TableSource :=
  ⟨t.name.name, t.renamed.name?⟩

end WrittenTable

/-- Words that may stand in front of `join`. -/
def joinWords : List String :=
  ["inner", "left", "right", "full", "cross", "outer", "natural"]

/-- The condition of a join: text that ends where a delimiter follows, with balanced parentheses
and, outside of them, neither commas nor words that start or end something. -/
structure Condition where
  text : String
  closed : ∀ c ∈ [' ', ',', ';'], parts (text.push c) = parts text ++ parts (String.singleton c)
  plain : enclosed stopsTable 0 (lexemes text) = true

example : Condition where
  text := "id = f(1, 2)"
  closed := List.forall_mem_cons.2 ⟨by cbv, List.forall_mem_cons.2
    ⟨by cbv, List.forall_mem_singleton.2 (by cbv)⟩⟩
  plain := by cbv

/-- A further table, behind a comma or joined. -/
inductive Joined where
  | comma (table : WrittenTable)
  | join (kind : List { w : String // w ∈ joinWords }) (table : WrittenTable)
    (condition : Option Condition)

namespace Joined

/-- The condition of a join as it is written. -/
def conditionText : Option Condition → String
  | none => ""
  | some condition => " on " ++ condition.text

/-- The further table as it is written. -/
def text : Joined → String
  | .comma table => ", " ++ table.text
  | .join kind table condition =>
    String.join (kind.map fun w => " " ++ w.1) ++ " join " ++ table.text ++ conditionText condition

def table : Joined → WrittenTable
  | .comma table | .join _ table _ => table

end Joined

/-- What stands behind the tables: nothing, or any text behind a clause word or a semicolon. -/
inductive Ending where
  | nothing
  | clause (word : { w : String // w ∈ endWords }) (rest : String)
    (ends : ∀ c ∈ rest.toList.head?, isWordChar c = false)
  | semicolon (rest : String)

namespace Ending

/-- The end of the statement as it is written. -/
def text : Ending → String
  | .nothing => ""
  | .clause word rest _ => " " ++ word.1 ++ rest
  | .semicolon rest => ";" ++ rest

end Ending

/-- A select as it is written: at least one column, and the tables if there are any. -/
structure WrittenSelect where
  first : WrittenColumn
  more : List WrittenColumn
  tables : Option (WrittenTable × List Joined)
  ending : Ending

namespace WrittenSelect

/-- The tables as they are written. -/
def tablesText : Option (WrittenTable × List Joined) → String
  | none => ""
  | some (table, joined) => " " ++ table.text ++ String.join (joined.map Joined.text)

/-- The statement as it is written. -/
def text (s : WrittenSelect) : String :=
  "select " ++ Text.joinWith ", " ((s.first :: s.more).map WrittenColumn.text) ++ " from"
    ++ tablesText s.tables ++ s.ending.text

/-- The columns and tables that were written. -/
def list (s : WrittenSelect) : SelectList where
  columns := (s.first :: s.more).map WrittenColumn.read
  tables :=
    match s.tables with
    | none => []
    | some (table, joined) => table.read :: joined.map fun j => j.table.read

end WrittenSelect

variable {c : Char} {s : String} {next : Option Char} {t : Lexeme} {ts us rest : List Lexeme}
  {stops : Lexeme → Bool} {depth : Int} {ps qs : List Part}

/-! ## Lexemes that a scan passes over -/

theorem enclosed_cons : enclosed stops depth (t :: ts) = true ↔
    (depth = 0 → stops t = false) ∧ 0 ≤ depthAfter depth t ∧
      enclosed stops (depthAfter depth t) ts = true := by
  simp [enclosed, and_assoc, imp_iff_not_or]

theorem enclosed_append (h : enclosed stops depth ts = true) (h' : enclosed stops 0 us = true) :
    enclosed stops depth (ts ++ us) = true := by
  induction ts generalizing depth with
  | nil =>
    obtain rfl : depth = 0 := by simpa [enclosed] using h
    exact h'
  | cons t ts ih =>
    obtain ⟨hstop, hdepth, hts⟩ := enclosed_cons.1 h
    exact enclosed_cons.2 ⟨hstop, hdepth, ih hts⟩

/-- Nothing stops a scan between parentheses. -/
theorem enclosed_close (h : enclosed (fun _ => false) depth ts = true) (hdepth : 0 ≤ depth) :
    enclosed stops (depth + 1) (ts ++ [.sign ')']) = true := by
  induction ts generalizing depth with
  | nil =>
    obtain rfl : depth = 0 := by simpa [enclosed] using h
    exact enclosed_cons.2 ⟨nofun, by decide, rfl⟩
  | cons t ts ih =>
    obtain ⟨-, hafter, hts⟩ := enclosed_cons.1 h
    have hshift : depthAfter (depth + 1) t = depthAfter depth t + 1 := by
      unfold depthAfter
      split <;> omega
    refine enclosed_cons.2 ⟨fun hzero => absurd hzero (by omega), ?_, ?_⟩
    · rw [hshift]
      omega
    · rw [hshift]
      exact ih hts hafter

theorem splitItems_enclosed (h : enclosed stopsItem depth ts = true) (item rest : List Lexeme) :
    splitItems depth item (ts ++ rest) = splitItems 0 (item ++ ts) rest := by
  induction ts generalizing depth item with
  | nil =>
    obtain rfl : depth = 0 := by simpa [enclosed] using h
    rw [List.append_nil, List.nil_append]
  | cons t ts ih =>
    obtain ⟨hstop, -, hts⟩ := enclosed_cons.1 h
    have hcomma : ¬(depth == 0 && t == .sign ',') = true := by
      simp only [Bool.and_eq_true, beq_iff_eq, not_and]
      rintro hzero rfl
      exact absurd (hstop hzero) (by decide)
    have hend : ¬(depth == 0 && (t == .sign ';' || t.isWord "from")) = true := by
      simp only [Bool.and_eq_true, beq_iff_eq, not_and]
      intro hzero hend
      have hstop := hstop hzero
      rw [stopsItem, Bool.or_assoc, hend, Bool.or_true] at hstop
      cases hstop
    rw [List.cons_append, splitItems, if_neg hcomma, if_neg hend, ih hts, List.append_assoc,
      List.singleton_append]

theorem tableSources_enclosed (h : enclosed stopsTable depth ts = true) (hdepth : 0 ≤ depth)
    (rest : List Lexeme) :
    tableSources 0 false depth (ts ++ rest) = tableSources 0 false 0 rest := by
  induction ts generalizing depth with
  | nil =>
    obtain rfl : depth = 0 := by simpa [enclosed] using h
    rfl
  | cons t ts ih =>
    obtain ⟨hstop, hafter, hts⟩ := enclosed_cons.1 h
    have ih := ih hts hafter
    rw [List.cons_append, tableSources.eq_def]
    dsimp only
    by_cases hparen : (t == .sign '(' || t == .sign ')') = true
    · rw [if_pos hparen, ih]
    rw [if_neg hparen]
    have hsame : depthAfter depth t = depth := by
      unfold depthAfter
      split <;> simp_all
    rw [hsame] at ih
    by_cases hpos : 0 < depth
    · rw [if_pos hpos, ih]
    have hstop := hstop (by omega)
    simp only [stopsTable, Bool.or_eq_false_iff] at hstop
    obtain ⟨⟨⟨hcomma, hsemicolon⟩, hjoin⟩, hend⟩ := hstop
    rw [if_neg hpos, if_neg (by rw [hsemicolon]; decide), if_neg (by rw [hcomma, hjoin]; decide),
      if_neg (by rw [hend]; decide)]
    cases t with
    | word name => exact ih
    | sign | literal => exact ih

/-! ## Identifiers -/

theorem isPlain_cons (h : isPlain s = true) :
    ∃ c cs, s.toList = c :: cs ∧ ∀ x ∈ s.toList, Lexer.isNameChar x = true := by
  rw [isPlain, Bool.and_eq_true, List.all_eq_true] at h
  cases hs : s.toList with
  | nil =>
    rw [hs] at h
    exact absurd h.1 (by decide)
  | cons c cs => exact ⟨c, cs, rfl, hs ▸ h.2⟩

theorem isPlain_ne (h : isPlain s = true) (hc : Lexer.isNameChar c = false) : c ∉ s.toList := by
  obtain ⟨-, -, -, hall⟩ := isPlain_cons h
  intro hmem
  rw [hall c hmem] at hc
  cases hc

theorem Ident.isWord_eq_false (i : Ident) {w : String} (hw : w ∈ reservedWords) :
    (Lexeme.word i.name).isWord w = false := by
  have hfree := List.any_eq_false.1 i.free w hw
  exact Bool.eq_false_iff.2 hfree

/-- A word with a point is no reserved word. -/
theorem isWord_of_point (h : '.' ∈ s.toList) {w : String} (hw : w ∈ reservedWords) :
    (Lexeme.word s).isWord w = false := by
  have hpoint : ∀ w ∈ reservedWords, '.' ∉ (Text.lowerAscii w).toList := by decide
  refine Bool.eq_false_iff.2 fun hsame => hpoint w hw ?_
  have hsame : Text.lowerAscii s = Text.lowerAscii w := eq_of_beq hsame
  rw [← hsame, Text.lowerAscii, String.toList_ofList]
  exact List.mem_map.2 ⟨'.', h, by decide⟩

/-! ## Columns -/

namespace Renaming

/-- The lexemes of a new name. -/
def lexemes : Renaming → List Lexeme
  | .none => []
  | .as i => [.word "as", .word i.name]
  | .bare i => [.word i.name]

end Renaming

namespace WrittenColumn

/-- The lexemes of an entry. -/
def lexemes : WrittenColumn → List Lexeme
  | .column none name renamed => .word name.name :: renamed.lexemes
  | .column (some q) name renamed => .word (q.name ++ "." ++ name.name) :: renamed.lexemes
  | .star => [.sign '*']
  | .starOf q => [.word (q.name ++ ".*")]
  | .call f args renamed =>
    .word f.name :: .sign '(' :: (Sql.lexemes args.text ++ .sign ')' :: renamed.lexemes)

end WrittenColumn

/-- A new name is split off behind a parenthesis and behind a single word. -/
theorem splitRenamed_eq {body : List Lexeme} {last : Lexeme}
    (hlast : last = .sign ')' ∨ body = [] ∧ ∃ w, last = .word w) (r : Renaming) :
    splitRenamed (body ++ last :: r.lexemes) = (body ++ [last], r.name?) := by
  have hpoint : ∀ i : Ident, '.' ∉ i.name.toList := fun i => isPlain_ne i.plain (by decide)
  cases r with
  | none =>
    obtain rfl | ⟨rfl, w, rfl⟩ := hlast
    · simp [splitRenamed, Renaming.lexemes, Renaming.name?]
    · rfl
  | as i => simp [splitRenamed, Renaming.lexemes, Renaming.name?, Lexeme.isWord, Text.sameLetters]
  | bare i =>
    obtain rfl | ⟨rfl, w, rfl⟩ := hlast
    · simp [splitRenamed, Renaming.lexemes, Renaming.name?, Lexeme.isWord, hpoint]
    · simp [splitRenamed, Renaming.lexemes, Renaming.name?, hpoint]

theorem beforeTail_star (q : String) : Text.beforeTail ".*" (q ++ ".*") = some q := by
  simp [Text.beforeTail, Text.afterHeadChars]

theorem beforeTail_of_isPlain (h : isPlain s = true) (q : String) :
    Text.beforeTail ".*" (q ++ s) = none := by
  have hne : s.toList.reverse ≠ [] := by
    obtain ⟨c, cs, hs, -⟩ := isPlain_cons h
    simp [hs]
  obtain ⟨c, cs, hs⟩ := List.exists_cons_of_ne_nil hne
  have hstar : '*' ≠ c := by
    rintro rfl
    exact isPlain_ne h (c := '*') (by decide) (List.mem_reverse.1 (hs ▸ List.mem_cons_self))
  simp [Text.beforeTail, hs, Text.afterHeadChars, hstar]

theorem splitLast_of_isPlain (h : isPlain s = true) : Text.splitLast '.' s = none := by
  rw [Text.splitLast, Url.splitFirstChars_eq_none]
  · rfl
  · simpa using isPlain_ne h (by decide)

theorem splitLast_point (h : isPlain s = true) (q : String) :
    Text.splitLast '.' (q ++ "." ++ s) = some (q, s) := by
  have hreverse : (q ++ "." ++ s).toList.reverse = s.toList.reverse ++ '.' :: q.toList.reverse := by
    simp
  have hpoint : '.' ∉ s.toList.reverse := by
    rw [List.mem_reverse]
    exact isPlain_ne h (by decide)
  rw [Text.splitLast, hreverse, Url.splitFirstChars_append hpoint]
  simp

/-- An entry of the list is read back. -/
theorem selectItem_lexemes (c : WrittenColumn) : selectItem c.lexemes = c.read := by
  cases c with
  | column qualifier name renamed =>
    cases qualifier with
    | none =>
      have hsplit := splitRenamed_eq (.inr ⟨rfl, name.name, rfl⟩) renamed
      have htail := beforeTail_of_isPlain name.plain ""
      rw [String.empty_append] at htail
      rw [List.nil_append] at hsplit
      rw [selectItem, WrittenColumn.lexemes, hsplit]
      simp only [List.nil_append, htail, splitLast_of_isPlain name.plain]
      rfl
    | some q =>
      have hsplit := splitRenamed_eq (.inr ⟨rfl, q.name ++ "." ++ name.name, rfl⟩) renamed
      rw [List.nil_append] at hsplit
      rw [selectItem, WrittenColumn.lexemes, hsplit]
      simp only [List.nil_append, beforeTail_of_isPlain name.plain, splitLast_point name.plain]
      rfl
  | star => rfl
  | starOf q =>
    have hsplit := splitRenamed_eq (.inr ⟨rfl, q.name ++ ".*", rfl⟩) .none
    rw [selectItem, WrittenColumn.lexemes]
    simp only [Renaming.lexemes, List.nil_append] at hsplit
    simp only [hsplit, beforeTail_star]
    rfl
  | call f args renamed =>
    have hsplit : splitRenamed ((.word f.name :: .sign '(' :: Sql.lexemes args.text) ++
        .sign ')' :: renamed.lexemes)
          = ((.word f.name :: .sign '(' :: Sql.lexemes args.text) ++ [.sign ')'], renamed.name?) :=
      splitRenamed_eq (.inl rfl) renamed
    rw [List.cons_append, List.cons_append] at hsplit
    rw [selectItem, WrittenColumn.lexemes, hsplit]
    cases renamed <;> rfl

theorem Lexeme.word_ne_sign (s : String) (c : Char) : (Lexeme.word s == .sign c) = false := rfl

theorem stopsItem_word (h : (Lexeme.word s).isWord "from" = false) : stopsItem (.word s) = false := by
  rw [stopsItem, h]
  rfl

theorem enclosed_word (h : stops (.word s) = false) (hts : enclosed stops 0 ts = true) :
    enclosed stops 0 (.word s :: ts) = true :=
  enclosed_cons.2 ⟨fun _ => h, Int.le_refl 0, hts⟩

/-- No lexeme of an entry ends it. -/
theorem enclosed_column (c : WrittenColumn) : enclosed stopsItem 0 c.lexemes = true := by
  have hident : ∀ i : Ident, stopsItem (.word i.name) = false :=
    fun i => stopsItem_word (i.isWord_eq_false (by decide))
  have hpoint : ∀ s : String, '.' ∈ s.toList → stopsItem (.word s) = false :=
    fun s h => stopsItem_word (isWord_of_point h (by decide))
  have hrenamed : ∀ r : Renaming, enclosed stopsItem 0 r.lexemes = true := by
    intro r
    cases r with
    | none => rfl
    | as i => exact enclosed_word rfl (enclosed_word (hident i) rfl)
    | bare i => exact enclosed_word (hident i) rfl
  cases c with
  | column qualifier name renamed =>
    cases qualifier with
    | none => exact enclosed_word (hident name) (hrenamed renamed)
    | some q => exact enclosed_word (hpoint _ (by simp)) (hrenamed renamed)
  | star => rfl
  | starOf q => exact enclosed_word (hpoint _ (by simp)) rfl
  | call f args renamed =>
    have hargs : enclosed stopsItem (0 + 1) (Sql.lexemes args.text ++ [.sign ')']) = true :=
      enclosed_close args.balanced (Int.le_refl 0)
    have hcall := enclosed_append hargs (hrenamed renamed)
    rw [List.append_assoc, List.singleton_append] at hcall
    exact enclosed_word (hident f) (enclosed_cons.2 ⟨fun _ => by decide, by decide, hcall⟩)

def columnLexemes (first : WrittenColumn) (more : List WrittenColumn) : List Lexeme :=
  first.lexemes ++ more.flatMap fun c => .sign ',' :: c.lexemes

theorem splitItems_columns (first : WrittenColumn) (more : List WrittenColumn)
    (rest : List Lexeme) :
    splitItems 0 [] (columnLexemes first more ++ .word "from" :: rest) =
      ((first :: more).map WrittenColumn.lexemes, .word "from" :: rest) := by
  induction more generalizing first with
  | nil =>
    rw [columnLexemes, List.append_assoc, splitItems_enclosed (enclosed_column first),
      List.nil_append, List.flatMap_nil, List.nil_append, splitItems]
    rfl
  | cons c more ih =>
    have hrest := ih c
    rw [columnLexemes] at hrest
    rw [columnLexemes, List.flatMap_cons, List.append_assoc,
      splitItems_enclosed (enclosed_column first), List.nil_append, List.cons_append,
      List.cons_append, splitItems, if_pos (by rfl), hrest]
    rfl

/-! ## Tables -/

namespace WrittenTable

def lexemes (t : WrittenTable) : List Lexeme :=
  .word t.name.name :: t.renamed.lexemes

end WrittenTable

namespace Joined

/-- The lexemes of the condition of a join. -/
def conditionLexemes : Option Condition → List Lexeme
  | none => []
  | some condition => .word "on" :: Sql.lexemes condition.text

/-- The lexemes of a further table. -/
def lexemes : Joined → List Lexeme
  | .comma table => .sign ',' :: table.lexemes
  | .join kind table condition =>
    kind.map (fun w => .word w.1) ++ .word "join" :: (table.lexemes ++ conditionLexemes condition)

end Joined

theorem Ident.tableName? (i : Ident) (count : Nat) :
    tableName?.plain i.name count = some (i.name, count) := by
  have hfree : clauseWords.any (Text.sameLetters i.name) = false := by
    rw [List.any_eq_false]
    exact fun w hw => by simpa using List.any_eq_false.1 i.free w (List.mem_append_right _ hw)
  rw [tableName?.plain, hfree]
  rfl

theorem tableSources_word (h : stopsTable (.word s) = false) (expected : Bool)
    (ts : List Lexeme) : tableSources 0 expected 0 (.word s :: ts) =
      if expected then
        match tableName? ts with
        | some (renamed, count) => ⟨s, some renamed⟩ :: tableSources count false 0 ts
        | none => ⟨s, none⟩ :: tableSources 0 false 0 ts
      else tableSources 0 expected 0 ts := by
  simp only [stopsTable, Lexeme.word_ne_sign, Bool.false_or, Bool.or_eq_false_iff] at h
  rw [tableSources.eq_def]
  cases expected with
  | false =>
    simp only [Lexeme.word_ne_sign, h.1, h.2, Bool.or_self, Int.lt_irrefl, Bool.false_eq_true,
      if_false]
  | true =>
    rcases hname : tableName? ts with _ | ⟨renamed, count⟩ <;>
      simp only [Lexeme.word_ne_sign, h.1, h.2, hname, Bool.or_self, Int.lt_irrefl,
        Bool.false_eq_true, if_false, if_true]

theorem tableSources_comma (expected : Bool) (ts : List Lexeme) :
    tableSources 0 expected 0 (.sign ',' :: ts) = tableSources 0 true 0 ts := rfl

theorem tableSources_join (expected : Bool) (ts : List Lexeme) :
    tableSources 0 expected 0 (.word "join" :: ts) = tableSources 0 true 0 ts := rfl

theorem Ident.stopsTable (i : Ident) : stopsTable (.word i.name) = false := by
  have hreserved : ∀ w ∈ endWords, w ∈ reservedWords := by decide
  have hend : endWords.any ((Lexeme.word i.name).isWord ·) = false :=
    List.any_eq_false.2 fun w hw => by rw [i.isWord_eq_false (hreserved w hw)]; decide
  rw [Sql.stopsTable, i.isWord_eq_false (by decide), hend]
  rfl

/-- Behind a table stands its new name, or something that is no name. -/
theorem tableSources_table (t : WrittenTable) {rest : List Lexeme} (hrest : tableName? rest = none) :
    tableSources 0 true 0 (t.lexemes ++ rest) = t.read :: tableSources 0 false 0 rest := by
  obtain ⟨name, renamed⟩ := t
  rw [WrittenTable.lexemes, List.cons_append, tableSources_word name.stopsTable, if_pos rfl]
  cases renamed with
  | none =>
    rw [Renaming.lexemes, List.nil_append, hrest]
    rfl
  | as i =>
    have has : tableName? (.word "as" :: .word i.name :: rest) = some (i.name, 2) := by
      have hsame : Text.sameLetters "as" "as" = true := beq_self_eq_true _
      rw [tableName?.eq_def]
      dsimp only
      rw [if_pos hsame]
      exact i.tableName? 2
    rw [Renaming.lexemes, List.cons_append, List.cons_append, List.nil_append, has]
    rfl
  | bare i =>
    have hbare : tableName? (.word i.name :: rest) = some (i.name, 1) := by
      have has : Text.sameLetters i.name "as" = false := i.isWord_eq_false (w := "as") (by decide)
      rw [tableName?.eq_def]
      dsimp only
      rw [if_neg (by rw [has]; decide)]
      exact i.tableName? 1
    rw [Renaming.lexemes, List.cons_append, List.nil_append, hbare]
    rfl

theorem tableName?_clauseWord {w : String} (hw : w ∈ clauseWords) (rest : List Lexeme) :
    tableName? (.word w :: rest) = none := by
  have hall : ∀ w ∈ clauseWords, Text.sameLetters w "as" = false ∧
      clauseWords.any (Text.sameLetters w) = true := by
    decide
  obtain ⟨has, hclause⟩ := hall w hw
  rw [tableName?.eq_def]
  dsimp only
  rw [has, tableName?.plain, hclause]
  rfl

theorem tableName?_joined (j : Joined) (rest : List Lexeme) :
    tableName? (j.lexemes ++ rest) = none := by
  cases j with
  | comma => rfl
  | join kind table condition =>
    cases kind with
    | nil => exact tableName?_clauseWord (by decide) _
    | cons w kind =>
      have hjoin : ∀ w ∈ joinWords, w ∈ clauseWords := by decide
      exact tableName?_clauseWord (hjoin w.1 w.2) _

theorem enclosed_kind (kind : List { w : String // w ∈ joinWords }) :
    enclosed stopsTable 0 (kind.map fun w => Lexeme.word w.1) = true := by
  have hjoin : ∀ w ∈ joinWords, stopsTable (.word w) = false := by decide
  induction kind with
  | nil => rfl
  | cons w kind ih => exact enclosed_word (hjoin w.1 w.2) ih

theorem enclosed_condition (condition : Option Condition) :
    enclosed stopsTable 0 (Joined.conditionLexemes condition) = true := by
  cases condition with
  | none => rfl
  | some condition => exact enclosed_word (by decide) condition.plain

theorem tableSources_joined (j : Joined) {rest : List Lexeme} (hrest : tableName? rest = none) :
    tableSources 0 false 0 (j.lexemes ++ rest) = j.table.read :: tableSources 0 false 0 rest := by
  cases j with
  | comma table =>
    rw [Joined.lexemes, List.cons_append, tableSources_comma, tableSources_table table hrest]
    rfl
  | join kind table condition =>
    have hnext : tableName? (Joined.conditionLexemes condition ++ rest) = none := by
      cases condition with
      | none => exact hrest
      | some condition => exact tableName?_clauseWord (by decide) _
    rw [Joined.lexemes, List.append_assoc, tableSources_enclosed (enclosed_kind kind) (Int.le_refl 0),
      List.cons_append, tableSources_join, List.append_assoc, tableSources_table table hnext,
      tableSources_enclosed (enclosed_condition condition) (Int.le_refl 0)]
    rfl

/-- The tables behind the first one, up to the end of the list. -/
theorem tableSources_more (joined : List Joined) {rest : List Lexeme}
    (hrest : tableName? rest = none) (hend : tableSources 0 false 0 rest = []) :
    tableName? (joined.flatMap Joined.lexemes ++ rest) = none ∧
      tableSources 0 false 0 (joined.flatMap Joined.lexemes ++ rest) =
        joined.map fun j => j.table.read := by
  induction joined with
  | nil => exact ⟨hrest, hend⟩
  | cons j joined ih =>
    obtain ⟨hname, htables⟩ := ih
    rw [List.flatMap_cons, List.append_assoc, tableSources_joined j hname, htables]
    exact ⟨tableName?_joined j _, rfl⟩

/-! ## From text to lexemes -/

/-- The characters are read as these lexemes, in front of `next`. -/
def Spelled (next : Option Char) (cs : List Char) (ts : List Lexeme) : Prop :=
  ∀ rest : List Char, rest.head? = next → lexemesFrom 0 (cs ++ rest) = ts ++ lexemesFrom 0 rest

/-- Neither of these characters continues a word or any text that is closed in front of them. -/
def Delimits (next : Option Char) : Prop :=
  ∀ c ∈ next, c ∈ [' ', ',', ';']

variable {cs : List Char}

theorem spelled_nil (next : Option Char) : Spelled next [] [] :=
  fun _ _ => rfl

/-- Parts in front of what is read already. -/
theorem Spelled.parts (h : Spelled next cs ts) (hps : Fitting (cs.head?.or next) ps) :
    Spelled next (charsOf ps ++ cs) (ps.filterMap Part.lexeme? ++ ts) := by
  intro rest hrest
  have hhead : Fitting (cs ++ rest).head? ps := by rwa [List.head?_append, hrest]
  rw [List.append_assoc, lexemesFrom_eq, hhead.partsFrom_append, List.filterMap_append,
    ← lexemesFrom_eq, h rest hrest, List.append_assoc]

theorem Spelled.part {p : Part} (h : Spelled next cs ts) (hp : p.Fits (cs.head?.or next)) :
    Spelled next (p.chars ++ cs) (p.lexeme?.toList ++ ts) := by
  have hfitting : Fitting (cs.head?.or next) [p] := ⟨hp, trivial⟩
  have hparts := h.parts hfitting
  rwa [charsOf_cons, List.append_assoc, List.filterMap_eq_flatMap_toList, List.flatMap_singleton]
    at hparts

theorem Spelled.blank (h : Spelled next cs ts) : Spelled next (' ' :: cs) ts :=
  h.part (p := .blank ' ') (.blank (by decide))

theorem Spelled.sign (h : Spelled next cs ts) (hc : c ∈ [',', ';', '(', ')', '*']) :
    Spelled next (c :: cs) (.sign c :: ts) := by
  obtain ⟨hblank, hquote, hstart, hdash⟩ : Text.isBlank c = false ∧ isQuote c = false ∧
      startsWord c = false ∧ c ≠ '-' := by
    simp only [List.mem_cons, List.not_mem_nil, or_false] at hc
    obtain rfl | rfl | rfl | rfl | rfl := hc <;> decide
  exact h.part (p := .sign c) (.sign ⟨hblank, hquote, hstart, fun h => absurd h hdash⟩)

/-- A word in front of what does not continue it. -/
theorem Spelled.ofWord {word : List Char} (h : Spelled next cs ts)
    (hword : Word word (cs.head?.or next)) :
    Spelled next (word ++ cs) (.word (String.ofList word) :: ts) :=
  h.part (p := .word word) (.word hword)

theorem isWordChar_of_isPlain (h : isPlain s = true) : ∀ c ∈ s.toList, isWordChar c = true := by
  obtain ⟨-, -, -, hall⟩ := isPlain_cons h
  intro c hc
  rw [isWordChar, hall c hc]
  rfl

theorem head?_of_isPlain (h : isPlain s = true) (cs : List Char) :
    (s.toList ++ cs).head?.any startsWord = true := by
  obtain ⟨c, cs, hs, hall⟩ := isPlain_cons h
  rw [hs, List.cons_append, List.head?_cons, Option.any_some, startsWord,
    hall c (hs ▸ List.mem_cons_self)]
  rfl

/-- A word that ends with a plain one. -/
theorem word_append {pre : List Char} (hs : isPlain s = true)
    (hstart : (pre ++ s.toList).head?.any startsWord = true)
    (hpre : ∀ c ∈ pre, isWordChar c = true) (hnext : ∀ c ∈ next, isWordChar c = false) :
    Word (pre ++ s.toList) next := by
  refine .plain hstart (List.forall_mem_append.2 ⟨hpre, isWordChar_of_isPlain hs⟩) hnext fun _ h => ?_
  obtain ⟨c, cs, hcons, -⟩ := isPlain_cons hs
  have hlast : (pre ++ s.toList).getLast? = s.toList.getLast? :=
    List.getLast?_append_of_ne_nil _ (by simp [hcons])
  rw [hlast] at h
  exact isPlain_ne hs (by decide) (List.mem_of_getLast? h)

theorem Spelled.plain (h : Spelled next cs ts) (hs : isPlain s = true)
    (hnext : ∀ c ∈ cs.head?.or next, isWordChar c = false) :
    Spelled next (s.toList ++ cs) (.word s :: ts) := by
  have hstart := head?_of_isPlain hs []
  rw [List.append_nil] at hstart
  have hfits : Word ([] ++ s.toList) (cs.head?.or next) := word_append hs hstart nofun hnext
  have hword := h.ofWord hfits
  rwa [List.nil_append, String.ofList_toList] at hword

theorem Delimits.not_isWordChar (h : Delimits next) : ∀ c ∈ next, isWordChar c = false := by
  intro c hc
  have hdelimiter := h c hc
  simp only [List.mem_cons, List.not_mem_nil, or_false] at hdelimiter
  obtain rfl | rfl | rfl := hdelimiter <;> decide

theorem delimits_cons {c : Char} (h : c ∈ [' ', ',', ';']) (cs : List Char) (next : Option Char) :
    Delimits ((c :: cs).head?.or next) := by
  intro d hd
  obtain rfl := Option.some.inj hd
  exact h

theorem Spelled.renamed (h : Spelled next cs ts) (r : Renaming)
    (hnext : Delimits (cs.head?.or next)) :
    Spelled next (r.text.toList ++ cs) (r.lexemes ++ ts) := by
  cases r with
  | none => exact h
  | bare i =>
    rw [Renaming.text, String.toList_append, List.append_assoc]
    exact (h.plain i.plain hnext.not_isWordChar).blank
  | as i =>
    have has : isPlain "as" = true := by decide
    have hname := (h.plain i.plain hnext.not_isWordChar).blank
    rw [Renaming.text, String.toList_append, List.append_assoc]
    exact (hname.plain has (delimits_cons (by decide) _ _).not_isWordChar).blank

/-- What follows the new name of a column delimits the column. -/
theorem Delimits.renamed (h : Delimits (cs.head?.or next)) (r : Renaming) :
    Delimits ((r.text.toList ++ cs).head?.or next) := by
  cases r with
  | none => exact h
  | bare i =>
    rw [Renaming.text, String.toList_append, List.append_assoc]
    exact delimits_cons (by decide) _ _
  | as i =>
    rw [Renaming.text, String.toList_append, List.append_assoc]
    exact delimits_cons (by decide) _ _

theorem Argument.fitting (a : Argument) : Fitting (some ')') (Sql.parts a.text) := by
  have hparts := fitting_parts (a.text ++ ")")
  rw [a.closed, fitting_append] at hparts
  exact hparts.1

/-- A text in front of what is read already. -/
theorem Spelled.text (h : Spelled next cs ts) (hs : Fitting (cs.head?.or next) (Sql.parts s)) :
    Spelled next (s.toList ++ cs) (lexemes s ++ ts) := by
  have hparts := h.parts hs
  rwa [charsOf_parts, ← lexemes_eq] at hparts

theorem Spelled.column (h : Spelled next cs ts) (c : WrittenColumn)
    (hnext : Delimits (cs.head?.or next)) :
    Spelled next (c.text.toList ++ cs) (c.lexemes ++ ts) := by
  cases c with
  | column qualifier name renamed =>
    have hrenamed := h.renamed renamed hnext
    have hword := (hnext.renamed renamed).not_isWordChar
    have hpoint : ∀ c ∈ ['.'], isWordChar c = true := List.forall_mem_singleton.2 rfl
    cases qualifier with
    | none =>
      rw [WrittenColumn.text, String.toList_append, List.append_assoc]
      exact hrenamed.plain name.plain hword
    | some q =>
      have hdotted : Word (q.name ++ "." ++ name.name).toList
          ((renamed.text.toList ++ cs).head?.or next) := by
        rw [String.toList_append]
        refine word_append name.plain ?_ ?_ hword
        · rw [String.toList_append, List.append_assoc]
          exact head?_of_isPlain q.plain _
        · rw [String.toList_append]
          exact List.forall_mem_append.2 ⟨isWordChar_of_isPlain q.plain, hpoint⟩
      have hspelled := hrenamed.ofWord hdotted
      rw [String.ofList_toList] at hspelled
      rwa [WrittenColumn.text, String.toList_append, List.append_assoc]
  | star => exact h.sign (by decide)
  | starOf q =>
    have hpoint : ∀ c ∈ ['.'], isWordChar c = true := List.forall_mem_singleton.2 rfl
    have hword : Word ((q.name.toList ++ ['.']) ++ ['*']) (cs.head?.or next) :=
      .starred (head?_of_isPlain q.plain _)
        (List.forall_mem_append.2 ⟨isWordChar_of_isPlain q.plain, hpoint⟩) (by simp)
    have hspelled := h.ofWord hword
    have hchars : (q.name.toList ++ ['.']) ++ ['*'] = (q.name ++ ".*").toList := by simp
    rw [hchars, String.ofList_toList] at hspelled
    exact hspelled
  | call f args renamed =>
    have hclose := (h.renamed renamed hnext).sign (c := ')') (by decide)
    have hopen := (hclose.text (s := args.text) args.fitting).sign (c := '(') (by decide)
    have hcall := hopen.plain f.plain fun c hc => by
      obtain rfl := Option.some.inj hc
      decide
    simpa [WrittenColumn.text, WrittenColumn.lexemes] using hcall

theorem Spelled.table (h : Spelled next cs ts) (t : WrittenTable)
    (hnext : Delimits (cs.head?.or next)) :
    Spelled next (t.text.toList ++ cs) (t.lexemes ++ ts) := by
  have hname := (h.renamed t.renamed hnext).plain t.name.plain
    (hnext.renamed t.renamed).not_isWordChar
  rwa [WrittenTable.text, String.toList_append, List.append_assoc]

theorem Condition.fitting (c : Condition) (hnext : Delimits next) :
    Fitting next (Sql.parts c.text) := by
  cases next with
  | none => exact fitting_parts c.text
  | some d =>
    have hparts := fitting_parts (c.text.push d)
    rw [c.closed d (hnext d rfl), fitting_append, headOf_none, charsOf_parts] at hparts
    simpa using hparts.1

theorem Spelled.condition (h : Spelled next cs ts) (condition : Option Condition)
    (hnext : Delimits (cs.head?.or next)) :
    Spelled next ((Joined.conditionText condition).toList ++ cs)
      (Joined.conditionLexemes condition ++ ts) := by
  cases condition with
  | none => exact h
  | some condition =>
    have hon : isPlain "on" = true := by decide
    have hcondition := (h.text (condition.fitting hnext)).blank
    rw [Joined.conditionText, String.toList_append, List.append_assoc]
    exact (hcondition.plain hon (delimits_cons (by decide) _ _).not_isWordChar).blank

theorem Delimits.condition (h : Delimits (cs.head?.or next)) (condition : Option Condition) :
    Delimits (((Joined.conditionText condition).toList ++ cs).head?.or next) := by
  cases condition with
  | none => exact h
  | some condition =>
    rw [Joined.conditionText, String.toList_append, List.append_assoc]
    exact delimits_cons (by decide) _ _

theorem Spelled.kind (h : Spelled next cs ts) (kind : List { w : String // w ∈ joinWords })
    (hnext : Delimits (cs.head?.or next)) :
    Spelled next ((String.join (kind.map fun w => " " ++ w.1)).toList ++ cs)
      (kind.map (fun w => .word w.1) ++ ts) ∧
    Delimits (((String.join (kind.map fun w => " " ++ w.1)).toList ++ cs).head?.or next) := by
  have hplain : ∀ w ∈ joinWords, isPlain w = true := by decide
  induction kind with
  | nil => exact ⟨h, hnext⟩
  | cons w kind ih =>
    obtain ⟨hspelled, hdelimits⟩ := ih
    rw [List.map_cons, String.join_cons, String.toList_append, String.toList_append,
      List.append_assoc, List.append_assoc]
    exact ⟨(hspelled.plain (hplain w.1 w.2) hdelimits.not_isWordChar).blank,
      delimits_cons (by decide) _ _⟩

theorem Spelled.joined (h : Spelled next cs ts) (j : Joined)
    (hnext : Delimits (cs.head?.or next)) :
    Spelled next (j.text.toList ++ cs) (j.lexemes ++ ts) ∧
      Delimits ((j.text.toList ++ cs).head?.or next) := by
  cases j with
  | comma table =>
    have htable := (h.table table hnext).blank.sign (c := ',') (by decide)
    rw [Joined.text, String.toList_append, List.append_assoc]
    exact ⟨htable, delimits_cons (by decide) _ _⟩
  | join kind table condition =>
    have hjoin : isPlain "join" = true := by decide
    have htable := ((h.condition condition hnext).table table (hnext.condition condition)).blank
    have hword := (htable.plain hjoin (delimits_cons (by decide) _ _).not_isWordChar).blank
    have hkind := hword.kind kind (delimits_cons (by decide) _ _)
    have hchars : (Joined.join kind table condition).text.toList ++ cs =
        (String.join (kind.map fun w => " " ++ w.1)).toList ++ ' ' :: ("join".toList ++
          ' ' :: (table.text.toList ++ ((Joined.conditionText condition).toList ++ cs))) := by
      simp [Joined.text]
    rw [hchars]
    simpa [Joined.lexemes] using hkind

theorem Spelled.more (h : Spelled next cs ts) (joined : List Joined)
    (hnext : Delimits (cs.head?.or next)) :
    Spelled next ((String.join (joined.map Joined.text)).toList ++ cs)
      (joined.flatMap Joined.lexemes ++ ts) ∧
    Delimits (((String.join (joined.map Joined.text)).toList ++ cs).head?.or next) := by
  induction joined with
  | nil => exact ⟨h, hnext⟩
  | cons j joined ih =>
    rw [List.map_cons, String.join_cons, String.toList_append, List.append_assoc,
      List.flatMap_cons, List.append_assoc]
    exact ih.1.joined j ih.2

theorem Spelled.columns (h : Spelled next cs ts) (first : WrittenColumn) (more : List WrittenColumn)
    (hnext : Delimits (cs.head?.or next)) :
    Spelled next ((Text.joinWith ", " ((first :: more).map WrittenColumn.text)).toList ++ cs)
      (columnLexemes first more ++ ts) := by
  induction more generalizing first with
  | nil =>
    rw [columnLexemes, List.flatMap_nil, List.append_nil]
    exact h.column first hnext
  | cons c more ih =>
    have hmore := ((ih c).blank.sign (c := ',') (by decide)).column first
      (delimits_cons (by decide) _ _)
    have hchars : (Text.joinWith ", " ((first :: c :: more).map WrittenColumn.text)).toList ++ cs =
        first.text.toList ++ ',' :: ' ' ::
          ((Text.joinWith ", " ((c :: more).map WrittenColumn.text)).toList ++ cs) := by
      simp [Text.joinWith]
    rw [hchars]
    simpa [columnLexemes] using hmore

/-! ## The whole statement -/

namespace Ending

/-- The lexemes behind the tables. -/
def lexemes : Ending → List Lexeme
  | .nothing => []
  | .clause word rest _ => .word word.1 :: Sql.lexemes rest
  | .semicolon rest => .sign ';' :: Sql.lexemes rest

theorem delimits (e : Ending) : Delimits e.text.toList.head? := by
  rw [← Option.or_none (o := e.text.toList.head?)]
  cases e with
  | nothing => exact nofun
  | clause word rest hrest =>
    rw [text, String.toList_append, String.toList_append, List.append_assoc]
    exact delimits_cons (by decide) _ none
  | semicolon rest =>
    rw [text, String.toList_append]
    exact delimits_cons (by decide) _ none

theorem lexemes_text (e : Ending) : Sql.lexemes e.text = e.lexemes := by
  cases e with
  | nothing => rfl
  | clause word rest hrest =>
    have hplain : ∀ w ∈ endWords, isPlain w = true := by decide
    have hnext : ∀ c ∈ ([] : List Char).head?.or rest.toList.head?, isWordChar c = false := hrest
    have hword := (spelled_nil rest.toList.head?).plain (hplain word.1 word.2) hnext
    have hlexemes := hword.blank rest.toList rfl
    simpa [text, lexemes, Sql.lexemes] using hlexemes
  | semicolon rest =>
    have hsign := (spelled_nil rest.toList.head?).sign (c := ';') (by decide)
    have hlexemes := hsign rest.toList rfl
    simpa [text, lexemes, Sql.lexemes] using hlexemes

/-- The list of tables ends here, whatever is expected. -/
theorem tableSources_lexemes (e : Ending) (expected : Bool) :
    tableSources 0 expected 0 e.lexemes = [] := by
  cases e with
  | nothing | semicolon => rfl
  | clause word rest hrest =>
    have hall : ∀ w ∈ endWords, (Lexeme.word w).isWord "join" = false ∧
        endWords.any ((Lexeme.word w).isWord ·) = true := by
      decide
    obtain ⟨hjoin, hend⟩ := hall word.1 word.2
    rw [lexemes, tableSources.eq_def]
    simp only [Lexeme.word_ne_sign, hjoin, hend, Bool.or_self, Int.lt_irrefl, Bool.false_eq_true,
      if_false, if_true]

theorem tableName?_lexemes (e : Ending) : tableName? e.lexemes = none := by
  cases e with
  | nothing | semicolon => rfl
  | clause word rest hrest =>
    have hclause : ∀ w ∈ endWords, w ∈ clauseWords := by decide
    exact tableName?_clauseWord (hclause word.1 word.2) _

end Ending

namespace WrittenSelect

/-- The lexemes of the tables. -/
def tablesLexemes : Option (WrittenTable × List Joined) → List Lexeme
  | none => []
  | some (table, joined) => table.lexemes ++ joined.flatMap Joined.lexemes

/-- The lexemes of the statement. -/
theorem lexemes_text (s : WrittenSelect) : lexemes s.text =
    .word "select" :: (columnLexemes s.first s.more ++ .word "from" ::
      (tablesLexemes s.tables ++ s.ending.lexemes)) := by
  have hnext : Delimits (([] : List Char).head?.or s.ending.text.toList.head?) := s.ending.delimits
  have htables : Spelled s.ending.text.toList.head? (tablesText s.tables).toList
        (tablesLexemes s.tables) ∧
      Delimits ((tablesText s.tables).toList.head?.or s.ending.text.toList.head?) := by
    cases s.tables with
    | none => exact ⟨spelled_nil _, hnext⟩
    | some tables =>
      obtain ⟨hmore, hdelimits⟩ := (spelled_nil _).more tables.2 hnext
      have htable := (hmore.table tables.1 hdelimits).blank
      rw [List.append_nil, List.append_nil] at htable
      rw [tablesText, String.toList_append, String.toList_append, List.append_assoc]
      exact ⟨htable, delimits_cons (by decide) _ _⟩
  have hselect : isPlain "select" = true := by decide
  have hfrom : isPlain "from" = true := by decide
  have hblank := (htables.1.plain hfrom htables.2.not_isWordChar).blank
  have hcolumns := (hblank.columns s.first s.more (delimits_cons (by decide) _ _)).blank
  have hall := hcolumns.plain hselect (delimits_cons (by decide) _ _).not_isWordChar
  have hlexemes := hall s.ending.text.toList rfl
  have htext : s.text.toList = ("select".toList ++
      ' ' :: ((Text.joinWith ", " ((s.first :: s.more).map WrittenColumn.text)).toList ++
        ' ' :: ("from".toList ++ (tablesText s.tables).toList))) ++ s.ending.text.toList := by
    simp [text]
  rw [lexemes, htext, hlexemes, ← lexemes, s.ending.lexemes_text]
  simp

end WrittenSelect

/-- The first lexeme of an entry is not `distinct` or `all`. -/
theorem WrittenColumn.lexemes_cons (c : WrittenColumn) :
    ∃ t ts, c.lexemes = t :: ts ∧ (t.isWord "distinct" || t.isWord "all") = false := by
  have hword : ∀ s : String, (∀ w ∈ reservedWords, (Lexeme.word s).isWord w = false) →
      ((Lexeme.word s).isWord "distinct" || (Lexeme.word s).isWord "all") = false := by
    intro s h
    rw [h "distinct" (by decide), h "all" (by decide)]
    rfl
  cases c with
  | column qualifier name renamed =>
    cases qualifier with
    | none => exact ⟨_, _, rfl, hword _ fun _ => name.isWord_eq_false⟩
    | some q => exact ⟨_, _, rfl, hword _ fun _ => isWord_of_point (by simp)⟩
  | star => exact ⟨_, _, rfl, rfl⟩
  | starOf q => exact ⟨_, _, rfl, hword _ fun _ => isWord_of_point (by simp)⟩
  | call f args renamed => exact ⟨_, _, rfl, hword _ fun _ => f.isWord_eq_false⟩

theorem tableSources_written (tables : Option (WrittenTable × List Joined)) (e : Ending) :
    tableSources 0 true 0 (WrittenSelect.tablesLexemes tables ++ e.lexemes) =
      match tables with
      | none => []
      | some (table, joined) => table.read :: joined.map fun j => j.table.read := by
  cases tables with
  | none => exact e.tableSources_lexemes true
  | some tables =>
    obtain ⟨hname, hmore⟩ :=
      tableSources_more tables.2 e.tableName?_lexemes (e.tableSources_lexemes false)
    rw [WrittenSelect.tablesLexemes, List.append_assoc, tableSources_table tables.1 hname, hmore]

/-- A select list is read back: exactly the columns and tables that were written, in their order. -/
theorem WrittenSelect.selectList?_text (s : WrittenSelect) : selectList? s.text = some s.list := by
  obtain ⟨t, ts, hfirst, hplain⟩ := s.first.lexemes_cons
  have hitems := splitItems_columns s.first s.more
    (WrittenSelect.tablesLexemes s.tables ++ s.ending.lexemes)
  have hcons : columnLexemes s.first s.more = t :: (ts ++ s.more.flatMap fun c =>
      .sign ',' :: c.lexemes) := by
    rw [columnLexemes, hfirst, List.cons_append]
  have hnonempty : ((s.first :: s.more).map WrittenColumn.lexemes).filter (!·.isEmpty) =
      (s.first :: s.more).map WrittenColumn.lexemes := by
    refine List.filter_eq_self.2 fun item hitem => ?_
    obtain ⟨c, -, rfl⟩ := List.mem_map.1 hitem
    obtain ⟨t, ts, hc, -⟩ := c.lexemes_cons
    rw [hc]
    rfl
  have hread : ((s.first :: s.more).map WrittenColumn.lexemes).map selectItem =
      (s.first :: s.more).map WrittenColumn.read := by
    rw [List.map_map]
    exact List.map_congr_left fun c _ => selectItem_lexemes c
  have hafter : ∀ ts, afterSelect? 0 (.word "select" :: ts) = some ts := fun _ => rfl
  rw [hcons, List.cons_append] at hitems
  rw [selectList?, s.lexemes_text, hcons, hafter]
  simp only [List.cons_append, Option.bind_eq_bind, Option.bind_some, hplain, Bool.false_eq_true,
    if_false, hitems, hnonempty, hread]
  exact congrArg (fun tables => some (SelectList.mk _ tables)) (tableSources_written _ _)

example : selectList? "select u.id as key, Count(*) from t u" =
    some ⟨[.column (some "u") "id" (some "key"), .expr "count" (some "count")], [⟨"t", some "u"⟩]⟩ := by
  decide +kernel

end Scaffold.Sql
