import Scaffold.Proofs.Indexed.Scan
import Scaffold.Proofs.Sql.Parameter
import Scaffold.Proofs.Token.Place
import Scaffold.Sql.Select

/-!
# SQL by index

The scans of SQL text, and the scans of its lexemes for columns and tables. They slice quoted texts
and comments out of the text, look one character behind where a star may belong to a word, and count
back from the end of an entry for the name it is given. None of them faults, and each gives what the
scan of the rest of the text gives.

* `rewriteParameters_eq`: the text with its placeholders, and the parameters in order.
* `selectColumns_eq`: the columns and tables of a select.
-/

namespace Scaffold.Indexed

open Scan
open Sql (Lexeme Piece SelectColumn TableSource SelectList)

variable {ε : Type}

section

variable (text : List Char)

/-- The index behind the closing quote, or the end of the text. -/
def skipQuotedFrom (quote : Char) : (fuel i : Nat) → Scan ε Nat
  | 0, _ => fault
  | fuel + 1, i =>
    if text.length ≤ i then return text.length
    else do
      let c ← item text i
      if c == quote then
        if text[i + 1]? == some quote then skipQuotedFrom quote fuel (i + 2) else return i + 1
      else skipQuotedFrom quote fuel (i + 1)

/-- The index behind the quoted text whose opening quote stands at `start`. -/
def skipQuoted (start : Nat) : Scan ε Nat := do
  let quote ← item text start
  skipQuotedFrom text quote (text.length + 1) (start + 1)

/-- The index of the line end, or the end of the text. -/
def lineEnd (i : Nat) : Scan ε Nat := do
  let tail ← slice text i text.length
  match tail.findIdx? (· == '\n') with
  | some p => return i + p
  | none => return text.length

/-- The text from `i` on with its placeholders, and its parameters; `count` parameters came
before. -/
def rewriteFrom (placeholder : String → Nat → String) :
    (fuel count i : Nat) → Scan ε (String × List String)
  | 0, _, _ => fault
  | fuel + 1, count, i =>
    if text.length ≤ i then return ("", [])
    else do
      let c ← item text i
      if Sql.isQuote c then
        let last ← skipQuoted text i
        let cs ← slice text i last
        let (out, names) ← rewriteFrom placeholder fuel count last
        return (String.ofList cs ++ out, names)
      else if c == '-' && text[i + 1]? == some '-' then
        let last ← lineEnd text i
        let cs ← slice text i last
        let (out, names) ← rewriteFrom placeholder fuel count last
        return (String.ofList cs ++ out, names)
      else if c == ':' && text[i + 1]? == some ':' then
        let (out, names) ← rewriteFrom placeholder fuel count (i + 2)
        return ("::" ++ out, names)
      else if c == ':' && text[i + 1]?.any Lexer.isNameStart then
        let (cs, last) ← cut text Lexer.isNameChar (i + 1)
        let name := String.ofList cs
        let (out, names) ← rewriteFrom placeholder fuel (count + 1) last
        return (placeholder name count ++ out, name :: names)
      else
        let (out, names) ← rewriteFrom placeholder fuel count (i + 1)
        return (c.toString ++ out, names)

/-- The index behind the word that starts at `i`; a star directly after a point belongs to it. -/
def wordEnd (i : Nat) : Scan ε Nat := do
  let last ← pass text Sql.isWordChar i
  if text[last]? == some '*' then
    let previous ← minus last 1
    let c ← item text previous
    return if c == '.' then last + 1 else last
  else return last

/-- The lexemes from `i` on. -/
def lexemesAt : (fuel i : Nat) → Scan ε (List Lexeme)
  | 0, _ => fault
  | fuel + 1, i =>
    if text.length ≤ i then return []
    else do
      let c ← item text i
      if Text.isBlank c then lexemesAt fuel (i + 1)
      else if c == '-' && text[i + 1]? == some '-' then
        let last ← pass text (· != '\n') i
        lexemesAt fuel last
      else if c == '\'' then
        let last ← skipQuoted text i
        let others ← lexemesAt fuel last
        return .literal :: others
      else if Sql.isQuote c then
        let last ← skipQuoted text i
        let cs ← slice text (i + 1) (max (last - 1) (i + 1))
        let others ← lexemesAt fuel last
        return .word (String.ofList cs) :: others
      else if Lexer.isNameChar c || c == ':' then
        let last ← wordEnd text i
        let cs ← slice text i last
        let others ← lexemesAt fuel last
        return .word (String.ofList cs) :: others
      else
        let others ← lexemesAt fuel (i + 1)
        return .sign c :: others

end

section

variable (toks : List Lexeme)

/-- The entries of a select list up to its end, and the index of the end. -/
def entriesFrom : (fuel : Nat) → (depth : Int) → (entry : List Lexeme) → (i : Nat) →
    Scan ε (List (List Lexeme) × Nat)
  | 0, _, _, _ => fault
  | fuel + 1, depth, entry, i =>
    if toks.length ≤ i then return ([entry], i)
    else do
      let t ← item toks i
      if depth == 0 && t == .sign ',' then
        let (entries, i) ← entriesFrom fuel depth [] (i + 1)
        return (entry :: entries, i)
      else if depth == 0 && (t == .sign ';' || t.isWord "from") then return ([entry], i)
      else entriesFrom fuel (Sql.depthAfter depth t) (entry ++ [t]) (i + 1)

/-- The new name given from `i` on, and the index behind it. -/
def renamedAt (i : Nat) : Option (String × Nat) :=
  let next := if toks[i]?.any (·.isWord "as") then i + 1 else i
  match toks[next]? with
  | some (.word name) => Sql.tableName?.plain name (next + 1)
  | _ => none

/-- The tables of a `from` clause. -/
def tablesFrom : (fuel : Nat) → (expected : Bool) → (depth : Int) → (i : Nat) →
    Scan ε (List TableSource)
  | 0, _, _, _ => fault
  | fuel + 1, expected, depth, i =>
    if toks.length ≤ i then return []
    else do
      let t ← item toks i
      if t == .sign '(' || t == .sign ')' then
        tablesFrom fuel expected (Sql.depthAfter depth t) (i + 1)
      else if 0 < depth then tablesFrom fuel expected depth (i + 1)
      else if t == .sign ';' then return []
      else if t == .sign ',' || t.isWord "join" then tablesFrom fuel true depth (i + 1)
      else if Sql.endWords.any (t.isWord ·) then return []
      else
        match t with
        | .word name =>
          if expected then
            match renamedAt toks (i + 1) with
            | some (renamed, next) =>
              let others ← tablesFrom fuel false depth next
              return ⟨name, some renamed⟩ :: others
            | none =>
              let others ← tablesFrom fuel false depth (i + 1)
              return ⟨name, none⟩ :: others
          else tablesFrom fuel expected depth (i + 1)
        | _ => tablesFrom fuel expected depth (i + 1)

/-- The tables that a select reads, if its list ends with `from` at `i`. -/
def tablesAt (i : Nat) : Scan ε (List TableSource) :=
  if toks.length ≤ i then return []
  else do
    let t ← item toks i
    if t.isWord "from" then
      let more ← slice toks (i + 1) toks.length
      tablesFrom more (more.length + 1) true 0 0
    else return []

end

/-- The index of the first `select` outside of parentheses; `i` lexemes came before. -/
def selectAt : (depth : Int) → (i : Nat) → List Lexeme → Option Nat
  | _, _, [] => none
  | depth, i, t :: ts =>
    if depth == 0 && t.isWord "select" then some i else selectAt (Sql.depthAfter depth t) (i + 1) ts

/-- Where the list of a select begins. -/
def listStart (toks : List Lexeme) (select : Nat) : Nat :=
  if toks[select + 1]?.any fun t => t.isWord "distinct" || t.isWord "all" then select + 2
  else select + 1

/-- The entry ends with the name it is given, after `as`. -/
def namedAs (entry : List Lexeme) : Scan ε (Option String) :=
  if 3 ≤ entry.length then do
    let second ← item entry (← minus entry.length 2)
    if second.isWord "as" then
      match ← item entry (← minus entry.length 1) with
      | .word name => return some name
      | _ => return none
    else return none
  else return none

/-- A last word behind this lexeme is a new name without `as`. -/
def isImplicit (second : Lexeme) (name : String) : Bool :=
  let implicit := match second with
    | .word _ => true
    | .sign c => c == ')'
    | .literal => false
  implicit && !name.toList.contains '.'

/-- The entry ends with the name it is given, without `as`. -/
def namedBare (entry : List Lexeme) : Scan ε (Option String) :=
  if 2 ≤ entry.length then do
    match ← item entry (← minus entry.length 1) with
    | .word name =>
      let second ← item entry (← minus entry.length 2)
      return if isImplicit second name then some name else none
    | _ => return none
  else return none

/-- An entry without the name it is given. -/
def splitAlias (entry : List Lexeme) : Scan ε (List Lexeme × Option String) := do
  match ← namedAs entry with
  | some name =>
    let body ← slice entry 0 (← minus entry.length 2)
    return (body, some name)
  | none =>
    match ← namedBare entry with
    | some name =>
      let body ← slice entry 0 (← minus entry.length 1)
      return (body, some name)
    | none => return (entry, none)

/-- What an entry without its new name selects. -/
def columnOf (body : List Lexeme) (renamed : Option String) : SelectColumn :=
  match body with
  | [.sign '*'] => .star none
  | [.word word] =>
    match Text.beforeTail ".*" word with
    | some qualifier => .star (some qualifier)
    | none =>
      match Text.splitLast '.' word with
      | some (qualifier, name) => .column (some qualifier) name renamed
      | none => .column none word renamed
  | _ =>
    let function :=
      match body with
      | .word f :: .sign '(' :: _ => some (Text.lowerAscii f)
      | _ => none
    let derived := function.getD (String.join (body.map Lexeme.text))
    .expr (renamed.getD derived) function

/-- What the entries of a select list select. -/
def columnsOf : List (List Lexeme) → Scan ε (List SelectColumn)
  | [] => return []
  | entry :: entries => do
    let (body, renamed) ← splitAlias entry
    let columns ← columnsOf entries
    return columnOf body renamed :: columns

/-- The columns and tables of the outermost select. -/
def selectColumns (sql : String) : Scan ε (Option SelectList) := do
  let toks ← lexemesAt sql.toList (sql.toList.length + 1) 0
  match selectAt 0 0 toks with
  | none => return none
  | some select =>
    let (entries, last) ← entriesFrom toks (toks.length + 1) 0 [] (listStart toks select)
    let columns ← columnsOf (entries.filter (!·.isEmpty))
    let tables ← tablesAt toks last
    return some ⟨columns, tables⟩

/-! ## Quoted text and comments -/

section

variable {text before rest : List Char} {c quote : Char}

theorem quotedTail_starts (quote : Char) (cs : List Char) : Sql.quotedTail quote cs <+: cs := by
  obtain ⟨inside, rest, rfl, hin, hnext⟩ | hin := Sql.exists_inside quote cs
  · rw [Sql.quotedTail_closed hin hnext]
    exact ⟨rest, by simp⟩
  · exact ⟨[], by rw [Sql.quotedTail_unclosed hin, List.append_nil]⟩

theorem skipQuotedFrom_at {fuel : Nat} (htext : before ++ rest = text)
    (hfuel : rest.length < fuel) :
    (skipQuotedFrom text quote fuel before.length : Scan ε Nat) =
      done (before ++ Sql.quotedTail quote rest).length := by
  induction fuel using Nat.strong_induction_on generalizing before rest with
  | _ fuel ih =>
    obtain ⟨fuel, rfl⟩ := Nat.exists_eq_succ_of_ne_zero (Nat.ne_zero_of_lt hfuel)
    rw [skipQuotedFrom]
    cases rest with
    | nil =>
      rw [if_pos ((length_le_at htext).2 rfl), ← htext]
      rfl
    | cons c cs =>
      have hindex : before.length + 1 = (before ++ [c]).length := by simp
      rw [if_neg (more_at htext), item_at htext, done_bind, getElem?_at htext,
        List.getElem?_cons_succ, ← List.head?_eq_getElem?]
      by_cases hc : c = quote
      · subst hc
        rw [if_pos (by simp)]
        by_cases hdoubled : cs.head? = some c
        · obtain ⟨cs, rfl⟩ := List.head?_eq_some_iff.1 hdoubled
          have htext' : before ++ [c, c] ++ cs = text := by simpa using htext
          have hrest := ih fuel (Nat.lt_succ_self _) htext' (by simp at hfuel; omega)
          rw [List.length_append] at hrest
          rw [if_pos (by simp), Sql.quotedTail_doubled]
          exact hrest.trans (by simp)
        · rw [if_neg (by simpa using hdoubled), Sql.quotedTail_quote hdoubled, hindex]
          rfl
      · have hrest := ih fuel (Nat.lt_succ_self _) (append_singleton_at htext)
          (Nat.lt_of_succ_lt_succ hfuel)
        rw [if_neg (by simpa using hc), Sql.quotedTail_char hc, hindex, hrest]
        simp

theorem skipQuoted_at (htext : before ++ quote :: rest = text) :
    (skipQuoted text before.length : Scan ε Nat) =
      done (before ++ quote :: Sql.quotedTail quote rest).length := by
  have htext' := append_singleton_at htext
  have hfrom : (skipQuotedFrom text quote (text.length + 1) (before ++ [quote]).length :
      Scan ε Nat) = _ := skipQuotedFrom_at htext' (length_rest_lt htext')
  rw [List.length_append, List.append_assoc] at hfrom
  rw [skipQuoted, item_at htext, done_bind]
  exact hfrom

theorem findIdx?_eq (cs : List Char) : cs.findIdx? (· == '\n') =
    if cs.takeWhile (· != '\n') = cs then none else some (cs.takeWhile (· != '\n')).length := by
  induction cs with
  | nil => rfl
  | cons c cs ih =>
    rw [List.findIdx?_cons]
    by_cases hc : c = '\n'
    · simp [hc]
    · rw [if_neg (by simpa using hc), ih, List.takeWhile_cons_of_pos (by simpa using hc)]
      split <;> simp_all

theorem lineEnd_at (htext : before ++ rest = text) :
    (lineEnd text before.length : Scan ε Nat) =
      done (before ++ rest.takeWhile (· != '\n')).length := by
  rw [lineEnd, slice_rest_at htext, done_bind, findIdx?_eq]
  by_cases hall : rest.takeWhile (· != '\n') = rest
  · rw [if_pos hall, hall, htext]
    rfl
  · rw [if_neg hall, List.length_append]
    rfl

/-! ## Parameters -/

/-- The pieces from here on, as the scan for parameters reports them. -/
def reported (placeholder : String → Nat → String) (count : Nat) (ps : List Piece) :
    String × List String :=
  (Sql.renderFrom placeholder count ps, ps.filterMap Piece.name?)

theorem reported_verbatim (placeholder : String → Nat → String) (count : Nat) (cs : List Char)
    (ps : List Piece) : reported placeholder count (Sql.verbatim cs ++ ps) =
      (String.ofList cs ++ (reported placeholder count ps).1,
        (reported placeholder count ps).2) := by
  rw [reported, reported, Sql.renderFrom_verbatim, List.filterMap_append, Sql.filterMap_verbatim,
    List.nil_append]

theorem rewriteFrom_at (placeholder : String → Nat → String) {fuel : Nat} (count : Nat)
    (htext : before ++ rest = text) (hfuel : rest.length < fuel) :
    (rewriteFrom text placeholder fuel count before.length : Scan ε (String × List String)) =
      done (reported placeholder count (Sql.piecesFrom 0 rest)) := by
  induction fuel generalizing count before rest with
  | zero => exact absurd hfuel (Nat.not_lt_zero _)
  | succ fuel ih =>
    rw [rewriteFrom]
    cases rest with
    | nil =>
      rw [if_pos ((length_le_at htext).2 rfl)]
      rfl
    | cons c cs =>
      -- What follows the characters of one step.
      have hafter {passed : List Char} (count : Nat) (hcs : passed <+: cs) :
          (rewriteFrom text placeholder fuel count (before ++ c :: passed).length :
            Scan ε (String × List String)) =
          done (reported placeholder count (Sql.piecesFrom passed.length cs)) := by
        obtain ⟨after, rfl⟩ := hcs
        rw [ih count (by simpa using htext) (by simp at hfuel; omega), Sql.piecesFrom_skip]
      -- A stretch that stays as it is.
      have hverbatim {passed : List Char} (hcs : passed <+: cs) :
          (do
            let cs ← slice text before.length (before ++ c :: passed).length
            let (out, names) ←
              rewriteFrom text placeholder fuel count (before ++ c :: passed).length
            return (String.ofList cs ++ out, names) : Scan ε (String × List String)) =
          done (reported placeholder count
            (Sql.verbatim (c :: passed) ++ Sql.piecesFrom passed.length cs)) := by
        rw [hafter count hcs, slice_prefix_at htext (List.cons_prefix_cons.2 ⟨rfl, hcs⟩),
          done_bind, done_bind, reported_verbatim]
        rfl
      have hnext : before.length + 1 = (before ++ [c]).length := by simp
      rw [if_neg (more_at htext), item_at htext, done_bind, Sql.piecesFrom, getElem?_at htext,
        List.getElem?_cons_succ, ← List.head?_eq_getElem?]
      by_cases hquote : Sql.isQuote c = true
      · rw [if_pos hquote, if_pos hquote, skipQuoted_at htext, done_bind]
        exact hverbatim (quotedTail_starts c cs)
      rw [if_neg hquote, if_neg hquote]
      by_cases hcomment : (c == '-' && cs.head? == some '-') = true
      · have hc : c ≠ '\n' := by rintro rfl; simp at hcomment
        rw [if_pos hcomment, if_pos hcomment, lineEnd_at htext, done_bind,
          List.takeWhile_cons_of_pos (by simpa using hc)]
        exact hverbatim (List.takeWhile_prefix _)
      rw [if_neg hcomment, if_neg hcomment]
      by_cases hcast : (c == ':' && cs.head? == some ':') = true
      · obtain ⟨rfl, hhead⟩ : c = ':' ∧ cs.head? = some ':' := by simpa using hcast
        obtain ⟨cs, rfl⟩ := List.head?_eq_some_iff.1 hhead
        have hpassed : before.length + 2 = (before ++ [':', ':']).length := by simp
        rw [if_pos hcast, if_pos hcast, hpassed,
          hafter count (show [':'] <+: ':' :: cs from ⟨cs, rfl⟩), done_bind, reported_verbatim]
        rfl
      rw [if_neg hcast, if_neg hcast]
      by_cases hparam : (c == ':' && cs.head?.any Lexer.isNameStart) = true
      · rw [if_pos hparam, if_pos hparam, hnext, cut_at _ (append_singleton_at htext), done_bind,
          List.append_assoc, List.singleton_append]
        dsimp only
        rw [hafter (count + 1) (List.takeWhile_prefix _)]
        rfl
      · rw [if_neg hparam, if_neg hparam, hnext, hafter count List.nil_prefix]
        rfl

/-- The text with its placeholders, and the parameters in order. -/
def rewriteParameters (placeholder : String → Nat → String) (sql : String) :
    Scan ε (String × List String) :=
  rewriteFrom sql.toList placeholder (sql.toList.length + 1) 0 0

theorem rewriteParameters_eq (placeholder : String → Nat → String) (sql : String) :
    (rewriteParameters placeholder sql : Scan ε (String × List String)) =
      done (Sql.withPlaceholders placeholder sql, Sql.bindOrder sql) := by
  have hrewrite := rewriteFrom_at (ε := ε) placeholder 0 (List.nil_append sql.toList)
    (length_rest_lt (List.nil_append _))
  rw [Sql.bindOrder_eq]
  exact hrewrite

end

/-! ## Lexemes -/

section

variable {text before cs : List Char} {c : Char}

theorem lexemesFrom_skip (passed rest : List Char) :
    Sql.lexemesFrom passed.length (passed ++ rest) = Sql.lexemesFrom 0 rest := by
  induction passed with
  | nil => rfl
  | cons c passed ih => exact ih

theorem wordHere_starts (cs : List Char) : Sql.wordHere cs <+: cs := by
  have hword : cs.takeWhile Sql.isWordChar <+: cs := List.takeWhile_prefix _
  rw [Sql.wordHere]
  split
  · rename_i hstar
    rw [Bool.and_eq_true, beq_iff_eq] at hstar
    obtain ⟨rest, hrest⟩ := List.head?_eq_some_iff.1 hstar.1
    refine ⟨rest, ?_⟩
    rw [List.append_assoc, List.singleton_append, ← hrest]
    exact List.prefix_iff_eq_append.1 hword
  · exact hword

/-- A word that starts here holds its first character. -/
theorem exists_wordHere (hc : Sql.isWordChar c = true) (cs : List Char) :
    ∃ word, Sql.wordHere (c :: cs) = c :: word ∧ word <+: cs := by
  have hprefix := wordHere_starts (c :: cs)
  cases hword : Sql.wordHere (c :: cs) with
  | nil => 
    rw [Sql.wordHere, List.takeWhile_cons_of_pos hc] at hword
    split at hword <;> simp at hword
  | cons d word =>
    rw [hword, List.cons_prefix_cons] at hprefix
    obtain ⟨rfl, hprefix⟩ := hprefix
    exact ⟨word, rfl, hprefix⟩

theorem wordEnd_at (htext : before ++ c :: cs = text) (hc : Sql.isWordChar c = true) :
    (wordEnd text before.length : Scan ε Nat) =
      done (before ++ Sql.wordHere (c :: cs)).length := by
  have htake : (c :: cs).takeWhile Sql.isWordChar ≠ [] := by
    rw [List.takeWhile_cons_of_pos hc]
    exact List.cons_ne_nil _ _
  obtain ⟨rest, hrest⟩ : (c :: cs).takeWhile Sql.isWordChar <+: c :: cs := List.takeWhile_prefix _
  rw [wordEnd, pass_at _ htext, done_bind, Sql.wordHere]
  obtain ⟨init, last, hword⟩ := (List.eq_nil_or_concat _).resolve_left htake
  rw [hword, List.concat_eq_append] at hrest ⊢
  have hdrop : (c :: cs).drop (init ++ [last]).length = rest := by
    rw [← hrest, List.drop_left]
  have hnext : text[(before ++ (init ++ [last])).length]? = rest.head? := by
    rw [List.head?_eq_getElem?, ← Nat.add_zero (before ++ _).length]
    exact getElem?_at (by rw [List.append_assoc, hrest, htext]) 0
  have hlast : (item text (before ++ init).length : Scan ε Char) = done last :=
    item_at (show (before ++ init) ++ last :: rest = text by rw [← htext, ← hrest]; simp)
  have hminus : (minus (before ++ (init ++ [last])).length 1 : Scan ε Nat) =
      done (before ++ init).length := by
    rw [minus_of_le (by simp; omega)]
    simp [← Nat.add_assoc]
  rw [hnext, hminus, done_bind, hlast, done_bind, hdrop]
  by_cases hstar : rest.head? = some '*'
  · by_cases hpoint : last = '.'
    · simp [hstar, hpoint, Nat.add_assoc]
    · simp [hstar, hpoint]
  · simp [hstar]

/-- What stands between the quotes of an identifier; one that is not closed loses its last
character. -/
theorem quotedWord_at {tail : List Char} (htext : before ++ c :: cs = text) (h : tail <+: cs) :
    (slice text (before.length + 1) (max ((before ++ c :: tail).length - 1) (before.length + 1)) :
      Scan ε (List Char)) = done tail.dropLast := by
  have hslice := slice_prefix_at (ε := ε) (append_singleton_at htext)
    ((List.dropLast_prefix tail).trans h)
  convert hslice using 2
  · simp
  · simp only [List.length_append, List.length_cons, List.length_nil, List.length_dropLast]
    omega

theorem lexemesAt_at {fuel : Nat} {rest : List Char} (htext : before ++ rest = text)
    (hfuel : rest.length < fuel) :
    (lexemesAt text fuel before.length : Scan ε (List Lexeme)) =
      done (Sql.lexemesFrom 0 rest) := by
  induction fuel generalizing before rest with
  | zero => exact absurd hfuel (Nat.not_lt_zero _)
  | succ fuel ih =>
    rw [lexemesAt]
    cases rest with
    | nil =>
      rw [if_pos ((length_le_at htext).2 rfl)]
      rfl
    | cons c cs =>
      -- What follows the characters of one step.
      have hafter {passed : List Char} (hcs : passed <+: cs) :
          (lexemesAt text fuel (before ++ c :: passed).length : Scan ε (List Lexeme)) =
          done (Sql.lexemesFrom passed.length cs) := by
        obtain ⟨after, rfl⟩ := hcs
        rw [ih (by simpa using htext) (by simp at hfuel; omega), lexemesFrom_skip]
      have hnext : before.length + 1 = (before ++ [c]).length := by simp
      rw [if_neg (more_at htext), item_at htext, done_bind, Sql.lexemesFrom, getElem?_at htext,
        List.getElem?_cons_succ, ← List.head?_eq_getElem?]
      by_cases hblank : Text.isBlank c = true
      · rw [if_pos hblank, if_pos hblank, hnext, hafter List.nil_prefix]
        rfl
      rw [if_neg hblank, if_neg hblank]
      by_cases hcomment : (c == '-' && cs.head? == some '-') = true
      · have hc : c ≠ '\n' := by rintro rfl; simp at hcomment
        rw [if_pos hcomment, if_pos hcomment, pass_at _ htext, done_bind,
          List.takeWhile_cons_of_pos (by simpa using hc), hafter (List.takeWhile_prefix _)]
      rw [if_neg hcomment, if_neg hcomment]
      by_cases hliteral : (c == '\'') = true
      · rw [if_pos hliteral, if_pos hliteral, skipQuoted_at htext, done_bind,
          hafter (quotedTail_starts c cs)]
        rfl
      rw [if_neg hliteral, if_neg hliteral]
      by_cases hquote : Sql.isQuote c = true
      · rw [if_pos hquote, if_pos hquote, skipQuoted_at htext, done_bind,
          hafter (quotedTail_starts c cs), quotedWord_at htext (quotedTail_starts c cs)]
        rfl
      rw [if_neg hquote, if_neg hquote]
      by_cases hword : (Lexer.isNameChar c || c == ':') = true
      · have hc : Sql.isWordChar c = true := by
          rw [Sql.isWordChar, Bool.or_right_comm, hword, Bool.true_or]
        obtain ⟨word, hhere, hcs⟩ := exists_wordHere hc cs
        rw [if_pos hword, if_pos hword, wordEnd_at htext hc, done_bind, hhere, hafter hcs,
          slice_prefix_at htext (List.cons_prefix_cons.2 ⟨rfl, hcs⟩)]
        rfl
      · rw [if_neg hword, if_neg hword, hnext, hafter List.nil_prefix]
        rfl

end

/-! ## Columns -/

section

variable {toks before rest : List Lexeme}

theorem selectAt_at (htoks : before ++ rest = toks) (depth : Int) :
    (selectAt depth before.length rest = none ∧ Sql.afterSelect? depth rest = none) ∨
      ∃ before' t after, before' ++ t :: after = toks ∧
        selectAt depth before.length rest = some before'.length ∧
        Sql.afterSelect? depth rest = some after := by
  induction rest generalizing before depth with
  | nil => exact .inl ⟨rfl, rfl⟩
  | cons t ts ih =>
    have hnext : before.length + 1 = (before ++ [t]).length := by simp
    rw [selectAt, Sql.afterSelect?]
    by_cases hselect : (depth == 0 && t.isWord "select") = true
    · rw [if_pos hselect, if_pos hselect]
      exact .inr ⟨before, t, ts, htoks, rfl, rfl⟩
    · rw [if_neg hselect, if_neg hselect, hnext]
      exact ih (append_singleton_at htoks) _

/-- The list that follows `select`, without `distinct` or `all`. -/
def listed : List Lexeme → List Lexeme
  | t :: rest => if t.isWord "distinct" || t.isWord "all" then rest else t :: rest
  | [] => []

theorem listStart_at {t : Lexeme} (htoks : before ++ t :: rest = toks) :
    ∃ before', before' ++ listed rest = toks ∧ listStart toks before.length = before'.length := by
  have htoks' := append_singleton_at htoks
  rw [listStart, getElem?_at htoks 1]
  cases rest with
  | nil => exact ⟨before ++ [t], htoks', by simp⟩
  | cons q rest =>
    by_cases hall : (q.isWord "distinct" || q.isWord "all") = true
    · exact ⟨before ++ [t] ++ [q], by simp [listed, hall, ← htoks], by simp_all⟩
    · exact ⟨before ++ [t], by simp [listed, hall, ← htoks], by simp_all⟩

/-- The entries, and the place where the list ends. -/
theorem entriesFrom_at {fuel : Nat} (htoks : before ++ rest = toks) (hfuel : rest.length < fuel)
    (depth : Int) (entry : List Lexeme) :
    ∃ before', before' ++ (Sql.splitItems depth entry rest).2 = toks ∧
      (entriesFrom toks fuel depth entry before.length : Scan ε _) =
        done ((Sql.splitItems depth entry rest).1, before'.length) := by
  induction fuel generalizing before rest depth entry with
  | zero => exact absurd hfuel (Nat.not_lt_zero _)
  | succ fuel ih =>
    rw [entriesFrom]
    cases rest with
    | nil =>
      rw [if_pos ((length_le_at htoks).2 rfl)]
      exact ⟨before, htoks, rfl⟩
    | cons t ts =>
      have hnext : before.length + 1 = (before ++ [t]).length := by simp
      have hrest := ih (append_singleton_at htoks) (Nat.lt_of_succ_lt_succ hfuel)
      rw [if_neg (more_at htoks), item_at htoks, done_bind, Sql.splitItems, hnext]
      by_cases hcomma : (depth == 0 && t == .sign ',') = true
      · obtain ⟨before', htoks', hentries⟩ := hrest depth []
        rw [if_pos hcomma, if_pos hcomma, hentries]
        exact ⟨before', htoks', rfl⟩
      rw [if_neg hcomma, if_neg hcomma]
      by_cases hend : (depth == 0 && (t == .sign ';' || t.isWord "from")) = true
      · rw [if_pos hend, if_pos hend]
        exact ⟨before, htoks, rfl⟩
      · rw [if_neg hend, if_neg hend]
        exact hrest _ _

end

section

variable (body : List Lexeme) (second last : Lexeme)

theorem minus_last :
    (minus (body ++ [second, last]).length 1 : Scan ε Nat) = done (body ++ [second]).length := by
  rw [minus_of_le (by simp)]
  simp

theorem minus_second :
    (minus (body ++ [second, last]).length 2 : Scan ε Nat) = done body.length := by
  rw [minus_of_le (by simp)]
  simp

theorem item_last :
    (item (body ++ [second, last]) (body ++ [second]).length : Scan ε Lexeme) = done last :=
  item_at (show (body ++ [second]) ++ [last] = body ++ [second, last] by simp)

theorem item_second :
    (item (body ++ [second, last]) body.length : Scan ε Lexeme) = done second :=
  item_at rfl

theorem slice_front {α : Type} (front back : List α) :
    (slice (front ++ back) 0 front.length : Scan ε (List α)) = done front := by
  have hslice := slice_prefix_at (ε := ε) (List.nil_append (front ++ back)) ⟨back, rfl⟩
  rwa [List.nil_append] at hslice

theorem namedAs_eq : (namedAs (body ++ [second, last]) : Scan ε (Option String)) =
    done (if !body.isEmpty && second.isWord "as" then
      match last with
      | .word name => some name
      | _ => none
    else none) := by
  rw [namedAs]
  cases body with
  | nil => rfl
  | cons t body =>
    rw [if_pos (by simp), minus_second, done_bind, item_second, done_bind]
    by_cases has : second.isWord "as" = true
    · rw [if_pos has, minus_last, done_bind, item_last, done_bind, if_pos (by simp [has])]
      cases last <;> rfl
    · rw [if_neg has, if_neg (by simp [has])]
      rfl

theorem namedBare_eq : (namedBare (body ++ [second, last]) : Scan ε (Option String)) =
    done (match last with
      | .word name => if isImplicit second name then some name else none
      | _ => none) := by
  rw [namedBare, if_pos (by simp), minus_last, done_bind, item_last, done_bind]
  cases last with
  | sign | literal => rfl
  | word name =>
    dsimp only
    rw [minus_second, done_bind, item_second, done_bind]
    rfl

end

theorem splitAlias_eq (entry : List Lexeme) :
    (splitAlias entry : Scan ε _) = done (Sql.splitRenamed entry) := by
  obtain ⟨reversed, rfl⟩ : ∃ reversed : List Lexeme, entry = reversed.reverse :=
    ⟨entry.reverse, entry.reverse_reverse.symm⟩
  match reversed with
  | [] => rfl
  | [.word _] | [.sign _] | [.literal] => rfl
  | last :: second :: rest =>
    have hentry : (last :: second :: rest).reverse = rest.reverse ++ [second, last] := by simp
    have hall : rest.reverse ++ [second] ++ [last] = rest.reverse ++ [second, last] := by simp
    rw [Sql.splitRenamed, List.reverse_reverse, hentry, splitAlias, namedAs_eq, done_bind,
      List.isEmpty_reverse]
    cases last with
    | sign | literal =>
      rw [ite_self, namedBare_eq]
      rfl
    | word name =>
      dsimp only
      by_cases has : (!rest.isEmpty && second.isWord "as") = true
      · rw [if_pos has, if_pos has]
        dsimp only
        rw [minus_second, done_bind, slice_front]
        rfl
      · rw [if_neg has, if_neg has, namedBare_eq, done_bind]
        dsimp only
        by_cases himplicit : isImplicit second name = true
        · rw [if_pos himplicit]
          dsimp only
          rw [minus_last, done_bind, ← hall, slice_front, ← List.reverse_cons]
          exact congrArg done (if_pos himplicit).symm
        · rw [if_neg himplicit]
          exact congrArg done (if_neg himplicit).symm

theorem columnsOf_eq (entries : List (List Lexeme)) :
    (columnsOf entries : Scan ε _) = done (entries.map Sql.selectItem) := by
  induction entries with
  | nil => rfl
  | cons entry entries ih =>
    rw [columnsOf, splitAlias_eq, done_bind, ih]
    rfl

/-! ## Tables -/

section

variable {toks before rest : List Lexeme}

theorem tableSources_skip (passed rest : List Lexeme) (expected : Bool) (depth : Int) :
    Sql.tableSources passed.length expected depth (passed ++ rest) =
      Sql.tableSources 0 expected depth rest := by
  induction passed with
  | nil => rfl
  | cons t passed ih => exact ih

theorem plain_shift (name : String) (n count : Nat) :
    Sql.tableName?.plain name (n + count) =
      (Sql.tableName?.plain name count).map fun (name, count) => (name, n + count) := by
  rw [Sql.tableName?.plain, Sql.tableName?.plain]
  split <;> rfl

theorem renamedAt_at (htoks : before ++ rest = toks) :
    renamedAt toks before.length =
      (Sql.tableName? rest).map fun (name, count) => (name, before.length + count) := by
  have hfirst : toks[before.length]? = rest[0]? := getElem?_at htoks 0
  have hsecond : toks[before.length + 1]? = rest[1]? := getElem?_at htoks 1
  rw [renamedAt, hfirst]
  cases rest with
  | nil => simp [hfirst, Sql.tableName?]
  | cons t rest =>
    cases t with
    | sign | literal => simp [hfirst, Sql.tableName?, Lexeme.isWord]
    | word a =>
      by_cases has : Text.sameLetters a "as" = true
      · cases rest with
        | nil => simp [hsecond, Sql.tableName?, Lexeme.isWord, has]
        | cons t rest => cases t <;>
          simp [hsecond, Sql.tableName?, Lexeme.isWord, has, Nat.add_assoc, plain_shift]
      · simp [hfirst, Sql.tableName?, Lexeme.isWord, has, plain_shift]

theorem length_of_plain {name renamed : String} {n count : Nat}
    (h : Sql.tableName?.plain name n = some (renamed, count)) : count = n := by
  rw [Sql.tableName?.plain] at h
  split at h
  · cases h
  · cases h
    rfl

theorem length_of_tableName? {renamed : String} {count : Nat}
    (h : Sql.tableName? rest = some (renamed, count)) :
    ∃ passed after, rest = passed ++ after ∧ passed.length = count := by
  cases rest with
  | nil => cases h
  | cons t rest =>
    cases t with
    | sign | literal => cases h
    | word a =>
      rw [Sql.tableName?.eq_def] at h
      dsimp only at h
      split at h
      · cases rest with
        | nil => cases h
        | cons t rest =>
          cases t with
          | sign | literal => cases h
          | word b => exact ⟨[.word a, .word b], rest, rfl, (length_of_plain h).symm⟩
      · exact ⟨[.word a], rest, rfl, (length_of_plain h).symm⟩

theorem tablesFrom_at {fuel : Nat} (htoks : before ++ rest = toks) (hfuel : rest.length < fuel)
    (expected : Bool) (depth : Int) :
    (tablesFrom toks fuel expected depth before.length : Scan ε _) =
      done (Sql.tableSources 0 expected depth rest) := by
  induction fuel generalizing before rest expected depth with
  | zero => exact absurd hfuel (Nat.not_lt_zero _)
  | succ fuel ih =>
    rw [tablesFrom]
    cases rest with
    | nil =>
      rw [if_pos ((length_le_at htoks).2 rfl)]
      rfl
    | cons t ts =>
      have hnext : before.length + 1 = (before ++ [t]).length := by simp
      have htoks' := append_singleton_at htoks
      have hts : ts.length < fuel := Nat.lt_of_succ_lt_succ hfuel
      have hrest := ih htoks' hts
      have hnames (name : String) :
          (match renamedAt toks (before.length + 1) with
            | some (renamed, next) => do
              let others ← tablesFrom toks fuel false depth next
              return ⟨name, some renamed⟩ :: others
            | none => do
              let others ← tablesFrom toks fuel false depth (before.length + 1)
              return ⟨name, none⟩ :: others : Scan ε (List TableSource)) =
          done (match Sql.tableName? ts with
            | some (renamed, count) =>
              ⟨name, some renamed⟩ :: Sql.tableSources count false depth ts
            | none => ⟨name, none⟩ :: Sql.tableSources 0 false depth ts) := by
        rw [hnext, renamedAt_at htoks']
        cases hname : Sql.tableName? ts with
        | none =>
          rw [Option.map_none, hrest]
          rfl
        | some found =>
          obtain ⟨renamed, count⟩ := found
          obtain ⟨passed, after, rfl, rfl⟩ := length_of_tableName? hname
          have hafter := ih (show before ++ [t] ++ passed ++ after = toks by simpa using htoks)
            (by simp at hts; omega) false depth
          rw [List.length_append] at hafter
          rw [Option.map_some]
          dsimp only
          rw [hafter, tableSources_skip]
          rfl
      rw [if_neg (more_at htoks), item_at htoks, done_bind, Sql.tableSources.eq_def]
      dsimp only
      by_cases hparen : (t == .sign '(' || t == .sign ')') = true
      · rw [if_pos hparen, if_pos hparen, hnext, hrest]
      rw [if_neg hparen, if_neg hparen]
      by_cases hdepth : 0 < depth
      · rw [if_pos hdepth, if_pos hdepth, hnext, hrest]
      rw [if_neg hdepth, if_neg hdepth]
      by_cases hend : (t == .sign ';') = true
      · rw [if_pos hend, if_pos hend]
        rfl
      rw [if_neg hend, if_neg hend]
      by_cases hmore : (t == .sign ',' || t.isWord "join") = true
      · rw [if_pos hmore, if_pos hmore, hnext, hrest]
      rw [if_neg hmore, if_neg hmore]
      by_cases hstop : Sql.endWords.any (t.isWord ·) = true
      · rw [if_pos hstop, if_pos hstop]
        rfl
      rw [if_neg hstop, if_neg hstop]
      cases t with
      | sign | literal =>
        dsimp only
        rw [hnext, hrest]
      | word name =>
        dsimp only
        cases expected with
        | false => rw [if_neg Bool.false_ne_true, if_neg Bool.false_ne_true, hnext, hrest]
        | true =>
          rw [if_pos rfl, if_pos rfl]
          exact hnames name

/-- The tables behind `from`. -/
def tablesOf : List Lexeme → List TableSource
  | t :: more => if t.isWord "from" then Sql.tableSources 0 true 0 more else []
  | [] => []

theorem tablesAt_at (htoks : before ++ rest = toks) :
    (tablesAt toks before.length : Scan ε _) = done (tablesOf rest) := by
  rw [tablesAt]
  cases rest with
  | nil =>
    rw [if_pos ((length_le_at htoks).2 rfl)]
    rfl
  | cons t more =>
    have hmore := slice_rest_at (ε := ε) (append_singleton_at htoks)
    rw [List.length_append, List.length_singleton] at hmore
    rw [if_neg (more_at htoks), item_at htoks, done_bind, tablesOf]
    split
    · rw [hmore, done_bind]
      exact tablesFrom_at (List.nil_append more) (Nat.lt_succ_self _) true 0
    · rfl

end

theorem selectColumns_eq (sql : String) :
    (selectColumns sql : Scan ε _) = done (Sql.selectList? sql) := by
  have hlexemes := lexemesAt_at (ε := ε) (List.nil_append sql.toList)
    (length_rest_lt (List.nil_append _))
  rw [selectColumns, Sql.selectList?, Sql.lexemes]
  dsimp only
  rw [show (0 : Nat) = ([] : List Char).length from rfl, hlexemes, done_bind]
  generalize Sql.lexemesFrom 0 sql.toList = toks
  obtain ⟨hselect, hafter⟩ | ⟨before, t, after, htoks, hselect, hafter⟩ :=
    selectAt_at (List.nil_append toks) 0
  · rw [List.length_nil] at hselect
    rw [List.length_nil, hselect, hafter]
    rfl
  · rw [List.length_nil] at hselect
    rw [List.length_nil, hselect, hafter]
    obtain ⟨before', htoks', hstart⟩ := listStart_at htoks
    obtain ⟨before'', htoks'', hentries⟩ :=
      entriesFrom_at (ε := ε) htoks' (length_rest_lt htoks') 0 []
    dsimp only
    rw [hstart, hentries, done_bind]
    dsimp only
    rw [columnsOf_eq, done_bind, tablesAt_at htoks'']
    rfl

end Scaffold.Indexed
