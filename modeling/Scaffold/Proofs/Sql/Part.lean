import Scaffold.Proofs.Sql.Parameter
import Scaffold.Sql.Select

/-!
# Parts of SQL text

SQL text is blanks, comments, quoted texts, words and signs, one behind the other. A text that is
put together from parts is cut into the same parts again, if each of them ends where the next one
starts (`Part.Fits`). What the scanners find can then be read off the parts.

* `parts_iff`: the parts of a text are those that fit together and give the text.
* `lexemes_eq`, `bindOrder_parts`: the lexemes of a text and its parameters, part by part.
-/

namespace Scaffold.Sql

/-! ## Cutting a text -/

/-- A part of SQL text. -/
inductive Part where
  | blank (c : Char)
  | comment (text : List Char)
  | quoted (quote : Char) (tail : List Char)
  | word (text : List Char)
  | sign (c : Char)
  deriving DecidableEq

namespace Part

/-- The text of a part. -/
def chars : Part → List Char
  | .blank c | .sign c => [c]
  | .comment text | .word text => text
  | .quoted quote tail => quote :: tail

/-- What a part counts for in a statement. -/
def lexeme? : Part → Option Lexeme
  | .blank _ | .comment _ => none
  | .quoted quote tail =>
    some (if quote == '\'' then .literal else .word (String.ofList tail.dropLast))
  | .word text => some (.word (String.ofList text))
  | .sign c => some (.sign c)

/-- The parameters inside a part. -/
def binds : Part → List String
  | .word text => bindOrder (String.ofList text)
  | _ => []

/-- The text of a quoted part, its quotes included. -/
def literal? : Part → Option String
  | .quoted quote tail => some (String.ofList (quote :: tail))
  | _ => none

/-- The part is a comment. -/
def isComment : Part → Bool
  | .comment _ => true
  | _ => false

/-- The part is a blank. -/
def isBlank : Part → Bool
  | .blank _ => true
  | _ => false

end Part

/-- The parts of SQL text. `skip` counts the characters that belong to a part already given. -/
def partsFrom : (skip : Nat) → List Char → List Part
  | _, [] => []
  | skip + 1, _ :: cs => partsFrom skip cs
  | 0, c :: cs =>
    if Text.isBlank c then .blank c :: partsFrom 0 cs
    else if c == '-' && cs.head? == some '-' then
      let comment := cs.takeWhile (· != '\n')
      .comment (c :: comment) :: partsFrom comment.length cs
    else if isQuote c then
      .quoted c (quotedTail c cs) :: partsFrom (quotedTail c cs).length cs
    else if Lexer.isNameChar c || c == ':' then
      let word := wordHere (c :: cs)
      .word word :: partsFrom (word.length - 1) cs
    else .sign c :: partsFrom 0 cs

def parts (sql : String) : List Part :=
  partsFrom 0 sql.toList

def charsOf (ps : List Part) : List Char :=
  ps.flatMap Part.chars

variable {c : Char} {cs rest word : List Char} {next : Option Char} {p : Part} {ps qs : List Part}

theorem lexemesFrom_eq (skip : Nat) (cs : List Char) :
    lexemesFrom skip cs = (partsFrom skip cs).filterMap Part.lexeme? := by
  induction cs generalizing skip with
  | nil => cases skip <;> rfl
  | cons c cs ih =>
    cases skip with
    | succ skip => exact ih skip
    | zero =>
      rw [lexemesFrom, partsFrom]
      by_cases hblank : Text.isBlank c = true
      · rw [if_pos hblank, if_pos hblank, ih]
        rfl
      rw [if_neg hblank, if_neg hblank]
      by_cases hcomment : (c == '-' && cs.head? == some '-') = true
      · rw [if_pos hcomment, if_pos hcomment, ih]
        rfl
      rw [if_neg hcomment, if_neg hcomment]
      by_cases hliteral : (c == '\'') = true
      · rw [if_pos hliteral, if_pos (by rw [isQuote, hliteral]; rfl), ih, List.filterMap_cons]
        simp only [Part.lexeme?, if_pos hliteral]
      rw [if_neg hliteral]
      by_cases hquote : isQuote c = true
      · rw [if_pos hquote, if_pos hquote, List.filterMap_cons]
        simp only [Part.lexeme?, if_neg hliteral, ih]
      rw [if_neg hquote, if_neg hquote]
      by_cases hword : (Lexer.isNameChar c || c == ':') = true
      · rw [if_pos hword, if_pos hword, List.filterMap_cons]
        simp only [Part.lexeme?, ih]
      · rw [if_neg hword, if_neg hword, List.filterMap_cons]
        simp only [Part.lexeme?, ih]

/-- The lexemes of a text, part by part. -/
theorem lexemes_eq (sql : String) : lexemes sql = (parts sql).filterMap Part.lexeme? :=
  lexemesFrom_eq 0 sql.toList

/-! ## Parts that fit together -/

def startsWord (c : Char) : Bool :=
  Lexer.isNameChar c || c == ':'

/-- A word that ends in front of `next`. A star directly behind a point ends a word. -/
inductive Word : List Char → Option Char → Prop where
  | plain {word : List Char} {next : Option Char} (hstart : word.head?.any startsWord = true)
    (hall : ∀ c ∈ word, isWordChar c = true) (hnext : ∀ c ∈ next, isWordChar c = false)
    (hstar : next = some '*' → word.getLast? ≠ some '.') : Word word next
  | starred {word : List Char} {next : Option Char} (hstart : word.head?.any startsWord = true)
    (hall : ∀ c ∈ word, isWordChar c = true) (hpoint : word.getLast? = some '.') :
    Word (word ++ ['*']) next

/-- A character that is a part of its own in front of `next`. -/
structure Sign (c : Char) (next : Option Char) : Prop where
  blank : Text.isBlank c = false
  quote : isQuote c = false
  word : startsWord c = false
  comment : c = '-' → next ≠ some '-'

/-- The part ends in front of `next`. -/
inductive Part.Fits : Part → Option Char → Prop where
  | blank {c : Char} {next : Option Char} (hc : Text.isBlank c = true) : Fits (.blank c) next
  | comment {text : List Char} {next : Option Char} (htext : Run text .comment next) :
    Fits (.comment text) next
  | quoted {quote : Char} {tail : List Char} {next : Option Char}
    (htext : Run (quote :: tail) (.quoted quote) next) : Fits (.quoted quote tail) next
  | word {text : List Char} {next : Option Char} (htext : Word text next) : Fits (.word text) next
  | sign {c : Char} {next : Option Char} (hc : Sign c next) : Fits (.sign c) next

/-- What stands in front of `next`, after parts are put there. -/
def headOf (next : Option Char) (ps : List Part) : Option Char :=
  (charsOf ps).head?.or next

/-- Each of the parts ends where the one behind it starts, the last one in front of `next`. -/
def Fitting (next : Option Char) : List Part → Prop
  | [] => True
  | p :: ps => p.Fits (headOf next ps) ∧ Fitting next ps

theorem isBlank_of_startsWord (h : startsWord c = true) : Text.isBlank c = false := by
  refine Bool.eq_false_iff.2 fun hblank => ?_
  simp only [startsWord, Lexer.isNameChar, Text.not_isAlnum_of_isBlank hblank, Bool.false_or,
    Bool.or_eq_true, beq_iff_eq] at h
  obtain rfl | rfl := h <;> exact absurd hblank (by decide)

theorem not_isQuote_of_startsWord (h : startsWord c = true) : isQuote c = false := by
  refine Bool.eq_false_iff.2 fun hquote => ?_
  obtain rfl | rfl | rfl := isQuote_iff.1 hquote <;> exact absurd h (by decide)

theorem isBlank_of_isQuote (h : isQuote c = true) : Text.isBlank c = false := by
  obtain rfl | rfl | rfl := isQuote_iff.1 h <;> decide

theorem charsOf_append (ps qs : List Part) : charsOf (ps ++ qs) = charsOf ps ++ charsOf qs :=
  List.flatMap_append

theorem charsOf_cons (p : Part) (ps : List Part) : charsOf (p :: ps) = p.chars ++ charsOf ps :=
  List.flatMap_cons

theorem headOf_append (next : Option Char) (ps qs : List Part) :
    headOf next (ps ++ qs) = headOf (headOf next qs) ps := by
  rw [headOf, headOf, headOf, charsOf_append, List.head?_append, Option.or_assoc]

theorem headOf_cons (next : Option Char) (p : Part) (ps : List Part) :
    headOf next (p :: ps) = p.chars.head?.or (headOf next ps) := by
  rw [headOf, headOf, charsOf_cons, List.head?_append, Option.or_assoc]

theorem headOf_none (ps : List Part) : headOf none ps = (charsOf ps).head? :=
  Option.or_none

theorem fitting_append (next : Option Char) (ps qs : List Part) :
    Fitting next (ps ++ qs) ↔ Fitting (headOf next qs) ps ∧ Fitting next qs := by
  induction ps with
  | nil => exact ⟨fun h => ⟨trivial, h⟩, And.right⟩
  | cons p ps ih =>
    rw [List.cons_append, Fitting, Fitting, ih, headOf_append, and_assoc]

/-! ## The parts of a text are the only ones that fit -/

theorem partsFrom_skip (passed rest : List Char) :
    partsFrom passed.length (passed ++ rest) = partsFrom 0 rest := by
  induction passed with
  | nil => rfl
  | cons c passed ih => exact ih

theorem wordHere_append (h : Word word rest.head?) : wordHere (word ++ rest) = word := by
  cases h with
  | plain hstart hall hnext hstar =>
    rw [wordHere, (Lexer.span_append hall hnext).1]
    simp only [List.drop_left, Bool.and_eq_true, beq_iff_eq]
    exact if_neg fun ⟨hhead, hlast⟩ => hstar hhead hlast
  | @starred word _ hstart hall hpoint =>
    have hrun : (word ++ ('*' :: rest)).takeWhile isWordChar = word :=
      (Lexer.span_append hall fun c hc => by
        obtain rfl := Option.some.inj hc
        decide).1
    rw [List.append_assoc, List.singleton_append, wordHere, hrun]
    simp only [List.drop_left, List.head?_cons, hpoint, beq_self_eq_true, Bool.and_self, if_true]

theorem Word.exists_cons (h : Word word next) :
    ∃ c more, word = c :: more ∧ startsWord c = true := by
  have hany : word.head?.any startsWord = true := by
    cases h with
    | plain hstart => exact hstart
    | starred hstart => rwa [List.head?_append_of_ne_nil _ (by rintro rfl; cases hstart)]
  cases word with
  | nil => cases hany
  | cons c more => exact ⟨c, more, rfl, hany⟩

theorem partsFrom_word (h : startsWord c = true) (cs : List Char) :
    partsFrom 0 (c :: cs) =
      .word (wordHere (c :: cs)) :: partsFrom ((wordHere (c :: cs)).length - 1) cs := by
  have hdash : ¬(c == '-' && cs.head? == some '-') = true := by
    simp only [Bool.and_eq_true, beq_iff_eq, not_and]
    rintro rfl
    exact absurd h (by decide)
  rw [partsFrom, if_neg (by rw [isBlank_of_startsWord h]; decide), if_neg hdash,
    if_neg (by rw [not_isQuote_of_startsWord h]; decide)]
  exact if_pos h

theorem partsFrom_quote (h : isQuote c = true) (cs : List Char) :
    partsFrom 0 (c :: cs) =
      .quoted c (quotedTail c cs) :: partsFrom (quotedTail c cs).length cs := by
  have hdash : ¬(c == '-' && cs.head? == some '-') = true := by
    simp only [Bool.and_eq_true, beq_iff_eq, not_and]
    rintro rfl
    exact absurd h (by decide)
  rw [partsFrom, if_neg (by rw [isBlank_of_isQuote h]; decide), if_neg hdash, if_pos h]

theorem partsFrom_comment (cs : List Char) :
    partsFrom 0 ('-' :: '-' :: cs) = .comment ('-' :: ('-' :: cs).takeWhile (· != '\n')) ::
      partsFrom (('-' :: cs).takeWhile (· != '\n')).length ('-' :: cs) := by
  rw [partsFrom, if_neg (by decide), if_pos (by simp)]

theorem takeWhile_comment {text : List Char} (htext : '\n' ∉ text)
    (hnext : ∀ c ∈ rest.head?, c = '\n') : (text ++ rest).takeWhile (· != '\n') = text := by
  refine (Lexer.span_append (fun c hc => bne_iff_ne.2 ?_) fun c hc => ?_).1
  · exact fun heq => htext (heq ▸ hc)
  · rw [hnext c hc]
    rfl

/-- A quoted text is closed, or it runs to the end. -/
theorem Run.quoted_cases {quote : Char} {tail : List Char}
    (h : Run (quote :: tail) (.quoted quote) next) :
    isQuote quote = true ∧ ∃ inside, Inside quote inside ∧
      (tail = inside ++ [quote] ∧ next ≠ some quote ∨ tail = inside ∧ next = none) := by
  generalize htail : quote :: tail = text at h
  generalize hregion : Region.quoted quote = region at h
  cases h with
  | @literal _ inside _ hquote hin hnext =>
    cases hregion
    exact ⟨hquote, inside, hin, .inl ⟨(List.cons.inj htail).2, hnext⟩⟩
  | @unclosed _ inside hquote hin =>
    cases hregion
    exact ⟨hquote, inside, hin, .inr ⟨(List.cons.inj htail).2, rfl⟩⟩
  | comment => cases hregion
  | cast => cases hregion

/-- The rest of a quoted text, in front of what follows it. -/
theorem Run.quotedTail_eq {quote : Char} {tail : List Char}
    (h : Run (quote :: tail) (.quoted quote) rest.head?) :
    quotedTail quote (tail ++ rest) = tail := by
  obtain ⟨-, inside, hin, ⟨rfl, hnext⟩ | ⟨rfl, hnext⟩⟩ := h.quoted_cases
  · rw [List.append_assoc, List.singleton_append, quotedTail_closed hin hnext]
  · obtain rfl := List.head?_eq_none_iff.1 hnext
    rw [List.append_nil, quotedTail_unclosed hin]

/-- The scanner takes a part that ends in front of the rest. -/
theorem Part.Fits.partsFrom (h : p.Fits rest.head?) :
    partsFrom 0 (p.chars ++ rest) = p :: partsFrom 0 rest := by
  cases h with
  | blank hc => exact if_pos hc
  | @comment text _ htext =>
    cases htext with
    | @comment text _ htext hend =>
      have hline : '\n' ∉ '-' :: text := by simpa using htext
      have hcomment : ('-' :: (text ++ rest)).takeWhile (· != '\n') = '-' :: text :=
        takeWhile_comment hline hend
      have hskip := partsFrom_skip ('-' :: text) rest
      rw [List.cons_append] at hskip
      rw [Part.chars, List.cons_append, List.cons_append, partsFrom_comment, hcomment, hskip]
  | @quoted quote tail _ htext =>
    rw [Part.chars, List.cons_append, partsFrom_quote htext.quoted_cases.1, htext.quotedTail_eq,
      partsFrom_skip]
  | @word text _ htext =>
    obtain ⟨c, more, rfl, hstart⟩ := htext.exists_cons
    have hword := wordHere_append htext
    rw [List.cons_append] at hword
    rw [Part.chars, List.cons_append, partsFrom_word hstart, hword]
    exact congrArg _ (partsFrom_skip more rest)
  | @sign c _ hc =>
    have hdash : ¬(c == '-' && rest.head? == some '-') = true := by
      simpa using hc.comment
    rw [Part.chars, List.singleton_append, Sql.partsFrom, if_neg (by simp [hc.blank]), if_neg hdash,
      if_neg (by simp [hc.quote]), if_neg (by rw [← startsWord, hc.word]; decide)]

theorem Fitting.partsFrom_append (h : Fitting rest.head? ps) :
    partsFrom 0 (charsOf ps ++ rest) = ps ++ partsFrom 0 rest := by
  induction ps with
  | nil => rfl
  | cons p ps ih =>
    have hp : p.Fits (charsOf ps ++ rest).head? := by
      rw [List.head?_append]
      exact h.1
    rw [charsOf_cons, List.append_assoc, hp.partsFrom, ih h.2, List.cons_append]

/-- A text put together from fitting parts has these parts. -/
theorem Fitting.parts_eq (h : Fitting none ps) : parts (String.ofList (charsOf ps)) = ps := by
  have hparts : partsFrom 0 (charsOf ps ++ []) = ps ++ partsFrom 0 [] := Fitting.partsFrom_append h
  rw [List.append_nil] at hparts
  rw [parts, String.toList_ofList, hparts]
  exact List.append_nil ps

/-! ## Every text has fitting parts -/

theorem exists_word (h : startsWord c = true) (cs : List Char) :
    ∃ word rest, c :: cs = word ++ rest ∧ Word word rest.head? := by
  have hsplit := List.takeWhile_append_dropWhile (p := isWordChar) (l := c :: cs)
  have hafter := head?_dropWhile (p := isWordChar) (c :: cs)
  have hall : ∀ x ∈ (c :: cs).takeWhile isWordChar, isWordChar x = true :=
    fun _ => List.mem_takeWhile_imp
  have hstart : ((c :: cs).takeWhile isWordChar).head?.any startsWord = true := by
    have hc : isWordChar c = true := by
      rw [startsWord, Bool.or_eq_true] at h
      rw [isWordChar, Bool.or_eq_true, Bool.or_eq_true]
      exact h.imp .inl id
    rwa [List.takeWhile_cons_of_pos hc]
  generalize (c :: cs).takeWhile isWordChar = word at hsplit hall hstart
  generalize (c :: cs).dropWhile isWordChar = rest at hsplit hafter
  by_cases hstar : rest.head? = some '*' ∧ word.getLast? = some '.'
  · obtain ⟨rest, rfl⟩ := List.head?_eq_some_iff.1 hstar.1
    refine ⟨word ++ ['*'], rest, ?_, .starred hstart hall hstar.2⟩
    rw [List.append_assoc, ← hsplit]
    rfl
  · exact ⟨word, rest, hsplit.symm, .plain hstart hall hafter fun h h' => hstar ⟨h, h'⟩⟩

/-- A part in front of a text whose parts are known. -/
theorem exists_fitting_cons {text : List Char} (hp : p.Fits rest.head?) (htext : p.chars ++ rest = text)
    (h : ∃ ps, charsOf ps = rest ∧ Fitting none ps) : ∃ ps, charsOf ps = text ∧ Fitting none ps := by
  obtain ⟨ps, rfl, hps⟩ := h
  refine ⟨p :: ps, by rw [charsOf_cons, htext], ?_, hps⟩
  rwa [headOf_none]

theorem exists_fitting : (cs : List Char) → ∃ ps, charsOf ps = cs ∧ Fitting none ps
  | [] => ⟨[], rfl, trivial⟩
  | c :: cs => by
    by_cases hblank : Text.isBlank c = true
    · exact exists_fitting_cons (.blank hblank) rfl (exists_fitting cs)
    by_cases hcomment : c = '-' ∧ cs.head? = some '-'
    · obtain ⟨rfl, hhead⟩ := hcomment
      obtain ⟨cs, rfl⟩ := List.head?_eq_some_iff.1 hhead
      have htext : '\n' ∉ cs.takeWhile (· != '\n') :=
        fun h => absurd (List.mem_takeWhile_imp h) (by decide)
      refine exists_fitting_cons (p := .comment ('-' :: '-' :: cs.takeWhile (· != '\n')))
        (.comment (.comment htext fun d hd => ?_)) ?_ (exists_fitting (cs.dropWhile (· != '\n')))
      · simpa using head?_dropWhile cs d hd
      · rw [Part.chars, List.cons_append, List.cons_append, List.takeWhile_append_dropWhile]
    by_cases hquote : isQuote c = true
    · obtain ⟨inside, rest, rfl, hin, hnext⟩ | hin := exists_inside c cs
      · refine exists_fitting_cons (p := .quoted c (inside ++ [c])) (.quoted (.literal hquote hin hnext)) ?_
          (exists_fitting rest)
        rw [Part.chars, List.cons_append, List.append_assoc, List.singleton_append]
      · have hfits : (Part.quoted c cs).Fits ([] : List Char).head? :=
          .quoted (.unclosed hquote hin)
        exact exists_fitting_cons hfits (List.append_nil _) ⟨[], rfl, trivial⟩
    by_cases hstart : startsWord c = true
    · obtain ⟨word, rest, hsplit, hword⟩ := exists_word hstart cs
      have hpos : 0 < word.length := by
        obtain ⟨d, more, rfl, -⟩ := hword.exists_cons
        exact Nat.succ_pos _
      exact exists_fitting_cons (.word hword) hsplit.symm (exists_fitting rest)
    · have hsign : Sign c cs.head? :=
        ⟨by simpa using hblank, by simpa using hquote, by simpa using hstart,
          fun h h' => hcomment ⟨h, h'⟩⟩
      exact exists_fitting_cons (.sign hsign) rfl (exists_fitting cs)
termination_by cs => cs.length
decreasing_by
  all_goals
    have hcomment := (List.dropWhile_suffix (l := cs) (· != '\n')).length_le
    simp_all
    try omega

/-- The parts of a text are those that fit together and give the text. -/
theorem parts_iff {sql : String} : parts sql = ps ↔ charsOf ps = sql.toList ∧ Fitting none ps := by
  constructor
  · rintro rfl
    obtain ⟨ps, hps, hfit⟩ := exists_fitting sql.toList
    have hparts := hfit.parts_eq
    rw [hps, String.ofList_toList] at hparts
    rw [hparts]
    exact ⟨hps, hfit⟩
  · rintro ⟨hps, hfit⟩
    rw [← hfit.parts_eq, hps, String.ofList_toList]

theorem charsOf_parts (sql : String) : charsOf (parts sql) = sql.toList :=
  (parts_iff.1 rfl).1

theorem fitting_parts (sql : String) : Fitting none (parts sql) :=
  (parts_iff.1 rfl).2

/-! ## Parameters -/

def bindsFrom (cs : List Char) : List String :=
  (piecesFrom 0 cs).filterMap Piece.name?

theorem bindOrder_ofList (cs : List Char) : bindOrder (String.ofList cs) = bindsFrom cs := by
  rw [bindOrder_eq, pieces, String.toList_ofList]
  rfl

theorem bindsFrom_run {run : List Char} {region : Region} (h : Run run region rest.head?) :
    bindsFrom (run ++ rest) = bindsFrom rest := by
  rw [bindsFrom, h.piecesFrom rfl, List.filterMap_append, filterMap_verbatim]
  rfl

theorem bindsFrom_loose (h : Loose c rest.head?) : bindsFrom (c :: rest) = bindsFrom rest := by
  obtain ⟨ps, hps⟩ := exists_reads rest
  rw [bindsFrom, bindsFrom, (Reads.loose h hps).piecesFrom_eq, hps.piecesFrom_eq]
  rfl

theorem not_isQuote_of_isWordChar (h : isWordChar c = true) : isQuote c = false := by
  refine Bool.eq_false_iff.2 fun hquote => ?_
  obtain rfl | rfl | rfl := isQuote_iff.1 hquote <;> exact absurd h (by decide)

/-- The only stretch in a region that is made of characters of words. -/
theorem Run.eq_cast {run : List Char} {region : Region} (h : Run run region next)
    (hall : ∀ c ∈ run, isWordChar c = true) : run = [':', ':'] := by
  cases h with
  | literal hquote =>
    rw [not_isQuote_of_isWordChar (hall _ List.mem_cons_self)] at hquote
    cases hquote
  | unclosed hquote =>
    rw [not_isQuote_of_isWordChar (hall _ List.mem_cons_self)] at hquote
    cases hquote
  | comment => exact absurd (hall '-' List.mem_cons_self) (by decide)
  | cast => rfl

/-- A character that is no part of a word starts no parameter and continues none. -/
theorem Loose.of_isWordChar (h : Loose c none) (hc : isWordChar c = true)
    (hnext : ∀ d ∈ next, isWordChar d = false) : Loose c next where
  quote := h.quote
  comment := by
    rintro rfl
    exact absurd hc (by decide)
  colon := fun _ d hd => by
    have hd := hnext d hd
    rw [isWordChar, Bool.or_eq_false_iff, Bool.or_eq_false_iff] at hd
    refine ⟨by simpa using hd.2, Bool.eq_false_iff.2 fun hstart => ?_⟩
    rw [Lexer.isNameChar_of_isNameStart hstart] at hd
    exact absurd hd.1.1 (by decide)

theorem Reads.word_append {qs : List Piece} {ps : List Piece} (h : Reads word ps)
    (hall : ∀ c ∈ word, isWordChar c = true) (hnext : ∀ c ∈ rest.head?, isWordChar c = false)
    (hrest : Reads rest qs) : Reads (word ++ rest) (ps ++ qs) := by
  induction h with
  | done => exact hrest
  | run hrun _ ih =>
    obtain ⟨hrun', hmore⟩ := List.forall_mem_append.1 hall
    obtain rfl := hrun.eq_cast hrun'
    rw [List.append_assoc, List.append_assoc]
    exact .run .cast (ih hmore)
  | @param name more ps hname hend _ ih =>
    obtain ⟨-, hall⟩ := List.forall_mem_cons.1 hall
    have hmore := ih (List.forall_mem_append.1 hall).2
    rw [List.cons_append, List.append_assoc]
    refine .param hname (fun c hc => ?_) hmore
    cases more with
    | nil =>
      have hc := hnext c hc
      rw [isWordChar, Bool.or_eq_false_iff, Bool.or_eq_false_iff] at hc
      exact hc.1.1
    | cons d more => exact hend c hc
  | @loose c more ps hc _ ih =>
    obtain ⟨hword, hall⟩ := List.forall_mem_cons.1 hall
    refine .loose ?_ (ih hall)
    cases more with
    | nil => exact hc.of_isWordChar hword hnext
    | cons d more => exact hc

/-- A word ends before the next parameter starts. -/
theorem bindsFrom_word_append (hall : ∀ c ∈ word, isWordChar c = true)
    (hnext : ∀ c ∈ rest.head?, isWordChar c = false) :
    bindsFrom (word ++ rest) = bindsFrom word ++ bindsFrom rest := by
  obtain ⟨ps, hps⟩ := exists_reads word
  obtain ⟨qs, hqs⟩ := exists_reads rest
  rw [bindsFrom, (hps.word_append hall hnext hqs).piecesFrom_eq, bindsFrom, bindsFrom,
    hps.piecesFrom_eq, hqs.piecesFrom_eq, List.filterMap_append]

theorem loose_of_ne (hquote : isQuote c = false) (hdash : c ≠ '-') (hcolon : c ≠ ':')
    (next : Option Char) : Loose c next :=
  ⟨hquote, fun h => absurd h hdash, fun h => absurd h hcolon⟩

theorem bindsFrom_star (rest : List Char) : bindsFrom ('*' :: rest) = bindsFrom rest :=
  bindsFrom_loose (loose_of_ne (by decide) (by decide) (by decide) _)

/-- The parameters of a part and of what stands behind it. -/
theorem Part.Fits.bindsFrom (h : p.Fits rest.head?) :
    bindsFrom (p.chars ++ rest) = p.binds ++ bindsFrom rest := by
  cases h with
  | @blank c _ hc =>
    refine bindsFrom_loose (loose_of_ne ?_ ?_ ?_ _)
    · refine Bool.eq_false_iff.2 fun hquote => ?_
      rw [isBlank_of_isQuote hquote] at hc
      cases hc
    all_goals
      rintro rfl
      exact absurd hc (by decide)
  | comment htext => exact bindsFrom_run htext
  | quoted htext => exact bindsFrom_run htext
  | @word text _ htext =>
    rw [Part.binds, bindOrder_ofList]
    cases htext with
    | plain _ hall hnext => exact bindsFrom_word_append hall hnext
    | starred _ hall =>
      have hstar : ∀ more : List Char, ∀ c ∈ ('*' :: more).head?, isWordChar c = false := by
        intro more c hc
        obtain rfl := Option.some.inj hc
        decide
      rw [Part.chars, List.append_assoc, List.singleton_append,
        bindsFrom_word_append hall (hstar rest), bindsFrom_word_append hall (hstar []),
        bindsFrom_star, bindsFrom_star, List.append_assoc]
      rfl
  | @sign c _ hc =>
    refine bindsFrom_loose ⟨hc.quote, hc.comment, ?_⟩
    rintro rfl
    exact absurd hc.word (by decide)

theorem Fitting.bindsFrom (h : Fitting none ps) :
    bindsFrom (charsOf ps) = ps.flatMap Part.binds := by
  induction ps with
  | nil => rfl
  | cons p ps ih =>
    have hp := h.1
    rw [headOf_none] at hp
    rw [charsOf_cons, hp.bindsFrom, ih h.2, List.flatMap_cons]

/-- The parameters of a text, part by part. -/
theorem bindOrder_parts (sql : String) : bindOrder sql = (parts sql).flatMap Part.binds := by
  rw [← (fitting_parts sql).bindsFrom, charsOf_parts, ← bindOrder_ofList, String.ofList_toList]

end Scaffold.Sql
