import Scaffold.Naming
import Scaffold.Proofs.Path
import Scaffold.Proofs.Sql.Part

/-!
# SQL on one line

A generator that puts a statement between the quotes of an annotation makes every run of blanks one
space. What this does to a statement is seen part by part: words and signs stay as they are, quoted
texts have their blanks squeezed too, and the first comment takes everything behind it along, since
the line end that would close it is gone.

* `toList_oneLine`: one pass over the text, which keeps one space of a run of blanks.
* `squeezed`: the parts of the text on one line.
* `bindOrder_oneLine`, `literals_oneLine`, `lexemes_oneLine`: what is read of the text on one line.
* `sameQuery_oneLine_iff`: when the statement is still the one that was written.
* `Ended.sameQuery`: comments behind a statement do no harm.
-/

namespace Scaffold

/-! ## Runs of blanks -/

namespace Text

/-- The text with one space for every run of blanks and none for a run at its end. -/
def squeeze : List Char → List Char
  | [] => []
  | c :: cs =>
    if isBlank c then
      if cs.head?.any (!isBlank ·) then ' ' :: squeeze cs else squeeze cs
    else c :: squeeze cs

variable {c d : Char} {cs run rest : List Char}

theorem squeeze_step (c : Char) (cs : List Char) :
    squeeze (c :: cs) =
      if isBlank c then if cs.head?.any (!isBlank ·) then ' ' :: squeeze cs else squeeze cs
      else c :: squeeze cs :=
  rfl

theorem squeeze_cons (h : isBlank c = false) (cs : List Char) :
    squeeze (c :: cs) = c :: squeeze cs := by
  rw [squeeze_step, if_neg (by rw [h]; decide)]

theorem squeeze_blank_blank (hc : isBlank c = true) (hd : isBlank d = true) (cs : List Char) :
    squeeze (c :: d :: cs) = squeeze (d :: cs) := by
  rw [squeeze_step, if_pos hc, if_neg (by simp [hd])]

theorem squeeze_blank_cons (hc : isBlank c = true) (hd : isBlank d = false) (cs : List Char) :
    squeeze (c :: d :: cs) = ' ' :: squeeze (d :: cs) := by
  rw [squeeze_step, if_pos hc, if_pos (by simp [hd])]

theorem squeeze_blank (hc : isBlank c = true) : squeeze [c] = [] := by
  rw [squeeze_step, if_pos hc]
  rfl

theorem squeeze_append (h : ∀ c ∈ run, isBlank c = false) (rest : List Char) :
    squeeze (run ++ rest) = run ++ squeeze rest := by
  induction run with
  | nil => rfl
  | cons c run ih =>
    obtain ⟨hc, hrun⟩ := List.forall_mem_cons.1 h
    rw [List.cons_append, squeeze_cons hc, ih hrun, List.cons_append]

/-- What follows a character that is no blank does not matter in front of it. -/
theorem squeeze_append_cons (h : isBlank c = false) (cs rest : List Char) :
    squeeze (cs ++ c :: rest) = squeeze (cs ++ [c]) ++ squeeze rest := by
  induction cs with
  | nil => rw [List.nil_append, List.nil_append, squeeze_cons h, squeeze_cons h]; rfl
  | cons d cs ih =>
    have hhead : (cs ++ c :: rest).head? = (cs ++ [c]).head? := by
      rw [List.head?_append, List.head?_append]
      rfl
    rw [List.cons_append, List.cons_append, squeeze_step, squeeze_step, hhead, ih]
    split
    · split <;> rfl
    · rfl

theorem of_mem_squeeze (h : c ∈ squeeze cs) : c = ' ' ∨ isBlank c = false := by
  induction cs with
  | nil => cases h
  | cons d cs ih =>
    rw [squeeze_step] at h
    split at h
    · split at h
      · exact (List.mem_cons.1 h).elim .inl ih
      · exact ih h
    · rename_i hd
      refine (List.mem_cons.1 h).elim ?_ ih
      rintro rfl
      exact .inr (by simpa using hd)

/-- A run of blanks at the end is left out, one in front of something else becomes a space. -/
theorem squeeze_of_blank (hc : isBlank c = true) (cs : List Char) :
    squeeze (c :: cs) = [] ∧ cs.dropWhile isBlank = [] ∨
      squeeze (c :: cs) = ' ' :: squeeze (cs.dropWhile isBlank) ∧ cs.dropWhile isBlank ≠ [] := by
  induction cs generalizing c with
  | nil => exact .inl ⟨squeeze_blank hc, rfl⟩
  | cons d cs ih =>
    cases hd : isBlank d with
    | false =>
      rw [squeeze_blank_cons hc hd, List.dropWhile_cons_of_neg (by rw [hd]; decide)]
      exact .inr ⟨rfl, List.cons_ne_nil _ _⟩
    | true =>
      rw [squeeze_blank_blank hc hd, List.dropWhile_cons_of_pos hd]
      exact ih hd

theorem squeeze_dropWhile_ne_nil (h : cs.dropWhile isBlank ≠ []) :
    squeeze (cs.dropWhile isBlank) ≠ [] := by
  have hhead := Sql.head?_dropWhile (p := isBlank) cs
  obtain ⟨c, rest, hdrop⟩ := List.exists_cons_of_ne_nil h
  rw [hdrop] at hhead ⊢
  rw [squeeze_cons (hhead c rfl)]
  exact List.cons_ne_nil _ _

/-! ## Words with spaces between them -/

def wordChars (cs : List Char) : List (List Char) :=
  (splitChars isBlank cs).filter (!·.isEmpty)

theorem wordChars_blank (hc : isBlank c = true) (cs : List Char) :
    wordChars (c :: cs) = wordChars cs := by
  have hsplit := splitChars_append isBlank [] cs c hc
  rw [List.nil_append] at hsplit
  rw [wordChars, hsplit]
  rfl

theorem splitChars_cons {sep : Char → Bool} (h : sep c = false) (cs : List Char) :
    splitChars sep (c :: cs) = (splitChars sep cs).modifyHead (c :: ·) := by
  rw [splitChars]
  cases hs : splitChars sep cs with
  | nil => exact absurd hs (splitChars_ne_nil sep cs)
  | cons piece pieces => exact if_neg (by rw [h]; decide)

theorem wordChars_last (hc : isBlank c = false) (hd : isBlank d = true) (cs : List Char) :
    wordChars (c :: d :: cs) = [c] :: wordChars cs := by
  have hsplit := splitChars_append isBlank [c] cs d hd
  rw [List.singleton_append, splitChars_cons hc] at hsplit
  rw [wordChars, splitChars_cons hc, hsplit, splitChars_cons hc]
  rfl

theorem wordChars_cons (hc : isBlank c = false) (cs : List Char) :
    ∃ word words, wordChars (c :: cs) = (c :: word) :: words ∧
      ∀ b, isBlank b = false → wordChars (b :: c :: cs) = (b :: c :: word) :: words := by
  obtain ⟨piece, pieces, hsplit⟩ := List.exists_cons_of_ne_nil (splitChars_ne_nil isBlank cs)
  refine ⟨piece, pieces.filter (!·.isEmpty), ?_, fun b hb => ?_⟩
  · rw [wordChars, splitChars_cons hc, hsplit]
    rfl
  · rw [wordChars, splitChars_cons hb, splitChars_cons hc, hsplit]
    rfl

theorem intercalate_cons_cons (c : Char) (word : List Char) (words : List (List Char)) :
    [' '].intercalate ((c :: word) :: words) = c :: [' '].intercalate (word :: words) := by
  cases words <;> simp [List.intercalate, List.intersperse]

theorem intercalate_ne_nil {words : List (List Char)} (hall : ∀ word ∈ words, word ≠ [])
    (h : words ≠ []) : [' '].intercalate words ≠ [] := by
  obtain ⟨word, words, rfl⟩ := List.exists_cons_of_ne_nil h
  obtain ⟨c, word, rfl⟩ := List.exists_cons_of_ne_nil (hall word List.mem_cons_self)
  rw [intercalate_cons_cons]
  exact List.cons_ne_nil _ _

/-- The words behind a blank, with a space in front of each. -/
theorem intercalate_nil_cons (hd : isBlank d = true) (cs : List Char)
    (hwords : [' '].intercalate (wordChars cs) = squeeze (cs.dropWhile isBlank)) :
    [' '].intercalate ([] :: wordChars cs) = squeeze (d :: cs) := by
  have hall : ∀ word ∈ wordChars cs, word ≠ [] :=
    fun word hword => by simpa using (List.mem_filter.1 hword).2
  obtain ⟨hsqueeze, hdrop⟩ | ⟨hsqueeze, hdrop⟩ := squeeze_of_blank hd cs
  · have hnone : wordChars cs = [] := by
      by_contra h
      exact intercalate_ne_nil hall h (by rw [hwords, hdrop]; rfl)
    rw [hsqueeze, hnone]
    rfl
  · have hsome : wordChars cs ≠ [] := by
      intro h
      rw [h] at hwords
      exact squeeze_dropWhile_ne_nil hdrop hwords.symm
    obtain ⟨word, words, h⟩ := List.exists_cons_of_ne_nil hsome
    rw [hsqueeze, ← hwords, h]
    rfl

/-- The words of a text, with one space between neighbours. -/
theorem intercalate_wordChars (cs : List Char) :
    [' '].intercalate (wordChars cs) = squeeze (cs.dropWhile isBlank) := by
  induction cs with
  | nil => rfl
  | cons c cs ih =>
    cases hc : isBlank c with
    | true => rw [wordChars_blank hc, List.dropWhile_cons_of_pos hc, ih]
    | false =>
      rw [List.dropWhile_cons_of_neg (by rw [hc]; decide), squeeze_cons hc]
      cases cs with
      | nil =>
        rw [wordChars, splitChars_cons hc]
        rfl
      | cons d cs =>
        cases hd : isBlank d with
        | true =>
          rw [wordChars_blank hd, List.dropWhile_cons_of_pos hd] at ih
          rw [wordChars_last hc hd, intercalate_cons_cons, intercalate_nil_cons hd cs ih]
        | false =>
          obtain ⟨word, words, hwords, hcons⟩ := wordChars_cons hd cs
          rw [List.dropWhile_cons_of_neg (by rw [hd]; decide), hwords] at ih
          rw [hcons c hc, intercalate_cons_cons, ih]

theorem toList_joinWith (words : List (List Char)) :
    (joinWith " " (words.map String.ofList)).toList = [' '].intercalate words := by
  induction words with
  | nil => rfl
  | cons word words ih =>
    cases words with
    | nil => simp [joinWith, List.intercalate]
    | cons word' words =>
      rw [List.map_cons, List.map_cons, joinWith.eq_3 _ _ _ (by simp), ← List.map_cons,
        String.toList_append, String.toList_append, ih, String.toList_ofList]
      simp [List.intercalate, List.intersperse]

end Text

theorem Naming.toList_oneLine (s : String) :
    (oneLine s).toList = Text.squeeze (s.toList.dropWhile Text.isBlank) := by
  rw [oneLine, Text.words, Text.toList_joinWith]
  exact Text.intercalate_wordChars s.toList

/-! ## Parts on one line -/

namespace Sql

open Naming (oneLine)

/-- The part with its blanks squeezed. -/
def Part.squeezed : Part → Part
  | .quoted quote tail => .quoted quote (Text.squeeze tail)
  | p => p

/-- What becomes of parts on one line: a run of blanks becomes one space or is left out, and the
first comment takes up everything behind it. -/
def squeezed : List Part → List Part
  | [] => []
  | .blank _ :: ps =>
    if (charsOf ps).head?.any (!Text.isBlank ·) then .blank ' ' :: squeezed ps else squeezed ps
  | .comment text :: ps => [.comment (Text.squeeze (text ++ charsOf ps))]
  | p :: ps => p.squeezed :: squeezed ps

/-- The parts in front of the first comment. -/
def uncommented (ps : List Part) : List Part :=
  ps.takeWhile (!·.isComment)

/-- The text in front of the first comment. -/
def front (sql : String) : String :=
  String.ofList (charsOf (uncommented (parts sql)))

def literals (sql : String) : List String :=
  (parts sql).filterMap Part.literal?

/-- What is read of two statements is the same. -/
structure SameQuery (a b : String) : Prop where
  parameters : parameters a = parameters b
  kind : statementKind a = statementKind b
  list : selectList? a = selectList? b
  literals : literals a = literals b

variable {c quote : Char} {inside tail rest text : List Char} {next next' : Option Char} {p : Part}
  {ps : List Part}

/-- What follows a part is the same, or gone, or a space. -/
def Fades (next next' : Option Char) : Prop :=
  next' = next ∨ ∃ c ∈ next, next' = none ∨ next' = some ' '

theorem Inside.squeeze (hquote : isQuote quote = true) (h : Inside quote inside)
    (hrest : rest = [] ∨ rest = [quote]) :
    ∃ inside', Text.squeeze (inside ++ rest) = inside' ++ rest ∧ Inside quote inside' := by
  have hblank := isBlank_of_isQuote hquote
  induction h with
  | nil =>
    refine ⟨[], ?_, .nil⟩
    obtain rfl | rfl := hrest
    · rfl
    · rw [List.nil_append, Text.squeeze_cons hblank]
      rfl
  | @char c cs hc _ ih =>
    obtain ⟨inside', hsqueeze, hin⟩ := ih
    rw [List.cons_append, Text.squeeze, hsqueeze]
    split
    · split
      · refine ⟨' ' :: inside', rfl, .char ?_ hin⟩
        rintro rfl
        cases hquote
      · exact ⟨inside', rfl, hin⟩
    · exact ⟨c :: inside', rfl, .char hc hin⟩
  | @doubled cs _ ih =>
    obtain ⟨inside', hsqueeze, hin⟩ := ih
    refine ⟨quote :: quote :: inside', ?_, .doubled hin⟩
    rw [List.cons_append, List.cons_append, Text.squeeze_cons hblank, Text.squeeze_cons hblank,
      hsqueeze]
    rfl

theorem Run.squeeze (h : Run (quote :: tail) (.quoted quote) next) :
    Run (quote :: Text.squeeze tail) (.quoted quote) next := by
  obtain ⟨hquote, inside, hin, ⟨rfl, hnext⟩ | ⟨rfl, rfl⟩⟩ := h.quoted_cases
  · obtain ⟨inside', hsqueeze, hin'⟩ := hin.squeeze hquote (.inr rfl)
    rw [hsqueeze]
    exact .literal hquote hin' hnext
  · obtain ⟨inside', hsqueeze, hin'⟩ := hin.squeeze hquote (.inl rfl)
    rw [List.append_nil, List.append_nil] at hsqueeze
    rw [hsqueeze]
    exact .unclosed hquote hin'

theorem Part.Fits.squeeze (h : p.Fits next) : p.squeezed.Fits next := by
  cases h with
  | blank hc => exact .blank hc
  | comment htext => exact .comment htext
  | quoted htext => exact .quoted htext.squeeze
  | word htext => exact .word htext
  | sign hc => exact .sign hc

theorem Part.Fits.fade (h : p.Fits next) (hp : p.isComment = false) (hnext : Fades next next') :
    p.Fits next' := by
  obtain rfl | ⟨d, hd, hnext⟩ := hnext
  · exact h
  obtain rfl := Option.mem_def.1 hd
  cases h with
  | blank hc => exact .blank hc
  | comment => cases hp
  | quoted htext =>
    obtain ⟨hquote, inside, hin, ⟨rfl, -⟩ | ⟨-, hnone⟩⟩ := htext.quoted_cases
    · refine .quoted (.literal hquote hin ?_)
      obtain rfl | rfl := hnext
      · simp
      · rintro ⟨⟩
        cases hquote
    · cases hnone
  | word htext =>
    cases htext with
    | plain hstart hall =>
      obtain rfl | rfl := hnext
      · exact .word (.plain hstart hall nofun nofun)
      · refine .word (.plain hstart hall (fun c hc => ?_) nofun)
        obtain rfl := Option.some.inj hc
        decide
    | starred hstart hall hpoint => exact .word (.starred hstart hall hpoint)
  | sign hc =>
    refine .sign ⟨hc.blank, hc.quote, hc.word, fun _ => ?_⟩
    obtain rfl | rfl := hnext <;> decide

theorem isBlank_of_isWordChar (h : isWordChar c = true) : Text.isBlank c = false := by
  rw [isWordChar, Bool.or_eq_true, Bool.or_eq_true] at h
  obtain (h | h) | h := h
  · exact isBlank_of_startsWord (by rw [startsWord, h]; rfl)
  · rw [eq_of_beq h]
    decide
  · rw [eq_of_beq h]
    decide

theorem Word.isBlank (h : Word text next) : ∀ c ∈ text, Text.isBlank c = false := by
  cases h with
  | plain _ hall => exact fun c hc => isBlank_of_isWordChar (hall c hc)
  | starred _ hall =>
    refine List.forall_mem_append.2 ⟨fun c hc => isBlank_of_isWordChar (hall c hc), ?_⟩
    exact List.forall_mem_singleton.2 (by decide)

/-- A part that is no blank and no comment is squeezed by itself. -/
theorem Part.Fits.squeeze_append (h : p.Fits rest.head?) (hblank : p.isBlank = false)
    (hcomment : p.isComment = false) :
    Text.squeeze (p.chars ++ rest) = p.squeezed.chars ++ Text.squeeze rest := by
  cases h with
  | blank => cases hblank
  | comment => cases hcomment
  | @quoted quote tail _ htext =>
    obtain ⟨hquote, inside, hin, ⟨rfl, hnext⟩ | ⟨rfl, hnone⟩⟩ := htext.quoted_cases
    · have hquote' := isBlank_of_isQuote hquote
      rw [Part.chars, List.cons_append, Text.squeeze_cons hquote', List.append_assoc,
        List.singleton_append, Text.squeeze_append_cons hquote']
      rfl
    · obtain rfl := List.head?_eq_none_iff.1 hnone
      rw [Part.chars, List.append_nil, Text.squeeze_cons (isBlank_of_isQuote hquote)]
      exact (List.append_nil _).symm
  | word htext => exact Text.squeeze_append htext.isBlank rest
  | sign hc => exact Text.squeeze_cons hc.blank rest

theorem squeezed_cons (hblank : p.isBlank = false) (hcomment : p.isComment = false)
    (ps : List Part) : squeezed (p :: ps) = p.squeezed :: squeezed ps := by
  cases p with
  | blank => cases hblank
  | comment => cases hcomment
  | quoted | word | sign => rfl

/-- On one line, a comment goes on to the end. -/
theorem Run.squeeze_comment (h : Run text .comment next) (rest : List Char) :
    Run (Text.squeeze (text ++ rest)) .comment none := by
  cases h with
  | @comment text _ htext =>
    have hdash : Text.isBlank '-' = false := by decide
    rw [List.cons_append, List.cons_append, Text.squeeze_cons hdash, Text.squeeze_cons hdash]
    refine .comment (fun hmem => ?_) nofun
    obtain h | h := Text.of_mem_squeeze hmem
    · cases h
    · exact absurd h (by decide)

theorem fades_none (next : Option Char) : Fades next none := by
  cases next with
  | none => exact .inl rfl
  | some c => exact .inr ⟨c, rfl, .inl rfl⟩

theorem Fades.or (h : Fades next next') (first : Option Char) :
    Fades (first.or next) (first.or next') := by
  cases first with
  | none => exact h
  | some c => exact .inl rfl

theorem fades_squeeze (cs : List Char) : Fades cs.head? (Text.squeeze cs).head? := by
  cases cs with
  | nil => exact .inl rfl
  | cons c cs =>
    cases hc : Text.isBlank c with
    | false => exact .inl (by rw [Text.squeeze_cons hc]; rfl)
    | true =>
      refine .inr ⟨c, rfl, ?_⟩
      obtain ⟨hsqueeze, -⟩ | ⟨hsqueeze, -⟩ := Text.squeeze_of_blank hc cs
      · exact .inl (by rw [hsqueeze]; rfl)
      · exact .inr (by rw [hsqueeze]; rfl)

theorem Part.cases (p : Part) : (∃ c, p = .blank c) ∨ (∃ text, p = .comment text) ∨
    p.isBlank = false ∧ p.isComment = false := by
  cases p with
  | blank c => exact .inl ⟨c, rfl⟩
  | comment text => exact .inr (.inl ⟨text, rfl⟩)
  | quoted | word | sign => exact .inr (.inr ⟨rfl, rfl⟩)

theorem charsOf_squeezed (h : Fitting next ps) (hnext : next = none) :
    charsOf (squeezed ps) = Text.squeeze (charsOf ps) := by
  subst hnext
  induction ps with
  | nil => rfl
  | cons p ps ih =>
    have hp := h.1
    rw [headOf_none] at hp
    obtain ⟨c, rfl⟩ | ⟨text, rfl⟩ | ⟨hblank, hcomment⟩ := p.cases
    · cases hp with
      | blank hc =>
        rw [squeezed, charsOf_cons, Part.chars, List.singleton_append, Text.squeeze, if_pos hc,
          ← ih h.2]
        split <;> rfl
    · exact List.append_nil _
    · rw [squeezed_cons hblank hcomment, charsOf_cons, charsOf_cons,
        hp.squeeze_append hblank hcomment, ih h.2]

theorem Fitting.squeezed (h : Fitting none ps) : Fitting none (squeezed ps) := by
  induction ps with
  | nil => trivial
  | cons p ps ih =>
    have hp := h.1
    rw [headOf_none] at hp
    obtain ⟨c, rfl⟩ | ⟨text, rfl⟩ | ⟨hblank, hcomment⟩ := p.cases
    · rw [Sql.squeezed]
      split
      · exact ⟨.blank (by decide), ih h.2⟩
      · exact ih h.2
    · cases hp with
      | comment htext => exact ⟨.comment (htext.squeeze_comment _), trivial⟩
    · rw [squeezed_cons hblank hcomment]
      refine ⟨(hp.fade hcomment ?_).squeeze, ih h.2⟩
      rw [headOf_none, charsOf_squeezed h.2 rfl]
      exact fades_squeeze _

theorem uncommented_comment (hcomment : p.isComment = true) (ps : List Part) :
    uncommented (p :: ps) = [] :=
  List.takeWhile_cons_of_neg (by rw [hcomment]; decide)

theorem uncommented_cons (hcomment : p.isComment = false) (ps : List Part) :
    uncommented (p :: ps) = p :: uncommented ps :=
  List.takeWhile_cons_of_pos (by rw [hcomment]; rfl)

theorem fades_uncommented (ps : List Part) :
    Fades (headOf none ps) (headOf none (uncommented ps)) := by
  induction ps with
  | nil => exact .inl rfl
  | cons p ps ih =>
    cases hcomment : p.isComment with
    | true =>
      rw [uncommented_comment hcomment]
      exact fades_none _
    | false =>
      rw [uncommented_cons hcomment, headOf_cons, headOf_cons]
      exact ih.or _

theorem Fitting.uncommented (h : Fitting none ps) : Fitting none (uncommented ps) := by
  induction ps with
  | nil => trivial
  | cons p ps ih =>
    cases hcomment : p.isComment with
    | true =>
      rw [uncommented_comment hcomment]
      trivial
    | false =>
      rw [uncommented_cons hcomment]
      exact ⟨h.1.fade hcomment (fades_uncommented ps), ih h.2⟩

theorem parts_front (sql : String) : parts (front sql) = uncommented (parts sql) :=
  (fitting_parts sql).uncommented.parts_eq

theorem Part.Fits.exists_cons (h : p.Fits next) (hblank : p.isBlank = false) :
    ∃ c cs, p.chars = c :: cs ∧ Text.isBlank c = false := by
  cases h with
  | blank => cases hblank
  | comment htext =>
    cases htext with
    | comment => exact ⟨'-', _, rfl, rfl⟩
  | @quoted quote tail _ htext => exact ⟨quote, tail, rfl, isBlank_of_isQuote htext.quoted_cases.1⟩
  | word htext =>
    obtain ⟨c, cs, rfl, hstart⟩ := htext.exists_cons
    exact ⟨c, cs, rfl, isBlank_of_startsWord hstart⟩
  | @sign c _ hc => exact ⟨c, [], rfl, hc.blank⟩

/-- The text without the blanks at its start. -/
theorem charsOf_dropWhile (h : Fitting next ps) :
    charsOf (ps.dropWhile Part.isBlank) = (charsOf ps).dropWhile Text.isBlank := by
  induction ps with
  | nil => rfl
  | cons p ps ih =>
    cases hp : p.isBlank with
    | true =>
      obtain ⟨hfit, hps⟩ := h
      rw [List.dropWhile_cons_of_pos hp, ih hps]
      cases hfit with
      | blank hc => exact (List.dropWhile_cons_of_pos hc).symm
      | comment | quoted | word | sign => cases hp
    | false =>
      obtain ⟨c, cs, hchars, hblank⟩ := h.1.exists_cons hp
      rw [List.dropWhile_cons_of_neg (by rw [hp]; decide), charsOf_cons, hchars, List.cons_append,
        List.dropWhile_cons_of_neg (by rw [hblank]; decide)]

/-- The parts of the text on one line. -/
theorem parts_oneLine (sql : String) :
    parts (oneLine sql) = squeezed ((parts sql).dropWhile Part.isBlank) := by
  have hfit : Fitting none ((parts sql).dropWhile Part.isBlank) := by
    have hall := fitting_parts sql
    rw [← List.takeWhile_append_dropWhile (p := Part.isBlank) (l := parts sql),
      fitting_append] at hall
    exact hall.2
  refine parts_iff.2 ⟨?_, hfit.squeezed⟩
  rw [charsOf_squeezed hfit rfl, charsOf_dropWhile (fitting_parts sql), charsOf_parts,
    Naming.toList_oneLine]

/-! ## What is read of the text on one line -/

section

variable {α : Type} {f : Part → List α}

theorem flatMap_squeezed (hblank : ∀ c, f (.blank c) = [])
    (hcomment : ∀ text, f (.comment text) = []) (ps : List Part) :
    (squeezed ps).flatMap f = (uncommented ps).flatMap fun p => f p.squeezed := by
  induction ps with
  | nil => rfl
  | cons p ps ih =>
    obtain ⟨c, rfl⟩ | ⟨text, rfl⟩ | ⟨hp, hp'⟩ := p.cases
    · have hsqueezed : f (Part.blank c).squeezed = [] := hblank c
      rw [uncommented_cons rfl, List.flatMap_cons, ← ih, hsqueezed, squeezed]
      split
      · rw [List.flatMap_cons, hblank]
      · rfl
    · rw [uncommented_comment rfl, squeezed, List.flatMap_singleton, hcomment]
      rfl
    · rw [squeezed_cons hp hp', uncommented_cons hp', List.flatMap_cons, List.flatMap_cons, ih]

theorem flatMap_dropWhile (hblank : ∀ c, f (.blank c) = []) (ps : List Part) :
    (uncommented (ps.dropWhile Part.isBlank)).flatMap (fun p => f p.squeezed) =
      (uncommented ps).flatMap fun p => f p.squeezed := by
  induction ps with
  | nil => rfl
  | cons p ps ih =>
    cases p with
    | blank c =>
      have hsqueezed : f (Part.blank c).squeezed = [] := hblank c
      rw [List.dropWhile_cons_of_pos rfl, ih, uncommented_cons rfl, List.flatMap_cons, hsqueezed]
      rfl
    | comment | quoted | word | sign => rfl

/-- What parts that are neither blank nor comments count for: that of the parts in front of the first
comment, with their blanks squeezed. -/
theorem flatMap_oneLine (hblank : ∀ c, f (.blank c) = [])
    (hcomment : ∀ text, f (.comment text) = []) (sql : String) :
    (parts (oneLine sql)).flatMap f = (parts (front sql)).flatMap fun p => f p.squeezed := by
  rw [parts_oneLine, flatMap_squeezed hblank hcomment, flatMap_dropWhile hblank, parts_front]

end

theorem bindOrder_oneLine (sql : String) : bindOrder (oneLine sql) = bindOrder (front sql) := by
  rw [bindOrder_parts, flatMap_oneLine (fun _ => rfl) (fun _ => rfl), bindOrder_parts]
  exact List.flatMap_congr fun p _ => by cases p <;> rfl

theorem Fitting.exists_fits (h : Fitting next ps) : ∀ p ∈ ps, ∃ next, p.Fits next := by
  induction ps with
  | nil => nofun
  | cons p ps ih => exact List.forall_mem_cons.2 ⟨⟨_, h.1⟩, ih h.2⟩

theorem oneLine_quoted (hquote : isQuote quote = true) (tail : List Char) :
    oneLine (String.ofList (quote :: tail)) = String.ofList (quote :: Text.squeeze tail) := by
  have hblank := isBlank_of_isQuote hquote
  rw [← String.toList_inj, Naming.toList_oneLine, String.toList_ofList, String.toList_ofList,
    List.dropWhile_cons_of_neg (by rw [hblank]; decide), Text.squeeze_cons hblank]

theorem Part.Fits.literal?_squeezed (h : p.Fits next) :
    p.squeezed.literal? = p.literal?.map oneLine := by
  cases h with
  | quoted htext =>
    exact congrArg some (oneLine_quoted htext.quoted_cases.1 _).symm
  | blank | comment | word | sign => rfl

/-- The quoted texts in front of the first comment have their own blanks squeezed. -/
theorem literals_oneLine (sql : String) :
    literals (oneLine sql) = (literals (front sql)).map oneLine := by
  rw [literals, literals, List.filterMap_eq_flatMap_toList,
    flatMap_oneLine (fun _ => rfl) (fun _ => rfl), ← List.filterMap_eq_flatMap_toList,
    List.map_filterMap]
  refine List.filterMap_congr fun p hp => ?_
  obtain ⟨next, hfit⟩ := (fitting_parts _).exists_fits p hp
  exact hfit.literal?_squeezed

theorem Part.Fits.squeezed_eq (h : p.Fits next) (hlit : ∀ l ∈ p.literal?, oneLine l = l) :
    p.squeezed = p := by
  cases h with
  | @quoted quote tail _ htext =>
    have hquoted := hlit _ rfl
    rw [oneLine_quoted htext.quoted_cases.1, ← String.toList_inj, String.toList_ofList,
      String.toList_ofList] at hquoted
    rw [Part.squeezed, (List.cons.inj hquoted).2]
  | blank | comment | word | sign => rfl

/-- If squeezing leaves its quoted texts alone, the text in front of the first comment is read as
before. -/
theorem lexemes_oneLine {sql : String} (h : ∀ l ∈ literals (front sql), oneLine l = l) :
    lexemes (oneLine sql) = lexemes (front sql) := by
  rw [lexemes_eq, lexemes_eq, List.filterMap_eq_flatMap_toList,
    flatMap_oneLine (fun _ => rfl) (fun _ => rfl), ← List.filterMap_eq_flatMap_toList]
  refine List.filterMap_congr fun p hp => ?_
  obtain ⟨next, hfit⟩ := (fitting_parts _).exists_fits p hp
  rw [hfit.squeezed_eq fun l hl => h l (List.mem_filterMap.2 ⟨p, hp, hl⟩)]

theorem sameQuery_of_lexemes {a b : String} (hbinds : bindOrder a = bindOrder b)
    (hlexemes : lexemes a = lexemes b) (hliterals : literals a = literals b) : SameQuery a b where
  parameters := congrArg Text.distinct hbinds
  kind := by rw [statementKind, statementKind, hlexemes]
  list := by rw [selectList?, selectList?, hlexemes]
  literals := hliterals

theorem SameQuery.trans {a b c : String} (h : SameQuery a b) (h' : SameQuery b c) :
    SameQuery a c where
  parameters := h.parameters.trans h'.parameters
  kind := h.kind.trans h'.kind
  list := h.list.trans h'.list
  literals := h.literals.trans h'.literals

theorem SameQuery.symm {a b : String} (h : SameQuery a b) : SameQuery b a where
  parameters := h.parameters.symm
  kind := h.kind.symm
  list := h.list.symm
  literals := h.literals.symm

theorem sameQuery_front {sql : String} (h : ∀ l ∈ literals (front sql), oneLine l = l) :
    SameQuery (oneLine sql) (front sql) := by
  refine sameQuery_of_lexemes (bindOrder_oneLine sql) (lexemes_oneLine h) ?_
  rw [literals_oneLine, List.map_congr_left h, List.map_id']

/-- Nothing that counts stands behind the first comment. -/
def Ended (sql : String) : Prop :=
  ∀ p ∈ (parts sql).dropWhile (!·.isComment), p.isComment = true ∨ p.isBlank = true

theorem Ended.flatMap_front {α : Type} {f : Part → List α} {sql : String} (h : Ended sql)
    (hblank : ∀ c, f (.blank c) = []) (hcomment : ∀ text, f (.comment text) = []) :
    (parts (front sql)).flatMap f = (parts sql).flatMap f := by
  have hnone : ((parts sql).dropWhile (!·.isComment)).flatMap f = [] :=
    List.flatMap_eq_nil_iff.2 fun p hp => by
      obtain ⟨c, rfl⟩ | ⟨text, rfl⟩ | ⟨hp', hp''⟩ := p.cases
      · exact hblank c
      · exact hcomment text
      · rcases h p hp with h | h <;> simp_all
  have hparts := List.takeWhile_append_dropWhile (p := (!·.isComment)) (l := parts sql)
  conv_rhs => rw [← hparts, List.flatMap_append, hnone, List.append_nil]
  rw [parts_front, uncommented]

/-- Comments behind a statement do no harm. -/
theorem Ended.sameQuery {sql : String} (h : Ended sql) : SameQuery (front sql) sql := by
  refine sameQuery_of_lexemes ?_ ?_ ?_
  · rw [bindOrder_parts, bindOrder_parts, h.flatMap_front (fun _ => rfl) fun _ => rfl]
  · rw [lexemes_eq, lexemes_eq, List.filterMap_eq_flatMap_toList, List.filterMap_eq_flatMap_toList,
      h.flatMap_front (fun _ => rfl) fun _ => rfl]
  · rw [literals, literals, List.filterMap_eq_flatMap_toList, List.filterMap_eq_flatMap_toList,
      h.flatMap_front (fun _ => rfl) fun _ => rfl]

/-- The quoted texts in front of the first comment are the first ones of the statement. -/
theorem literals_front_leading (sql : String) : literals (front sql) <+: literals sql := by
  rw [literals, literals, parts_front]
  exact (List.takeWhile_prefix _).filterMap _

/-- On one line a statement is still what was written exactly if its quoted texts have no blanks but
single spaces, and nothing that matters stands behind its first comment. -/
theorem sameQuery_oneLine_iff (sql : String) :
    SameQuery (oneLine sql) sql ↔
      (∀ l ∈ literals sql, oneLine l = l) ∧ SameQuery (front sql) sql := by
  constructor
  · intro h
    have hliterals := h.literals
    rw [literals_oneLine] at hliterals
    have hfront : literals (front sql) = literals sql :=
      (literals_front_leading sql).eq_of_length (by rw [← hliterals, List.length_map])
    have hfixed : ∀ l ∈ literals sql, oneLine l = l := by
      rw [hfront] at hliterals
      exact List.map_inj_left.1 (hliterals.trans (List.map_id _).symm)
    exact ⟨hfixed, (sameQuery_front (by rwa [hfront])).symm.trans h⟩
  · rintro ⟨hfixed, hfront⟩
    refine (sameQuery_front ?_).trans hfront
    rwa [hfront.literals]

/-- The line end behind a comment is lost, and the table with it. -/
theorem not_sameQuery_comment :
    ¬SameQuery (oneLine "select id -- the key\nfrom t where id = :n")
      "select id -- the key\nfrom t where id = :n" := by
  intro h
  have hlist := h.list
  revert hlist
  decide +kernel

end Sql

end Scaffold
