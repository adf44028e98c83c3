import Mathlib.Data.List.TakeWhile
import Scaffold.Proofs.Token.Lexing
import Scaffold.Sql.Parameter

/-!
# Regions of SQL text

Every character of SQL text stands in a region: in a quoted text, in a line comment, in a cast sign,
or outside of them. The regions are found by going through the text one character at a time
(`Region.step`), so they can be compared with what other readers of the same text make of it.

* `Reads cs ps`: the characters consist of these pieces; `reads_iff`: the scanner finds them.
* `Run.marksFrom`: the stretches that the scanner takes as they are, are exactly regions.
-/

namespace Scaffold.Sql

/-! ## Marked text -/

/-- Where a character of SQL text stands. -/
inductive Region where
  | plain
  | quoted (quote : Char)
  | comment
  | cast
  deriving DecidableEq

/-- The region of a character in front of `next`, and the region that it leaves open for `next`. A
doubled quote closes a quoted text and opens it again; a line end closes a comment and is not part
of it. -/
def Region.step (open? : Region) (c : Char) (next : Option Char) : Region × Region :=
  match open? with
  | .quoted quote => (.quoted quote, if c == quote then .plain else .quoted quote)
  | .comment => if c == '\n' then (.plain, .plain) else (.comment, .comment)
  | .cast => (.cast, .plain)
  | .plain =>
    if isQuote c then (.quoted c, .quoted c)
    else if c == '-' && next == some '-' then (.comment, .comment)
    else if c == ':' && next == some ':' then (.cast, .cast)
    else (.plain, .plain)

/-- Text whose characters are marked with their regions. -/
abbrev Marked : Type := List (Char × Region)

/-- The characters in their regions, behind text that leaves `open?` open. -/
def marksFrom : (open? : Region) → List Char → Marked
  | _, [] => []
  | open?, c :: cs =>
    let (region, after) := open?.step c cs.head?
    (c, region) :: marksFrom after cs

/-- SQL text with the region of each character. -/
def marked (sql : String) : Marked :=
  marksFrom .plain sql.toList

def inRegion (region : Region) (cs : List Char) : Marked :=
  cs.map fun c => (c, region)

def Marked.text (m : Marked) : String :=
  String.ofList (m.map (·.1))

variable {quote c : Char} {cs inside run name rest : List Char} {region : Region}
  {next : Option Char} {ps : List Piece}

@[simp] theorem map_fst_inRegion (region : Region) (cs : List Char) :
    (inRegion region cs).map (·.1) = cs := by
  rw [inRegion, List.map_map]
  exact List.map_id cs

@[simp] theorem map_fst_marksFrom (open? : Region) (cs : List Char) :
    (marksFrom open? cs).map (·.1) = cs := by
  induction cs generalizing open? with
  | nil => rfl
  | cons c cs ih => rw [marksFrom, List.map_cons, ih]

/-! ## Quoted text -/

/-- The inside of a quoted text: every quote in it is doubled. -/
inductive Inside (quote : Char) : List Char → Prop where
  | nil : Inside quote []
  | char {c : Char} {cs : List Char} (hc : c ≠ quote) (h : Inside quote cs) : Inside quote (c :: cs)
  | doubled {cs : List Char} (h : Inside quote cs) : Inside quote (quote :: quote :: cs)

theorem quotedTail_char (hc : c ≠ quote) (cs : List Char) :
    quotedTail quote (c :: cs) = c :: quotedTail quote cs := by
  rw [quotedTail.eq_def]
  simp [hc]

theorem quotedTail_doubled (quote : Char) (cs : List Char) :
    quotedTail quote (quote :: quote :: cs) = quote :: quote :: quotedTail quote cs := by
  rw [quotedTail.eq_def]
  simp

theorem quotedTail_quote (hnext : rest.head? ≠ some quote) :
    quotedTail quote (quote :: rest) = [quote] := by
  rw [quotedTail.eq_def]
  cases rest <;> simp_all

theorem quotedTail_closed (h : Inside quote inside) (hnext : rest.head? ≠ some quote) :
    quotedTail quote (inside ++ quote :: rest) = inside ++ [quote] := by
  induction h with
  | nil => exact quotedTail_quote hnext
  | char hc _ ih => rw [List.cons_append, quotedTail_char hc, ih, List.cons_append]
  | doubled _ ih =>
    rw [List.cons_append, List.cons_append, quotedTail_doubled, ih, List.cons_append,
      List.cons_append]

theorem quotedTail_unclosed (h : Inside quote inside) : quotedTail quote inside = inside := by
  induction h with
  | nil => rfl
  | char hc _ ih => rw [quotedTail_char hc, ih]
  | doubled _ ih => rw [quotedTail_doubled, ih]

/-- Behind an opening quote stands a text up to its closing quote, or one that is never closed. -/
theorem exists_inside (quote : Char) (cs : List Char) :
    (∃ inside rest, cs = inside ++ quote :: rest ∧ Inside quote inside ∧ rest.head? ≠ some quote) ∨
      Inside quote cs := by
  induction cs using quotedTail.induct quote with
  | case1 => exact .inr .nil
  | case2 c hc d ds hd ih =>
    obtain rfl : c = quote := by simpa using hc
    obtain rfl : d = c := by simpa using hd
    refine ih.imp ?_ .doubled
    rintro ⟨inside, rest, rfl, hin, hrest⟩
    exact ⟨d :: d :: inside, rest, rfl, .doubled hin, hrest⟩
  | case3 c hc d ds hd =>
    obtain rfl : c = quote := by simpa using hc
    exact .inl ⟨[], d :: ds, rfl, .nil, by simpa using hd⟩
  | case4 c hc =>
    obtain rfl : c = quote := by simpa using hc
    exact .inl ⟨[], [], rfl, .nil, by simp⟩
  | case5 c cs hc ih =>
    have hc' : c ≠ quote := by simpa using hc
    refine ih.imp ?_ (.char hc')
    rintro ⟨inside, rest, rfl, hin, hrest⟩
    exact ⟨c :: inside, rest, rfl, .char hc' hin, hrest⟩

/-! ## What a text consists of -/

/-- A stretch of SQL text in one region, in front of `next`. -/
inductive Run : List Char → Region → Option Char → Prop where
  | literal {quote : Char} {inside : List Char} {next : Option Char} (hquote : isQuote quote = true)
    (hin : Inside quote inside) (hnext : next ≠ some quote) :
    Run (quote :: (inside ++ [quote])) (.quoted quote) next
  | unclosed {quote : Char} {inside : List Char} (hquote : isQuote quote = true)
    (hin : Inside quote inside) : Run (quote :: inside) (.quoted quote) none
  | comment {text : List Char} {next : Option Char} (htext : '\n' ∉ text)
    (hnext : ∀ c ∈ next, c = '\n') : Run ('-' :: '-' :: text) .comment next
  | cast {next : Option Char} : Run [':', ':'] .cast next

def isName (name : List Char) : Bool :=
  name.head?.any Lexer.isNameStart && name.all Lexer.isNameChar

/-- Nothing starts with this character in front of `next`: no stretch in a region, no parameter. -/
structure Loose (c : Char) (next : Option Char) : Prop where
  quote : isQuote c = false
  comment : c = '-' → next ≠ some '-'
  colon : c = ':' → ∀ d ∈ next, d ≠ ':' ∧ Lexer.isNameStart d = false

/-- The characters are made of these pieces. -/
inductive Reads : List Char → List Piece → Prop where
  | done : Reads [] []
  | run {run rest : List Char} {region : Region} {ps : List Piece}
    (hrun : Run run region rest.head?)
    (hrest : Reads rest ps) : Reads (run ++ rest) (verbatim run ++ ps)
  | param {name rest : List Char} {ps : List Piece} (hname : isName name = true)
    (hnext : ∀ c ∈ rest.head?, Lexer.isNameChar c = false) (hrest : Reads rest ps) :
    Reads (':' :: (name ++ rest)) (.param (String.ofList name) :: ps)
  | loose {c : Char} {rest : List Char} {ps : List Piece} (hc : Loose c rest.head?)
    (hrest : Reads rest ps) : Reads (c :: rest) (.char c :: ps)

theorem piecesFrom_skip (passed rest : List Char) :
    piecesFrom passed.length (passed ++ rest) = piecesFrom 0 rest := by
  induction passed with
  | nil => rfl
  | cons c passed ih => exact ih

theorem isName_cons (h : isName name = true) :
    ∃ c more, name = c :: more ∧ Lexer.isNameStart c = true ∧
      ∀ c ∈ name, Lexer.isNameChar c = true := by
  cases name with
  | nil => simp [isName] at h
  | cons c more => exact ⟨c, more, rfl, by simpa [isName] using h⟩

theorem piecesFrom_quote (h : isQuote quote = true) (cs : List Char) :
    piecesFrom 0 (quote :: cs) =
      verbatim (quote :: quotedTail quote cs) ++ piecesFrom (quotedTail quote cs).length cs := by
  rw [piecesFrom, if_pos h]

/-- The scanner takes a stretch as it is. -/
theorem Run.piecesFrom (h : Run run region next) (hnext : rest.head? = next) :
    piecesFrom 0 (run ++ rest) = verbatim run ++ piecesFrom 0 rest := by
  cases h with
  | @literal quote inside _ hquote hin hne =>
    have hskip := piecesFrom_skip (inside ++ [quote]) rest
    rw [List.append_assoc, List.singleton_append] at hskip
    rw [List.cons_append, List.append_assoc, List.singleton_append, piecesFrom_quote hquote,
      quotedTail_closed hin (hnext ▸ hne), hskip]
  | @unclosed quote inside hquote hin =>
    obtain rfl := List.head?_eq_none_iff.1 hnext
    have hskip := piecesFrom_skip inside []
    rw [List.append_nil] at hskip ⊢
    rw [piecesFrom_quote hquote, quotedTail_unclosed hin, hskip]
  | @comment text _ htext hend =>
    have hcomment : ('-' :: text ++ rest).takeWhile (· != '\n') = '-' :: text := by
      refine (Lexer.span_append (List.forall_mem_cons.2 ⟨by decide, fun c hc => ?_⟩) ?_).1
      · exact bne_iff_ne.2 fun heq => htext (heq ▸ hc)
      · rw [hnext]
        exact fun c hc => by rw [hend c hc]; decide
    have hskip := piecesFrom_skip ('-' :: text) rest
    rw [List.cons_append, Sql.piecesFrom, if_neg (by decide), if_pos (by simp)]
    dsimp only
    rw [hcomment, hskip]
  | cast => rfl

/-- The scanner finds the pieces. -/
theorem Reads.piecesFrom_eq (h : Reads cs ps) : piecesFrom 0 cs = ps := by
  induction h with
  | done => rfl
  | run hrun _ ih => rw [hrun.piecesFrom rfl, ih]
  | @param name rest ps hname hnext hrest ih =>
    obtain ⟨c, more, hcons, hstart, hall⟩ := isName_cons hname
    have hcolon : c ≠ ':' := by
      rintro rfl
      exact absurd hstart (by decide)
    have hhead : (name ++ rest).head? = some c := by rw [hcons]; rfl
    rw [piecesFrom, if_neg (by decide), if_neg (by simp), if_neg (by simpa [hhead] using hcolon),
      if_pos (by simp [hhead, hstart])]
    dsimp only
    rw [(Lexer.span_append hall hnext).1, piecesFrom_skip, ih]
  | @loose c rest ps hc hrest ih =>
    have hcolon : c = ':' → rest.head? ≠ some ':' := fun h heq => (hc.colon h ':' heq).1 rfl
    have hparam : c = ':' → rest.head?.any Lexer.isNameStart = false := fun h => by
      cases hnext : rest.head? with
      | none => rfl
      | some d => exact (hc.colon h d hnext).2
    rw [piecesFrom, if_neg (by simp [hc.quote]), if_neg (by simpa using hc.comment),
      if_neg (by simpa using hcolon), if_neg (by simpa using hparam), ih]

theorem head?_dropWhile {p : Char → Bool} (cs : List Char) :
    ∀ c ∈ (cs.dropWhile p).head?, p c = false := by
  rw [← List.find?_not_eq_head?_dropWhile]
  exact fun c hc => by simpa using List.find?_some hc

/-- Every text is made of the pieces that the scanner finds. -/
theorem exists_reads : (cs : List Char) → ∃ ps, Reads cs ps
  | [] => ⟨[], .done⟩
  | c :: cs => by
    by_cases hquote : isQuote c = true
    · obtain ⟨inside, rest, rfl, hin, hnext⟩ | hin := exists_inside c cs
      · obtain ⟨ps, hps⟩ := exists_reads rest
        have hall := Reads.run (.literal hquote hin hnext) hps
        rw [List.cons_append, List.append_assoc] at hall
        exact ⟨_, hall⟩
      · have hall := Reads.run (.unclosed hquote hin : Run (c :: cs) _ [].head?) .done
        rw [List.append_nil] at hall
        exact ⟨_, hall⟩
    by_cases hcomment : c = '-' ∧ cs.head? = some '-'
    · obtain ⟨rfl, hhead⟩ := hcomment
      obtain ⟨cs, rfl⟩ := List.head?_eq_some_iff.1 hhead
      obtain ⟨ps, hps⟩ := exists_reads (cs.dropWhile (· != '\n'))
      have hall := Reads.run (.comment ?_ ?_ : Run ('-' :: '-' :: cs.takeWhile (· != '\n')) _ _) hps
      · rw [List.cons_append, List.cons_append, List.takeWhile_append_dropWhile] at hall
        exact ⟨_, hall⟩
      · exact fun h => absurd (List.mem_takeWhile_imp h) (by decide)
      · exact fun d hd => by simpa using head?_dropWhile cs d hd
    by_cases hcast : c = ':' ∧ cs.head? = some ':'
    · obtain ⟨rfl, hhead⟩ := hcast
      obtain ⟨cs, rfl⟩ := List.head?_eq_some_iff.1 hhead
      obtain ⟨ps, hps⟩ := exists_reads cs
      exact ⟨_, .run .cast hps⟩
    by_cases hparam : c = ':' ∧ cs.head?.any Lexer.isNameStart = true
    · obtain ⟨rfl, hstart⟩ := hparam
      obtain ⟨ps, hps⟩ := exists_reads (cs.dropWhile Lexer.isNameChar)
      have hname : isName (cs.takeWhile Lexer.isNameChar) = true := by
        cases cs with
        | nil => cases hstart
        | cons d cs =>
          have hd : Lexer.isNameStart d = true := hstart
          have hall : ((d :: cs).takeWhile Lexer.isNameChar).all Lexer.isNameChar = true :=
            List.all_eq_true.2 fun _ => List.mem_takeWhile_imp
          rw [isName, hall, List.takeWhile_cons_of_pos (Lexer.isNameChar_of_isNameStart hd)]
          simpa using hd
      have hall := Reads.param hname (head?_dropWhile cs) hps
      rw [List.takeWhile_append_dropWhile] at hall
      exact ⟨_, hall⟩
    · obtain ⟨ps, hps⟩ := exists_reads cs
      refine ⟨_, .loose ⟨by simpa using hquote, fun h h' => hcomment ⟨h, h'⟩, fun h d hd => ?_⟩ hps⟩
      have hne : d ≠ ':' := fun hcolon => hcast ⟨h, hcolon ▸ hd⟩
      have hstart : ¬Lexer.isNameStart d = true := fun hstart =>
        hparam ⟨h, by rw [hd]; exact hstart⟩
      exact ⟨hne, by simpa using hstart⟩
termination_by cs => cs.length
decreasing_by
  all_goals
    have hcomment := (List.dropWhile_suffix (l := cs) (· != '\n')).length_le
    have hname := (List.dropWhile_suffix (l := cs) Lexer.isNameChar).length_le
    simp_all
    try omega

theorem reads_iff : Reads cs ps ↔ piecesFrom 0 cs = ps := by
  refine ⟨Reads.piecesFrom_eq, ?_⟩
  rintro rfl
  obtain ⟨ps, hps⟩ := exists_reads cs
  rwa [hps.piecesFrom_eq]

/-! ## Regions -/

theorem marksFrom_cons (open? : Region) (c : Char) (cs : List Char) :
    marksFrom open? (c :: cs) =
      (c, (open?.step c cs.head?).1) :: marksFrom (open?.step c cs.head?).2 cs := rfl

theorem Region.step_opening (h : isQuote quote = true) (next : Option Char) :
    Region.plain.step quote next = (.quoted quote, .quoted quote) := by
  rw [Region.step, if_pos h]

theorem Region.step_closing (quote : Char) (next : Option Char) :
    (Region.quoted quote).step quote next = (.quoted quote, .plain) := by
  rw [Region.step, if_pos (beq_self_eq_true quote)]

theorem Region.step_inside (h : c ≠ quote) (next : Option Char) :
    (Region.quoted quote).step c next = (.quoted quote, .quoted quote) := by
  rw [Region.step, if_neg (by simpa using h)]

theorem Region.step_comment (h : c ≠ '\n') (next : Option Char) :
    Region.comment.step c next = (.comment, .comment) := by
  rw [Region.step, if_neg (by simpa using h)]

theorem isQuote_iff : isQuote c = true ↔ c = '\'' ∨ c = '"' ∨ c = Char.ofNat 0x60 := by
  simp [isQuote, or_assoc]

theorem Loose.step (h : Loose c next) : Region.step .plain c next = (.plain, .plain) := by
  rw [Region.step, if_neg (by simp [h.quote]), if_neg (by simpa using h.comment), if_neg]
  rw [Bool.and_eq_true, beq_iff_eq, beq_iff_eq]
  exact fun ⟨hc, hnext⟩ => (h.colon hc ':' hnext).1 rfl

theorem loose_of_isNameChar (h : Lexer.isNameChar c = true) (next : Option Char) :
    Loose c next := by
  refine ⟨?_, ?_, ?_⟩
  · refine Bool.eq_false_iff.2 fun hquote => ?_
    obtain rfl | rfl | rfl := isQuote_iff.1 hquote <;> exact absurd h (by decide)
  · rintro rfl
    exact absurd h (by decide)
  · rintro rfl
    exact absurd h (by decide)

theorem marksFrom_name (h : ∀ c ∈ name, Lexer.isNameChar c = true) (rest : List Char) :
    marksFrom .plain (name ++ rest) = inRegion .plain name ++ marksFrom .plain rest := by
  induction name with
  | nil => rfl
  | cons c name ih =>
    obtain ⟨hc, hname⟩ := List.forall_mem_cons.1 h
    rw [List.cons_append, marksFrom_cons, (loose_of_isNameChar hc _).step, ih hname]
    rfl

theorem marksFrom_closed (hquote : isQuote quote = true) (h : Inside quote inside)
    (rest : List Char) : marksFrom (.quoted quote) (inside ++ quote :: rest) =
      inRegion (.quoted quote) (inside ++ [quote]) ++ marksFrom .plain rest := by
  induction h with
  | nil =>
    rw [List.nil_append, marksFrom_cons, Region.step_closing]
    rfl
  | char hc _ ih =>
    rw [List.cons_append, marksFrom_cons, Region.step_inside hc, ih]
    rfl
  | doubled _ ih =>
    rw [List.cons_append, List.cons_append, marksFrom_cons, Region.step_closing, marksFrom_cons,
      Region.step_opening hquote, ih]
    rfl

theorem marksFrom_unclosed (hquote : isQuote quote = true) (h : Inside quote inside) :
    marksFrom (.quoted quote) inside = inRegion (.quoted quote) inside := by
  induction h with
  | nil => rfl
  | char hc _ ih =>
    rw [marksFrom_cons, Region.step_inside hc, ih]
    rfl
  | doubled _ ih =>
    rw [marksFrom_cons, Region.step_closing, marksFrom_cons, Region.step_opening hquote, ih]
    rfl

theorem marksFrom_comment (h : '\n' ∉ cs) (hend : ∀ c ∈ rest.head?, c = '\n') :
    marksFrom .comment (cs ++ rest) = inRegion .comment cs ++ marksFrom .plain rest := by
  induction cs with
  | nil =>
    cases rest with
    | nil => rfl
    | cons c rest =>
      obtain rfl := hend c rfl
      rfl
  | cons c cs ih =>
    obtain ⟨hc, hcs⟩ := not_or.1 (mt List.mem_cons.2 h)
    rw [List.cons_append, marksFrom_cons, Region.step_comment (Ne.symm hc), ih hcs]
    rfl

/-- A stretch is in its region, and leaves nothing open. -/
theorem Run.marksFrom (h : Run run region next) (hnext : rest.head? = next) :
    marksFrom .plain (run ++ rest) = inRegion region run ++ marksFrom .plain rest := by
  cases h with
  | literal hquote hin _ =>
    rw [List.cons_append, List.append_assoc, List.singleton_append, marksFrom_cons,
      Region.step_opening hquote, marksFrom_closed hquote hin]
    rfl
  | unclosed hquote hin =>
    obtain rfl := List.head?_eq_none_iff.1 hnext
    rw [List.append_nil, marksFrom_cons, Region.step_opening hquote, marksFrom_unclosed hquote hin]
    exact (List.append_nil _).symm
  | @comment text _ htext hend =>
    have hstep : Region.plain.step '-' ('-' :: text ++ rest).head? = (.comment, .comment) := by
      simp [Region.step, isQuote]
    rw [List.cons_append, marksFrom_cons, hstep, marksFrom_comment (by simp [htext]) (hnext ▸ hend)]
    rfl
  | cast => rfl

end Scaffold.Sql
