import Scaffold.Proofs.Token.RawBlock

/-!
# Lexemes and gaps

What the lexer passes over in a text, told by the grammar of the language and not by how it is read.

* `Gap rest gap`: blanks and comments in front of `rest`.
* `Lexeme kind lexeme`: the characters of a token of this kind.
* `Passed c passed after`: from `c` to `after` the characters `passed` were read.
* `skipTrivia_passed`, `lexToken_passed`: between tokens the lexer passes gaps, and for a token it
  passes a lexeme of it.
-/

namespace Scaffold.Lexer

variable {c after after' : Cursor} {cs passed passed' rest body taken : List Char} {ch quote : Char}
  {p : Position} {mode : Option RawMode} {kind : TokenKind} {fuel : Nat}

/-! ## Gaps -/

/-- Blanks and comments in front of `rest`. A line comment ends in front of a line end, or with the
text; a block comment ends at the first `*/`. -/
inductive Gap (rest : List Char) : List Char → Prop
  | nil : Gap rest []
  | blank {c : Char} {gap : List Char} (hc : Text.isBlank c = true) (hgap : Gap rest gap) :
    Gap rest (c :: gap)
  | lineComment {body gap : List Char} (hbody : '\n' ∉ body)
    (hend : ∀ c ∈ (gap ++ rest).head?, c = '\n') (hgap : Gap rest gap) :
    Gap rest ('/' :: '/' :: (body ++ gap))
  | blockComment {body gap : List Char} (hbody : ¬['*', '/'] <:+: body) (hgap : Gap rest gap) :
    Gap rest ('/' :: '*' :: (body ++ '*' :: '/' :: gap))

/-! ## Lexemes -/

/-- A text and the characters between its quotes. -/
inductive QuotedText (quote : Char) : (text written : List Char) → Prop
  | nil : QuotedText quote [] []
  | plain {c : Char} {text written : List Char} (hquote : c ≠ quote) (hslash : c ≠ '\\')
    (h : QuotedText quote text written) : QuotedText quote (c :: text) (c :: written)
  | escaped (e : Char) {text written : List Char} (h : QuotedText quote text written) :
    QuotedText quote (unescape e :: text) ('\\' :: e :: written)

/-- A key of an annotation. -/
structure IsKey (key : List Char) : Prop where
  ne_nil : key ≠ []
  chars : ∀ c ∈ key, isKeyChar c = true

/-- A value of an annotation without quotes. -/
structure IsPlain (word : List Char) : Prop where
  chars : ∀ c ∈ word, c ≠ ',' ∧ c ≠ ']' ∧ c ≠ '\n'
  head : ∀ c ∈ word.head?, c ≠ '"' ∧ c ≠ '\''
  shown : Text.trimChars word ≠ []

/-- A value of an annotation and its characters. -/
inductive ValueText : AnnotationValue → List Char → Prop
  | quoted {quote : Char} {text written : List Char} (hquote : quote = '"' ∨ quote = '\'')
    (h : QuotedText quote text written) :
    ValueText (.str (String.ofList text)) (quote :: (written ++ [quote]))
  | plain {word : List Char} (h : IsPlain word) :
    ValueText (plainValue (String.ofList (Text.trimChars word))) word

/-- Blanks. -/
def Blanks (blanks : List Char) : Prop :=
  ∀ c ∈ blanks, Text.isBlank c = true

/-- A key with its value, or a flag, and its characters. -/
inductive PairText : String × AnnotationValue → List Char → Prop
  | flag {key blanks : List Char} (hkey : IsKey key) (hblanks : Blanks blanks) :
    PairText (String.ofList key, .bool true) (key ++ blanks)
  | value {key blanks blanks' written : List Char} {value : AnnotationValue} (hkey : IsKey key)
    (hblanks : Blanks blanks) (hblanks' : Blanks blanks') (hvalue : ValueText value written) :
    PairText (String.ofList key, value) (key ++ (blanks ++ '=' :: (blanks' ++ written)))

/-- Pairs and their characters, up to the closing bracket. -/
inductive PairsText : List (String × AnnotationValue) → List Char → Prop
  | nil {blanks : List Char} (hblanks : Blanks blanks) : PairsText [] (blanks ++ [']'])
  | last {pair : String × AnnotationValue} {blanks blanks' written : List Char}
    (hblanks : Blanks blanks) (hpair : PairText pair written) (hblanks' : Blanks blanks') :
    PairsText [pair] (blanks ++ (written ++ (blanks' ++ [']'])))
  | cons {pair : String × AnnotationValue} {pairs : List (String × AnnotationValue)}
    {blanks blanks' written more : List Char} (hblanks : Blanks blanks)
    (hpair : PairText pair written) (hblanks' : Blanks blanks') (hmore : PairsText pairs more) :
    PairsText (pair :: pairs) (blanks ++ (written ++ (blanks' ++ ',' :: more)))

/-- The text of a raw block: its braces are balanced, in SQL those outside of single quotes, which
are closed. -/
def IsRaw : RawMode → List Char → Prop
  | .sql, body => Enclosed body
  | .markup, body => Text.balanced 0 body = true

/-- A run of digits. -/
structure IsDigits (digits : List Char) : Prop where
  ne_nil : digits ≠ []
  chars : ∀ c ∈ digits, c.isDigit = true

/-- What the tokens of a kind are written as. -/
inductive Lexeme : TokenKind → List Char → Prop
  | punct (p : Punct) : Lexeme (.punct p) p.text.toList
  | keyword (k : Keyword) : Lexeme (.keyword k) k.text.toList
  | ident {name : String} (hname : isName name = true) : Lexeme (.ident name) name.toList
  | str {quote : Char} {text written : List Char} (hquote : quote = '"' ∨ quote = '\'')
    (h : QuotedText quote text written) :
    Lexeme (.str (String.ofList text)) (quote :: (written ++ [quote]))
  | int {digits : List Char} (hdigits : IsDigits digits)
    (hsmall : Number.digitsValue digits < Nat.pow 2 63) :
    Lexeme (.int (Number.digitsValue digits)) digits
  | float {whole fraction : List Char} (hwhole : IsDigits whole) (hfraction : IsDigits fraction) :
    Lexeme (.float (Binary64.ofMagnitude false (Number.DecimalText.magnitude ⟨whole, fraction, 0⟩)))
      (whole ++ '.' :: fraction)
  | annotations {pairs : List (String × AnnotationValue)} {written : List Char}
    (h : PairsText pairs written) : Lexeme (.annotations pairs) ('[' :: written)
  | raw {mode : RawMode} {body : List Char} (hbody : IsRaw mode body) :
    Lexeme (.raw (String.ofList (Text.trimChars body))) ('\x7b' :: (body ++ ['\x7d']))
  | eof : Lexeme .eof []

/-! ## What is passed -/

/-- From `c` to `after` the characters `passed` were read. -/
structure Passed (c : Cursor) (passed : List Char) (after : Cursor) : Prop where
  rest : c.rest = passed ++ after.rest
  pos : after.pos = c.pos.afterAll passed

namespace Passed

theorem refl (c : Cursor) : Passed c [] c :=
  ⟨rfl, rfl⟩

theorem trans (h : Passed c passed after) (h' : Passed after passed' after') :
    Passed c (passed ++ passed') after' :=
  ⟨by rw [h.rest, h'.rest, List.append_assoc], by rw [h'.pos, h.pos, Position.afterAll_append]⟩

theorem cons (h : Passed ⟨cs, p.after ch⟩ passed after) :
    Passed ⟨ch :: cs, p⟩ (ch :: passed) after :=
  ⟨congrArg (ch :: ·) h.rest, h.pos⟩

theorem skip (c : Cursor) (q : Char → Bool) : Passed c (c.run q) (c.skip q) :=
  ⟨List.takeWhile_append_dropWhile.symm, rfl⟩

theorem skipBlanks (c : Cursor) : ∃ blanks, Blanks blanks ∧ Passed c blanks c.skipBlanks :=
  ⟨_, fun _ hd => List.mem_takeWhile_imp hd, skip c Text.isBlank⟩

theorem drop (c : Cursor) (n : Nat) : Passed c (c.rest.take n) (c.drop n) :=
  ⟨(List.take_append_drop n c.rest).symm, rfl⟩

/-- A character that is read. -/
theorem drop_one (h : c.rest = ch :: rest) : Passed c [ch] (c.drop 1) := by
  have hdrop := drop c 1
  rwa [h] at hdrop

/-- Two characters that are read. -/
theorem drop_two {ch' : Char} (h : c.rest = ch :: rest) (hhead : rest.head? = some ch') :
    Passed c [ch, ch'] (c.drop 2) := by
  obtain ⟨rest, rfl⟩ := List.head?_eq_some_iff.1 hhead
  have hdrop := drop c 2
  rwa [h] at hdrop

end Passed

/-! ## Blanks and comments -/

/-- What is left of something that is skipped, and a gap behind it. -/
def Skipped (rest : List Char) : Trivia → List Char → Prop
  | .blanks, passed => Gap rest passed
  | .lineComment, passed => ∃ body gap, passed = body ++ gap ∧ '\n' ∉ body ∧
      (∀ c ∈ (gap ++ rest).head?, c = '\n') ∧ Gap rest gap
  | .blockComment _, passed => ∃ body gap, passed = body ++ '*' :: '/' :: gap ∧
      ¬['*', '/'] <:+: body ∧ Gap rest gap

theorem skipTrivia_skipped {trivia : Trivia} (h : skipTrivia trivia p cs = .ok after) :
    ∃ passed, Skipped after.rest trivia passed ∧ Passed ⟨cs, p⟩ passed after := by
  fun_induction skipTrivia trivia p cs with
  | case1 p cs ih =>
    obtain ⟨passed, ⟨body, gap, rfl, hbody, hend, hgap⟩, hpassed⟩ := ih h
    exact ⟨_, .lineComment hbody hend hgap, hpassed.cons.cons⟩
  | case2 p cs ih =>
    obtain ⟨passed, ⟨body, gap, rfl, hbody, hgap⟩, hpassed⟩ := ih h
    exact ⟨_, .blockComment hbody hgap, hpassed.cons.cons⟩
  | case3 p c cs _ _ hblank ih =>
    obtain ⟨passed, hgap, hpassed⟩ := ih h
    exact ⟨c :: passed, .blank hblank hgap, hpassed.cons⟩
  | case4 =>
    cases h
    exact ⟨[], .nil, .refl _⟩
  | case5 =>
    cases h
    exact ⟨[], .nil, .refl _⟩
  | case6 p c cs hend ih =>
    obtain ⟨passed, hgap, hpassed⟩ := ih h
    obtain rfl : c = '\n' := by simpa using hend
    exact ⟨'\n' :: passed, ⟨[], '\n' :: passed, rfl, by simp, by simp, .blank (by decide) hgap⟩,
      hpassed.cons⟩
  | case7 p c cs hend ih =>
    obtain ⟨passed, ⟨body, gap, rfl, hbody, hend', hgap⟩, hpassed⟩ := ih h
    have hne : '\n' ∉ c :: body := fun hmem =>
      (List.mem_cons.1 hmem).elim (fun hc => hend (by simp [← hc])) hbody
    exact ⟨c :: (body ++ gap), ⟨c :: body, gap, rfl, hne, hend', hgap⟩, hpassed.cons⟩
  | case8 =>
    cases h
    exact ⟨[], ⟨[], [], rfl, by simp, by simp, .nil⟩, .refl _⟩
  | case9 start p cs ih =>
    obtain ⟨passed, hgap, hpassed⟩ := ih h
    exact ⟨'*' :: '/' :: passed, ⟨[], passed, rfl, by simp, hgap⟩, hpassed.cons.cons⟩
  | case10 start p c cs hend ih =>
    obtain ⟨passed, ⟨body, gap, rfl, hbody, hgap⟩, hpassed⟩ := ih h
    refine ⟨c :: (body ++ '*' :: '/' :: gap), ⟨c :: body, gap, rfl, fun hpart => ?_, hgap⟩,
      hpassed.cons⟩
    obtain hfront | hpart := List.infix_cons_iff.1 hpart
    · obtain ⟨rfl, more, rfl⟩ := List.cons_prefix_cons.1 hfront
      exact hend _ rfl hpassed.rest
    · exact hbody hpart
  | case11 => cases h

/-- What is skipped in front of a token is a gap. -/
theorem skipTrivia_passed (h : skipTrivia .blanks c.pos c.rest = .ok after) :
    ∃ gap, Gap after.rest gap ∧ Passed c gap after :=
  skipTrivia_skipped h

/-! ## Quoted text -/

theorem readQuoted_passed (h : readQuoted quote p cs = some (taken, after)) :
    ∃ written, QuotedText quote taken written ∧ Passed ⟨cs, p⟩ (written ++ [quote]) after := by
  fun_induction readQuoted quote p cs generalizing taken with
  | case1 => cases h
  | case2 p c cs hquote =>
    cases h
    obtain rfl := beq_iff_eq.1 hquote
    exact ⟨[], .nil, .cons (.refl _)⟩
  | case3 => cases h
  | case4 p c hquote hslash e rest ih =>
    obtain ⟨⟨text, after'⟩, htext, heq⟩ := Option.map_eq_some_iff.1 h
    cases heq
    obtain ⟨written, hwritten, hpassed⟩ := ih htext
    obtain rfl := beq_iff_eq.1 hslash
    exact ⟨'\\' :: e :: written, .escaped e hwritten, hpassed.cons.cons⟩
  | case5 p c cs hquote hslash ih =>
    obtain ⟨⟨text, after'⟩, htext, heq⟩ := Option.map_eq_some_iff.1 h
    cases heq
    obtain ⟨written, hwritten, hpassed⟩ := ih htext
    exact ⟨c :: written, .plain (by simpa using hquote) (by simpa using hslash) hwritten,
      hpassed.cons⟩

theorem lexQuoted_passed {text : String} (hrest : c.rest = quote :: rest)
    (h : lexQuoted quote c = .ok (text, after)) :
    ∃ taken written, text = String.ofList taken ∧ QuotedText quote taken written ∧
      Passed c (quote :: (written ++ [quote])) after := by
  obtain ⟨_, p⟩ := c
  subst hrest
  unfold lexQuoted at h
  split at h
  · rename_i taken after' hread
    cases h
    obtain ⟨written, hwritten, hpassed⟩ := readQuoted_passed hread
    exact ⟨taken, written, rfl, hwritten, hpassed.cons⟩
  · cases h

/-! ## Raw blocks -/

theorem Delimits.exists_passed {read : Position → Option (List Char × Cursor)}
    (h : Delimits cs read) (hread : read p = some (taken, after)) :
    ∃ passed, Passed ⟨cs, p⟩ passed after := by
  cases h with
  | closed text passed rest hcs _ hall =>
    cases (hall p).symm.trans hread
    exact ⟨passed, hcs.symm, rfl⟩
  | unclosed hall => cases (hall p).symm.trans hread

/-- What the lexer takes as markup has balanced braces. -/
theorem balanced_of_readRaw (depth : Nat)
    (h : readRaw .markup (depth + 1) false p cs = some (taken, after)) :
    Text.balanced depth taken = true ∧ cs = taken ++ '\x7d' :: after.rest := by
  induction cs generalizing depth p taken with
  | nil => simp [readRaw] at h
  | cons c cs ih =>
    rw [readRaw] at h
    split at h
    · rename_i hclose
      cases h
      obtain ⟨rfl, rfl⟩ : c = '\x7d' ∧ depth = 0 := by simpa using hclose
      exact ⟨rfl, rfl⟩
    · rename_i hclose
      obtain ⟨⟨text, after'⟩, htext, heq⟩ := Option.map_eq_some_iff.1 h
      cases heq
      have hquote : (c == '\'' && RawMode.markup == .sql) = false := by simp
      rw [hquote] at htext
      by_cases hopening : c = '\x7b'
      · subst hopening
        obtain ⟨hbalanced, hcs⟩ := ih (depth + 1) htext
        exact ⟨hbalanced, congrArg ('\x7b' :: ·) hcs⟩
      by_cases hclosing : c = '\x7d'
      · subst hclosing
        obtain ⟨depth, rfl⟩ := Nat.exists_eq_succ_of_ne_zero (n := depth) (by simpa using hclose)
        obtain ⟨hbalanced, hcs⟩ := ih depth htext
        exact ⟨hbalanced, congrArg ('\x7d' :: ·) hcs⟩
      · obtain ⟨hbalanced, hcs⟩ := ih depth (by simpa [hopening, hclosing] using htext)
        rw [Text.balanced_cons ⟨hopening, hclosing⟩]
        exact ⟨hbalanced, congrArg (c :: ·) hcs⟩

theorem lexRaw_passed {mode : RawMode} (hrest : c.rest = '\x7b' :: rest)
    (h : lexRaw mode c = .ok (kind, after)) :
    ∃ lexeme, Lexeme kind lexeme ∧ Passed c lexeme after := by
  obtain ⟨_, p⟩ := c
  subst hrest
  unfold lexRaw at h
  split at h
  · rename_i taken after' hread
    cases h
    obtain ⟨passed, hpassed⟩ := (readRaw_delimits mode rest 1 false).exists_passed hread
    have hraw : IsRaw mode taken ∧ rest = taken ++ '\x7d' :: after.rest := by
      cases mode with
      | sql => exact encloses_of_readRaw hread
      | markup => exact balanced_of_readRaw 0 hread
    have hend : passed = taken ++ ['\x7d'] := by
      rw [← List.append_left_inj after.rest, ← hpassed.rest, List.append_assoc]
      exact hraw.2
    exact ⟨_, .raw hraw.1, hend ▸ hpassed.cons⟩
  · cases h

/-! ## Numbers and words -/

theorem isDigits_takeWhile (hch : ch.isDigit = true) (cs : List Char) :
    IsDigits ((ch :: cs).takeWhile Char.isDigit) :=
  ⟨List.ne_nil_of_length_pos (length_takeWhile_pos hch cs), fun _ hd => List.mem_takeWhile_imp hd⟩

theorem integer_passed {digits : List Char} {c' : Cursor} (hdigits : IsDigits digits)
    (hpassed : Passed c digits c') (h : lexNumber.integer c digits c' = .ok (kind, after)) :
    ∃ lexeme, Lexeme kind lexeme ∧ Passed c lexeme after := by
  unfold lexNumber.integer at h
  dsimp only at h
  split at h
  · rename_i hsmall
    cases h
    exact ⟨digits, .int hdigits hsmall, hpassed⟩
  · cases h

theorem lexNumber_passed (hrest : c.rest = ch :: rest) (hch : ch.isDigit = true)
    (h : lexNumber c = .ok (kind, after)) :
    ∃ lexeme, Lexeme kind lexeme ∧ Passed c lexeme after := by
  have hdigits : IsDigits (c.run Char.isDigit) := by
    rw [Cursor.run, hrest]
    exact isDigits_takeWhile hch rest
  have hwhole := Passed.skip c Char.isDigit
  unfold lexNumber at h
  dsimp only at h
  split at h
  · rename_i d more hpoint
    split at h
    · rename_i hd
      cases h
      have hfraction := Passed.drop (c.skip Char.isDigit)
        (((d :: more).takeWhile Char.isDigit).length + 1)
      rw [hpoint, List.take_succ_cons,
        ← List.prefix_iff_eq_take.1 (List.takeWhile_prefix Char.isDigit)] at hfraction
      exact ⟨_, .float hdigits (isDigits_takeWhile hd more), hwhole.trans hfraction⟩
    · exact integer_passed hdigits hwhole h
  · exact integer_passed hdigits hwhole h

theorem lexWord_passed (hrest : c.rest = ch :: rest) (hch : isNameStart ch = true) :
    ∃ lexeme, Lexeme (lexWord c).1 lexeme ∧ Passed c lexeme (lexWord c).2 := by
  have hrun : c.run isNameChar = ch :: rest.takeWhile isNameChar := by
    rw [Cursor.run, hrest, List.takeWhile_cons_of_pos (isNameChar_of_isNameStart hch)]
  have hpassed := Passed.skip c isNameChar
  refine ⟨c.run isNameChar, ?_, ?_⟩
  · unfold lexWord
    dsimp only
    split
    · rename_i k hk
      have htext := List.find?_some hk
      have hlexeme := Lexeme.keyword k
      rw [eq_of_beq htext, String.toList_ofList] at hlexeme
      exact hlexeme
    · rename_i hfree
      have hname : isName (String.ofList (c.run isNameChar)) = true := by
        have hall : (rest.takeWhile isNameChar).all isNameChar = true := List.all_takeWhile
        rw [hrun] at hfree ⊢
        rw [isName, String.toList_ofList]
        simp only [hch, hall, hfree, Option.isNone_none, Bool.and_true]
      have hlexeme := Lexeme.ident hname
      rw [String.toList_ofList] at hlexeme
      exact hlexeme
  · unfold lexWord
    dsimp only
    split <;> exact hpassed

/-! ## Annotations -/

theorem lexValue_passed {value : AnnotationValue} (h : lexValue c = .ok (value, after)) :
    ∃ written, ValueText value written ∧ Passed c written after := by
  unfold lexValue at h
  split at h
  · cases h
  · rename_i ch rest hrest
    dsimp only at h
    split at h
    · rename_i hquote
      obtain ⟨⟨text, after'⟩, hread, h⟩ := bind_ok h
      cases h
      obtain ⟨taken, written, rfl, hwritten, hpassed⟩ := lexQuoted_passed hrest hread
      exact ⟨_, .quoted (by simpa using hquote) hwritten, hpassed⟩
    · rename_i hquote
      split at h
      · cases h
      · rename_i hshown
        cases h
        refine ⟨_, .plain ⟨fun x hx => ?_, fun x hx => ?_, by simpa using hshown⟩, .skip c _⟩
        · simpa [and_assoc] using List.mem_takeWhile_imp hx
        · rw [Cursor.run, hrest, List.takeWhile_cons] at hx
          split at hx
          · cases hx
            simpa using hquote
          · cases hx

theorem lexPair_passed {pair : String × AnnotationValue} (h : lexPair c = .ok (pair, after)) :
    ∃ written, PairText pair written ∧ Passed c written after := by
  unfold lexPair at h
  dsimp only at h
  split at h
  · cases h
  · rename_i hne
    have hkey : IsKey (c.run isKeyChar) :=
      ⟨by simpa using hne, fun x hx => List.mem_takeWhile_imp hx⟩
    have hpassed := Passed.skip c isKeyChar
    obtain ⟨blanks, hblanks, hpassed'⟩ := Passed.skipBlanks (c.skip isKeyChar)
    split at h
    · rename_i more hsign
      obtain ⟨⟨value, after'⟩, hvalue, h⟩ := bind_ok h
      cases h
      obtain ⟨blanks', hblanks', hpassed''⟩ :=
        Passed.skipBlanks ((c.skip isKeyChar).skipBlanks.drop 1)
      obtain ⟨written, hwritten, hlast⟩ := lexValue_passed hvalue
      exact ⟨_, .value hkey hblanks hblanks' hwritten,
        hpassed.trans (hpassed'.trans ((Passed.drop_one hsign).trans (hpassed''.trans hlast)))⟩
    · cases h
      exact ⟨_, .flag hkey hblanks, hpassed.trans hpassed'⟩

theorem lexPairs_passed {pairs : List (String × AnnotationValue)}
    (h : lexPairs fuel c = .ok (pairs, after)) :
    ∃ written, PairsText pairs written ∧ Passed c written after := by
  induction fuel generalizing c pairs with
  | zero => cases h
  | succ fuel ih =>
    obtain ⟨blanks, hblanks, hpassed⟩ := Passed.skipBlanks c
    rw [lexPairs] at h
    dsimp only at h
    split at h
    · cases h
    · rename_i rest hclose
      cases h
      exact ⟨_, .nil hblanks, hpassed.trans (Passed.drop_one hclose)⟩
    · obtain ⟨⟨pair, after₁⟩, hread, h⟩ := bind_ok h
      obtain ⟨written, hpair, hpassed₁⟩ := lexPair_passed hread
      obtain ⟨blanks', hblanks', hpassed₂⟩ := Passed.skipBlanks after₁
      dsimp only at h
      split at h
      · cases h
      · rename_i rest hcomma
        obtain ⟨⟨pairs, after₂⟩, hmore, h⟩ := bind_ok h
        cases h
        obtain ⟨more, hpairs, hpassed₃⟩ := ih hmore
        exact ⟨_, .cons hblanks hpair hblanks' hpairs, hpassed.trans (hpassed₁.trans
          (hpassed₂.trans ((Passed.drop_one hcomma).trans hpassed₃)))⟩
      · rename_i rest hclose
        cases h
        exact ⟨_, .last hblanks hpair hblanks', hpassed.trans (hpassed₁.trans
          (hpassed₂.trans (Passed.drop_one hclose)))⟩
      · cases h

/-! ## Tokens -/

theorem single?_text {sign : Punct} (h : single? ch = some sign) : sign.text.toList = [ch] := by
  unfold single? at h
  split at h <;> cases h <;> rfl

theorem extensible?_text {second : Char} {short long : Punct}
    (h : extensible? ch = some (second, short, long)) :
    short.text.toList = [ch] ∧ long.text.toList = [ch, second] := by
  unfold extensible? at h
  split at h <;> cases h <;> exact ⟨rfl, rfl⟩

theorem doubled?_text {sign : Punct} (h : doubled? ch = some sign) :
    sign.text.toList = [ch, ch] := by
  unfold doubled? at h
  split at h <;> cases h <;> rfl

/-- A sign, which passes its characters. -/
theorem punct_passed {sign : Punct} (htext : sign.text.toList = cs) (h : Passed c cs after) :
    ∃ lexeme, Lexeme (.punct sign) lexeme ∧ Passed c lexeme after :=
  ⟨cs, htext ▸ .punct sign, h⟩

/-- For a token a lexeme of it is passed. -/
theorem lexToken_passed (hrest : c.rest = ch :: rest)
    (h : lexToken fuel mode ch c = .ok (kind, after)) :
    ∃ lexeme, Lexeme kind lexeme ∧ Passed c lexeme after := by
  have hhead : ∀ {ch'}, ((c.rest.drop 1).head? == some ch') = true → rest.head? = some ch' :=
    fun h => by simpa [hrest] using h
  unfold lexToken at h
  split at h
  · rename_i hraw
    obtain rfl : ch = '\x7b' := by simp_all
    exact lexRaw_passed hrest h
  split at h
  · cases h
    exact punct_passed (single?_text ‹_›) (.drop_one hrest)
  split at h
  · rename_i hsign
    obtain ⟨hshort, hlong⟩ := extensible?_text hsign
    split at h
    · cases h
      exact punct_passed hlong (.drop_two hrest (hhead ‹_›))
    · cases h
      exact punct_passed hshort (.drop_one hrest)
  split at h
  · split at h
    · cases h
      exact punct_passed (doubled?_text ‹_›) (.drop_two hrest (hhead ‹_›))
    · cases h
  split at h
  · rename_i hquote
    obtain ⟨⟨text, after'⟩, hread, h⟩ := bind_ok h
    cases h
    obtain ⟨taken, written, rfl, hwritten, hpassed⟩ := lexQuoted_passed hrest hread
    exact ⟨_, .str (by simpa using hquote) hwritten, hpassed⟩
  split at h
  · rename_i hopen
    obtain rfl : ch = '[' := by simpa using hopen
    obtain ⟨⟨pairs, after'⟩, hread, h⟩ := bind_ok h
    cases h
    obtain ⟨written, hpairs, hpassed⟩ := lexPairs_passed hread
    exact ⟨_, .annotations hpairs, (Passed.drop_one hrest).trans hpassed⟩
  split at h
  · exact lexNumber_passed hrest ‹_› h
  split at h
  · have hword := lexWord_passed hrest ‹_›
    rwa [Except.ok.inj h] at hword
  · cases h

end Scaffold.Lexer
