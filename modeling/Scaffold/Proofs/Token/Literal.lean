import Scaffold.Proofs.Target.Quoting
import Scaffold.Proofs.Token.Annotation
import Scaffold.Proofs.Token.RawBlock

/-!
# String literals of the source language

What is escaped for a string literal is what the lexer reads back, at any place where a token may
start and whatever stands behind the literal.

* `tokensAt`: the tokens from a place on.
* `quotedText_escapedChars`: the lexer's escapes and those that are written are the same.
* `tokensAt_escape`: a literal is one token, and lexing goes on behind it.
-/

namespace Scaffold.Lexer

variable {c : Char} {quote : Char} {text written before after : List Char}

/-! ## Lexing from a place on -/

def tokensAt (mode : Option RawMode) (c : Cursor) : Except Mismatch (List Token) :=
  tokens (c.rest.length + 1) mode c

theorem tokenize_eq_tokensAt (source : String) :
    tokenize source = tokensAt none ⟨source.toList, {}⟩ :=
  rfl

theorem tokens_eq_tokensAt {fuel : Nat} (mode : Option RawMode) {c : Cursor}
    (h : c.rest.length < fuel) : tokens fuel mode c = tokensAt mode c :=
  tokens_fuel mode h (Nat.lt_succ_self _)

/-- One token, and what is behind it. -/
theorem tokensAt_step {mode mode' : Option RawMode} {c after : Cursor} {ch : Char}
    {more : List Char} {kind : TokenKind} (hrest : c.rest = ch :: more)
    (hstart : StartsToken ch more)
    (htoken : lexToken c.rest.length mode ch c = .ok (kind, after))
    (hmode : nextMode mode kind = mode') :
    tokensAt mode c = (tokensAt mode' after).map (⟨kind, c.pos⟩ :: ·) := by
  have hskip : skipTrivia .blanks c.pos c.rest = .ok c := by
    have hstay := skipTrivia_of_startsToken hstart c.pos
    rwa [← hrest] at hstay
  rw [tokensAt, tokens_step htoken hskip hrest hmode,
    tokens_eq_tokensAt mode' (lexToken_length hrest htoken)]

/-! ## Escapes -/

theorem unescape_of_mem_escapes : ∀ x ∈ escapes, unescape x.2 = x.1 := by
  decide

/-- What is escaped means the text that was escaped. -/
theorem quotedText_escapedChars (s : List Char) : QuotedText '"' s (escapedChars s) := by
  induction s with
  | nil => exact .nil
  | cons c s ih =>
    rw [escapedChars_cons]
    obtain ⟨e, he, hwritten⟩ | ⟨hplain, hwritten⟩ := escapeChar_cases c
    · have hread : unescape e = c := unescape_of_mem_escapes (c, e) he
      rw [hwritten, ← hread]
      exact .escaped e ih
    · rw [hwritten]
      refine .plain ?_ ?_ ih
      · rintro rfl
        exact hplain (by decide)
      · rintro rfl
        exact hplain (by decide)

/-- Texts that are written alike are equal. -/
theorem QuotedText.unique {text' : List Char} (hquote : quote ≠ '\\')
    (h : QuotedText quote text written) (h' : QuotedText quote text' written) : text = text' := by
  have hread : readQuoted quote {} (written ++ [quote]) = _ := readQuoted_written hquote h {}
  rw [readQuoted_written hquote h' {}] at hread
  cases hread
  rfl

theorem escape_injective : Function.Injective Naming.escape := by
  intro s s' heq
  have hs := quotedText_escapedChars s.toList
  rw [← toList_escape, heq, toList_escape] at hs
  exact String.toList_injective (hs.unique (by decide) (quotedText_escapedChars s'.toList))

/-! ## Quotes inside -/

/-- How many backslashes stand at the end of a text. -/
def slashesBehind (cs : List Char) : Nat :=
  (cs.reverse.takeWhile (· == '\\')).length

theorem slashesBehind_cons (hslash : c ≠ '\\') (cs : List Char) :
    slashesBehind (c :: cs) = slashesBehind cs := by
  simp only [slashesBehind, List.reverse_cons, List.takeWhile_append]
  split
  · rename_i hall
    simp [hslash, ← hall]
  · rfl

/-- A pair of a backslash and what it escapes does not change which of the following are escaped. -/
theorem slashesBehind_escaped (e : Char) (cs : List Char) :
    slashesBehind ('\\' :: e :: cs) % 2 = slashesBehind cs % 2 := by
  by_cases he : e = '\\'
  · subst he
    simp only [slashesBehind, List.reverse_cons, List.append_assoc, List.takeWhile_append]
    split
    · rename_i hall
      simp [hall]
    · rfl
  · have hcons : slashesBehind ('\\' :: e :: cs) = slashesBehind (e :: cs) := by
      simp only [slashesBehind, List.reverse_cons, List.append_assoc]
      simp [List.takeWhile_append, he]
    rw [hcons, slashesBehind_cons he]

/-- A quote inside a quoted text is escaped: the run of backslashes in front of it does not pair
up. -/
theorem QuotedText.escaped_quote (hquote : quote ≠ '\\') (h : QuotedText quote text written)
    (hwritten : written = before ++ quote :: after) : slashesBehind before % 2 = 1 := by
  induction h generalizing before with
  | nil => simp at hwritten
  | plain hne hslash _ ih =>
    cases before with
    | nil => exact absurd (List.cons.inj hwritten).1 hne
    | cons x before =>
      rw [List.cons_append, List.cons.injEq] at hwritten
      obtain ⟨rfl, hwritten⟩ := hwritten
      rw [slashesBehind_cons hslash]
      exact ih hwritten
  | escaped e _ ih =>
    match before, hwritten with
    | [], hwritten => exact absurd (List.cons.inj hwritten).1.symm hquote
    | [x], hwritten =>
      obtain ⟨rfl, -⟩ := List.cons.inj hwritten
      rfl
    | x :: y :: before, hwritten =>
      rw [List.cons_append, List.cons_append, List.cons.injEq, List.cons.injEq] at hwritten
      obtain ⟨rfl, rfl, hwritten⟩ := hwritten
      rw [slashesBehind_escaped]
      exact ih hwritten

theorem not_mem_escapedChars (s : List Char) : ∀ c ∈ ['\n', '\r', '\t'], c ∉ escapedChars s := by
  intro c hc hmem
  have hraw : ∀ c ∈ ['\n', '\r', '\t'],
      c ∈ escapes.map (·.1) ∧ c ∉ '\\' :: escapes.map (·.2) := by
    simp [escapes]
  obtain ⟨-, hplain⟩ | hwritten := mem_of_mem_escapedChars hmem
  · exact hplain (hraw c hc).1
  · exact (hraw c hc).2 hwritten

/-! ## Reading a literal -/

/-- A text in quotes is one token. -/
theorem lexToken_quoted (h : QuotedText '"' text written) (fuel : Nat) (mode : Option RawMode)
    (rest : List Char) (p : Position) :
    lexToken fuel mode '"' ⟨'"' :: (written ++ '"' :: rest), p⟩ =
      .ok (.str (String.ofList text), ⟨rest, p.afterAll ('"' :: (written ++ ['"']))⟩) := by
  have hread := lexQuoted_written [] rest (p := p) (.inl rfl) h
  rw [List.nil_append] at hread
  change lexQuoted '"' ⟨'"' :: (written ++ '"' :: rest), p⟩ =
    .ok (String.ofList text, ⟨rest, p.afterAll ('"' :: (written ++ ['"']))⟩) at hread
  simp only [lexToken, single?, extensible?, doubled?, hread]
  rfl

/-- Lexing goes on right behind a text in quotes. -/
theorem tokensAt_quoted (h : QuotedText '"' text written) (rest : List Char)
    (mode : Option RawMode) (p : Position) :
    tokensAt mode ⟨'"' :: (written ++ '"' :: rest), p⟩ =
      (tokensAt mode ⟨rest, p.afterAll ('"' :: (written ++ ['"']))⟩).map
        (⟨.str (String.ofList text), p⟩ :: ·) :=
  tokensAt_step rfl (.of_ne (by decide) (by decide)) (lexToken_quoted h _ mode rest p) rfl

theorem tokensAt_nil (mode : Option RawMode) (p : Position) :
    tokensAt mode ⟨[], p⟩ = .ok [⟨.eof, p⟩] :=
  rfl

/-- Escaping and reading are inverse: wherever a token may start, an escaped text between double
quotes is read as that text, and lexing goes on with what stands behind the closing quote. As a whole
source, it is that one token. So texts that are escaped alike are equal, and what is escaped has no
line end, carriage return, tab or quote of its own: every quote in it is behind an odd run of
backslashes. -/
theorem tokensAt_escape :
    (∀ (s : String) (rest : List Char) (mode : Option RawMode) (p : Position),
      let written := '"' :: ((Naming.escape s).toList ++ ['"'])
      let behind : Cursor := ⟨rest, p.afterAll written⟩
      (∀ fuel, lexToken fuel mode '"' ⟨written ++ rest, p⟩ = .ok (.str s, behind)) ∧
      tokensAt mode ⟨written ++ rest, p⟩ = (tokensAt mode behind).map (⟨.str s, p⟩ :: ·)) ∧
    (∀ s : String, let written := "\"" ++ Naming.escape s ++ "\""
      tokenize written = .ok [⟨.str s, {}⟩, ⟨.eof, Position.afterAll {} written.toList⟩]) ∧
    Function.Injective Naming.escape ∧
    ∀ s : String, (∀ c ∈ ['\n', '\r', '\t'], c ∉ (Naming.escape s).toList) ∧
      ∀ before after, (Naming.escape s).toList = before ++ '"' :: after →
        slashesBehind before % 2 = 1 := by
  have hread : ∀ s : String, QuotedText '"' s.toList (Naming.escape s).toList := fun s => by
    rw [toList_escape]
    exact quotedText_escapedChars s.toList
  have hplace : ∀ (s : String) (rest : List Char), '"' :: ((Naming.escape s).toList ++ ['"']) ++ rest =
      '"' :: ((Naming.escape s).toList ++ '"' :: rest) := by simp
  refine ⟨fun s rest mode p => ⟨fun fuel => ?token, ?tokens⟩, fun s => ?whole, escape_injective,
    fun s => ⟨?_, fun before after hsplit => (hread s).escaped_quote (by decide) hsplit⟩⟩
  case token => simpa [hplace] using lexToken_quoted (hread s) fuel mode rest p
  case tokens => simpa [hplace] using tokensAt_quoted (hread s) rest mode p
  case whole =>
    have hquoted := tokensAt_quoted (hread s) [] none {}
    rw [tokensAt_nil, String.ofList_toList] at hquoted
    have htext : ("\"" ++ Naming.escape s ++ "\"").toList =
        '"' :: ((Naming.escape s).toList ++ ['"']) := by simp
    dsimp only
    rw [tokenize_eq_tokensAt, htext]
    exact hquoted
  · rw [toList_escape]
    exact not_mem_escapedChars s.toList

end Scaffold.Lexer
