import Mathlib.Data.List.Basic
import Mathlib.Data.Nat.Digits.Defs
import Scaffold.Naming
import Scaffold.Token.Lexer

/-!
# Lexing what was written

The tokens of a text that was written token by token. A token is read back from its spelling if what
follows does not continue it (`TokenKind.Ends`): a name is not followed by another character of a
name, a number not by a digit, a sign not by one that would make it longer.

* `Lexes cs ks`: the characters `cs` are lexed to tokens of the kinds `ks`, wherever they stand.
* `lexes_spelling`: a spelled token in front.
* `tokenize_spaced`: tokens with spaces between them.
-/

namespace Scaffold

namespace Text

/-- What holds of every character of the table of blanks. -/
theorem forall_of_isBlank {p : Char → Bool}
    (hall : ∀ span ∈ blankSpans, ∀ i ∈ List.range (span.last + 1 - span.first),
      p (Char.ofNat (span.first + i)) = true) {c : Char} (h : isBlank c = true) : p c = true := by
  obtain ⟨span, hspan, hc⟩ := List.any_eq_true.1 h
  simp only [Span.has, Bool.and_eq_true, decide_eq_true_eq] at hc
  have hi := hall span hspan (c.toNat - span.first) (List.mem_range.2 (by omega))
  rwa [show span.first + (c.toNat - span.first) = c.toNat by omega, Char.ofNat_toNat] at hi

theorem not_isAlnum_of_isBlank {c : Char} (h : isBlank c = true) : isAlnum c = false := by
  have halnum : (!isAlnum c) = true :=
    forall_of_isBlank (p := fun c => !isAlnum c) (by decide +kernel) h
  rwa [Bool.not_eq_true'] at halnum

theorem not_isLetter_of_isBlank {c : Char} (h : isBlank c = true) : isLetter c = false :=
  (Bool.or_eq_false_iff.1 (not_isAlnum_of_isBlank h)).1

end Text

namespace Lexer

/-- A reader that goes on with what another one has read. -/
theorem bind_ok {ε α β : Type} {r : Except ε α} {f : α → Except ε β} {b : β}
    (h : r >>= f = .ok b) : ∃ a, r = .ok a ∧ f a = .ok b := by
  cases r with
  | error e => cases h
  | ok a => exact ⟨a, rfl, h⟩

/-- The characters are lexed to tokens of these kinds. -/
def Lexes (cs : List Char) (ks : List TokenKind) : Prop :=
  ∀ fuel pos, cs.length < fuel →
    ∃ ts, tokens fuel none ⟨cs, pos⟩ = .ok ts ∧ ts.map (·.kind) = ks ++ [.eof]

variable {c : Char} {cs rest : List Char} {k : TokenKind} {ks : List TokenKind}

/-! ## Blanks -/

theorem lexes_nil : Lexes [] [] := by
  intro fuel pos hfuel
  obtain ⟨fuel, rfl⟩ := Nat.exists_eq_add_of_lt hfuel
  exact ⟨[⟨.eof, pos⟩], rfl, rfl⟩

theorem skipTrivia_of_blank (h : Text.isBlank c = true) (pos : Position) :
    skipTrivia .blanks pos (c :: cs) = skipTrivia .blanks (pos.after c) cs := by
  have hne : c ≠ '/' := by
    rintro rfl
    exact absurd h (by decide)
  rw [skipTrivia.eq_def]
  split <;> simp_all

theorem lexes_blank (h : Text.isBlank c = true) (hcs : Lexes cs ks) : Lexes (c :: cs) ks := by
  intro fuel pos hfuel
  obtain ⟨fuel, rfl⟩ := Nat.exists_eq_add_one.2 (show 0 < fuel by omega)
  obtain ⟨ts, hts, hks⟩ := hcs (fuel + 1) (pos.after c) (by rw [List.length_cons] at hfuel; omega)
  refine ⟨ts, ?_, hks⟩
  rw [← hts, tokens, tokens]
  simp only [skipTrivia_of_blank h]

/-- A character that starts a token. -/
def StartsToken (c : Char) (cs : List Char) : Prop :=
  Text.isBlank c = false ∧ (c = '/' → cs.head? ≠ some '/' ∧ cs.head? ≠ some '*')

theorem StartsToken.of_ne (hblank : Text.isBlank c = false) (hne : c ≠ '/') : StartsToken c cs :=
  ⟨hblank, fun h => absurd h hne⟩

theorem skipTrivia_of_startsToken (h : StartsToken c cs) (pos : Position) :
    skipTrivia .blanks pos (c :: cs) = .ok ⟨c :: cs, pos⟩ := by
  obtain ⟨hblank, hcomment⟩ := h
  rw [skipTrivia.eq_def]
  split <;> simp_all

/-- One token in front of others. -/
theorem lexes_cons (hstart : StartsToken c cs)
    (htoken : ∀ fuel pos, ∃ pos', lexToken fuel none c ⟨c :: cs, pos⟩ = .ok (k, ⟨rest, pos'⟩))
    (hmode : nextMode none k = none) (hlen : rest.length ≤ cs.length) (hrest : Lexes rest ks) :
    Lexes (c :: cs) (k :: ks) := by
  intro fuel pos hfuel
  obtain ⟨fuel, rfl⟩ := Nat.exists_eq_add_one.2 (show 0 < fuel by omega)
  obtain ⟨pos', hpos'⟩ := htoken fuel pos
  rw [List.length_cons] at hfuel
  obtain ⟨ts, hts, hks⟩ := hrest fuel pos' (by omega)
  refine ⟨⟨k, pos⟩ :: ts, ?_, by simp [hks]⟩
  rw [tokens]
  simp only [skipTrivia_of_startsToken hstart, bind, Except.bind, hpos', hmode, hts]
  rfl

/-! ## Signs -/

end Lexer

/-- The sign is not continued by what follows. -/
def Punct.Ends (p : Punct) (rest : List Char) : Prop :=
  match p with
  | .less | .greater | .assign | .bang => rest.head? ≠ some '='
  | .dot => rest.head? ≠ some '.'
  | .slash => rest.head? ≠ some '/' ∧ rest.head? ≠ some '*'
  | _ => True

namespace Lexer

variable {c : Char} {cs rest : List Char} {k : TokenKind} {ks : List TokenKind}

theorem lexes_single {p : Punct} (hp : single? c = some p) (hstart : StartsToken c rest)
    (h : Lexes rest ks) : Lexes (c :: rest) (.punct p :: ks) := by
  refine lexes_cons hstart (fun fuel pos => ⟨pos.after c, ?_⟩) rfl (Nat.le_refl _) h
  simp [lexToken, hp]
  rfl

theorem lexes_extensible {second : Char} {short long : Punct}
    (hp : single? c = none) (he : extensible? c = some (second, short, long))
    (hstart : StartsToken c rest) (hend : rest.head? ≠ some second) (h : Lexes rest ks) :
    Lexes (c :: rest) (.punct short :: ks) := by
  refine lexes_cons hstart (fun fuel pos => ⟨pos.after c, ?_⟩) rfl (Nat.le_refl _) h
  simp [lexToken, hp, he, hend]
  rfl

theorem lexes_long {second : Char} {short long : Punct}
    (hp : single? c = none) (he : extensible? c = some (second, short, long))
    (hstart : StartsToken c (second :: rest)) (h : Lexes rest ks) :
    Lexes (c :: second :: rest) (.punct long :: ks) := by
  refine lexes_cons hstart (fun fuel pos => ⟨(pos.after c).after second, ?_⟩) rfl
    (Nat.le_succ _) h
  simp [lexToken, hp, he]
  rfl

theorem lexes_doubled {p : Punct} (hp : single? c = none) (he : extensible? c = none)
    (hd : doubled? c = some p) (hstart : StartsToken c (c :: rest)) (h : Lexes rest ks) :
    Lexes (c :: c :: rest) (.punct p :: ks) := by
  refine lexes_cons hstart (fun fuel pos => ⟨(pos.after c).after c, ?_⟩) rfl (Nat.le_succ _) h
  simp [lexToken, hp, he, hd]
  rfl

theorem lexes_punct (p : Punct) (hend : p.Ends rest) (h : Lexes rest ks) :
    Lexes (p.text.toList ++ rest) (.punct p :: ks) := by
  cases p with
  | braceOpen | braceClose | parenOpen | parenClose | colon | semicolon | comma | atSign | plus
  | minus | star | percent => exact lexes_single rfl (.of_ne (by decide) (by decide)) h
  | slash => exact lexes_single rfl ⟨by decide, fun _ => hend⟩ h
  | less | greater | assign | bang | dot =>
    exact lexes_extensible rfl rfl (.of_ne (by decide) (by decide)) hend h
  | lessEq | greaterEq | equal | notEqual | range =>
    exact lexes_long rfl rfl (.of_ne (by decide) (by decide)) h
  | both | either => exact lexes_doubled rfl rfl rfl (.of_ne (by decide) (by decide)) h

/-! ## Words, numbers and texts -/

/-- A name that is not reserved. -/
def isName (name : String) : Bool :=
  match name.toList with
  | [] => false
  | c :: cs => isNameStart c && cs.all isNameChar && (Keyword.ofText? name).isNone

theorem isNameChar_of_isNameStart (h : isNameStart c = true) : isNameChar c = true := by
  simp only [isNameStart, isNameChar, Text.isAlnum, Bool.or_eq_true] at h ⊢
  exact h.imp .inl id

/-- The characters that a sign, a quoted text or a block of annotations starts with. -/
def signs : List Char :=
  ['\x7b', '\x7d', '(', ')', ':', ';', ',', '@', '+', '-', '*', '/', '%', '<', '>', '=', '!', '.',
    '&', '|', '"', '\'', '[']

theorem lexToken_of_not_mem_signs (h : c ∉ signs) (fuel : Nat) (cur : Cursor) :
    lexToken fuel none c cur =
      if c.isDigit then lexNumber cur
      else if isNameStart c then .ok (lexWord cur)
      else .error ⟨cur.pos, "a token", s!"'{c}'"⟩ := by
  have hsingle : single? c = none := by
    unfold single?
    split <;> first | rfl | exact absurd (by decide) h
  have hextensible : extensible? c = none := by
    unfold extensible?
    split <;> first | rfl | exact absurd (by decide) h
  have hdoubled : doubled? c = none := by
    unfold doubled?
    split <;> first | rfl | exact absurd (by decide) h
  have hquote : c ≠ '"' ∧ c ≠ '\'' ∧ c ≠ '[' := by
    refine ⟨?_, ?_, ?_⟩ <;> rintro rfl <;> exact absurd (by decide) h
  simp [lexToken, hsingle, hextensible, hdoubled, hquote]

theorem isDigit_cases (h : c.isDigit = true) :
    c ∉ signs ∧ Text.isBlank c = false ∧ isNameStart c = false := by
  have hall : ∀ i ∈ List.range 10, Char.ofNat (48 + i) ∉ signs ∧
      Text.isBlank (Char.ofNat (48 + i)) = false ∧ isNameStart (Char.ofNat (48 + i)) = false := by
    decide
  have hc : 48 ≤ c.toNat ∧ c.toNat ≤ 57 := by
    simp only [Char.isDigit, ge_iff_le, Bool.and_eq_true, decide_eq_true_eq] at h
    exact h
  have hi := hall (c.toNat - 48) (List.mem_range.2 (by omega))
  rwa [show 48 + (c.toNat - 48) = c.toNat by omega, Char.ofNat_toNat] at hi

theorem isNameStart_cases (h : isNameStart c = true) :
    c ∉ signs ∧ Text.isBlank c = false ∧ c.isDigit = false := by
  refine ⟨fun hmem => ?_, ?_, ?_⟩
  · have hall : signs.all (fun x => !isNameStart x) = true := by decide
    have hc := List.all_eq_true.1 hall c hmem
    rw [h] at hc
    cases hc
  · cases hblank : Text.isBlank c with
    | false => rfl
    | true =>
      rw [isNameStart, Text.not_isLetter_of_isBlank hblank, Bool.false_or] at h
      rw [eq_of_beq h] at hblank
      exact absurd hblank (by decide)
  · cases hdigit : c.isDigit with
    | false => rfl
    | true =>
      rw [(isDigit_cases hdigit).2.2] at h
      cases h

theorem startsToken_of_not_mem_signs (h : c ∉ signs) (hblank : Text.isBlank c = false) :
    StartsToken c cs :=
  .of_ne hblank fun hc => h (by rw [hc]; decide)

/-- A run of characters ends before one that does not belong to it. -/
theorem span_append {p : Char → Bool} {word : List Char} (hword : ∀ x ∈ word, p x = true)
    (hend : ∀ x ∈ rest.head?, p x = false) :
    (word ++ rest).takeWhile p = word ∧ (word ++ rest).dropWhile p = rest := by
  have hrest : rest.takeWhile p = [] ∧ rest.dropWhile p = rest := by
    cases rest with
    | nil => exact ⟨rfl, rfl⟩
    | cons x xs =>
      have hx : p x = false := hend x rfl
      simp [hx]
  rw [List.takeWhile_append_of_pos hword, List.dropWhile_append_of_pos hword, hrest.1, hrest.2,
    List.append_nil]
  exact ⟨rfl, rfl⟩

/-- The token of a word. -/
def wordKind (word : String) : TokenKind :=
  match Keyword.ofText? word with
  | some k => .keyword k
  | none => .ident word

theorem lexes_word {word : String} (hword : word.toList = c :: cs) (hc : isNameStart c = true)
    (hcs : ∀ x ∈ cs, isNameChar x = true) (hend : ∀ x ∈ rest.head?, isNameChar x = false)
    (hmode : nextMode none (wordKind word) = none) (h : Lexes rest ks) :
    Lexes (word.toList ++ rest) (wordKind word :: ks) := by
  obtain ⟨hsigns, hblank, hdigit⟩ := isNameStart_cases hc
  have hall : ∀ x ∈ word.toList, isNameChar x = true := by
    rw [hword]
    exact List.forall_mem_cons.2 ⟨isNameChar_of_isNameStart hc, hcs⟩
  obtain ⟨hrun, hskip⟩ := span_append hall hend
  have hlex : ∀ pos, lexWord ⟨word.toList ++ rest, pos⟩
      = (wordKind word, ⟨rest, pos.afterAll word.toList⟩) := by
    intro pos
    unfold lexWord wordKind Cursor.run Cursor.skip
    dsimp only
    rw [hrun, hskip, String.ofList_toList]
    cases Keyword.ofText? word <;> rfl
  rw [hword, List.cons_append] at hlex ⊢
  refine lexes_cons (startsToken_of_not_mem_signs hsigns hblank)
    (fun fuel pos => ⟨pos.afterAll (c :: cs), ?_⟩) hmode (by simp) h
  rw [lexToken_of_not_mem_signs hsigns, if_neg (by simp [hdigit]), if_pos hc, hlex]

theorem lexes_ident {name : String} (hname : isName name = true)
    (hend : ∀ x ∈ rest.head?, isNameChar x = false) (h : Lexes rest ks) :
    Lexes (name.toList ++ rest) (.ident name :: ks) := by
  unfold isName at hname
  split at hname
  · cases hname
  · rename_i c cs hcs
    simp only [Bool.and_eq_true, List.all_eq_true, Option.isNone_iff_eq_none] at hname
    obtain ⟨⟨hc, hall⟩, hfree⟩ := hname
    have hkind : wordKind name = .ident name := by rw [wordKind, hfree]
    rw [← hkind]
    exact lexes_word hcs hc hall hend (by rw [hkind]; rfl) h

theorem lexes_keyword {w : Keyword} (hw : nextMode none (.keyword w) = none)
    (hend : ∀ x ∈ rest.head?, isNameChar x = false) (h : Lexes rest ks) :
    Lexes (w.text.toList ++ rest) (.keyword w :: ks) := by
  have hkind : wordKind w.text = .keyword w := by cases w <;> decide
  obtain ⟨c, cs, hcs, hc, hall⟩ : ∃ c cs, w.text.toList = c :: cs ∧ isNameStart c = true ∧
      cs.all isNameChar = true := by
    cases w <;> exact ⟨_, _, rfl, by decide, by decide⟩
  rw [← hkind]
  exact lexes_word hcs hc (List.all_eq_true.1 hall) hend (by rw [hkind]; exact hw) h

theorem digitsValue_toDigits (n : Nat) : Number.digitsValue (Nat.toDigits 10 n) = n := by
  have h := Nat.ofDigitChars_ten_toDigits (n := n)
  rwa [Nat.ofDigitChars_eq_foldl] at h

/-- A number, up to what is neither a digit nor the start of a fraction. -/
theorem lexes_int {n : Nat} (hn : n < Nat.pow 2 63) (hend : ∀ x ∈ rest.head?, x.isDigit = false)
    (hpoint : ∀ d more, rest = '.' :: d :: more → d.isDigit = false) (h : Lexes rest ks) :
    Lexes (Nat.toDigits 10 n ++ rest) (.int n :: ks) := by
  have hall : ∀ x ∈ Nat.toDigits 10 n, x.isDigit = true := fun x hx =>
    Nat.isDigit_of_mem_toDigits (by decide) (by decide) hx
  obtain ⟨hrun, hskip⟩ := span_append hall hend
  have hlex : ∀ pos, lexNumber ⟨Nat.toDigits 10 n ++ rest, pos⟩
      = .ok (.int n, ⟨rest, pos.afterAll (Nat.toDigits 10 n)⟩) := by
    intro pos
    unfold lexNumber lexNumber.integer Cursor.run Cursor.skip
    dsimp only
    rw [hrun, hskip, digitsValue_toDigits, if_pos hn]
    split
    · rename_i d more
      rw [if_neg (by simp [hpoint d more rfl])]
    · rfl
  obtain ⟨c, cs, hcs⟩ := List.exists_cons_of_ne_nil (Nat.toDigits_ne_nil (b := 10) (n := n))
  have hc : c.isDigit = true := hall c (by rw [hcs]; exact List.mem_cons_self)
  obtain ⟨hsigns, hblank, -⟩ := isDigit_cases hc
  rw [hcs, List.cons_append] at hlex ⊢
  refine lexes_cons (startsToken_of_not_mem_signs hsigns hblank)
    (fun fuel pos => ⟨pos.afterAll (c :: cs), ?_⟩) rfl (by simp) h
  rw [lexToken_of_not_mem_signs hsigns, if_pos hc, hlex]

theorem readQuoted_end (pos : Position) :
    readQuoted '"' pos ('"' :: rest) = some ([], ⟨rest, pos.after '"'⟩) := by
  rw [readQuoted.eq_def]
  rfl

theorem readQuoted_plain (hquote : c ≠ '"') (hslash : c ≠ '\\') (pos : Position) :
    readQuoted '"' pos (c :: cs)
      = (readQuoted '"' (pos.after c) cs).map fun (text, after) => (c :: text, after) := by
  rw [readQuoted.eq_def]
  simp [hquote, hslash]

theorem readQuoted_escaped (e : Char) (pos : Position) :
    readQuoted '"' pos ('\\' :: e :: cs) = (readQuoted '"' ((pos.after '\\').after e) cs).map
      fun (text, after) => (unescape e :: text, after) := by
  rw [readQuoted.eq_def]
  rfl

/-- Quoted text reads as what was written between the quotes. -/
theorem readQuoted_escape (s : List Char) (pos : Position) : ∃ pos',
    readQuoted '"' pos (s.flatMap (fun c => (Naming.escapeChar c).toList) ++ '"' :: rest)
      = some (s, ⟨rest, pos'⟩) := by
  induction s generalizing pos with
  | nil => exact ⟨_, readQuoted_end pos⟩
  | cons c cs ih =>
    rw [List.flatMap_cons, List.append_assoc]
    generalize cs.flatMap (fun c => (Naming.escapeChar c).toList) ++ '"' :: rest = tail at ih ⊢
    have hescaped : ∀ e, unescape e = c → ∃ pos',
        readQuoted '"' pos ('\\' :: e :: tail) = some (c :: cs, ⟨rest, pos'⟩) := by
      intro e he
      obtain ⟨pos', htail⟩ := ih ((pos.after '\\').after e)
      exact ⟨pos', by rw [readQuoted_escaped, htail, ← he]; rfl⟩
    unfold Naming.escapeChar
    split
    · exact hescaped '\\' rfl
    · exact hescaped '"' rfl
    · exact hescaped 'n' rfl
    · exact hescaped 'r' rfl
    · exact hescaped 't' rfl
    · rename_i hslash hquote _ _ _
      obtain ⟨pos', htail⟩ := ih (pos.after c)
      refine ⟨pos', ?_⟩
      rw [Char.toString, String.toList_singleton, List.singleton_append,
        readQuoted_plain hquote hslash, htail]
      rfl

theorem lexes_str (s : String) (h : Lexes rest ks) :
    Lexes ('"' :: ((Naming.escape s).toList ++ '"' :: rest)) (.str s :: ks) := by
  have htext : (Naming.escape s).toList
      = s.toList.flatMap fun c => (Naming.escapeChar c).toList := by
    rw [Naming.escape, Text.mapEach, String.toList_ofList]
  rw [htext]
  refine lexes_cons (.of_ne (by decide) (by decide)) (fun fuel pos => ?_) rfl (by simp; omega) h
  obtain ⟨pos', hread⟩ : ∃ pos', readQuoted '"' (pos.after '"') (_ ++ '"' :: rest) = some _ :=
    readQuoted_escape s.toList (pos.after '"')
  refine ⟨pos', ?_⟩
  simp [lexToken, single?, extensible?, doubled?, lexQuoted, hread, bind, Except.bind]
  rfl

end Lexer

/-! ## Spelled tokens -/

namespace TokenKind

/-- How a token is written. -/
def spelling : TokenKind → List Char
  | .keyword k => k.text.toList
  | .punct p => p.text.toList
  | .ident name => name.toList
  | .str s => '"' :: ((Naming.escape s).toList ++ ['"'])
  | .int n => Nat.toDigits 10 n
  | _ => []

/-- A token that is written on its own and starts no raw block. -/
def IsSpelled : TokenKind → Prop
  | .keyword k => Lexer.nextMode none (.keyword k) = none
  | .punct _ => True
  | .ident name => Lexer.isName name = true
  | .str _ => True
  | .int n => n < Nat.pow 2 63
  | _ => False

/-- The token is not continued by what follows. -/
def Ends (k : TokenKind) (rest : List Char) : Prop :=
  match k with
  | .keyword _ | .ident _ => ∀ x ∈ rest.head?, Lexer.isNameChar x = false
  | .int _ => (∀ x ∈ rest.head?, x.isDigit = false) ∧
      ∀ d more, rest = '.' :: d :: more → d.isDigit = false
  | .punct p => p.Ends rest
  | _ => True

end TokenKind

namespace Lexer

variable {k : TokenKind} {ks : List TokenKind} {cs rest : List Char}

theorem lexes_spelling (hk : k.IsSpelled) (hend : k.Ends rest) (h : Lexes rest ks) :
    Lexes (k.spelling ++ rest) (k :: ks) := by
  cases k with
  | keyword w => exact lexes_keyword hk hend h
  | punct p => exact lexes_punct p hend h
  | ident name => exact lexes_ident hk hend h
  | str s =>
    have hstr := lexes_str s h
    simpa [TokenKind.spelling] using hstr
  | int n => exact lexes_int hk hend.1 hend.2 h
  | float _ => exact hk.elim
  | annotations _ => exact hk.elim
  | raw _ => exact hk.elim
  | eof => exact hk.elim

theorem ends_space (k : TokenKind) (cs : List Char) : k.Ends (' ' :: cs) := by
  cases k with
  | punct p => cases p <;> simp [TokenKind.Ends, Punct.Ends]
  | keyword _ | ident _ =>
    intro x hx
    cases hx
    decide
  | int _ =>
    refine ⟨fun x hx => ?_, fun d more h => ?_⟩
    · cases hx
      decide
    · cases h
  | _ => trivial

theorem ends_nil (k : TokenKind) : k.Ends [] := by
  cases k with
  | punct p => cases p <;> simp [TokenKind.Ends, Punct.Ends]
  | keyword _ | ident _ => exact nofun
  | int _ => exact ⟨nofun, nofun⟩
  | _ => trivial

/-! ## What follows names and numbers -/

theorem isNameChar_of_isDigit (h : c.isDigit = true) : isNameChar c = true := by
  have hlt : c.toNat < 128 := by
    simp only [Char.isDigit, ge_iff_le, Bool.and_eq_true, decide_eq_true_eq] at h
    exact Nat.lt_of_le_of_lt h.2 (by decide)
  simp [isNameChar, Text.isAlnum, Text.isNumeric, hlt, h]

/-- What follows continues neither a name nor a number. -/
structure Closes (rest : List Char) : Prop where
  name : ∀ c ∈ rest.head?, isNameChar c = false
  point : ∀ c more, rest = '.' :: c :: more → c.isDigit = false

theorem closes_nil : Closes [] :=
  ⟨fun _ h => (by cases h), fun _ _ h => (by cases h)⟩

theorem closes_cons (hname : isNameChar c = false) (hpoint : c ≠ '.') : Closes (c :: rest) := by
  refine ⟨fun x hx => ?_, fun x more h => ?_⟩
  · cases hx
    exact hname
  · cases h
    exact absurd rfl hpoint

theorem isName_cons {name : String} (h : isName name = true) :
    ∃ c cs, name.toList = c :: cs ∧ isNameStart c = true := by
  unfold isName at h
  split at h
  · cases h
  · rename_i c cs hcs
    simp only [Bool.and_eq_true] at h
    exact ⟨c, cs, hcs, h.1.1⟩

theorem closes_member {name : String} (h : isName name = true) :
    Closes ('.' :: (name.toList ++ rest)) := by
  obtain ⟨c, cs, hcs, hc⟩ := isName_cons h
  refine ⟨fun x hx => ?_, fun x more hmore => ?_⟩
  · cases hx
    decide
  · rw [hcs] at hmore
    cases hmore
    exact (isNameStart_cases hc).2.2

theorem Lexes.tokenize {text : String} (h : Lexes text.toList ks) :
    ∃ ts, tokenize text = .ok ts ∧ ts.map (·.kind) = ks ++ [.eof] :=
  h _ {} (Nat.lt_succ_self _)

/-- Tokens with spaces between them are read back. -/
theorem tokenize_spaced (hks : ∀ k ∈ ks, k.IsSpelled) :
    ∃ ts, tokenize (Text.joinWith " " (ks.map fun k => String.ofList k.spelling)) = .ok ts ∧
      ts.map (·.kind) = ks ++ [.eof] := by
  refine Lexes.tokenize ?_
  induction ks with
  | nil => exact lexes_nil
  | cons k ks ih =>
    have hk := hks k List.mem_cons_self
    cases ks with
    | nil =>
      have hlast := lexes_spelling hk (ends_nil k) lexes_nil
      simpa [Text.joinWith] using hlast
    | cons k' ks =>
      have hrest := lexes_blank (c := ' ') (by decide)
        (ih fun x hx => hks x (List.mem_cons_of_mem _ hx))
      have hfirst := lexes_spelling hk (ends_space k _) hrest
      simpa [Text.joinWith] using hfirst

end Lexer

end Scaffold
