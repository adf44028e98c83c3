import Scaffold.Proofs.Indexed.Scan
import Scaffold.Proofs.Token.Place

/-!
# The lexer by index

The lexer as a scanner: it keeps an index and a position, never looks at a character without asking
first whether there is one, and looks one character ahead where a comment, a fraction or a longer
sign may start. `tokenList_eq`: it faults on no text, and gives the tokens of `tokenize`.
-/

namespace Scaffold.Indexed

open Lexer (RawMode cursorAt skipAt)
open Scan

/-- Where the lexer stands: the index of the next character, and its position. -/
structure Place where
  index : Nat
  pos : Position

section

variable (text : List Char)

namespace Place

def atEnd (p : Place) : Bool :=
  text.length ≤ p.index

def peek (p : Place) : Scan Mismatch Char :=
  item text p.index

/-- The character after the next one, if there is one. -/
def peekNext (p : Place) : Option Char :=
  text[p.index + 1]?

/-- The next character, and the place behind it. -/
def advance (p : Place) : Scan Mismatch (Char × Place) := do
  let c ← p.peek text
  return (c, ⟨p.index + 1, p.pos.after c⟩)

/-- There is a next character, and it is as asked for. -/
def isNext (p : Place) (accept : Char → Bool) : Scan Mismatch Bool :=
  if p.atEnd text then return false
  else do
    let c ← p.peek text
    return accept c

end Place

/-- Characters that are accepted, as many as there are. -/
def readWhileFrom (accept : Char → Bool) : (fuel : Nat) → Place → Scan Mismatch (List Char × Place)
  | 0, _ => fault
  | fuel + 1, p => do
    if ← p.isNext text accept then
      let (c, p) ← p.advance text
      let (cs, p) ← readWhileFrom accept fuel p
      return (c :: cs, p)
    else return ([], p)

/-- Characters that are accepted, as many as there are. -/
def readWhile (accept : Char → Bool) (p : Place) : Scan Mismatch (List Char × Place) :=
  readWhileFrom text accept (text.length + 1) p

/-- The rest of a block comment that starts at `start`. -/
def blockComment (start : Position) : (fuel : Nat) → Place → Scan Mismatch (Unit × Place)
  | 0, _ => fault
  | fuel + 1, p =>
    if p.atEnd text then refused ⟨start, "'*/'", "end of file"⟩
    else do
      let c ← p.peek text
      if c == '*' && p.peekNext text == some '/' then
        let (_, p) ← p.advance text
        let (_, p) ← p.advance text
        return ((), p)
      else
        let (_, p) ← p.advance text
        blockComment start fuel p

/-- Blanks and comments. -/
def trivia : (fuel : Nat) → Place → Scan Mismatch (Unit × Place)
  | 0, _ => fault
  | fuel + 1, p => do
    let (_, p) ← readWhile text Text.isBlank p
    if ← p.isNext text (· == '/') then
      if p.peekNext text == some '/' then
        let (_, p) ← readWhile text (· != '\n') p
        trivia fuel p
      else if p.peekNext text == some '*' then
        let (_, inside) ← p.advance text
        let (_, inside) ← inside.advance text
        let (_, p) ← blockComment text p.pos (text.length + 1) inside
        trivia fuel p
      else return ((), p)
    else return ((), p)

/-- The rest of a quoted text that starts at `start`. -/
def quotedFrom (start : Position) (quote : Char) :
    (fuel : Nat) → Place → Scan Mismatch (List Char × Place)
  | 0, _ => fault
  | fuel + 1, p =>
    if p.atEnd text then refused ⟨start, s!"closing {quote}", "end of file"⟩
    else do
      let (c, p) ← p.advance text
      if c == quote then return ([], p)
      else if c == '\\' && !p.atEnd text then
        let (e, p) ← p.advance text
        let (cs, p) ← quotedFrom start quote fuel p
        return (Lexer.unescape e :: cs, p)
      else
        let (cs, p) ← quotedFrom start quote fuel p
        return (c :: cs, p)

/-- Quoted text whose opening quote is the next character. -/
def quoted (p : Place) : Scan Mismatch (String × Place) := do
  let (quote, inside) ← p.advance text
  let (cs, p) ← quotedFrom text p.pos quote (text.length + 1) inside
  return (String.ofList cs, p)

/-- The rest of a raw block that starts at `start`. -/
def rawFrom (start : Position) (mode : RawMode) :
    (fuel depth : Nat) → (inQuotes : Bool) → Place → Scan Mismatch (List Char × Place)
  | 0, _, _, _ => fault
  | fuel + 1, depth, inQuotes, p =>
    if p.atEnd text then refused ⟨start, "'\x7d'", "end of file"⟩
    else do
      let (c, p) ← p.advance text
      if inQuotes then
        let (cs, p) ← rawFrom start mode fuel depth (c != '\'') p
        return (c :: cs, p)
      else if c == '\x7d' then
        let depth ← minus depth 1
        if depth == 0 then return ([], p)
        else
          let (cs, p) ← rawFrom start mode fuel depth false p
          return (c :: cs, p)
      else
        let depth := if c == '\x7b' then depth + 1 else depth
        let (cs, p) ← rawFrom start mode fuel depth (c == '\'' && mode == .sql) p
        return (c :: cs, p)

/-- A raw block whose opening brace is the next character. -/
def raw (mode : RawMode) (p : Place) : Scan Mismatch (TokenKind × Place) := do
  let (_, inside) ← p.advance text
  let (cs, p) ← rawFrom text p.pos mode (text.length + 1) 1 false inside
  return (.raw (String.ofList (Text.trimChars cs)), p)

/-- An integer, or a decimal if a point with a digit after it follows. -/
def number (p : Place) : Scan Mismatch (TokenKind × Place) := do
  let (whole, after) ← readWhile text Char.isDigit p
  let point ← after.isNext text (· == '.')
  if point && (after.peekNext text).any Char.isDigit then
    let (_, after) ← after.advance text
    let (fraction, after) ← readWhile text Char.isDigit after
    let magnitude := Number.DecimalText.magnitude ⟨whole, fraction, 0⟩
    return (.float (Binary64.ofMagnitude false magnitude), after)
  else if Number.digitsValue whole < Nat.pow 2 63 then
    return (.int (Number.digitsValue whole), after)
  else refused ⟨p.pos, "an integer", s!"'{String.ofList whole}'"⟩

/-- A reserved word or a name. -/
def word (p : Place) : Scan Mismatch (TokenKind × Place) := do
  let (cs, p) ← readWhile text Lexer.isNameChar p
  match Keyword.ofText? (String.ofList cs) with
  | some k => return (.keyword k, p)
  | none => return (.ident (String.ofList cs), p)

/-- The value of an annotation. -/
def value (p : Place) : Scan Mismatch (AnnotationValue × Place) :=
  if p.atEnd text then refused ⟨p.pos, "annotation value", "end of file"⟩
  else do
    let c ← p.peek text
    if c == '"' || c == '\'' then
      let (s, p) ← quoted text p
      return (.str s, p)
    else
      let (cs, after) ← readWhile text (fun x => x != ',' && x != ']' && x != '\n') p
      let plain := String.ofList (Text.trimChars cs)
      if plain == "" then refused ⟨p.pos, "annotation value", "nothing"⟩
      else return (Lexer.plainValue plain, after)

/-- One key with its value; some character is left. -/
def pair (p : Place) : Scan Mismatch ((String × AnnotationValue) × Place) := do
  let (cs, after) ← readWhile text Lexer.isKeyChar p
  let key := String.ofList cs
  if key == "" then
    let c ← after.peek text
    refused ⟨p.pos, "annotation key", s!"'{c}'"⟩
  else
    let (_, after) ← readWhile text Text.isBlank after
    if ← after.isNext text (· == '=') then
      let (_, after) ← after.advance text
      let (_, after) ← readWhile text Text.isBlank after
      let (v, after) ← value text after
      return ((key, v), after)
    else return ((key, .bool true), after)

/-- The pairs up to the closing bracket. A bracket after a pair is met by the next round. -/
def pairs : (fuel : Nat) → Place → Scan Mismatch (List (String × AnnotationValue) × Place)
  | 0, _ => fault
  | fuel + 1, p => do
    let (_, p) ← readWhile text Text.isBlank p
    if p.atEnd text then refused ⟨p.pos, "']'", "end of file"⟩
    else
      let c ← p.peek text
      if c == ']' then
        let (_, p) ← p.advance text
        return ([], p)
      else
        let (first, p) ← pair text p
        let (_, p) ← readWhile text Text.isBlank p
        if p.atEnd text then refused ⟨p.pos, "']'", "end of file"⟩
        else
          let c ← p.peek text
          if c == ',' then
            let (_, p) ← p.advance text
            let (others, p) ← pairs fuel p
            return (first :: others, p)
          else if c == ']' then
            let (others, p) ← pairs fuel p
            return (first :: others, p)
          else refused ⟨p.pos, "',' or ']'", s!"'{c}'"⟩

/-- A sign that `second` extends. -/
def oneOrTwo (second : Char) (short long : Punct) (p : Place) :
    Scan Mismatch (TokenKind × Place) := do
  let (_, p) ← p.advance text
  if ← p.isNext text (· == second) then
    let (_, p) ← p.advance text
    return (.punct long, p)
  else return (.punct short, p)

/-- A sign that must be written twice. -/
def twice (sign : Punct) (p : Place) : Scan Mismatch (TokenKind × Place) := do
  let (first, after) ← p.advance text
  if ← after.isNext text (· == first) then
    let (_, after) ← after.advance text
    return (.punct sign, after)
  else refused ⟨p.pos, s!"'{first}{first}'", s!"'{first}'"⟩

/-- The token that starts here; some character is left. -/
def token (mode : Option RawMode) (p : Place) : Scan Mismatch (TokenKind × Place) := do
  let c ← p.peek text
  if c == '\x7b' && mode.isSome then raw text (mode.getD .sql) p
  else
    match Lexer.single? c with
    | some sign => do
      let (_, p) ← p.advance text
      return (.punct sign, p)
    | none =>
    match Lexer.extensible? c with
    | some (second, short, long) => oneOrTwo text second short long p
    | none =>
    match Lexer.doubled? c with
    | some sign => twice text sign p
    | none =>
      if c == '"' || c == '\'' then do
        let (s, p) ← quoted text p
        return (.str s, p)
      else if c == '[' then do
        let (_, p) ← p.advance text
        let (ps, p) ← pairs text (text.length + 1) p
        return (.annotations ps, p)
      else if c.isDigit then number text p
      else if Lexer.isNameStart c then word text p
      else refused ⟨p.pos, "a token", s!"'{c}'"⟩

/-- The tokens from here to the end of the text. -/
def tokensFrom : (fuel : Nat) → Option RawMode → Place → Scan Mismatch (List Token)
  | 0, _, _ => fault
  | fuel + 1, mode, p => do
    let (_, p) ← trivia text (text.length + 1) p
    if p.atEnd text then return [⟨.eof, p.pos⟩]
    else
      let (kind, after) ← token text mode p
      let others ← tokensFrom fuel (Lexer.nextMode mode kind) after
      return ⟨kind, p.pos⟩ :: others

end

def tokenList (source : String) : Scan Mismatch (List Token) :=
  tokensFrom source.toList (source.toList.length + 1) none ⟨0, {}⟩

/-! ## What the lexer reads -/

/-- The place behind some characters of a text. -/
def placeAt (before : List Char) : Place :=
  ⟨before.length, ({} : Position).afterAll before⟩

/-- The scanning lexer and the lexer that reads the rest of the text. -/
def lexing : View Place Cursor Mismatch Mismatch :=
  ⟨placeAt, (cursorAt · · {}), id⟩

section

variable {text before rest rest' : List Char} {c : Char}

/-- The position behind one more character. -/
theorem placeAt_after (before : List Char) (c : Char) :
    (placeAt before).pos.after c = (placeAt (before ++ [c])).pos :=
  (Position.afterAll_append _ before [c]).symm

theorem atEnd_at (htext : before ++ rest = text) :
    (placeAt before).atEnd text = rest.isEmpty := by
  rw [Place.atEnd, Bool.eq_iff_iff, decide_eq_true_iff, List.isEmpty_iff]
  exact length_le_at htext

theorem peek_at (htext : before ++ c :: rest = text) : (placeAt before).peek text = done c :=
  item_at htext

theorem peekNext_at (htext : before ++ c :: rest = text) :
    (placeAt before).peekNext text = rest.head? := by
  rw [Place.peekNext, placeAt, getElem?_at htext, List.getElem?_cons_succ, List.head?_eq_getElem?]

theorem advance_at (htext : before ++ c :: rest = text) :
    (placeAt before).advance text = done (c, placeAt (before ++ [c])) := by
  rw [Place.advance, peek_at htext, done_bind, pure_eq, placeAt, placeAt, List.length_append,
    Position.afterAll_append]
  rfl

theorem isNext_at (htext : before ++ rest = text) (accept : Char → Bool) :
    (placeAt before).isNext text accept = done (rest.head?.any accept) := by
  rw [Place.isNext, atEnd_at htext]
  cases rest with
  | nil => rfl
  | cons c rest => rw [peek_at htext]; rfl

theorem readWhileFrom_at (accept : Char → Bool) (fuel : Nat) (htext : before ++ rest = text)
    (hfuel : rest.length < fuel) :
    readWhileFrom text accept fuel (placeAt before) =
      done (rest.takeWhile accept, placeAt (before ++ rest.takeWhile accept)) := by
  induction rest generalizing before fuel with
  | nil =>
    obtain ⟨fuel, rfl⟩ := Nat.exists_eq_succ_of_ne_zero (Nat.ne_zero_of_lt hfuel)
    rw [readWhileFrom, isNext_at htext]
    simp
  | cons c rest ih =>
    obtain ⟨fuel, rfl⟩ := Nat.exists_eq_succ_of_ne_zero (Nat.ne_zero_of_lt hfuel)
    rw [readWhileFrom, isNext_at htext]
    cases hc : accept c with
    | false => simp [hc]
    | true =>
      have hrest := ih fuel (append_singleton_at htext) (Nat.lt_of_succ_lt_succ hfuel)
      simp [hc, advance_at htext, hrest]

theorem readWhile_at (accept : Char → Bool) (htext : before ++ rest = text) :
    readWhile text accept (placeAt before) =
      done (rest.takeWhile accept, placeAt (before ++ rest.takeWhile accept)) :=
  readWhileFrom_at accept _ htext (length_rest_lt htext)

/-! ## Blanks and comments -/

/-- A reader skips what is left of `kind` behind `before`. -/
def skipped (kind : Lexer.Trivia) (before rest : List Char) : Except Mismatch (Unit × Cursor) :=
  skipAt (fun _ => kind) before rest {}

theorem skipped_pass {kind kind' : Lexer.Trivia} (before passed : List Char)
    (h : ∀ p, Lexer.skipTrivia kind p rest' = Lexer.skipTrivia kind' (p.afterAll passed) rest) :
    skipped kind before rest' = skipped kind' (before ++ passed) rest := by
  rw [skipped, skipped, skipAt, skipAt, h, Position.afterAll_append]

theorem skipped_blanks (before rest : List Char) : skipped .blanks before rest =
    skipped .blanks (before ++ rest.takeWhile Text.isBlank) (rest.dropWhile Text.isBlank) := by
  refine skipped_pass before _ fun p => ?_
  induction rest generalizing p with
  | nil => rfl
  | cons c rest ih =>
    cases hc : Text.isBlank c with
    | true =>
      rw [Lexer.skipTrivia_of_blank hc, ih, List.takeWhile_cons_of_pos hc,
        List.dropWhile_cons_of_pos hc]
      rfl
    | false =>
      rw [List.takeWhile_cons_of_neg (by simp [hc]), List.dropWhile_cons_of_neg (by simp [hc])]
      rfl

/-- The line feed that ends a comment is a blank, so that it may be left for the next round. -/
theorem skipped_line (before rest : List Char) : skipped .lineComment before rest =
    skipped .blanks (before ++ rest.takeWhile (· != '\n')) (rest.dropWhile (· != '\n')) := by
  refine skipped_pass before _ fun p => ?_
  induction rest generalizing p with
  | nil => rfl
  | cons c rest ih =>
    by_cases hc : c = '\n'
    · subst hc
      rw [List.takeWhile_cons_of_neg (by simp), List.dropWhile_cons_of_neg (by simp)]
      exact (Lexer.skipTrivia_of_blank (by decide) p).symm
    · rw [List.takeWhile_cons_of_pos (by simpa using hc),
        List.dropWhile_cons_of_pos (by simpa using hc), Lexer.skipTrivia,
        if_neg (by simpa using hc), ih]
      rfl

theorem blockComment_follows {next : Unit × Place → Scan Mismatch (Unit × Place)}
    (start : Position) {fuel : Nat} (htext : before ++ rest = text) (hfuel : rest.length < fuel)
    (hnext : ∀ before' rest', before' ++ rest' = text → rest'.length ≤ rest.length →
      Follows lexing text (next ((), placeAt before')) (skipped .blanks before' rest')) :
    Follows lexing text (blockComment text start fuel (placeAt before) >>= next)
      (skipped (.blockComment start) before rest) := by
  induction fuel generalizing before rest with
  | zero => exact absurd hfuel (Nat.not_lt_zero _)
  | succ fuel ih =>
    rw [blockComment, atEnd_at htext]
    cases rest with
    | nil => exact .refused _
    | cons c rest =>
      have htext' := append_singleton_at htext
      simp only [List.isEmpty_cons, Bool.false_eq_true, if_false, peek_at htext, done_bind,
        peekNext_at htext, advance_at htext]
      by_cases hend : c = '*' ∧ rest.head? = some '/'
      · obtain ⟨rfl, hhead⟩ := hend
        obtain ⟨rest, rfl⟩ := List.head?_eq_some_iff.1 hhead
        rw [if_pos (by simp), advance_at htext']
        have hskip : skipped (.blockComment start) before ('*' :: '/' :: rest) =
            skipped .blanks (before ++ ['*', '/']) rest := skipped_pass before _ fun p => rfl
        rw [hskip, show before ++ ['*', '/'] = before ++ ['*'] ++ ['/'] by simp]
        exact hnext _ _ (append_singleton_at htext') (Nat.le_add_right _ 2)
      · rw [if_neg (by simpa using hend)]
        have hskip : skipped (.blockComment start) before (c :: rest) =
            skipped (.blockComment start) (before ++ [c]) rest :=
          skipped_pass before _ fun p => Lexer.skipTrivia_inside hend
        rw [hskip]
        exact ih htext' (Nat.lt_of_succ_lt_succ hfuel) fun before' rest' h hle =>
          hnext before' rest' h (Nat.le_succ_of_le hle)

theorem trivia_follows {fuel : Nat} (htext : before ++ rest = text) (hfuel : rest.length < fuel) :
    Follows lexing text (trivia text fuel (placeAt before)) (skipped .blanks before rest) := by
  induction fuel generalizing before rest with
  | zero => exact absurd hfuel (Nat.not_lt_zero _)
  | succ fuel ih =>
    have htext' := Lexer.takeWhile_append_text Text.isBlank htext
    have hle := (List.dropWhile_suffix (l := rest) Text.isBlank).length_le
    have hblank := List.head?_dropWhile_not Text.isBlank rest
    rw [trivia, readWhile_at _ htext, done_bind, skipped_blanks]
    dsimp only
    revert htext' hle hblank
    generalize before ++ rest.takeWhile Text.isBlank = before'
    generalize rest.dropWhile Text.isBlank = rest'
    intro htext' hle hblank
    rw [isNext_at htext', done_bind]
    -- Nothing is left to skip.
    have hhere {c : Char} {tail : List Char} (hrest : rest' = c :: tail)
        (hopen : c = '/' → tail.head? ≠ some '/' ∧ tail.head? ≠ some '*') :
        Follows lexing text (done ((), placeAt before')) (skipped .blanks before' rest') := by
      have hstart : Lexer.StartsToken c tail := ⟨by simpa [hrest] using hblank, hopen⟩
      rw [skipped, skipAt, hrest, Lexer.skipTrivia_of_startsToken hstart]
      exact .done () (hrest ▸ htext')
    cases rest' with
    | nil => exact .done () htext'
    | cons c tail =>
      by_cases hc : c = '/'
      · subst hc
        rw [if_pos (by simp), peekNext_at htext']
        have hshort {c : Char} {more : List Char} (h : tail = c :: more) : more.length < fuel := by
          rw [h, List.length_cons, List.length_cons] at hle
          omega
        by_cases hline : tail.head? = some '/'
        · obtain ⟨tail, rfl⟩ := List.head?_eq_some_iff.1 hline
          rw [if_pos (by simp), readWhile_at _ htext', done_bind]
          have hskip : skipped .blanks before' ('/' :: '/' :: tail) =
              skipped .blanks (before' ++ ('/' :: '/' :: tail).takeWhile (· != '\n'))
                (('/' :: '/' :: tail).dropWhile (· != '\n')) := by
            rw [← skipped_line]
            refine (skipped_pass before' ['/', '/'] fun p => rfl).trans ?_
            exact (skipped_pass before' ['/', '/'] fun p => rfl).symm
          rw [hskip]
          refine ih (Lexer.takeWhile_append_text _ htext') (Nat.lt_of_le_of_lt ?_ (hshort rfl))
          exact (List.dropWhile_suffix (l := tail) (· != '\n')).length_le
        · rw [if_neg (by simpa using hline)]
          by_cases hblock : tail.head? = some '*'
          · obtain ⟨tail, rfl⟩ := List.head?_eq_some_iff.1 hblock
            have htext'' := append_singleton_at htext'
            have htext₃ := append_singleton_at htext''
            have hskip : skipped .blanks before' ('/' :: '*' :: tail) =
                skipped (.blockComment (placeAt before').pos) (before' ++ ['/'] ++ ['*']) tail := by
              rw [skipped, skipped, skipAt, skipAt, Position.afterAll_append,
                Position.afterAll_append]
              rfl
            rw [if_pos (by simp), advance_at htext', done_bind, advance_at htext'', done_bind,
              hskip]
            exact blockComment_follows _ htext₃ (length_rest_lt htext₃) fun before₁ rest₁ h₁ hle₁ =>
              ih h₁ (Nat.lt_of_le_of_lt hle₁ (hshort rfl))
          · rw [if_neg (by simpa using hblock)]
            exact hhere rfl fun _ => ⟨hline, hblock⟩
      · rw [if_neg (by simpa using hc)]
        exact hhere rfl fun h => absurd h hc

/-! ## Quoted text and raw blocks -/

/-- What was found, or else the error. -/
def found {α : Type} (e : Mismatch) : Option α → Except Mismatch α
  | some a => .ok a
  | none => .error e

theorem lexQuoted_eq (quote : Char) (p : Position) (rest : List Char) :
    Lexer.lexQuoted quote ⟨quote :: rest, p⟩ = found ⟨p, s!"closing {quote}", "end of file"⟩
      (Lexer.readQuoted quote (p.after quote) rest) >>= fun x => pure (String.ofList x.1, x.2) := by
  simp only [Lexer.lexQuoted, List.drop_one, List.tail_cons]
  cases Lexer.readQuoted quote (p.after quote) rest <;> rfl

theorem lexRaw_eq (mode : RawMode) (p : Position) (rest : List Char) :
    Lexer.lexRaw mode ⟨'\x7b' :: rest, p⟩ = found ⟨p, "'\x7d'", "end of file"⟩
      (Lexer.readRaw mode 1 false (p.after '\x7b') rest) >>= fun x =>
        pure (.raw (String.ofList (Text.trimChars x.1)), x.2) := by
  simp only [Lexer.lexRaw, List.drop_one, List.tail_cons]
  cases Lexer.readRaw mode 1 false (p.after '\x7b') rest <;> rfl

/-- A scanner that reads one more character than another one. -/
theorem Follows.after {scan : Scan Mismatch (List Char × Place)} {e : Mismatch}
    {read : Option (List Char × Cursor)} (c : Char) (h : Follows lexing text scan (found e read)) :
    Follows lexing text (scan >>= fun x => pure (c :: x.1, x.2))
      (found e (read.map fun x => (c :: x.1, x.2))) := by
  have hmap := h.map (c :: ·)
  cases read <;> exact hmap

theorem quotedFrom_follows (start : Position) (quote : Char) {fuel : Nat}
    (htext : before ++ rest = text) (hfuel : rest.length < fuel) :
    Follows lexing text (quotedFrom text start quote fuel (placeAt before))
      (found ⟨start, s!"closing {quote}", "end of file"⟩
        (Lexer.readQuoted quote (placeAt before).pos rest)) := by
  induction fuel generalizing before rest with
  | zero => exact absurd hfuel (Nat.not_lt_zero _)
  | succ fuel ih =>
    rw [quotedFrom, atEnd_at htext]
    cases rest with
    | nil => exact .refused _
    | cons c rest =>
      have htext' := append_singleton_at htext
      have hfuel' := Nat.lt_of_succ_lt_succ hfuel
      simp only [List.isEmpty_cons, Bool.false_eq_true, if_false, advance_at htext, done_bind,
        atEnd_at htext', Lexer.readQuoted.eq_def quote _ (c :: rest), placeAt_after]
      by_cases hquote : (c == quote) = true
      · rw [if_pos hquote, if_pos hquote]
        exact .done [] htext'
      rw [if_neg hquote, if_neg hquote]
      by_cases hslash : (c == '\\') = true
      · cases rest with
        | nil =>
          -- A backslash at the very end: the text stays open.
          simp only [List.isEmpty_nil, Bool.not_true, Bool.and_false, Bool.false_eq_true, if_false,
            hslash, if_true]
          exact (ih htext' hfuel').after c
        | cons e rest =>
          have htext'' := append_singleton_at htext'
          simp only [List.isEmpty_cons, Bool.not_false, hslash, Bool.and_true, if_true,
            advance_at htext', done_bind]
          exact (ih htext'' (Nat.lt_of_succ_lt hfuel')).after _
      · simp only [hslash, Bool.false_and, Bool.false_eq_true, if_false]
        exact (ih htext' hfuel').after c

theorem quoted_follows {quote : Char} (htext : before ++ quote :: rest = text) :
    Follows lexing text (quoted text (placeAt before))
      (Lexer.lexQuoted quote (cursorAt before (quote :: rest) {})) := by
  have htext' := append_singleton_at htext
  have hfrom := (quotedFrom_follows (placeAt before).pos quote htext'
    (length_rest_lt htext')).map String.ofList
  rw [← placeAt_after] at hfrom
  rw [quoted, advance_at htext, done_bind]
  exact hfrom.congr (lexQuoted_eq _ _ _).symm

theorem rawFrom_follows (start : Position) (mode : RawMode) {fuel depth : Nat} (inQuotes : Bool)
    (hdepth : 1 ≤ depth) (htext : before ++ rest = text) (hfuel : rest.length < fuel) :
    Follows lexing text (rawFrom text start mode fuel depth inQuotes (placeAt before))
      (found ⟨start, "'\x7d'", "end of file"⟩
        (Lexer.readRaw mode depth inQuotes (placeAt before).pos rest)) := by
  induction fuel generalizing depth inQuotes before rest with
  | zero => exact absurd hfuel (Nat.not_lt_zero _)
  | succ fuel ih =>
    rw [rawFrom, atEnd_at htext]
    cases rest with
    | nil =>
      rw [Lexer.readRaw]
      exact .refused _
    | cons c rest =>
      have htext' := append_singleton_at htext
      have hfuel' := Nat.lt_of_succ_lt_succ hfuel
      simp only [List.isEmpty_cons, Bool.false_eq_true, if_false, advance_at htext, done_bind]
      cases inQuotes with
      | true =>
        rw [Lexer.readRaw, placeAt_after]
        exact (ih _ hdepth htext' hfuel').after c
      | false =>
        rw [Lexer.readRaw, placeAt_after]
        by_cases hclose : c = '\x7d'
        · subst hclose
          simp only [beq_self_eq_true, if_true, minus_of_le hdepth, done_bind, Bool.true_and,
            Bool.false_eq_true, if_false]
          by_cases hlast : depth ≤ 1
          · rw [if_pos (by simp; omega), if_pos (by simpa using hlast)]
            exact .done [] htext'
          · rw [if_neg (by simp; omega), if_neg (by simpa using hlast)]
            exact (ih _ (by omega) htext' hfuel').after _
        · have hne : (c == '\x7d') = false := by simpa using hclose
          simp only [hne, Bool.false_eq_true, if_false, Bool.false_and]
          refine (ih _ ?_ htext' hfuel').after c
          split <;> omega

theorem raw_follows (mode : RawMode) (htext : before ++ '\x7b' :: rest = text) :
    Follows lexing text (raw text mode (placeAt before))
      (Lexer.lexRaw mode (cursorAt before ('\x7b' :: rest) {})) := by
  have htext' := append_singleton_at htext
  have hfrom := (rawFrom_follows (placeAt before).pos mode false (Nat.le_refl 1) htext'
    (length_rest_lt htext')).map fun cs => TokenKind.raw (String.ofList (Text.trimChars cs))
  rw [← placeAt_after] at hfrom
  rw [raw, advance_at htext, done_bind]
  exact hfrom.congr (lexRaw_eq _ _ _).symm

/-! ## Numbers, words and signs -/

theorem number_follows (htext : before ++ rest = text) :
    Follows lexing text (number text (placeAt before))
      (Lexer.lexNumber (cursorAt before rest {})) := by
  have htext' := Lexer.takeWhile_append_text Char.isDigit htext
  rw [number, readWhile_at _ htext, done_bind, Lexer.lexNumber]
  dsimp only
  rw [Lexer.cursorAt_skip, Lexer.cursorAt_run]
  revert htext'
  generalize before ++ rest.takeWhile Char.isDigit = before'
  generalize rest.dropWhile Char.isDigit = rest'
  intro htext'
  rw [isNext_at htext', done_bind]
  have hinteger : Follows lexing text
      (if Number.digitsValue (rest.takeWhile Char.isDigit) < Nat.pow 2 63 then
        return (.int (Number.digitsValue (rest.takeWhile Char.isDigit)), placeAt before')
      else refused ⟨(placeAt before).pos, "an integer",
        s!"'{String.ofList (rest.takeWhile Char.isDigit)}'"⟩)
      (Lexer.lexNumber.integer (cursorAt before rest {}) (rest.takeWhile Char.isDigit)
        (cursorAt before' rest' {})) := by
    unfold Lexer.lexNumber.integer
    dsimp only
    split
    · exact .done _ htext'
    · exact .refused _
  cases rest' with
  | nil => exact hinteger
  | cons c tail =>
    by_cases hpoint : c = '.' ∧ tail.head?.any Char.isDigit = true
    · obtain ⟨rfl, hdigit⟩ := hpoint
      cases tail with
      | nil => cases hdigit
      | cons d more =>
        have hd : d.isDigit = true := hdigit
        have htext'' := append_singleton_at htext'
        have htake : before' ++ ['.'] ++ (d :: more).takeWhile Char.isDigit =
            before' ++
              ('.' :: d :: more).take (((d :: more).takeWhile Char.isDigit).length + 1) := by
          rw [List.take_succ_cons, ← List.prefix_iff_eq_take.1 (List.takeWhile_prefix _),
            List.append_assoc, List.singleton_append]
        simp only [List.head?_cons, Option.any_some, beq_self_eq_true, Bool.true_and,
          peekNext_at htext', hd, if_true, advance_at htext', done_bind, readWhile_at _ htext'',
          Lexer.cursorAt_drop, Lexer.cursorAt_rest, htake]
        exact .done _ (Lexer.take_append_text _ htext')
    · have hpoint' : ((c == '.') && tail.head?.any Char.isDigit) = false := by
        rw [Bool.eq_false_iff]
        simpa using hpoint
      simp only [List.head?_cons, Option.any_some, peekNext_at htext', hpoint', Bool.false_eq_true,
        if_false]
      refine hinteger.congr ?_
      dsimp only [Lexer.cursorAt_rest]
      split
      · rename_i d more hrest
        cases hrest
        exact (if_neg fun hd => hpoint ⟨rfl, hd⟩).symm
      · rfl

theorem word_follows (htext : before ++ rest = text) :
    Follows lexing text (word text (placeAt before))
      (.ok (Lexer.lexWord (cursorAt before rest {}))) := by
  rw [word, readWhile_at _ htext, done_bind, Lexer.lexWord]
  dsimp only
  rw [Lexer.cursorAt_skip, Lexer.cursorAt_run]
  cases Keyword.ofText? (String.ofList (rest.takeWhile Lexer.isNameChar)) <;>
    exact .done _ (Lexer.takeWhile_append_text _ htext)

theorem follows_drop {α : Type} (a : α) (passed : List Char)
    (htext : before ++ (passed ++ rest) = text) :
    Follows lexing text (done (a, placeAt (before ++ passed)))
      (.ok (a, (cursorAt before (passed ++ rest) {}).drop passed.length)) := by
  rw [Lexer.cursorAt_drop, List.take_left, List.drop_left]
  exact .done a (by rw [List.append_assoc, htext])

theorem oneOrTwo_follows (second : Char) (short long : Punct)
    (htext : before ++ c :: rest = text) :
    Follows lexing text (oneOrTwo text second short long (placeAt before))
      (if rest.head? == some second then
        .ok (.punct long, (cursorAt before (c :: rest) {}).drop 2)
      else .ok (.punct short, (cursorAt before (c :: rest) {}).drop 1)) := by
  have htext' := append_singleton_at htext
  rw [oneOrTwo, advance_at htext, done_bind]
  dsimp only
  rw [isNext_at htext', done_bind]
  by_cases hsecond : rest.head? = some second
  · obtain ⟨rest, rfl⟩ := List.head?_eq_some_iff.1 hsecond
    rw [if_pos (by simp), if_pos (by simp), advance_at htext', List.append_assoc]
    exact follows_drop _ [c, second] htext
  · rw [if_neg (by simpa using not_any_of_ne hsecond), if_neg (by simpa using hsecond)]
    exact follows_drop _ [c] htext

theorem twice_follows (sign : Punct) (htext : before ++ c :: rest = text) :
    Follows lexing text (twice text sign (placeAt before))
      (if rest.head? == some c then .ok (.punct sign, (cursorAt before (c :: rest) {}).drop 2)
      else .error ⟨(placeAt before).pos, s!"'{c}{c}'", s!"'{c}'"⟩) := by
  have htext' := append_singleton_at htext
  rw [twice, advance_at htext, done_bind]
  dsimp only
  rw [isNext_at htext', done_bind]
  by_cases hsecond : rest.head? = some c
  · obtain ⟨rest, rfl⟩ := List.head?_eq_some_iff.1 hsecond
    rw [if_pos (by simp), if_pos (by simp), advance_at htext', List.append_assoc]
    exact follows_drop _ [c, c] htext
  · rw [if_neg (by simpa using not_any_of_ne hsecond), if_neg (by simpa using hsecond)]
    exact .refused _

/-! ## Annotations -/

theorem value_follows (htext : before ++ rest = text) :
    Follows lexing text (value text (placeAt before))
      (Lexer.lexValue (cursorAt before rest {})) := by
  rw [value, atEnd_at htext]
  cases rest with
  | nil => exact .refused _
  | cons c rest =>
    unfold Lexer.lexValue
    simp only [List.isEmpty_cons, Bool.false_eq_true, if_false, peek_at htext, done_bind,
      Lexer.cursorAt_rest, Lexer.cursorAt_run, Lexer.cursorAt_skip]
    by_cases hquote : (c == '"' || c == '\'') = true
    · rw [if_pos hquote, if_pos hquote]
      exact (quoted_follows htext).map AnnotationValue.str
    · rw [if_neg hquote, if_neg hquote, readWhile_at _ htext, done_bind]
      dsimp only
      split
      · exact .refused _
      · exact .done _ (Lexer.takeWhile_append_text _ htext)

theorem pair_follows (htext : before ++ c :: rest = text) :
    Follows lexing text (pair text (placeAt before))
      (Lexer.lexPair (cursorAt before (c :: rest) {})) := by
  have htext' := Lexer.takeWhile_append_text Lexer.isKeyChar htext
  rw [pair, readWhile_at _ htext, done_bind, Lexer.lexPair]
  dsimp only
  rw [Lexer.cursorAt_run]
  by_cases hkey : (String.ofList ((c :: rest).takeWhile Lexer.isKeyChar) == "") = true
  · rw [if_pos hkey, if_pos hkey]
    have hnil : (c :: rest).takeWhile Lexer.isKeyChar = [] := by simpa using hkey
    rw [hnil, List.append_nil, peek_at htext, done_bind]
    exact .refused _
  rw [if_neg hkey, if_neg hkey, readWhile_at _ htext', done_bind]
  simp only [Cursor.skipBlanks, Lexer.cursorAt_skip, Lexer.cursorAt_rest]
  have htext'' := Lexer.takeWhile_append_text Text.isBlank htext'
  revert htext''
  generalize before ++ (c :: rest).takeWhile Lexer.isKeyChar ++
    ((c :: rest).dropWhile Lexer.isKeyChar).takeWhile Text.isBlank = before₁
  generalize ((c :: rest).dropWhile Lexer.isKeyChar).dropWhile Text.isBlank = rest₁
  intro htext₁
  rw [isNext_at htext₁, done_bind]
  by_cases hequal : rest₁.head? = some '='
  · obtain ⟨rest₁, rfl⟩ := List.head?_eq_some_iff.1 hequal
    have htext₂ := append_singleton_at htext₁
    rw [if_pos (by simp), advance_at htext₁, done_bind]
    dsimp only
    rw [readWhile_at _ htext₂, done_bind]
    refine ((value_follows (Lexer.takeWhile_append_text _ htext₂)).map
      fun value => (String.ofList ((c :: rest).takeWhile Lexer.isKeyChar), value)).congr ?_
    rw [Lexer.cursorAt_drop, Lexer.cursorAt_skip]
    rfl
  · rw [if_neg (by simpa using not_any_of_ne hequal)]
    cases rest₁ with
    | nil => exact .done _ htext₁
    | cons d rest₁ =>
      split
      · simp_all
      · exact .done _ htext₁

/-- A bracket ends the pairs at once. -/
theorem lexPairs_closing (fuel : Nat) (before rest : List Char) :
    Lexer.lexPairs (fuel + 1) (cursorAt before (']' :: rest) {}) =
      .ok ([], (cursorAt before (']' :: rest) {}).drop 1) := by
  rw [Lexer.lexPairs]
  simp only [Cursor.skipBlanks, Lexer.cursorAt_skip]
  rw [List.takeWhile_cons_of_neg (by decide), List.dropWhile_cons_of_neg (by decide),
    List.append_nil]
  rfl

theorem pairs_follows {fuel fuel' : Nat} (htext : before ++ rest = text)
    (hfuel : rest.length < fuel) (hfuel' : rest.length < fuel') :
    Follows lexing text (pairs text fuel (placeAt before))
      (Lexer.lexPairs fuel' (cursorAt before rest {})) := by
  induction fuel generalizing fuel' before rest with
  | zero => exact absurd hfuel (Nat.not_lt_zero _)
  | succ fuel ih =>
    obtain ⟨fuel', rfl⟩ := Nat.exists_eq_succ_of_ne_zero (Nat.ne_zero_of_lt hfuel')
    have htext₁ := Lexer.takeWhile_append_text Text.isBlank htext
    have hle₁ := (List.dropWhile_suffix (l := rest) Text.isBlank).length_le
    rw [pairs, readWhile_at _ htext, done_bind, Lexer.lexPairs]
    simp only [Cursor.skipBlanks, Lexer.cursorAt_skip, Lexer.cursorAt_rest]
    revert htext₁ hle₁
    generalize before ++ rest.takeWhile Text.isBlank = before₁
    generalize rest.dropWhile Text.isBlank = rest₁
    intro htext₁ hle₁
    rw [atEnd_at htext₁]
    cases rest₁ with
    | nil => exact .refused _
    | cons c tail =>
      rw [List.isEmpty_cons, if_neg Bool.false_ne_true, peek_at htext₁, done_bind]
      by_cases hc : c = ']'
      · subst hc
        rw [if_pos (by simp), advance_at htext₁]
        exact follows_drop _ [']'] htext₁
      rw [if_neg (by simpa using hc)]
      split
      · contradiction
      · simp_all
      refine (pair_follows htext₁).bind fun first before₂ rest₂ h₂ hread => ?_
      have hlt₂ : rest₂.length < (c :: tail).length := Lexer.lexPair_length hread
      have htext₃ := Lexer.takeWhile_append_text Text.isBlank h₂
      have hle₃ := (List.dropWhile_suffix (l := rest₂) Text.isBlank).length_le
      change Follows lexing text (readWhile text Text.isBlank (placeAt before₂) >>= _) _
      rw [readWhile_at _ h₂, done_bind]
      simp only [lexing, Lexer.cursorAt_skip, Lexer.cursorAt_rest]
      revert htext₃ hle₃
      generalize before₂ ++ rest₂.takeWhile Text.isBlank = before₃
      generalize rest₂.dropWhile Text.isBlank = rest₃
      intro htext₃ hle₃
      rw [atEnd_at htext₃]
      cases rest₃ with
      | nil => exact .refused _
      | cons d tail₃ =>
        rw [List.isEmpty_cons, if_neg Bool.false_ne_true, peek_at htext₃, done_bind]
        have hless : tail₃.length + 1 < fuel ∧ tail₃.length + 1 < fuel' := by
          simp only [List.length_cons] at hle₁ hlt₂ hle₃
          omega
        by_cases hcomma : d = ','
        · subst hcomma
          rw [if_pos (by simp), advance_at htext₃, done_bind, Lexer.cursorAt_drop]
          exact (ih (append_singleton_at htext₃) (Nat.lt_of_succ_lt hless.1)
            (Nat.lt_of_succ_lt hless.2)).map (first :: ·)
        rw [if_neg (by simpa using hcomma)]
        by_cases hclosing : d = ']'
        · -- The next round meets the bracket.
          subst hclosing
          have hlast := (ih htext₃ hless.1 (Nat.lt_succ_self _)).map (first :: ·)
          rw [lexPairs_closing] at hlast
          rw [if_pos (by simp)]
          exact hlast
        · rw [if_neg (by simpa using hclosing)]
          split <;> first | contradiction | simp_all
          exact .refused _

/-! ## Tokens -/

theorem token_follows {fuel : Nat} (mode : Option RawMode) (htext : before ++ c :: rest = text)
    (hfuel : rest.length < fuel) :
    Follows lexing text (token text mode (placeAt before))
      (Lexer.lexToken fuel mode c (cursorAt before (c :: rest) {})) := by
  rw [token, peek_at htext, done_bind, Lexer.lexToken]
  by_cases hraw : (c == '\x7b' && mode.isSome) = true
  · rw [if_pos hraw, if_pos hraw]
    obtain rfl : c = '\x7b' := by simp_all
    exact raw_follows _ htext
  rw [if_neg hraw, if_neg hraw]
  cases Lexer.single? c with
  | some sign =>
    dsimp only
    rw [advance_at htext]
    exact follows_drop _ [c] htext
  | none =>
  cases Lexer.extensible? c with
  | some signs =>
    exact (oneOrTwo_follows signs.1 signs.2.1 signs.2.2 htext)
  | none =>
  cases Lexer.doubled? c with
  | some sign => exact (twice_follows sign htext)
  | none =>
    dsimp only
    by_cases hquote : (c == '"' || c == '\'') = true
    · rw [if_pos hquote, if_pos hquote]
      exact (quoted_follows htext).map TokenKind.str
    rw [if_neg hquote, if_neg hquote]
    by_cases hbracket : (c == '[') = true
    · have htext' := append_singleton_at htext
      rw [if_pos hbracket, if_pos hbracket, advance_at htext, done_bind, Lexer.cursorAt_drop]
      exact (pairs_follows htext' (length_rest_lt htext') hfuel).map TokenKind.annotations
    rw [if_neg hbracket, if_neg hbracket]
    by_cases hdigit : c.isDigit = true
    · rw [if_pos hdigit, if_pos hdigit]
      exact number_follows htext
    rw [if_neg hdigit, if_neg hdigit]
    by_cases hname : Lexer.isNameStart c = true
    · rw [if_pos hname, if_pos hname]
      exact word_follows htext
    · rw [if_neg hname, if_neg hname]
      exact .refused _

/-- Reading tokens is skipping to the next one, reading it, and reading more of them. -/
theorem tokens_round (fuel : Nat) (mode : Option RawMode) (before rest : List Char) :
    Lexer.tokens (fuel + 1) mode (cursorAt before rest {}) =
      skipped .blanks before rest >>= fun x =>
        match x.2.rest with
        | [] => pure [⟨.eof, x.2.pos⟩]
        | ch :: _ => do
          let (kind, after) ← Lexer.lexToken fuel mode ch x.2
          let others ← Lexer.tokens fuel (Lexer.nextMode mode kind) after
          return ⟨kind, x.2.pos⟩ :: others := by
  rw [Lexer.tokens, skipped, skipAt, Lexer.cursorAt_pos, Lexer.cursorAt_rest]
  cases Lexer.skipTrivia .blanks (({} : Position).afterAll before) rest <;> rfl

theorem tokensFrom_eq {fuel fuel' : Nat} (mode : Option RawMode) (htext : before ++ rest = text)
    (hfuel : rest.length < fuel) (hfuel' : rest.length < fuel') :
    tokensFrom text fuel mode (placeAt before) =
      lexing.result (Lexer.tokens fuel' mode (cursorAt before rest {})) := by
  induction fuel generalizing fuel' mode before rest with
  | zero => exact absurd hfuel (Nat.not_lt_zero _)
  | succ fuel ih =>
    obtain ⟨fuel', rfl⟩ := Nat.exists_eq_succ_of_ne_zero (Nat.ne_zero_of_lt hfuel')
    rw [tokensFrom, tokens_round]
    refine (trivia_follows htext (length_rest_lt htext)).bind_result
      fun _ before₁ rest₁ h₁ hskip => ?_
    have hle₁ : rest₁.length ≤ rest.length := by
      have hplaces : rest₁.length + before.length ≤ text.length :=
        (Lexer.skipAt_places .blanks htext).length_le {} hskip
      rw [← htext, List.length_append] at hplaces
      omega
    change (if (placeAt before₁).atEnd text then _ else _) = _
    rw [atEnd_at h₁]
    cases rest₁ with
    | nil => rfl
    | cons c tail =>
      rw [List.isEmpty_cons, if_neg Bool.false_ne_true]
      have hless := Nat.lt_of_lt_of_le hle₁ (Nat.le_of_lt_succ hfuel')
      refine (token_follows mode h₁ hless).bind_result fun kind before₂ rest₂ h₂ hread => ?_
      have hlt₂ : rest₂.length < (c :: tail).length := Lexer.lexToken_length rfl hread
      have hrest : tokensFrom text fuel (Lexer.nextMode mode kind) (placeAt before₂) =
          lexing.result
            (Lexer.tokens fuel' (Lexer.nextMode mode kind) (cursorAt before₂ rest₂ {})) :=
        ih _ h₂ (by omega) (by omega)
      change (tokensFrom text fuel (Lexer.nextMode mode kind) (placeAt before₂) >>= _) =
        lexing.result
          (Lexer.tokens fuel' (Lexer.nextMode mode kind) (cursorAt before₂ rest₂ {}) >>= _)
      rw [hrest]
      cases Lexer.tokens fuel' (Lexer.nextMode mode kind) (cursorAt before₂ rest₂ {}) <;> rfl

/-- The lexer faults on no text, and reads the tokens of `tokenize`. -/
theorem tokenList_eq (source : String) : tokenList source = ofExcept (tokenize source) := by
  have htokens := tokensFrom_eq none (List.nil_append source.toList) (Nat.lt_succ_self _)
    (Nat.lt_succ_self _)
  refine htokens.trans ?_
  change lexing.result (tokenize source) = _
  cases tokenize source <;> rfl

end

end Scaffold.Indexed
