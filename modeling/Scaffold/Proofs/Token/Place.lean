import Mathlib.Data.List.Basic
import Scaffold.Proofs.Token.Lexing

/-!
# Places of tokens

What the lexer reads in a text, and where it stops, does not depend on where the text stands.

* `Places text least read`: a reader of `text` takes `least` characters or more, and stops at the
  same character or fails with the same error wherever the text starts.
* `tokens_lexed`: every token stands behind a part of the text, at the position behind that part.
* `tokens_fuel`: fuel for more characters than there are changes nothing.
-/

namespace Scaffold

theorem Position.afterAll_append (p : Position) (cs cs' : List Char) :
    p.afterAll (cs ++ cs') = (p.afterAll cs).afterAll cs' :=
  List.foldl_append

namespace Lexer

variable {α β : Type} {text before rest : List Char} {least least' : Nat} {c quote : Char}

/-- What is still to be read behind `before`, in a text that starts at `start`. -/
def cursorAt (before rest : List Char) (start : Position) : Cursor :=
  ⟨rest, start.afterAll before⟩

@[simp] theorem cursorAt_rest (before rest : List Char) (start : Position) :
    (cursorAt before rest start).rest = rest := rfl

@[simp] theorem cursorAt_pos (before rest : List Char) (start : Position) :
    (cursorAt before rest start).pos = start.afterAll before := rfl

@[simp] theorem cursorAt_run (before rest : List Char) (start : Position) (p : Char → Bool) :
    (cursorAt before rest start).run p = rest.takeWhile p := rfl

theorem cursorAt_drop (before rest : List Char) (start : Position) (n : Nat) :
    (cursorAt before rest start).drop n = cursorAt (before ++ rest.take n) (rest.drop n) start := by
  rw [Cursor.drop, cursorAt, cursorAt, Position.afterAll_append]

theorem cursorAt_skip (before rest : List Char) (start : Position) (p : Char → Bool) :
    (cursorAt before rest start).skip p =
      cursorAt (before ++ rest.takeWhile p) (rest.dropWhile p) start := by
  rw [Cursor.skip, cursorAt, cursorAt, Position.afterAll_append]

/-- A reader of a text, given the position at which the text starts. It takes `least` characters or
more, and what it gives and where it stops does not depend on the position. -/
inductive Places (text : List Char) (least : Nat) (read : Position → Except Mismatch (α × Cursor)) :
    Prop where
  | stops (a : α) {before rest : List Char} (htext : before ++ rest = text)
    (hleast : least ≤ before.length)
    (hread : ∀ start, read start = .ok (a, cursorAt before rest start))
  | fails {before : List Char} {expected found : String} (hbefore : before <+: text)
    (hread : ∀ start, read start = .error ⟨start.afterAll before, expected, found⟩)

theorem Places.bind {read : Position → Except Mismatch (α × Cursor)}
    {next : α × Cursor → Except Mismatch (β × Cursor)} (h : Places text least read)
    (hnext : ∀ a before rest, before ++ rest = text → least ≤ before.length →
      Places text least' fun start => next (a, cursorAt before rest start)) :
    Places text least' fun start => read start >>= next := by
  cases h with
  | stops a htext hleast hread =>
    simp only [hread]
    exact hnext a _ _ htext hleast
  | fails hbefore hread =>
    simp only [hread]
    exact .fails hbefore fun _ => rfl

theorem Places.map {read : Position → Except Mismatch (α × Cursor)} (f : α → β)
    (h : Places text least read) :
    Places text least fun start => read start >>= fun x => pure (f x.1, x.2) :=
  h.bind fun a _ _ htext hleast => .stops (f a) htext hleast fun _ => rfl

theorem Places.mono {read : Position → Except Mismatch (α × Cursor)} (hle : least' ≤ least)
    (h : Places text least read) : Places text least' read := by
  cases h with
  | stops a htext hleast hread => exact .stops a htext (hle.trans hleast) hread
  | fails hbefore hread => exact .fails hbefore hread

/-- Readers that do the same. -/
theorem Places.congr {read read' : Position → Except Mismatch (α × Cursor)}
    (h : Places text least read) (heq : ∀ start, read' start = read start) :
    Places text least read' := by
  rwa [show read' = read from funext heq]

/-! ## Blanks and comments -/

/-- What is skipped, in a text that starts at the given position. -/
inductive Skipping (text : List Char) : (Position → Trivia) → Prop where
  | blanks : Skipping text fun _ => .blanks
  | lineComment : Skipping text fun _ => .lineComment
  | blockComment {opened : List Char} (h : opened <+: text) :
    Skipping text fun start => .blockComment (start.afterAll opened)

/-- Skips what is left of `trivia` behind `before`. -/
def skipAt (trivia : Position → Trivia) (before rest : List Char) (start : Position) :
    Except Mismatch (Unit × Cursor) :=
  (skipTrivia (trivia start) (start.afterAll before) rest).map ((), ·)

theorem skipTrivia_inside {p start : Position} (h : ¬(c = '*' ∧ rest.head? = some '/')) :
    skipTrivia (.blockComment start) p (c :: rest) =
      skipTrivia (.blockComment start) (p.after c) rest := by
  rw [skipTrivia.eq_def]
  split <;> simp_all

theorem skipAt_places {trivia : Position → Trivia} (htrivia : Skipping text trivia)
    (htext : before ++ rest = text) : Places text before.length (skipAt trivia before rest) := by
  induction hlength : rest.length using Nat.strong_induction_on generalizing before rest trivia with
  | _ n ih =>
    -- Some characters are passed, and what follows is skipped in the same way.
    have hpass : ∀ (passed : List Char) {rest' : List Char} {trivia' : Position → Trivia},
        Skipping text trivia' → passed ++ rest' = rest → passed ≠ [] →
        (∀ start, skipTrivia (trivia start) (start.afterAll before) rest =
          skipTrivia (trivia' start) ((start.afterAll before).afterAll passed) rest') →
        Places text before.length (skipAt trivia before rest) := by
      intro passed rest' trivia' htrivia' hrest hne hskip
      have hlt : rest'.length < n := by
        have hpos := List.length_pos_of_ne_nil hne
        rw [← hlength, ← hrest, List.length_append]
        omega
      have htext' : (before ++ passed) ++ rest' = text := by rw [List.append_assoc, hrest, htext]
      refine ((ih _ hlt htrivia' htext' rfl).mono (by simp)).congr fun start => ?_
      rw [skipAt, skipAt, hskip, Position.afterAll_append]
    have hhere : (∀ start, skipTrivia (trivia start) (start.afterAll before) rest =
        .ok (cursorAt before rest start)) → Places text before.length (skipAt trivia before rest) :=
      fun hskip => .stops () htext (Nat.le_refl _) fun start => by rw [skipAt, hskip]; rfl
    cases rest with
    | nil =>
      cases htrivia with
      | blanks | lineComment => exact hhere fun _ => rfl
      | blockComment h => exact .fails h fun _ => rfl
    | cons c rest =>
      cases htrivia with
      | blanks =>
        by_cases hblank : Text.isBlank c = true
        · exact hpass [c] .blanks rfl (by simp) fun _ => skipTrivia_of_blank hblank _
        by_cases hopen : c = '/' ∧ (rest.head? = some '/' ∨ rest.head? = some '*')
        · obtain ⟨rfl, hhead | hhead⟩ := hopen <;>
            obtain ⟨rest, rfl⟩ := List.head?_eq_some_iff.1 hhead
          · exact hpass ['/', '/'] .lineComment rfl (by simp) fun _ => rfl
          · exact hpass ['/', '*'] (.blockComment ⟨_, htext⟩) rfl (by simp) fun _ => rfl
        · have hstart : StartsToken c rest :=
            ⟨by simpa using hblank, fun hc => not_or.1 fun hhead => hopen ⟨hc, hhead⟩⟩
          exact hhere fun _ => skipTrivia_of_startsToken hstart _
      | lineComment =>
        by_cases hend : c = '\n'
        · refine hpass [c] .blanks rfl (by simp) fun _ => ?_
          rw [skipTrivia, if_pos (by simp [hend])]
          rfl
        · refine hpass [c] .lineComment rfl (by simp) fun _ => ?_
          rw [skipTrivia, if_neg (by simp [hend])]
          rfl
      | blockComment h =>
        by_cases hend : c = '*' ∧ rest.head? = some '/'
        · obtain ⟨rfl, hhead⟩ := hend
          obtain ⟨rest, rfl⟩ := List.head?_eq_some_iff.1 hhead
          exact hpass ['*', '/'] .blanks rfl (by simp) fun _ => rfl
        · exact hpass [c] (.blockComment h) rfl (by simp) fun _ => skipTrivia_inside hend

/-! ## Quoted text and raw blocks -/

/-- A reader of some characters, which stops behind the first of them or later, or finds no end. -/
inductive Delimits (cs : List Char) (read : Position → Option (List Char × Cursor)) : Prop where
  | closed (taken passed rest : List Char) (hcs : passed ++ rest = cs)
    (hne : passed ≠ []) (hread : ∀ p, read p = some (taken, cursorAt passed rest p))
  | unclosed (hread : ∀ p, read p = none)

theorem Delimits.after {cs : List Char} {read : Position → Option (List Char × Cursor)}
    (h : Delimits cs read) (c : Char) : Delimits (c :: cs) fun p => read (p.after c) := by
  cases h with
  | closed taken passed rest hcs _ hread =>
    exact .closed taken (c :: passed) rest (congrArg (c :: ·) hcs) (by simp)
      fun p => hread (p.after c)
  | unclosed hread => exact .unclosed fun p => hread (p.after c)

theorem Delimits.map {cs : List Char} {read : Position → Option (List Char × Cursor)}
    (h : Delimits cs read) (f : List Char → List Char) :
    Delimits cs fun p => (read p).map fun (taken, after) => (f taken, after) := by
  cases h with
  | closed taken passed rest hcs hne hread =>
    exact .closed (f taken) passed rest hcs hne fun p => congrArg (Option.map _) (hread p)
  | unclosed hread => exact .unclosed fun p => congrArg (Option.map _) (hread p)

theorem readQuoted_delimits (quote : Char) : (cs : List Char) →
    Delimits cs fun p => readQuoted quote p cs
  | [] => .unclosed fun _ => by rw [readQuoted]
  | c :: cs => by
    by_cases hquote : (c == quote) = true
    · refine .closed [] [c] _ rfl (by simp) fun p => ?_
      rw [readQuoted.eq_def]
      simp only [hquote, if_true]
      rfl
    by_cases hescape : (c == '\\') = true
    · cases cs with
      | nil =>
        refine .unclosed fun p => ?_
        rw [readQuoted.eq_def]
        simp only [hquote, hescape, if_true, if_false, Bool.false_eq_true]
      | cons e cs =>
        have h := (((readQuoted_delimits quote cs).map (unescape e :: ·)).after e).after c
        have heq : ∀ p, readQuoted quote p (c :: e :: cs) =
            (readQuoted quote ((p.after c).after e) cs).map fun (taken, after) =>
              (unescape e :: taken, after) := by
          intro p
          rw [readQuoted.eq_def]
          simp only [hquote, hescape, if_true, if_false, Bool.false_eq_true]
        simpa only [heq] using h
    · have h := ((readQuoted_delimits quote cs).map (c :: ·)).after c
      have heq : ∀ p, readQuoted quote p (c :: cs) =
          (readQuoted quote (p.after c) cs).map fun (taken, after) => (c :: taken, after) := by
        intro p
        rw [readQuoted.eq_def]
        simp only [hquote, hescape, if_false, Bool.false_eq_true]
      simpa only [heq] using h

theorem readRaw_delimits (mode : RawMode) (cs : List Char) (depth : Nat) (quoted : Bool) :
    Delimits cs fun p => readRaw mode depth quoted p cs := by
  induction cs generalizing depth quoted with
  | nil => exact .unclosed fun _ => by simp [readRaw]
  | cons c cs ih =>
    cases quoted with
    | true => exact ((ih depth (c != '\'')).map (c :: ·)).after c
    | false =>
      by_cases hclose : (c == '\x7d' && decide (depth ≤ 1)) = true
      · refine .closed [] [c] _ rfl (by simp) fun p => ?_
        rw [readRaw, if_pos hclose]
        rfl
      · simp only [readRaw, if_neg hclose]
        exact ((ih _ _).map (c :: ·)).after c

/-- A value that closes, or an error at the start. -/
theorem Delimits.places {cs : List Char} {read : Position → Option (List Char × Cursor)}
    (h : Delimits cs read) (htext : before ++ cs = text) {f : List Char → α}
    {expected found : String} :
    Places text (before.length + 1) fun start =>
      match read (start.afterAll before) with
      | some (taken, after) => .ok (f taken, after)
      | none => .error ⟨start.afterAll before, expected, found⟩ := by
  cases h with
  | closed taken passed rest hcs hne hread =>
    have hpos := List.length_pos_of_ne_nil hne
    have htext' : (before ++ passed) ++ rest = text := by rw [List.append_assoc, hcs, htext]
    refine .stops (f taken) htext' ?_ fun start => ?_
    · rw [List.length_append]
      omega
    · rw [hread, cursorAt, cursorAt, Position.afterAll_append]
  | unclosed hread => exact .fails ⟨cs, htext⟩ fun start => by rw [hread]

theorem lexQuoted_places (htext : before ++ quote :: rest = text) :
    Places text (before.length + 1) fun start =>
      lexQuoted quote (cursorAt before (quote :: rest) start) :=
  ((readQuoted_delimits quote rest).after quote).places htext

theorem lexRaw_places (mode : RawMode) (htext : before ++ '\x7b' :: rest = text) :
    Places text (before.length + 1) fun start =>
      lexRaw mode (cursorAt before ('\x7b' :: rest) start) :=
  ((readRaw_delimits mode rest 1 false).after '\x7b').places htext

/-! ## Other tokens -/

/-- A value without reading further. -/
theorem places_ok (a : α) (htext : before ++ rest = text) (hleast : least ≤ before.length) :
    Places text least fun start => .ok (a, cursorAt before rest start) :=
  .stops a htext hleast fun _ => rfl

theorem takeWhile_append_text (p : Char → Bool) (htext : before ++ rest = text) :
    (before ++ rest.takeWhile p) ++ rest.dropWhile p = text := by
  rw [List.append_assoc, List.takeWhile_append_dropWhile, htext]

theorem take_append_text (n : Nat) (htext : before ++ rest = text) :
    (before ++ rest.take n) ++ rest.drop n = text := by
  rw [List.append_assoc, List.take_append_drop, htext]

theorem length_takeWhile_pos {p : Char → Bool} (hc : p c = true) (rest : List Char) :
    0 < ((c :: rest).takeWhile p).length := by
  rw [List.takeWhile_cons_of_pos hc]
  exact Nat.succ_pos _

theorem places_drop (a : α) {n : Nat} (htext : before ++ rest = text) (hn : n ≤ rest.length) :
    Places text (before.length + n) fun start => .ok (a, (cursorAt before rest start).drop n) :=
  (places_ok a (take_append_text n htext) (by simp [hn])).congr fun start => by rw [cursorAt_drop]

theorem lexWord_places (htext : before ++ c :: rest = text) (hc : isNameChar c = true) :
    Places text (before.length + 1) fun start =>
      .ok (lexWord (cursorAt before (c :: rest) start)) := by
  have hpos := length_takeWhile_pos hc rest
  refine (places_ok (wordKind (String.ofList ((c :: rest).takeWhile isNameChar)))
    (takeWhile_append_text isNameChar htext) (by rw [List.length_append]; omega)).congr
      fun start => ?_
  rw [← cursorAt_skip, lexWord, wordKind]
  dsimp only [Cursor.run, cursorAt]
  cases Keyword.ofText? (String.ofList ((c :: rest).takeWhile isNameChar)) <;> rfl

/-- Digits that make an integer, unless they are too many. -/
theorem integer_places {before' rest' : List Char} (digits : List Char)
    (htext : before ++ rest = text)
    (htext' : before' ++ rest' = text) (hleast : least ≤ before'.length) :
    Places text least fun start =>
      lexNumber.integer (cursorAt before rest start) digits (cursorAt before' rest' start) := by
  unfold lexNumber.integer
  by_cases hsmall : Number.digitsValue digits < Nat.pow 2 63
  · simp only [hsmall, if_true]
    exact places_ok _ htext' hleast
  · simp only [hsmall, if_false]
    exact .fails ⟨rest, htext⟩ fun _ => rfl

theorem lexNumber_places (htext : before ++ c :: rest = text) (hc : c.isDigit = true) :
    Places text (before.length + 1) fun start => lexNumber (cursorAt before (c :: rest) start) := by
  have hpos := length_takeWhile_pos hc rest
  have htext' := takeWhile_append_text Char.isDigit htext
  have hleast : before.length + 1 ≤ (before ++ (c :: rest).takeWhile Char.isDigit).length := by
    rw [List.length_append]
    omega
  have hint := integer_places ((c :: rest).takeWhile Char.isDigit) htext htext' hleast
  unfold lexNumber
  simp only [cursorAt_skip]
  generalize before ++ (c :: rest).takeWhile Char.isDigit = before' at htext' hleast hint ⊢
  generalize (c :: rest).dropWhile Char.isDigit = rest' at htext' hint ⊢
  by_cases hpoint : ∃ d more, rest' = '.' :: d :: more ∧ d.isDigit = true
  · obtain ⟨d, more, rfl, hd⟩ := hpoint
    have hlength := (List.takeWhile_prefix (l := d :: more) Char.isDigit).length_le
    have hfraction := places_drop (TokenKind.float (Binary64.ofMagnitude false
      (Number.DecimalText.magnitude
        ⟨(c :: rest).takeWhile Char.isDigit, (d :: more).takeWhile Char.isDigit, 0⟩))) htext'
      (show ((d :: more).takeWhile Char.isDigit).length + 1 ≤ _ by simpa using hlength)
    refine (hfraction.mono (hleast.trans (Nat.le_add_right _ _))).congr fun start => ?_
    simp only [cursorAt, Cursor.run, hd, if_true]
  · refine hint.congr fun start => ?_
    dsimp only [cursorAt]
    split
    · rename_i d more
      rw [if_neg fun hd => hpoint ⟨d, more, rfl, hd⟩]
      rfl
    · rfl

theorem lexValue_places (htext : before ++ rest = text) :
    Places text before.length fun start => lexValue (cursorAt before rest start) := by
  cases rest with
  | nil => exact .fails ⟨[], htext⟩ fun _ => rfl
  | cons ch rest =>
    unfold lexValue
    by_cases hquote : (ch == '"' || ch == '\'') = true
    · obtain rfl | rfl : ch = '"' ∨ ch = '\'' := by simpa using hquote
      all_goals
        exact ((lexQuoted_places htext).map AnnotationValue.str).mono (Nat.le_succ _)
    · simp only [cursorAt_rest, cursorAt_run, cursorAt_pos, cursorAt_skip, hquote, if_false,
        Bool.false_eq_true]
      split
      · exact .fails ⟨_, htext⟩ fun _ => rfl
      · exact places_ok _ (takeWhile_append_text _ htext) (by simp)

/-- One key with its value. -/
theorem lexPair_places (htext : before ++ rest = text) :
    Places text (before.length + 1) fun start => lexPair (cursorAt before rest start) := by
  unfold lexPair
  simp only [Cursor.skipBlanks, cursorAt_rest, cursorAt_run, cursorAt_pos, cursorAt_skip]
  split
  · exact .fails ⟨rest, htext⟩ fun _ => rfl
  · rename_i hkey
    have hpos : 0 < (rest.takeWhile isKeyChar).length := by
      refine List.length_pos_of_ne_nil fun hnil => hkey ?_
      rw [hnil]
      rfl
    have htext' := takeWhile_append_text Text.isBlank (takeWhile_append_text isKeyChar htext)
    have hleast : before.length + 1 ≤ (before ++ rest.takeWhile isKeyChar ++
        (rest.dropWhile isKeyChar).takeWhile Text.isBlank).length := by
      simp only [List.length_append]
      omega
    revert htext' hleast
    generalize before ++ rest.takeWhile isKeyChar ++
      (rest.dropWhile isKeyChar).takeWhile Text.isBlank = before'
    generalize (rest.dropWhile isKeyChar).dropWhile Text.isBlank = rest'
    intro htext' hleast
    split
    · have htext'' := takeWhile_append_text Text.isBlank (take_append_text 1 htext')
      simp only [cursorAt_drop, cursorAt_skip]
      refine ((lexValue_places htext'').map fun value => (_, value)).mono ?_
      simp only [List.length_append]
      omega
    · exact places_ok _ htext' hleast

theorem lexPairs_places (fuel : Nat) (htext : before ++ rest = text) :
    Places text (before.length + 1) fun start => lexPairs fuel (cursorAt before rest start) := by
  induction fuel generalizing before rest with
  | zero => exact .fails ⟨rest, htext⟩ fun _ => rfl
  | succ fuel ih =>
    unfold lexPairs
    simp only [Cursor.skipBlanks, cursorAt_rest, cursorAt_skip]
    have htext' := takeWhile_append_text Text.isBlank htext
    have hleast : before.length ≤ (before ++ rest.takeWhile Text.isBlank).length := by
      simp only [List.length_append]
      omega
    revert htext' hleast
    generalize before ++ rest.takeWhile Text.isBlank = before'
    generalize rest.dropWhile Text.isBlank = rest'
    intro htext' hleast
    split
    · exact .fails ⟨_, htext'⟩ fun _ => rfl
    · exact (places_drop _ htext' (by simp)).mono (by omega)
    · refine (lexPair_places htext').bind fun pair before₁ rest₁ h₁ hle₁ => ?_
      dsimp only
      simp only [cursorAt_rest, cursorAt_skip]
      have h₂ := takeWhile_append_text Text.isBlank h₁
      have hle₂ : before.length + 1 ≤ (before₁ ++ rest₁.takeWhile Text.isBlank).length := by
        simp only [List.length_append]
        omega
      revert h₂ hle₂
      generalize before₁ ++ rest₁.takeWhile Text.isBlank = before₂
      generalize rest₁.dropWhile Text.isBlank = rest₂
      intro h₂ hle₂
      split
      · exact .fails ⟨_, h₂⟩ fun _ => rfl
      · simp only [cursorAt_drop]
        refine ((ih (take_append_text 1 h₂)).map fun pairs => pair :: pairs).mono ?_
        simp only [List.length_append]
        omega
      · exact (places_drop _ h₂ (by simp)).mono (by omega)
      · exact .fails ⟨_, h₂⟩ fun _ => rfl

/-- A token takes its first character. -/
theorem lexToken_places (fuel : Nat) (mode : Option RawMode) (htext : before ++ c :: rest = text) :
    Places text (before.length + 1) fun start =>
      lexToken fuel mode c (cursorAt before (c :: rest) start) := by
  have hone (k : TokenKind) : Places text (before.length + 1) fun start =>
      .ok (k, (cursorAt before (c :: rest) start).drop 1) := places_drop k htext (by simp)
  have htwo (k : TokenKind) {second : Char} (h : (rest.head? == some second) = true) :
      Places text (before.length + 1) fun start =>
        .ok (k, (cursorAt before (c :: rest) start).drop 2) := by
    obtain ⟨rest, rfl⟩ := List.head?_eq_some_iff.1 (eq_of_beq h)
    exact (places_drop k htext (by simp)).mono (by omega)
  unfold lexToken
  split
  · rename_i hraw
    obtain rfl : c = '\x7b' := by simp_all
    exact lexRaw_places _ htext
  split
  · exact hone _
  split
  · simp only [cursorAt_rest, List.drop_one, List.tail_cons]
    split
    · exact htwo _ ‹_›
    · exact hone _
  split
  · simp only [cursorAt_rest, List.drop_one, List.tail_cons]
    split
    · exact htwo _ ‹_›
    · exact .fails ⟨_, htext⟩ fun _ => rfl
  split
  · rename_i hquote
    obtain rfl | rfl : c = '"' ∨ c = '\'' := by simpa using hquote
    all_goals exact (lexQuoted_places htext).map TokenKind.str
  split
  · simp only [cursorAt_drop]
    refine ((lexPairs_places fuel (take_append_text 1 htext)).map TokenKind.annotations).mono ?_
    simp only [List.length_append]
    omega
  split
  · exact lexNumber_places htext ‹_›
  split
  · exact lexWord_places htext (isNameChar_of_isNameStart ‹_›)
  · exact .fails ⟨_, htext⟩ fun _ => rfl

/-! ## All tokens -/

/-- Tokens of a text that starts at `start`, each with the part of the text in front of it. -/
def placed (start : Position) (spots : List (TokenKind × List Char)) : List Token :=
  spots.map fun (kind, before) => ⟨kind, start.afterAll before⟩

/-- Lexing a text, given the position at which it starts: tokens that stand behind parts of the
text, or an error behind a part of it, and they do not depend on the position. -/
inductive Lexed (text : List Char) (read : Position → Except Mismatch (List Token)) : Prop where
  | tokens (spots : List (TokenKind × List Char)) (hspots : ∀ spot ∈ spots, spot.2 <+: text)
    (hread : ∀ start, read start = .ok (placed start spots))
  | fails {before : List Char} {expected found : String} (hbefore : before <+: text)
    (hread : ∀ start, read start = .error ⟨start.afterAll before, expected, found⟩)

theorem Places.lexed {read : Position → Except Mismatch (α × Cursor)} (h : Places text least read)
    (next : Position → α × Cursor → Except Mismatch (List Token))
    (hnext : ∀ a before rest, before ++ rest = text →
      Lexed text fun start => next start (a, cursorAt before rest start)) :
    Lexed text fun start => read start >>= next start := by
  cases h with
  | stops a htext _ hread =>
    simp only [hread]
    exact hnext a _ _ htext
  | fails hbefore hread =>
    simp only [hread]
    exact .fails hbefore fun _ => rfl

theorem Lexed.cons {read : Position → Except Mismatch (List Token)} (h : Lexed text read)
    (kind : TokenKind) (hbefore : before <+: text) :
    Lexed text fun start =>
      read start >>= fun ts => pure (⟨kind, start.afterAll before⟩ :: ts) := by
  cases h with
  | tokens spots hspots hread =>
    simp only [hread]
    exact .tokens ((kind, before) :: spots) (List.forall_mem_cons.2 ⟨hbefore, hspots⟩) fun _ => rfl
  | fails hfailed hread =>
    simp only [hread]
    exact .fails hfailed fun _ => rfl

/-- Every token stands behind a part of the text. -/
theorem tokens_lexed (fuel : Nat) (mode : Option RawMode) (htext : before ++ rest = text) :
    Lexed text fun start => tokens fuel mode (cursorAt before rest start) := by
  induction fuel generalizing mode before rest with
  | zero => exact .tokens [(.eof, before)] (by simp [← htext]) fun _ => rfl
  | succ fuel ih =>
    have hskip : ∀ start, tokens (fuel + 1) mode (cursorAt before rest start) =
        skipAt (fun _ => .blanks) before rest start >>= fun x =>
          x.2.rest.head?.elim (pure [⟨.eof, x.2.pos⟩]) fun ch =>
            lexToken fuel mode ch x.2 >>= fun y =>
              tokens fuel (nextMode mode y.1) y.2 >>= fun ts => pure (⟨y.1, x.2.pos⟩ :: ts) := by
      intro start
      rw [tokens, skipAt, cursorAt_pos, cursorAt_rest]
      rcases skipTrivia .blanks (start.afterAll before) rest with _ | ⟨_ | _, _⟩ <;> rfl
    simp only [hskip]
    refine (skipAt_places .blanks htext).lexed (fun _ x => _) fun _ before' rest' htext' => ?_
    cases rest' with
    | nil => exact .tokens [(.eof, before')] (by simp [← htext']) fun _ => rfl
    | cons ch rest' =>
      dsimp only [cursorAt_rest]
      refine (lexToken_places fuel mode htext').lexed (fun start y =>
        tokens fuel (nextMode mode y.1) y.2 >>= fun ts =>
          pure (⟨y.1, start.afterAll before'⟩ :: ts)) fun kind before₁ rest₁ htext₁ => ?_
      exact (ih (nextMode mode kind) htext₁).cons kind ⟨_, htext'⟩

/-! ## Fuel -/

/-- How much is left to read. -/
theorem Places.length_le {read : Position → Except Mismatch (α × Cursor)}
    (h : Places text least read) (start : Position) {a : α} {after : Cursor}
    (hread : read start = .ok (a, after)) :
    after.rest.length + least ≤ text.length := by
  cases h with
  | stops a htext hleast hall =>
    rw [hall] at hread
    cases hread
    rw [← htext, List.length_append, cursorAt_rest]
    omega
  | fails _ hall =>
    rw [hall] at hread
    cases hread

theorem skipTrivia_length {c after : Cursor} (h : skipTrivia .blanks c.pos c.rest = .ok after) :
    after.rest.length ≤ c.rest.length :=
  (skipAt_places .blanks (List.nil_append c.rest)).length_le c.pos
    (congrArg (Except.map fun after => ((), after)) h)

theorem lexPair_length {c after : Cursor} {pair : String × AnnotationValue}
    (h : lexPair c = .ok (pair, after)) : after.rest.length < c.rest.length :=
  (lexPair_places (List.nil_append c.rest)).length_le c.pos h

theorem lexToken_length {fuel : Nat} {mode : Option RawMode} {ch : Char} {c after : Cursor}
    {kind : TokenKind} (hch : c.rest = ch :: rest)
    (h : lexToken fuel mode ch c = .ok (kind, after)) : after.rest.length < c.rest.length := by
  obtain ⟨_, pos⟩ := c
  subst hch
  exact (lexToken_places fuel mode (List.nil_append (ch :: rest))).length_le pos h

theorem lexPairs_fuel {fuel fuel' : Nat} {c : Cursor} (h : c.rest.length < fuel)
    (h' : c.rest.length < fuel') : lexPairs fuel c = lexPairs fuel' c := by
  induction fuel generalizing fuel' c with
  | zero => cases h
  | succ fuel ih =>
    obtain ⟨fuel', rfl⟩ := Nat.exists_eq_add_one.2 (show 0 < fuel' by omega)
    have hblanks : c.skipBlanks.rest.length ≤ c.rest.length :=
      (List.dropWhile_suffix Text.isBlank).length_le
    rw [lexPairs, lexPairs]
    dsimp only
    split
    · rfl
    · rfl
    · cases hpair : lexPair c.skipBlanks with
      | error e => rfl
      | ok x =>
        obtain ⟨pair, after⟩ := x
        have hlt := lexPair_length hpair
        have hafter : after.skipBlanks.rest.length ≤ after.rest.length :=
          (List.dropWhile_suffix Text.isBlank).length_le
        dsimp only [bind, Except.bind]
        split
        · rfl
        · have hdrop : (after.skipBlanks.drop 1).rest.length < after.skipBlanks.rest.length := by
            simp_all [Cursor.drop]
          rw [@ih fuel' _ (by omega) (by omega)]
        · rfl
        · rfl

theorem lexToken_fuel {fuel fuel' : Nat} (mode : Option RawMode) (ch : Char) {c : Cursor}
    (hne : c.rest ≠ []) (h : c.rest.length ≤ fuel) (h' : c.rest.length ≤ fuel') :
    lexToken fuel mode ch c = lexToken fuel' mode ch c := by
  have hdrop : (c.drop 1).rest.length < c.rest.length := by
    have hpos := List.length_pos_of_ne_nil hne
    simp only [Cursor.drop, List.length_drop]
    omega
  rw [lexToken, lexToken, lexPairs_fuel (show (c.drop 1).rest.length < fuel by omega)
    (show (c.drop 1).rest.length < fuel' by omega)]

/-- Fuel for more characters than there are changes nothing. -/
theorem tokens_fuel {fuel fuel' : Nat} (mode : Option RawMode) {c : Cursor}
    (h : c.rest.length < fuel) (h' : c.rest.length < fuel') :
    tokens fuel mode c = tokens fuel' mode c := by
  induction fuel generalizing fuel' mode c with
  | zero => cases h
  | succ fuel ih =>
    obtain ⟨fuel', rfl⟩ := Nat.exists_eq_add_one.2 (show 0 < fuel' by omega)
    rw [tokens, tokens]
    cases hskip : skipTrivia .blanks c.pos c.rest with
    | error e => rfl
    | ok c₁ =>
      have hle := skipTrivia_length hskip
      dsimp only [bind, Except.bind]
      split
      · rfl
      · rename_i ch more hrest
        rw [@lexToken_fuel fuel fuel' mode ch _ (by simp [hrest]) (by omega) (by omega)]
        cases htoken : lexToken fuel' mode ch c₁ with
        | error e => rfl
        | ok x =>
          have hlt := lexToken_length hrest htoken
          dsimp only
          rw [@ih fuel' _ _ (by omega) (by omega)]

end Lexer

end Scaffold
