import Scaffold.Proofs.Sql.Region
import Scaffold.Proofs.Token.Place

/-!
# Query bodies

Two readers decide where SQL text is quoted: the lexer, which looks for the brace that ends a query
body, and the scanner that looks for parameters. The lexer knows single quotes only.

* `Enclosed body`: the lexer reads the body up to its end.
* `Encloses.readRaw`, `encloses_of_readRaw`: what the lexer takes as a body.
* `tokenize_query`: a query is lexed to its body and what follows it exactly if the body is
  enclosed, which holds if the other kinds of opaque text have neither braces nor single quotes.
-/

namespace Scaffold

/-! ## Balanced braces -/

namespace Text

/-- Every brace is closed, and so are `depth` braces in front of the text. -/
def balanced : (depth : Nat) → List Char → Bool
  | depth, [] => depth == 0
  | depth, c :: cs =>
    if c == '\x7b' then balanced (depth + 1) cs
    else if c == '\x7d' then depth != 0 && balanced (depth - 1) cs
    else balanced depth cs

theorem balanced_cons {c : Char} (h : c ≠ '\x7b' ∧ c ≠ '\x7d') (depth : Nat) (cs : List Char) :
    balanced depth (c :: cs) = balanced depth cs := by
  rw [balanced, if_neg (by simpa using h.1), if_neg (by simpa using h.2)]

end Text

namespace Lexer

variable {cs body taken rest : List Char} {c : Char} {depth fuel : Nat} {quoted : Bool}
  {p : Position} {after : Cursor}

/-- What stands outside of single quotes, behind an open quote if `quoted`. -/
def unquoted : (quoted : Bool) → List Char → List Char
  | _, [] => []
  | quoted, c :: cs =>
    if c == '\'' then unquoted (!quoted) cs
    else if quoted then unquoted quoted cs
    else c :: unquoted quoted cs

/-- The lexer reads a body up to its end: the single quotes and the braces outside of them are
closed, and so are `depth` braces and, if `quoted`, a single quote in front of the body. -/
structure Encloses (depth : Nat) (quoted : Bool) (body : List Char) : Prop where
  quotes : body.count '\'' % 2 = quoted.toNat
  braces : Text.balanced depth (unquoted quoted body) = true

/-- The lexer reads a body up to its end. -/
abbrev Enclosed (body : List Char) : Prop :=
  Encloses 0 false body

theorem encloses_iff : Encloses depth quoted body ↔
    body.count '\'' % 2 = quoted.toNat ∧ Text.balanced depth (unquoted quoted body) = true :=
  ⟨fun h => ⟨h.quotes, h.braces⟩, fun h => ⟨h.1, h.2⟩⟩

theorem encloses_quote : Encloses depth quoted ('\'' :: cs) ↔ Encloses depth (!quoted) cs := by
  rw [encloses_iff, encloses_iff, unquoted, if_pos (by rfl), List.count_cons_self]
  cases quoted <;> simp only [Bool.not_true, Bool.not_false, Bool.toNat_true, Bool.toNat_false] <;>
    refine and_congr_left fun _ => ?_ <;> omega

theorem encloses_quoted (hc : c ≠ '\'') :
    Encloses depth true (c :: cs) ↔ Encloses depth true cs := by
  rw [encloses_iff, encloses_iff, unquoted, if_neg (by simpa using hc), if_pos rfl,
    List.count_cons_of_ne hc]

theorem encloses_unquoted (hc : c ≠ '\'') : Encloses depth false (c :: cs) ↔
    cs.count '\'' % 2 = 0 ∧ Text.balanced depth (c :: unquoted false cs) = true := by
  rw [encloses_iff, unquoted, if_neg (by simpa using hc), if_neg (by simp),
    List.count_cons_of_ne hc]
  rfl

theorem encloses_opening : Encloses depth false ('\x7b' :: cs) ↔ Encloses (depth + 1) false cs := by
  rw [encloses_unquoted (by decide), encloses_iff, Text.balanced, if_pos (by rfl)]
  rfl

theorem encloses_closing :
    Encloses depth false ('\x7d' :: cs) ↔ depth ≠ 0 ∧ Encloses (depth - 1) false cs := by
  rw [encloses_unquoted (by decide), encloses_iff, Text.balanced, if_neg (by decide),
    if_pos (by rfl), Bool.and_eq_true, bne_iff_ne, and_left_comm]
  rfl

theorem encloses_cons (hquote : c ≠ '\'') (hbrace : c ≠ '\x7b' ∧ c ≠ '\x7d') :
    Encloses depth quoted (c :: cs) ↔ Encloses depth quoted cs := by
  cases quoted with
  | true => exact encloses_quoted hquote
  | false =>
    rw [encloses_unquoted hquote, encloses_iff, Text.balanced_cons hbrace]
    rfl

/-! ## Raw blocks -/

/-- One step through a body: its end, or a character behind which the body goes on. -/
theorem readRaw_step (depth : Nat) (quoted : Bool) (c : Char) :
    (depth = 0 ∧ quoted = false ∧ c = '\x7d') ∨
      ∃ depth' quoted', (∀ body, Encloses depth quoted (c :: body) ↔ Encloses depth' quoted' body) ∧
        ∀ p cs, readRaw .sql (depth + 1) quoted p (c :: cs) =
          (readRaw .sql (depth' + 1) quoted' (p.after c) cs).map
            fun (text, after) => (c :: text, after) := by
  by_cases hquote : c = '\''
  · subst hquote
    refine .inr ⟨depth, !quoted, fun _ => encloses_quote, fun p cs => ?_⟩
    cases quoted <;> rfl
  cases quoted with
  | true =>
    refine .inr ⟨depth, true, fun _ => encloses_quoted hquote, fun p cs => ?_⟩
    rw [readRaw, show (c != '\'') = true by simpa using hquote]
  | false =>
    by_cases hopen : c = '\x7b'
    · subst hopen
      exact .inr ⟨depth + 1, false, fun _ => encloses_opening, fun p cs => rfl⟩
    by_cases hclose : c = '\x7d'
    · subst hclose
      cases depth with
      | zero => exact .inl ⟨rfl, rfl, rfl⟩
      | succ depth =>
        refine .inr ⟨depth, false, fun _ => by simp [encloses_closing], fun p cs => ?_⟩
        rw [readRaw, if_neg (by simp)]
        rfl
    · refine .inr ⟨depth, false, fun _ => encloses_cons hquote ⟨hopen, hclose⟩, fun p cs => ?_⟩
      have hplain : (c == '\'') = false := by simpa using hquote
      rw [readRaw, if_neg (by simp [hclose])]
      simp [hplain, hopen, hclose]

/-- Behind a body that it reads up to its end, the lexer stops. -/
theorem Encloses.readRaw (h : Encloses depth quoted body) (p : Position) (rest : List Char) :
    readRaw .sql (depth + 1) quoted p (body ++ '\x7d' :: rest) =
      some (body, cursorAt (body ++ ['\x7d']) rest p) := by
  induction body generalizing depth quoted p with
  | nil =>
    obtain ⟨hquotes, hbraces⟩ := h
    obtain rfl : quoted = false := by cases quoted <;> simp_all
    obtain rfl : depth = 0 := by simpa [unquoted, Text.balanced] using hbraces
    rfl
  | cons c body ih =>
    obtain ⟨rfl, rfl, rfl⟩ | ⟨depth', quoted', hiff, hread⟩ := readRaw_step depth quoted c
    · exact absurd rfl (encloses_closing.1 h).1
    · rw [List.cons_append, hread, ih ((hiff body).1 h)]
      rfl

/-- What the lexer takes as a body is read up to its end. -/
theorem encloses_of_readRaw (h : readRaw .sql (depth + 1) quoted p cs = some (taken, after)) :
    Encloses depth quoted taken ∧ cs = taken ++ '\x7d' :: after.rest := by
  induction cs generalizing depth quoted p taken after with
  | nil => simp [readRaw] at h
  | cons c cs ih =>
    obtain ⟨rfl, rfl, rfl⟩ | ⟨depth', quoted', hiff, hread⟩ := readRaw_step depth quoted c
    · cases h
      exact ⟨⟨rfl, rfl⟩, rfl⟩
    · rw [hread, Option.map_eq_some_iff] at h
      obtain ⟨⟨text, after'⟩, htext, heq⟩ := h
      cases heq
      obtain ⟨henclosed, hcs⟩ := ih htext
      exact ⟨(hiff text).2 henclosed, by rw [hcs]; rfl⟩

/-! ## Queries -/

/-- A query without parameters, and what stands behind it. -/
def queryText (body rest : String) : String :=
  "query q() \x7b" ++ body ++ "\x7d" ++ rest

/-- The tokens in front of the body of a query. -/
def queryHead : List Token :=
  [⟨.keyword .queryKw, ⟨1, 1⟩⟩, ⟨.ident "q", ⟨1, 7⟩⟩, ⟨.punct .parenOpen, ⟨1, 8⟩⟩,
    ⟨.punct .parenClose, ⟨1, 9⟩⟩]

/-- The tokens of a query whose body is one raw block. -/
def queryTokens (body : String) : List Token :=
  queryHead ++ [⟨.raw (Text.trim body), ⟨1, 11⟩⟩]

def behindQuery (body : String) : Position :=
  ({} : Position).afterAll (queryText body "").toList

/-- The text behind a query is lexed as it is on its own: to the same tokens behind the same parts
of it, or with the same error. -/
inductive Continued (body rest : String) : Prop where
  | tokens (spots : List (TokenKind × List Char)) (hspots : ∀ spot ∈ spots, spot.2 <+: rest.toList)
    (halone : tokenize rest = .ok (placed {} spots))
    (hbehind : tokenize (queryText body rest) =
      .ok (queryTokens body ++ placed (behindQuery body) spots))
  | fails {before : List Char} {expected found : String} (hbefore : before <+: rest.toList)
    (halone : tokenize rest = .error ⟨({} : Position).afterAll before, expected, found⟩)
    (hbehind : tokenize (queryText body rest) =
      .error ⟨(behindQuery body).afterAll before, expected, found⟩)

theorem tokens_step {mode mode' : Option RawMode} {c c' : Cursor} {ch : Char} {more : List Char}
    {kind : TokenKind} (htoken : lexToken fuel mode ch c' = .ok (kind, after))
    (hskip : skipTrivia .blanks c.pos c.rest = .ok c') (hrest : c'.rest = ch :: more)
    (hmode : nextMode mode kind = mode') :
    tokens (fuel + 1) mode c = (tokens fuel mode' after).map (⟨kind, c'.pos⟩ :: ·) := by
  rw [tokens, hskip, ← hmode]
  dsimp only [bind, Except.bind]
  rw [hrest]
  simp only [htoken]
  cases tokens fuel (nextMode mode kind) after <;> rfl

theorem tokens_queryHead (fuel : Nat) (cs : List Char) :
    tokens (fuel + 5) none ⟨"query q() \x7b".toList ++ cs, {}⟩ =
      (tokens (fuel + 1) (some .sql) ⟨" \x7b".toList ++ cs, ⟨1, 10⟩⟩).map (queryHead ++ ·) := by
  have hquery : lexToken (fuel + 4) none 'q' ⟨"query q() \x7b".toList ++ cs, {}⟩ =
    .ok (.keyword .queryKw, ⟨" q() \x7b".toList ++ cs, ⟨1, 6⟩⟩) := rfl
  have hname : lexToken (fuel + 3) (some .sql) 'q' ⟨"q() \x7b".toList ++ cs, ⟨1, 7⟩⟩ =
    .ok (.ident "q", ⟨"() \x7b".toList ++ cs, ⟨1, 8⟩⟩) := rfl
  have hopen : lexToken (fuel + 2) (some .sql) '(' ⟨"() \x7b".toList ++ cs, ⟨1, 8⟩⟩ =
    .ok (.punct .parenOpen, ⟨") \x7b".toList ++ cs, ⟨1, 9⟩⟩) := rfl
  have hclose : lexToken (fuel + 1) (some .sql) ')' ⟨") \x7b".toList ++ cs, ⟨1, 9⟩⟩ =
    .ok (.punct .parenClose, ⟨" \x7b".toList ++ cs, ⟨1, 10⟩⟩) := rfl
  have hquery' : tokens (fuel + 5) none ⟨"query q() \x7b".toList ++ cs, {}⟩ =
      (tokens (fuel + 4) (some .sql) ⟨" q() \x7b".toList ++ cs, ⟨1, 6⟩⟩).map
        (⟨.keyword .queryKw, ⟨1, 1⟩⟩ :: ·) := tokens_step hquery rfl rfl rfl
  have hname' : tokens (fuel + 4) (some .sql) ⟨" q() \x7b".toList ++ cs, ⟨1, 6⟩⟩ =
      (tokens (fuel + 3) (some .sql) ⟨"() \x7b".toList ++ cs, ⟨1, 8⟩⟩).map
        (⟨.ident "q", ⟨1, 7⟩⟩ :: ·) := tokens_step hname rfl rfl rfl
  have hopen' : tokens (fuel + 3) (some .sql) ⟨"() \x7b".toList ++ cs, ⟨1, 8⟩⟩ =
      (tokens (fuel + 2) (some .sql) ⟨") \x7b".toList ++ cs, ⟨1, 9⟩⟩).map
        (⟨.punct .parenOpen, ⟨1, 8⟩⟩ :: ·) := tokens_step hopen rfl rfl rfl
  have hclose' : tokens (fuel + 2) (some .sql) ⟨") \x7b".toList ++ cs, ⟨1, 9⟩⟩ =
      (tokens (fuel + 1) (some .sql) ⟨" \x7b".toList ++ cs, ⟨1, 10⟩⟩).map
        (⟨.punct .parenClose, ⟨1, 9⟩⟩ :: ·) := tokens_step hclose rfl rfl rfl
  rw [hquery', hname', hopen', hclose']
  cases tokens (fuel + 1) (some .sql) ⟨" \x7b".toList ++ cs, ⟨1, 10⟩⟩ <;> rfl

/-- The body of a query, where the lexer finds its end. -/
theorem tokens_raw (h : readRaw .sql 1 false ⟨1, 12⟩ cs = some (taken, after)) (fuel : Nat) :
    tokens (fuel + 1) (some .sql) ⟨" \x7b".toList ++ cs, ⟨1, 10⟩⟩ = (tokens fuel none after).map
      (⟨.raw (String.ofList (Text.trimChars taken)), ⟨1, 11⟩⟩ :: ·) := by
  have hread : readRaw .sql 1 false ((⟨1, 11⟩ : Position).after '\x7b') cs
    = some (taken, after) := h
  have hraw : lexToken fuel (some .sql) '\x7b' ⟨"\x7b".toList ++ cs, ⟨1, 11⟩⟩ =
      .ok (.raw (String.ofList (Text.trimChars taken)), after) := by
    simp [lexToken, lexRaw, hread]
  exact tokens_step hraw rfl rfl rfl

theorem tokens_raw_none (h : readRaw .sql 1 false ⟨1, 12⟩ cs = none) (fuel : Nat) :
    tokens (fuel + 1) (some .sql) ⟨" \x7b".toList ++ cs, ⟨1, 10⟩⟩ =
      .error ⟨⟨1, 11⟩, "'\x7d'", "end of file"⟩ := by
  have hread : readRaw .sql 1 false ((⟨1, 11⟩ : Position).after '\x7b') cs = none := h
  have hraw : lexToken fuel (some .sql) '\x7b' ⟨"\x7b".toList ++ cs, ⟨1, 11⟩⟩ =
      .error ⟨⟨1, 11⟩, "'\x7d'", "end of file"⟩ := by
    simp [lexToken, lexRaw, hread]
  have hskip : skipTrivia .blanks ⟨1, 10⟩ (" \x7b".toList ++ cs) =
      .ok ⟨"\x7b".toList ++ cs, ⟨1, 11⟩⟩ := rfl
  rw [tokens, hskip]
  change (lexToken fuel (some .sql) '\x7b' ⟨"\x7b".toList ++ cs, ⟨1, 11⟩⟩ >>= _) = _
  rw [hraw]
  rfl

theorem tokenize_queryText (body rest : String) : tokenize (queryText body rest) =
    (tokens (rest.toList.length + body.toList.length + 9) (some .sql)
      ⟨" \x7b".toList ++ (body.toList ++ '\x7d' :: rest.toList), ⟨1, 10⟩⟩).map
        (queryHead ++ ·) := by
  have htext : (queryText body rest).toList =
      "query q() \x7b".toList ++ (body.toList ++ '\x7d' :: rest.toList) := by
    simp [queryText]
  have hlength : (queryText body rest).toList.length + 1 =
      (rest.toList.length + body.toList.length + 8) + 5 := by
    rw [htext]
    simp
    omega
  rw [tokenize, hlength, htext, tokens_queryHead]

/-- A body that is read up to its end. -/
theorem Encloses.continued {body : String} (h : Enclosed body.toList) (rest : String) :
    Continued body rest := by
  have hread := h.readRaw ⟨1, 12⟩ rest.toList
  have htokens : tokenize (queryText body rest) = (tokens (rest.toList.length + 1) none
      (cursorAt [] rest.toList (behindQuery body))).map (queryTokens body ++ ·) := by
    have hcursor : cursorAt (body.toList ++ ['\x7d']) rest.toList ⟨1, 12⟩ =
        cursorAt [] rest.toList (behindQuery body) := by
      have htext : (queryText body "").toList =
          "query q() \x7b".toList ++ (body.toList ++ ['\x7d']) := by simp [queryText]
      rw [behindQuery, htext, Position.afterAll_append]
      rfl
    rw [hcursor] at hread
    rw [tokenize_queryText, tokens_raw hread, tokens_fuel none (by rw [cursorAt_rest]; omega)
      (Nat.lt_succ_self (cursorAt [] rest.toList (behindQuery body)).rest.length), cursorAt_rest]
    cases tokens (rest.toList.length + 1) none (cursorAt [] rest.toList (behindQuery body)) <;> rfl
  have hlexed := tokens_lexed (rest.toList.length + 1) none (List.nil_append rest.toList)
  cases hlexed with
  | tokens spots hspots hall =>
    refine .tokens spots hspots (hall {}) ?_
    rw [htokens, hall]
    rfl
  | fails hbefore hall =>
    refine .fails hbefore (hall {}) ?_
    rw [htokens, hall]
    rfl

theorem count_dropWhile_isBlank (h : Text.isBlank c = false) (cs : List Char) :
    (cs.dropWhile Text.isBlank).count c = cs.count c := by
  induction cs with
  | nil => rfl
  | cons d cs ih =>
    by_cases hd : Text.isBlank d = true
    · have hne : d ≠ c := by
        rintro rfl
        rw [hd] at h
        cases h
      rw [List.dropWhile_cons_of_pos hd, ih, List.count_cons_of_ne hne]
    · rw [List.dropWhile_cons_of_neg hd]

/-- Trimming takes blanks only. -/
theorem count_trimChars (h : Text.isBlank c = false) (cs : List Char) :
    (Text.trimChars cs).count c = cs.count c := by
  rw [Text.trimChars, Text.dropEndWhile, List.count_reverse, count_dropWhile_isBlank h,
    List.count_reverse, count_dropWhile_isBlank h]

/-- The part in front of a separator, told by how often the separator stands in it. -/
theorem eq_of_append_cons_eq {cs cs' rest rest' : List Char}
    (h : cs ++ c :: rest = cs' ++ c :: rest') (hcount : cs.count c = cs'.count c) : cs = cs' := by
  obtain ⟨more, rfl, hmore⟩ | ⟨more, rfl, hmore⟩ := List.append_eq_append_iff.1 h
  all_goals
    cases more with
    | nil => simp
    | cons d more =>
      obtain ⟨rfl, -⟩ := List.cons.inj hmore
      simp [List.count_append] at hcount

/-- A query whose body is one raw block with the text of the body. -/
theorem enclosed_of_tokens {body rest : String} {ts : List Token}
    (h : tokenize (queryText body rest) = .ok (queryTokens body ++ ts)) : Enclosed body.toList := by
  rw [tokenize_queryText] at h
  cases hread : readRaw .sql 1 false ⟨1, 12⟩ (body.toList ++ '\x7d' :: rest.toList) with
  | none =>
    rw [tokens_raw_none hread] at h
    cases h
  | some x =>
    obtain ⟨taken, after⟩ := x
    obtain ⟨henclosed, hcs⟩ := encloses_of_readRaw hread
    rw [tokens_raw hread] at h
    have htrim : Text.trimChars taken = Text.trimChars body.toList := by
      cases hmore : tokens (rest.toList.length + body.toList.length + 8) none after with
      | error e =>
        rw [hmore] at h
        cases h
      | ok ts' =>
        rw [hmore] at h
        have hall := Except.ok.inj h
        rw [queryTokens, List.append_assoc, List.append_right_inj] at hall
        simpa [Text.trim, String.ofList_inj] using (List.cons.inj hall).1
    have hcount : body.toList.count '\x7d' = taken.count '\x7d' := by
      rw [← count_trimChars (by decide) body.toList, ← htrim, count_trimChars (by decide)]
    rwa [eq_of_append_cons_eq hcs hcount]

end Lexer

/-! ## The scanner's reading -/

namespace Sql

/-- The region that a text leaves open. -/
def Region.behind : Region → List Char → Region
  | open?, [] => open?
  | open?, c :: cs => (open?.step c cs.head?).2.behind cs

/-- Quoted text or a comment. -/
def Region.isOpaque : Region → Bool
  | .quoted _ | .comment => true
  | .plain | .cast => false

/-- What stands outside of quoted text and comments. -/
def Marked.visible (m : Marked) : List Char :=
  (m.filter fun x => !x.2.isOpaque).map (·.1)

/-- To the scanner, all quoted texts and comments of a body are closed, and the braces outside of
them are balanced. -/
structure Regular (body : String) : Prop where
  closed : Region.plain.behind body.toList = .plain
  braces : Text.balanced 0 (marked body).visible = true

/-- No brace and no single quote stands where only the scanner sees quoted text or a comment. -/
def Unmixed (m : Marked) : Prop :=
  ∀ x ∈ m, x.1 = '\x7b' ∨ x.1 = '\x7d' ∨ x.1 = '\'' → x.2 = .plain ∨ x.2 = .quoted '\''

variable {c : Char} {cs : List Char} {next : Option Char} {open? : Region} {depth : Nat}

theorem visible_cons (c : Char) (region : Region) (m : Marked) :
    Marked.visible ((c, region) :: m) = if region.isOpaque then m.visible else c :: m.visible := by
  rw [Marked.visible, List.filter_cons]
  cases region.isOpaque <;> rfl

/-- A single quote, where the lexer and the scanner agree on it. -/
theorem Region.step_quote
    (h : (open?.step '\'' next).1 = .plain ∨ (open?.step '\'' next).1 = .quoted '\'') :
    (open? = .plain ∧ open?.step '\'' next = (.quoted '\'', .quoted '\'')) ∨
      (open? = .quoted '\'' ∧ open?.step '\'' next = (.quoted '\'', .plain)) := by
  cases open? with
  | plain => exact .inl ⟨rfl, rfl⟩
  | quoted quote =>
    obtain h | h := h
    · cases h
    · obtain rfl : quote = '\'' := Region.quoted.inj h
      exact .inr ⟨rfl, rfl⟩
  | comment => simp [Region.step] at h
  | cast => simp [Region.step] at h

/-- Only single quotes open and close what is quoted with them. -/
theorem Region.step_other (hc : c ≠ '\'') (hopen : open? ≠ .quoted '\'') (next : Option Char) :
    (open?.step c next).1 ≠ .quoted '\'' ∧ (open?.step c next).2 ≠ .quoted '\'' := by
  cases open? with
  | quoted quote =>
    refine ⟨hopen, ?_⟩
    rw [Region.step]
    split
    · simp
    · exact hopen
  | _ =>
    rw [Region.step]
    repeat' split
    all_goals simp [hc]

/-- If the scanner and the lexer agree on what is quoted, the lexer reads the body to its end. -/
theorem encloses_of_unmixed (hopen : open?.behind cs = .plain)
    (hbraces : Text.balanced depth (marksFrom open? cs).visible = true)
    (hunmixed : Unmixed (marksFrom open? cs)) :
    Lexer.Encloses depth (open? == .quoted '\'') cs := by
  induction cs generalizing open? depth with
  | nil =>
    obtain rfl : open? = .plain := hopen
    exact ⟨rfl, hbraces⟩
  | cons c cs ih =>
    rw [marksFrom_cons] at hunmixed
    have hc := hunmixed _ List.mem_cons_self
    have hrest : Unmixed (marksFrom (open?.step c cs.head?).2 cs) := fun x hx =>
      hunmixed x (List.mem_cons_of_mem _ hx)
    rw [marksFrom_cons, visible_cons] at hbraces
    rw [Region.behind] at hopen
    by_cases hquote : c = '\''
    · subst hquote
      obtain ⟨rfl, hstep⟩ | ⟨rfl, hstep⟩ := Region.step_quote (hc (.inr (.inr rfl))) <;>
        rw [hstep] at hopen hbraces hrest
      · exact Lexer.encloses_quote.2 (ih hopen hbraces hrest)
      · exact Lexer.encloses_quote.2 (ih hopen hbraces hrest)
    by_cases hinside : open? = .quoted '\''
    · subst hinside
      rw [Region.step_inside hquote] at hopen hbraces hrest
      exact (Lexer.encloses_quoted hquote).2 (ih hopen hbraces hrest)
    · obtain ⟨hhere, hafter⟩ := Region.step_other hquote hinside cs.head?
      have hfalse : ∀ {r : Region}, r ≠ .quoted '\'' → (r == .quoted '\'') = false := fun h => by
        simpa using h
      have hplain : c = '\x7b' ∨ c = '\x7d' → (open?.step c cs.head?).1 = .plain := fun h =>
        (hc (h.imp_right .inl)).resolve_right hhere
      rw [hfalse hinside]
      have hmore : ∀ {depth : Nat},
          Text.balanced depth (marksFrom (open?.step c cs.head?).2 cs).visible = true →
            Lexer.Encloses depth false cs := fun h => by
        rw [← hfalse hafter]
        exact ih hopen h hrest
      by_cases hbrace : c = '\x7b'
      · subst hbrace
        rw [hplain (.inl rfl)] at hbraces
        exact Lexer.encloses_opening.2 (hmore hbraces)
      by_cases hbrace' : c = '\x7d'
      · subst hbrace'
        rw [hplain (.inr rfl), if_neg (by decide), Text.balanced, if_neg (by decide),
          if_pos (by rfl), Bool.and_eq_true, bne_iff_ne] at hbraces
        exact Lexer.encloses_closing.2 ⟨hbraces.1, hmore hbraces.2⟩
      · refine (Lexer.encloses_cons hquote ⟨hbrace, hbrace'⟩).2 (hmore ?_)
        split at hbraces
        · exact hbraces
        · rwa [Text.balanced_cons ⟨hbrace, hbrace'⟩] at hbraces

end Sql

namespace Lexer

/-- A query is lexed to one raw block with the text of its body, and then to the tokens of what
stands behind it, if the lexer reads the body up to its end; and only then is the raw block that
text. A body that is closed and balanced to the scanner is read up to its end if no brace and no
single quote stands in a comment or in text with another kind of quotes. -/
theorem tokenize_query (body rest : String) :
    (Enclosed body.toList → Continued body rest) ∧
      (∀ ts, tokenize (queryText body rest) = .ok (queryTokens body ++ ts) →
        Enclosed body.toList) ∧
      (Sql.Regular body → Sql.Unmixed (Sql.marked body) → Enclosed body.toList) :=
  ⟨fun h => h.continued rest, fun _ => enclosed_of_tokens,
    fun h hunmixed => Sql.encloses_of_unmixed h.closed h.braces hunmixed⟩

theorem tokenize_query_quoted : Enclosed "select '\x7d' from t".toList ∧
    Continued "select '\x7d' from t" "struct S \x7b \x7d" :=
  have h : Enclosed "select '\x7d' from t".toList :=
    (tokenize_query "select '\x7d' from t" "struct S \x7b \x7d").2.2 ⟨by decide, by decide⟩
      (by unfold Sql.Unmixed; decide)
  ⟨h, (tokenize_query "select '\x7d' from t" "struct S \x7b \x7d").1 h⟩

/-- A brace in double quotes ends the body for the lexer, although the scanner reads past it. -/
theorem tokenize_query_doubleQuoted :
    Sql.Regular "select \"\x7d\" from t" ∧ ¬Continued "select \"\x7d\" from t" "" ∧
      tokenize (queryText "select \"\x7d\" from t" "") =
        .error ⟨⟨1, 21⟩, "closing \"", "end of file"⟩ := by
  have herror : tokenize (queryText "select \"\x7d\" from t" "") =
      .error ⟨⟨1, 21⟩, "closing \"", "end of file"⟩ := by decide +kernel
  refine ⟨⟨by decide, by decide⟩, fun h => ?_, herror⟩
  cases h with
  | tokens _ _ _ hbehind =>
    rw [herror] at hbehind
    cases hbehind
  | fails _ halone _ => cases halone

end Lexer

end Scaffold
