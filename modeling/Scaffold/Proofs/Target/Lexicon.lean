import Scaffold.Proofs.Rendering
import Scaffold.Proofs.Target.Grammar
import Scaffold.Proofs.Target.Quoting
import Scaffold.Proofs.Token.Lexing

/-!
# Tokens of written expressions

How a language cuts the text of an expression into tokens: words, numbers, string literals,
parentheses and signs, of which the longest one is taken.

* `Lexicon.lex`: the tokens of a text.
* `Lexicon.Passes lx cs ks rest`: the tokens `ks` are taken from the front of `cs`, and `rest` is
  left.
* `Lexicon.Written lx text t`: the text is cut into the tokens of the expression in front of whatever
  does not continue it; there is one lemma for each way in which texts are put together.
* `ExprRules.Denotes`: what a text denotes by a lexicon and a grammar; it denotes at most one
  expression (`Denotes.unique`), and what was written only if it follows the grammar
  (`denotes_iff`).
-/

namespace Scaffold.Target

open Lexer (isNameStart isNameChar span_append)

/-! ## Cutting a text into tokens -/

/-- What expressions of a language are written with. Words are made of the same characters as names
of sources. -/
structure Lexicon where
  quoting : Quoting
  /-- The sign inside a path. -/
  path : String
  /-- Signs, those that start with another one in front of it. -/
  signs : List String
  signs_apart : ∀ s ∈ signs, s.toList.all fun c =>
    !isNameChar c && !([' ', '(', ')', quoting.quote].contains c)

namespace Lexicon

variable (lx : Lexicon)

theorem apart {s : String} {c : Char} (hs : s ∈ lx.signs) (hc : c ∈ s.toList) :
    isNameChar c = false ∧ c ∉ [' ', '(', ')', lx.quoting.quote] := by
  have hall := List.all_eq_true.1 (lx.signs_apart s hs) c hc
  rw [Bool.and_eq_true, Bool.not_eq_true', Bool.not_eq_true'] at hall
  exact ⟨hall.1, fun hmem => by simp [hmem] at hall⟩

def sign (s : String) : Tok :=
  if s = lx.path then .dot else .mark (.sign s)

/-- The number at the start, and what is left. Only zero starts with a zero, unless a fraction
follows. -/
def number? (cs : List Char) : Option (Tok × List Char) :=
  let digits := cs.takeWhile Char.isDigit
  let n := Number.digitsValue digits
  let found :=
    match cs.dropWhile Char.isDigit with
    | '.' :: rest =>
      let fraction := rest.takeWhile Char.isDigit
      if fraction = [] then none
      else
        some (Tok.decimal (String.ofList (digits ++ '.' :: fraction)), rest.dropWhile Char.isDigit)
    | rest => if Nat.toDigits 10 n = digits then some (.number n, rest) else none
  found.filter fun (_, rest) => !rest.head?.any fun c => isNameChar c || c == '.'

/-- The token at the start, and what is left. -/
def next? : List Char → Option (Tok × List Char)
  | [] => none
  | c :: cs =>
    if c = ' ' then none
    else if isNameStart c then
      some (.mark (.word (String.ofList ((c :: cs).takeWhile isNameChar))),
        (c :: cs).dropWhile isNameChar)
    else if c.isDigit then number? (c :: cs)
    else if c = lx.quoting.quote then
      (lx.quoting.body cs).map fun (text, rest) => (.text (String.ofList text), rest)
    else if c = '(' then some (.opening, cs)
    else if c = ')' then some (.closing, cs)
    else
      (lx.signs.find? fun s => s.toList.isPrefixOf (c :: cs)).map fun s =>
        (lx.sign s, (c :: cs).drop s.toList.length)

/-- Tokens with spaces around them. -/
def tokens : (fuel : Nat) → List Char → Option (List Tok)
  | 0, _ => none
  | _ + 1, [] => some []
  | fuel + 1, c :: cs =>
    if c = ' ' then tokens fuel cs
    else (lx.next? (c :: cs)).bind fun (k, rest) => (tokens fuel rest).map (k :: ·)

def lex (text : String) : Option (List Tok) :=
  lx.tokens (text.toList.length + 1) text.toList

/-- Tokens at the front, and what is left. -/
inductive Passes : List Char → List Tok → List Char → Prop
  | done {rest : List Char} : Passes rest [] rest
  | space {cs rest : List Char} {ks : List Tok} (h : Passes cs ks rest) : Passes (' ' :: cs) ks rest
  | token {cs mid rest : List Char} {k : Tok} {ks : List Tok} (hk : lx.next? cs = some (k, mid))
    (hmid : mid.length < cs.length) (h : Passes mid ks rest) : Passes cs (k :: ks) rest

variable {lx} {cs mid rest : List Char} {k : Tok} {ks ks' : List Tok} {text : String}

namespace Passes

theorem trans (h : lx.Passes cs ks mid) (h' : lx.Passes mid ks' rest) :
    lx.Passes cs (ks ++ ks') rest := by
  induction h with
  | done => exact h'
  | space _ ih => exact .space (ih h')
  | token hk hmid _ ih => exact .token hk hmid (ih h')

theorem single (hk : lx.next? cs = some (k, rest)) (hrest : rest.length < cs.length) :
    lx.Passes cs [k] rest :=
  .token hk hrest .done

/-- Whoever passes all of a text has its tokens. -/
theorem tokens (h : lx.Passes cs ks rest) (hrest : rest = []) :
    ∀ fuel, cs.length < fuel → lx.tokens fuel cs = some ks := by
  induction h with
  | done =>
    subst hrest
    rintro (_ | fuel) hfuel
    · exact absurd hfuel (Nat.not_lt_zero _)
    · rfl
  | space _ ih =>
    rintro (_ | fuel) hfuel
    · exact absurd hfuel (Nat.not_lt_zero _)
    · rw [Lexicon.tokens, if_pos rfl]
      exact ih hrest fuel (Nat.lt_of_succ_lt_succ hfuel)
  | @token cs mid rest k ks hk hmid _ ih =>
    rintro (_ | fuel) hfuel
    · exact absurd hfuel (Nat.not_lt_zero _)
    · cases cs with
      | nil => cases hk
      | cons c cs =>
        have hspace : c ≠ ' ' := by
          rintro rfl
          cases hk
        have hinner : lx.tokens fuel mid = some ks := by
          refine ih hrest fuel ?_
          simp only [List.length_cons] at hfuel hmid
          omega
        rw [Lexicon.tokens, if_neg hspace, hk, Option.bind_some]
        dsimp only
        rw [hinner, Option.map_some]

theorem lex (h : lx.Passes text.toList ks []) : lx.lex text = some ks :=
  h.tokens rfl _ (Nat.lt_succ_self _)

end Passes

/-! ## Single tokens -/

/-- A name as the lexicon reads it. -/
def isWord (w : String) : Bool :=
  match w.toList with
  | [] => false
  | c :: cs => isNameStart c && cs.all isNameChar

theorem isWord_cons {w : String} (hw : isWord w = true) : ∃ c cs, w.toList = c :: cs ∧
    isNameStart c = true ∧ ∀ x ∈ w.toList, isNameChar x = true := by
  unfold isWord at hw
  split at hw
  · cases hw
  · rename_i c cs hcs
    simp only [Bool.and_eq_true, List.all_eq_true] at hw
    refine ⟨c, cs, hcs, hw.1, ?_⟩
    rw [hcs]
    exact List.forall_mem_cons.2 ⟨Lexer.isNameChar_of_isNameStart hw.1, hw.2⟩

theorem length_append_lt (h : cs ≠ []) : rest.length < (cs ++ rest).length := by
  have hpos := List.length_pos_of_ne_nil h
  rw [List.length_append]
  omega

theorem passes_word {w : String} (hw : isWord w = true)
    (hend : ∀ c ∈ rest.head?, isNameChar c = false) :
    lx.Passes (w.toList ++ rest) [.mark (.word w)] rest := by
  obtain ⟨c, cs, hcs, hc, hall⟩ := isWord_cons hw
  obtain ⟨htake, hdrop⟩ := span_append hall hend
  have hspace : c ≠ ' ' := by
    rintro rfl
    exact absurd hc (by decide)
  refine .single ?_ (length_append_lt (by rw [hcs]; exact List.cons_ne_nil _ _))
  rw [hcs, List.cons_append] at htake hdrop ⊢
  rw [next?, if_neg hspace, if_pos hc, htake, hdrop, ← hcs, String.ofList_toList]

theorem isDigit_apart {c : Char} (hc : c.isDigit = true) : c ≠ ' ' ∧ isNameStart c = false := by
  refine ⟨?_, (Lexer.isDigit_cases hc).2.2⟩
  rintro rfl
  cases hc

theorem next?_digits {digits : List Char} (hne : digits ≠ [])
    (hall : ∀ c ∈ digits, c.isDigit = true) :
    lx.next? (digits ++ rest) = number? (digits ++ rest) := by
  obtain ⟨c, digits, rfl⟩ := List.exists_cons_of_ne_nil hne
  have hc := hall c List.mem_cons_self
  obtain ⟨hspace, hname⟩ := isDigit_apart hc
  rw [List.cons_append, next?, if_neg hspace, if_neg (by simp [hname]), if_pos hc]

/-- What neither a name nor a number goes on with. -/
def Closes (rest : List Char) : Prop :=
  ∀ c ∈ rest.head?, c ∈ [' ', '(', ')']

theorem Closes.cons {c : Char} (hc : c ∈ [' ', '(', ')']) : Closes (c :: rest) := by
  intro x hx
  cases hx
  exact hc

theorem closes_nil : Closes [] := fun _ h => by cases h

theorem Closes.name (h : Closes rest) : ∀ c ∈ rest.head?, isNameChar c = false := fun c hc =>
  List.all_iff_forall_prop.1 (by decide : [' ', '(', ')'].all (fun c => isNameChar c = false)) c
    (h c hc)

theorem Closes.digit (h : Closes rest) : ∀ c ∈ rest.head?, c.isDigit = false := fun c hc =>
  List.all_iff_forall_prop.1 (by decide : [' ', '(', ')'].all (fun c => c.isDigit = false)) c
    (h c hc)

theorem Closes.number (h : Closes rest) :
    (!rest.head?.any fun c => isNameChar c || c == '.') = true := by
  rw [Bool.not_eq_true', Option.any_eq_false]
  have hends : ∀ c ∈ [' ', '(', ')'], (isNameChar c || c == '.') = false :=
    List.all_iff_forall_prop.1 (by decide)
  exact fun c hc => hends c (h c hc)

theorem passes_number (n : Nat) (h : Closes rest) :
    lx.Passes (Nat.toDigits 10 n ++ rest) [.number n] rest := by
  have hall : ∀ c ∈ Nat.toDigits 10 n, c.isDigit = true := fun c hc =>
    Nat.isDigit_of_mem_toDigits (by decide) (by decide) hc
  have hne : Nat.toDigits 10 n ≠ [] := Nat.toDigits_ne_nil
  obtain ⟨htake, hdrop⟩ := span_append hall h.digit
  refine .single ?_ (length_append_lt hne)
  rw [next?_digits hne hall, number?]
  dsimp only
  rw [htake, hdrop, Lexer.digitsValue_toDigits]
  split
  · rename_i more
    exact absurd (h '.' rfl) (by decide)
  · rw [if_pos rfl]
    exact Option.filter_some_pos h.number

/-- A number with a fraction. -/
structure IsDecimal (digits : String) : Prop where
  parts : ∃ whole fraction, digits.toList = whole ++ '.' :: fraction ∧ whole ≠ [] ∧ fraction ≠ [] ∧
    (∀ c ∈ whole, c.isDigit = true) ∧ ∀ c ∈ fraction, c.isDigit = true

theorem passes_decimal {digits : String} (hdigits : IsDecimal digits) (h : Closes rest) :
    lx.Passes (digits.toList ++ rest) [.decimal digits] rest := by
  obtain ⟨whole, fraction, htext, hne, hne', hwhole, hfraction⟩ := hdigits.parts
  have hpoint : ∀ c ∈ ('.' :: (fraction ++ rest)).head?, c.isDigit = false := by
    rintro _ ⟨⟩
    decide
  obtain ⟨htake, hdrop⟩ := span_append hwhole hpoint
  obtain ⟨htake', hdrop'⟩ := span_append hfraction h.digit
  refine .single ?_ (length_append_lt (by simp [htext]))
  rw [← String.ofList_toList (s := digits), htext, String.toList_ofList, List.append_assoc,
    List.cons_append, next?_digits hne hwhole, number?]
  simp only [htake, hdrop, htake', hdrop', if_neg hne']
  exact Option.filter_some_pos h.number

theorem passes_text {s : String} (hquote : lx.quoting.quote = '"')
    (hbody : lx.quoting.body (escapedChars s.toList ++ '"' :: rest) = some (s.toList, rest)) :
    lx.Passes ('"' :: (escapedChars s.toList ++ '"' :: rest)) [.text s] rest := by
  refine .single ?_ (by simp; omega)
  rw [next?, if_neg (by decide), if_neg (by decide), if_neg (by decide), if_pos hquote.symm, hbody,
    Option.map_some]
  dsimp only
  rw [String.ofList_toList]

theorem passes_opening (h : lx.quoting.quote = '"') : lx.Passes ('(' :: rest) [.opening] rest := by
  refine .single ?_ (by simp)
  rw [next?, if_neg (by decide), if_neg (by decide), if_neg (by decide), if_neg (by simp [h]),
    if_pos rfl]

theorem passes_closing (h : lx.quoting.quote = '"') : lx.Passes (')' :: rest) [.closing] rest := by
  refine .single ?_ (by simp)
  rw [next?, if_neg (by decide), if_neg (by decide), if_neg (by decide), if_neg (by simp [h]),
    if_neg (by decide), if_pos rfl]

/-! ### Signs -/

/-- No longer sign starts with this one and the character. -/
def stops (lx : Lexicon) (s : String) (c : Char) : Bool :=
  lx.signs.all fun s' => !(s.toList ++ [c]).isPrefixOf s'.toList

/-- The sign is one of the lexicon, and none in front of it starts it. -/
def IsSign (lx : Lexicon) (s : String) : Prop :=
  s ≠ "" ∧ lx.signs.find? (fun s' => s'.toList.isPrefixOf s.toList) = some s

instance (s : String) : Decidable (lx.IsSign s) :=
  inferInstanceAs (Decidable (_ ∧ _))

theorem stops_of_not_mem {s : String} {c : Char} (h : ∀ s' ∈ lx.signs, c ∉ s'.toList) :
    lx.stops s c = true := by
  refine List.all_eq_true.2 fun s' hs' => ?_
  rw [Bool.not_eq_true', ← Bool.not_eq_true, List.isPrefixOf_iff_prefix]
  exact fun hle => h s' hs' (hle.subset (by simp))

/-- A sign ends in front of anything if no sign that starts with it is longer. -/
theorem stops_of_length {s : String}
    (h : ∀ s' ∈ lx.signs, s.toList <+: s'.toList → s'.length ≤ s.length) (x : Char) :
    lx.stops s x = true := by
  refine List.all_eq_true.2 fun s' hs' => ?_
  rw [Bool.not_eq_true', ← Bool.not_eq_true, List.isPrefixOf_iff_prefix]
  intro hprefix
  have hle := h s' hs' ((List.prefix_append _ _).trans hprefix)
  have hlength := hprefix.length_le
  rw [List.length_append, List.length_singleton, String.length_toList, String.length_toList] at hlength
  omega

theorem stops_of_isNameChar {s : String} {c : Char} (hc : isNameChar c = true) :
    lx.stops s c = true := by
  refine stops_of_not_mem fun s' hs' hmem => ?_
  rw [(lx.apart hs' hmem).1] at hc
  cases hc

theorem isPrefixOf_append {s s' : String} (hs' : s' ∈ lx.signs)
    (hend : ∀ c ∈ rest.head?, lx.stops s c = true) :
    s'.toList.isPrefixOf (s.toList ++ rest) = s'.toList.isPrefixOf s.toList := by
  rw [Bool.eq_iff_iff, List.isPrefixOf_iff_prefix, List.isPrefixOf_iff_prefix]
  refine ⟨fun h => ?_, fun h => h.trans (List.prefix_append _ _)⟩
  obtain hle | hle := List.prefix_or_prefix_of_prefix h (List.prefix_append s.toList rest)
  · exact hle
  · obtain ⟨u, hu⟩ := hle
    cases u with
    | nil => exact ⟨[], by rw [← hu, List.append_nil, List.append_nil]⟩
    | cons c u =>
      rw [← hu, List.prefix_append_right_inj] at h
      obtain ⟨more, rfl⟩ := h
      have hstop := List.all_eq_true.1 (hend c rfl) s' hs'
      rw [Bool.not_eq_true', ← Bool.not_eq_true, List.isPrefixOf_iff_prefix] at hstop
      exact absurd ⟨u, by rw [← hu]; simp⟩ hstop

theorem passes_sign {s : String} (hs : lx.IsSign s) (rest : List Char)
    (hend : ∀ c ∈ rest.head?, lx.stops s c = true) :
    lx.Passes (s.toList ++ rest) [lx.sign s] rest := by
  have hmem := List.mem_of_find?_eq_some hs.2
  have hfind : lx.signs.find? (fun s' => s'.toList.isPrefixOf (s.toList ++ rest)) = some s := by
    rw [← hs.2, ← List.head?_filter, ← List.head?_filter,
      List.filter_congr fun s' hs' => isPrefixOf_append hs' hend]
  have hne : s.toList ≠ [] := by simpa using hs.1
  refine .single ?_ (length_append_lt hne)
  obtain ⟨c, cs, hcs⟩ := List.exists_cons_of_ne_nil hne
  have hhead : c ∈ s.toList := by rw [hcs]; exact List.mem_cons_self
  obtain ⟨hname, hc⟩ := lx.apart hmem hhead
  simp only [List.mem_cons, List.not_mem_nil, or_false, not_or] at hc
  obtain ⟨hspace, hopening, hclosing, hquote⟩ := hc
  rw [hcs, List.cons_append] at hfind ⊢
  have hstart : ¬isNameStart c = true := fun h => by
    rw [Lexer.isNameChar_of_isNameStart h] at hname
    cases hname
  have hdigit : ¬c.isDigit = true := fun h => by
    rw [Lexer.isNameChar_of_isDigit h] at hname
    cases hname
  rw [next?, if_neg hspace, if_neg hstart, if_neg hdigit, if_neg hquote, if_neg hopening,
    if_neg hclosing, hfind, Option.map_some, hcs, ← List.cons_append,
    List.drop_left]

/-! ### Paths -/

/-- Names with the sign inside a path in front of each. -/
def pathText (lx : Lexicon) (names : List String) : List Char :=
  names.flatMap fun w => lx.path.toList ++ w.toList

theorem head?_pathText (hpath : lx.IsSign lx.path) (names : List String)
    (hend : ∀ c ∈ rest.head?, isNameChar c = false) :
    ∀ c ∈ (lx.pathText names ++ rest).head?, isNameChar c = false := by
  cases names with
  | nil => exact hend
  | cons w names =>
    obtain ⟨c, cs, hcs⟩ := List.exists_cons_of_ne_nil (l := lx.path.toList) (by simpa using hpath.1)
    intro x hx
    simp only [pathText, List.flatMap_cons, hcs, List.cons_append] at hx
    cases hx
    have hhead : c ∈ lx.path.toList := by rw [hcs]; exact List.mem_cons_self
    exact (lx.apart (List.mem_of_find?_eq_some hpath.2) hhead).1

theorem passes_pathText {names : List String} (hpath : lx.IsSign lx.path)
    (hnames : ∀ w ∈ names, isWord w = true) (hend : ∀ c ∈ rest.head?, isNameChar c = false) :
    lx.Passes (lx.pathText names ++ rest) (names.flatMap fun w => [.dot, .mark (.word w)]) rest := by
  induction names with
  | nil => exact .done
  | cons w names ih =>
    obtain ⟨hw, hnames⟩ := List.forall_mem_cons.1 hnames
    obtain ⟨c, cs, hcs, hc, -⟩ := isWord_cons hw
    have hsign := passes_sign hpath (w.toList ++ (lx.pathText names ++ rest)) fun x hx => by
      rw [hcs] at hx
      cases hx
      exact stops_of_isNameChar (Lexer.isNameChar_of_isNameStart hc)
    rw [sign, if_pos rfl] at hsign
    have hword : lx.Passes (w.toList ++ (lx.pathText names ++ rest)) [.mark (.word w)]
        (lx.pathText names ++ rest) := passes_word hw (head?_pathText hpath names hend)
    have hall := hsign.trans (hword.trans (ih hnames))
    simpa [pathText] using hall

/-! ## Texts that were put together -/

/-- A token starts with a character. -/
def Starts (lx : Lexicon) (c : Char) : Tok → Prop
  | .mark (.word _) => isNameStart c = true
  | .mark (.sign s) => lx.IsSign s ∧ s.toList.head? = some c
  | .number _ | .decimal _ => c.isDigit = true
  | .text _ => c = lx.quoting.quote
  | .opening => c = '('
  | .closing => c = ')'
  | .dot => lx.IsSign lx.path ∧ lx.path.toList.head? = some c

/-- The token is a sign other than a parenthesis. -/
def isSign : Tok → Bool
  | .mark (.sign _) | .dot => true
  | _ => false

/-- A sign ends in front of what is no sign. -/
theorem Starts.stops {s : String} {c : Char} (h : lx.Starts c k) (hk : isSign k = false) :
    lx.stops s c = true := by
  have happart : c ∈ [' ', '(', ')', lx.quoting.quote] → lx.stops s c = true := fun hc =>
    stops_of_not_mem fun s' hs' hmem => (lx.apart hs' hmem).2 hc
  cases k with
  | mark m =>
    cases m with
    | word => exact stops_of_isNameChar (Lexer.isNameChar_of_isNameStart h)
    | sign => cases hk
  | number | decimal => exact stops_of_isNameChar (Lexer.isNameChar_of_isDigit h)
  | text => exact happart (by rw [show c = lx.quoting.quote from h]; simp)
  | opening => exact happart (by rw [show c = '(' from h]; simp)
  | closing => exact happart (by rw [show c = ')' from h]; simp)
  | dot => cases hk

/-- Only a text starts with a quote. -/
theorem Starts.quote {c : Char} (hquote : lx.quoting.quote = '"') (h : lx.Starts c k) :
    c = '"' ↔ ∃ s, k = .text s := by
  have hsign : ∀ s, lx.IsSign s ∧ s.toList.head? = some c → c ≠ '"' := fun s ⟨hs, hc⟩ heq =>
    (lx.apart (List.mem_of_find?_eq_some hs.2) (List.mem_of_head? hc)).2
      (by simp [heq, hquote])
  cases k with
  | text s => exact iff_of_true ((show c = lx.quoting.quote from h).trans hquote) ⟨s, rfl⟩
  | mark m =>
    cases m with
    | word =>
      have hc : c ≠ '"' := by
        rintro rfl
        exact absurd (show isNameStart '"' = true from h) (by decide)
      simpa using hc
    | sign s => simpa using hsign s h
  | number | decimal =>
    have hc : c ≠ '"' := by
      rintro rfl
      exact absurd (show '"'.isDigit = true from h) (by decide)
    simpa using hc
  | opening | closing =>
    have hc : c ≠ '"' := by
      rintro rfl
      cases h
    simpa using hc
  | dot => simpa using hsign _ h

/-- The text is cut into the tokens of the expression, in front of whatever does not continue it. -/
structure Written (lx : Lexicon) (text : String) (t : Term) : Prop where
  passes : ∀ rest, Closes rest → lx.Passes (text.toList ++ rest) t.tokens rest
  starts : ∃ c cs k ks, text.toList = c :: cs ∧ t.tokens = k :: ks ∧ lx.Starts c k

/-- How an operator is written between spaces. -/
def Spells (lx : Lexicon) (text : String) (op : Mark) : Prop :=
  ∀ rest, lx.Passes (text.toList ++ ' ' :: rest) [.mark op] (' ' :: rest)

theorem spells_word {w : String} (hw : isWord w = true) : lx.Spells w (.word w) := fun _ =>
  passes_word hw (Closes.cons (by decide)).name

theorem spells_sign {s : String} (hs : lx.IsSign s) (hpath : s ≠ lx.path) :
    lx.Spells s (.sign s) := by
  intro rest
  have hpasses := passes_sign hs (' ' :: rest) fun c hc => by
    cases hc
    refine stops_of_not_mem fun s' hs' hmem => ?_
    exact (lx.apart hs' hmem).2 (by simp)
  rwa [sign, if_neg hpath] at hpasses

namespace Written

variable {t lhs rhs : Term} {left right : String}

theorem word {w : String} (hw : isWord w = true) {x : Leaf} (hx : x.tok = .mark (.word w)) :
    lx.Written w (.leaf x) := by
  have htokens : (Term.leaf x).tokens = [.mark (.word w)] := congrArg (fun k => [k]) hx
  refine ⟨fun rest h => by rw [htokens]; exact passes_word hw h.name, ?_⟩
  obtain ⟨c, cs, hcs, hc, -⟩ := isWord_cons hw
  exact ⟨c, cs, _, [], hcs, htokens, hc⟩

theorem number (n : Nat) : lx.Written (Nat.repr n) (.leaf (.number n)) := by
  have htext : (Nat.repr n).toList = Nat.toDigits 10 n := by rw [Nat.repr, String.toList_ofList]
  refine ⟨fun rest h => by rw [htext]; exact passes_number n h, ?_⟩
  obtain ⟨c, cs, hcs⟩ := List.exists_cons_of_ne_nil (Nat.toDigits_ne_nil (b := 10) (n := n))
  refine ⟨c, cs, _, [], by rw [htext, hcs], rfl, ?_⟩
  exact Nat.isDigit_of_mem_toDigits (b := 10) (n := n) (by decide) (by decide)
    (by rw [hcs]; exact List.mem_cons_self)

theorem decimal {digits : String} (h : IsDecimal digits) :
    lx.Written digits (.leaf (.decimal digits)) := by
  refine ⟨fun rest hrest => passes_decimal h hrest, ?_⟩
  obtain ⟨whole, fraction, htext, hne, -, hwhole, -⟩ := h.parts
  obtain ⟨c, cs, rfl⟩ := List.exists_cons_of_ne_nil hne
  exact ⟨c, cs ++ '.' :: fraction, _, [], htext, rfl, hwhole c List.mem_cons_self⟩

theorem literal {s : String} (hquote : lx.quoting.quote = '"')
    (hbody : ∀ rest,
      lx.quoting.body (escapedChars s.toList ++ '"' :: rest) = some (s.toList, rest)) :
    lx.Written ("\"" ++ Naming.escape s ++ "\"") (.leaf (.text s)) := by
  refine ⟨fun rest _ => ?_, '"', escapedChars s.toList ++ ['"'], _, [], ?_, rfl, hquote.symm⟩
  · simpa [toList_escape, Term.tokens, Leaf.tok] using passes_text hquote (hbody rest)
  · simp [toList_escape]

/-- Names with the sign inside a path between them. -/
theorem path {first : String} {names : List String} (hpath : lx.IsSign lx.path)
    (h : ∀ w ∈ first :: names, isWord w = true) :
    lx.Written (first ++ String.join (names.map (lx.path ++ ·))) (.path first names) := by
  obtain ⟨hfirst, hnames⟩ := List.forall_mem_cons.1 h
  have htext : (first ++ String.join (names.map (lx.path ++ ·))).toList =
      first.toList ++ lx.pathText names := by
    simp [pathText, String.toList_join, List.flatMap_map]
  refine ⟨fun rest hrest => ?_, ?_⟩
  · have hend := head?_pathText hpath names hrest.name
    rw [htext, List.append_assoc, Term.tokens_path]
    exact (passes_word hfirst hend).trans (passes_pathText hpath hnames hrest.name)
  · obtain ⟨c, cs, hcs, hc, -⟩ := isWord_cons hfirst
    exact ⟨c, cs ++ lx.pathText names, _, _, by rw [htext, hcs]; rfl, Term.tokens_path _, hc⟩

theorem grouped (hquote : lx.quoting.quote = '"') (needed : Bool) (h : lx.Written text t) :
    lx.Written (Dialect.parenthesized needed text) (t.grouped needed) := by
  cases needed with
  | false => exact h
  | true =>
    refine ⟨fun rest _ => ?_, '(', text.toList ++ [')'], _, _,
      by simp [Dialect.parenthesized], rfl, rfl⟩
    have hinner := h.passes (')' :: rest) (.cons (by decide))
    simpa [Dialect.parenthesized, Term.grouped, Term.tokens] using
      (passes_opening hquote).trans (hinner.trans (passes_closing hquote))

theorem call (hquote : lx.quoting.quote = '"') (hlhs : lx.Written left lhs)
    (hrhs : lx.Written right rhs) :
    lx.Written (left ++ "(" ++ right ++ ")") (.call lhs rhs) := by
  refine ⟨fun rest _ => ?_, ?_⟩
  · have hinner := hrhs.passes (')' :: rest) (.cons (by decide))
    have hbehind := (passes_opening hquote).trans (hinner.trans (passes_closing hquote))
    simpa [Term.tokens] using (hlhs.passes _ (.cons (by decide))).trans hbehind
  · obtain ⟨c, cs, k, ks, hcs, hks, hc⟩ := hlhs.starts
    exact ⟨c, cs ++ '(' :: (right.toList ++ [')']), k, _, by simp [hcs],
      by rw [Term.tokens, hks]; rfl, hc⟩

/-- An operator in front that is a sign. -/
theorem sign {s : String} (hs : lx.IsSign s) (hpath : s ≠ lx.path) (h : lx.Written text t)
    (hends : ∀ c, (∀ k ∈ t.tokens.head?, lx.Starts c k) → lx.stops s c = true) :
    lx.Written (s ++ text) (.pre (.sign s) t) := by
  obtain ⟨c, cs, k, ks, hcs, hks, hc⟩ := h.starts
  refine ⟨fun rest hrest => ?_, ?_⟩
  · have hsign := passes_sign hs (text.toList ++ rest) fun c' hc' => by
      rw [hcs] at hc'
      cases hc'
      refine hends c fun k' hk' => ?_
      rw [hks] at hk'
      cases hk'
      exact hc
    rw [Lexicon.sign, if_neg hpath] at hsign
    simpa [Term.tokens] using hsign.trans (h.passes rest hrest)
  · obtain ⟨c, cs, hcs⟩ := List.exists_cons_of_ne_nil (l := s.toList) (by simpa using hs.1)
    exact ⟨c, cs ++ text.toList, _, _, by simp [hcs], rfl, hs, by rw [hcs]; rfl⟩

/-- An operator in front that is a word. -/
theorem pre {w : String} (hw : isWord w = true) (h : lx.Written text t) :
    lx.Written (w ++ " " ++ text) (.pre (.word w) t) := by
  refine ⟨fun rest hrest => ?_, ?_⟩
  · simpa [Term.tokens] using (spells_word hw _).trans (.space (h.passes rest hrest))
  · obtain ⟨c, cs, hcs, hc, -⟩ := isWord_cons hw
    exact ⟨c, cs ++ ' ' :: text.toList, _, _, by simp [hcs], rfl, hc⟩

theorem binary {op : String} {m : Mark} (hop : lx.Spells op m) (hlhs : lx.Written left lhs)
    (hrhs : lx.Written right rhs) :
    lx.Written (left ++ " " ++ op ++ " " ++ right) (.bin m lhs rhs) := by
  refine ⟨fun rest hrest => ?_, ?_⟩
  · have hright := (hop _).trans (.space (hrhs.passes rest hrest))
    simpa [Term.tokens] using (hlhs.passes _ (.cons (by decide))).trans (.space hright)
  · obtain ⟨c, cs, k, ks, hcs, hks, hc⟩ := hlhs.starts
    exact ⟨c, cs ++ ' ' :: (op.toList ++ ' ' :: right.toList), k, _, by simp [hcs],
      by rw [Term.tokens, hks]; rfl, hc⟩

theorem startsWith_quote (hquote : lx.quoting.quote = '"') (h : lx.Written text t) :
    Text.startsWith "\"" text = t.startsWithText := by
  obtain ⟨c, cs, k, ks, htext, htokens, hstarts⟩ := h.starts
  have hchar : Text.startsWith "\"" text = (c == '"') := by
    unfold Text.startsWith Text.afterHead
    rw [htext]
    by_cases hc : c = '"'
    · simp [Text.afterHeadChars, hc]
    · simp [Text.afterHeadChars, hc, Ne.symm hc]
  have htoken : t.startsWithText = true ↔ ∃ s, k = .text s := by
    rw [Term.startsWithText, htokens]
    cases k <;> simp
  rw [hchar, Bool.eq_iff_iff, htoken, beq_iff_eq]
  exact hstarts.quote hquote

theorem lex (h : lx.Written text t) : lx.lex text = some t.tokens := by
  have hpasses := h.passes [] closes_nil
  rw [List.append_nil] at hpasses
  exact hpasses.lex

end Written

end Lexicon

/-! ## What texts denote -/

/-- How a language reads expressions. -/
structure ExprRules where
  lexicon : Lexicon
  grammar : Grammar

namespace ExprRules

variable (rules : ExprRules)

/-- The text follows the grammar, and without its parentheses it is the expression. -/
def Denotes (text : String) (t : Term) : Prop :=
  ∃ u : Term, rules.lexicon.lex text = some u.tokens ∧ rules.grammar.Phrase 0 u ∧ u.bare = t

variable {rules} {text : String} {t t' u : Term}

/-- A text denotes at most one expression. -/
theorem Denotes.unique (h : rules.Denotes text t) (h' : rules.Denotes text t') : t = t' := by
  obtain ⟨u, hlex, hphrase, rfl⟩ := h
  obtain ⟨u', hlex', hphrase', rfl⟩ := h'
  rw [hphrase.eq_of_tokens hphrase' (Option.some.inj (hlex.symm.trans hlex'))]

/-- A text that was written with the parentheses of `u` denotes the expression if they suffice. -/
theorem denotes_iff (h : rules.lexicon.Written text u) (hbare : u.bare = t) :
    rules.Denotes text t ↔ rules.grammar.Phrase 0 u := by
  refine ⟨fun ⟨u', hlex, hphrase, hbare'⟩ => ?_, fun hphrase => ⟨u, h.lex, hphrase, hbare⟩⟩
  have htokens := Option.some.inj (hlex.symm.trans h.lex)
  rwa [← Term.eq_of_tokens htokens (hbare'.trans hbare.symm)]

end ExprRules

end Scaffold.Target

/-!
## Rendered expressions as their language reads them

The text that a dialect renders for an expression is cut into the tokens of a known expression of the
language, which has parentheses exactly where the renderer puts them. Whether the text denotes the
expression it was rendered for is then a question about that expression alone.

* `Wording`: how literals, names and operators of the code model come out in a language.
* `Wording.concrete`, `Wording.tree`: an expression with the parentheses that are rendered, and
  without.
* `Wording.Fits.written_expr`: the text of an expression is cut into the tokens of `concrete`.
* `Wording.Fits.denotes_iff`: it denotes `tree` exactly if `concrete` follows the grammar.
-/

namespace Scaffold.Target

open Model (Expr every_unary every_binary)

/-- How literals, names and operators come out in a language. A sum whose text starts with a literal
text may come out in its own way. -/
structure Wording where
  literal : Literal → Term
  name : String → Model.NameKind → Term
  unary : UnaryOp → Mark
  binary : BinaryOp → (startsWithText : Bool) → (lhs rhs : Term) → Term
  literal_bare : ∀ l, (literal l).bare = literal l
  name_bare : ∀ n kind, (name n kind).bare = name n kind
  binary_bare : ∀ op starts lhs rhs,
    (binary op starts lhs rhs).bare = binary op starts lhs.bare rhs.bare

namespace Wording

variable (w : Wording)

/-- The expression of the language with the parentheses that are rendered. Accesses and calls are left
out. -/
def concrete : Expr → Term
  | .literal l => w.literal l
  | .name n kind => w.name n kind
  | .unary op e => .pre (w.unary op) ((concrete e).grouped (Dialect.isBinary e))
  | .binary op lhs rhs =>
    let left := (concrete lhs).grouped (Dialect.needsParens op false lhs)
    w.binary op left.startsWithText left ((concrete rhs).grouped (Dialect.needsParens op true rhs))
  | .member .. | .call .. | .native .. => .leaf (.name "")

/-- The expression of the language without parentheses. -/
def tree : Expr → Term
  | .literal l => w.literal l
  | .name n kind => w.name n kind
  | .unary op e => .pre (w.unary op) (tree e)
  | .binary op lhs rhs =>
    let left := (w.concrete lhs).grouped (Dialect.needsParens op false lhs)
    w.binary op left.startsWithText (tree lhs) (tree rhs)
  | .member .. | .call .. | .native .. => .leaf (.name "")

theorem bare_concrete (e : Expr) : (w.concrete e).bare = w.tree e := by
  fun_induction tree w e with
  | case1 l => exact w.literal_bare l
  | case2 n kind => exact w.name_bare n kind
  | case3 op e ih => rw [concrete, Term.bare, Term.bare_grouped, ih]
  | case4 op lhs rhs left ihlhs ihrhs =>
    rw [concrete, w.binary_bare, Term.bare_grouped, Term.bare_grouped, ihlhs, ihrhs]
  | case5 | case6 | case7 => rfl

/-- The dialect renders what the wording says, where the condition holds of an expression and all
expressions inside. -/
structure Fits (w : Wording) (lx : Lexicon) (d : Dialect) (p : Expr → Bool) : Prop where
  quote : lx.quoting.quote = '"'
  literal : ∀ {l}, p (.literal l) = true → lx.Written (d.literal l) (w.literal l)
  name : ∀ {n kind}, p (.name n kind) = true → lx.Written (d.name n kind) (w.name n kind)
  unary : ∀ {op e text}, p (.unary op e) = true → p e = true →
    lx.Written text ((w.concrete e).grouped (Dialect.isBinary e)) →
    lx.Written (d.unarySign op ++ text) (w.concrete (.unary op e))
  binary : ∀ {op lhs rhs left right}, lx.Written left lhs → lx.Written right rhs →
    lx.Written (d.binary op left right) (w.binary op lhs.startsWithText lhs rhs)
  member : ∀ {object n}, p (.member object n) = false
  call : ∀ {callee args}, p (.call callee args) = false
  native : ∀ {path args}, p (.native path args) = false

variable {w} {lx : Lexicon} {d : Dialect} {p : Expr → Bool}

namespace Fits

/-- The text of an expression is cut into the tokens of the expression with the parentheses that are
rendered. -/
theorem written_expr (h : w.Fits lx d p) :
    (e : Expr) → e.Every p → lx.Written (d.expr e) (w.concrete e)
  | .literal _, he => h.literal he.self
  | .name _ _, he => h.name he.self
  | .unary op e, he =>
    have hinner := (every_unary.1 he).2
    h.unary he.self hinner.self ((h.written_expr e hinner).grouped h.quote _)
  | .binary op lhs rhs, he => by
    obtain ⟨-, hlhs, hrhs⟩ := every_binary.1 he
    exact h.binary ((h.written_expr lhs hlhs).grouped h.quote _)
      ((h.written_expr rhs hrhs).grouped h.quote _)
  | .member .., he => by cases h.member.symm.trans he.self
  | .call .., he => by cases h.call.symm.trans he.self
  | .native .., he => by cases h.native.symm.trans he.self

/-- The text of an expression denotes it exactly if the rendered parentheses suffice. -/
theorem denotes_iff {rules : ExprRules} (h : w.Fits rules.lexicon d p) {e : Expr} (he : e.Every p) :
    rules.Denotes (d.expr e) (w.tree e) ↔ rules.grammar.Phrase 0 (w.concrete e) :=
  ExprRules.denotes_iff (h.written_expr e he) (w.bare_concrete e)

end Fits

end Wording

end Scaffold.Target
