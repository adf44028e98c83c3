import Scaffold.Proofs.Text.Lines
import Scaffold.Proofs.Token.Lexeme

/-!
# Annotations as they are written

A block of annotations is lexed to the pairs that were written, in their order, whatever blanks
stand around keys and values. A value without quotes is taken as text unless a number can be read
from it, and there are words that a number is read from.

* `Entry pair text`: the text of a pair, up to the comma or the bracket behind it.
* `annotates_block`: a block of entries is lexed to their pairs.
* `plainValue_eq_str_iff`: which identifiers are taken as text.
* `annotates_identifier`: identifiers and quoted texts as values, among any other entries.
-/

namespace Scaffold

/-! ## Look-up -/

namespace AnnotationBlock

variable {b : AnnotationBlock} {key key' : String} {value : AnnotationValue}
  {pairs : List (String × AnnotationValue)}

theorem find?_setEntry (entries : List (String × AnnotationValue)) :
    (setEntry key value entries).find? (·.1 == key') =
      if key = key' then some (key, value) else entries.find? (·.1 == key') := by
  induction entries with
  | nil => by_cases h : key = key' <;> simp [setEntry, h]
  | cons entry entries ih =>
    obtain ⟨k, v⟩ := entry
    rw [setEntry]
    by_cases hk : k = key
    · subst hk
      by_cases h : k = key' <;> simp [h]
    · by_cases h : key = key'
      · subst h
        simp [hk, ih]
      · simp [hk, ih, h, List.find?_cons]

theorem get?_insert :
    (b.insert key value).get? key' = if key = key' then some value else b.get? key' := by
  rw [get?, insert, find?_setEntry]
  split <;> rfl

/-- Pairs with other keys do not change what a key has. -/
theorem get?_insertAll (h : ∀ x ∈ pairs, x.1 ≠ key) : (b.insertAll pairs).get? key = b.get? key := by
  induction pairs generalizing b with
  | nil => rfl
  | cons x pairs ih =>
    rw [List.forall_mem_cons] at h
    rw [show b.insertAll (x :: pairs) = (b.insert x.1 x.2).insertAll pairs from rfl, ih h.2,
      get?_insert, if_neg h.1]

/-- A key has the value that it was given last. -/
theorem get?_ofPairs (before : List (String × AnnotationValue)) (h : ∀ x ∈ pairs, x.1 ≠ key) :
    (ofPairs (before ++ (key, value) :: pairs)).get? key = some value := by
  have hsplit : ofPairs (before ++ (key, value) :: pairs) =
      ((ofPairs before).insert key value).insertAll pairs := List.foldl_append
  rw [hsplit, get?_insertAll h, get?_insert, if_pos rfl]

end AnnotationBlock

namespace Lexer

variable {before rest written behind text word blanks : List Char} {quote : Char} {p : Position}
  {value : AnnotationValue} {pair : String × AnnotationValue}

/-! ## Entries -/

/-- A value without quotes. It is trimmed, and neither a comma nor a bracket nor a line end is part
of it. -/
structure IsBare (word : List Char) : Prop where
  ne_nil : word ≠ []
  chars : ∀ c ∈ word, c ≠ ',' ∧ c ≠ ']' ∧ c ≠ '\n'
  head : ∀ c ∈ word.head?, c ≠ '"' ∧ c ≠ '\''
  trimmed : Text.trimChars word = word

/-- A value and its characters. -/
inductive Spelled : AnnotationValue → List Char → Prop
  | bare {word : List Char} (h : IsBare word) : Spelled (plainValue (String.ofList word)) word
  | quoted {quote : Char} {text written : List Char} (hquote : quote = '"' ∨ quote = '\'')
    (h : QuotedText quote text written) :
    Spelled (.str (String.ofList text)) (quote :: (written ++ [quote]))

/-- A key, and the blanks in front of it, behind it, in front of its value and behind that. -/
structure Slot where
  key : List Char
  front : List Char
  behindKey : List Char
  frontValue : List Char
  behind : List Char
  isKey : IsKey key
  blanks_front : Blanks front
  blanks_behindKey : Blanks behindKey
  blanks_frontValue : Blanks frontValue
  blanks_behind : Blanks behind

/-- The text of a key with a value. -/
def Slot.filled (slot : Slot) (written : List Char) : List Char :=
  slot.front ++ (slot.key ++ (slot.behindKey ++ '=' :: (slot.frontValue ++
    (written ++ slot.behind))))

/-- A pair and its text, up to the comma or the bracket behind it. -/
inductive Entry : String × AnnotationValue → List Char → Prop
  | flag {key front behind : List Char} (hkey : IsKey key) (hfront : Blanks front)
    (hbehind : Blanks behind) : Entry (String.ofList key, .bool true) (front ++ (key ++ behind))
  | value (slot : Slot) {value : AnnotationValue} {written : List Char} (h : Spelled value written) :
    Entry (String.ofList slot.key, value) (slot.filled written)

def blockText (texts : List (List Char)) : List Char :=
  '[' :: (List.intercalate [','] texts ++ [']'])

/-- The block is lexed to one token with these pairs, and the text behind it as usual. -/
def Annotates (block : List Char) (pairs : List (String × AnnotationValue)) : Prop :=
  ∀ rest, tokenize (String.ofList (block ++ rest)) =
    (tokens (rest.length + 1) none (cursorAt block rest {})).map (⟨.annotations pairs, {}⟩ :: ·)

/-! ## Reading entries -/

/-- What an entry ends in front of. -/
def EndsEntry (rest : List Char) : Prop :=
  rest.head? = some ',' ∨ rest.head? = some ']'

theorem EndsEntry.not_isBlank (h : EndsEntry rest) : ∀ c ∈ rest.head?, Text.isBlank c = false := by
  intro c hc
  obtain h | h := h <;>
  · rw [h] at hc
    cases hc
    decide

variable (before) in
theorem skipBlanks_cursorAt (hblanks : Blanks blanks)
    (hrest : ∀ c ∈ rest.head?, Text.isBlank c = false) :
    (cursorAt before (blanks ++ rest) p).skipBlanks = cursorAt (before ++ blanks) rest p := by
  obtain ⟨htake, hdrop⟩ := span_append hblanks hrest
  rw [Cursor.skipBlanks, cursorAt_skip, htake, hdrop]

variable (before) in
/-- Without blanks nothing is skipped. -/
theorem skipBlanks_end (hrest : ∀ c ∈ rest.head?, Text.isBlank c = false) :
    (cursorAt before rest p).skipBlanks = cursorAt before rest p := by
  have hskip := skipBlanks_cursorAt before (p := p) (fun c (hc : c ∈ []) => nomatch hc) hrest
  rwa [List.nil_append, List.append_nil] at hskip

theorem readQuoted_written (hquote : quote ≠ '\\') (h : QuotedText quote text written)
    (p : Position) : readQuoted quote p (written ++ quote :: rest) =
      some (text, cursorAt (written ++ [quote]) rest p) := by
  induction h generalizing p with
  | nil =>
    rw [List.nil_append, readQuoted.eq_def]
    simp [cursorAt, Position.afterAll]
  | plain hne hslash _ ih =>
    rw [List.cons_append, readQuoted.eq_def]
    simp [hne, hslash, ih, cursorAt, Position.afterAll]
  | escaped e _ ih =>
    rw [List.cons_append, List.cons_append, readQuoted.eq_def]
    simp [hquote.symm, ih, cursorAt, Position.afterAll]

variable (before rest) in
theorem lexQuoted_written (hquote : quote = '"' ∨ quote = '\'')
    (h : QuotedText quote text written) :
    lexQuoted quote (cursorAt before (quote :: (written ++ quote :: rest)) p) =
      .ok (String.ofList text, cursorAt (before ++ quote :: (written ++ [quote])) rest p) := by
  have hne : quote ≠ '\\' := by obtain rfl | rfl := hquote <;> decide
  rw [lexQuoted, cursorAt_rest, List.drop_one, List.tail_cons, readQuoted_written hne h]
  simp [cursorAt, Position.afterAll]

variable (before) in
/-- The value is read, and behind it the blanks. -/
theorem lexValue_written (h : Spelled value written) (hbehind : Blanks behind)
    (hrest : EndsEntry rest) :
    ∃ c, lexValue (cursorAt before (written ++ (behind ++ rest)) p) = .ok (value, c) ∧
      c.skipBlanks = cursorAt (before ++ (written ++ behind)) rest p := by
  cases h with
  | quoted hquote h =>
    rename_i quote text written
    refine ⟨cursorAt (before ++ quote :: (written ++ [quote])) (behind ++ rest) p, ?_, ?_⟩
    · have hread := lexQuoted_written before (behind ++ rest) (p := p) hquote h
      rw [show quote :: (written ++ [quote]) ++ (behind ++ rest) =
        quote :: (written ++ quote :: (behind ++ rest)) by simp, lexValue]
      simp only [cursorAt_rest]
      rw [if_pos (by simpa using hquote), hread]
      rfl
    · rw [skipBlanks_cursorAt _ hbehind hrest.not_isBlank, List.append_assoc]
  | bare h =>
    -- The value runs to the comma, the bracket or a line end among the blanks behind it.
    let stops (x : Char) : Bool := x != ',' && x != ']' && x != '\n'
    have hword : ∀ c ∈ written, stops c = true := fun c hc => by
      simpa [stops, and_assoc] using h.chars c hc
    have hend : rest.takeWhile stops = [] ∧ rest.dropWhile stops = rest := by
      obtain hhead | hhead := hrest <;>
      · obtain ⟨more, rfl⟩ := List.head?_eq_some_iff.1 hhead
        exact ⟨rfl, rfl⟩
    have htake : (written ++ (behind ++ rest)).takeWhile stops =
        written ++ behind.takeWhile stops := by
      rw [List.takeWhile_append_of_pos hword, List.takeWhile_append, hend.1]
      split
      · rename_i hlen
        rw [List.append_nil, (List.takeWhile_prefix stops).eq_of_length hlen]
      · rfl
    have hdrop : (written ++ (behind ++ rest)).dropWhile stops =
        behind.dropWhile stops ++ rest := by
      rw [List.dropWhile_append_of_pos hword, List.dropWhile_append, hend.2]
      split
      · rename_i hnil
        rw [List.isEmpty_iff.1 hnil, List.nil_append]
      · rfl
    have hblanks : Blanks (behind.takeWhile stops) := fun c hc =>
      hbehind c ((List.takeWhile_prefix stops).subset hc)
    refine ⟨cursorAt (before ++ (written ++ behind.takeWhile stops))
      (behind.dropWhile stops ++ rest) p, ?_, ?_⟩
    · obtain ⟨c, cs, hcs⟩ := List.exists_cons_of_ne_nil h.ne_nil
      have hquote := h.head c (by rw [hcs]; rfl)
      have hnotEmpty : (String.ofList written == "") = false := by simp [h.ne_nil]
      unfold lexValue
      simp only [cursorAt_rest, cursorAt_run, cursorAt_skip, hcs, List.cons_append]
      rw [if_neg (by simpa using hquote)]
      simp only [← List.cons_append, ← hcs]
      rw [htake, hdrop, Text.trimChars_append_blank hblanks, h.trimmed, if_neg (by simp [hnotEmpty])]
    · have hmore : Blanks (behind.dropWhile stops) := fun c hc =>
        hbehind c ((List.dropWhile_suffix stops).subset hc)
      rw [skipBlanks_cursorAt _ hmore hrest.not_isBlank]
      simp [List.takeWhile_append_dropWhile]

theorem isKeyChar_cases {c : Char} (h : isKeyChar c = true) :
    Text.isBlank c = false ∧ c ≠ ']' ∧ c ≠ ',' ∧ c ≠ '=' := by
  refine ⟨?_, ?_, ?_, ?_⟩
  · cases hblank : Text.isBlank c with
    | false => rfl
    | true =>
      have halnum : Text.isAlnum c = false := Text.not_isAlnum_of_isBlank hblank
      simp only [isKeyChar, halnum, Bool.false_or, Bool.or_eq_true, beq_iff_eq] at h
      obtain (rfl | rfl) | rfl := h <;> exact absurd hblank (by decide)
  all_goals
    rintro rfl
    exact absurd h (by decide)

theorem IsKey.exists_cons {key : List Char} (h : IsKey key) :
    ∃ c cs, key = c :: cs ∧ isKeyChar c = true := by
  obtain ⟨c, cs, rfl⟩ := List.exists_cons_of_ne_nil h.ne_nil
  exact ⟨c, cs, rfl, h.chars c List.mem_cons_self⟩

variable (before) in
/-- What is read of a key, up to what stands behind it. -/
theorem key_skip {key behindKey : List Char} (hkey : IsKey key) (hbehind : Blanks behindKey)
    (hrest : ∀ c ∈ rest.head?, isKeyChar c = false ∧ Text.isBlank c = false) :
    (cursorAt before (key ++ (behindKey ++ rest)) p).run isKeyChar = key ∧
      ((cursorAt before (key ++ (behindKey ++ rest)) p).skip isKeyChar).skipBlanks =
        cursorAt (before ++ (key ++ behindKey)) rest p := by
  have hends : ∀ c ∈ (behindKey ++ rest).head?, isKeyChar c = false := by
    intro c hc
    cases behindKey with
    | nil => exact (hrest c hc).1
    | cons x xs =>
      cases hc
      cases hkeyChar : isKeyChar c with
      | false => rfl
      | true =>
        have hblank := hbehind c List.mem_cons_self
        rw [(isKeyChar_cases hkeyChar).1] at hblank
        cases hblank
  obtain ⟨htake, hdrop⟩ := span_append hkey.chars hends
  refine ⟨htake, ?_⟩
  rw [cursorAt_skip, htake, hdrop, skipBlanks_cursorAt _ hbehind fun c hc => (hrest c hc).2,
    List.append_assoc]

variable (before) in
theorem lexPair_flag {key behindKey : List Char} (hkey : IsKey key) (hbehind : Blanks behindKey)
    (hrest : EndsEntry rest) :
    lexPair (cursorAt before (key ++ (behindKey ++ rest)) p) =
      .ok ((String.ofList key, .bool true), cursorAt (before ++ (key ++ behindKey)) rest p) := by
  have hend : ∀ c ∈ rest.head?, isKeyChar c = false ∧ Text.isBlank c = false := by
    intro c hc
    refine ⟨?_, hrest.not_isBlank c hc⟩
    obtain hhead | hhead := hrest <;>
    · rw [hhead] at hc
      cases hc
      decide
  obtain ⟨hrun, hskip⟩ := key_skip before (p := p) hkey hbehind hend
  unfold lexPair
  dsimp only
  rw [hrun, hskip, if_neg (by simp [hkey.ne_nil])]
  obtain hhead | hhead := hrest <;>
  · obtain ⟨more, rfl⟩ := List.head?_eq_some_iff.1 hhead
    rfl

variable (before) in
theorem lexPair_value {key behindKey frontValue : List Char} (hkey : IsKey key)
    (hbehind : Blanks behindKey) (hfront : Blanks frontValue)
    (hrest : ∀ c ∈ rest.head?, Text.isBlank c = false) :
    lexPair (cursorAt before (key ++ (behindKey ++ '=' :: (frontValue ++ rest))) p) =
      (lexValue (cursorAt (before ++ (key ++ (behindKey ++ '=' :: frontValue))) rest p)).map
        fun (value, after) => ((String.ofList key, value), after) := by
  have hend : ∀ c ∈ ('=' :: (frontValue ++ rest)).head?,
      isKeyChar c = false ∧ Text.isBlank c = false := by
    rintro _ ⟨⟩
    decide
  obtain ⟨hrun, hskip⟩ := key_skip before (p := p) hkey hbehind hend
  have hvalue : ((cursorAt (before ++ (key ++ behindKey)) ('=' :: (frontValue ++ rest)) p).drop
      1).skipBlanks = cursorAt (before ++ (key ++ (behindKey ++ '=' :: frontValue))) rest p := by
    rw [cursorAt_drop, List.drop_one, List.tail_cons, skipBlanks_cursorAt _ hfront hrest]
    simp
  unfold lexPair
  dsimp only
  rw [hrun, hskip, if_neg (by simp [hkey.ne_nil])]
  simp only [cursorAt_rest]
  rw [hvalue]
  cases lexValue (cursorAt (before ++ (key ++ (behindKey ++ '=' :: frontValue))) rest p) <;> rfl

theorem Spelled.exists_cons (h : Spelled value written) :
    ∃ c cs, written = c :: cs ∧ Text.isBlank c = false := by
  cases h with
  | bare h =>
    obtain ⟨c, cs, rfl⟩ := List.exists_cons_of_ne_nil h.ne_nil
    exact ⟨c, cs, rfl, (Text.trimChars_eq_self_iff.1 h.trimmed).1 c rfl⟩
  | quoted hquote _ => exact ⟨_, _, rfl, by obtain rfl | rfl := hquote <;> decide⟩

variable (before) in
/-- An entry is read from its first character that is not blank, and behind it the blanks. -/
theorem lexPair_entry (h : Entry pair text) (hrest : EndsEntry rest) :
    ∃ c cs after, (cursorAt before (text ++ rest) p).skipBlanks.rest = c :: cs ∧ c ≠ ']' ∧
      lexPair (cursorAt before (text ++ rest) p).skipBlanks = .ok (pair, after) ∧
      after.skipBlanks = cursorAt (before ++ text) rest p := by
  have hfront : ∀ {front key : List Char} (more), Blanks front → IsKey key →
      (cursorAt before (front ++ (key ++ more)) p).skipBlanks =
        cursorAt (before ++ front) (key ++ more) p := by
    intro front key more hfront hkey
    refine skipBlanks_cursorAt _ hfront ?_
    obtain ⟨c, cs, rfl, hc⟩ := hkey.exists_cons
    rintro _ ⟨⟩
    exact (isKeyChar_cases hc).1
  cases h with
  | @flag key front behind hkey hblanks hbehind =>
    obtain ⟨c, cs, hcs, hc⟩ := hkey.exists_cons
    have hskip := hfront (behind ++ rest) hblanks hkey
    have hread := lexPair_flag (before ++ front) (p := p) hkey hbehind hrest
    have hend : (cursorAt (before ++ front ++ (key ++ behind)) rest p).skipBlanks =
        cursorAt (before ++ front ++ (key ++ behind)) rest p :=
      skipBlanks_end _ hrest.not_isBlank
    simp only [List.append_assoc] at hread hend ⊢
    exact ⟨c, cs ++ (behind ++ rest), _, by rw [hskip, hcs]; rfl, (isKeyChar_cases hc).2.1,
      by rw [hskip, hread], hend⟩
  | @value slot value written h =>
    obtain ⟨c, cs, hcs, hc⟩ := slot.isKey.exists_cons
    have hstart : ∀ x ∈ (written ++ (slot.behind ++ rest)).head?, Text.isBlank x = false := by
      obtain ⟨x, xs, rfl, hx⟩ := h.exists_cons
      rintro _ ⟨⟩
      exact hx
    have hskip := hfront (slot.behindKey ++ '=' :: (slot.frontValue ++
      (written ++ (slot.behind ++ rest)))) slot.blanks_front slot.isKey
    have hread := lexPair_value (before ++ slot.front) (p := p) slot.isKey
      slot.blanks_behindKey slot.blanks_frontValue hstart
    obtain ⟨after, hvalue, hafter⟩ := lexValue_written (before ++ slot.front ++
      (slot.key ++ (slot.behindKey ++ '=' :: slot.frontValue))) (p := p) h slot.blanks_behind hrest
    rw [hvalue] at hread
    simp only [Slot.filled, List.append_assoc, List.cons_append] at hread hafter ⊢
    exact ⟨c, cs ++ (slot.behindKey ++ '=' :: (slot.frontValue ++ (written ++ (slot.behind ++
      rest)))), after, by rw [hskip, hcs]; rfl, (isKeyChar_cases hc).2.1, by rw [hskip, hread]; rfl,
      hafter⟩

/-! ## Reading blocks -/

variable (before) in
/-- One entry, and what the reader does behind it. -/
theorem lexPairs_entry (h : Entry pair text) (hrest : EndsEntry rest) (fuel : Nat) :
    lexPairs (fuel + 1) (cursorAt before (text ++ rest) p) =
      if rest.head? = some ',' then
        (lexPairs fuel ((cursorAt (before ++ text) rest p).drop 1)).map
          fun (pairs, after) => (pair :: pairs, after)
      else .ok ([pair], (cursorAt (before ++ text) rest p).drop 1) := by
  obtain ⟨c, cs, after, hstart, hne, hread, hafter⟩ := lexPair_entry before (p := p) h hrest
  rw [lexPairs]
  dsimp only
  split
  · rename_i hnil
    rw [hstart] at hnil
    cases hnil
  · rename_i hclose
    rw [hstart] at hclose
    cases hclose
    exact absurd rfl hne
  · rw [hread]
    dsimp only [bind, Except.bind]
    rw [hafter]
    obtain hhead | hhead := hrest <;> obtain ⟨more, rfl⟩ := List.head?_eq_some_iff.1 hhead
    · cases lexPairs fuel ((cursorAt (before ++ text) (',' :: more) p).drop 1) <;> rfl
    · rfl

variable (before rest) in
/-- Entries are read up to the bracket behind them. -/
theorem lexPairs_entries {entries : List ((String × AnnotationValue) × List Char)}
    (h : ∀ x ∈ entries, Entry x.1 x.2) {fuel : Nat} (hfuel : entries.length < fuel) :
    lexPairs fuel (cursorAt before (List.intercalate [','] (entries.map (·.2)) ++ ']' :: rest) p) =
      .ok (entries.map (·.1), cursorAt
        (before ++ (List.intercalate [','] (entries.map (·.2)) ++ [']'])) rest p) := by
  induction entries generalizing before fuel with
  | nil =>
    obtain ⟨fuel, rfl⟩ := Nat.exists_eq_add_one.2 (show 0 < fuel by omega)
    have hskip : (cursorAt before (']' :: rest) p).skipBlanks = cursorAt before (']' :: rest) p :=
      skipBlanks_end before (by rintro _ ⟨⟩; decide)
    rw [lexPairs]
    simp [List.intercalate, hskip, cursorAt_drop]
  | cons x entries ih =>
    obtain ⟨pair, text⟩ := x
    obtain ⟨hfirst, hmore⟩ := List.forall_mem_cons.1 h
    obtain ⟨fuel, rfl⟩ := Nat.exists_eq_add_one.2 (show 0 < fuel by omega)
    rw [List.length_cons] at hfuel
    cases entries with
    | nil =>
      have hend : EndsEntry (']' :: rest) := .inr rfl
      have hread := lexPairs_entry before (p := p) hfirst hend fuel
      rw [List.head?_cons, if_neg (by decide)] at hread
      simpa [List.intercalate, cursorAt_drop] using hread
    | cons y entries =>
      have hend : EndsEntry
          (',' :: (List.intercalate [','] ((y :: entries).map (·.2)) ++ ']' :: rest)) := .inl rfl
      have hread := lexPairs_entry before (p := p) hfirst hend fuel
      rw [List.head?_cons, if_pos rfl, cursorAt_drop, List.drop_one, List.tail_cons,
        ih _ hmore (by omega)] at hread
      simpa [List.intercalate, Except.map] using hread

theorem length_le_intercalate (texts : List (List Char)) :
    texts.length ≤ (List.intercalate [','] texts).length + 1 := by
  induction texts with
  | nil => exact Nat.zero_le _
  | cons text texts ih =>
    cases texts with
    | nil => simp
    | cons text' texts =>
      simp only [List.length_cons] at ih
      simp [List.intercalate] at ih ⊢
      omega

/-- A block of entries is lexed to their pairs. -/
theorem annotates_block {entries : List ((String × AnnotationValue) × List Char)}
    (h : ∀ x ∈ entries, Entry x.1 x.2) :
    Annotates (blockText (entries.map (·.2))) (entries.map (·.1)) := by
  intro rest
  let source := blockText (entries.map (·.2)) ++ rest
  have hlength : entries.length < source.length := by
    have hle := length_le_intercalate (entries.map (·.2))
    rw [List.length_map] at hle
    simp only [source, blockText, List.length_append, List.length_cons, List.length_nil]
    omega
  have hpairs := lexPairs_entries ['['] rest (p := {}) h hlength
  have htoken : lexToken source.length none '[' ⟨source, {}⟩ = .ok
      (.annotations (entries.map (·.1)), cursorAt (blockText (entries.map (·.2))) rest {}) := by
    have hdrop : (⟨source, {}⟩ : Cursor).drop 1 = cursorAt ['[']
        (List.intercalate [','] (entries.map (·.2)) ++ ']' :: rest) {} := by
      simp [source, blockText, Cursor.drop, cursorAt]
    simp [lexToken, single?, extensible?, doubled?, hdrop, hpairs, bind, Except.bind]
    rfl
  have hstep : tokens (source.length + 1) none ⟨source, {}⟩ =
      (tokens source.length none (cursorAt (blockText (entries.map (·.2))) rest {})).map
        (⟨.annotations (entries.map (·.1)), {}⟩ :: ·) := tokens_step htoken rfl rfl rfl
  have hshorter : (cursorAt (blockText (entries.map (·.2))) rest {}).rest.length <
      source.length := by
    simp only [source, blockText, cursorAt_rest, List.length_append, List.length_cons]
    omega
  rw [tokenize, String.toList_ofList, hstep, tokens_fuel none hshorter (Nat.lt_succ_self _),
    cursorAt_rest]

/-! ## Identifiers as values -/

/-- A letter or an underscore, and letters, digits and underscores behind it. -/
def isIdentifier (word : String) : Bool :=
  match word.toList with
  | [] => false
  | c :: cs => isNameStart c && cs.all isNameChar

def numberWords : List String :=
  ["inf", "infinity", "nan"]

/-- A number is read from the word, whatever the case of its letters. -/
def isNumberWord (word : String) : Bool :=
  numberWords.contains (String.ofList (word.toList.map Char.toLower))

theorem isIdentifier_cons {word : String} (h : isIdentifier word = true) :
    ∃ c cs, word.toList = c :: cs ∧ isNameStart c = true ∧ ∀ x ∈ c :: cs, isNameChar x = true := by
  unfold isIdentifier at h
  split at h
  · cases h
  · rename_i c cs hcs
    simp only [Bool.and_eq_true, List.all_eq_true] at h
    exact ⟨c, cs, hcs, h.1, List.forall_mem_cons.2 ⟨isNameChar_of_isNameStart h.1, h.2⟩⟩

theorem isNameChar_cases {c : Char} (h : isNameChar c = true) :
    Text.isBlank c = false ∧ c ≠ ',' ∧ c ≠ ']' ∧ c ≠ '\n' ∧ c ≠ '"' ∧ c ≠ '\'' := by
  refine ⟨?_, ?_, ?_, ?_, ?_, ?_⟩
  · cases hblank : Text.isBlank c with
    | false => rfl
    | true =>
      rw [isNameChar, Text.not_isAlnum_of_isBlank hblank, Bool.false_or, beq_iff_eq] at h
      subst h
      exact absurd hblank (by decide)
  all_goals
    rintro rfl
    exact absurd h (by decide)

theorem isBare_identifier {word : String} (h : isIdentifier word = true) : IsBare word.toList := by
  obtain ⟨c, cs, hcs, -, hall⟩ := isIdentifier_cons h
  rw [hcs]
  refine ⟨List.cons_ne_nil _ _, fun x hx => ?_, ?_, Text.trimChars_eq_self_iff.2 ⟨?_, ?_⟩⟩
  · obtain ⟨-, hcomma, hbracket, hline, -⟩ := isNameChar_cases (hall x hx)
    exact ⟨hcomma, hbracket, hline⟩
  · rintro _ ⟨⟩
    exact (isNameChar_cases (hall c List.mem_cons_self)).2.2.2.2
  · rintro _ ⟨⟩
    exact (isNameChar_cases (hall c List.mem_cons_self)).1
  · exact fun x hx => (isNameChar_cases (hall x (List.mem_of_getLast? hx))).1

/-- What starts with a letter or an underscore is no number with digits. -/
theorem splitSign_identifier {c : Char} (cs : List Char) (h : isNameStart c = true) :
    Number.splitSign (c :: cs) = (false, c :: cs) := by
  unfold Number.splitSign
  split
  · rename_i hcs
    cases hcs
    exact absurd h (by decide)
  · rename_i hcs
    cases hcs
    exact absurd h (by decide)
  · rfl

theorem readInt64?_identifier {word : String} (h : isIdentifier word = true) :
    Number.readInt64? word = none := by
  obtain ⟨c, cs, hcs, hc, -⟩ := isIdentifier_cons h
  have hdigit : c.isDigit = false := (isNameStart_cases hc).2.2
  simp [Number.readInt64?, hcs, splitSign_identifier cs hc, Number.allDigits, hdigit]

theorem readBinary64?_identifier {word : String} (h : isIdentifier word = true) :
    (Number.readBinary64? word).isSome = isNumberWord word := by
  obtain ⟨c, cs, hcs, hc, -⟩ := isIdentifier_cons h
  have hdigit : c.isDigit = false := (isNameStart_cases hc).2.2
  have hdecimal : Number.readDecimal? (c :: cs) = none := by
    have hpoint : c ≠ '.' := by
      rintro rfl
      exact absurd hc (by decide)
    simp [Number.readDecimal?, hdigit, hpoint]
  unfold Number.readBinary64? isNumberWord numberWords
  rw [hcs, splitSign_identifier cs hc]
  dsimp only
  generalize String.ofList ((c :: cs).map Char.toLower) = lower
  simp only [hdecimal, List.contains_cons, List.contains_nil, Bool.or_false]
  by_cases hinf : lower = "inf"
  · simp [hinf]
  by_cases hinfinity : lower = "infinity"
  · simp [hinfinity]
  by_cases hnan : lower = "nan" <;> simp [hinf, hinfinity, hnan]

/-- An identifier is taken as text unless it is a truth value or a number is read from it. -/
theorem plainValue_eq_str_iff {word : String} (h : isIdentifier word = true)
    (htrue : word ≠ "true") (hfalse : word ≠ "false") :
    plainValue word = .str word ↔ isNumberWord word = false := by
  rw [← readBinary64?_identifier h, plainValue, if_neg (by simpa using htrue),
    if_neg (by simpa using hfalse), readInt64?_identifier h]
  cases Number.readBinary64? word <;> simp

/-! ## Quoted texts as values -/

/-- Text with a backslash in front of backslashes and quotes. -/
def quotedChars (quote : Char) (s : List Char) : List Char :=
  s.flatMap fun c => if c = '\\' ∨ c = quote then ['\\', c] else [c]

def quotedWith (quote : Char) (s : String) : List Char :=
  quote :: (quotedChars quote s.toList ++ [quote])

theorem quotedText_quotedChars (hquote : quote = '"' ∨ quote = '\'') (s : List Char) :
    QuotedText quote s (quotedChars quote s) := by
  induction s with
  | nil => exact .nil
  | cons c s ih =>
    have hsplit : quotedChars quote (c :: s) =
        (if c = '\\' ∨ c = quote then ['\\', c] else [c]) ++ quotedChars quote s :=
      List.flatMap_cons
    rw [hsplit]
    split
    · rename_i hc
      have hmeant : unescape c = c := by
        obtain rfl | rfl := hc
        · rfl
        · obtain rfl | rfl := hquote <;> rfl
      have hescaped := QuotedText.escaped c ih
      rwa [hmeant] at hescaped
    · rename_i hc
      exact .plain (fun h => hc (.inr h)) (fun h => hc (.inl h)) ih

theorem spelled_quotedWith (hquote : quote = '"' ∨ quote = '\'') (s : String) :
    Spelled (.str s) (quotedWith quote s) := by
  have h := Spelled.quoted hquote (quotedText_quotedChars hquote s.toList)
  rwa [String.ofList_toList] at h

/-! ## Among other entries -/

/-- An entry among others. -/
structure Among where
  before : List ((String × AnnotationValue) × List Char)
  slot : Slot
  behind : List ((String × AnnotationValue) × List Char)
  entries_before : ∀ x ∈ before, Entry x.1 x.2
  entries_behind : ∀ x ∈ behind, Entry x.1 x.2

namespace Among

variable (among : Among)

/-- The block in which the value is written. -/
def block (written : List Char) : List Char :=
  blockText (among.before.map (·.2) ++ among.slot.filled written :: among.behind.map (·.2))

/-- The key of the entry. -/
def key : String :=
  String.ofList among.slot.key

def pairs (value : AnnotationValue) : List (String × AnnotationValue) :=
  among.before.map (·.1) ++ (among.key, value) :: among.behind.map (·.1)

theorem annotates (h : Spelled value written) :
    Annotates (among.block written) (among.pairs value) := by
  let entries := among.before ++ ((among.key, value), among.slot.filled written) :: among.behind
  have hentries : ∀ x ∈ entries, Entry x.1 x.2 :=
    List.forall_mem_append.2 ⟨among.entries_before,
      List.forall_mem_cons.2 ⟨.value among.slot h, among.entries_behind⟩⟩
  have hblock := annotates_block hentries
  simpa [entries, block, pairs] using hblock

end Among

/-- A block is lexed to one list of pairs. -/
theorem Annotates.unique {block : List Char} {pairs pairs' : List (String × AnnotationValue)}
    (h : Annotates block pairs) (h' : Annotates block pairs') : pairs = pairs' := by
  have hboth := (h []).symm.trans (h' [])
  simpa [tokens, skipTrivia, Except.map, bind, Except.bind, pure, Except.pure] using hboth

/-- Among any other entries, an identifier is taken as text, which its key then has, exactly unless
a number is read from it; and any text is, between either kind of quotes. -/
theorem annotates_identifier (among : Among) :
    (∀ word, isIdentifier word = true → word ≠ "true" → word ≠ "false" →
      (Annotates (among.block word.toList) (among.pairs (.str word)) ↔
        isNumberWord word = false)) ∧
    (∀ quote s, quote = '"' ∨ quote = '\'' →
      Annotates (among.block (quotedWith quote s)) (among.pairs (.str s))) ∧
    ∀ s, (∀ x ∈ among.behind, x.1.1 ≠ among.key) →
      (AnnotationBlock.ofPairs (among.pairs (.str s))).text? among.key = some s := by
  refine ⟨fun word h htrue hfalse => ?_, fun quote s hquote =>
    among.annotates (spelled_quotedWith hquote s), fun s hs => ?_⟩
  · have hread := among.annotates (.bare (isBare_identifier h))
    rw [String.ofList_toList] at hread
    rw [← plainValue_eq_str_iff h htrue hfalse]
    constructor
    · intro hstr
      have hsame := hread.unique hstr
      simpa [Among.pairs] using hsame
    · intro hstr
      rwa [hstr] at hread
  · rw [AnnotationBlock.text?, Among.pairs, AnnotationBlock.get?_ofPairs]
    · rfl
    · simpa using hs

/-- A title behind a quoted note with a bracket in it, with blanks and a line end around it. -/
def titled : Among where
  before := [(("note", .str "], x"), "note='], x'".toList)]
  slot :=
    { key := "title".toList, front := [' '], behindKey := [' '], frontValue := [' ']
      behind := [' ', '\n'], isKey := ⟨by decide, List.all_eq_true.1 (by decide)⟩
      blanks_front := List.all_eq_true.1 (by decide)
      blanks_behindKey := List.all_eq_true.1 (by decide)
      blanks_frontValue := List.all_eq_true.1 (by decide)
      blanks_behind := List.all_eq_true.1 (by decide) }
  behind := [(("wide", .bool true), "wide".toList)]
  entries_before := List.forall_mem_singleton.2 (.value
    { key := "note".toList, front := [], behindKey := [], frontValue := [], behind := []
      isKey := ⟨by decide, List.all_eq_true.1 (by decide)⟩, blanks_front := fun _ => nofun
      blanks_behindKey := fun _ => nofun, blanks_frontValue := fun _ => nofun
      blanks_behind := fun _ => nofun } (spelled_quotedWith (.inr rfl) "], x"))
  entries_behind := List.forall_mem_singleton.2
    (@Entry.flag "wide".toList [] [] ⟨by decide, List.all_eq_true.1 (by decide)⟩ (fun _ => nofun)
      fun _ => nofun)

theorem annotates_identifier_title :
    isIdentifier "Infinite" = true ∧ isNumberWord "Infinite" = false ∧
    titled.block "Infinite".toList = "[note='], x', title = Infinite \n,wide]".toList ∧
    Annotates (titled.block "Infinite".toList)
      [("note", .str "], x"), ("title", .str "Infinite"), ("wide", .bool true)] ∧
    titled.block (quotedWith '"' "a\\\"'b") =
      "[note='], x', title = \"a\\\\\\\"'b\" \n,wide]".toList ∧
    Annotates (titled.block (quotedWith '"' "a\\\"'b"))
      [("note", .str "], x"), ("title", .str "a\\\"'b"), ("wide", .bool true)] ∧
    (AnnotationBlock.ofPairs (titled.pairs (.str "Infinite"))).text? "title" = some "Infinite" := by
  obtain ⟨hword, hquoted, htext⟩ := annotates_identifier titled
  refine ⟨by decide, by decide, by decide, ?_, by decide, hquoted '"' _ (.inl rfl), ?_⟩
  · exact (hword "Infinite" (by decide) (by decide) (by decide)).2 (by decide)
  · exact htext "Infinite" (by decide)

/-- A title that is an identifier and is taken for a number. -/
theorem tokenize_infinity :
    isIdentifier "Infinity" = true ∧
    tokenize "[title=Infinity]" = .ok
      [⟨.annotations [("title", .float (.ofMagnitude false Binary64.infinityBits))], ⟨1, 1⟩⟩,
        ⟨.eof, ⟨1, 17⟩⟩] ∧
    (AnnotationBlock.ofPairs [("title", .float (.ofMagnitude false Binary64.infinityBits))]).text?
      "title" = some "inf" := by
  decide +kernel

end Lexer

end Scaffold
