import Mathlib.Data.Bool.AllAny
import Scaffold.Proofs.Naming

/-!
# Names that are split again

Words of a name are in lower case. When they are joined and the result is split again, no capital is
left that could start a word, so the words end where the separators stand, and the changes of case
that ended them before are not missed. Generators rely on this where they convert a name that was
converted before.

* `Settled`: a letter or number that is in lower case already.
* `words_joinWith`: words of settled characters come back from between separators.
* `join_words`: splitting drops signs and case, and nothing else.
* `conversions_resplit`: a name in snake or kebab case stands for the name in every conversion.
-/

namespace Scaffold

/-! ## Characters in lower case -/

namespace Text

variable {c : Char}

/-- A letter or number that is in lower case already: it starts no word inside of another one, and
lower case leaves it alone. -/
structure Settled (c : Char) : Prop where
  alnum : isAlnum c = true
  not_upper : isUpper c = false
  lower : toLower c = [c]

instance (c : Char) : Decidable (Settled c) :=
  decidable_of_iff (isAlnum c = true ∧ isUpper c = false ∧ toLower c = [c])
    ⟨fun ⟨halnum, hupper, hlower⟩ => ⟨halnum, hupper, hlower⟩,
      fun h => ⟨h.alnum, h.not_upper, h.lower⟩⟩

theorem ascii_forall {P : Char → Prop} (h : ∀ n < 128, P (Char.ofNat n)) (hc : c.toNat < 128) :
    P c := by
  have hP := h c.toNat hc
  rwa [Char.ofNat_toNat] at hP

theorem toLower_ascii (hc : c.toNat < 128) : toLower c = [c.toLower] := by
  rw [toLower, if_pos hc]

/-- In lower case, a letter or digit of ASCII is a settled small letter or digit. -/
theorem settled_toLower (hc : c.toNat < 128) (halnum : isAlnum c = true) :
    Settled c.toLower ∧ (c.toLower.isLower = true ∨ c.toLower.isDigit = true) :=
  ascii_forall (P := fun c => isAlnum c = true →
      Settled c.toLower ∧ (c.toLower.isLower = true ∨ c.toLower.isDigit = true))
    (by decide +kernel) hc halnum

end Text

namespace Naming

open Text (Settled)

variable {c : Char} {previous : Option Char} {word rest signs : List Char}
  {more : List (List Char)} {name sep text : String}

/-! ## Splitting -/

theorem startsWord_of_settled (hc : Settled c) (next : Option Char) :
    startsWord previous c next = false := by
  cases previous <;> simp [startsWord, hc.not_upper]

/-- Settled characters stay in one piece, up to where the next one starts. -/
theorem pieces_append (hword : ∀ c ∈ word, Settled c)
    (hrest : ∀ previous, pieces previous rest = [] :: more) (previous : Option Char) :
    pieces previous (word ++ rest) = word :: more := by
  induction word generalizing previous with
  | nil => exact hrest previous
  | cons c word ih =>
    obtain ⟨hc, hword⟩ := List.forall_mem_cons.1 hword
    rw [List.cons_append, pieces, if_pos hc.alnum, ih hword]
    simp [startsWord_of_settled hc]

theorem pieces_sign (hc : Text.isAlnum c = false) (previous : Option Char) (cs : List Char) :
    pieces previous (c :: cs) = [] :: pieces none cs := by
  simp [pieces, hc]

/-- Signs in front of a text are part of no word. -/
theorem filter_pieces_signs (hsigns : ∀ c ∈ signs, Text.isAlnum c = false) (cs : List Char) :
    (pieces none (signs ++ cs)).filter (!·.isEmpty) = (pieces none cs).filter (!·.isEmpty) := by
  induction signs with
  | nil => rfl
  | cons c signs ih =>
    obtain ⟨hc, hsigns⟩ := List.forall_mem_cons.1 hsigns
    rw [List.cons_append, pieces_sign hc, List.filter_cons_of_neg (by simp), ih hsigns]

/-- A text that is one word, in lower case already. -/
structure Whole (text : String) : Prop where
  ne_empty : text ≠ ""
  settled : ∀ c ∈ text.toList, Settled c

theorem Whole.lower (h : Whole text) : String.ofList (text.toList.flatMap Text.toLower) = text := by
  have hsame : text.toList.flatMap Text.toLower = text.toList.flatMap fun c => [c] :=
    List.flatMap_congr fun c hc => (h.settled c hc).lower
  rw [hsame, List.flatMap_singleton', String.ofList_toList]

/-- The first word, if the first piece is one. -/
theorem Whole.words_of_pieces (h : Whole text)
    (hpieces : pieces none name.toList = text.toList :: more) :
    words name = text :: (more.filter (!·.isEmpty)).map fun word =>
      String.ofList (word.flatMap Text.toLower) := by
  rw [words, hpieces, List.filter_cons_of_pos (by simpa using h.ne_empty), List.map_cons, h.lower]

theorem Whole.words_self (h : Whole text) : words text = [text] := by
  have hpieces : pieces none (text.toList ++ []) = [text.toList] :=
    pieces_append h.settled (fun _ => rfl) none
  rw [List.append_nil] at hpieces
  simpa using h.words_of_pieces hpieces

theorem Whole.words_append (h : Whole text) (hsep : sep ≠ "")
    (hsigns : ∀ c ∈ sep.toList, Text.isAlnum c = false) (name : String) :
    words (text ++ sep ++ name) = text :: words name := by
  obtain ⟨c, signs, hcons⟩ := List.exists_cons_of_ne_nil (show sep.toList ≠ [] by simpa using hsep)
  rw [hcons, List.forall_mem_cons] at hsigns
  obtain ⟨hc, hsigns⟩ := hsigns
  have hpieces : pieces none (text ++ sep ++ name).toList =
      text.toList :: pieces none (signs ++ name.toList) := by
    rw [String.toList_append, String.toList_append, hcons, List.append_assoc, List.cons_append]
    exact pieces_append h.settled (fun previous => pieces_sign hc previous _) none
  rw [h.words_of_pieces hpieces, filter_pieces_signs hsigns, words]

/-- Words come back from between separators. -/
theorem words_joinWith (hsep : sep ≠ "") (hsigns : ∀ c ∈ sep.toList, Text.isAlnum c = false) :
    ∀ {texts : List String}, (∀ text ∈ texts, Whole text) →
      words (Text.joinWith sep texts) = texts
  | [], _ => rfl
  | [text], h => (h text (by simp)).words_self
  | text :: next :: texts, h => by
    obtain ⟨htext, hrest⟩ := List.forall_mem_cons.1 h
    rw [Text.joinWith.eq_3 _ _ _ (by simp), htext.words_append hsep hsigns,
      words_joinWith hsep hsigns hrest]

/-! ## The words of a name -/

/-- Nothing is lost but signs and case. -/
theorem join_words (name : String) :
    String.join (words name) =
      String.ofList ((name.toList.filter Text.isAlnum).flatMap Text.toLower) := by
  rw [← String.toList_inj, String.toList_join, String.toList_ofList, ← flatten_pieces none,
    ← List.flatten_filter_not_isEmpty, ← List.flatMap_id, List.flatMap_assoc]
  simp [words, List.flatMap_map]

section Ascii

variable (hname : ∀ c ∈ name.toList, c.toNat < 128)

include hname

theorem exists_settled_of_mem_words (hword : text ∈ words name) (hc : c ∈ text.toList) :
    Settled c ∧ (c.isLower = true ∨ c.isDigit = true) := by
  obtain ⟨d, hd, halnum, hc⟩ := exists_of_mem_words hword hc
  rw [Text.toLower_ascii (hname d hd), List.mem_singleton] at hc
  rw [hc]
  exact Text.settled_toLower (hname d hd) halnum

theorem whole_of_mem_words : ∀ word ∈ words name, Whole word := by
  intro word hword
  constructor
  · simpa using ne_nil_of_mem_words hword
  · intro c hc
    exact (exists_settled_of_mem_words hname hword hc).1

theorem join_words_ascii :
    String.join (words name) =
      Text.lowerAscii (String.ofList (name.toList.filter Text.isAlnum)) := by
  have hlower : (name.toList.filter Text.isAlnum).flatMap Text.toLower =
      (name.toList.filter Text.isAlnum).map Char.toLower := by
    rw [List.map_eq_flatMap]
    refine List.flatMap_congr fun c hc => ?_
    exact Text.toLower_ascii (hname c (List.mem_of_mem_filter hc))
  rw [join_words, hlower, Text.lowerAscii, String.toList_ofList]

theorem words_snake : words (snake name) = words name :=
  words_joinWith (by decide) (List.all_iff_forall_prop.1 (by decide)) (whole_of_mem_words hname)

theorem words_kebab : words (kebab name) = words name :=
  words_joinWith (by decide) (List.all_iff_forall_prop.1 (by decide)) (whole_of_mem_words hname)

end Ascii

/-- Every conversion looks at the words only. -/
theorem convert_of_words {name' : String} (h : words name = words name') :
    ∀ convert ∈ [snake, kebab, pascal, camel, screaming], convert name = convert name' := by
  simp [snake, kebab, pascal, camel, screaming, h]

/-- Conversion is stable when a name is split again. The words of a name in ASCII come back from
between separators of any kind, so every conversion of the name gives the same for its snake and its
kebab case; among these are snake and kebab case themselves. The words are not empty, hold small
letters and digits, and are the letters and digits of the name, in order and in lower case. -/
theorem conversions_resplit (name : String) (hname : ∀ c ∈ name.toList, c.toNat < 128) :
    (∀ sep : String, sep ≠ "" → (∀ c ∈ sep.toList, Text.isAlnum c = false) →
      words (Text.joinWith sep (words name)) = words name) ∧
    (∀ convert ∈ [snake, kebab, pascal, camel, screaming],
      convert (snake name) = convert name ∧ convert (kebab name) = convert name) ∧
    (∀ word ∈ words name, word ≠ "" ∧
      ∀ c ∈ word.toList, c.isLower = true ∨ c.isDigit = true) ∧
    String.join (words name) =
      Text.lowerAscii (String.ofList (name.toList.filter Text.isAlnum)) := by
  have hwhole := whole_of_mem_words hname
  refine ⟨?_, ?_, ?_, join_words_ascii hname⟩
  · intro sep hsep hsigns
    exact words_joinWith hsep hsigns hwhole
  · intro convert hconvert
    exact ⟨convert_of_words (words_snake hname) convert hconvert,
      convert_of_words (words_kebab hname) convert hconvert⟩
  · intro word hword
    exact ⟨(hwhole word hword).ne_empty,
      fun c hc => (exists_settled_of_mem_words hname hword hc).2⟩

/-- Acronyms and digits end words by their case, and separators of two signs keep the ends. -/
theorem conversions_resplit_acronym :
    (∀ c ∈ "HTTPServer2Go-ID".toList, c.toNat < 128) ∧
    words "HTTPServer2Go-ID" = ["http", "server2", "go", "id"] ∧
    words (Text.joinWith "::" ["http", "server2", "go", "id"]) = ["http", "server2", "go", "id"] ∧
    pascal (kebab "HTTPServer2Go-ID") = pascal "HTTPServer2Go-ID" ∧
    (∀ c ∈ "server2".toList, c.isLower = true ∨ c.isDigit = true) ∧
    String.join ["http", "server2", "go", "id"] =
      Text.lowerAscii (String.ofList ("HTTPServer2Go-ID".toList.filter Text.isAlnum)) := by
  have hascii : ∀ c ∈ "HTTPServer2Go-ID".toList, c.toNat < 128 :=
    List.all_iff_forall_prop.1 (by decide)
  have hwords : words "HTTPServer2Go-ID" = ["http", "server2", "go", "id"] := by decide +kernel
  obtain ⟨hsplit, hconvert, hsmall, hjoin⟩ := conversions_resplit "HTTPServer2Go-ID" hascii
  rw [hwords] at hsplit hsmall hjoin
  have hcolons : ∀ c ∈ "::".toList, Text.isAlnum c = false :=
    List.all_iff_forall_prop.1 (by decide)
  exact ⟨hascii, hwords, hsplit "::" (by decide) hcolons, (hconvert pascal (by simp)).2,
    (hsmall "server2" (by simp)).2, hjoin⟩

-- Beyond ASCII, lower case can bring in a sign: that of a dotted capital is a letter and a mark.
example : words "İd" = ["i\u0307d"] ∧ words (snake "İd") = ["i", "d"] := by decide +kernel

end Naming

end Scaffold
