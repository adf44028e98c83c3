import Mathlib.Data.Bool.AllAny
import Mathlib.Data.List.TakeWhile
import Scaffold.Target.Cpp
import Scaffold.Target.CSharp
import Scaffold.Target.Dart
import Scaffold.Target.Go
import Scaffold.Target.Java
import Scaffold.Target.JavaScript
import Scaffold.Target.Kotlin
import Scaffold.Target.Python
import Scaffold.Target.Rust
import Scaffold.Text.Letter

/-!
# String literals of the target languages

A text is written as one string literal, and the target language has to read that text from it. The
languages differ in the quote, in the escapes they know, in the characters that no literal may hold
as they are and in what a dollar sign means.

* `Quoting.read`: reads the string literal at the start of a text.
* `Quoting.body_escape_iff`, `body_dart`: what is read of a text between double quotes, and of one
  between Dart's single quotes.
* `Language.quote_read_iff`: for every language, the texts that are read back.
-/

namespace Scaffold

/-! ## Reading a literal -/

/-- The rules for plain string literals of a language, as far as they concern escapes of one
character and interpolation. -/
structure Quoting where
  quote : Char
  /-- What a backslash and the character stand for. -/
  escape? : Char → Option Char
  /-- Characters that no literal may hold as they are: line ends. -/
  barred : List Char
  /-- A dollar sign in front of this rest of the line starts an interpolation. -/
  interpolates : List Char → Bool := fun _ => false

namespace Quoting

variable (q : Quoting)

def line (cs : List Char) : List Char :=
  cs.takeWhile fun c => !q.barred.contains c

/-- The text up to the closing quote, and what stands behind the quote; `none` if the literal is not
complete, holds what it may not or starts an interpolation. -/
def body : List Char → Option (List Char × List Char)
  | [] => none
  | c :: cs =>
    if c == q.quote then some ([], cs)
    else if c == '\\' then
      match cs with
      | [] => none
      | e :: rest =>
        (q.escape? e).bind fun meant => (body rest).map fun (text, behind) => (meant :: text, behind)
    else if q.barred.contains c then none
    else if c == '$' && q.interpolates (q.line cs) then none
    else (body cs).map fun (text, behind) => (c :: text, behind)

/-- The text of the literal at the start, and what stands behind it. -/
def read (s : String) : Option (String × String) :=
  match s.toList with
  | [] => none
  | c :: cs =>
    if c == q.quote then
      (q.body cs).map fun (text, behind) => (String.ofList text, String.ofList behind)
    else none

end Quoting

/-! ## Languages -/

/-- A language with its dialect. -/
inductive Language where
  | cpp
  | java (functions : Option String)
  | kotlin
  | cSharp (functions : Option String)
  | go
  | python
  | javaScript (typed : Bool)
  | rust
  | dart

namespace Language

/-- How the language is written. -/
def dialect : Language → Dialect
  | .cpp => Target.Cpp.dialect
  | .java functions => Target.Java.dialect functions
  | .kotlin => Target.Kotlin.dialect
  | .cSharp functions => Target.CSharp.dialect functions
  | .go => Target.Go.dialect
  | .python => Target.Python.dialect
  | .javaScript typed => Target.JavaScript.dialect typed
  | .rust => Target.Rust.dialect
  | .dart => Target.Dart.dialect

/-- The escapes that all of the languages know. -/
def commonEscape? : Char → Option Char
  | '\\' => some '\\'
  | '"' => some '"'
  | 'n' => some '\n'
  | 'r' => some '\r'
  | 't' => some '\t'
  | _ => none

/-- The common escapes, and signs that stand for themselves behind a backslash. -/
def escapeWith? (signs : List Char) (c : Char) : Option Char :=
  if signs.contains c then some c else commonEscape? c

/-- What follows a dollar sign that starts a reference in a Kotlin literal: a name, a name in
backticks or an opening brace. -/
def startsReference : List Char → Bool
  | [] => false
  | c :: cs =>
    Text.isLetter c || c == '_' || c == '\x7b' || (c == '`' && cs.head? != some '`' && cs.contains '`')

/-- How the language reads plain string literals. -/
def quoting : Language → Quoting
  | .cpp => ⟨'"', escapeWith? ['\''], ['\n', '\r'], fun _ => false⟩
  | .java _ => ⟨'"', escapeWith? ['\''], ['\n', '\r'], fun _ => false⟩
  | .kotlin => ⟨'"', escapeWith? ['\'', '$'], ['\n', '\r'], startsReference⟩
  | .cSharp _ =>
    ⟨'"', escapeWith? ['\''], ['\n', '\r', '\u0085', '\u2028', '\u2029'], fun _ => false⟩
  | .go => ⟨'"', commonEscape?, ['\n'], fun _ => false⟩
  | .python => ⟨'"', escapeWith? ['\''], ['\n', '\r'], fun _ => false⟩
  | .javaScript _ => ⟨'"', escapeWith? ['\'', '$'], ['\n', '\r'], fun _ => false⟩
  -- A literal may run over line ends, but not over a carriage return alone.
  | .rust => ⟨'"', escapeWith? ['\''], ['\r'], fun _ => false⟩
  | .dart => ⟨'\'', escapeWith? ['\'', '$'], ['\n', '\r'], fun _ => true⟩

/-- What stands behind a literal. -/
def behindLiteral : Language → String
  | .rust => ".to_string()"
  | _ => ""

/-- The texts that are read back from their literals. -/
def Keeps (s : String) : Language → Prop
  | .kotlin => ∀ behind, '$' :: behind <:+ s.toList → startsReference behind = false
  | .cSharp _ => ∀ c ∈ ['\u0085', '\u2028', '\u2029'], c ∉ s.toList
  | .dart => '\r' ∉ s.toList
  | _ => True

end Language

/-! ## Text between double quotes -/

/-- The characters of a text as they are written between double quotes. -/
def escapedChars (s : List Char) : List Char :=
  s.flatMap fun c => (Naming.escapeChar c).toList

theorem toList_escape (s : String) : (Naming.escape s).toList = escapedChars s.toList := by
  rw [Naming.escape, Text.mapEach, String.toList_ofList, escapedChars]

/-- The characters that are not written as they are, and what stands behind their backslash. -/
def escapes : List (Char × Char) :=
  [('\\', '\\'), ('"', '"'), ('\n', 'n'), ('\r', 'r'), ('\t', 't')]

theorem escapeChar_cases (c : Char) :
    (∃ e, (c, e) ∈ escapes ∧ (Naming.escapeChar c).toList = ['\\', e]) ∨
      (c ∉ escapes.map (·.1) ∧ (Naming.escapeChar c).toList = [c]) := by
  unfold Naming.escapeChar
  split
  · exact .inl ⟨'\\', by decide, rfl⟩
  · exact .inl ⟨'"', by decide, rfl⟩
  · exact .inl ⟨'n', by decide, rfl⟩
  · exact .inl ⟨'r', by decide, rfl⟩
  · exact .inl ⟨'t', by decide, rfl⟩
  · exact .inr ⟨by simp_all [escapes], by simp⟩

theorem escapedChars_cons (c : Char) (s : List Char) :
    escapedChars (c :: s) = (Naming.escapeChar c).toList ++ escapedChars s :=
  List.flatMap_cons

theorem mem_of_mem_escapedChars {c : Char} {s : List Char} (h : c ∈ escapedChars s) :
    (c ∈ s ∧ c ∉ escapes.map (·.1)) ∨ c ∈ '\\' :: escapes.map (·.2) := by
  obtain ⟨x, hx, hc⟩ := List.mem_flatMap.1 h
  obtain ⟨e, he, hwritten⟩ | ⟨hplain, hwritten⟩ := escapeChar_cases x
  · rw [hwritten] at hc
    obtain rfl | hc := List.mem_cons.1 hc
    · exact .inr List.mem_cons_self
    · rw [List.mem_singleton.1 hc]
      exact .inr (List.mem_cons_of_mem _ (List.mem_map_of_mem (f := (·.2)) he))
  · rw [hwritten] at hc
    obtain rfl := List.mem_singleton.1 hc
    exact .inl ⟨hx, hplain⟩

theorem mem_escapedChars {c : Char} {s : List Char} (hc : c ∉ escapes.map (·.1)) (h : c ∈ s) :
    c ∈ escapedChars s := by
  refine List.mem_flatMap.2 ⟨c, h, ?_⟩
  obtain ⟨e, he, -⟩ | ⟨-, hwritten⟩ := escapeChar_cases c
  · exact absurd (List.mem_map_of_mem (f := (·.1)) he) hc
  · rw [hwritten]
    exact List.mem_singleton_self c

namespace Quoting

variable {q : Quoting} {rest text : List Char} {c e : Char}

theorem body_quote : q.body (q.quote :: rest) = some ([], rest) := by
  rw [body.eq_def]
  simp

theorem body_escaped (hquote : q.quote ≠ '\\') (he : q.escape? e = some c) :
    q.body ('\\' :: e :: rest) = (q.body rest).map fun (text, behind) => (c :: text, behind) := by
  rw [body.eq_def]
  simp [hquote.symm, he]

theorem body_plain (hquote : c ≠ q.quote) (hslash : c ≠ '\\') (hbarred : c ∉ q.barred)
    (hdollar : c = '$' → q.interpolates (q.line rest) = false) :
    q.body (c :: rest) = (q.body rest).map fun (text, behind) => (c :: text, behind) := by
  rw [body.eq_def]
  by_cases hc : c = '$'
  · simp_all
  · simp [hquote, hslash, hbarred, hc]

theorem body_barred (hquote : c ≠ q.quote) (hslash : c ≠ '\\') (hbarred : c ∈ q.barred) :
    q.body (c :: rest) = none := by
  rw [body.eq_def]
  simp [hquote, hslash, hbarred]

theorem body_interpolates (hquote : '$' ≠ q.quote)
    (h : q.interpolates (q.line rest) = true) :
    q.body ('$' :: rest) = none := by
  rw [body.eq_def]
  by_cases hbarred : '$' ∈ q.barred <;> simp [hquote, h, hbarred]

/-- The language reads the escapes between double quotes, and a dollar sign means the same in front
of a text and in front of how the text is written. -/
structure Unescapes (q : Quoting) (rest : List Char) : Prop where
  quote : q.quote = '"'
  escape? : ∀ x ∈ escapes, q.escape? x.2 = some x.1
  interpolates : ∀ s, q.interpolates (q.line (escapedChars s ++ '"' :: rest)) = q.interpolates s

/-- No character stands for itself that the language does not take as itself. -/
def Plain (q : Quoting) (s : List Char) : Prop :=
  (∀ c ∈ s, c ∈ q.barred → c ∈ escapes.map (·.1)) ∧
    ∀ behind, '$' :: behind <:+ s → q.interpolates behind = false

theorem plain_cons (s : List Char) : q.Plain (c :: s) ↔
    (c ∈ q.barred → c ∈ escapes.map (·.1)) ∧ (c = '$' → q.interpolates s = false) ∧ q.Plain s := by
  unfold Plain
  simp only [List.forall_mem_cons, List.suffix_cons_iff, List.cons.injEq]
  constructor
  · rintro ⟨⟨hc, hs⟩, hdollar⟩
    exact ⟨hc, fun h => hdollar s (.inl ⟨h.symm, rfl⟩), hs, fun b hb => hdollar b (.inr hb)⟩
  · rintro ⟨hc, hdollar, hs, hmore⟩
    refine ⟨⟨hc, hs⟩, fun behind h => ?_⟩
    obtain ⟨hsign, rfl⟩ | h := h
    · exact hdollar hsign.symm
    · exact hmore behind h

/-- A text between double quotes is read back exactly if it is plain for the language. -/
theorem body_escape_iff (hq : q.Unescapes rest) (s : List Char) :
    q.body (escapedChars s ++ '"' :: rest) = some (s, rest) ↔ q.Plain s := by
  induction s with
  | nil =>
    have hend : q.body (q.quote :: rest) = some ([], rest) := body_quote
    rw [hq.quote] at hend
    simp [escapedChars, hend, Plain]
  | cons c s ih =>
    have hmap : (q.body (escapedChars s ++ '"' :: rest)).map (fun (text, behind) =>
        (c :: text, behind)) = some (c :: s, rest) ↔ q.Plain s := by
      rw [← ih]
      constructor
      · intro h
        obtain ⟨⟨text, behind⟩, htext, heq⟩ := Option.map_eq_some_iff.1 h
        rw [htext]
        simpa using heq
      · intro h
        rw [h]
        rfl
    rw [escapedChars_cons, List.append_assoc, plain_cons]
    obtain ⟨e, he, hwritten⟩ | ⟨hc, hwritten⟩ := escapeChar_cases c
    · have hdollar : c ≠ '$' := by
        rintro rfl
        simp [escapes] at he
      have hmem : c ∈ escapes.map (·.1) := List.mem_map_of_mem (f := (·.1)) he
      rw [hwritten, List.cons_append, List.singleton_append,
        body_escaped (by rw [hq.quote]; decide) (hq.escape? _ he), hmap]
      simp [hmem, hdollar]
    · rw [hwritten, List.singleton_append]
      have hquote : c ≠ q.quote := by
        rw [hq.quote]
        rintro rfl
        exact hc (by decide)
      have hslash : c ≠ '\\' := by
        rintro rfl
        exact hc (by decide)
      by_cases hbarred : c ∈ q.barred
      · rw [body_barred hquote hslash hbarred]
        simp [hbarred, hc]
      by_cases hdollar : c = '$' ∧ q.interpolates s = true
      · obtain ⟨rfl, hs⟩ := hdollar
        rw [body_interpolates hquote (by rw [hq.interpolates, hs])]
        simp [hs]
      · have hclear : c = '$' → q.interpolates s = false := fun h => by
          simpa using fun hs => hdollar ⟨h, hs⟩
        rw [body_plain hquote hslash hbarred fun h => by rw [hq.interpolates, hclear h], hmap]
        exact ⟨fun h => ⟨fun h => absurd h hbarred, hclear, h⟩, fun h => h.2.2⟩

/-- A literal between double quotes is read back exactly if its text is plain for the language. -/
theorem read_escape_iff {behind : String} (hq : q.Unescapes behind.toList) (s : String) :
    q.read ("\"" ++ Naming.escape s ++ "\"" ++ behind) = some (s, behind) ↔ q.Plain s.toList := by
  rw [← body_escape_iff hq]
  have htext : ("\"" ++ Naming.escape s ++ "\"" ++ behind).toList =
      '"' :: (escapedChars s.toList ++ '"' :: behind.toList) := by
    simp [toList_escape]
  unfold read
  rw [htext]
  dsimp only
  rw [if_pos (by simp [hq.quote])]
  constructor
  · intro h
    obtain ⟨⟨text, rest⟩, hbody, heq⟩ := Option.map_eq_some_iff.1 h
    simp only [Prod.mk.injEq] at heq
    rw [hbody, ← heq.1, ← heq.2, String.toList_ofList, String.toList_ofList]
  · intro h
    rw [h]
    simp

/-- Without interpolation nothing is to be shown of dollar signs. -/
theorem Unescapes.of_const (hquote : q.quote = '"')
    (hescape : ∀ x ∈ escapes, q.escape? x.2 = some x.1) (h : q.interpolates = fun _ => false) :
    q.Unescapes rest :=
  ⟨hquote, hescape, fun _ => by rw [h]⟩

end Quoting

namespace Language

/-! ### Kotlin's references -/

theorem startsReference_escaped {c : Char} (h : c ∈ '\\' :: escapes.map (·.1)) (cs : List Char) :
    startsReference (c :: cs) = false := by
  have hall : ∀ c ∈ '\\' :: escapes.map (·.1), Text.isLetter c = false ∧ c ≠ '_' ∧ c ≠ '\x7b' ∧
      c ≠ '`' := List.all_iff_forall_prop.1 (by decide)
  obtain ⟨hletter, hline, hbrace, htick⟩ := hall c h
  simp [startsReference, hletter, hline, hbrace, htick]

theorem head?_escapedChars (s : List Char) :
    ((escapedChars s ++ ['"']).head? == some '`') = (s.head? == some '`') := by
  cases s with
  | nil => rfl
  | cons c s =>
    rw [escapedChars_cons]
    obtain ⟨e, he, hwritten⟩ | ⟨-, hwritten⟩ := escapeChar_cases c
    · have hall : ∀ x ∈ escapes, x.1 ≠ '`' := by decide
      rw [hwritten]
      simpa using hall _ he
    · rw [hwritten]
      rfl

theorem contains_escapedChars (s : List Char) :
    (escapedChars s ++ ['"']).contains '`' = s.contains '`' := by
  rw [Bool.eq_iff_iff]
  simp only [List.contains_iff_mem, List.mem_append]
  constructor
  · rintro (h | h)
    · obtain h | h := mem_of_mem_escapedChars h
      · exact h.1
      · exact absurd h (by decide)
    · exact absurd h (by decide)
  · exact fun h => .inl (mem_escapedChars (by decide) h)

/-- A dollar sign starts a reference in front of a text as it does in front of how that is
written. -/
theorem startsReference_escapedChars (s : List Char) :
    startsReference (escapedChars s ++ ['"']) = startsReference s := by
  cases s with
  | nil => exact startsReference_escaped (by decide) []
  | cons c s =>
    rw [escapedChars_cons]
    obtain ⟨e, he, hwritten⟩ | ⟨-, hwritten⟩ := escapeChar_cases c
    · have hmem : c ∈ escapes.map (·.1) := List.mem_map_of_mem (f := (·.1)) he
      rw [hwritten, startsReference_escaped (List.mem_cons_of_mem _ hmem)]
      exact startsReference_escaped List.mem_cons_self _
    · rw [hwritten, List.singleton_append, List.cons_append]
      simp only [startsReference, head?_escapedChars, bne, contains_escapedChars]

theorem mem_escapes_of_lineEnd : ∀ c ∈ ['\n', '\r'], c ∈ escapes.map (·.1) :=
  List.all_iff_forall_prop.1 (by decide)

theorem unescapes_kotlin : kotlin.quoting.Unescapes [] where
  quote := rfl
  escape? := by decide
  interpolates s := by
    have hline : ∀ c ∈ escapedChars s ++ ['"'], c ∉ ['\n', '\r'] := by
      intro c hc
      obtain hc | hc := List.mem_append.1 hc
      · obtain ⟨-, hc⟩ | hc := mem_of_mem_escapedChars hc
        · exact fun h => hc (mem_escapes_of_lineEnd c h)
        · have hletters : ∀ c ∈ ['\n', '\r'], c ∉ '\\' :: escapes.map (·.2) :=
            List.all_iff_forall_prop.1 (by decide)
          exact fun h => hletters c h hc
      · rw [List.mem_singleton.1 hc]
        decide
    have hwhole : kotlin.quoting.line (escapedChars s ++ ['"']) = escapedChars s ++ ['"'] := by
      rw [Quoting.line, List.takeWhile_eq_self_iff]
      simpa [quoting] using hline
    rw [hwhole]
    exact startsReference_escapedChars s

/-! ## Text between single quotes -/

/-- What is read of a text between Dart's single quotes. -/
theorem body_dart (s rest : List Char) :
    dart.quoting.body (s.flatMap (fun c => (Target.Dart.escapeChar c).toList) ++ '\'' :: rest) =
      some (s.filter (· != '\r'), rest) := by
  induction s with
  | nil => exact Quoting.body_quote (q := dart.quoting)
  | cons c s ih =>
    rw [List.flatMap_cons, List.append_assoc]
    generalize s.flatMap (fun c => (Target.Dart.escapeChar c).toList) ++ '\'' :: rest = written
      at ih ⊢
    have hescaped : ∀ {e : Char}, dart.quoting.escape? e = some c →
        dart.quoting.body ('\\' :: e :: written) = some (c :: s.filter (· != '\r'), rest) := by
      intro e he
      rw [Quoting.body_escaped (by decide) he, ih]
      rfl
    unfold Target.Dart.escapeChar
    split
    · exact hescaped rfl
    · exact hescaped rfl
    · exact hescaped rfl
    · exact hescaped rfl
    · exact ih
    · rename_i hslash hquote hdollar hline hreturn
      have hplain : dart.quoting.body (c :: written) =
          (dart.quoting.body written).map fun (text, behind) => (c :: text, behind) :=
        Quoting.body_plain hquote hslash (by simpa [quoting] using ⟨hline, hreturn⟩)
          fun h => absurd h hdollar
      rw [Char.toString, String.toList_singleton, List.singleton_append, hplain, ih,
        List.filter_cons_of_pos (by simpa using hreturn)]
      rfl

/-! ## All languages -/

/-- A language without interpolation keeps texts without characters that no escape is for. -/
theorem plain_iff {q : Quoting} (h : q.interpolates = fun _ => false) {s : List Char} :
    q.Plain s ↔ ∀ c ∈ s, c ∈ q.barred → c ∈ escapes.map (·.1) :=
  ⟨fun hplain => hplain.1, fun hplain => ⟨hplain, fun _ _ => by rw [h]⟩⟩

theorem plain_of_barred {q : Quoting} (h : q.interpolates = fun _ => false)
    (hbarred : ∀ c ∈ q.barred, c ∈ escapes.map (·.1)) (s : List Char) : q.Plain s :=
  (plain_iff h).2 fun c _ hc => hbarred c hc

theorem escape?_escapes : ∀ x ∈ escapes, escapeWith? ['\''] x.2 = some x.1 := by
  decide

/-- The literal of a text is complete and is read as that text exactly if the language keeps it. -/
theorem quote_read_iff (l : Language) (s : String) :
    l.quoting.read (l.dialect.quote s) = some (s, l.behindLiteral) ↔ l.Keeps s := by
  have hdouble : l.dialect.quote s = "\"" ++ Naming.escape s ++ "\"" ++ l.behindLiteral →
      l.quoting.Unescapes l.behindLiteral.toList → (l.quoting.Plain s.toList ↔ l.Keeps s) →
      (l.quoting.read (l.dialect.quote s) = some (s, l.behindLiteral) ↔ l.Keeps s) := by
    intro hquote hread hkeeps
    rw [hquote, Quoting.read_escape_iff hread, hkeeps]
  have hall : ∀ {q : Quoting}, q.interpolates = (fun _ => false) →
      (∀ c ∈ q.barred, c ∈ escapes.map (·.1)) → (q.Plain s.toList ↔ True) :=
    fun h hbarred => iff_true_intro (plain_of_barred h hbarred s.toList)
  cases l with
  | cpp | java _ | python =>
    exact hdouble String.append_empty.symm (.of_const rfl escape?_escapes rfl)
      (hall rfl mem_escapes_of_lineEnd)
  | go =>
    exact hdouble String.append_empty.symm (.of_const rfl (by decide) rfl)
      (hall rfl (List.all_iff_forall_prop.1 (by decide)))
  | javaScript typed =>
    have hescape : ∀ x ∈ escapes, escapeWith? ['\'', '$'] x.2 = some x.1 := by decide
    exact hdouble String.append_empty.symm (.of_const rfl hescape rfl)
      (hall rfl mem_escapes_of_lineEnd)
  | rust =>
    have hquote : rust.dialect.quote s = "\"" ++ Naming.escape s ++ "\"" ++ rust.behindLiteral := by
      rw [String.append_assoc]
      rfl
    exact hdouble hquote (.of_const rfl escape?_escapes rfl)
      (hall rfl (List.all_iff_forall_prop.1 (by decide)))
  | kotlin =>
    refine hdouble String.append_empty.symm unescapes_kotlin ⟨fun h => h.2, fun h => ⟨?_, h⟩⟩
    exact fun c _ hc => mem_escapes_of_lineEnd c hc
  | cSharp functions =>
    refine hdouble String.append_empty.symm (.of_const rfl escape?_escapes rfl) ?_
    rw [plain_iff rfl]
    constructor
    · intro h c hc hmem
      have hbarred : c ∈ (cSharp functions).quoting.barred :=
        List.mem_cons_of_mem _ (List.mem_cons_of_mem _ hc)
      have hraw : ∀ c ∈ ['\u0085', '\u2028', '\u2029'], c ∉ escapes.map (·.1) :=
        List.all_iff_forall_prop.1 (by decide)
      exact hraw c hc (h c hmem hbarred)
    · intro h c hmem hbarred
      obtain hc | hc := List.mem_append.1
        (show c ∈ ['\n', '\r'] ++ ['\u0085', '\u2028', '\u2029'] from hbarred)
      · exact mem_escapes_of_lineEnd c hc
      · exact absurd hmem (h c hc)
  | dart =>
    have htext : (dart.dialect.quote s).toList = '\'' ::
        (s.toList.flatMap (fun c => (Target.Dart.escapeChar c).toList) ++ '\'' :: []) := by
      simp [dialect, Target.Dart.dialect, Target.Dart.escaped, Text.mapEach]
    have hread : dart.quoting.read (dart.dialect.quote s) =
        some (String.ofList (s.toList.filter (· != '\r')), "") := by
      rw [Quoting.read, htext]
      dsimp only
      rw [body_dart]
      rfl
    rw [hread]
    simp only [Option.some.injEq, Prod.mk.injEq, behindLiteral, and_true, Keeps]
    rw [← String.toList_inj, String.toList_ofList, List.filter_eq_self]
    simp only [bne_iff_ne]
    exact ⟨fun h hmem => h _ hmem rfl, fun h c hc heq => h (heq ▸ hc)⟩

/-- A text with a dollar sign in front of a letter, of which Kotlin reads no complete literal. -/
theorem quote_not_read_dollar :
    kotlin.dialect.quote "pay $x" = "\"pay $x\"" ∧ ¬kotlin.Keeps "pay $x" ∧
    kotlin.quoting.read (kotlin.dialect.quote "pay $x") = none := by
  refine ⟨by decide +kernel, fun h => ?_, by decide +kernel⟩
  have hreference := h ['x'] ⟨"pay ".toList, rfl⟩
  cases hreference

end Language

end Scaffold
