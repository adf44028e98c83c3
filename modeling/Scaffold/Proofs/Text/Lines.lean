import Mathlib.Data.List.DropRight
import Scaffold.Proofs.Output.Key
import Scaffold.Text.Basic

/-!
# Lines and ends of a text

Text is cut into lines at its line feeds, so a text is cut line by line: in front of the lines of
the rest stands the first line, without the carriage return that may end it. Trimming takes the blanks
at both ends away.
-/

namespace Scaffold.Text

theorem afterHeadChars_eq_some {head cs rest : List Char} :
    afterHeadChars head cs = some rest ↔ cs = head ++ rest := by
  induction head generalizing cs with
  | nil => simp [afterHeadChars]
  | cons c head ih =>
    cases cs with
    | nil => simp [afterHeadChars]
    | cons d cs =>
      rw [afterHeadChars]
      split
      · obtain rfl := beq_iff_eq.1 ‹_›
        rw [ih, List.cons_append, List.cons_inj_right]
      · refine iff_of_false (fun h => by cases h) fun heq => ‹¬_› ?_
        cases heq
        exact beq_self_eq_true c

/-! ## Cutting -/

theorem lineChars_cons {line : List Char} (h : '\n' ∉ line) (cs : List Char) :
    lineChars (line ++ '\n' :: cs) = dropReturn line :: lineChars cs := by
  have hline : splitChars (· == '\n') line = [line] :=
    splitChars_of_not_sep fun c hc => beq_eq_false_iff_ne.2 fun heq => h (heq ▸ hc)
  have hsplit : splitChars (· == '\n') (line ++ '\n' :: cs) =
      line :: splitChars (· == '\n') cs := by
    rw [splitChars_append _ line cs '\n' (by decide), hline]
    rfl
  obtain ⟨last, ended, hreverse⟩ :=
    List.exists_cons_of_ne_nil (mt List.reverse_eq_nil_iff.1 (splitChars_ne_nil (· == '\n') cs))
  rw [lineChars, lineChars, hsplit, List.reverse_cons, hreverse]
  simp

/-- A line without the carriage return that may end it. -/
def withoutReturn (line : String) : String :=
  String.ofList (dropReturn line.toList)

/-- A carriage return at the end is all that is dropped. -/
theorem dropReturn_eq_or (line : List Char) :
    dropReturn line = line ∨ line = dropReturn line ++ ['\r'] := by
  rw [dropReturn]
  split
  · rename_i rest heq
    refine .inr ?_
    rw [← List.reverse_inj, heq]
    simp
  · exact .inl rfl

theorem withoutReturn_eq_self {line : String} (h : line.toList.getLast? ≠ some '\r') :
    withoutReturn line = line := by
  obtain heq | heq := dropReturn_eq_or line.toList
  · rw [withoutReturn, heq, String.ofList_toList]
  · exact absurd (by rw [heq]; exact List.getLast?_concat) h

/-- The first line of a text. -/
theorem lines_cons {line : String} (h : '\n' ∉ line.toList) (rest : String) :
    lines (line ++ "\n" ++ rest) = withoutReturn line :: lines rest := by
  have hchars : (line ++ "\n" ++ rest).toList = line.toList ++ '\n' :: rest.toList := by
    simp [String.toList_append]
  rw [lines, hchars, lineChars_cons h, List.map_cons]
  rfl

/-! ## Joining -/

theorem unlines_cons (line : String) (rest : List String) :
    unlines (line :: rest) = line ++ "\n" ++ unlines rest := by
  rw [unlines, List.map_cons, String.join_cons]
  rfl

/-- The lines that a text starts with. -/
theorem lines_unlines_append {texts : List String} (h : ∀ line ∈ texts, '\n' ∉ line.toList)
    (rest : String) : lines (unlines texts ++ rest) = texts.map withoutReturn ++ lines rest := by
  induction texts with
  | nil => exact congrArg lines String.empty_append
  | cons line texts ih =>
    obtain ⟨hline, htexts⟩ := List.forall_mem_cons.1 h
    rw [unlines_cons, String.append_assoc, lines_cons hline, ih htexts]
    rfl

/-- Joined lines are no text or end with a line feed. -/
theorem unlines_eq_empty_or (texts : List String) :
    unlines texts = "" ∨ ∃ text, unlines texts = text ++ "\n" := by
  obtain rfl | ⟨front, line, rfl⟩ := texts.eq_nil_or_concat
  · exact .inl rfl
  · refine .inr ⟨unlines front ++ line, ?_⟩
    rw [unlines, unlines, List.concat_eq_append, List.map_append, String.join_append,
      String.append_assoc]
    rfl

end Scaffold.Text

/-!
## Trimmed text

What trimming takes away and what it leaves.

* `trimChars_blank_append`, `trimChars_append_blank`: blanks at the ends make no difference.
* `trimChars_eq_self_iff`: a text is trimmed when neither end is blank.
-/

namespace Scaffold.Text

variable {cs blanks : List Char}

theorem dropEndWhile_eq_rdropWhile (p : Char → Bool) (cs : List Char) :
    dropEndWhile p cs = cs.rdropWhile p := rfl

theorem dropEndWhile_append_blank (hblanks : ∀ c ∈ blanks, isBlank c = true) (cs : List Char) :
    dropEndWhile isBlank (cs ++ blanks) = dropEndWhile isBlank cs := by
  rw [dropEndWhile, dropEndWhile, List.reverse_append,
    List.dropWhile_append_of_pos fun c hc => hblanks c (List.mem_reverse.1 hc)]

theorem trimChars_blank_append (hblanks : ∀ c ∈ blanks, isBlank c = true) (cs : List Char) :
    trimChars (blanks ++ cs) = trimChars cs := by
  rw [trimChars, trimChars, List.dropWhile_append_of_pos hblanks]

theorem trimChars_eq_nil_iff : trimChars cs = [] ↔ ∀ c ∈ cs, isBlank c = true := by
  rw [trimChars, dropEndWhile_eq_rdropWhile, List.rdropWhile_eq_nil_iff]
  constructor
  · intro h c hc
    rw [← List.takeWhile_append_dropWhile (p := isBlank) (l := cs), List.mem_append] at hc
    exact hc.elim List.mem_takeWhile_imp (h c)
  · intro h c hc
    exact h c ((List.dropWhile_suffix isBlank).subset hc)

theorem trimChars_append_blank (hblanks : ∀ c ∈ blanks, isBlank c = true) (cs : List Char) :
    trimChars (cs ++ blanks) = trimChars cs := by
  rw [trimChars, trimChars, List.dropWhile_append]
  split
  · rename_i hnil
    rw [List.isEmpty_iff.1 hnil, List.dropWhile_eq_nil_iff.2 hblanks]
  · exact dropEndWhile_append_blank hblanks _

theorem trimChars_isPart (cs : List Char) : trimChars cs <:+: cs :=
  (List.rdropWhile_prefix isBlank (cs.dropWhile isBlank)).isInfix.trans
    (List.dropWhile_suffix isBlank).isInfix

theorem dropWhile_head? {p : Char → Bool} : ∀ c ∈ (cs.dropWhile p).head?, p c = false := by
  intro c hc
  have h := List.head?_dropWhile_not p cs
  rw [Option.mem_def.1 hc] at h
  exact h

/-- A text is trimmed when neither end is blank. -/
theorem trimChars_eq_self_iff : trimChars cs = cs ↔
    (∀ c ∈ cs.head?, isBlank c = false) ∧ ∀ c ∈ cs.getLast?, isBlank c = false := by
  constructor
  · intro h
    -- A blank at an end would be trimmed, and the text would get shorter.
    have hlength : ∀ cs' : List Char, trimChars cs = trimChars cs' → cs.length ≤ cs'.length :=
      fun cs' heq => by
        rw [← h, heq]
        exact (trimChars_isPart cs').length_le
    refine ⟨fun c hc => ?_, fun c hc => ?_⟩ <;> rw [← Bool.not_eq_true] <;> intro hblank
    · obtain ⟨rest, rfl⟩ := List.head?_eq_some_iff.1 hc
      have hblanks : ∀ d ∈ [c], isBlank d = true := by simpa using hblank
      have hle := hlength rest (trimChars_blank_append hblanks rest)
      exact absurd hle (by simp)
    · obtain ⟨init, rfl⟩ := List.getLast?_eq_some_iff.1 hc
      have hle := hlength init (trimChars_append_blank (by simpa using hblank) init)
      exact absurd hle (by simp)
  · rintro ⟨hhead, hlast⟩
    have hdrop : cs.dropWhile isBlank = cs := by
      cases cs with
      | nil => rfl
      | cons c rest => exact List.dropWhile_cons_of_neg (by simp [hhead c rfl])
    rw [trimChars, hdrop, dropEndWhile_eq_rdropWhile, List.rdropWhile_eq_self_iff]
    intro hne
    simp [hlast _ (List.getLast?_eq_some_getLast hne)]

theorem trim_eq_self_iff {s : String} : trim s = s ↔ trimChars s.toList = s.toList := by
  rw [trim, ← String.toList_inj, String.toList_ofList]

theorem trimChars_trimChars (cs : List Char) : trimChars (trimChars cs) = trimChars cs := by
  by_cases hne : trimChars cs = []
  · rw [hne]
    rfl
  refine trimChars_eq_self_iff.2 ⟨fun c hc => ?_, fun c hc => ?_⟩
  · have hfront : trimChars cs <+: cs.dropWhile isBlank := List.rdropWhile_prefix isBlank _
    obtain ⟨rest, hrest⟩ := hfront
    have hhead : c ∈ (cs.dropWhile isBlank).head? := by
      rw [← hrest, List.head?_append_of_ne_nil _ hne]
      exact hc
    exact dropWhile_head? c hhead
  · rw [Option.mem_def, List.getLast?_eq_some_getLast hne, Option.some_inj] at hc
    rw [← hc]
    exact Bool.eq_false_iff.2 (List.rdropWhile_last_not isBlank (cs.dropWhile isBlank) hne)

end Scaffold.Text
