import Scaffold.FileTree
import Scaffold.Manifest
import Scaffold.Reply

/-!
# Where a path leads

In a tree without links a path leads to one place, whatever stands in the tree: the fold of its
pieces over the place it starts from (`Path.placeFrom`). Following the path step by step can fail,
but it can arrive nowhere else (`FileTree.place_eq`).

* `placeFrom_join`: joining a relative path to a root means going on from where the root leads.
* `placeFrom_join_of_isContained`: a contained path leads to a place under the root, which is the
  root followed by the names on the path; these names are also what its manifest key is made of.
-/

namespace Scaffold

/-! ## Pieces -/

namespace Text

theorem splitChars_ne_nil (sep : Char → Bool) (cs : List Char) : splitChars sep cs ≠ [] := by
  cases cs with
  | nil => simp [splitChars]
  | cons c cs =>
    simp only [splitChars]
    split
    · simp
    · split <;> simp

/-- A separator cuts a text into the pieces before it and the pieces after it. -/
theorem splitChars_append (sep : Char → Bool) (as bs : List Char) (c : Char) (hc : sep c = true) :
    splitChars sep (as ++ c :: bs) = splitChars sep as ++ splitChars sep bs := by
  induction as with
  | nil =>
    simp only [List.nil_append, splitChars, hc, if_true]
    split
    · rename_i h; exact absurd h (splitChars_ne_nil sep bs)
    · rename_i h; simp [h]
  | cons a as ih =>
    simp only [List.cons_append, splitChars, ih]
    cases hs : splitChars sep as with
    | nil => exact absurd hs (splitChars_ne_nil sep as)
    | cons p ps =>
      simp only [List.cons_append]
      split <;> rfl

end Text

namespace Path

theorem pieces_ne_nil (p : Path) : p.pieces ≠ [] := by
  simpa [pieces, Text.split] using Text.splitChars_ne_nil _ _

theorem pieces_append_slash (a b : String) :
    (Path.mk (a ++ "/" ++ b)).pieces = (Path.mk a).pieces ++ (Path.mk b).pieces := by
  have h : (a ++ "/" ++ b).toList = a.toList ++ '/' :: b.toList := by simp
  simp only [pieces, Text.split, h]
  rw [Text.splitChars_append _ _ _ _ (by decide), List.map_append]

@[simp] theorem pieces_empty : (Path.mk "").pieces = [""] := by decide

/-! ## The place a path leads to -/

/-- Where a path leads from a place, when its dots are taken by text alone. -/
def placeFrom (p : Path) (current : List String) : List String :=
  p.pieces.foldl FileTree.step (if p.isAbsolute then [] else current)

@[simp] theorem step_empty (place : List String) : FileTree.step place "" = place := rfl

/-- A text that ends with a slash is another one, the slash and nothing. -/
theorem eq_append_slash {s : String} (h : s.toList.getLast? = some '/') :
    ∃ a : String, s = a ++ "/" := by
  obtain ⟨cs, hcs⟩ := List.getLast?_eq_some_iff.1 h
  exact ⟨String.ofList cs, String.ext (by simp [hcs])⟩

theorem isAbsolute_append {t : String} (ht : t ≠ "") (r : String) :
    (Path.mk (t ++ r)).isAbsolute = (Path.mk t).isAbsolute := by
  obtain ⟨c, cs, hc⟩ := List.exists_cons_of_ne_nil (l := t.toList) (by simpa using ht)
  simp [isAbsolute, hc]

theorem isAbsolute_join (p : Path) (q : String) (hq : (Path.mk q).isAbsolute = false) :
    (p.join q).isAbsolute = p.isAbsolute := by
  obtain ⟨t⟩ := p
  unfold join
  simp only [hq, Bool.false_eq_true, if_false]
  by_cases ht : t = ""
  · subst ht
    simpa using hq.trans (by decide)
  · split
    · exact isAbsolute_append ht q
    · rw [String.append_assoc]
      exact isAbsolute_append ht ("/" ++ q)

/-- The pieces of a joined path are those of the root, less an empty one at its end, and then those
of the relative path. -/
theorem pieces_join (p : Path) :
    ∃ ps, (∀ q : String, (Path.mk q).isAbsolute = false →
        (p.join q).pieces = ps ++ (Path.mk q).pieces) ∧
      (p.text = "" ∧ ps = [] ∨ p.text ≠ "" ∧ (p.pieces = ps ∨ p.pieces = ps ++ [""])) := by
  obtain ⟨t⟩ := p
  unfold join
  by_cases ht : t = ""
  · subst ht
    refine ⟨[], fun q hq => ?_, .inl ⟨rfl, rfl⟩⟩
    simp [hq]
  by_cases hs : t.toList.getLast? = some '/'
  · -- The slash at the end of the root is the one that a join would add.
    obtain ⟨a, rfl⟩ := eq_append_slash hs
    have hroot := pieces_append_slash a ""
    rw [String.append_empty, pieces_empty] at hroot
    refine ⟨(Path.mk a).pieces, fun q hq => ?_, .inr ⟨ht, .inr hroot⟩⟩
    simp only [hq, hs, beq_self_eq_true, Bool.or_true, Bool.false_eq_true, if_true, if_false]
    exact pieces_append_slash a q
  · have hcond : ((t == "") || (t.toList.getLast? == some '/')) = false := by simp [ht, hs]
    refine ⟨(Path.mk t).pieces, fun q hq => ?_, .inr ⟨ht, .inl rfl⟩⟩
    simp only [hq, hcond, Bool.false_eq_true, if_false]
    exact pieces_append_slash t q

/-- A relative path that is joined to another starts from where that one leads. -/
theorem placeFrom_join (p : Path) (q : String) (current : List String)
    (hq : (Path.mk q).isAbsolute = false) :
    (p.join q).placeFrom current = (Path.mk q).pieces.foldl FileTree.step (p.placeFrom current) := by
  obtain ⟨ps, hps, hp⟩ := pieces_join p
  unfold placeFrom
  rw [isAbsolute_join p q hq, hps q hq, List.foldl_append]
  obtain ⟨ht, rfl⟩ | ⟨-, hp | hp⟩ := hp
  · obtain ⟨t⟩ := p
    obtain rfl : t = "" := ht
    simp
  · rw [hp]
  · rw [hp, List.foldl_append]
    rfl

/-! ## Contained paths -/

/-- A piece that does not lead upward. -/
def Descends (piece : String) : Prop := piece ≠ ".."

def namesOf (pieces : List String) : List String :=
  pieces.filter fun piece => piece != "" && piece != "."

theorem foldl_step_of_descends (pieces place : List String) (h : ∀ x ∈ pieces, Descends x) :
    pieces.foldl FileTree.step place = place ++ namesOf pieces := by
  induction pieces generalizing place with
  | nil => simp [namesOf]
  | cons x rest ih =>
    have hx : x ≠ ".." := h x (by simp)
    rw [List.foldl_cons, ih _ fun y hy => h y (by simp [hy])]
    by_cases h1 : x = ""
    · simp [FileTree.step, namesOf, h1]
    · by_cases h2 : x = "."
      · simp [FileTree.step, namesOf, h2]
      · simp [FileTree.step, namesOf, h1, h2, hx]

theorem filterMap_ofPiece {f : Part → Option String} (hf : ∀ s, f (.name s) = some s)
    (pieces : List String) (h : ∀ x ∈ pieces, Descends x) :
    (pieces.filterMap Part.ofPiece?).filterMap f = namesOf pieces := by
  induction pieces with
  | nil => rfl
  | cons x rest ih =>
    have hx : x ≠ ".." := h x (by simp)
    have ih := ih fun y hy => h y (by simp [hy])
    by_cases h1 : x = ""
    · simpa [Part.ofPiece?, namesOf, h1] using ih
    · by_cases h2 : x = "."
      · simpa [Part.ofPiece?, namesOf, h2] using ih
      · simpa [Part.ofPiece?, namesOf, h1, h2, hx, hf] using ih

theorem names_eq_namesOf {p : Path} (h : ∀ x ∈ p.pieces, Descends x) :
    p.names = namesOf p.pieces := by
  unfold names parts
  split
  · exact filterMap_ofPiece (fun _ => rfl) _ h
  · split
    · exact filterMap_ofPiece (fun _ => rfl) _ h
    · exact filterMap_ofPiece (fun _ => rfl) _ h

theorem isAbsolute_of_isContained {p : Path} (h : p.isContained = true) : p.isAbsolute = false := by
  cases ha : p.isAbsolute with
  | false => rfl
  | true => simp [isContained, parts, ha] at h

theorem descends_of_isContained {p : Path} (h : p.isContained = true) :
    ∀ x ∈ p.pieces, Descends x := by
  intro x hx hup
  subst hup
  have hmem : Part.up ∈ p.parts := by
    have : Part.up ∈ p.pieces.filterMap Part.ofPiece? :=
      List.mem_filterMap.2 ⟨"..", hx, by decide⟩
    unfold parts
    split
    · exact List.mem_cons_of_mem _ this
    · split
      · exact List.mem_cons_of_mem _ this
      · exact this
  have hall := (Bool.and_eq_true_iff.1 h).2
  have := List.all_eq_true.1 hall _ hmem
  simp at this

/-- A contained path leads to the place under the root that its names spell. -/
theorem placeFrom_join_of_isContained (root : Path) (q : String) (current : List String)
    (h : (Path.mk q).isContained = true) :
    (root.join q).placeFrom current = root.placeFrom current ++ (Path.mk q).names := by
  rw [placeFrom_join root q current (isAbsolute_of_isContained h),
    foldl_step_of_descends _ _ (descends_of_isContained h),
    names_eq_namesOf (descends_of_isContained h)]

end Path

end Scaffold
