import Mathlib.Data.List.Perm.Subperm
import Scaffold.Proofs.FileTree.Access
import Scaffold.Proofs.ImportTable
import Scaffold.Proofs.Output.Key

/-!
# Canonical paths

The canonical path of a file names its place without detours, so two canonical paths of files that
mean the same are the same text (`FileAt.eq_of_same`), and there are no more of them than entries of
the tree (`length_le_entries`).
-/

namespace Scaffold

namespace Path

/-- A name that an entry of a directory may have. -/
def IsName (x : String) : Prop :=
  x ≠ "" ∧ x ≠ "." ∧ x ≠ ".." ∧ '/' ∉ x.toList

instance (x : String) : Decidable (IsName x) :=
  inferInstanceAs (Decidable (x ≠ "" ∧ x ≠ "." ∧ x ≠ ".." ∧ '/' ∉ x.toList))

theorem filterMap_names {names : List String} (h : ∀ x ∈ names, IsName x) :
    names.filterMap Part.ofPiece? = names.map .name := by
  induction names with
  | nil => rfl
  | cons x rest ih =>
    obtain ⟨hempty, hdot, hup, -⟩ := h x List.mem_cons_self
    have hx : Part.ofPiece? x = some (.name x) := by simp [Part.ofPiece?, hempty, hdot, hup]
    rw [List.filterMap_cons, hx, ih fun y hy => h y (List.mem_cons_of_mem _ hy)]
    rfl

theorem parts_ofNames {names : List String} (h : ∀ x ∈ names, IsName x) :
    (ofNames names).parts = .root :: names.map .name := by
  have hpieces : (ofNames names).pieces = "" :: (Path.mk (Text.joinWith "/" names)).pieces := by
    have htext : "/" ++ Text.joinWith "/" names = "" ++ "/" ++ Text.joinWith "/" names := by simp
    rw [ofNames, htext, pieces_append_slash]
    rfl
  have habsolute : (ofNames names).isAbsolute = true := by simp [isAbsolute, ofNames]
  have hskip : Part.ofPiece? "" = none := rfl
  unfold parts
  rw [if_pos habsolute, hpieces, List.filterMap_cons, hskip]
  dsimp only
  by_cases hne : names = []
  · subst hne
    rfl
  · rw [pieces_joinWith hne fun x hx => (h x hx).2.2.2, filterMap_names h]

theorem ofNames_inj {a b : List String} (ha : ∀ x ∈ a, IsName x) (hb : ∀ x ∈ b, IsName x)
    (h : (ofNames a).same (ofNames b) = true) : a = b := by
  have hparts := same_iff.1 h
  rw [parts_ofNames ha, parts_ofNames hb] at hparts
  have hnames : a.map Part.name = b.map Part.name := (List.cons.inj hparts).2
  exact List.map_injective_iff.2 (fun x y hxy => Part.name.inj hxy) hnames

end Path

namespace FileTree

open Scaffold.Path (IsName)

variable {t : FileTree} {p q : Path} {a b text : String}

/-- A path from the root that goes straight to a file, and the text of the file. -/
def FileAt (t : FileTree) (p : Path) (text : String) : Prop :=
  ∃ place, (∀ x ∈ place, IsName x) ∧ t.entry? place = some (.file text) ∧ p = Path.ofNames place

theorem FileAt.eq_of_same (hp : t.FileAt p a) (hq : t.FileAt q b) (h : p.same q = true) : p = q := by
  obtain ⟨r, hr, -, rfl⟩ := hp
  obtain ⟨r', hr', -, rfl⟩ := hq
  rw [Path.ofNames_inj hr hr' h]

theorem FileAt.text_eq (ha : t.FileAt p a) (hb : t.FileAt p b) : a = b := by
  obtain ⟨r, hr, hfile, rfl⟩ := ha
  obtain ⟨r', hr', hfile', heq⟩ := hb
  obtain rfl : r = r' := Path.ofNames_inj hr hr' (Path.same_iff.2 (congrArg Path.parts heq))
  rw [hfile] at hfile'
  cases hfile'
  rfl

theorem isName_step {place : List String} {piece : String} (hplace : ∀ x ∈ place, IsName x)
    (hpiece : '/' ∉ piece.toList) : ∀ x ∈ step place piece, IsName x := by
  intro x hx
  unfold step at hx
  split at hx
  · exact hplace x hx
  · rename_i hidle
    split at hx
    · exact hplace x (List.dropLast_subset _ hx)
    · rename_i hup
      obtain hx | hx := List.mem_append.1 hx
      · exact hplace x hx
      · obtain rfl := List.mem_singleton.1 hx
        simp only [Bool.or_eq_true, beq_iff_eq, not_or] at hidle hup
        exact ⟨hidle.1, hidle.2, hup, hpiece⟩

theorem isName_foldl {pieces place : List String} (hplace : ∀ x ∈ place, IsName x)
    (hpieces : ∀ x ∈ pieces, '/' ∉ x.toList) : ∀ x ∈ pieces.foldl step place, IsName x := by
  induction pieces generalizing place with
  | nil => exact hplace
  | cons piece rest ih =>
    exact ih (isName_step hplace (hpieces piece List.mem_cons_self))
      fun x hx => hpieces x (List.mem_cons_of_mem _ hx)

theorem isName_place (hcurrent : ∀ x ∈ t.current, IsName x) {r : List String}
    (h : t.place p = .ok r) : ∀ x ∈ r, IsName x := by
  rw [place_eq h]
  refine isName_foldl (fun x hx => ?_) fun x => Path.slash_not_mem_of_mem_pieces
  split at hx
  · cases hx
  · exact hcurrent x hx

/-- The canonical path of a file that can be read. -/
theorem fileAt_of_read (hcurrent : ∀ x ∈ t.current, IsName x) (h : t.read p = .ok text) :
    t.FileAt (t.canonical p) text := by
  obtain ⟨r, hr, hfile⟩ := read_eq_ok_iff.1 h
  refine ⟨r, isName_place hcurrent hr, hfile, ?_⟩
  simp [canonical, hr, hfile]

/-- A tree has no more canonical paths of files than entries. -/
theorem length_le_entries {ps : List Path} (hps : ps.Nodup) (h : ∀ p ∈ ps, ∃ text, t.FileAt p text) :
    ps.length ≤ t.entries.length := by
  have hsub : ps ⊆ t.entries.map fun x => Path.ofNames x.1 := by
    intro p hp
    obtain ⟨text, r, -, hfile, rfl⟩ := h p hp
    have hne : r ≠ [] := by
      rintro rfl
      cases hfile
    rw [entry?_of_ne_nil _ hne] at hfile
    obtain ⟨l₁, l₂, hentries, -⟩ := List.lookup_eq_some_iff.1 hfile
    refine List.mem_map.2 ⟨(r, .file text), ?_, rfl⟩
    simp [hentries]
  simpa using (hps.subperm hsub).length_le

end FileTree

end Scaffold
