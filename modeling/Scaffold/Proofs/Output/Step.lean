import Mathlib.Data.List.Nodup
import Scaffold.Proofs.FileTree.Access
import Scaffold.Proofs.Output

/-!
# What writing one file does

A file is either left alone (`writeFile_of_not_takes`) or put in its place (`writeFile_of_takes`), and
`Output.takes` says which. From there a list of files is followed by the log of those that were put in
place, `Output.placed`:

* `writeFiles_targets`: only the places of the files may change.
* `mem_owned_writeFiles`, `written_writeFiles`: what is owned and reported is what was placed.
* `place_reads`: a file that was placed has its contents.
-/

namespace Scaffold

open FileTree (Changes)

/-- The key of a generated file. -/
def GeneratedFile.key (file : GeneratedFile) : String :=
  (Path.mk file.path).key

/-- The names on the path of a generated file. -/
def GeneratedFile.names (file : GeneratedFile) : List String :=
  (Path.mk file.path).names

/-- The path of a generated file stays under the root. -/
def GeneratedFile.isContained (file : GeneratedFile) : Bool :=
  (Path.mk file.path).isContained

/-! ## Sorted lists of keys -/

@[simp] theorem mem_insertSorted {s x : String} {l : List String} :
    x ∈ insertSorted s l ↔ x = s ∨ x ∈ l := by
  induction l with
  | nil => simp [insertSorted]
  | cons y rest ih =>
    unfold insertSorted
    by_cases hs : s = y
    · subst hs
      simp
    · by_cases hlt : s < y
      · simp [hs, hlt]
      · simp [hs, hlt, ih, or_left_comm]

theorem sorted_insertSorted (s : String) {l : List String} (h : l.Pairwise (· < ·)) :
    (insertSorted s l).Pairwise (· < ·) := by
  induction l with
  | nil => simp [insertSorted]
  | cons y rest ih =>
    obtain ⟨hy, hrest⟩ := List.pairwise_cons.1 h
    unfold insertSorted
    by_cases hs : s = y
    · simpa [hs] using h
    · by_cases hlt : s < y
      · simp only [beq_iff_eq, hs, hlt, if_false, if_true]
        refine List.pairwise_cons.2 ⟨fun x hx => ?_, h⟩
        rcases List.mem_cons.1 hx with rfl | hx
        · exact hlt
        · exact String.lt_trans hlt (hy x hx)
      · simp only [beq_iff_eq, hs, hlt, if_false]
        refine List.pairwise_cons.2 ⟨fun x hx => ?_, ih hrest⟩
        rcases mem_insertSorted.1 hx with rfl | hx
        · by_contra hle
          exact hs (String.le_antisymm (String.not_lt.1 hle) (String.not_lt.1 hlt))
        · exact hy x hx

theorem sorted_sortedSet (l : List String) : (sortedSet l).Pairwise (· < ·) := by
  have h : ∀ (l set : List String), set.Pairwise (· < ·) →
      (l.foldl (fun set s => insertSorted s set) set).Pairwise (· < ·) := by
    intro l
    induction l with
    | nil => exact fun _ h => h
    | cons s rest ih => exact fun set h => ih _ (sorted_insertSorted s h)
  exact h l [] List.Pairwise.nil

/-- A key that is there already is not added again. -/
theorem insertSorted_of_mem {s : String} {l : List String} (h : l.Pairwise (· < ·)) (hs : s ∈ l) :
    insertSorted s l = l := by
  induction l with
  | nil => cases hs
  | cons y rest ih =>
    obtain ⟨hy, hrest⟩ := List.pairwise_cons.1 h
    unfold insertSorted
    rcases List.mem_cons.1 hs with rfl | hs
    · simp
    · have hlt := hy s hs
      have hne : s ≠ y := fun heq => String.lt_irrefl _ (heq ▸ hlt)
      have hnot : ¬ s < y := String.lt_asymm hlt
      simp only [beq_iff_eq, hne, if_false, if_neg hnot, ih hrest hs]

/-! ## Parents -/

theorem Path.dropIdleTail_suffix (cs : List Char) : Path.dropIdleTail cs <:+ cs := by
  fun_induction Path.dropIdleTail cs with
  | case1 c rest ih => exact ih.trans (List.suffix_cons _ _)
  | case2 c rest ih => exact (ih.trans (List.suffix_cons _ _)).trans (List.suffix_cons _ _)
  | case3 => exact List.suffix_cons _ _
  | case4 cs => exact List.suffix_rfl

/-- The parent of a path is a beginning of it. -/
theorem Path.parent?_append {p q : Path} (h : p.parent? = some q) :
    ∃ rest, p.text = q.text ++ rest := by
  unfold Path.parent? at h
  split at h
  · cases h
  · cases h
  · cases h
    obtain ⟨front, hfront⟩ : dropIdleTail ((dropIdleTail p.text.toList.reverse).dropWhile (· != '/'))
        <:+ p.text.toList.reverse :=
      (dropIdleTail_suffix _).trans ((List.dropWhile_suffix _).trans (dropIdleTail_suffix _))
    refine ⟨String.ofList front.reverse, String.ext ?_⟩
    have htext := congrArg List.reverse hfront
    rw [List.reverse_append, List.reverse_reverse] at htext
    rw [String.toList_append, String.toList_ofList, String.toList_ofList]
    exact htext.symm

namespace FileTree

variable {t t' : FileTree} {inside may : List String → Prop} {p : Path}

/-- Makes the directories that a path stands in. -/
def makeParents (t : FileTree) (p : Path) : Except FileError Unit × FileTree :=
  (p.parent?.map t.makeDirectories).getD (.ok (), t)

theorem makeParents_adds (ht : t.WellFormed) (p : Path) : AddsDirectories t (t.makeParents p).2 := by
  unfold makeParents
  cases p.parent? with
  | none => exact .refl t
  | some dir => exact makeDirectories_adds ht dir

/-- Directories that were made need not be made again. -/
theorem makeDirectories_again (h : (t.makeDirectories p).1 = .ok ())
    (hp : p.text ≠ "" → ¬ Refused p) (hc : Changes inside may (t.makeDirectories p).2 t') :
    t'.makeDirectories p = (.ok (), t') := by
  by_cases hempty : p.text = ""
  · simp [makeDirectories, makeDirectoriesFrom, hempty]
  · exact makeDirectories_of_isDirectory
      (isDirectory_mono hc (isDirectory_of_makeDirectories (hp hempty) h))

theorem makeParents_again (h : (t.makeParents p).1 = .ok ()) (hp : ¬ Refused p)
    (hc : Changes inside may (t.makeParents p).2 t') : t'.makeParents p = (.ok (), t') := by
  unfold makeParents at h hc ⊢
  cases hparent : p.parent? with
  | none => rfl
  | some dir =>
    rw [hparent] at h hc
    obtain ⟨rest, hrest⟩ := Path.parent?_append hparent
    exact makeDirectories_again h (not_refused_of_append hrest hp) hc

end FileTree

/-! ## Putting a file in its place -/

namespace Writing

variable {w w' : Writing} {target : Path} {contents : String}

theorem place_eq (w : Writing) (target : Path) (contents : String) :
    w.place target contents = match w.tree.makeParents target with
      | (.error e, tree) => (.error (.io (target.parent?.getD ⟨""⟩) e), { w with tree })
      | (.ok (), tree) =>
        if (tree.read target).toOption == some contents then (.ok (), { w with tree })
        else
          match tree.write target contents with
          | .error e => (.error (.io target e), { w with tree })
          | .ok tree => (.ok (), { w with tree }) := rfl

/-- Only the tree changes. -/
theorem place_snd (w : Writing) (target : Path) (contents : String) :
    (w.place target contents).2 = { w with tree := (w.place target contents).2.tree } := by
  rw [place_eq]
  split
  · rfl
  · split
    · rfl
    · split <;> rfl

/-- The steps of putting a file in its place: its directories are made, and it has its contents
already or they are written. -/
theorem place_ok (h : w.place target contents = (.ok (), w')) :
    ∃ t₁, w.tree.makeParents target = (.ok (), t₁) ∧
      (t₁.read target = .ok contents ∧ w' = { w with tree := t₁ } ∨
        ∃ t₂, t₁.write target contents = .ok t₂ ∧ w' = { w with tree := t₂ }) := by
  rw [place_eq] at h
  split at h
  · cases h
  · rename_i t₁ hdirs
    refine ⟨t₁, hdirs, ?_⟩
    split at h
    · rename_i hread
      refine .inl ⟨?_, by cases h; rfl⟩
      cases hr : t₁.read target with
      | error e => simp [hr, Except.toOption] at hread
      | ok text =>
        rw [hr] at hread
        simpa [Except.toOption] using hread
    · split at h
      · cases h
      · rename_i t₂ hw
        exact .inr ⟨t₂, hw, by cases h; rfl⟩

/-- A file that was placed has its contents, at a path without a slash at its end. -/
theorem place_reads (h : w.place target contents = (.ok (), w')) :
    ∃ r, w'.tree.place target = .ok r ∧ w'.tree.entry? r = some (.file contents) ∧
      Text.endsWith "/" target.text = false := by
  obtain ⟨t₁, -, ⟨hread, rfl⟩ | ⟨t₂, hwrite, rfl⟩⟩ := place_ok h
  · obtain ⟨r, hr, he⟩ := FileTree.read_eq_ok_iff.1 hread
    exact ⟨r, hr, he, FileTree.endsWith_of_file hr he⟩
  · obtain ⟨hplace, hdir, rfl⟩ := FileTree.write_eq hwrite
    have hne : target.placeFrom t₁.current ≠ [] := fun hnil => hdir (hnil ▸ FileTree.entry?_nil t₁)
    have hset : FileTree.entry? (t₁.set (target.placeFrom t₁.current) (.file contents))
        (target.placeFrom t₁.current) = some (.file contents) := by
      rw [FileTree.entry?_set _ hne, if_pos rfl]
    have hdirs : ∀ q, t₁.entry? q = some .directory →
        FileTree.entry? (t₁.set (target.placeFrom t₁.current) (.file contents)) q = some .directory := by
      intro q hq
      have hother : q ≠ target.placeFrom t₁.current := by
        rintro rfl
        exact hdir hq
      rw [FileTree.entry?_set _ hne, if_neg hother]
      exact hq
    exact ⟨_, FileTree.place_of_walk hplace (FileTree.walk_mono hdirs (FileTree.walk_of_place hplace)),
      hset, FileTree.endsWith_of_write hwrite⟩

/-- Putting a file where its directories are and a file stands sets the text of this file. -/
theorem place_over {r : List String} {old : String}
    (hdirs : w.tree.makeParents target = (.ok (), w.tree)) (hplace : w.tree.place target = .ok r)
    (hfile : w.tree.entry? r = some (.file old)) :
    w.place target contents = (.ok (), { w with tree := w.tree.set r (.file contents) }) := by
  have hne : r ≠ [] := by
    rintro rfl
    cases hfile
  rw [place_eq, hdirs]
  dsimp only
  split
  · rename_i hread
    have hsame : old = contents := by
      rw [FileTree.read_eq_ok_iff.2 ⟨r, hplace, hfile⟩] at hread
      simpa [Except.toOption] using hread
    rw [FileTree.set_eq_self hne (hsame ▸ hfile)]
  · rw [FileTree.write_of_place hplace (by simp [hfile]) (FileTree.endsWith_of_file hplace hfile)]

end Writing

namespace Output

variable {o : Output} {listed : List String} {file : GeneratedFile} {w w' : Writing}

/-! ## Taking a file or leaving it alone -/

/-- The file is put in its place: it stays under the root, and what stands there already, if anything,
is listed or may be replaced. -/
def takes (o : Output) (listed : List String) (t : FileTree) (file : GeneratedFile) : Bool :=
  file.isContained &&
    !(t.pathExists (o.root.join file.path) && !listed.contains file.key && !o.overwrite)

/-- Why a file is left alone. -/
def reason (o : Output) (file : GeneratedFile) : String :=
  if !file.isContained then s!"refusing to write outside the output root: {file.path}"
  else s!"{(o.root.join file.path).text} exists and was not generated by coders; use --overwrite to replace it"

theorem writeFile_of_not_takes (h : o.takes listed w.tree file = false) :
    o.writeFile listed file w = (.ok (), w.skip (o.root.join file.path) (o.reason file)) := by
  unfold writeFile reason
  dsimp only
  by_cases hin : (Path.mk file.path).isContained = true
  · simp only [takes, GeneratedFile.isContained, hin, Bool.true_and, Bool.not_eq_false'] at h
    have hskip : (w.tree.pathExists (o.root.join file.path)
        && !listed.contains (Path.mk file.path).key && !o.overwrite) = true := h
    simp only [GeneratedFile.isContained, hin, Bool.not_true, Bool.false_eq_true, if_false]
    rw [if_pos hskip]
  · simp [GeneratedFile.isContained, hin]

theorem writeFile_of_takes (h : o.takes listed w.tree file = true) :
    o.writeFile listed file w = match w.place (o.root.join file.path) file.contents with
      | (.error e, w) => (.error e, w)
      | (.ok (), w) => (.ok (), w.own (o.root.join file.path) file.key) := by
  simp only [takes, GeneratedFile.isContained, Bool.and_eq_true, Bool.not_eq_true'] at h
  obtain ⟨hin, hskip⟩ := h
  have hskip : (w.tree.pathExists (o.root.join file.path)
      && !listed.contains (Path.mk file.path).key && !o.overwrite) = false := hskip
  unfold writeFile
  dsimp only
  rw [if_neg (by simp [hin]), if_neg (by rw [hskip]; exact Bool.false_ne_true)]
  rfl

theorem isContained_of_takes (h : o.takes listed w.tree file = true) : file.isContained = true :=
  (Bool.and_eq_true_iff.1 h).1

/-- The places of files under a root. -/
def Targets (root : List String) (files : List GeneratedFile) (place : List String) : Prop :=
  ∃ file ∈ files, file.isContained = true ∧ place = root ++ file.names

/-- Where a contained file goes. -/
theorem placeFrom_target (o : Output) (t : FileTree) (h : file.isContained = true) :
    (o.root.join file.path).placeFrom t.current = o.rootPlace t ++ file.names :=
  Path.placeFrom_join_of_isContained _ _ _ h

/-- Writing a file changes the place of this file and no other. -/
theorem writeFile_targets (o : Output) (listed : List String) (file : GeneratedFile)
    (ht : w.tree.WellFormed) :
    Changes (Targets (o.rootPlace w.tree) [file]) (Targets (o.rootPlace w.tree) [file]) w.tree
      (o.writeFile listed file w).2.tree := by
  cases htakes : o.takes listed w.tree file with
  | false =>
    rw [writeFile_of_not_takes htakes]
    exact .refl _
  | true =>
    have hin := isContained_of_takes htakes
    have hplace : Changes (Targets (o.rootPlace w.tree) [file])
        (Targets (o.rootPlace w.tree) [file]) w.tree
        (w.place (o.root.join file.path) file.contents).2.tree := by
      refine place_changes ht _ _ fun t₁ t₂ hc hw => ?_
      have htarget : Targets (o.rootPlace w.tree) [file]
          ((o.root.join file.path).placeFrom t₁.current) := by
        refine ⟨file, List.mem_singleton_self _, hin, ?_⟩
        rw [hc.current]
        exact placeFrom_target o w.tree hin
      exact FileTree.write_changes (hc.wellFormed ht) hw htarget fun _ _ => htarget
    rw [writeFile_of_takes htakes]
    split
    · rename_i heq
      rw [heq] at hplace
      exact hplace
    · rename_i heq
      rw [heq] at hplace
      exact hplace

/-! ## Lists of files -/

/-- Writing files changes the places of these files and no others, also when it fails. -/
theorem writeFiles_targets (o : Output) (listed : List String) (files : List GeneratedFile)
    (ht : w.tree.WellFormed) :
    Changes (Targets (o.rootPlace w.tree) files) (Targets (o.rootPlace w.tree) files) w.tree
      (o.writeFiles listed files w).2.tree := by
  induction files generalizing w with
  | nil => exact .refl _
  | cons file rest ih =>
    have hmono : ∀ place, Targets (o.rootPlace w.tree) [file] place →
        Targets (o.rootPlace w.tree) (file :: rest) place := by
      rintro place ⟨f, hf, h⟩
      exact ⟨f, List.mem_cons.2 (.inl (List.mem_singleton.1 hf)), h⟩
    have hfile := (writeFile_targets o listed file ht).mono hmono hmono
    rw [writeFiles]
    split
    · rename_i heq
      rw [heq] at hfile
      exact hfile
    · rename_i w₁ heq
      rw [heq] at hfile
      have hcurrent : w₁.tree.current = w.tree.current := hfile.current
      have hroot : o.rootPlace w₁.tree = o.rootPlace w.tree := by simp [rootPlace, hcurrent]
      have hmono' : ∀ place, Targets (o.rootPlace w₁.tree) rest place →
          Targets (o.rootPlace w.tree) (file :: rest) place := by
        rintro place ⟨f, hf, h⟩
        exact ⟨f, List.mem_cons_of_mem _ hf, hroot ▸ h⟩
      exact hfile.trans ((ih (hfile.wellFormed ht)).mono hmono' hmono')

/-- The files of a list that are put in their place, up to the first that fails. -/
def placed (o : Output) (listed : List String) : List GeneratedFile → Writing → List GeneratedFile
  | [], _ => []
  | file :: rest, w =>
    match o.writeFile listed file w with
    | (.error _, _) => []
    | (.ok (), w') =>
      if o.takes listed w.tree file then file :: placed o listed rest w' else placed o listed rest w'

/-- A file that is put in its place is owned and reported from then on. -/
theorem writeFile_ok (h : o.writeFile listed file w = (.ok (), w')) :
    (o.takes listed w.tree file = false ∧
      w' = w.skip (o.root.join file.path) (o.reason file)) ∨
    (o.takes listed w.tree file = true ∧ ∃ w₁,
      w.place (o.root.join file.path) file.contents = (.ok (), w₁) ∧
      w' = w₁.own (o.root.join file.path) file.key) := by
  cases htakes : o.takes listed w.tree file with
  | false =>
    rw [writeFile_of_not_takes htakes] at h
    cases h
    exact .inl ⟨rfl, rfl⟩
  | true =>
    rw [writeFile_of_takes htakes] at h
    split at h
    · cases h
    · rename_i w₁ hplace
      cases h
      exact .inr ⟨rfl, w₁, hplace, rfl⟩

/-- A file that fails leaves what is owned and reported as it was. -/
theorem writeFile_error {e : BuildError} (h : o.writeFile listed file w = (.error e, w')) :
    w'.owned = w.owned ∧ w'.report = w.report := by
  cases htakes : o.takes listed w.tree file with
  | false =>
    rw [writeFile_of_not_takes htakes] at h
    cases h
  | true =>
    rw [writeFile_of_takes htakes] at h
    have hsnd := Writing.place_snd w (o.root.join file.path) file.contents
    split at h
    · rename_i heq
      rw [heq] at hsnd
      cases h
      exact ⟨congrArg (·.owned) hsnd, congrArg (·.report) hsnd⟩
    · cases h

theorem placed_sublist (o : Output) (listed : List String) (files : List GeneratedFile)
    (w : Writing) : (o.placed listed files w).Sublist files := by
  induction files generalizing w with
  | nil => exact List.nil_sublist _
  | cons file rest ih =>
    unfold placed
    split
    · exact List.nil_sublist _
    · split
      · exact (ih _).cons_cons file
      · exact (ih _).cons file

theorem isContained_of_placed (o : Output) (listed : List String) (files : List GeneratedFile)
    (w : Writing) : ∀ f ∈ o.placed listed files w, f.isContained = true := by
  induction files generalizing w with
  | nil => intro f hf; cases hf
  | cons file rest ih =>
    unfold placed
    split
    · intro f hf; cases hf
    · split
      · rename_i htakes
        intro f hf
        rcases List.mem_cons.1 hf with rfl | hf
        · exact isContained_of_takes htakes
        · exact ih _ f hf
      · exact ih _

/-- What is owned at the end was owned before or was placed. -/
theorem mem_owned_writeFiles (o : Output) (listed : List String) (files : List GeneratedFile)
    (w : Writing) (key : String) : key ∈ (o.writeFiles listed files w).2.owned ↔
      key ∈ w.owned ∨ key ∈ (o.placed listed files w).map (·.key) := by
  induction files generalizing w with
  | nil => simp [writeFiles, placed]
  | cons file rest ih =>
    rw [writeFiles, placed]
    rcases hfile : o.writeFile listed file w with ⟨e | ⟨⟩, w₁⟩
    · simp [(writeFile_error hfile).1]
    · dsimp only
      rw [ih w₁]
      rcases writeFile_ok hfile with ⟨htakes, rfl⟩ | ⟨htakes, w₂, hplace, rfl⟩
      · simp [htakes, Writing.skip]
      · have hsnd := Writing.place_snd w (o.root.join file.path) file.contents
        rw [hplace] at hsnd
        have howned : w₂.owned = w.owned := congrArg (·.owned) hsnd
        simp [htakes, Writing.own, howned, or_assoc, or_left_comm]

/-- The files that were placed are reported in order. -/
theorem written_writeFiles (o : Output) (listed : List String) (files : List GeneratedFile)
    (w : Writing) : (o.writeFiles listed files w).2.report.written
      = w.report.written ++ (o.placed listed files w).map (fun f => o.root.join f.path) := by
  induction files generalizing w with
  | nil => simp [writeFiles, placed]
  | cons file rest ih =>
    rw [writeFiles, placed]
    rcases hfile : o.writeFile listed file w with ⟨e | ⟨⟩, w₁⟩
    · simp [(writeFile_error hfile).2]
    · dsimp only
      rw [ih w₁]
      rcases writeFile_ok hfile with ⟨htakes, rfl⟩ | ⟨htakes, w₂, hplace, rfl⟩
      · simp [htakes, Writing.skip]
      · have hsnd := Writing.place_snd w (o.root.join file.path) file.contents
        rw [hplace] at hsnd
        have hreport : w₂.report = w.report := congrArg (·.report) hsnd
        simp [htakes, Writing.own, hreport]

/-- What is owned stays sorted. -/
theorem sorted_owned_writeFiles (o : Output) (listed : List String) (files : List GeneratedFile)
    {w : Writing} (h : w.owned.Pairwise (· < ·)) :
    (o.writeFiles listed files w).2.owned.Pairwise (· < ·) := by
  induction files generalizing w with
  | nil => exact h
  | cons file rest ih =>
    rw [writeFiles]
    split
    · rename_i heq
      rw [(writeFile_error heq).1]
      exact h
    · rename_i w₁ heq
      refine ih ?_
      rcases writeFile_ok heq with ⟨-, rfl⟩ | ⟨-, w₂, hplace, rfl⟩
      · exact h
      · have hsnd := Writing.place_snd w (o.root.join file.path) file.contents
        rw [hplace] at hsnd
        have howned : w₂.owned = w.owned := congrArg (·.owned) hsnd
        exact sorted_insertSorted _ (howned ▸ h)

/-! ## A whole write -/

/-- The tree in which the output root has been made. -/
def opened (o : Output) (t : FileTree) : FileTree :=
  (t.makeDirectories o.root).2

/-- What a write starts from, once the root is there. -/
def start (o : Output) (t : FileTree) : Writing :=
  { tree := o.opened t
    owned := (Manifest.load (o.opened t) o.root).files.filter fun key =>
      (o.opened t).isFile (o.root.join key) }

/-- How far a write gets with its files, once the root is there. -/
def finish (o : Output) (files : List GeneratedFile) (t : FileTree) : Except BuildError Unit × Writing :=
  o.writeFiles (Manifest.load (o.opened t) o.root).files files (o.start t)

/-- The manifest that a write saves when all its files are done. -/
def manifest (o : Output) (files : List GeneratedFile) (t : FileTree) : Manifest :=
  { generator := s!"coders {version}", platform := o.platform.key, files := (o.finish files t).2.owned }

/-- The files that a write puts in place. -/
def wrote (o : Output) (files : List GeneratedFile) (t : FileTree) : List GeneratedFile :=
  match (t.makeDirectories o.root).1 with
  | .error _ => []
  | .ok () => o.placed (Manifest.load (o.opened t) o.root).files files (o.start t)

/-- A write makes the root, writes the files and saves the manifest; it ends where one of these
fails. -/
theorem write_steps (o : Output) (files : List GeneratedFile) (t : FileTree) :
    (∃ e, (t.makeDirectories o.root).1 = .error e ∧
      o.write files t = (.error (.io o.root e), o.opened t)) ∨
    (t.makeDirectories o.root).1 = .ok () ∧
      ((∃ e, (o.finish files t).1 = .error e ∧
          o.write files t = (.error e, (o.finish files t).2.tree)) ∨
        (o.finish files t).1 = .ok () ∧
          ((∃ e, ((o.manifest files t).save (o.finish files t).2.tree o.root).1 = .error e ∧
              o.write files t
                = (.error e, ((o.manifest files t).save (o.finish files t).2.tree o.root).2)) ∨
            ((o.manifest files t).save (o.finish files t).2.tree o.root).1 = .ok () ∧
              o.write files t = (.ok (o.finish files t).2.report,
                ((o.manifest files t).save (o.finish files t).2.tree o.root).2))) := by
  unfold write
  split
  · rename_i e t₁ hroot
    have ht₁ : t₁ = o.opened t := by rw [opened, hroot]
    exact .inl ⟨e, by rw [hroot], by rw [ht₁]⟩
  · rename_i t₁ hroot
    have ht₁ : t₁ = o.opened t := by rw [opened, hroot]
    refine .inr ⟨by rw [hroot], ?_⟩
    subst ht₁
    dsimp only
    split
    · rename_i e w hfiles
      have hw : o.finish files t = (.error e, w) := hfiles
      exact .inl ⟨e, by rw [hw], by rw [hw]⟩
    · rename_i w hfiles
      have hw : o.finish files t = (.ok (), w) := hfiles
      refine .inr ⟨by rw [hw], ?_⟩
      have hm : o.manifest files t
          = { generator := s!"coders {version}", platform := o.platform.key, files := w.owned } := by
        rw [manifest, hw]
      rw [hm, hw]
      dsimp only
      split
      · rename_i e t₂ hsave
        exact .inl ⟨e, by rw [hsave], by rw [hsave]⟩
      · rename_i t₂ hsave
        exact .inr ⟨by rw [hsave], by rw [hsave]⟩

/-- In a write that succeeds every step does. -/
theorem steps_of_ok {files : List GeneratedFile} {t : FileTree} {report : WriteReport}
    (h : (o.write files t).1 = .ok report) :
    (t.makeDirectories o.root).1 = .ok () ∧
      o.finish files t = (.ok (), (o.finish files t).2) ∧
      ((o.manifest files t).save (o.finish files t).2.tree o.root).1 = .ok () ∧
      report = (o.finish files t).2.report ∧
      (o.write files t).2 = ((o.manifest files t).save (o.finish files t).2.tree o.root).2 := by
  rcases o.write_steps files t with
    ⟨e, -, hw⟩ | ⟨hroot, ⟨e, -, hw⟩ | ⟨hfiles, ⟨e, -, hw⟩ | ⟨hsave, hw⟩⟩⟩
  · rw [hw] at h
    cases h
  · rw [hw] at h
    cases h
  · rw [hw] at h
    cases h
  · rw [hw] at h
    exact ⟨hroot, Prod.ext hfiles rfl, hsave, (Except.ok.inj h).symm, by rw [hw]⟩

end Output

end Scaffold
