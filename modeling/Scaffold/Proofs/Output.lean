import Scaffold.Output
import Scaffold.Proofs.FileTree

/-!
# What writing a project may change

Writing a project makes directories, creates files under the output root, and gives another text to
files it owns. The bound on all of it is `FileTree.Changes` with two predicates on places: `Under`
the root, and `Replaceable`, which holds of the places that the manifest found on disk lists, of the
manifest itself, and of every place when overwriting.

* `writeFile_changes`: one file, whatever its path. The test for existence is made before the
  directories of the file are, so the point is that making them uncovers no file
  (`exists_of_file`): a file that stands at the target afterwards was reachable before.
* `writeFiles_changes`: a list of files, by induction; later files see what earlier ones wrote.
* `write_frame`: the whole write, whether it succeeds or fails.
-/

namespace Scaffold

open FileTree (Changes)

/-- The manifest that lies on disk under an output root; a place without a file holds none. -/
def Manifest.stored (t : FileTree) (root : List String) : Manifest :=
  match t.entry? (root ++ [".coders", "manifest.yaml"]) with
  | some (.file text) => Manifest.ofText text
  | _ => {}

namespace Output

def rootPlace (o : Output) (t : FileTree) : List String :=
  o.root.placeFrom t.current

/-- The place lies strictly under the root. -/
def Under (root place : List String) : Prop :=
  ∃ names, names ≠ [] ∧ place = root ++ names

/-- The file at this place may get another text: everything when overwriting, else what `listed`
holds the key of, and the manifest. -/
def Replaceable (o : Output) (listed : List String) (root place : List String) : Prop :=
  o.overwrite = true ∨ (∃ names, place = root ++ names ∧ Text.joinWith "/" names ∈ listed) ∨
    place = root ++ [".coders", "manifest.yaml"]

/-- The root can be walked to; an empty root is the current directory and needs no walk. -/
def Leads (t : FileTree) (root : Path) : Prop :=
  root.text = "" ∨ ∃ place, t.walk (t.start root) root.pieces = .ok place

theorem Leads.mono {t t' : FileTree} {root : Path} {inside may : List String → Prop}
    (h : Leads t root) (hc : Changes inside may t t') : Leads t' root := by
  obtain h | ⟨place, h⟩ := h
  · exact .inl h
  · have hstart : t'.start root = t.start root := by simp [FileTree.start, hc.current]
    exact .inr ⟨place, hstart ▸ FileTree.walk_mono (fun _ hd => hc.directory_kept hd) h⟩

variable {t t' : FileTree} {root : Path} {q : String}

/-- A root that was made can be walked to. -/
theorem leads_of_makeDirectories (ht : t.WellFormed) (h : (t.makeDirectories root).1 = .ok ()) :
    Leads (t.makeDirectories root).2 root := by
  by_cases htext : root.text = ""
  · exact .inl htext
  · have hcurrent : (t.makeDirectories root).2.current = t.current :=
      (FileTree.makeDirectories_adds ht root).current
    have hstart : (t.makeDirectories root).2.start root = t.start root := by
      simp [FileTree.start, hcurrent]
    exact .inr (hstart ▸ FileTree.walk_of_makeDirectories ht htext h)

/-- A contained path that leads to a file in a later tree, in which that file was there before,
could be followed before too. -/
theorem exists_of_file (ht : t.WellFormed) (hroot : Leads t root)
    (hcurrent : t'.current = t.current) (hq : (Path.mk q).isContained = true) {r : List String}
    (h' : t'.place (root.join q) = .ok r) {a b : String} (hr' : t'.entry? r = some (.file a))
    (hr : t.entry? r = some (.file b)) : t.pathExists (root.join q) = true := by
  have hrel := Path.isAbsolute_of_isContained hq
  obtain ⟨ps, hps, hp⟩ := Path.pieces_join root
  have hps := hps q hrel
  have hstart : t'.start (root.join q) = t.start root := by
    simp [FileTree.start, Path.isAbsolute_join root q hrel, hcurrent]
  have hw' := FileTree.walk_of_place h'
  rw [hstart, hps, FileTree.walk_append] at hw'
  -- The root can be walked to in both trees, and leads to the same place.
  obtain ⟨place, hplace⟩ : ∃ place, t.walk (t.start root) ps = .ok place := by
    obtain ⟨_, rfl⟩ | ⟨hne, hp⟩ := hp
    · exact ⟨_, rfl⟩
    · obtain h | ⟨place, h⟩ := hroot
      · exact absurd h hne
      · obtain hp | hp := hp
        · exact ⟨place, hp ▸ h⟩
        · rw [hp, FileTree.walk_append] at h
          cases hps' : t.walk (t.start root) ps with
          | error e => rw [hps'] at h; cases h
          | ok place' => exact ⟨place', rfl⟩
  have hwalk : t.walk (t.start root) (ps ++ (Path.mk q).pieces) = .ok r := by
    cases hroot' : t'.walk (t.start root) ps with
    | error e => rw [hroot'] at hw'; cases hw'
    | ok place' =>
      have hsame : place' = place := (FileTree.walk_eq hroot').trans (FileTree.walk_eq hplace).symm
      rw [hroot', hsame] at hw'
      rw [FileTree.walk_append, hplace]
      exact FileTree.walk_of_file ht (Path.descends_of_isContained hq) hw' hr' hr
  have hfind : t.place (root.join q) = .ok r := by
    refine FileTree.place_of_walk h' ?_
    rw [hps]
    simpa [FileTree.start, Path.isAbsolute_join root q hrel] using hwalk
  simp [FileTree.pathExists, FileTree.find, hfind, hr, bind, Except.bind, Except.toBool]

/-- A path whose names are none stays where it starts, and needs a directory there. -/
theorem directory_of_walk {s ps r : List String} (h : t.walk s ps = .ok r) (hps : ps ≠ [])
    (hd : ∀ x ∈ ps, Path.Descends x) (hn : Path.namesOf ps = []) :
    t.entry? r = some .directory := by
  have hr := FileTree.walk_eq h
  rw [Path.foldl_step_of_descends _ _ hd, hn, List.append_nil] at hr
  subst hr
  obtain ⟨p, ps, rfl⟩ := List.exists_cons_of_ne_nil hps
  exact (FileTree.walk_cons h).1

/-- A contained path that leads to a file leads strictly under the root. -/
theorem names_ne_nil (hq : (Path.mk q).isContained = true) {r : List String}
    (h : t.place (root.join q) = .ok r) (hr : t.entry? r ≠ some .directory) :
    (Path.mk q).names ≠ [] := by
  intro hn
  have hd := Path.descends_of_isContained hq
  rw [Path.names_eq_namesOf hd] at hn
  obtain ⟨ps, hps, -⟩ := Path.pieces_join root
  have hps := hps q (Path.isAbsolute_of_isContained hq)
  have hw := FileTree.walk_of_place h
  rw [hps, FileTree.walk_append] at hw
  cases hs : t.walk (t.start (root.join q)) ps with
  | error e => rw [hs] at hw; cases hw
  | ok s =>
    rw [hs] at hw
    exact hr (directory_of_walk hw (Path.pieces_ne_nil _) hd hn)

/-! ## One file -/

/-- Putting a file in its place makes directories, and then at most writes the file. -/
theorem place_changes {inside may : List String → Prop} {w : Writing} (ht : w.tree.WellFormed)
    (target : Path) (contents : String)
    (hwrite : ∀ t₁ t₂, FileTree.AddsDirectories w.tree t₁ → t₁.write target contents = .ok t₂ →
      Changes inside may t₁ t₂) :
    Changes inside may w.tree (w.place target contents).2.tree := by
  have hdirs : FileTree.AddsDirectories w.tree
      ((target.parent?.map w.tree.makeDirectories).getD (.ok (), w.tree)).2 := by
    cases target.parent? with
    | none => exact .refl _
    | some dir => exact FileTree.makeDirectories_adds ht dir
  unfold Writing.place
  dsimp only
  split
  · rename_i heq; rw [heq] at hdirs; exact hdirs.changes
  · rename_i t₁ heq
    rw [heq] at hdirs
    split
    · exact hdirs.changes
    · split
      · exact hdirs.changes
      · rename_i t₂ hw; exact hdirs.changes.trans (hwrite t₁ t₂ hdirs hw)

/-- What one file of a project may change, whatever its path and whatever was written before. -/
theorem writeFile_changes (o : Output) (listed : List String) (file : GeneratedFile) {w : Writing}
    (ht : w.tree.WellFormed) (hroot : Leads w.tree o.root) :
    Changes (Under (o.rootPlace w.tree)) (o.Replaceable listed (o.rootPlace w.tree)) w.tree
      (o.writeFile listed file w).2.tree := by
  unfold writeFile
  dsimp only
  split
  · exact .refl _
  · rename_i hin
    have hin : (Path.mk file.path).isContained = true := by simpa using hin
    split
    · exact .refl _
    · rename_i hskip
      have hplace : Changes (Under (o.rootPlace w.tree))
          (o.Replaceable listed (o.rootPlace w.tree)) w.tree
          (w.place (o.root.join file.path) file.contents).2.tree := by
        refine place_changes ht _ _ fun t₁ t₂ hc hw => ?_
        obtain ⟨hplace, hdir, -⟩ := FileTree.write_eq hw
        have hleads : (o.root.join file.path).placeFrom t₁.current
            = o.rootPlace w.tree ++ (Path.mk file.path).names := by
          rw [Path.placeFrom_join_of_isContained _ _ _ hin, hc.current]
          rfl
        refine FileTree.write_changes (hc.wellFormed ht) hw ?_ fun old hold => ?_
        · exact ⟨_, names_ne_nil hin hplace hdir, hleads⟩
        · -- The file was there before the directories were made, so it was found and not skipped.
          have hex := exists_of_file ht hroot hc.current hin hplace hold (hc.file_before hold)
          rw [hleads]
          by_cases ho : o.overwrite = true
          · exact .inl ho
          · simp only [hex, ho, Bool.true_and, Bool.not_false, Bool.and_true, Bool.not_eq_true,
              Bool.not_eq_false', List.contains_iff_mem] at hskip
            exact .inr (.inl ⟨_, rfl, hskip⟩)
      split
      · rename_i heq; rw [heq] at hplace; exact hplace
      · rename_i heq; rw [heq] at hplace; exact hplace

/-! ## A project -/

section

variable (o : Output) (listed : List String)

/-- What a list of files may change. Each file is bounded against the tree that the files before it
left, and the bounds add up because the root stays where it is. -/
theorem writeFiles_changes (files : List GeneratedFile) {w : Writing} (ht : w.tree.WellFormed)
    (hroot : Leads w.tree o.root) :
    Changes (Under (o.rootPlace w.tree)) (o.Replaceable listed (o.rootPlace w.tree)) w.tree
      (o.writeFiles listed files w).2.tree := by
  induction files generalizing w with
  | nil => exact .refl _
  | cons file rest ih =>
    have hfile := writeFile_changes o listed file ht hroot
    rw [writeFiles]
    split
    · rename_i heq; rw [heq] at hfile; exact hfile
    · rename_i w₁ heq
      rw [heq] at hfile
      have hcurrent : w₁.tree.current = w.tree.current := hfile.current
      have hsame : o.rootPlace w₁.tree = o.rootPlace w.tree := by simp [rootPlace, hcurrent]
      have hrest := ih (hfile.wellFormed ht) (hroot.mono hfile)
      rw [hsame] at hrest
      exact hfile.trans hrest

theorem placeFrom_manifest (current : List String) :
    (Manifest.path root).placeFrom current
      = root.placeFrom current ++ [".coders", "manifest.yaml"] := by
  have hdir : (Path.mk ".coders").isContained = true := by decide
  have hfile : (Path.mk "manifest.yaml").isContained = true := by decide
  have hnames : (Path.mk ".coders").names = [".coders"] := by decide
  have hname : (Path.mk "manifest.yaml").names = ["manifest.yaml"] := by decide
  rw [Manifest.path, Path.placeFrom_join_of_isContained _ _ _ hfile,
    Path.placeFrom_join_of_isContained _ _ _ hdir, hnames, hname, List.append_assoc]
  rfl

/-- Saving a manifest changes the place of the manifest and no other. -/
theorem save_only (m : Manifest) (root : Path) (ht : t.WellFormed) :
    Changes (· = root.placeFrom t.current ++ [".coders", "manifest.yaml"])
      (· = root.placeFrom t.current ++ [".coders", "manifest.yaml"]) t (m.save t root).2 := by
  have hdirs := FileTree.makeDirectories_adds ht ((Manifest.path root).parent?.getD ⟨""⟩)
  unfold Manifest.save
  dsimp only
  split
  · rename_i heq; rw [heq] at hdirs; exact hdirs.changes
  · rename_i t₁ heq
    rw [heq] at hdirs
    split
    · exact hdirs.changes
    · rename_i t₂ hw
      have hplace : (Manifest.path root).placeFrom t₁.current
          = root.placeFrom t.current ++ [".coders", "manifest.yaml"] := by
        rw [placeFrom_manifest, hdirs.current]
      exact hdirs.changes.trans
        (FileTree.write_changes (hdirs.wellFormed ht) hw hplace fun _ _ => hplace)

theorem save_changes (m : Manifest) (ht : t.WellFormed) :
    Changes (Under (o.rootPlace t)) (o.Replaceable listed (o.rootPlace t)) t
      (m.save t o.root).2 :=
  (save_only m o.root ht).mono (fun _ h => ⟨_, by simp, h⟩) fun _ h => .inr (.inr h)

end

/-- The manifest that a write starts from lists nothing that the manifest on disk does not list. -/
theorem load_files_subset (t : FileTree) (root : Path) :
    ∀ key ∈ (Manifest.load t root).files,
      key ∈ (Manifest.stored t (root.placeFrom t.current)).files := by
  intro key hkey
  unfold Manifest.load at hkey
  split at hkey
  · rename_i text hread
    simp only [FileTree.read, FileTree.find, bind, Except.bind] at hread
    cases hplace : t.place (Manifest.path root) with
    | error e => simp [hplace] at hread
    | ok r =>
      have hr := FileTree.place_eq hplace
      rw [placeFrom_manifest] at hr
      rw [hplace] at hread
      dsimp only at hread
      cases he : t.entry? r with
      | none => simp [he] at hread
      | some e =>
        cases e with
        | directory => simp [he] at hread
        | file text' =>
          simp only [he, Except.ok.injEq] at hread
          rw [hread] at he
          rw [Manifest.stored, ← hr, he]
          exact hkey
  · simp at hkey

/-- A change that leaves the place of the manifest out leaves the manifest as it is. -/
theorem stored_of_changes {inside may : List String → Prop} (h : Changes inside may t t')
    (root : List String) (hin : ¬ inside (root ++ [".coders", "manifest.yaml"])) :
    Manifest.stored t' root = Manifest.stored t root := by
  unfold Manifest.stored
  have hc := h.entry (root ++ [".coders", "manifest.yaml"])
  generalize t.entry? _ = a at hc ⊢
  generalize t'.entry? _ = b at hc ⊢
  cases hc with
  | same => rfl
  | directory => rfl
  | created _ hin' => exact absurd hin' hin
  | replaced _ _ hin' => exact absurd hin' hin

/-- What a whole write may change, whether it succeeds or fails. -/
theorem write_changes (o : Output) (files : List GeneratedFile) (ht : t.WellFormed) :
    Changes (Under (o.rootPlace t))
      (o.Replaceable (Manifest.stored t (o.rootPlace t)).files (o.rootPlace t)) t
      (o.write files t).2 := by
  have hdirs := FileTree.makeDirectories_adds ht o.root
  unfold write
  split
  · rename_i heq; rw [heq] at hdirs; exact hdirs.changes
  · rename_i t₁ heq
    rw [heq] at hdirs
    have hcurrent : t₁.current = t.current := hdirs.current
    have hroot : Leads t₁ o.root := by
      have hmade : (t.makeDirectories o.root).1 = .ok () := by rw [heq]
      have hleads := leads_of_makeDirectories ht hmade
      rwa [heq] at hleads
    have ht₁ : t₁.WellFormed := hdirs.wellFormed ht
    have hplace : o.rootPlace t₁ = o.rootPlace t := by simp [rootPlace, hcurrent]
    have hlisted : ∀ place, o.Replaceable (Manifest.load t₁ o.root).files (o.rootPlace t) place →
        o.Replaceable (Manifest.stored t (o.rootPlace t)).files (o.rootPlace t) place := by
      rintro place (h | ⟨names, h, hkey⟩ | h)
      · exact .inl h
      · have := load_files_subset t₁ o.root _ hkey
        rw [hcurrent, stored_of_changes hdirs _ id] at this
        exact .inr (.inl ⟨names, h, this⟩)
      · exact .inr (.inr h)
    refine hdirs.changes.trans (Changes.mono (fun _ => id) hlisted ?_)
    dsimp only
    generalize (Manifest.load t₁ o.root).files = listed
    generalize hw : ({ tree := t₁, owned := listed.filter _ } : Writing) = w₀
    have htree : w₀.tree = t₁ := by rw [← hw]
    have hfiles := writeFiles_changes o listed files (w := w₀) (htree ▸ ht₁) (htree ▸ hroot)
    rw [htree, hplace] at hfiles
    split
    · rename_i heq; rw [heq] at hfiles; exact hfiles
    · rename_i w₁ heq
      rw [heq] at hfiles
      have hcurrent₁ : w₁.tree.current = t₁.current := hfiles.current
      have hplace₁ : o.rootPlace w₁.tree = o.rootPlace t := by
        simp [rootPlace, hcurrent₁, hcurrent]
      have ht₂ : w₁.tree.WellFormed := hfiles.wellFormed ht₁
      generalize ({ generator := _, platform := _, files := w₁.owned } : Manifest) = m
      have hsave := save_changes o listed m ht₂
      rw [hplace₁] at hsave
      split
      · rename_i heq; rw [heq] at hsave; exact hfiles.trans hsave
      · rename_i heq; rw [heq] at hsave; exact hfiles.trans hsave

/-- Writing a project without overwriting, whether it succeeds or fails: a file that the manifest on
disk does not list keeps its text, unless it is that manifest; every file stays a file; and a file
that was not there with this text before lies strictly under the output root. -/
theorem write_frame (o : Output) (ho : o.overwrite = false) (files : List GeneratedFile)
    (t : FileTree) (ht : t.WellFormed) :
    let root := o.rootPlace t
    let after := (o.write files t).2
    (∀ place text, t.entry? place = some (.file text) →
      place ≠ root ++ [".coders", "manifest.yaml"] →
      (∀ names, place = root ++ names →
        Text.joinWith "/" names ∉ (Manifest.stored t root).files) →
      after.entry? place = some (.file text)) ∧
    (∀ place text, t.entry? place = some (.file text) →
      ∃ text', after.entry? place = some (.file text')) ∧
    (∀ place text, after.entry? place = some (.file text) →
      t.entry? place ≠ some (.file text) → Under root place) := by
  intro root after
  have hc := (write_changes o files ht).entry
  refine ⟨fun place text hbefore hmanifest hkey => ?_, fun place text hbefore => ?_,
    fun place text hafter hbefore => ?_⟩
  · have hplace := hc place
    rw [hbefore] at hplace
    generalize FileTree.entry? (o.write files t).2 place = e at hplace
    cases hplace with
    | same => rfl
    | replaced _ _ _ hmay =>
      -- Only a listed file and the manifest may get another text.
      obtain h | ⟨names, h, hlisted⟩ | h := hmay
      · rw [ho] at h; cases h
      · exact absurd hlisted (hkey names h)
      · exact absurd h hmanifest
  · have hplace := hc place
    rw [hbefore] at hplace
    generalize FileTree.entry? (o.write files t).2 place = e at hplace
    cases hplace with
    | same => exact ⟨text, rfl⟩
    | replaced _ new _ _ => exact ⟨new, rfl⟩
  · have hplace := hc place
    rw [hafter] at hplace
    generalize t.entry? place = e at hplace hbefore
    cases hplace with
    | same => exact absurd rfl hbefore
    | created _ hunder => exact hunder
    | replaced _ _ hunder _ => exact hunder

/-- A file of the user's beside a listed one: the first is kept, the second is replaced. -/
theorem write_frame_notes :
    let o : Output := { root := ⟨"out"⟩, platform := .go }
    let t : FileTree :=
      { entries := [(["w"], .directory), (["w", "out"], .directory),
          (["w", "out", ".coders"], .directory),
          (["w", "out", ".coders", "manifest.yaml"], .file "files:\n- main.go\n"),
          (["w", "out", "main.go"], .file "old"), (["w", "out", "notes.txt"], .file "mine")],
        current := ["w"] }
    let after := (o.write [⟨"notes.txt", "theirs"⟩, ⟨"main.go", "new"⟩, ⟨"../up.txt", ""⟩] t).2
    t.WellFormed ∧ (Manifest.stored t (o.rootPlace t)).files = ["main.go"] ∧
      after.entry? ["w", "out", "notes.txt"] = some (.file "mine") ∧
      after.entry? ["w", "out", "main.go"] = some (.file "new") := by
  intro o t
  obtain ⟨ht, hroot, hstored, hnotes, hafter⟩ : t.WellFormed ∧ o.rootPlace t = ["w", "out"] ∧
      (Manifest.stored t (o.rootPlace t)).files = ["main.go"] ∧
      t.entry? ["w", "out", "notes.txt"] = some (.file "mine") ∧
      FileTree.entry? (o.write [⟨"notes.txt", "theirs"⟩, ⟨"main.go", "new"⟩, ⟨"../up.txt", ""⟩] t).2
        ["w", "out", "main.go"] = some (.file "new") := by
    decide +kernel
  have hframe := (write_frame o rfl [⟨"notes.txt", "theirs"⟩, ⟨"main.go", "new"⟩, ⟨"../up.txt", ""⟩]
    t ht).1 ["w", "out", "notes.txt"] "mine" hnotes
  refine ⟨ht, hstored, hframe ?_ fun names hnames => ?_, hafter⟩
  · rw [hroot]
    decide
  · rw [hroot] at hnames
    obtain rfl : names = ["notes.txt"] := by simpa using hnames.symm
    rw [hstored]
    decide +kernel

end Output

end Scaffold
