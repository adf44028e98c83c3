import Scaffold.Proofs.Output.Step

/-!
# Who owns a file

The manifest on disk says which files a later write may replace. A write that succeeds leaves a
manifest of the files that were listed and still there, and of those it placed (`mem_manifest`); a
write that fails leaves the manifest it found (`stored_of_error`), unless one of the files is the
manifest itself.

* `Run.listed`: over any run of writes and edits, what the manifest lists was placed by a write of the
  run.
* `disowned_of_error`: what a failed write created is not listed, and later writes leave it alone.
-/

namespace Scaffold

open FileTree (Changes AddsDirectories)

namespace Manifest

variable {m : Manifest} {t : FileTree} {root : Path}

/-- Saving makes the directory of the manifest and writes the manifest. -/
theorem save_ok (h : (m.save t root).1 = .ok ()) :
    ∃ t₁, t.makeDirectories ((path root).parent?.getD ⟨""⟩) = (.ok (), t₁) ∧
      t₁.write (path root) m.text = .ok (m.save t root).2 := by
  unfold save at h ⊢
  dsimp only at h ⊢
  split at h
  · cases h
  · rename_i t₁ hdirs
    split at h
    · cases h
    · rename_i t₂ hwrite
      exact ⟨t₁, hdirs, hwrite⟩

/-- Saving that fails makes directories at most. -/
theorem save_error {e : BuildError} (ht : t.WellFormed) (h : (m.save t root).1 = .error e) :
    AddsDirectories t (m.save t root).2 := by
  have hdirs := FileTree.makeDirectories_adds ht ((path root).parent?.getD ⟨""⟩)
  unfold save at h ⊢
  dsimp only at h ⊢
  split at h
  · rename_i heq
    rw [heq] at hdirs
    exact hdirs
  · rename_i t₁ heq
    rw [heq] at hdirs
    split at h
    · exact hdirs
    · cases h

end Manifest

namespace Output

variable {o : Output} {files : List GeneratedFile} {t t' : FileTree} {root : Path}

/-! ## The manifest after a write -/

theorem opened_adds (o : Output) (ht : t.WellFormed) : AddsDirectories t (o.opened t) :=
  FileTree.makeDirectories_adds ht o.root

theorem rootPlace_opened (o : Output) (ht : t.WellFormed) :
    o.rootPlace (o.opened t) = o.rootPlace t := by
  rw [rootPlace, rootPlace, (o.opened_adds ht).current]

/-- Until the manifest is saved, a write changes the places of its files and no others. -/
theorem finish_targets (o : Output) (files : List GeneratedFile) (ht : t.WellFormed) :
    Changes (Targets (o.rootPlace t) files) (Targets (o.rootPlace t) files) t
      (o.finish files t).2.tree := by
  have hopened := o.opened_adds ht
  have hfiles := writeFiles_targets (w := o.start t) o
    (Manifest.load (o.opened t) o.root).files files (hopened.wellFormed ht)
  have hroot : o.rootPlace (o.start t).tree = o.rootPlace t := o.rootPlace_opened ht
  rw [hroot] at hfiles
  exact hopened.changes.trans hfiles

/-- None of the files is the manifest. -/
def SparesManifest (files : List GeneratedFile) : Prop :=
  ∀ f ∈ files, f.isContained = true → f.key ≠ ".coders/manifest.yaml"

theorem SparesManifest.not_targets (h : SparesManifest files) (root : List String) :
    ¬ Targets root files (root ++ [".coders", "manifest.yaml"]) := by
  rintro ⟨f, hf, hin, hplace⟩
  refine h f hf hin ?_
  have hnames : f.names = [".coders", "manifest.yaml"] := (List.append_cancel_left hplace).symm
  have hkey : f.key = Text.joinWith "/" f.names := rfl
  rw [hkey, hnames]
  decide

/-- A write that fails changes the places of its files and no others. -/
theorem changes_of_error {e : BuildError} (ht : t.WellFormed)
    (h : (o.write files t).1 = .error e) :
    Changes (Targets (o.rootPlace t) files) (Targets (o.rootPlace t) files) t
      (o.write files t).2 := by
  have hfinish := o.finish_targets files ht
  rcases o.write_steps files t with ⟨e', -, hw⟩ | ⟨-, ⟨e', -, hw⟩ | ⟨-, ⟨e', hsave, hw⟩ | ⟨-, hw⟩⟩⟩
  · rw [hw]
    exact (o.opened_adds ht).changes
  · rw [hw]
    exact hfinish
  · rw [hw]
    exact hfinish.trans (Manifest.save_error (hfinish.wellFormed ht) hsave).changes
  · rw [hw] at h
    cases h

/-- A write that fails leaves the manifest as it found it. -/
theorem stored_of_error {e : BuildError} (ht : t.WellFormed) (hfiles : SparesManifest files)
    (h : (o.write files t).1 = .error e) :
    Manifest.stored (o.write files t).2 (o.rootPlace t) = Manifest.stored t (o.rootPlace t) :=
  stored_of_changes (changes_of_error ht h) _ (hfiles.not_targets (o.rootPlace t))

/-- A write that succeeds ends with its manifest on disk. -/
theorem entry_of_ok {report : WriteReport} (ht : t.WellFormed)
    (h : (o.write files t).1 = .ok report) :
    FileTree.entry? (o.write files t).2 (o.rootPlace t ++ [".coders", "manifest.yaml"])
      = some (.file (o.manifest files t).text) := by
  obtain ⟨-, -, hsave, -, hw⟩ := steps_of_ok h
  obtain ⟨t₁, hdirs, hwrite⟩ := Manifest.save_ok hsave
  have hfinish := o.finish_targets files ht
  have hadds := FileTree.makeDirectories_adds (hfinish.wellFormed ht)
    ((Manifest.path o.root).parent?.getD ⟨""⟩)
  rw [hdirs] at hadds
  obtain ⟨-, -, hset⟩ := FileTree.write_eq hwrite
  have hplace : (Manifest.path o.root).placeFrom t₁.current
      = o.rootPlace t ++ [".coders", "manifest.yaml"] := by
    rw [placeFrom_manifest, hadds.current, hfinish.current]
    rfl
  rw [hplace] at hset
  rw [hw, hset, FileTree.entry?_set _ (by simp), if_pos rfl]

theorem wrote_of_ok {report : WriteReport} (h : (o.write files t).1 = .ok report) :
    o.wrote files t = o.placed (Manifest.load (o.opened t) o.root).files files (o.start t) := by
  rw [wrote, (steps_of_ok h).1]

/-- The manifest of a write lists what was listed before and is still a file, and what the write
placed. -/
theorem mem_manifest {report : WriteReport} (h : (o.write files t).1 = .ok report) (key : String) :
    key ∈ (o.manifest files t).files ↔
      (key ∈ (Manifest.load (o.opened t) o.root).files ∧
        (o.opened t).isFile (o.root.join key) = true) ∨
      key ∈ (o.wrote files t).map (·.key) := by
  rw [wrote_of_ok h, manifest, finish, mem_owned_writeFiles, start, List.mem_filter]

/-- The manifest that a write saves can be read back. -/
def ReadsBack (o : Output) (files : List GeneratedFile) (t : FileTree) : Prop :=
  Manifest.ofText (o.manifest files t).text = o.manifest files t

theorem stored_of_ok {report : WriteReport} (ht : t.WellFormed)
    (h : (o.write files t).1 = .ok report) (hback : o.ReadsBack files t) :
    Manifest.stored (o.write files t).2 (o.rootPlace t) = o.manifest files t := by
  rw [Manifest.stored, entry_of_ok ht h]
  exact hback

/-- A file that the manifest on disk does not list is left alone. -/
theorem entry_of_not_listed (ht : t.WellFormed) (ho : o.overwrite = false)
    (files : List GeneratedFile) {names : List String} {text : String}
    (hfile : t.entry? (o.rootPlace t ++ names) = some (.file text))
    (hmanifest : names ≠ [".coders", "manifest.yaml"])
    (hlisted : Text.joinWith "/" names ∉ (Manifest.stored t (o.rootPlace t)).files) :
    FileTree.entry? (o.write files t).2 (o.rootPlace t ++ names) = some (.file text) := by
  have hplace := (write_changes o files ht).entry (o.rootPlace t ++ names)
  rw [hfile] at hplace
  generalize FileTree.entry? (o.write files t).2 (o.rootPlace t ++ names) = e at hplace
  cases hplace with
  | same => rfl
  | replaced _ _ _ hmay =>
    rcases hmay with h | ⟨names', h, hkey⟩ | h
    · rw [ho] at h
      cases h
    · rw [List.append_cancel_left h] at hlisted
      exact absurd hkey hlisted
    · exact absurd (List.append_cancel_left h) hmanifest

/-! ## Runs of writes and edits -/

/-- An edit of the user's: anything may change but the current directory and what stands in the
directory of the manifest. -/
structure Edits (root : List String) (t t' : FileTree) : Prop where
  current : t'.current = t.current
  wellFormed : t'.WellFormed
  entry : ∀ names, t'.entry? (root ++ ".coders" :: names) = t.entry? (root ++ ".coders" :: names)

/-- A run of writes to a root and of edits, with the files that its writes placed. Which writes there
may be is given by `may`. -/
inductive Run (root : Path) (may : Output → List GeneratedFile → FileTree → Prop) (t₀ : FileTree) :
    List GeneratedFile → FileTree → Prop where
  | start : Run root may t₀ [] t₀
  | write {placed : List GeneratedFile} {t : FileTree} (o : Output) (files : List GeneratedFile) :
    Run root may t₀ placed t → o.root = root → may o files t →
      Run root may t₀ (placed ++ o.wrote files t) (o.write files t).2
  | edit {placed : List GeneratedFile} {t t' : FileTree} :
    Run root may t₀ placed t → Edits (root.placeFrom t.current) t t' → Run root may t₀ placed t'

/-- The manifest of a write that succeeds can be read back, and a write that fails was not given the
manifest as one of its files. -/
structure Tracked (o : Output) (files : List GeneratedFile) (t : FileTree) : Prop where
  readsBack : (o.write files t).1.isOk = true → o.ReadsBack files t
  spares : (o.write files t).1.isOk = false → SparesManifest files

/-- Every key that the manifest on disk lists is that of a file placed before. -/
def Listed (root : Path) (placed : List GeneratedFile) (t : FileTree) : Prop :=
  ∀ key ∈ (Manifest.stored t (root.placeFrom t.current)).files, ∃ f ∈ placed, f.key = key

theorem current_write (o : Output) (files : List GeneratedFile) (ht : t.WellFormed) :
    (o.write files t).2.current = t.current :=
  (write_changes o files ht).current

/-- A write keeps what is listed within what was placed. -/
theorem Listed.write {placed : List GeneratedFile} (h : Listed o.root placed t)
    (ht : t.WellFormed) (hmay : o.Tracked files t) :
    Listed o.root (placed ++ o.wrote files t) (o.write files t).2 := by
  intro key hkey
  rw [current_write o files ht] at hkey
  cases hresult : (o.write files t).1 with
  | error e =>
    have hspares := hmay.spares (by rw [hresult]; rfl)
    have hstored := stored_of_error ht hspares hresult
    obtain ⟨f, hf, hfkey⟩ := h key (hstored ▸ hkey)
    exact ⟨f, List.mem_append_left _ hf, hfkey⟩
  | ok report =>
    have hstored := stored_of_ok ht hresult (hmay.readsBack (by rw [hresult]; rfl))
    have hlisted : key ∈ (o.manifest files t).files := hstored ▸ hkey
    rcases (mem_manifest hresult key).1 hlisted with ⟨hold, -⟩ | hnew
    · have hopened := o.opened_adds ht
      have hbefore := load_files_subset (o.opened t) o.root key hold
      rw [hopened.current, stored_of_changes hopened _ id] at hbefore
      obtain ⟨f, hf, hfkey⟩ := h key hbefore
      exact ⟨f, List.mem_append_left _ hf, hfkey⟩
    · obtain ⟨f, hf, hfkey⟩ := List.mem_map.1 hnew
      exact ⟨f, List.mem_append_right _ hf, hfkey⟩

/-- An edit leaves the manifest alone. -/
theorem Listed.edit {placed : List GeneratedFile} (h : Listed root placed t)
    (he : Edits (root.placeFrom t.current) t t') : Listed root placed t' := by
  intro key hkey
  rw [he.current, Manifest.stored, he.entry] at hkey
  exact h key hkey

/-- Without a directory for it there is no manifest. -/
theorem Listed.start (ht : t.WellFormed)
    (hnone : t.entry? (root.placeFrom t.current ++ [".coders"]) ≠ some .directory) :
    Listed root [] t := by
  intro key hkey
  unfold Manifest.stored at hkey
  split at hkey
  · rename_i text hfile
    have hsplit : root.placeFrom t.current ++ [".coders", "manifest.yaml"]
        = (root.placeFrom t.current ++ [".coders"]) ++ ["manifest.yaml"] := by simp
    rw [hsplit] at hfile
    exact absurd (ht.above hfile (by simp)) hnone
  · cases hkey

/-- What holds along a run: the tree stays well formed and the manifest lists only what was placed. -/
theorem Run.listed {may : Output → List GeneratedFile → FileTree → Prop} {t₀ : FileTree}
    {placed : List GeneratedFile} (h : Run root may t₀ placed t) (ht : t₀.WellFormed)
    (hnone : t₀.entry? (root.placeFrom t₀.current ++ [".coders"]) ≠ some .directory)
    (hmay : ∀ o files t, may o files t → o.Tracked files t) :
    t.WellFormed ∧ Listed root placed t := by
  induction h with
  | start => exact ⟨ht, .start ht hnone⟩
  | write o files _ hroot hmay' ih =>
    obtain ⟨hwf, hlisted⟩ := ih
    subst hroot
    exact ⟨(write_changes o files hwf).wellFormed hwf, hlisted.write hwf (hmay _ _ _ hmay')⟩
  | edit _ he ih => exact ⟨he.wellFormed, ih.2.edit he⟩

/-- Along every run of writes and edits that starts without a manifest, what the manifest on disk
lists was placed by a write of the run. So a write that does not overwrite leaves every other file
alone: what the user put at a place that no write placed a file at keeps its text. -/
theorem owned_of_run {may : Output → List GeneratedFile → FileTree → Prop} {t₀ : FileTree}
    {placed : List GeneratedFile} (h : Run root may t₀ placed t) (ht : t₀.WellFormed)
    (hnone : t₀.entry? (root.placeFrom t₀.current ++ [".coders"]) ≠ some .directory)
    (hmay : ∀ o files t, may o files t → o.Tracked files t) :
    (∀ key ∈ (Manifest.stored t (root.placeFrom t.current)).files, ∃ f ∈ placed, f.key = key) ∧
    ∀ (o : Output) (files : List GeneratedFile), o.root = root → o.overwrite = false →
      ∀ names text, t.entry? (root.placeFrom t.current ++ names) = some (.file text) →
        names ≠ [".coders", "manifest.yaml"] →
        (∀ f ∈ placed, f.key ≠ Text.joinWith "/" names) →
        FileTree.entry? (o.write files t).2 (root.placeFrom t.current ++ names) = some (.file text) := by
  obtain ⟨hwf, hlisted⟩ := h.listed ht hnone hmay
  refine ⟨hlisted, ?_⟩
  rintro o files rfl ho names text hfile hmanifest hplaced
  refine entry_of_not_listed hwf ho files hfile hmanifest fun hkey => ?_
  obtain ⟨f, hf, hfkey⟩ := hlisted _ hkey
  exact hplaced f hf hfkey

/-- A write and an edit: the file of the write is owned, the file of the edit is not. -/
theorem owned_of_run_notes :
    let o : Output := { root := ⟨"out"⟩, platform := .go }
    let t₀ : FileTree := { entries := [(["w"], .directory)], current := ["w"] }
    let t₁ := (o.write [⟨"main.go", "code"⟩] t₀).2
    let t₂ := t₁.set ["w", "out", "notes.txt"] (.file "mine")
    Run ⟨"out"⟩ (fun o files t => o.Tracked files t) t₀ [⟨"main.go", "code"⟩] t₂ ∧
      (∀ key ∈ (Manifest.stored t₂ ["w", "out"]).files, key = "main.go") ∧
      FileTree.entry? (o.write [⟨"notes.txt", "theirs"⟩] t₂).2 ["w", "out", "notes.txt"]
        = some (.file "mine") := by
  intro o t₀ t₁ t₂
  have hfacts : (o.write [⟨"main.go", "code"⟩] t₀).1.isOk = true ∧
      Manifest.ofText (o.manifest [⟨"main.go", "code"⟩] t₀).text
        = o.manifest [⟨"main.go", "code"⟩] t₀ ∧
      o.wrote [⟨"main.go", "code"⟩] t₀ = [⟨"main.go", "code"⟩] ∧
      t₀.WellFormed ∧ t₀.entry? ["w", "out", ".coders"] = none ∧ t₂.WellFormed ∧
      t₁.current = ["w"] ∧ t₂.entry? ["w", "out", "notes.txt"] = some (.file "mine") := by
    decide +kernel
  have ht₁ : (o.write [⟨"main.go", "code"⟩] t₀).2 = t₁ := rfl
  clear_value t₁
  obtain ⟨hok, hback, hwrote, hwf, hnone, hwf₂, hcurrent, hnotes⟩ := hfacts
  have hroot : (Path.mk "out").placeFrom ["w"] = ["w", "out"] := by decide +kernel
  have htracked : o.Tracked [⟨"main.go", "code"⟩] t₀ :=
    ⟨fun _ => hback, fun herror => absurd (hok.symm.trans herror) (by decide)⟩
  have hedit : Edits ((Path.mk "out").placeFrom t₁.current) t₁ t₂ := by
    refine ⟨rfl, hwf₂, fun names => ?_⟩
    rw [hcurrent, hroot, FileTree.entry?_set _ (by decide), if_neg (by simp)]
  have hrun : Run ⟨"out"⟩ (fun o files t => o.Tracked files t) t₀ [⟨"main.go", "code"⟩] t₂ := by
    have hstart : Run ⟨"out"⟩ (fun o files t => o.Tracked files t) t₀ [] t₀ := .start
    have hwrite := Run.write o [⟨"main.go", "code"⟩] hstart rfl htracked
    rw [hwrote, List.nil_append, ht₁] at hwrite
    exact hwrite.edit hedit
  have hplace : (Path.mk "out").placeFrom t₂.current = ["w", "out"] :=
    (congrArg _ hcurrent).trans hroot
  obtain ⟨hlisted, hkept⟩ := owned_of_run hrun hwf (by rw [hroot]; simp [hnone]) fun _ _ _ h => h
  rw [hplace] at hlisted hkept
  refine ⟨hrun, fun key hkey => ?_, hkept o [⟨"notes.txt", "theirs"⟩] rfl rfl ["notes.txt"] "mine"
    hnotes (by decide) (by decide)⟩
  obtain ⟨f, hf, rfl⟩ := hlisted key hkey
  rw [List.mem_singleton.1 hf]
  decide

/-- A generated file may be the manifest itself. If the write then fails, what it wrote there stays:
the manifest lists a file that no write placed, and a later write takes the user's file for its own. -/
theorem not_owned_of_run :
    let o : Output := { root := ⟨"out"⟩, platform := .go }
    let t₀ : FileTree := { entries := [(["w"], .directory)], current := ["w"] }
    let files : List GeneratedFile :=
      [⟨".coders/manifest.yaml", "files:\n- notes.txt\n"⟩, ⟨"a", "x"⟩, ⟨"a/b", "y"⟩]
    let t₁ := (o.write files t₀).2
    let t₂ := t₁.set ["w", "out", "notes.txt"] (.file "mine")
    t₀.WellFormed ∧ t₀.entry? ["w", "out", ".coders"] = none ∧
      (o.write files t₀).1.isOk = false ∧
      (o.wrote files t₀).map (·.key) = [".coders/manifest.yaml", "a"] ∧
      (Manifest.stored t₁ ["w", "out"]).files = ["notes.txt"] ∧
      FileTree.entry? (o.write [⟨"notes.txt", "theirs"⟩] t₂).2 ["w", "out", "notes.txt"]
        = some (.file "theirs") := by
  decide +kernel

/-! ## Failed writes -/

/-- A write that fails leaves the manifest as it found it. What it created or changed without being
listed there is disowned: it is not listed afterwards, and later writes that do not overwrite leave it
alone. What it created or changed is therefore all listed afterwards exactly if it was all listed
before. -/
theorem disowned_of_error {e : BuildError} (ht : t.WellFormed) (hfiles : SparesManifest files)
    (h : (o.write files t).1 = .error e) :
    let root := o.rootPlace t
    let after := (o.write files t).2
    let changed (names : List String) : Prop := ∃ text,
      after.entry? (root ++ names) = some (.file text) ∧
        t.entry? (root ++ names) ≠ some (.file text)
    (Manifest.stored after root).files = (Manifest.stored t root).files ∧
    ((∀ names, changed names → Text.joinWith "/" names ∈ (Manifest.stored after root).files) ↔
      ∀ names, changed names → Text.joinWith "/" names ∈ (Manifest.stored t root).files) ∧
    ∀ names text, changed names → Text.joinWith "/" names ∉ (Manifest.stored t root).files →
      after.entry? (root ++ names) = some (.file text) →
      ∀ (o' : Output) (files' : List GeneratedFile), o'.root = o.root → o'.overwrite = false →
        FileTree.entry? (o'.write files' after).2 (root ++ names) = some (.file text) := by
  intro root after changed
  have hstored : Manifest.stored after root = Manifest.stored t root :=
    stored_of_error ht hfiles h
  have hchanges := write_changes o files ht
  refine ⟨by rw [hstored], by rw [hstored], ?_⟩
  rintro names text ⟨text', hafter, hbefore⟩ hlisted htext o' files' hroot ho'
  have hsame : o'.rootPlace after = root := by
    rw [rootPlace, hroot, hchanges.current]
    rfl
  have hkept : names ≠ [".coders", "manifest.yaml"] →
      FileTree.entry? (o'.write files' after).2 (o'.rootPlace after ++ names)
        = some (.file text) := fun hmanifest =>
    entry_of_not_listed (hchanges.wellFormed ht) ho' files' (by rwa [hsame]) hmanifest
      (by rwa [hsame, hstored])
  rw [hsame] at hkept
  refine hkept ?_
  -- The manifest is not among the files that changed.
  rintro rfl
  have hplace := (changes_of_error ht h).entry (root ++ [".coders", "manifest.yaml"])
  rw [show (o.write files t).2 = after from rfl, hafter] at hplace
  generalize t.entry? (root ++ [".coders", "manifest.yaml"]) = before at hplace hbefore
  cases hplace with
  | same => exact hbefore rfl
  | created _ hin => exact hfiles.not_targets root hin
  | replaced _ _ hin => exact hfiles.not_targets root hin

/-- A write that fails at its second file disowns its first. -/
theorem disowned_of_error_first :
    let o : Output := { root := ⟨"out"⟩, platform := .go }
    let t : FileTree :=
      { entries := [(["w"], .directory), (["w", "out"], .directory), (["w", "out", "d"], .file "")],
        current := ["w"] }
    let after := (o.write [⟨"a", "x"⟩, ⟨"d/b", "y"⟩] t).2
    t.WellFormed ∧ (o.write [⟨"a", "x"⟩, ⟨"d/b", "y"⟩] t).1.isOk = false ∧
      t.entry? ["w", "out", "a"] = none ∧ after.entry? ["w", "out", "a"] = some (.file "x") ∧
      (Manifest.stored after ["w", "out"]).files = (Manifest.stored t ["w", "out"]).files ∧
      FileTree.entry? (o.write [⟨"a", "new"⟩] after).2 ["w", "out", "a"] = some (.file "x") := by
  intro o t after
  have hfacts : t.WellFormed ∧ (o.write [⟨"a", "x"⟩, ⟨"d/b", "y"⟩] t).1.isOk = false ∧
      t.entry? ["w", "out", "a"] = none ∧ after.entry? ["w", "out", "a"] = some (.file "x") ∧
      o.rootPlace t = ["w", "out"] ∧ (Manifest.stored t ["w", "out"]).files = [] := by
    decide +kernel
  obtain ⟨ht, herror, hnone, hthere, hroot, hlisted⟩ := hfacts
  obtain ⟨e, he⟩ : ∃ e, (o.write [⟨"a", "x"⟩, ⟨"d/b", "y"⟩] t).1 = .error e := by
    cases hw : (o.write [⟨"a", "x"⟩, ⟨"d/b", "y"⟩] t).1 with
    | error e => exact ⟨e, rfl⟩
    | ok report =>
      rw [hw] at herror
      cases herror
  have hspares : SparesManifest [⟨"a", "x"⟩, ⟨"d/b", "y"⟩] := by
    intro f hf _
    rcases List.mem_cons.1 hf with rfl | hf
    · decide
    · rw [List.mem_singleton.1 hf]
      decide
  have hdisowned := disowned_of_error ht hspares he
  rw [hroot] at hdisowned
  obtain ⟨hsame, -, hkept⟩ := hdisowned
  refine ⟨ht, herror, hnone, hthere, hsame, ?_⟩
  exact hkept ["a"] "x" ⟨"x", hthere, by simp [hnone]⟩ (by simp [hlisted]) hthere o [⟨"a", "new"⟩] rfl
    rfl

/-- Once the cause of the failure is removed, writing the same files again does not replace the file
that the failed write created: it counts as one that was not generated. -/
theorem not_owned_after_error :
    let o : Output := { root := ⟨"out"⟩, platform := .go }
    let t : FileTree :=
      { entries := [(["w"], .directory), (["w", "out"], .directory), (["w", "out", "d"], .file "")],
        current := ["w"] }
    let files : List GeneratedFile := [⟨"a", "x"⟩, ⟨"d/b", "y"⟩]
    let after := (o.write files t).2
    (o.write files t).1.isOk = false ∧ t.entry? ["w", "out", "a"] = none ∧
      after.entry? ["w", "out", "a"] = some (.file "x") ∧
      "a" ∉ (Manifest.stored after ["w", "out"]).files ∧
      (o.write files (after.remove ["w", "out", "d"])).1.toOption.map (·.skipped)
        = some [⟨"out/a"⟩] := by
  decide +kernel


end Output

end Scaffold
