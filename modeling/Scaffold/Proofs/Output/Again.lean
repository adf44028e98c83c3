import Scaffold.Proofs.Output.Key
import Scaffold.Proofs.Output.Ownership
import Scaffold.Proofs.Output.Step

/-!
# Writing the same files again

A write that succeeded can be repeated: it gives the same report and leaves the tree as it is
(`write_again`). The second run takes other branches than the first. The root and all directories are
there, so nothing is made; what the first run placed is listed now and is found with its contents;
what the first run left alone is still there and still not listed. Only the manifest may have another
text in between, when one of the files is the manifest, and saving restores it.

* `writeFiles_again`: the list of files, by induction along the first run.
* `save_again`: the manifest.
-/

/-!
## Manifests that were read

The keys of a manifest are sorted and occur once, whatever text it was read from
(`Manifest.sorted_ofText`). A decoder of records keeps what its defaults have and what each of its
fields preserves (`Yaml.Decoder.record_gives`).
-/

namespace Scaffold

namespace Yaml

/-- Every value that is read has the property. -/
def Reading.Gives {α : Type} (P : α → Prop) (r : Reading α) : Prop :=
  ∀ references count value count', r references count = .ok (value, count') → P value

namespace Reading

variable {α β : Type} {P : α → Prop} {Q : β → Prop}

theorem Gives.pure {value : α} (h : P value) : Gives P (pure value) := by
  intro _ _ _ _ hr
  cases hr
  exact h

theorem Gives.throw (e : ReadError) : Gives P (throw e : Reading α) := by
  intro _ _ _ _ hr
  cases hr

theorem Gives.bind_of {r : Reading β} {f : β → Reading α} (h : Gives Q r)
    (hf : ∀ b, Q b → Gives P (f b)) : Gives P (r >>= f) := by
  intro references count value count' hr
  change (r references count >>= fun x => f x.1 references x.2) = _ at hr
  cases hb : r references count with
  | error e =>
    rw [hb] at hr
    cases hr
  | ok x =>
    rw [hb] at hr
    exact hf x.1 (h references count x.1 x.2 hb) references x.2 value count' hr

/-- What is read last decides. -/
theorem Gives.bind (r : Reading β) {f : β → Reading α} (hf : ∀ b, Gives P (f b)) :
    Gives P (r >>= f) :=
  bind_of (Q := fun _ => True) (fun _ _ _ _ _ => trivial) fun b _ => hf b

theorem Gives.within {r : Reading α} (h : Gives P r) (place : Place) (mark : Mark) :
    Gives P (Reading.within place mark r) := by
  intro references count value count' hr
  unfold Reading.within at hr
  cases hb : r references count with
  | error e =>
    rw [hb] at hr
    cases hr
  | ok x =>
    rw [hb] at hr
    cases hr
    exact h references count value count' hb

end Reading

namespace Decoder

variable {α : Type} {P : α → Prop} {keys : List String}
  {set : String → Place → Node → α → Reading α}

theorem entries_gives (hset : ∀ name place node a, P a → (set name place node a).Gives P)
    (place : Place) (seen : List String) {a : α} (ha : P a) (es : List (Node × Node)) :
    (entries keys set place seen a es).Gives P := by
  induction es generalizing seen a with
  | nil => exact .pure ha
  | cons e rest ih =>
    obtain ⟨key, value⟩ := e
    rw [entries]
    refine .bind _ fun name => ?_
    split
    · split
      · exact .throw _
      · exact ih seen ha
    · split
      · exact .throw _
      · exact .bind_of (hset name _ _ a ha) fun a' ha' => ih _ ha'

/-- A record has what its defaults have, if setting a field preserves it. -/
theorem record_gives {defaults : α} (hdefaults : P defaults)
    (hset : ∀ name place node a, P a → (set name place node a).Gives P) (name : String)
    (place : Place) (node : Node) : (record name keys defaults set place node).Gives P := by
  refine .bind _ fun node => ?_
  split
  · exact (entries_gives hset _ _ hdefaults _).within _ _
  · split
    · exact .pure hdefaults
    · exact .throw _
  · exact .throw _

theorem run_gives {read : Decoder α} (hread : ∀ place node, (read place node).Gives P) {text : String}
    {value : α} (h : read.run text = .ok value) : P value := by
  unfold run at h
  dsimp only at h
  split at h
  · cases h
  · cases h
  · rename_i v n hr _
    cases h
    exact hread _ _ _ _ _ _ hr

end Decoder

end Yaml

namespace Manifest

/-- The keys of a manifest that was read are sorted, each once. -/
theorem sorted_ofText (text : String) : (ofText text).files.Pairwise (· < ·) := by
  have hread : ∀ place node, (decoder place node).Gives fun m => m.files.Pairwise (· < ·) := by
    refine Yaml.Decoder.record_gives (P := fun m : Manifest => m.files.Pairwise (· < ·))
      List.Pairwise.nil (fun key place node m hm => ?_) _
    split
    · exact .bind _ fun _ => .pure hm
    · exact .bind _ fun _ => .pure hm
    · exact .bind _ fun files => .pure (sorted_sortedSet files)
    · exact .pure hm
  unfold ofText
  cases h : decoder.run text with
  | error e => exact List.Pairwise.nil
  | ok m => exact Yaml.Decoder.run_gives hread h

theorem sorted_load (tree : FileTree) (out : Path) : (load tree out).files.Pairwise (· < ·) := by
  unfold load
  split
  · exact sorted_ofText _
  · exact List.Pairwise.nil

end Manifest

end Scaffold

namespace Scaffold

open FileTree (Changes)

namespace FileTree

variable {t t' : FileTree} {inside may : List String → Prop}

/-- Nothing went away: directories and files are still there, files perhaps with another text. -/
abbrev Keeps (t t' : FileTree) : Prop :=
  Changes (fun _ => True) (fun _ => True) t t'

theorem Changes.keeps (h : Changes inside may t t') : Keeps t t' :=
  h.mono (fun _ _ => trivial) fun _ _ => trivial

/-- A file may get another text. -/
theorem keeps_set (ht : t.WellFormed) {place : List String} {old : String}
    (h : t.entry? place = some (.file old)) (new : String) : Keeps t (t.set place (.file new)) := by
  have hne : place ≠ [] := by
    rintro rfl
    cases h
  refine Changes.set hne (wellFormed_iff.1 ht _ _ hne h) (by simp [h]) ?_
  rw [h]
  exact .replaced old new trivial trivial

end FileTree

open FileTree (Keeps)

namespace Manifest

variable {m : Manifest} {t t' : FileTree} {root : Path}

/-- The manifest is at the end of a contained path. -/
theorem path_eq (root : Path) : path root = root.join ".coders/manifest.yaml" := by
  obtain ⟨sep, hsep⟩ := Path.join_text root
  have hdir := hsep ".coders" (by decide)
  have hlast : (root.join ".coders").text.toList.getLast? = some 's' := by
    rw [hdir, String.toList_append, List.getLast?_append_of_ne_nil _ (by decide)]
    decide
  have hne : (root.join ".coders").text ≠ "" := by
    intro h
    rw [h] at hlast
    cases hlast
  have hall := hsep ".coders/manifest.yaml" (by decide)
  have hrel : (Path.mk "manifest.yaml").isAbsolute = false := by decide
  rw [path]
  generalize root.join ".coders" = dir at hdir hlast hne ⊢
  generalize root.join ".coders/manifest.yaml" = file at hall ⊢
  obtain ⟨text⟩ := file
  have hall : text = root.text ++ sep ++ ".coders/manifest.yaml" := hall
  rw [Path.join, if_neg (by simp [hrel]), if_neg (by simp [hne, hlast]), hdir, hall,
    String.append_assoc, String.append_assoc]
  rfl

/-- Saving makes the directories that the manifest stands in. -/
theorem makeDirectories_parent (t : FileTree) (p : Path) :
    t.makeDirectories (p.parent?.getD ⟨""⟩) = t.makeParents p := by
  unfold FileTree.makeParents
  cases p.parent? with
  | none => rfl
  | some dir => rfl

/-- The place of a manifest that was saved. -/
theorem place_of_save (ht : t.WellFormed) (h : (m.save t root).1 = .ok ()) :
    (m.save t root).2.place (path root)
        = .ok (root.placeFrom t.current ++ [".coders", "manifest.yaml"]) ∧
      Text.endsWith "/" (path root).text = false := by
  obtain ⟨t₁, hdirs, hwrite⟩ := save_ok h
  have hadds := FileTree.makeDirectories_adds ht ((path root).parent?.getD ⟨""⟩)
  rw [hdirs] at hadds
  obtain ⟨hplace, -, -⟩ := FileTree.write_eq hwrite
  have hchanges : Keeps t₁ (m.save t root).2 :=
    FileTree.write_changes (hadds.wellFormed ht) hwrite trivial fun _ _ => trivial
  refine ⟨?_, FileTree.endsWith_of_write hwrite⟩
  rw [FileTree.place_mono hchanges hplace, Output.placeFrom_manifest, hadds.current]

/-- Saving a manifest again, after its text was changed or not, restores the tree. -/
theorem save_again (ht : t.WellFormed) (h : (m.save t root).1 = .ok ()) (text : String) :
    m.save ((m.save t root).2.set (root.placeFrom t.current ++ [".coders", "manifest.yaml"])
      (.file text)) root = (.ok (), (m.save t root).2) := by
  obtain ⟨hplace, hslash⟩ := place_of_save ht h
  obtain ⟨t₁, hdirs, hwrite⟩ := save_ok h
  have hadds := FileTree.makeDirectories_adds ht ((path root).parent?.getD ⟨""⟩)
  rw [hdirs] at hadds
  generalize (m.save t root).2 = after at hplace hwrite ⊢
  generalize hM : root.placeFrom t.current ++ [".coders", "manifest.yaml"] = M at hplace ⊢
  have hne : M ≠ [] := by simp [← hM]
  obtain ⟨hplace₁, -, hset⟩ := FileTree.write_eq hwrite
  have hentry : after.entry? M = some (.file m.text) := by
    have hsame : (path root).placeFrom t₁.current = M := by
      rw [Output.placeFrom_manifest, hadds.current, hM]
    rw [hset, hsame, FileTree.entry?_set _ hne, if_pos rfl]
  have hchanges : Keeps t₁ after :=
    FileTree.write_changes (hadds.wellFormed ht) hwrite trivial fun _ _ => trivial
  have hkeeps : Keeps t₁ (after.set M (.file text)) :=
    hchanges.trans (FileTree.keeps_set (hchanges.wellFormed (hadds.wellFormed ht)) hentry text)
  have hagain : (after.set M (.file text)).makeDirectories ((path root).parent?.getD ⟨""⟩)
      = (.ok (), after.set M (.file text)) := by
    rw [makeDirectories_parent] at hdirs ⊢
    have hkept : Keeps (t.makeParents (path root)).2 (after.set M (.file text)) := by
      rw [hdirs]
      exact hkeeps
    exact FileTree.makeParents_again (by rw [hdirs]) (FileTree.not_refused_of_place hplace) hkept
  have hfile : FileTree.entry? (after.set M (.file text)) M = some (.file text) := by
    rw [FileTree.entry?_set _ hne, if_pos rfl]
  have hwrite' := FileTree.write_of_place
    (FileTree.place_mono (FileTree.keeps_set (hchanges.wellFormed (hadds.wellFormed ht)) hentry text)
      hplace) (by simp [hfile]) hslash m.text
  rw [FileTree.set_set, FileTree.set_eq_self hne hentry] at hwrite'
  unfold save
  dsimp only
  rw [hagain]
  dsimp only
  rw [hwrite']

end Manifest

namespace Output

variable {o : Output} {files : List GeneratedFile} {listed : List String} {t : FileTree}
  {w w' : Writing}

/-! ## The files of the first run -/

theorem rootPlace_writeFile {file : GeneratedFile} (ht : w.tree.WellFormed)
    (h : o.writeFile listed file w = (.ok (), w')) :
    w'.tree.WellFormed ∧ o.rootPlace w'.tree = o.rootPlace w.tree := by
  have hfile := writeFile_targets o listed file ht
  rw [h] at hfile
  exact ⟨hfile.wellFormed ht, by rw [rootPlace, rootPlace, hfile.current]⟩

theorem placed_cons {file : GeneratedFile} (h : o.writeFile listed file w = (.ok (), w')) :
    o.placed listed (file :: files) w
      = if o.takes listed w.tree file then file :: o.placed listed files w'
        else o.placed listed files w' := by
  rw [placed, h]

/-- A file that was placed can be followed to its place and has its contents there, to the end of the
run: no other file of the list has its key. -/
theorem entry_of_placed (ht : w.tree.WellFormed) (hkeys : (files.map (·.key)).Nodup)
    (h : o.writeFiles listed files w = (.ok (), w')) :
    ∀ f ∈ o.placed listed files w,
      w'.tree.place (o.root.join f.path) = .ok (o.rootPlace w.tree ++ f.names) ∧
        w'.tree.entry? (o.rootPlace w.tree ++ f.names) = some (.file f.contents) := by
  induction files generalizing w with
  | nil => intro f hf; cases hf
  | cons file rest ih =>
    rw [writeFiles] at h
    split at h
    · cases h
    · rename_i w₁ hfile
      obtain ⟨ht₁, hroot⟩ := rootPlace_writeFile ht hfile
      obtain ⟨hnotin, hkeys⟩ := List.nodup_cons.1 hkeys
      have hrest := ih ht₁ hkeys h
      rw [hroot] at hrest
      rw [placed_cons hfile]
      rcases writeFile_ok hfile with ⟨htakes, -⟩ | ⟨htakes, w₂, hplace, rfl⟩
      · simpa [htakes] using hrest
      · intro f hf
        rw [htakes, if_pos rfl] at hf
        rcases List.mem_cons.1 hf with rfl | hf
        · obtain ⟨r, hr, he, -⟩ := Writing.place_reads hplace
          have hin := isContained_of_takes htakes
          have hr' : r = o.rootPlace w.tree ++ f.names := by
            rw [FileTree.place_eq hr, ← hroot]
            exact placeFrom_target o w₂.tree hin
          subst hr'
          have hlater := writeFiles_targets o listed rest ht₁
          rw [h, hroot] at hlater
          refine ⟨FileTree.place_mono hlater hr, hlater.entry_eq ?_ he⟩
          rintro ⟨g, hg, -, hsame⟩
          have hnames : f.names = g.names := List.append_cancel_left hsame
          refine hnotin (List.mem_map.2 ⟨g, hg, ?_⟩)
          exact congrArg (Text.joinWith "/") hnames.symm
        · exact hrest f hf

/-! ## The files of the second run -/

/-- A file that was placed is placed again, over itself. Only the manifest can have another text by
then. -/
theorem place_again {target : Path} {contents : String} {after : FileTree} {M r : List String}
    {text : String} (ht : w.tree.WellFormed) (hafter : after.WellFormed)
    (h : w.place target contents = (.ok (), w')) (hkeeps : Keeps w'.tree after)
    (hM : after.entry? M = some (.file text)) (hplace : after.place target = .ok r)
    (hentry : r ≠ M → after.entry? r = some (.file contents)) (x : String) (owned : List String)
    (report : WriteReport) :
    ∃ x', ({ tree := after.set M (.file x), owned, report } : Writing).place target contents
      = (.ok (), { tree := after.set M (.file x'), owned, report }) := by
  have hne : M ≠ [] := by
    rintro rfl
    cases hM
  have hset := FileTree.keeps_set hafter hM x
  obtain ⟨t₁, hdirs, hcase⟩ := Writing.place_ok h
  have hkeeps₁ : Keeps t₁ w'.tree := by
    obtain ⟨-, rfl⟩ | ⟨t₂, hwrite, rfl⟩ := hcase
    · exact .refl _
    · have hadds := FileTree.makeParents_adds ht target
      rw [hdirs] at hadds
      exact FileTree.write_changes (hadds.wellFormed ht) hwrite trivial fun _ _ => trivial
  have hparents : (after.set M (.file x)).makeParents target = (.ok (), after.set M (.file x)) := by
    have hkept : Keeps (w.tree.makeParents target).2 (after.set M (.file x)) := by
      rw [hdirs]
      exact hkeeps₁.trans (hkeeps.trans hset)
    exact FileTree.makeParents_again (by rw [hdirs]) (FileTree.not_refused_of_place hplace) hkept
  have hplace' := FileTree.place_mono hset hplace
  by_cases hr : r = M
  · subst hr
    have hfile : FileTree.entry? (after.set r (.file x)) r = some (.file x) := by
      rw [FileTree.entry?_set _ hne, if_pos rfl]
    refine ⟨contents, ?_⟩
    rw [Writing.place_over (w := ⟨after.set r (.file x), owned, report⟩) hparents hplace' hfile,
      FileTree.set_set]
  · have hfile : FileTree.entry? (after.set M (.file x)) r = some (.file contents) := by
      rw [FileTree.entry?_set _ hne, if_neg hr, hentry hr]
    have hrne : r ≠ [] := by
      rintro rfl
      cases hfile
    refine ⟨x, ?_⟩
    rw [Writing.place_over (w := ⟨after.set M (.file x), owned, report⟩) hparents hplace' hfile,
      FileTree.set_eq_self hrne hfile]

/-- Every file is taken or left alone in the second run as in the first. `listed` is what the first
run found listed, `owned` what it left listed. -/
theorem takes_again {file : GeneratedFile} {t' : FileTree} {owned : List String}
    (hkeeps : Keeps t t') (htaken : o.takes listed t file = true → file.key ∈ owned)
    (hleft : o.takes listed t file = false → file.key ∈ owned → file.key ∈ listed) :
    o.takes owned t' file = o.takes listed t file := by
  cases htakes : o.takes listed t file with
  | true =>
    have hin := (Bool.and_eq_true_iff.1 htakes).1
    simp [takes, hin, htaken htakes]
  | false =>
    cases hin : file.isContained with
    | false => simp [takes, hin]
    | true =>
      have hskip := htakes
      simp only [takes, hin, Bool.true_and, Bool.not_eq_false', Bool.and_eq_true, Bool.not_eq_true',
        List.contains_eq_mem, decide_eq_false_iff_not] at hskip
      obtain ⟨⟨hexists, hlisted⟩, hover⟩ := hskip
      have howned : file.key ∉ owned := fun h => hlisted (hleft htakes h)
      simp [takes, hin, FileTree.pathExists_mono hkeeps hexists, howned, hover]

/-- The files of a run that succeeded, written again into a tree in which nothing of it went away:
the report grows as before and at most the manifest, at `M`, has another text. -/
theorem writeFiles_again {after : FileTree} {M owned : List String} {text : String}
    (ht : w.tree.WellFormed) (hafter : after.WellFormed) (hkeys : (files.map (·.key)).Nodup)
    (h : o.writeFiles listed files w = (.ok (), w')) (hkeeps : Keeps w'.tree after)
    (hM : after.entry? M = some (.file text)) (hsorted : owned.Pairwise (· < ·))
    (howned : ∀ f ∈ o.placed listed files w, f.key ∈ owned)
    (hleft : ∀ f ∈ files, f.key ∈ owned → f.key ∈ listed ∨ f ∈ o.placed listed files w)
    (hplaced : ∀ f ∈ o.placed listed files w, ∃ r, after.place (o.root.join f.path) = .ok r ∧
      (r ≠ M → after.entry? r = some (.file f.contents))) (x : String) :
    ∃ x', o.writeFiles owned files { tree := after.set M (.file x), owned, report := w.report }
      = (.ok (), { tree := after.set M (.file x'), owned, report := w'.report }) := by
  induction files generalizing w x with
  | nil =>
    rw [writeFiles] at h ⊢
    cases h
    exact ⟨x, rfl⟩
  | cons file rest ih =>
    have hlater := writeFiles_targets o listed rest (w := (o.writeFile listed file w).2)
      ((writeFile_targets o listed file ht).wellFormed ht)
    rw [writeFiles] at h
    split at h
    · cases h
    · rename_i w₁ hfile
      rw [hfile] at hlater
      dsimp only at hlater
      rw [h] at hlater
      obtain ⟨ht₁, -⟩ := rootPlace_writeFile ht hfile
      obtain ⟨hnotin, hkeys⟩ := List.nodup_cons.1 hkeys
      have hset := FileTree.keeps_set hafter hM x
      have hfirst := writeFile_targets o listed file ht
      rw [hfile] at hfirst
      have hkeeps₁ : Keeps w.tree (after.set M (.file x)) :=
        hfirst.keeps.trans (hlater.keeps.trans (hkeeps.trans hset))
      have hsub : ∀ f ∈ o.placed listed rest w₁, f ∈ o.placed listed (file :: rest) w := by
        intro f hf
        rw [placed_cons hfile]
        split
        · exact List.mem_cons_of_mem _ hf
        · exact hf
      -- What the rest of the first run placed does not have the key of this file.
      have hleft' : ∀ f ∈ rest, f.key ∈ owned → f.key ∈ listed ∨ f ∈ o.placed listed rest w₁ := by
        intro f hf hkey
        refine (hleft f (List.mem_cons_of_mem _ hf) hkey).imp_right fun hmem => ?_
        rw [placed_cons hfile] at hmem
        split at hmem
        · rcases List.mem_cons.1 hmem with rfl | hmem
          · exact absurd (List.mem_map_of_mem hf) hnotin
          · exact hmem
        · exact hmem
      have hrest := ih ht₁ hkeys h (fun f hf => howned f (hsub f hf)) hleft'
        fun f hf => hplaced f (hsub f hf)
      have htakes : o.takes owned (after.set M (.file x)) file = o.takes listed w.tree file := by
        refine takes_again hkeeps₁ (fun htakes => ?_) fun htakes hkey => ?_
        · refine howned file ?_
          rw [placed_cons hfile, htakes, if_pos rfl]
          exact List.mem_cons_self
        · refine (hleft file List.mem_cons_self hkey).resolve_right fun hmem => ?_
          rw [placed_cons hfile, htakes, if_neg (by simp)] at hmem
          exact hnotin (List.mem_map_of_mem ((placed_sublist o listed rest w₁).subset hmem))
      rw [writeFiles]
      rcases writeFile_ok hfile with ⟨hskip, rfl⟩ | ⟨htake, w₂, hplace, rfl⟩
      · rw [writeFile_of_not_takes (w := { tree := after.set M (.file x), owned, report := w.report })
          (htakes.trans hskip)]
        exact hrest x
      · have hmem : file ∈ o.placed listed (file :: rest) w := by
          rw [placed_cons hfile, htake, if_pos rfl]
          exact List.mem_cons_self
        obtain ⟨r, hr, hentry⟩ := hplaced file hmem
        obtain ⟨x', hagain⟩ := place_again ht hafter hplace (hlater.keeps.trans hkeeps) hM hr hentry x
          owned w.report
        have hreport : w₂.report = w.report := by
          have hsnd := Writing.place_snd w (o.root.join file.path) file.contents
          rw [hplace] at hsnd
          exact congrArg (·.report) hsnd
        have hown : ({ tree := after.set M (.file x'), owned, report := w.report } : Writing).own
            (o.root.join file.path) file.key
          = ⟨after.set M (.file x'), owned, (w₂.own (o.root.join file.path) file.key).report⟩ := by
          simp only [Writing.own, insertSorted_of_mem hsorted (howned file hmem), hreport]
        rw [writeFile_of_takes (w := { tree := after.set M (.file x), owned, report := w.report })
          (htakes.trans htake), hagain]
        dsimp only
        rw [hown]
        exact hrest x'

/-! ## The whole write -/

variable {report : WriteReport}

/-- The manifest that a write starts from is the one on disk. -/
theorem load_opened (ht : t.WellFormed) (h : (o.write files t).1 = .ok report) :
    Manifest.load (o.opened t) o.root = Manifest.stored t (o.rootPlace t) := by
  obtain ⟨hroot, -, hsave, -, hw⟩ := steps_of_ok h
  have hopened := o.opened_adds ht
  have hfinish := o.finish_targets files ht
  have hchanges := write_changes o files ht
  have hplace := (Manifest.place_of_save (hfinish.wellFormed ht) hsave).1
  rw [← hw, hfinish.current] at hplace
  unfold Manifest.stored
  split
  · rename_i text hfile
    have hbefore : FileTree.entry? (o.opened t) (o.rootPlace t ++ [".coders", "manifest.yaml"])
        = some (.file text) := hopened.entry_eq id hfile
    have hthere : (o.opened t).pathExists (Manifest.path o.root) = true := by
      rw [Manifest.path_eq] at hplace ⊢
      exact exists_of_file (hopened.wellFormed ht) (leads_of_makeDirectories ht hroot)
        (hchanges.current.trans hopened.current.symm) (by decide) hplace (entry_of_ok ht h) hbefore
    obtain ⟨r, e, hr, -⟩ := FileTree.pathExists_iff.1 hthere
    have hsame : r = o.rootPlace t ++ [".coders", "manifest.yaml"] := by
      rw [FileTree.place_eq hr, placeFrom_manifest, hopened.current]
      rfl
    have hread := FileTree.read_eq_ok_iff.2 ⟨r, hr, hsame ▸ hbefore⟩
    unfold Manifest.load
    rw [hread]
  · rename_i hnone
    unfold Manifest.load
    split
    · rename_i text hread
      obtain ⟨r, hr, hfile⟩ := FileTree.read_eq_ok_iff.1 hread
      have hsame : r = o.rootPlace t ++ [".coders", "manifest.yaml"] := by
        rw [FileTree.place_eq hr, placeFrom_manifest, hopened.current]
        rfl
      exact absurd (hopened.file_before (hsame ▸ hfile)) (hnone text)
    · rfl

/-- The root that a write made is there afterwards. -/
theorem makeDirectories_root (ht : t.WellFormed) (h : (o.write files t).1 = .ok report) :
    (o.write files t).2.makeDirectories o.root = (.ok (), (o.write files t).2) := by
  obtain ⟨hroot, -, hsave, -, hw⟩ := steps_of_ok h
  have hopened := o.opened_adds ht
  have hfinish := o.finish_targets files ht
  have hfiles := writeFiles_targets (w := o.start t) o (Manifest.load (o.opened t) o.root).files files
    (hopened.wellFormed ht)
  have hkeeps : Keeps (o.opened t) (o.write files t).2 := by
    rw [hw]
    exact hfiles.keeps.trans (save_only (o.manifest files t) o.root (hfinish.wellFormed ht)).keeps
  refine FileTree.makeDirectories_again hroot (fun hne => ?_) hkeeps
  -- The path of the root is the beginning of that of the manifest, which was followed.
  obtain ⟨sep, hsep⟩ := Path.join_text o.root
  have htext := hsep ".coders/manifest.yaml" (by decide)
  rw [← Manifest.path_eq, String.append_assoc] at htext
  exact FileTree.not_refused_of_append htext
    (FileTree.not_refused_of_place (Manifest.place_of_save (hfinish.wellFormed ht) hsave).1) hne

/-- Everything that the manifest of a write lists is a file under its key. -/
theorem isFile_of_mem_manifest (ht : t.WellFormed) (hkeys : (files.map (·.key)).Nodup)
    (h : (o.write files t).1 = .ok report) :
    ∀ key ∈ (o.manifest files t).files, (o.write files t).2.isFile (o.root.join key) = true := by
  obtain ⟨-, hfiles, -, -, hw⟩ := steps_of_ok h
  have hopened := o.opened_adds ht
  have hfinish := o.finish_targets files ht
  have hsaved := save_only (o.manifest files t) o.root (hfinish.wellFormed ht)
  rw [← hw] at hsaved
  intro key hkey
  rcases (mem_manifest h key).1 hkey with ⟨-, hfile⟩ | hkey
  · have htargets := writeFiles_targets (w := o.start t) o
      (Manifest.load (o.opened t) o.root).files files (hopened.wellFormed ht)
    exact FileTree.isFile_mono (htargets.keeps.trans hsaved.keeps) hfile
  · rw [wrote_of_ok h] at hkey
    obtain ⟨f, hf, rfl⟩ := List.mem_map.1 hkey
    obtain ⟨hplace, hentry⟩ := entry_of_placed (hopened.wellFormed ht) hkeys hfiles f hf
    have hkeyplace := FileTree.place_key (hfinish.wellFormed ht)
      (isContained_of_placed _ _ _ _ f hf) hplace hentry
    exact FileTree.isFile_mono hsaved (FileTree.isFile_iff.2 ⟨_, _, hkeyplace, hentry⟩)

/-- The manifest that a write saved is the one that the next write finds. -/
theorem load_after (ht : t.WellFormed) (h : (o.write files t).1 = .ok report)
    (hback : o.ReadsBack files t) :
    Manifest.load (o.write files t).2 o.root = o.manifest files t := by
  obtain ⟨-, -, hsave, -, hw⟩ := steps_of_ok h
  have hfinish := o.finish_targets files ht
  have hplace := (Manifest.place_of_save (hfinish.wellFormed ht) hsave).1
  rw [← hw, hfinish.current] at hplace
  unfold Manifest.load
  rw [FileTree.read_eq_ok_iff.2 ⟨_, hplace, entry_of_ok ht h⟩]
  exact hback

/-- The files of a write, written again with what it owned in the end. -/
theorem finish_again (ht : t.WellFormed) (hkeys : (files.map (·.key)).Nodup)
    (h : (o.write files t).1 = .ok report) :
    ∃ text, o.writeFiles (o.manifest files t).files files
        { tree := (o.write files t).2, owned := (o.manifest files t).files }
      = (.ok (), ⟨(o.write files t).2.set (o.rootPlace t ++ [".coders", "manifest.yaml"])
          (.file text), (o.manifest files t).files, report⟩) := by
  obtain ⟨-, hfiles, -, rfl, hw⟩ := steps_of_ok h
  have hopened := (o.opened_adds ht).wellFormed ht
  have hfinish := o.finish_targets files ht
  have hentry := entry_of_ok ht h
  have hsaved := save_only (o.manifest files t) o.root (hfinish.wellFormed ht)
  rw [← hw, hfinish.current] at hsaved
  have hsorted : (o.manifest files t).files.Pairwise (· < ·) :=
    sorted_owned_writeFiles o _ files ((Manifest.sorted_load _ _).filter _)
  have hmem := mem_owned_writeFiles o (Manifest.load (o.opened t) o.root).files files (o.start t)
  -- A key that is owned in the end was listed, or belongs to the one file with this key.
  have hleft : ∀ f ∈ files, f.key ∈ (o.manifest files t).files →
      f.key ∈ (Manifest.load (o.opened t) o.root).files ∨
        f ∈ o.placed (Manifest.load (o.opened t) o.root).files files (o.start t) := by
    intro f hf hkey
    rcases (hmem f.key).1 hkey with hold | hnew
    · exact .inl (List.mem_filter.1 hold).1
    · obtain ⟨g, hg, hsame⟩ := List.mem_map.1 hnew
      have hg' := (placed_sublist o _ files (o.start t)).subset hg
      exact .inr (List.inj_on_of_nodup_map hkeys hg' hf hsame ▸ hg)
  obtain ⟨text, hrun⟩ := writeFiles_again (w := o.start t) hopened
    (hsaved.wellFormed (hfinish.wellFormed ht)) hkeys hfiles hsaved.keeps hentry hsorted
    (fun f hf => (hmem f.key).2 (.inr (List.mem_map_of_mem hf))) hleft
    (fun f hf => by
      obtain ⟨hplace, hcontents⟩ := entry_of_placed hopened hkeys hfiles f hf
      exact ⟨_, FileTree.place_mono hsaved hplace, fun hnot => hsaved.entry_eq hnot hcontents⟩)
    (o.manifest files t).text
  rw [FileTree.set_eq_self (by simp) hentry] at hrun
  exact ⟨text, hrun⟩

theorem write_of_steps {t₁ t₂ : FileTree} (hroot : t.makeDirectories o.root = (.ok (), t₁))
    (hfiles : o.writeFiles (Manifest.load t₁ o.root).files files
      { tree := t₁
        owned := (Manifest.load t₁ o.root).files.filter fun key => t₁.isFile (o.root.join key) }
        = (.ok (), w))
    (hsave : Manifest.save
      { generator := s!"coders {version}", platform := o.platform.key, files := w.owned } w.tree o.root
        = (.ok (), t₂)) :
    o.write files t = (.ok w.report, t₂) := by
  rw [write, hroot]
  dsimp only
  rw [hfiles]
  dsimp only
  rw [hsave]

/-- Writing the same files again, with distinct keys, gives the same result and the same tree. -/
theorem write_write (ht : t.WellFormed) (hkeys : (files.map (·.key)).Nodup)
    (h : (o.write files t).1 = .ok report) (hback : o.ReadsBack files t) :
    o.write files (o.write files t).2 = o.write files t := by
  obtain ⟨-, -, hsave, -, hw⟩ := steps_of_ok h
  have hfinish := o.finish_targets files ht
  obtain ⟨text, hrun⟩ := finish_again ht hkeys h
  have hagain := Manifest.save_again (hfinish.wellFormed ht) hsave text
  rw [← hw, hfinish.current] at hagain
  have howned : (o.manifest files t).files.filter
      (fun key => (o.write files t).2.isFile (o.root.join key)) = (o.manifest files t).files :=
    List.filter_eq_self.2 (isFile_of_mem_manifest ht hkeys h)
  have htwice : o.write files (o.write files t).2 = (.ok report, (o.write files t).2) := by
    refine write_of_steps (w := ⟨_, (o.manifest files t).files, report⟩) (makeDirectories_root ht h)
      ?_ hagain
    rw [load_after ht h hback, howned]
    exact hrun
  exact htwice.trans (Prod.ext h.symm rfl)

/-- What a write reports as written is what it placed. -/
theorem mem_wrote_iff (h : (o.write files t).1 = .ok report) (key : String) :
    key ∈ (o.wrote files t).map (·.key) ↔
      ∃ f ∈ files, f.isContained = true ∧ f.key = key ∧ o.root.join f.path ∈ report.written := by
  obtain ⟨-, -, -, rfl, -⟩ := steps_of_ok h
  have hwritten : (o.finish files t).2.report.written
      = (o.wrote files t).map fun f => o.root.join f.path := by
    rw [finish, written_writeFiles, wrote_of_ok h]
    rfl
  have hsub : (o.wrote files t).Sublist files := wrote_of_ok h ▸ placed_sublist o _ files _
  have hin : ∀ f ∈ o.wrote files t, f.isContained = true :=
    wrote_of_ok h ▸ isContained_of_placed o _ files _
  rw [hwritten, List.mem_map]
  constructor
  · rintro ⟨f, hf, rfl⟩
    exact ⟨f, hsub.subset hf, hin f hf, rfl, List.mem_map_of_mem hf⟩
  · rintro ⟨f, -, hf, rfl, hmem⟩
    obtain ⟨g, hg, hsame⟩ := List.mem_map.1 hmem
    -- Contained paths that are joined to the root are told apart by their texts.
    obtain ⟨sep, hsep⟩ := Path.join_text o.root
    have htext := congrArg Path.text hsame
    rw [hsep _ (Path.isAbsolute_of_isContained hf),
      hsep _ (Path.isAbsolute_of_isContained (hin g hg))] at htext
    have hpath : g.path = f.path := (String.append_right_inj _).1 htext
    exact ⟨g, hg, by rw [GeneratedFile.key, GeneratedFile.key, hpath]⟩

/-- Rebuilding changes nothing. If a write of files with distinct keys succeeds, then writing them
again, overwriting or not, succeeds with the same report and leaves the whole tree as it is. And the
manifest lists afterwards what it listed before and was a file when the root was there, and the files
that the report names as written. -/
theorem write_again (ht : t.WellFormed) (hkeys : (files.map (·.key)).Nodup)
    (h : (o.write files t).1 = .ok report) (hback : o.ReadsBack files t) :
    let root := o.rootPlace t
    let after := (o.write files t).2
    o.write files after = (.ok report, after) ∧
    ∀ key, key ∈ (Manifest.stored after root).files ↔
      (key ∈ (Manifest.stored t root).files ∧ (o.opened t).isFile (o.root.join key) = true) ∨
      ∃ f ∈ files, f.isContained = true ∧ f.key = key ∧ o.root.join f.path ∈ report.written := by
  intro root after
  refine ⟨(write_write ht hkeys h hback).trans (Prod.ext h rfl), fun key => ?_⟩
  have hstored : Manifest.stored after root = o.manifest files t := stored_of_ok ht h hback
  rw [hstored, mem_manifest h, load_opened ht h, mem_wrote_iff h]

/-- A file of the user's is left alone twice, and the manifest is among the files. -/
theorem write_again_manifest :
    let o : Output := { root := ⟨"out"⟩, platform := .go }
    let t : FileTree :=
      { entries := [(["w"], .directory), (["w", "out"], .directory),
          (["w", "out", "notes.txt"], .file "mine")],
        current := ["w"] }
    let files : List GeneratedFile :=
      [⟨"notes.txt", "theirs"⟩, ⟨"src//main.go", "code"⟩, ⟨".coders/manifest.yaml", "files:\n- x\n"⟩]
    let after := (o.write files t).2
    (∃ report, o.write files after = (.ok report, after) ∧
      report.written = [⟨"out/src//main.go"⟩, ⟨"out/.coders/manifest.yaml"⟩] ∧
      report.skipped = [⟨"out/notes.txt"⟩]) ∧
    "src/main.go" ∈ (Manifest.stored after ["w", "out"]).files := by
  intro o t files after
  have hfacts : t.WellFormed ∧ (files.map (·.key)).Nodup ∧ o.rootPlace t = ["w", "out"] ∧
      Manifest.ofText (o.manifest files t).text = o.manifest files t ∧
      ∃ report ∈ (o.write files t).1.toOption,
        report.written = [⟨"out/src//main.go"⟩, ⟨"out/.coders/manifest.yaml"⟩] ∧
        report.skipped = [⟨"out/notes.txt"⟩] := by
    decide +kernel
  obtain ⟨ht, hkeys, hroot, hback, report, hreport, hwritten, hskipped⟩ := hfacts
  have hok : (o.write files t).1 = .ok report := by
    cases hw : (o.write files t).1 with
    | error e =>
      rw [hw] at hreport
      cases hreport
    | ok r =>
      rw [hw] at hreport
      cases hreport
      rfl
  have hagain := write_again ht hkeys hok hback
  rw [hroot] at hagain
  refine ⟨⟨report, hagain.1, hwritten, hskipped⟩, (hagain.2 "src/main.go").2 (.inr ?_)⟩
  refine ⟨⟨"src//main.go", "code"⟩, by simp [files], by decide, by decide, ?_⟩
  rw [hwritten]
  decide

end Output

end Scaffold
