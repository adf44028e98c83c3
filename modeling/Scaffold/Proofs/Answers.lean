import Mathlib.Data.List.Find
import Mathlib.Data.List.Forall2
import Scaffold.Prompt
import Scaffold.Proofs.ImportTable
import Scaffold.Proofs.Replies

/-!
# The files of all answers

The blocks that a generation service replies are merged in the order of the prompts and, within a
reply, of the reply. Of blocks whose paths have the same parts the first is kept (`FirstOf`). Two
contained paths lead to one place when they have the same names, and they have the same parts when
moreover both or neither of them start with a dot.

* `CodeModel.request_first_iff`: every block is represented by a file with its key; and the files have
  distinct keys and are the first blocks of their places exactly if no two blocks lead to one place
  under paths of which one starts with a dot and the other does not.
-/

namespace Scaffold

/-! ## Contained paths -/

namespace Path

variable {p q : Path}

def startsHere (p : Path) : Bool :=
  p.parts.head? == some .here

theorem filterMap_ofPiece_of_descends (pieces : List String) (h : ∀ x ∈ pieces, Descends x) :
    pieces.filterMap Part.ofPiece? = (namesOf pieces).map .name := by
  induction pieces with
  | nil => rfl
  | cons x rest ih =>
    have hx : x ≠ ".." := h x (by simp)
    have ih := ih fun y hy => h y (by simp [hy])
    by_cases h1 : x = ""
    · simpa [Part.ofPiece?, namesOf, h1] using ih
    · by_cases h2 : x = "."
      · simpa [Part.ofPiece?, namesOf, h2] using ih
      · simpa [Part.ofPiece?, namesOf, h1, h2, hx] using ih

/-- A contained path is perhaps a dot, and then names. -/
theorem parts_of_isContained (h : p.isContained = true) :
    p.parts = (if p.startsHere then [.here] else []) ++ p.names.map .name := by
  have hd := descends_of_isContained h
  have hrest := filterMap_ofPiece_of_descends p.pieces hd
  rw [← names_eq_namesOf hd] at hrest
  have habs := isAbsolute_of_isContained h
  by_cases hhere : p.pieces.head? = some "."
  · have hparts : p.parts = .here :: p.names.map .name := by
      simp [parts, habs, hhere, hrest]
    simp [startsHere, hparts]
  · have hparts : p.parts = p.names.map .name := by
      simp [parts, habs, hhere, hrest]
    have hstarts : p.startsHere = false := by
      rw [startsHere, hparts]
      cases p.names <;> simp
    simp [hparts, hstarts]

/-- Contained paths are the same if they have the same names and both or neither start with a dot. -/
theorem same_iff_names (hp : p.isContained = true) (hq : q.isContained = true) :
    p.same q = true ↔ p.names = q.names ∧ p.startsHere = q.startsHere := by
  rw [same_iff]
  constructor
  · intro h
    exact ⟨by rw [names, names, h], by rw [startsHere, startsHere, h]⟩
  · rintro ⟨hnames, hstarts⟩
    rw [parts_of_isContained hp, parts_of_isContained hq, hnames, hstarts]

/-- Contained paths lead to one place under a root if they have one key. -/
theorem placeFrom_join_eq_iff (root : Path) (current : List String) {p q : String}
    (hp : (Path.mk p).isContained = true) (hq : (Path.mk q).isContained = true) :
    (root.join p).placeFrom current = (root.join q).placeFrom current ↔
      (Path.mk p).key = (Path.mk q).key := by
  rw [placeFrom_join_of_isContained root p current hp, placeFrom_join_of_isContained root q current hq,
    List.append_right_inj, key_inj]

end Path

/-! ## The first file of each path -/

/-- The files are the first ones of their paths among some blocks, one for each path. -/
structure FirstOf (files blocks : List GeneratedFile) : Prop where
  /-- Every block has a file under its path. -/
  covers : ∀ b ∈ blocks, ∃ f ∈ files, (Path.mk f.path).same ⟨b.path⟩ = true
  first : ∀ f ∈ files, blocks.find? (fun b => (Path.mk b.path).same ⟨f.path⟩) = some f
  apart : files.Pairwise fun f g => (Path.mk f.path).same ⟨g.path⟩ = false

namespace FirstOf

variable {kept blocks : List GeneratedFile} {file : GeneratedFile}

theorem nil : FirstOf [] [] :=
  ⟨by simp, by simp, .nil⟩

/-- A block whose path has a file is passed over. -/
theorem pass (h : FirstOf kept blocks)
    (htaken : kept.any (fun f => (Path.mk f.path).same ⟨file.path⟩) = true) :
    FirstOf kept (blocks ++ [file]) where
  covers := by
    intro b hb
    rcases List.mem_append.1 hb with hb | hb
    · exact h.covers b hb
    · obtain rfl : b = file := by simpa using hb
      exact List.any_eq_true.1 htaken
  first := fun f hf => by rw [List.find?_append, h.first f hf, Option.some_or]
  apart := h.apart

/-- A block whose path has no file becomes one. -/
theorem take (h : FirstOf kept blocks)
    (hfree : kept.any (fun f => (Path.mk f.path).same ⟨file.path⟩) = false) :
    FirstOf (kept ++ [file]) (blocks ++ [file]) := by
  have hfree : ∀ f ∈ kept, (Path.mk f.path).same ⟨file.path⟩ = false := by
    simpa using hfree
  refine ⟨fun b hb => ?_, fun f hf => ?_, ?_⟩
  · rcases List.mem_append.1 hb with hb | hb
    · obtain ⟨f, hf, hsame⟩ := h.covers b hb
      exact ⟨f, List.mem_append_left _ hf, hsame⟩
    · obtain rfl : b = file := by simpa using hb
      exact ⟨b, by simp, Path.same_iff.2 rfl⟩
  · rcases List.mem_append.1 hf with hf | hf
    · rw [List.find?_append, h.first f hf, Option.some_or]
    · obtain rfl : f = file := by simpa using hf
      -- A block under the path of the new file would have a file already.
      have hnew : blocks.find? (fun b => (Path.mk b.path).same ⟨f.path⟩) = none := by
        refine List.find?_eq_none.2 fun b hb hsame => ?_
        obtain ⟨g, hg, hgb⟩ := h.covers b hb
        have := hfree g hg
        rw [Path.same_iff.2 ((Path.same_iff.1 hgb).trans (Path.same_iff.1 hsame))] at this
        cases this
      rw [List.find?_append, hnew]
      simp [Path.same_iff]
  · refine List.pairwise_append.2 ⟨h.apart, List.pairwise_singleton _ _, fun f hf g hg => ?_⟩
    obtain rfl : g = file := by simpa using hg
    exact hfree f hf

/-- Adding files in order keeps the first ones. -/
theorem keepNew : ∀ {kept blocks : List GeneratedFile} (new : List GeneratedFile),
    FirstOf kept blocks → FirstOf (Scaffold.keepNew kept new) (blocks ++ new)
  | kept, blocks, [], h => by rwa [Scaffold.keepNew, List.append_nil]
  | kept, blocks, file :: rest, h => by
    rw [Scaffold.keepNew, List.append_cons blocks]
    split
    · rename_i htaken
      exact keepNew rest (h.pass htaken)
    · rename_i hfree
      exact keepNew rest (h.take (by simpa using hfree))

end FirstOf

/-! ## Rendering -/

namespace CodeModel

variable {m : CodeModel} {platform : Platform} {p : Project} {service : GenerationService}
  {files : List GeneratedFile}

/-- Files come from the answers to all prompts. -/
theorem request_ok (h : m.request platform p service = .ok files) :
    ∃ answers, List.Forall₂ (fun q bs => Prompt.answer service q = .ok bs) (m.prompts platform p)
      answers ∧ files = keepNew [] answers.flatten := by
  have hmap : ∀ (qs : List Prompt) (answers : List (List GeneratedFile)),
      qs.mapM (Prompt.answer service) = .ok answers →
        List.Forall₂ (fun q bs => Prompt.answer service q = .ok bs) qs answers := by
    intro qs
    induction qs with
    | nil =>
      intro answers hq
      cases hq
      exact .nil
    | cons q qs ih =>
      intro answers hq
      rw [List.mapM_cons] at hq
      cases ha : Prompt.answer service q with
      | error e =>
        rw [ha] at hq
        cases hq
      | ok bs =>
        rw [ha] at hq
        cases hrest : qs.mapM (Prompt.answer service) with
        | error e =>
          rw [hrest] at hq
          cases hq
        | ok rest =>
          rw [hrest] at hq
          cases hq
          exact .cons ha (ih rest hrest)
  unfold request at h
  cases ha : (m.prompts platform p).mapM (Prompt.answer service) with
  | error e =>
    rw [ha] at h
    cases h
  | ok answers =>
    rw [ha] at h
    cases h
    exact ⟨answers, hmap _ _ ha, rfl⟩

theorem isContained_of_answers {qs : List Prompt} {answers : List (List GeneratedFile)}
    (h : List.Forall₂ (fun q bs => Prompt.answer service q = .ok bs) qs answers) :
    ∀ b ∈ answers.flatten, b.isContained = true := by
  induction h with
  | nil => simp
  | @cons q bs qs answers hq _ ih =>
    intro b hb
    rw [List.flatten_cons, List.mem_append] at hb
    refine hb.elim (fun hb => ?_) (ih b)
    unfold Prompt.answer at hq
    cases hreply : service q with
    | error e =>
      rw [hreply] at hq
      cases hq
    | ok reply =>
      rw [hreply] at hq
      exact ((Reply.files_eq_ok_iff.1 hq).2.files_formed b hb).1

/-- The files of a model are the blocks of all answers, in the order of the prompts and then of the
replies, less those whose path has been there. Every block has a file with its key. The files have
distinct keys, and each is the first block that leads to its place under the output root, exactly if
blocks that lead to one place are written with a dot in front all or none. -/
theorem request_first_iff (h : m.request platform p service = .ok files) (root : Path)
    (current : List String) :
    ∃ answers,
      List.Forall₂ (fun q bs => Prompt.answer service q = .ok bs) (m.prompts platform p) answers ∧
      (∀ b ∈ answers.flatten, ∃ f ∈ files, f.key = b.key) ∧
      (((files.map (·.key)).Nodup ∧ ∀ f ∈ files, answers.flatten.find? (fun b =>
          (root.join b.path).placeFrom current = (root.join f.path).placeFrom current) = some f) ↔
        ∀ b ∈ answers.flatten, ∀ b' ∈ answers.flatten, b.key = b'.key →
          (Path.mk b.path).startsHere = (Path.mk b'.path).startsHere) := by
  obtain ⟨answers, hanswers, rfl⟩ := request_ok h
  have hin := isContained_of_answers hanswers
  have hfirst : FirstOf (keepNew [] answers.flatten) answers.flatten := FirstOf.nil.keepNew _
  have hsub : ∀ f ∈ keepNew [] answers.flatten, f ∈ answers.flatten := fun f hf =>
    List.mem_of_find?_eq_some (hfirst.first f hf)
  have hsame : ∀ {f g : GeneratedFile}, f ∈ answers.flatten → g ∈ answers.flatten →
      ((Path.mk f.path).same ⟨g.path⟩ = true ↔
        f.key = g.key ∧ (Path.mk f.path).startsHere = (Path.mk g.path).startsHere) := fun hf hg => by
    rw [Path.same_iff_names (hin _ hf) (hin _ hg), GeneratedFile.key, GeneratedFile.key,
      Path.key_inj]
  refine ⟨answers, hanswers, fun b hb => ?_, fun ⟨hnodup, _⟩ b hb b' hb' hkey => ?_,
    fun hdots => ⟨?_, fun f hf => ?_⟩⟩
  · obtain ⟨f, hf, hfb⟩ := hfirst.covers b hb
    exact ⟨f, hf, ((hsame (hsub f hf) hb).1 hfb).1⟩
  · -- The files of the two blocks have one key, so they are one file.
    obtain ⟨f, hf, hfb⟩ := hfirst.covers b hb
    obtain ⟨f', hf', hfb'⟩ := hfirst.covers b' hb'
    obtain ⟨hfk, hfs⟩ := (hsame (hsub f hf) hb).1 hfb
    obtain ⟨hfk', hfs'⟩ := (hsame (hsub f' hf') hb').1 hfb'
    obtain rfl := List.inj_on_of_nodup_map hnodup hf hf' (hfk.trans (hkey.trans hfk'.symm))
    exact hfs.symm.trans hfs'
  · refine List.pairwise_map.2 (hfirst.apart.imp_of_mem fun {f g} hf hg hfg hkey => ?_)
    rw [(hsame (hsub f hf) (hsub g hg)).2 ⟨hkey, hdots f (hsub f hf) g (hsub g hg) hkey⟩] at hfg
    cases hfg
  · have hplace : ∀ b ∈ answers.flatten,
        decide ((root.join b.path).placeFrom current = (root.join f.path).placeFrom current)
          = (Path.mk b.path).same ⟨f.path⟩ := by
      intro b hb
      rw [Bool.eq_iff_iff, decide_eq_true_iff, hsame hb (hsub f hf),
        Path.placeFrom_join_eq_iff root current (hin b hb) (hin f (hsub f hf))]
      exact ⟨fun hkey => ⟨hkey, hdots b hb f (hsub f hf) hkey⟩, And.left⟩
    rw [List.find?_congr hplace]
    exact hfirst.first f hf

/-- Two prompts are answered with two spellings of one path; the file of the first is kept. -/
theorem request_first_iff_spellings :
    let m : CodeModel := { dataTypes := [{ name := "P", kind := .record, origin := ⟨1, 1, 0⟩ }] }
    let service : GenerationService := fun q =>
      .ok (if q.id == "manifest" then "```file:b/./c.txt\nlast\n```\n"
        else "```file: b//c.txt\nfirst\n```\nsome words\n```file:.\n```\n")
    let files : List GeneratedFile := [⟨"b//c.txt", "first\n"⟩, ⟨".", ""⟩]
    m.request .python {} service = .ok files ∧ (files.map (·.key)).Nodup ∧
      (files.map (·.key)) = ["b/c.txt", ""] := by
  intro m service files
  have hrequest : m.request .python {} service = .ok files := by decide +kernel
  obtain ⟨answers, hanswers, -, hiff⟩ := request_first_iff hrequest ⟨"out"⟩ []
  have hblocks : answers.flatten = files ++ [⟨"b/./c.txt", "last\n"⟩] := by
    have hprompts : (m.prompts .python {}).map (Prompt.answer service)
        = [.ok files, .ok [⟨"b/./c.txt", "last\n"⟩]] := by decide +kernel
    have hanswers := List.forall₂_map_left_iff (R := (· = Except.ok ·)).2 hanswers
    rw [hprompts] at hanswers
    obtain _ | ⟨hfirst, _ | ⟨hlast, _ | _⟩⟩ := hanswers
    cases hfirst
    cases hlast
    rfl
  rw [hblocks] at hiff
  exact ⟨hrequest, (hiff.2 (by decide)).1, by decide⟩

/-- A path and the same path with a dot in front are two files with one key. -/
theorem request_repeats_key :
    let service : GenerationService := fun _ =>
      .ok "```file:a.txt\nfirst\n```\n```file:./a.txt\nsecond\n```\n"
    let files : List GeneratedFile := [⟨"a.txt", "first\n"⟩, ⟨"./a.txt", "second\n"⟩]
    CodeModel.request {} .python {} service = .ok files ∧ ¬ (files.map (·.key)).Nodup := by
  decide +kernel

end CodeModel

end Scaffold
