import Scaffold.Proofs.Erasure.Decl
import Scaffold.Proofs.Loading
import Scaffold.Proofs.Resolution
import Scaffold.Proofs.Restoring

/-!
# Compiling what is left

A tree of files is compiled, and another one with what is left of each file. File by file, the two
compilations stay abreast.

* `FileTree.Alike`: trees with the same files, whose texts are related.
* `loadFile_abreast`: by induction on the depth of imports, loading a file keeps sessions abreast.
* `Entry.compile_abreast`: the statement for a whole compilation.
-/

namespace Scaffold

/-! ## Trees -/

/-- Two directories, or two files whose texts are so related. -/
inductive FileEntry.Alike (R : String → String → Prop) : FileEntry → FileEntry → Prop where
  | directory : Alike R .directory .directory
  | file {text text' : String} : R text text' → Alike R (.file text) (.file text')

/-- The same directories and files, whose texts are so related. -/
structure FileTree.Alike (R : String → String → Prop) (t t' : FileTree) : Prop where
  entries : List.Forall₂ (fun x x' => x.1 = x'.1 ∧ x.2.Alike R x'.2) t.entries t'.entries
  current : t.current = t'.current

theorem FileEntry.Alike.mono {R S : String → String → Prop} (hRS : ∀ text text', R text text' → S text text') :
    ∀ {x x' : FileEntry}, x.Alike R x' → x.Alike S x'
  | _, _, .directory => .directory
  | _, _, .file h => .file (hRS _ _ h)

theorem FileTree.Alike.mono {R S : String → String → Prop} (hRS : ∀ text text', R text text' → S text text')
    {t t' : FileTree} (h : t.Alike R t') : t.Alike S t' :=
  ⟨h.entries.imp fun _ _ hx => ⟨hx.1, hx.2.mono hRS⟩, h.current⟩

namespace FileTree.Alike

variable {R : String → String → Prop} {t t' : FileTree} (h : t.Alike R t')
include h

theorem entry? (place : List String) :
    Option.Rel (FileEntry.Alike R) (t.entry? place) (t'.entry? place) := by
  unfold FileTree.entry?
  split
  · exact .some .directory
  · have hentries := h.entries
    generalize t.entries = xs, t'.entries = xs' at hentries
    induction hentries with
    | nil => exact .none
    | @cons x x' _ _ hx _ ih =>
      rw [List.lookup_cons, List.lookup_cons, ← hx.1]
      cases place == x.1 with
      | true => exact .some hx.2
      | false => exact ih

theorem walk (place pieces : List String) : t.walk place pieces = t'.walk place pieces := by
  induction pieces generalizing place with
  | nil => rfl
  | cons piece rest ih =>
    have hentry := h.entry? place
    rw [FileTree.walk, FileTree.walk]
    generalize t.entry? place = e, t'.entry? place = e' at hentry
    cases hentry with
    | none => rfl
    | some hentry =>
      cases hentry with
      | directory =>
        dsimp only
        rw [ih]
      | file _ => rfl

theorem place (p : Path) : t.place p = t'.place p := by
  unfold FileTree.place
  rw [h.current, h.walk]

theorem canonical (p : Path) : t.canonical p = t'.canonical p := by
  unfold FileTree.canonical
  rw [← h.place p]
  split
  · rename_i r _
    have hentry := h.entry? r
    generalize t.entry? r = e, t'.entry? r = e' at hentry
    cases hentry <;> rfl
  · rfl

theorem isFile (p : Path) : t.isFile p = t'.isFile p := by
  unfold FileTree.isFile FileTree.find
  rw [← h.place p]
  cases t.place p with
  | error e => rfl
  | ok r =>
    have hentry := h.entry? r
    simp only [bind, Except.bind]
    generalize t.entry? r = e, t'.entry? r = e' at hentry
    cases hentry with
    | none => rfl
    | some hentry => cases hentry <;> rfl

/-- The texts of a file are related. -/
theorem read {p : Path} {text : String} (hread : t.read p = .ok text) :
    ∃ text', t'.read p = .ok text' ∧ R text text' := by
  obtain ⟨r, hplace, hfile⟩ := read_eq_ok_iff.1 hread
  have hentry := h.entry? r
  rw [hfile] at hentry
  generalize hfile' : t'.entry? r = e' at hentry
  cases hentry with
  | some hentry =>
    cases hentry with
    | file htext => exact ⟨_, read_eq_ok_iff.2 ⟨r, (h.place p).symm.trans hplace, hfile'⟩, htext⟩

theorem searchRoots (f : SourceFile) (relative : String) :
    f.searchRoots t relative = f.searchRoots t' relative := by
  unfold SourceFile.searchRoots
  rw [funext h.isFile]

theorem locate (f : SourceFile) (written : String) : f.locate t written = f.locate t' written := by
  unfold SourceFile.locate
  simp only [h.searchRoots, h.isFile]

theorem importDepth : Session.importDepth t = Session.importDepth t' :=
  congrArg (· + 2) h.entries.length_eq

end FileTree.Alike

namespace Source

/-- A text is what is left of another one: its tokens are of the kinds of those that are left. -/
def ErasedText (imports : Bool) (platform : Option Platform) (text text' : String) : Prop :=
  ∀ ts, tokenize text = .ok ts →
    ∃ ts', tokenize text' = .ok ts' ∧ SameKinds ts' (erasure imports platform ts)

/-! ## Files -/

variable {tree tree' : FileTree} {load load' : Loader} {platform : Option Platform} {N : Numbers}
  {text text' : String} {f : SourceFile} {s s' s₁ : Session} {d : Document} {tokens tokens' : List Token}

/-- The parsers of a file start abreast. -/
theorem fileStart_abreast (tree tree' : FileTree) (load load' : Loader) (tokens tokens' : List Token)
    (h : s.Abreast N s') (hreading : s.imports.isInProgress f.path = true) :
    ∃ N₁, N.AddsNoPlace N₁ ∧ ParserState.Abreast N₁ N₁ (fileEnv tree load f s)
      (fileStart tokens f s) (fileEnv tree' load' f s') (fileStart tokens' f s') := by
  have hfile := h.inStep.addFile f.path
  have hscope := hfile.addScope (f := s.symbols.files.size) .file .none s.symbols.files.size
    s'.symbols.files.size (s.symbols.scopes.size :: s.stack) (s'.symbols.scopes.size :: s'.stack)
  have hle := (N.le_addFile s.symbols.files.size s'.symbols.files.size).trans
    (Numbers.le_addScope s.symbols.files.size s.symbols.scopes.size s'.symbols.scopes.size)
  have hreading' := h.imports.isInProgress f.path ▸ hreading
  refine ⟨_, ⟨hle, id⟩, ⟨hscope, .inr ⟨rfl, rfl⟩, rfl, .inr ⟨rfl, rfl, rfl⟩,
    ⟨_, scopes_fileTable f s.symbols, rfl⟩, .inr ⟨rfl, rfl, rfl⟩, fun hq => ?_, fun _ => rfl, rfl,
    ImportTable.get?_of_isInProgress hreading, ImportTable.get?_of_isInProgress hreading'⟩,
    h.imports.mono hle, fun hq => ?_, fun hq _ => hq, hreading⟩
  · exact absurd (h.places hq) (Nat.lt_irrefl _)
  · show _ < (s.symbols.files.push f.path).size
    rw [Array.size_push]
    exact Nat.lt_succ_of_lt (h.places hq)

section

variable (hlocate : ∀ (f : SourceFile) written, f.locate tree' written = f.locate tree written)
  (hkeep : Keeps load) (hkeep' : Keeps load') (hload : LoadsAbreast platform load load')
  (htext : ErasedText false platform text text')
include hlocate hkeep hkeep' hload htext

/-- What is left of a file that was started is parsed as the file is. -/
theorem parseDocument_abreast (h : s.Abreast N s') (hs : s.Standing) (hplatform : s.platform = platform)
    (hreading : s.imports.isInProgress f.path = true)
    (hparse : parseDocument tree load text f s = (.ok d, s₁)) (hclean : s₁.Clean) :
    ∃ N₁ d' s₁', parseDocument tree' load' text' f s' = (.ok d', s₁') ∧
      LoadedAbreast N s d s₁ N₁ d' s₁' := by
  obtain ⟨tokens, ds, final, htokens, hdecls, hcomplete⟩ := parseDocument_decls hparse
  obtain ⟨tokens', htokens', hkinds⟩ := htext tokens htokens
  obtain ⟨N₀, hle₀, hstart⟩ := fileStart_abreast tree tree' load load' tokens tokens' h hreading
  have ha := Parser.decls_advances (hkeep.env tree f s) rfl hdecls
  have hfile : (fileTable f s.symbols).IsFile s.symbols.scopes.size :=
    ⟨_, scopes_fileTable f s.symbols, rfl⟩
  obtain ⟨t, hcompletes⟩ := complete_ok (hfile.grows ha.symbols) hcomplete
  have hclean₀ : final.session.Clean :=
    Session.Clean.of_append (s := fileEnd final) hclean hcompletes.diagnostics
  obtain ⟨N₁, ds', final', hle₁, hdecls', halike, hend⟩ := Parser.decls_keep_up
    (hkeep.env tree f s) (hkeep'.env tree' f s') (fun written => hlocate f written)
    (hplatform ▸ hload) hstart (fileStart_standing hs) rfl hdecls hclean₀ (hplatform ▸ hkinds)
  have hsession : (fileEnd final).InStep N₁ False [] (fileEnd final') :=
    { hend.inStep.session with }
  have hd : (parsedDocument f s final ds).Alike N₁ (N₁.unbound False)
      (parsedDocument f s' final' ds') :=
    ⟨hend.inStep.file, rfl, rfl, hend.inStep.root, hend.inStep.imports, halike, .nil⟩
  obtain ⟨N₂, hle₂, hstep, hdocument⟩ := complete_alike hsession hd
    ⟨hend.inStep.file, rfl, hend.inStep.root, hend.inStep.isFile, hend.inStep.reading⟩ rfl rfl
  have hfiles := sameFiles_complete (parsedDocument f s final ds) (fileEnd final)
  have hfiles' := sameFiles_complete (parsedDocument f s' final' ds') (fileEnd final')
  have hresult : parseDocument tree' load' text' f s'
      = (.ok (complete (parsedDocument f s' final' ds') (fileEnd final')).1,
        (complete (parsedDocument f s' final' ds') (fileEnd final')).2) := by
    rw [parseDocument_eq load' f s' htokens', hdecls']
  rw [hcomplete] at hstep hdocument hfiles
  refine ⟨N₂, _, _, hresult, (hle₀.le.trans hle₁).trans hle₂.le, ⟨hstep, ?_, fun hq => ?_⟩,
    fun hq hlt => hle₀.places (hend.frozen (hle₂.places hq) hlt), hdocument⟩
  · rw [hfiles.imports, hfiles'.imports]
    exact hend.imports.mono hle₂.le
  · rw [hfiles.files]
    exact hend.places (hle₂.places hq)

/-- What is left of a text is parsed as the text is, if no file of this name is finished. -/
theorem parseText_abreast (hcanonical : tree.canonical f.path = tree'.canonical f.path)
    (h : s.Abreast N s') (hs : s.Standing) (hplatform : s.platform = platform)
    (hnew : s.imports.get? (tree.canonical f.path) = none)
    (hparse : parseText tree load text f s = (.ok d, s₁)) (hclean : s₁.Clean) :
    ∃ N₁ d' s₁', parseText tree' load' text' f s' = (.ok d', s₁') ∧
      LoadedAbreast N s d s₁ N₁ d' s₁' := by
  obtain ⟨hget, -⟩ | ⟨imports, s₂, hbegin, hdocument, rfl⟩ := parseText_ok hparse
  · rw [hnew] at hget
    cases hget
  obtain ⟨imports', hbegin', halike⟩ := h.imports.begin hbegin
  have hstart : Session.Abreast N { s with imports } { s' with imports := imports' } :=
    h.withImports halike
  obtain ⟨N₁, d', s₂', hdocument', hle, hsession, hfrozen, hd⟩ :=
    parseDocument_abreast (f := { f with path := tree.canonical f.path }) hlocate hkeep hkeep' hload
      htext hstart (begun_standing hs hbegin) hplatform (begun_isInProgress hbegin (.refl _)) hdocument
      hclean
  have hfinish := hsession.withImports (hsession.imports.finish (tree.canonical f.path) hd)
  refine ⟨N₁, d', _, ?_, ⟨hle, hfinish, hfrozen, hd⟩⟩
  rw [hcanonical] at hbegin' hdocument' ⊢
  rw [parseText_new hbegin']
  dsimp only
  rw [hdocument']

end

theorem loadFile_known {depth : Nat} (h : s.imports.get? (tree.canonical f.path) = some d) :
    loadFile tree (depth + 1) f s = (.ok d, s) := by
  rw [loadFile, h]

theorem loadFile_new {depth : Nat} (hget : s.imports.get? (tree.canonical f.path) = none)
    (hprogress : s.imports.isInProgress (tree.canonical f.path) = false)
    (hread : tree.read f.path = .ok text) :
    loadFile tree (depth + 1) f s = parseText tree (loadFile tree depth) text f s := by
  rw [loadFile, hget, hprogress, hread]
  rfl

/-- Loading the files of what is left keeps sessions abreast. -/
theorem loadFile_abreast (htree : tree.Alike (ErasedText false platform) tree') : ∀ depth : Nat,
    LoadsAbreast platform (loadFile tree depth) (loadFile tree' depth)
  | 0 => fun _ _ _ _ _ _ _ _ _ h => by cases h
  | depth + 1 => by
    intro N f s s' d s₁ h hs hplatform hrun hclean
    have hcanonical := htree.canonical f.path
    have hget' : Option.Rel (fun d d' => d.Alike N (N.bound False) d')
        (s.imports.get? (tree.canonical f.path)) (s'.imports.get? (tree'.canonical f.path)) := by
      rw [← hcanonical]
      exact h.imports.get? _
    cases hget : s.imports.get? (tree.canonical f.path) with
    | some d₀ =>
      rw [loadFile_known hget] at hrun
      cases hrun
      rw [hget] at hget'
      generalize hfound : s'.imports.get? (tree'.canonical f.path) = x at hget'
      cases hget' with
      | some hd => exact ⟨N, _, s', loadFile_known hfound, .refl N, h, fun hq _ => hq, hd⟩
    | none =>
      obtain ⟨hfound, -⟩ | ⟨_, text, hread, hparse, hdepth⟩ := loadFile_ok hrun
      · rw [hget] at hfound
        cases hfound
      cases hdepth
      obtain ⟨text', hread', htext⟩ := htree.read hread
      have hlocate := fun (f : SourceFile) written => (htree.locate f written).symm
      obtain ⟨N₁, d', s₁', hparse', hloaded⟩ := parseText_abreast hlocate (loadFile_keeps depth)
        (loadFile_keeps depth) (loadFile_abreast htree depth) htext hcanonical h hs hplatform hget hparse
        hclean
      have hprogress : s.imports.isInProgress (tree.canonical f.path) = false := by
        by_contra hprogress
        rw [parseText_inProgress (Bool.not_eq_false _ ▸ hprogress)] at hparse
        cases hparse
      rw [h.imports.isInProgress, hcanonical] at hprogress
      rw [hget] at hget'
      generalize hfound : s'.imports.get? (tree'.canonical f.path) = x at hget'
      cases hget'
      exact ⟨N₁, d', s₁', (loadFile_new hfound hprogress hread').trans hparse', hloaded⟩

end Source

/-! ## Compilations -/

open Source

variable {tree tree' : FileTree} {platform : Option Platform}

theorem Session.load_abreast (htree : tree.Alike (ErasedText false platform) tree') :
    LoadsAbreast platform (fun f s => s.load tree f) (fun f s => s.load tree' f) := by
  unfold Session.load
  rw [← htree.importDepth]
  exact loadFile_abreast htree _

theorem Session.loadPrelude_abreast (htree : tree.Alike (ErasedText false platform) tree')
    {roots : List Path} {N : Numbers} {s s' s₁ : Session} (h : s.Abreast N s') (hs : s.Standing)
    (hplatform : s.platform = platform) (hrun : s.loadPrelude tree roots = (.ok (), s₁))
    (hclean : s₁.Clean) :
    ∃ N₁ s₁', s'.loadPrelude tree' roots = (.ok (), s₁') ∧ s₁.Abreast N₁ s₁' := by
  unfold Session.loadPrelude at hrun ⊢
  dsimp only at hrun ⊢
  rw [← htree.searchRoots]
  cases hsearch : SourceFile.searchRoots { path := ⟨""⟩, roots } tree "prelude.jssp" with
  | none =>
    rw [hsearch] at hrun
    cases hrun
    exact ⟨N, s', rfl, h⟩
  | some f =>
    rw [hsearch] at hrun
    dsimp only at hrun ⊢
    rcases hload : s.load tree f with ⟨e | d, s₂⟩ <;> rw [hload] at hrun <;> cases hrun
    obtain ⟨N₁, d', s₂', hload', hloaded⟩ := Session.load_abreast htree N f s s' d s₂ h hs hplatform hload
      hclean
    have hload'' : s'.load tree' f = (.ok d', s₂') := hload'
    rw [hload'']
    exact ⟨N₁, _, rfl, hloaded.session.setPrelude hloaded.document.scope⟩

namespace Entry

/-- The same file is compiled, or texts under one name that are so related. -/
inductive Alike (R : String → String → Prop) : Entry → Entry → Prop where
  | file (path : Path) (roots : List Path) : Alike R (.file path roots) (.file path roots)
  | text {contents contents' : String} (name : Path) : R contents contents' →
    Alike R (.text contents name) (.text contents' name)

theorem Alike.mono {R S : String → String → Prop} (hRS : ∀ text text', R text text' → S text text') :
    ∀ {e e' : Entry}, e.Alike R e' → e.Alike S e'
  | _, _, .file path roots => .file path roots
  | _, _, .text name h => .text name (hRS _ _ h)

/-- What is left of a program without what is not for the target is compiled as the program is. -/
theorem compile_abreast {e e' : Entry} {d : Document} {s : Session}
    (htree : tree.Alike (ErasedText false platform) tree') (he : e.Alike (ErasedText false platform) e')
    (hrun : e.compile tree platform = (.ok d, s)) (hclean : s.Clean) :
    ∃ N d' s', e'.compile tree' platform = (.ok d', s') ∧ s.Abreast N s' ∧
      d.Alike N (N.bound False) d' := by
  cases he with
  | file path roots =>
    simp only [compile, Session.compileFile] at hrun ⊢
    split at hrun
    · cases hrun
    · rename_i s₁ hprelude
      obtain ⟨hbefore, -⟩ := loadFile_keeps _ _ _ _ _ hrun
      have hclean₁ : s₁.Clean := hclean.of_append hbefore.diagnostics
      obtain ⟨hs₁, hplatform⟩ : s₁.Standing ∧ s₁.platform = platform := by
        obtain rfl | ⟨f, d₁, s₂, hload, rfl⟩ := Session.loadPrelude_ok hprelude
        · exact ⟨fresh_standing, rfl⟩
        · obtain ⟨hbefore₂, -⟩ := loadFile_keeps _ _ _ _ _ hload
          exact ⟨(hbefore₂.standing fresh_standing).withPrelude _, hbefore₂.platform⟩
      obtain ⟨N₁, s₁', hprelude', h₁⟩ := Session.loadPrelude_abreast htree (.fresh platform)
        fresh_standing rfl hprelude hclean₁
      obtain ⟨N₂, d', s', hload, hloaded⟩ := Session.load_abreast htree N₁ { path, roots } s₁ s₁' d s
        h₁ hs₁ hplatform hrun hclean
      rw [hprelude']
      exact ⟨N₂, d', s', hload, hloaded.session, hloaded.document⟩
  | @text contents contents' name htext =>
    have hload := loadFile_abreast htree (Session.importDepth tree)
    have hlocate := fun (f : SourceFile) written => (htree.locate f written).symm
    obtain ⟨N₁, d', s', hparse, hloaded⟩ := parseText_abreast (f := { path := name }) hlocate
      (loadFile_keeps _) (loadFile_keeps _) hload htext (htree.canonical name) (.fresh platform)
      fresh_standing rfl rfl hrun hclean
    rw [htree.importDepth] at hparse
    exact ⟨N₁, d', s', hparse, hloaded.session, hloaded.document⟩

end Entry

end Scaffold
