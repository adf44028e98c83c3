import Scaffold.Proofs.Numbering
import Scaffold.Proofs.Resolution

/-!
# What holds of every document

A property that parsing a file establishes comes to hold of every finished document, by induction on
the depth of imports.

* `Session.Worked.files`: a property that every file establishes for the document it becomes holds in
  all sessions. `Session.Worked.declares`: so does a property of declarations that the parser
  establishes, whatever file it reads, and that binding keeps.
* `Entry.compile_holds`: a property of documents that files without errors have holds of all documents
  of a compilation without errors.
-/

namespace Scaffold

open Source

namespace ImportTable

variable {R : Path → Document → Prop} {Q : Document → Prop} {t t' : ImportTable} {p : Path}
  {d : Document}

/-- Every document that is found under a path is like this. -/
def Files (R : Path → Document → Prop) (t : ImportTable) : Prop :=
  ∀ p d, t.get? p = some d → R p d

theorem Files.begin (h : t.Files R) (hbegin : t.begin p = .ok (none, t')) : t'.Files R :=
  fun q d hget => h q d (by rwa [get?_begin hbegin] at hget)

theorem Files.finish (h : t.Files R) (hd : ∀ q, p.same q = true → R q d) :
    (t.finish p d).Files R := by
  intro q d' hget
  rw [get?_eq_some_iff, state?_finish] at hget
  split at hget
  · rename_i hsame
    cases hget
    exact hd q hsame
  · exact h q d' (get?_eq_some_iff.2 hget)

theorem Files.abandon (h : t.Files R) : (t.abandon p).Files R := by
  intro q d hget
  rw [get?_eq_some_iff] at hget
  cases hp : t.isInProgress p with
  | true =>
    rw [state?_abandon hp] at hget
    split at hget
    · cases hget
    · exact h q d (get?_eq_some_iff.2 hget)
  | false =>
    have hsame : (t.abandon p).state? q = t.state? q := by
      rw [ImportTable.abandon, hp]
      rfl
    exact h q d (get?_eq_some_iff.2 (hsame ▸ hget))

/-- The document of every finished file is like this. -/
def Holds (Q : Document → Prop) (t : ImportTable) : Prop :=
  ∀ p d, t.get? p = some d → Q d

theorem Holds.begin (h : t.Holds Q) (hbegin : t.begin p = .ok (none, t')) : t'.Holds Q :=
  Files.begin (R := fun _ => Q) h hbegin

theorem Holds.finish (h : t.Holds Q) (hd : Q d) : (t.finish p d).Holds Q :=
  Files.finish (R := fun _ => Q) h fun _ _ => hd

/-- Every declaration of a finished file is like this. -/
def Declares (P : Decl → Prop) (t : ImportTable) : Prop :=
  ∀ p d, t.get? p = some d → ∀ x ∈ d.decls, P x

end ImportTable

/-! ## Documents of all sessions -/

namespace Source

/-- A file that is parsed, whatever it imports, becomes such a document. -/
def Yields (R : Path → Document → Prop) : Prop :=
  ∀ {tree load text f s d s'}, parseDocument tree load text f s = (.ok d, s') →
    ∀ p, f.path.same p = true → R p d

/-- Loading a file adds only such documents. -/
def FilesAll (R : Path → Document → Prop) (load : Loader) : Prop :=
  ∀ f s, s.imports.Files R → (load f s).2.imports.Files R

variable {R : Path → Document → Prop} {tree : FileTree} {load : Loader} {text : String}
  {f : SourceFile} {s : Session}

theorem parseDocument_files (tree : FileTree) (text : String) (f : SourceFile)
    (hload : FilesAll R load) (hs : s.imports.Files R) :
    (parseDocument tree load text f s).2.imports.Files R := by
  cases htokens : tokenize text with
  | error m =>
    unfold parseDocument
    rw [htokens]
    exact hs
  | ok tokens =>
    have hloaded : ∀ {g s₁} {r : Except CompileError Document × Session},
        s₁.imports.Files R → load g s₁ = r → r.2.imports.Files R := by
      rintro g s₁ _ h rfl
      exact hload g s₁ h
    have hloading : Parser.Loading (fileEnv tree load f s) load
        (fun _ _ s' => s'.imports.Files R) fun _ s' => s'.imports.Files R :=
      ⟨fun h _ hsame => by rw [hsame.imports]; exact h, fun h _ => h, fun _ _ => rfl,
        fun h _ hrun => hloaded h hrun, fun h _ hrun => hloaded h hrun⟩
    obtain ⟨-, hok, herror⟩ := Parser.decls_comes hloading
      (show (fileStart tokens f s).session.imports.Files R from hs)
    rw [parseDocument_eq load f s htokens]
    rcases hdecls : Parser.decls (fileEnv tree load f s) (fileStart tokens f s) with ⟨e | ds, final⟩
    · rw [hdecls] at herror
      exact herror e rfl
    · rw [hdecls] at hok
      dsimp only
      rw [(sameFiles_complete _ _).imports]
      exact hok ds rfl

theorem parseText_files (hR : Yields R) (hload : FilesAll R load) (hs : s.imports.Files R) :
    (parseText tree load text f s).2.imports.Files R := by
  unfold parseText
  dsimp only
  split
  · exact hs
  · exact hs
  · rename_i imports hbegin
    have hbegun : ({ s with imports } : Session).imports.Files R := hs.begin hbegin
    have himports := parseDocument_files tree text { f with path := tree.canonical f.path } hload
      hbegun
    split
    · rename_i d s' hparse
      have hd := hR hparse
      rw [hparse] at himports
      exact himports.finish hd
    · rename_i e s' hparse
      rw [hparse] at himports
      exact himports.abandon

theorem loadFile_files (hR : Yields R) (tree : FileTree) : ∀ n, FilesAll R (loadFile tree n)
  | 0 => fun _ _ hs => hs
  | n + 1 => fun f s hs => by
    rw [loadFile]
    cases s.imports.get? (tree.canonical f.path) with
    | some d => exact hs
    | none =>
      dsimp only
      split
      · exact parseText_files hR (loadFile_files hR tree n) hs
      · cases tree.read f.path with
        | error cause => exact hs
        | ok text => exact parseText_files hR (loadFile_files hR tree n) hs

end Source

theorem Call.run_files {R : Path → Document → Prop} (hR : Yields R) (c : Call) {s : Session}
    (hs : s.imports.Files R) : (c.run s).2.imports.Files R := by
  cases c with
  | text tree source name => exact parseText_files hR (loadFile_files hR tree _) hs
  | file tree entry roots =>
    show (s.compileFile tree entry roots).2.imports.Files R
    cases hprelude : SourceFile.searchRoots { path := ⟨""⟩, roots } tree "prelude.jssp" with
    | none =>
      rw [Session.compileFile_of_none hprelude]
      exact loadFile_files hR tree _ _ s hs
    | some f =>
      rw [Session.compileFile_of_some hprelude]
      have hfirst : (s.load tree f).2.imports.Files R := loadFile_files hR tree _ f s hs
      dsimp only
      generalize s.load tree f = r at hfirst ⊢
      obtain ⟨e | d, s₁⟩ := r
      · exact hfirst
      · exact loadFile_files hR tree _ _ _ hfirst

/-- Every document that a session finds under a path is like this. -/
theorem Session.Worked.files {R : Path → Document → Prop} (hR : Yields R) {s : Session}
    (h : s.Worked) : s.imports.Files R := by
  induction h with
  | new platform => exact nofun
  | call _ c ih => exact c.run_files hR ih
  | lower _ ih => exact ih
  | reset _ ih => exact nofun

/-! ## Declarations of all sessions -/

namespace Source

/-- The parser gives only such declarations, from any file, and binding keeps them so. -/
structure Inherited (P : Decl → Prop) : Prop where
  parsed : ∀ {text : String} {env : ParserEnv} {s s' : ParserState} {ds : List Decl},
    tokenize text = .ok s.rest → Parser.decls env s = (.ok ds, s') → ∀ x ∈ ds, P x
  dataDecl : ∀ (b : Binder) (x : Decl) (ds : Diagnostics), P x → P ((b.dataDecl x).run ds).1
  otherDecl : ∀ (b : Binder) (x : Decl) (ds : Diagnostics), P x → P ((b.otherDecl x).run ds).1

variable {P : Decl → Prop}

theorem Binder.decls_inherit {bindDecl : Decl → Bind Decl}
    (h : ∀ x ds, P x → P ((bindDecl x).run ds).1) : ∀ (decls : List Decl) (ds : Diagnostics),
    (∀ x ∈ decls, P x) → ∀ x ∈ ((Binder.decls bindDecl decls).run ds).1, P x
  | [], _, _ => nofun
  | d :: rest, ds, hall => by
    obtain ⟨hd, hrest⟩ := List.forall_mem_cons.1 hall
    exact List.forall_mem_cons.2 ⟨h d ds hd, decls_inherit h rest _ hrest⟩

theorem complete_declares (hP : Inherited P) {d : Document} (s : Session)
    (hd : ∀ x ∈ d.decls, P x) : ∀ x ∈ (complete d s).1.decls, P x := by
  rw [complete_eq]
  exact Binder.decls_inherit (hP.otherDecl _) _ _ (Binder.decls_inherit (hP.dataDecl _) _ _ hd)

theorem Inherited.yields (hP : Inherited P) : Yields fun _ d => ∀ x ∈ d.decls, P x := by
  intro tree load text f s d s' h _ _
  obtain ⟨tokens, decls, final, htokens, hdecls, hcomplete⟩ := parseDocument_decls h
  have hall : ∀ x ∈ decls, P x := hP.parsed (s := fileStart tokens f s) htokens hdecls
  have hd := complete_declares hP (d := parsedDocument f s final decls) (fileEnd final) hall
  rwa [hcomplete] at hd

end Source

/-- Every declaration in the finished documents of a session is like this. -/
theorem Session.Worked.declares {P : Decl → Prop} (hP : Inherited P) {s : Session} (h : s.Worked) :
    s.imports.Declares P :=
  h.files hP.yields

/-! ## Documents of a compilation without errors -/

namespace Source

variable {Q : Document → Prop} {tree : FileTree} {text : String} {f : SourceFile} {s s' : Session}
  {d : Document}

/-- A file that is parsed without an error becomes such a document. -/
def Establishes (Q : Document → Prop) : Prop :=
  ∀ tree depth text f s d s', parseDocument tree (loadFile tree depth) text f s = (.ok d, s') →
    s'.Clean → Q d

/-- Loading a file without errors adds only such documents. -/
def HoldsAll (Q : Document → Prop) (load : Loader) : Prop :=
  ∀ f s d s', load f s = (.ok d, s') → s'.Clean → s.imports.Holds Q → s'.imports.Holds Q

theorem Run.holds {env : ParserEnv} {s s' : ParserState} (hload : env.Loads)
    (hall : HoldsAll Q env.load) (h : Run env s s') (hclean : s'.session.Clean)
    (hs : s.session.imports.Holds Q) : s'.session.imports.Holds Q := by
  induction h with
  | read h =>
    obtain ⟨more, hsession⟩ := h.session
    rw [hsession]
    exact hs
  | own s node => exact hs
  | number s => exact hs
  | bind s symbol _ _ _ => exact hs
  | inside _ _ ih => exact ih hclean hs
  | load h hroot =>
    rename_i s f d session
    exact hall f s.session d session h hclean hs
  | trans _ h' ih ih' => exact ih' hclean (ih ((h'.advances hload).clean hclean) hs)

theorem parseText_holds {depth : Nat} (hQ : Establishes Q) (hall : HoldsAll Q (loadFile tree depth))
    (h : parseText tree (loadFile tree depth) text f s = (.ok d, s')) (hclean : s'.Clean)
    (hs : s.imports.Holds Q) : s'.imports.Holds Q := by
  obtain ⟨-, rfl⟩ | ⟨imports, s₁, hbegin, hparse, rfl⟩ := parseText_ok h
  · exact hs
  · obtain ⟨items, final, t, ⟨tokens, -, -, hitems⟩, hcompletes⟩ :=
      parseDocument_parsed (loadFile_keeps depth) hparse
    have hclean' : final.session.Clean :=
      Session.Clean.of_append (s := fileEnd final) hclean hcompletes.diagnostics
    have hload : (fileEnv tree (loadFile tree depth)
        { f with path := tree.canonical f.path } { s with imports }).Loads := loadFile_keeps depth
    have hfinal : final.session.imports.Holds Q :=
      hitems.run.holds hload hall hclean' (hs.begin hbegin)
    have himports : s₁.imports = final.session.imports := congrArg (·.imports) hcompletes.session
    rw [← himports] at hfinal
    exact hfinal.finish (hQ _ _ _ _ _ _ _ hparse hclean)

theorem loadFile_holds (hQ : Establishes Q) (tree : FileTree) :
    ∀ depth : Nat, HoldsAll Q (loadFile tree depth)
  | depth, f, s, d, s', h, hclean, hs => by
    obtain ⟨-, rfl⟩ | ⟨depth', text, -, hparse, rfl⟩ := loadFile_ok h
    · exact hs
    · exact parseText_holds hQ (loadFile_holds hQ tree depth') hparse hclean hs

end Source

/-- A compilation is a use of a new session. -/
theorem Entry.compile_worked {e : Entry} {tree : FileTree} {platform : Option Platform}
    {d : Document} {s : Session} (h : e.compile tree platform = (.ok d, s)) : s.Worked := by
  cases e with
  | file path roots =>
    have hrun := Session.Worked.call (.new platform) (.file tree path roots)
    have hsame : (Call.file tree path roots).run { platform } = (.ok d, s) := h
    rwa [hsame] at hrun
  | text contents name =>
    have hrun := Session.Worked.call (.new platform) (.text tree contents name)
    have hsame : (Call.text tree contents name).run { platform } = (.ok d, s) := h
    rwa [hsame] at hrun

/-- Every document of a compilation without errors is like this. -/
theorem Entry.compile_holds {Q : Document → Prop} (hQ : Establishes Q) {e : Entry} {tree : FileTree}
    {platform : Option Platform} {d : Document} {s : Session}
    (h : e.compile tree platform = (.ok d, s)) (hclean : s.Clean) : s.imports.Holds Q := by
  have hnew : ({ platform } : Session).imports.Holds Q := nofun
  cases e with
  | file path roots =>
    simp only [compile, Session.compileFile] at h
    split at h
    · cases h
    · rename_i s₁ hprelude
      have hbefore := (loadFile_keeps _ _ _ _ _ h).1
      refine loadFile_holds hQ tree _ _ _ _ _ h hclean ?_
      obtain rfl | ⟨f, d, s₂, hload, rfl⟩ := Session.loadPrelude_ok hprelude
      · exact hnew
      · exact loadFile_holds hQ tree _ f _ d s₂ hload (hclean.of_append hbefore.diagnostics) hnew
  | text contents name =>
    have h : parseText tree (loadFile tree (Session.importDepth tree)) contents { path := name }
        { platform } = (.ok d, s) := h
    exact parseText_holds hQ (loadFile_holds hQ tree _) h hclean hnew

end Scaffold
