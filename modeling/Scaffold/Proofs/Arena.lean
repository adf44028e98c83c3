import Scaffold.Proofs.Documents
import Scaffold.Proofs.Parser.Totality
import Scaffold.Proofs.SymbolTable.Arena

/-!
# The symbols of a session at every moment

Scopes are made and names are bound by the parser, by the files that it loads in the middle of a file,
and when result shapes are declared. Files so interleave, and each closes its scopes when it is
complete. `Occurs` lists the moments of a compilation, between calls and inside them.

* `Moves.houses`: reading keeps the table an arena, whatever is read, with the scopes that are open.
* `loadFile_lodges`, `Call.run_houses`: loading does, at any depth, and calls do.
* `occurs_arena`: the table is an arena at every moment, and names are declared in open scopes only.
-/

namespace Scaffold

open Source

/-- The table is an arena, and the finished documents have scopes of files. -/
structure Session.Housed (s : Session) : Prop where
  arena : s.symbols.Arena
  documents : s.imports.Files fun _ d => s.symbols.IsFile d.scope

open SymbolTable (Lasts anyFile)

/-- Documents keep their scopes. -/
theorem Session.Housed.documents_lasts {s s' : Session} {live : FileId → Prop} (h : s.Housed)
    (hlasts : Lasts live s.symbols s'.symbols) (himports : s'.imports = s.imports) :
    s'.imports.Files fun _ d => s'.symbols.IsFile d.scope := by
  rw [himports]
  exact fun p d hd => hlasts.isFile (h.documents p d hd)

namespace Source

/-- The scope is open, and one of this file. -/
def IsOpen (t : SymbolTable) (file : FileId) (scope : ScopeId) : Prop :=
  ∃ sc, t.scopes[scope]? = some sc ∧ sc.file = file ∧ sc.closed = false

theorem IsOpen.lasts {t t' : SymbolTable} {file : FileId} {scope : ScopeId}
    (h : IsOpen t file scope) (hk : Lasts anyFile t t') : IsOpen t' file scope := by
  obtain ⟨sc, hsc, hfile, hopen⟩ := h
  obtain ⟨sc', hsc', hstill⟩ := hk.scopes hsc
  exact ⟨sc', hsc', hstill.file.trans hfile, (hstill.closed trivial).trans hopen⟩

/-! ## Reading -/

/-- In the middle of a file: its own scope is that of a file, and the innermost scope is open. -/
structure Midway (env : ParserEnv) (s : ParserState) : Prop where
  housed : s.session.Housed
  root : s.session.symbols.IsFile env.root
  current : IsOpen s.session.symbols env.file (s.scope env)

/-- What loading a file leaves. -/
structure Lodges (s : Session) (r : Except CompileError Document × Session) : Prop where
  housed : r.2.Housed
  stack : r.2.stack = s.stack
  lasts : Lasts anyFile s.symbols r.2.symbols
  file : ∀ d, r.1 = .ok d → r.2.symbols.IsFile d.scope

/-- Loading any file leaves this. -/
def LodgesAll (load : Loader) : Prop :=
  ∀ f s, s.Housed → Lodges s (load f s)

/-- What moves leave. -/
structure Left (env : ParserEnv) (s s' : ParserState) : Prop where
  inside : Midway env s'
  stack : s'.session.stack = s.session.stack
  lasts : Lasts anyFile s.session.symbols s'.session.symbols

section

variable {env : ParserEnv} {s s' : ParserState}

/-- With the same stack, the innermost scope is the same. -/
theorem Midway.lasts (h : Midway env s) (hhoused : s'.session.Housed)
    (hstack : s'.session.stack = s.session.stack)
    (hk : Lasts anyFile s.session.symbols s'.session.symbols) : Left env s s' := by
  refine ⟨⟨hhoused, hk.isFile h.root, ?_⟩, hstack, hk⟩
  have hscope : s'.scope env = s.scope env := by
    unfold ParserState.scope
    rw [hstack]
  rw [hscope]
  exact h.current.lasts hk

theorem Midway.enter (h : Midway env s) {kind : ScopeKind} (hkind : kind ≠ .file) :
    Midway env (s.enter env kind) := by
  have hk := SymbolTable.addScope_lasts s.session.symbols kind (some (s.scope env)) env.file
  obtain ⟨sc, hsc, hfile, -⟩ := h.current
  refine ⟨⟨h.housed.arena.addScope ?_ ?_ ?_, fun p d hd => hk.isFile (h.housed.documents p d hd)⟩,
    hk.isFile h.root, _, SymbolTable.addScope_new _ _ _ _, rfl, rfl⟩
  · simp [hkind]
  · rintro p hp
    cases hp
    exact ⟨sc, hsc, hfile⟩
  · exact hfile ▸ (h.housed.arena.fits hsc).file

theorem declare_symbols (name : String) (kind : SymbolKind) (pos : Position) (node : NodeId) :
    (Parser.declare name kind pos node true env s).2.session.symbols =
      (s.session.symbols.declare (s.scope env) (s.symbol env name kind pos node)).2 := by
  rw [Parser.declare_true, SymbolTable.declare_eq]
  cases s.session.symbols.lookup (s.scope env) (s.symbol env name kind pos node).name <;> rfl

theorem declare_aside (name : String) (kind : SymbolKind) (pos : Position) (node : NodeId) :
    (Parser.declare name kind pos node true env s).2.session.stack = s.session.stack ∧
      (Parser.declare name kind pos node true env s).2.session.imports = s.session.imports := by
  rw [Parser.declare_true]
  dsimp only
  split <;> exact ⟨rfl, rfl⟩

/-- Everything that a parser can do. -/
theorem Moves.houses (hload : LodgesAll env.load) (h : Moves env s s') (hs : Midway env s) :
    Left env s s' := by
  induction h with
  | quiet h =>
    rename_i s s'
    have hlasts : Lasts anyFile s.session.symbols s'.session.symbols := by
      rw [h.session.symbols]
      exact .refl _
    exact hs.lasts ⟨h.session.symbols ▸ hs.housed.arena, hs.housed.documents_lasts hlasts h.imports⟩
      h.session.stack hlasts
  | declare s name kind pos node =>
    obtain ⟨sc, hsc, -⟩ := hs.current
    obtain ⟨hstack, himports⟩ :
        (Parser.declare name kind pos node true env s).2.session.stack = s.session.stack ∧ _ :=
      declare_aside name kind pos node
    have hlasts : Lasts anyFile s.session.symbols
        (Parser.declare name kind pos node true env s).2.session.symbols := by
      rw [declare_symbols]
      exact SymbolTable.declare_lasts _ _ _
    refine hs.lasts ⟨?_, hs.housed.documents_lasts hlasts himports⟩ hstack hlasts
    rw [declare_symbols]
    exact hs.housed.arena.declare hsc _
  | inside hkind _ ih =>
    rename_i s s' kind _
    obtain ⟨hinside, hstack, hlasts⟩ := ih (hs.enter hkind)
    exact hs.lasts ⟨hinside.housed.arena, hinside.housed.documents⟩ (congrArg List.tail hstack)
      ((SymbolTable.addScope_lasts _ _ _ _).trans hlasts)
  | load s found value =>
    have hlodges := hload found s.session hs.housed
    unfold importing
    rcases hrun : env.load found s.session with ⟨e | d, session⟩
    · rw [hrun] at hlodges
      exact hs.lasts hlodges.housed hlodges.stack hlodges.lasts
    · rw [hrun] at hlodges
      have hroot := hlodges.lasts.isFile hs.root
      have himport := SymbolTable.addImport_lasts session.symbols env.root d.scope s.seq
      exact hs.lasts ⟨hlodges.housed.arena.addImport hroot (hlodges.file d rfl) s.seq,
        hlodges.housed.documents_lasts himport rfl⟩ hlodges.stack (hlodges.lasts.trans himport)
  | trans _ _ ih ih' =>
    obtain ⟨hinside, hstack, hlasts⟩ := ih hs
    obtain ⟨hinside', hstack', hlasts'⟩ := ih' hinside
    exact ⟨hinside', hstack'.trans hstack, hlasts.trans hlasts'⟩

end

/-! ## Completing a document -/

/-- The session of a document whose scope is that of a file. -/
structure Completing (d : Document) (s : Session) : Prop where
  housed : s.Housed
  file : s.symbols.IsFile d.scope

section

variable {d : Document} {s : Session}

theorem shape_symbols (d : Document) (s : Session) (shape : ResultShape) :
    (Shape.declare d s shape).2.symbols =
      (s.symbols.declare d.scope (Shape.symbol d s shape)).2 := by
  rw [Shape.declare_symbol, SymbolTable.declare_eq]
  cases s.symbols.lookup d.scope (Shape.symbol d s shape).name <;> rfl

theorem Completing.shape (h : Completing d s) (shape : ResultShape) :
    Completing d (Shape.declare d s shape).2 ∧
      Lasts anyFile s.symbols (Shape.declare d s shape).2.symbols := by
  obtain ⟨sc, hsc, -⟩ := h.file
  have hlasts : Lasts anyFile s.symbols (Shape.declare d s shape).2.symbols := by
    rw [shape_symbols]
    exact SymbolTable.declare_lasts _ _ _
  refine ⟨⟨⟨?_, h.housed.documents_lasts hlasts (Shape.sameFiles_declare d s shape).imports⟩,
    hlasts.isFile h.file⟩, hlasts⟩
  rw [shape_symbols]
  exact h.housed.arena.declare hsc _

theorem Completing.shapes (h : Completing d s) (shapes : List ResultShape) :
    Completing d (Shape.declareAll d shapes s).2 ∧
      Lasts anyFile s.symbols (Shape.declareAll d shapes s).2.symbols := by
  induction shapes generalizing s with
  | nil => exact ⟨h, .refl _⟩
  | cons shape rest ih =>
    obtain ⟨hfirst, hlasts⟩ := h.shape shape
    obtain ⟨hrest, hlasts'⟩ := ih hfirst
    exact ⟨hrest, hlasts.trans hlasts'⟩

/-- Completing a document closes scopes of its own file only. -/
theorem Completing.complete (h : Completing d s) :
    (complete d s).2.Housed ∧ Lasts (· ≠ d.file) s.symbols (complete d s).2.symbols ∧
      (complete d s).2.symbols.IsFile d.scope := by
  obtain ⟨⟨harena, hdocuments⟩, hfile⟩ := h
  obtain ⟨⟨hhoused, hscope⟩, hlasts⟩ := Completing.shapes (d := { d with decls := (firstPass d s).1 })
    (s := { s with diagnostics := (firstPass d s).2 ++
      (Shape.pending ⟨{ d with decls := (firstPass d s).1 }, s.imports, s.symbols⟩).warnings })
    ⟨⟨harena, hdocuments⟩, hfile⟩
    (Shape.pending ⟨{ d with decls := (firstPass d s).1 }, s.imports, s.symbols⟩).shapes
  have hclose := SymbolTable.closeChildren_lasts (shaped d s).2.symbols d.file
  rw [complete_eq]
  exact ⟨⟨hhoused.arena.closeChildren d.file, hhoused.documents_lasts hclose rfl⟩,
    (hlasts.mono fun _ _ => trivial).trans hclose, hclose.isFile hscope⟩

end

/-! ## Loading -/

section

variable {tree : FileTree} {load : Loader} {text : String} {tokens : List Token} {f : SourceFile}
  {s : Session}

theorem fileStart_lasts (tokens : List Token) (f : SourceFile) (s : Session) :
    Lasts anyFile s.symbols (fileStart tokens f s).session.symbols :=
  (SymbolTable.addFile_lasts s.symbols f.path).trans (SymbolTable.addScope_lasts _ _ _ _)

/-- A file starts inside its own scope. -/
theorem fileStart_midway (tree : FileTree) (load : Loader) (tokens : List Token) (f : SourceFile)
    (hs : s.Housed) : Midway (fileEnv tree load f s) (fileStart tokens f s) := by
  have hlasts := fileStart_lasts tokens f s
  have hnew : (fileStart tokens f s).session.symbols.scopes[s.symbols.scopes.size]? =
      some { kind := .file, parent := none, file := s.symbols.files.size } :=
    SymbolTable.addScope_new (s.symbols.addFile f.path).2 .file none s.symbols.files.size
  refine ⟨⟨(hs.arena.addFile f.path).addScope (by simp) nofun ?_,
    fun p d hd => hlasts.isFile (hs.documents p d hd)⟩, ⟨_, hnew, rfl⟩, _, hnew, rfl, rfl⟩
  show s.symbols.files.size < (s.symbols.files.push f.path).size
  rw [Array.size_push]
  exact Nat.lt_succ_self _

/-- A file that was read to its end is completed inside its own scope. -/
theorem Left.completing {final : ParserState}
    (h : Left (fileEnv tree load f s) (fileStart tokens f s) final) (decls : List Decl) :
    Completing (parsedDocument f s final decls) (fileEnd final) :=
  ⟨⟨h.inside.housed.arena, h.inside.housed.documents⟩, h.inside.root⟩

theorem parseDocument_lodges (tree : FileTree) (text : String) (f : SourceFile)
    (hload : LodgesAll load) (hs : s.Housed) : Lodges s (parseDocument tree load text f s) := by
  cases htokens : tokenize text with
  | error m =>
    unfold parseDocument
    rw [htokens]
    exact ⟨hs, rfl, .refl _, nofun⟩
  | ok tokens =>
    have hleft := (Parser.decls_moving (fileEnv tree load f s) (fileStart tokens f s)).houses hload
      (fileStart_midway tree load tokens f hs)
    have hlasts := (fileStart_lasts tokens f s).trans hleft.lasts
    rw [parseDocument_eq load f s htokens]
    rcases hdecls : Parser.decls (fileEnv tree load f s) (fileStart tokens f s) with ⟨e | ds, final⟩
    · rw [hdecls] at hleft hlasts
      exact ⟨⟨hleft.inside.housed.arena, hleft.inside.housed.documents⟩,
        congrArg List.tail hleft.stack, hlasts, nofun⟩
    · rw [hdecls] at hleft hlasts
      obtain ⟨hhoused, hclose, hfile⟩ := (hleft.completing ds).complete
      refine ⟨hhoused, (stack_complete _ _).trans (congrArg List.tail hleft.stack), ?_, fun d hd => ?_⟩
      · -- The scopes from before belong to earlier files.
        have hall : Lasts (· ≠ s.symbols.files.size) s.symbols _ :=
          (hlasts.mono fun _ _ => trivial).trans hclose
        exact hall.mono fun hsc _ => Nat.ne_of_lt (hs.arena.fits hsc).file
      · cases hd
        exact hfile

theorem parseText_lodges (tree : FileTree) (text : String) (f : SourceFile)
    (hload : LodgesAll load) (hs : s.Housed) : Lodges s (parseText tree load text f s) := by
  unfold parseText
  dsimp only
  split
  · exact ⟨hs, rfl, .refl _, nofun⟩
  · rename_i d imports hbegin
    refine ⟨hs, rfl, .refl _, fun d' hd => ?_⟩
    cases hd
    exact hs.documents _ d (ImportTable.begin_some hbegin)
  · rename_i imports hbegin
    have hparse := parseDocument_lodges (s := { s with imports }) tree text
      { f with path := tree.canonical f.path } hload ⟨hs.arena, hs.documents.begin hbegin⟩
    split
    · rename_i d s' hrun
      rw [hrun] at hparse
      exact ⟨⟨hparse.housed.arena, hparse.housed.documents.finish fun _ _ => hparse.file d rfl⟩,
        hparse.stack, hparse.lasts, fun d' hd => hparse.file d' hd⟩
    · rename_i e s' hrun
      rw [hrun] at hparse
      exact ⟨⟨hparse.housed.arena, hparse.housed.documents.abandon⟩, hparse.stack, hparse.lasts, nofun⟩

theorem loadFile_lodges (tree : FileTree) (n : Nat) : LodgesAll (loadFile tree n) := by
  induction n with
  | zero =>
    intro f s hs
    exact ⟨hs, rfl, .refl _, fun d hd => by cases hd⟩
  | succ n ih =>
    intro f s hs
    rw [loadFile]
    cases hget : s.imports.get? (tree.canonical f.path) with
    | some d =>
      refine ⟨hs, rfl, .refl _, fun d' hd => ?_⟩
      cases hd
      exact hs.documents _ d hget
    | none =>
      dsimp only
      split
      · exact parseText_lodges tree _ f ih hs
      · cases tree.read f.path with
        | error cause => exact ⟨hs, rfl, .refl _, fun d hd => by cases hd⟩
        | ok text => exact parseText_lodges tree _ f ih hs

end

end Source

namespace Session

variable {s : Session}

theorem Housed.setPrelude (h : s.Housed) {scope : ScopeId} (hscope : s.symbols.IsFile scope) :
    Housed { s with symbols := s.symbols.setPrelude scope } :=
  ⟨h.arena.setPrelude hscope,
    fun p d hd => (SymbolTable.setPrelude_lasts s.symbols scope).isFile (h.documents p d hd)⟩

theorem new_housed (platform : Option Platform) : Housed { platform } :=
  ⟨⟨fun h => by simp at h, fun h => by simp at h, nofun⟩, nofun⟩

end Session

theorem Call.run_houses (c : Call) {s : Session} (hs : s.Housed) : (c.run s).2.Housed := by
  cases c with
  | text tree source name =>
    exact (parseText_lodges tree source { path := name } (loadFile_lodges tree _) hs).housed
  | file tree entry roots =>
    show (s.compileFile tree entry roots).2.Housed
    cases hprelude : SourceFile.searchRoots { path := ⟨""⟩, roots } tree "prelude.jssp" with
    | none =>
      rw [Session.compileFile_of_none hprelude]
      exact (loadFile_lodges tree _ _ s hs).housed
    | some f =>
      rw [Session.compileFile_of_some hprelude]
      have hfirst : Lodges s (s.load tree f) := loadFile_lodges tree _ f s hs
      dsimp only
      generalize s.load tree f = r at hfirst ⊢
      obtain ⟨e | d, s₁⟩ := r
      · exact hfirst.housed
      · exact (loadFile_lodges tree _ _ _ (hfirst.housed.setPrelude (hfirst.file d rfl))).housed

theorem Session.Reached.housed {s : Session} (h : s.Reached) : s.Housed := by
  induction h with
  | new platform => exact new_housed platform
  | call _ c ih => exact c.run_houses ih

/-! ## Moments -/

/-- A moment of a compilation: no declaration is being read, a file is being read, or a document is
being completed. -/
inductive Moment where
  | idle (s : Session)
  | reading (env : ParserEnv) (s : ParserState)
  | completing (d : Document) (s : Session)

namespace Moment

/-- The session at a moment. -/
def session : Moment → Session
  | idle s => s
  | reading _ s => s.session
  | completing _ s => s

/-- The scope into which a declaration would go. -/
def declaring : Moment → Option ScopeId
  | idle _ => none
  | reading env s => some (s.scope env)
  | completing d _ => some d.scope

end Moment

/-- The moments of all compilations. Calls lead from one session to the next. Inside a call, files are
loaded, and the first one may become the prelude. A file is begun and read, where any parser may run and
any scope be entered; at an import statement another file is loaded. When it is at its end, its document
is completed: names are bound, shapes are declared, and the scopes are closed. -/
inductive Occurs : Moment → Prop
  | reached {s : Session} : s.Reached → Occurs (.idle s)
  | load {s : Session} (tree : FileTree) (n : Nat) (f : SourceFile) :
    Occurs (.idle s) → Occurs (.idle (loadFile tree n f s).2)
  | prelude {s : Session} {p : Path} {d : Document} : Occurs (.idle s) → s.imports.get? p = some d →
    Occurs (.idle { s with symbols := s.symbols.setPrelude d.scope })
  | begin {s : Session} {imports : ImportTable} {key : Path} {text : String} {tokens : List Token}
    (tree : FileTree) (n : Nat) (f : SourceFile) : Occurs (.idle s) →
    s.imports.begin key = .ok (none, imports) → tokenize text = .ok tokens →
    Occurs (.reading (fileEnv tree (loadFile tree n) f { s with imports })
      (fileStart tokens f { s with imports }))
  | run {env : ParserEnv} {s : ParserState} {α : Type} {p : Parser α} :
    Occurs (.reading env s) → Parser.Rule p → Occurs (.reading env (p env s).2)
  | enter {env : ParserEnv} {s : ParserState} {kind : ScopeKind} :
    Occurs (.reading env s) → kind ≠ .file → Occurs (.reading env (s.enter env kind))
  | nested {env : ParserEnv} {s : ParserState} : Occurs (.reading env s) → Occurs (.idle s.session)
  | fail {env : ParserEnv} {s : ParserState} (key : Path) : Occurs (.reading env s) →
    Occurs (.idle { fileEnd s with imports := s.session.imports.abandon key })
  | complete {s : Session} {tree : FileTree} {n : Nat} {f : SourceFile} {tokens : List Token}
    {decls : List Decl} {final : ParserState} :
    Occurs (.reading (fileEnv tree (loadFile tree n) f s) (fileStart tokens f s)) →
    Parser.decls (fileEnv tree (loadFile tree n) f s) (fileStart tokens f s) = (.ok decls, final) →
    Occurs (.completing (parsedDocument f s final decls) (fileEnd final))
  | bind {d : Document} {s : Session} (decls : List Decl) (diagnostics : Diagnostics) :
    Occurs (.completing d s) → Occurs (.completing { d with decls } { s with diagnostics })
  | shape {d : Document} {s : Session} (shape : ResultShape) :
    Occurs (.completing d s) → Occurs (.completing d (Shape.declare d s shape).2)
  | close {d : Document} {s : Session} (key : Path) : Occurs (.completing d s) →
    Occurs (.idle { s with
      symbols := s.symbols.closeChildren d.file
      imports := s.imports.finish key d })

/-- What holds at a moment. -/
def Moment.Fine : Moment → Prop
  | idle s => s.Housed
  | reading env s => Midway env s ∧ LodgesAll env.load
  | completing d s => Completing d s

theorem Occurs.fine {m : Moment} (h : Occurs m) : m.Fine := by
  induction h with
  | reached h => exact h.housed
  | load tree n f _ ih => exact (loadFile_lodges tree n f _ ih).housed
  | prelude _ hd ih => exact ih.setPrelude (ih.documents _ _ hd)
  | begin tree n f _ hbegin _ ih =>
    exact ⟨fileStart_midway tree _ _ f ⟨ih.arena, ih.documents.begin hbegin⟩, loadFile_lodges tree n⟩
  | run _ hp ih => exact ⟨((hp.moving _ _).houses ih.2 ih.1).inside, ih.2⟩
  | enter _ hkind ih => exact ⟨ih.1.enter hkind, ih.2⟩
  | nested _ ih => exact ih.1.housed
  | fail key _ ih => exact ⟨ih.1.housed.arena, ih.1.housed.documents.abandon⟩
  | complete _ hdecls ih =>
    have hleft := (Parser.decls_moving _ _).houses ih.2 ih.1
    rw [hdecls] at hleft
    exact hleft.completing _
  | bind decls diagnostics _ ih => exact ⟨⟨ih.housed.arena, ih.housed.documents⟩, ih.file⟩
  | shape shape _ ih => exact (ih.shape shape).1
  | close key _ ih =>
    have hclose := SymbolTable.closeChildren_lasts
    refine ⟨ih.housed.arena.closeChildren _, ?_⟩
    refine ImportTable.Files.finish (fun p d hd => (hclose _ _).isFile (ih.housed.documents p d hd)) ?_
    exact fun _ _ => (hclose _ _).isFile ih.file

/-- A declaration goes into the scope of the moment, which is open. -/
theorem Moment.Fine.open {m : Moment} (h : m.Fine) : ∀ scope ∈ m.declaring,
    ∃ sc, m.session.symbols.scopes[scope]? = some sc ∧ sc.closed = false := by
  intro scope hscope
  cases m with
  | idle s => cases hscope
  | reading env s =>
    cases hscope
    obtain ⟨sc, hsc, -, hopen⟩ := h.1.current
    exact ⟨sc, hsc, hopen⟩
  | completing d s =>
    cases hscope
    obtain ⟨hhoused, sc, hsc, hkind⟩ := h
    exact ⟨sc, hsc, (hhoused.arena.fits hsc).left_open hkind⟩

theorem Moment.Fine.housed {m : Moment} (h : m.Fine) : m.session.Housed := by
  cases m with
  | idle s => exact h
  | reading env s => exact h.1.housed
  | completing d s => exact Completing.housed h

/-- Between calls and inside them, whatever is compiled and whatever fails: every name bound in a scope
has a symbol that says so, a symbol is bound exactly once, scopes lie inside earlier ones of their file,
and imports lead to scopes of files. The parser declares names in its innermost scope and shapes are
declared in the scope of their document, and these are open then. So looking up a name from any scope
comes to an end, with a symbol of that name if any. -/
theorem occurs_arena :
    (∀ s : Session, s.Reached → Occurs (.idle s)) ∧
    (∀ env s name kind pos node,
      (Parser.declare name kind pos node true env s).2.session.symbols =
        (s.session.symbols.declare (s.scope env) (s.symbol env name kind pos node)).2) ∧
    (∀ d s shape, (Shape.declare d s shape).2.symbols =
      (s.symbols.declare d.scope (Shape.symbol d s shape)).2) ∧
    ∀ m : Moment, Occurs m →
      m.session.symbols.Arena ∧
      (∀ scope ∈ m.declaring,
        ∃ sc, m.session.symbols.scopes[scope]? = some sc ∧ sc.closed = false) ∧
      (∀ id < m.session.symbols.symbols.size, ∃! x : ScopeId × String,
        ∃ sc, m.session.symbols.scopes[x.1]? = some sc ∧ (x.2, id) ∈ sc.bindings) ∧
      (∀ (name : String) (seq scope fuel : Nat), scope < m.session.symbols.scopes.size → scope < fuel →
        m.session.symbols.resolveFrom name seq fuel (some scope) =
          m.session.symbols.resolveFrom name seq (m.session.symbols.scopes.size + 1) (some scope)) ∧
      ∀ scope name seq id, m.session.symbols.resolve scope name seq = some id →
        ∃ symbol, m.session.symbols.symbols[id]? = some symbol ∧ symbol.name = name := by
  refine ⟨fun s => .reached, fun env s => declare_symbols, shape_symbols, fun m h => ?_⟩
  have harena := h.fine.housed.arena
  refine ⟨harena, h.fine.open, fun id => harena.once, fun name seq scope fuel hscope hfuel => ?_,
    fun scope name seq id => harena.resolve_symbol⟩
  exact harena.resolveFrom_enough name seq scope hfuel (Nat.lt_succ_of_lt hscope)

end Scaffold
