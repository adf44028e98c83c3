import Scaffold.Proofs.Compilation
import Scaffold.Proofs.ImportOrder

/-!
# Loading files

A file is loaded in the middle of the file that imports it, from a table that knows which files are
finished and which are being read. By induction on the depth that is left, and from one import
statement to the next within a file:

* a chain of imports never gets longer than there are files, so the bound on its depth is never
  reached, and any larger bound gives the same (`loadFile_loads`);
* a file that is loaded is finished after all it imports, and a file that fails leaves the documents
  finished before it in order.

`compileFile_loads` puts this together for a whole compilation.
-/

namespace Scaffold

open Source

namespace Source

/-! ## Completing a document -/

theorem Shape.sameFiles_declare (d : Document) (s : Session) (shape : ResultShape) :
    s.SameFiles (Shape.declare d s shape).2 := by
  have hfiles := Parser.files_declare s.symbols d.scope (Shape.symbol d s shape)
  rw [Shape.declare_symbol]
  split
  · rename_i heq
    rw [heq] at hfiles
    exact ⟨rfl, hfiles⟩
  · exact ⟨rfl, rfl⟩

theorem Shape.sameFiles_declareAll (d : Document) : ∀ (shapes : List ResultShape) (s : Session),
    s.SameFiles (Shape.declareAll d shapes s).2
  | [], s => .refl s
  | shape :: rest, s =>
    (sameFiles_declare d s shape).trans (sameFiles_declareAll d rest (declare d s shape).2)

/-- Binding the names of a document has nothing to do with other files. -/
theorem sameFiles_complete (d : Document) (s : Session) : s.SameFiles (complete d s).2 := by
  have hshaped := Shape.sameFiles_declareAll { d with decls := (firstPass d s).1 }
    (Shape.pending ⟨{ d with decls := (firstPass d s).1 }, s.imports, s.symbols⟩).shapes
    { s with diagnostics := (firstPass d s).2 ++
      (Shape.pending ⟨{ d with decls := (firstPass d s).1 }, s.imports, s.symbols⟩).warnings }
  exact ⟨hshaped.imports, hshaped.files⟩

end Source

section

variable {tree : FileTree} {roots : List Path} {s s' : Session} {key : Path} {text : String}

/-! ## How loading comes out -/

/-- The invariant of loading, in a session. -/
abbrev Session.Loaded (tree : FileTree) (roots : List Path) (s : Session) : Prop :=
  Scaffold.Loaded tree roots s.imports s.symbols.files.toList

/-- An error that leaves the finished documents in order, and that tells of a cycle only if there
is one. -/
structure Fails (tree : FileTree) (roots : List Path) (e : CompileError) (s : Session) : Prop where
  ordered : Ordered tree roots s.imports s.symbols.files.toList
  cycle : ∀ chain, e = .importCycle chain → ClosesCycle tree roots chain

/-- A file with this canonical path was loaded from a session with the table `t`. -/
structure Finishes (tree : FileTree) (roots : List Path) (key : Path) (t : ImportTable)
    (d : Document) (s : Session) : Prop where
  loaded : s.Loaded tree roots
  chain : s.imports.chain = t.chain
  grown : t.completed <+: s.imports.completed
  finished : d.path ∈ s.imports.completed
  path : d.path.same key = true

/-- Loading a file comes out well, or with an error. -/
def Loads (tree : FileTree) (roots : List Path) (key : Path) (t : ImportTable)
    (r : Except CompileError Document × Session) : Prop :=
  (∀ d, r.1 = .ok d → Finishes tree roots key t d r.2) ∧
    ∀ e, r.1 = .error e → Fails tree roots e r.2

/-- Where the depth `n` is enough for the chain, the two loaders agree and loading comes out. -/
def Agree (tree : FileTree) (roots : List Path) (n : Nat) (load load' : Loader) : Prop :=
  ∀ (f : SourceFile) (s : Session), f.roots = roots → s.Loaded tree roots →
    (∀ p ∈ s.imports.chain.getLast?, Imports tree roots p (tree.canonical f.path)) →
    tree.entries.length < n + s.imports.chain.length →
    load' f s = load f s ∧ Loads tree roots (tree.canonical f.path) s.imports (load f s)

theorem Session.Loaded.sameFiles (h : s.Loaded tree roots) (hs : s.SameFiles s') :
    s'.Loaded tree roots := by
  unfold Session.Loaded
  rw [hs.imports, hs.files]
  exact h

theorem Fails.of_loaded {e : CompileError} (h : s.Loaded tree roots)
    (he : ∀ chain, e ≠ .importCycle chain) : Fails tree roots e s :=
  ⟨h.toOrdered, fun chain hchain => absurd hchain (he chain)⟩

/-! ## Reading a file -/

/-- In the middle of the file `key`: `ws` are its import statements that are left, and `ps` the files
that were imported. `t` is the table before the file was started. -/
structure Meets (tree : FileTree) (roots : List Path) (text : String) (key : Path) (t : ImportTable)
    (ws : List String) (ps : List Path) (s : Session) : Prop where
  loaded : s.Loaded tree roots
  chain : s.imports.chain = t.chain ++ [key]
  grown : t.completed <+: s.imports.completed
  read : ∃ done, importsOf text = done ++ ws ∧
    List.Forall₂ (fun w p => target? tree roots key w = some p) done ps
  finished : ∀ p ∈ ps, p ∈ s.imports.completed

variable {t : ImportTable} {n : Nat} {load load' : Loader} {f : SourceFile}

theorem loading_of_agree (hcurrent : ∀ x ∈ tree.current, Path.IsName x)
    (hagree : Agree tree roots n load load') (hroots : f.roots = roots)
    (hfile : tree.FileAt key text) (hdepth : tree.entries.length < n + 1 + t.chain.length)
    (s₀ : Session) : Parser.Loading (fileEnv tree load { f with path := key } s₀) load'
      (Meets tree roots text key t) (Fails tree roots) := by
  -- What an import statement that is met leads to.
  have hstep : ∀ {w ws ps s g}, Meets tree roots text key t (w :: ws) ps s →
      SourceFile.locate { f with path := key } tree w = some g →
      target? tree roots key w = some (tree.canonical g.path) ∧
        load' g s = load g s ∧ Loads tree roots (tree.canonical g.path) s.imports (load g s) := by
    intro w ws ps s g h hg
    have htarget : target? tree roots key w = some (tree.canonical g.path) := by
      rw [← hroots]
      exact SourceFile.target?_of_locate hg
    refine ⟨htarget, hagree g s ((SourceFile.locate_some hg).1.trans hroots) h.loaded ?_ ?_⟩
    · intro p hp
      rw [h.chain, List.getLast?_concat] at hp
      cases hp
      obtain ⟨done, hdone, -⟩ := h.read
      exact ⟨text, w, hfile, by simp [hdone], htarget⟩
    · rw [h.chain, List.length_append, List.length_singleton]
      omega
  refine ⟨?_, ?_, ?_, ?_, ?_⟩
  · intro ws ps s s' h _ hs
    exact ⟨h.loaded.sameFiles hs, by rw [hs.imports, h.chain], by rw [hs.imports]; exact h.grown,
      h.read, fun p hp => by rw [hs.imports]; exact h.finished p hp⟩
  · intro ws ps s e h he
    exact .of_loaded h.loaded he.noCycle
  · intro w ws ps s g h hg
    exact (hstep h hg).2.1
  · intro w ws ps s g d s' h hg hload
    obtain ⟨htarget, -, hok, -⟩ := hstep h hg
    have hload : load g s = (.ok d, s') := hload
    rw [hload] at hok
    have hdone := hok d rfl
    obtain ⟨done, hread, htargets⟩ := h.read
    have hpath : d.path = tree.canonical g.path := by
      obtain ⟨_, hat⟩ := hdone.loaded.finished.files _ hdone.finished
      obtain ⟨_, hat'⟩ := FileTree.fileAt_of_isFile hcurrent (SourceFile.locate_some hg).2
      exact hat.eq_of_same hat' hdone.path
    refine ⟨hdone.loaded, hdone.chain.trans h.chain, h.grown.trans hdone.grown,
      ⟨done ++ [w], by simp [hread], ?_⟩, fun p hp => ?_⟩
    · exact List.rel_append htargets (.cons (hpath ▸ htarget) .nil)
    · obtain hp | hp := List.mem_append.1 hp
      · exact hdone.grown.subset (h.finished p hp)
      · rw [List.mem_singleton.1 hp]
        exact hdone.finished
  · intro w ws ps s g e s' h hg hload
    obtain ⟨-, -, -, herror⟩ := hstep h hg
    have hload : load g s = (.error e, s') := hload
    rw [hload] at herror
    exact herror e rfl

/-- A file that was read has imported what its text says. -/
theorem Meets.imports_iff {ps : List Path} (h : Meets tree roots text key t [] ps s)
    (hfile : tree.FileAt key text) (q : Path) : q ∈ ps ↔ Imports tree roots key q := by
  obtain ⟨done, hread, htargets⟩ := h.read
  rw [List.append_nil] at hread
  constructor
  · intro hq
    obtain ⟨w, hw, htarget⟩ := forall₂_mem_right htargets hq
    exact ⟨text, w, hfile, hread ▸ hw, htarget⟩
  · rintro ⟨text', w, hfile', hw, htarget⟩
    obtain rfl := hfile'.text_eq hfile
    rw [hread] at hw
    obtain ⟨p, hp, htarget'⟩ := forall₂_mem_right htargets.flip hw
    have htarget' : target? tree roots key w = some p := htarget'
    rw [htarget] at htarget'
    cases htarget'
    exact hp

/-- What is known of a file when it was read to its end, before it is finished. -/
structure ReadTo (tree : FileTree) (roots : List Path) (key : Path) (t : ImportTable) (d : Document)
    (s : Session) : Prop where
  loaded : s.Loaded tree roots
  chain : s.imports.chain = t.chain ++ [key]
  grown : t.completed <+: s.imports.completed
  path : d.path = key
  imports : ∀ q, q ∈ d.imports ↔ Imports tree roots key q
  finished : ∀ q ∈ d.imports, q ∈ s.imports.completed

/-- A file that was started is read alike by the two loaders, to its end or to an error. -/
theorem parseDocument_loads (hcurrent : ∀ x ∈ tree.current, Path.IsName x)
    (hagree : Agree tree roots n load load') (hroots : f.roots = roots)
    (hfile : tree.FileAt key text) (hdepth : tree.entries.length < n + 1 + s.imports.chain.length)
    (hs : s.Loaded tree roots) {imports : ImportTable}
    (hbegin : s.imports.begin key = .ok (none, imports))
    (hlast : ∀ p ∈ s.imports.chain.getLast?, Imports tree roots p key) :
    let r := parseDocument tree load text { f with path := key } { s with imports }
    parseDocument tree load' text { f with path := key } { s with imports } = r ∧
      (∀ d, r.1 = .ok d → ReadTo tree roots key s.imports d r.2) ∧
      ∀ e, r.1 = .error e → Fails tree roots e r.2 := by
  intro r
  cases htokens : tokenize text with
  | error m =>
    have hrun : ∀ load, parseDocument tree load text { f with path := key } { s with imports }
        = (.error (.fault key m.pos (.mismatch m.expected m.found)), { s with imports }) := by
      intro load
      unfold parseDocument
      rw [htokens]
    have hr : r = _ := hrun load
    rw [hr]
    refine ⟨hrun load', nofun, fun e he => ?_⟩
    cases he
    exact ⟨hs.toOrdered.begin hbegin, nofun⟩
  | ok tokens =>
    let file : SourceFile := { f with path := key }
    have hmeets : Meets tree roots text key s.imports (importStatements false tokens) []
        (fileStart tokens file { s with imports }).session := by
      refine ⟨?_, ImportTable.chain_begin hbegin, ?_, ⟨[], by simp [importsOf, htokens], .nil⟩, nofun⟩
      · have hbegun := hs.begin hfile hbegin hlast
        rw [← Array.toList_push] at hbegun
        exact hbegun
      · exact (ImportTable.begin_none hbegin).2.1 ▸ List.prefix_refl _
    have hloading := loading_of_agree hcurrent hagree hroots hfile hdepth { s with imports }
    obtain ⟨hsame, hok, herror⟩ :=
      Parser.decls_comes (s := fileStart tokens file { s with imports }) hloading hmeets
    have hr : r = _ := parseDocument_eq load file { s with imports } htokens
    have hr' : parseDocument tree load' text file { s with imports } = _ :=
      parseDocument_eq load' file { s with imports } htokens
    rw [show Parser.decls (fileEnv tree load' file { s with imports }) _ = _ from hsame] at hr'
    refine ⟨hr'.trans hr.symm, ?_⟩
    rw [hr]
    clear hr hr' hsame
    rcases hdecls : Parser.decls (fileEnv tree load file { s with imports })
      (fileStart tokens file { s with imports }) with ⟨e | ds, final⟩
    · rw [hdecls] at herror
      refine ⟨nofun, fun e' he => ?_⟩
      cases he
      obtain ⟨hordered, hcycle⟩ := herror e rfl
      exact ⟨hordered, hcycle⟩
    · rw [hdecls] at hok
      have hend : Meets tree roots text key s.imports [] final.imports final.session := hok ds rfl
      refine ⟨fun d hd => ?_, nofun⟩
      cases hd
      have hfiles := sameFiles_complete (parsedDocument file { s with imports } final ds)
        (fileEnd final)
      have hfiles' : final.session.SameFiles (complete (parsedDocument file { s with imports } final ds)
        (fileEnd final)).2 := ⟨hfiles.imports, hfiles.files⟩
      refine ⟨hend.loaded.sameFiles hfiles', ?_, ?_, rfl, hend.imports_iff hfile, ?_⟩
      · rw [hfiles'.imports]
        exact hend.chain
      · rw [hfiles'.imports]
        exact hend.grown
      · rw [hfiles'.imports]
        exact hend.finished

theorem parseText_inProgress (h : s.imports.isInProgress (tree.canonical f.path) = true) :
    parseText tree load text f s
      = (.error (.importCycle (s.imports.cycle (tree.canonical f.path))), s) := by
  unfold parseText
  dsimp only
  rw [ImportTable.begin_inProgress h]

/-- A file that is not known yet is started, read, and finished or given up. -/
theorem parseText_loads (hcurrent : ∀ x ∈ tree.current, Path.IsName x)
    (hagree : Agree tree roots n load load') (hroots : f.roots = roots)
    (hfile : tree.FileAt (tree.canonical f.path) text)
    (hdepth : tree.entries.length < n + 1 + s.imports.chain.length) (hs : s.Loaded tree roots)
    (hnew : s.imports.state? (tree.canonical f.path) = none)
    (hlast : ∀ p ∈ s.imports.chain.getLast?, Imports tree roots p (tree.canonical f.path)) :
    parseText tree load' text f s = parseText tree load text f s ∧
      Loads tree roots (tree.canonical f.path) s.imports (parseText tree load text f s) := by
  obtain ⟨imports, hbegin⟩ := ImportTable.begin_new hnew
  obtain ⟨hsame, hok, herror⟩ := parseDocument_loads hcurrent hagree hroots hfile hdepth hs hbegin hlast
  unfold parseText
  dsimp only
  rw [hbegin]
  dsimp only
  rw [hsame]
  refine ⟨rfl, ?_⟩
  rcases hparse : parseDocument tree load text { f with path := tree.canonical f.path }
    { s with imports } with ⟨e | d, s'⟩
  · rw [hparse] at herror
    obtain ⟨hordered, hcycle⟩ := herror e rfl
    refine ⟨nofun, fun e' he => ?_⟩
    cases he
    exact ⟨hordered.abandon _, hcycle⟩
  · rw [hparse] at hok
    have hread := hok d rfl
    refine ⟨fun d' hd => ?_, nofun⟩
    cases hd
    have hfinish := hread.loaded.finish hread.chain hread.path hread.imports hread.finished
    refine ⟨hfinish, ?_, hread.grown.trans (List.prefix_append _ _), ?_, ?_⟩
    · show ImportTable.cutChain _ s'.imports.chain = _
      rw [hread.chain, ImportTable.cutChain_concat]
    · show d.path ∈ s'.imports.completed ++ [tree.canonical f.path]
      simp [hread.path]
    · exact Path.same_iff.2 (congrArg Path.parts hread.path)

/-- The depth of loading is enough as long as the chain and the depth together exceed the number of
files, and then more depth makes no difference. -/
theorem loadFile_loads (hcurrent : ∀ x ∈ tree.current, Path.IsName x) (n : Nat) :
    Agree tree roots n (loadFile tree n) (loadFile tree (n + 1)) := by
  induction n with
  | zero =>
    intro f s _ hs _ hdepth
    have hlen := FileTree.length_le_entries hs.chain.nodup hs.chain.files
    omega
  | succ n ih =>
    intro f s hroots hs hlast hdepth
    rw [loadFile, loadFile]
    cases hget : s.imports.get? (tree.canonical f.path) with
    | some d =>
      dsimp only
      refine ⟨rfl, fun d' hd => ?_, fun _ he => by cases he⟩
      cases hd
      obtain ⟨hdone, hsame⟩ := hs.documents _ d hget
      exact ⟨hs, rfl, List.prefix_refl _, hdone, hsame⟩
    | none =>
      dsimp only
      cases hin : s.imports.isInProgress (tree.canonical f.path) with
      | true =>
        obtain ⟨text, hfile⟩ : ∃ text, tree.FileAt (tree.canonical f.path) text := by
          obtain ⟨q, hq, -⟩ := hs.inProgress _ hin
          obtain ⟨p, hp⟩ := Option.isSome_iff_exists.1
            (List.getLast?_isSome.2 (List.ne_nil_of_mem hq))
          exact (hlast p hp).fileAt hcurrent
        rw [if_pos rfl, if_pos rfl, parseText_inProgress hin, parseText_inProgress hin]
        refine ⟨rfl, fun _ hd => (by cases hd), fun e he => ?_⟩
        cases he
        refine ⟨hs.toOrdered, fun chain hchain => ?_⟩
        cases hchain
        exact hs.closesCycle hfile hin hlast
      | false =>
        rw [if_neg Bool.false_ne_true, if_neg Bool.false_ne_true]
        cases hread : tree.read f.path with
        | error cause =>
          refine ⟨rfl, fun _ hd => (by cases hd), fun e he => ?_⟩
          cases he
          exact .of_loaded hs fun _ hcycle => by cases hcycle
        | ok text =>
          exact parseText_loads hcurrent ih hroots (FileTree.fileAt_of_read hcurrent hread) hdepth
            hs (ImportTable.state?_of_none hget hin) hlast

end

/-! ## Compiling -/

namespace Session

/-- Loads the prelude with a bound on the chain of imports. -/
def loadPreludeWithin (depth : Nat) (tree : FileTree) (roots : List Path) (s : Session) :
    Except CompileError Unit × Session :=
  match ({ path := ⟨""⟩, roots } : SourceFile).searchRoots tree "prelude.jssp" with
  | none => (.ok (), s)
  | some f =>
    match loadFile tree depth f s with
    | (.error e, s) => (.error e, s)
    | (.ok document, s) => (.ok (), { s with symbols := s.symbols.setPrelude document.scope })

/-- Compiles a file with a bound on the chain of imports. -/
def compileWithin (depth : Nat) (tree : FileTree) (entry : Path) (roots : List Path) (s : Session) :
    Except CompileError Document × Session :=
  match s.loadPreludeWithin depth tree roots with
  | (.error e, s) => (.error e, s)
  | (.ok (), s) => loadFile tree depth { path := entry, roots } s

theorem compileWithin_importDepth (tree : FileTree) (entry : Path) (roots : List Path) (s : Session) :
    s.compileWithin (importDepth tree) tree entry roots = s.compileFile tree entry roots :=
  rfl

/-- The files that compiling starts from: the prelude, where there is one, and the entry. -/
def starts (tree : FileTree) (entry : Path) (roots : List Path) : List Path :=
  ((({ path := ⟨""⟩, roots } : SourceFile).searchRoots tree "prelude.jssp").map
    (tree.canonical ·.path)).toList ++ [tree.canonical entry]

section

variable {tree : FileTree} {roots : List Path} {s : Session} {n : Nat}

/-- A file that starts a chain is loaded, and is finished if it can be read. -/
theorem loadFile_starts (hcurrent : ∀ x ∈ tree.current, Path.IsName x) (f : SourceFile)
    (hroots : f.roots = roots) (hs : s.Loaded tree roots) (hchain : s.imports.chain = [])
    (hdepth : tree.entries.length < n) :
    let r := loadFile tree n f s
    loadFile tree (n + 1) f s = r ∧
      (∀ d, r.1 = .ok d → r.2.Loaded tree roots ∧ r.2.imports.chain = [] ∧
        s.imports.completed <+: r.2.imports.completed ∧
        ∀ text, tree.FileAt (tree.canonical f.path) text →
          tree.canonical f.path ∈ r.2.imports.completed) ∧
      ∀ e, r.1 = .error e → Fails tree roots e r.2 := by
  intro r
  obtain ⟨hsame, hok, herror⟩ := loadFile_loads hcurrent n f s hroots hs (by simp [hchain])
    (by simpa [hchain] using hdepth)
  refine ⟨hsame, fun d hd => ?_, herror⟩
  have hdone := hok d hd
  refine ⟨hdone.loaded, hdone.chain.trans hchain, hdone.grown, fun text hfile => ?_⟩
  obtain ⟨_, hfile'⟩ := hdone.loaded.finished.files _ hdone.finished
  rw [← hfile'.eq_of_same hfile hdone.path]
  exact hdone.finished

/-- The same for the prelude. -/
theorem loadPrelude_loads (hcurrent : ∀ x ∈ tree.current, Path.IsName x)
    (hs : s.Loaded tree roots) (hchain : s.imports.chain = []) (hdepth : tree.entries.length < n) :
    let r := s.loadPreludeWithin n tree roots
    s.loadPreludeWithin (n + 1) tree roots = r ∧
      (r.1 = .ok () → r.2.Loaded tree roots ∧ r.2.imports.chain = [] ∧
        ∀ f, SourceFile.searchRoots { path := ⟨""⟩, roots } tree "prelude.jssp" = some f →
          ∀ text, tree.FileAt (tree.canonical f.path) text →
            tree.canonical f.path ∈ r.2.imports.completed) ∧
      ∀ e, r.1 = .error e → Fails tree roots e r.2 := by
  unfold loadPreludeWithin
  cases hprelude : SourceFile.searchRoots { path := ⟨""⟩, roots } tree "prelude.jssp" with
  | none => exact ⟨rfl, fun _ => ⟨hs, hchain, nofun⟩, nofun⟩
  | some f =>
    obtain ⟨hsame, hok, herror⟩ := loadFile_starts hcurrent f
      (SourceFile.searchRoots_some hprelude).1 hs hchain hdepth
    dsimp only
    rw [hsame]
    rcases hload : loadFile tree n f s with ⟨e | d, s'⟩
    · rw [hload] at herror
      exact ⟨rfl, nofun, fun e' he => by cases he; exact herror e rfl⟩
    · rw [hload] at hok
      obtain ⟨hloaded, hchain', -, hfinished⟩ := hok d rfl
      refine ⟨rfl, fun _ => ⟨hloaded.sameFiles ⟨rfl, rfl⟩, hchain', fun g hg => ?_⟩, nofun⟩
      cases hg
      exact hfinished

/-- What holds of every compilation, with any bound that is large enough. -/
theorem compileWithin_loads (hcurrent : ∀ x ∈ tree.current, Path.IsName x) (entry : Path)
    (platform : Option Platform) (hdepth : tree.entries.length < n) :
    let r := ({ platform } : Session).compileWithin n tree entry roots
    ({ platform } : Session).compileWithin (n + 1) tree entry roots = r ∧
      (∀ d, r.1 = .ok d → r.2.Loaded tree roots ∧ ∀ p ∈ starts tree entry roots,
        ∀ text, tree.FileAt p text → p ∈ r.2.imports.completed) ∧
      ∀ e, r.1 = .error e → Fails tree roots e r.2 := by
  obtain ⟨hsame, hok, herror⟩ := loadPrelude_loads (s := { platform }) hcurrent .fresh rfl hdepth
  unfold compileWithin
  rw [hsame]
  rcases hprelude : loadPreludeWithin n tree roots { platform } with ⟨e | ⟨⟩, s₁⟩
  · rw [hprelude] at herror
    exact ⟨rfl, nofun, fun e' he => by cases he; exact herror e rfl⟩
  · rw [hprelude] at hok
    obtain ⟨hloaded, hchain, hfinished⟩ := hok rfl
    obtain ⟨hsame', hok', herror'⟩ := loadFile_starts hcurrent { path := entry, roots } rfl hloaded
      hchain hdepth
    refine ⟨hsame', fun d hd => ?_, herror'⟩
    obtain ⟨hloaded', -, hgrown, hentry⟩ := hok' d hd
    refine ⟨hloaded', fun p hp text hfile => ?_⟩
    obtain hp | hp := List.mem_append.1 hp
    · obtain ⟨f, hf, rfl⟩ := Option.map_eq_some_iff.1 (Option.mem_toList.1 hp)
      exact hgrown.subset (hfinished f hf text hfile)
    · obtain rfl := List.mem_singleton.1 hp
      exact hentry text hfile

/-- Loading files by imports. The bound on chains of imports is never reached. Every file is parsed at
most once, and so is every document listed; documents stand after those that their import statements
mean. Where import statements lead from the prelude or the entry into a cycle, compiling fails; an
error that reports a cycle shows one. -/
theorem compileFile_loads (tree : FileTree) (entry : Path) (roots : List Path)
    (platform : Option Platform) (hcurrent : ∀ x ∈ tree.current, Path.IsName x) :
    let r := ({ platform } : Session).compileFile tree entry roots
    (∀ depth, importDepth tree ≤ depth →
      ({ platform } : Session).compileWithin depth tree entry roots = r) ∧
    (r.2.symbols.files.toList.Pairwise fun p q => p.same q = false) ∧
    ((r.2.imports.documents.map (·.path)).Pairwise fun p q => p.same q = false) ∧
    (∀ before d after, r.2.imports.documents = before ++ d :: after →
      (∀ q, q ∈ d.imports ↔ Imports tree roots d.path q) ∧
      ∀ q ∈ d.imports, ∃ d' ∈ before, d'.path = q) ∧
    (∀ start ∈ starts tree entry roots, ∀ p, Relation.ReflTransGen (Imports tree roots) start p →
      Relation.TransGen (Imports tree roots) p p → r.1.isOk = false) ∧
    ∀ chain, r.1 = .error (.importCycle chain) → ClosesCycle tree roots chain := by
  intro r
  have hdepth : tree.entries.length < importDepth tree := by
    unfold importDepth
    omega
  obtain ⟨-, hok, herror⟩ := @compileWithin_loads tree roots _ hcurrent entry platform hdepth
  rw [compileWithin_importDepth] at hok herror
  have hordered : Ordered tree roots r.2.imports r.2.symbols.files.toList := by
    cases hr : r.1 with
    | error e => exact (herror e hr).ordered
    | ok d => exact (hok d hr).1.toOrdered
  refine ⟨fun depth hle => ?_, hordered.started.pairwise, ?_, fun before d after hsplit =>
    hordered.documents_earlier hsplit, fun start hstart p hreach hcycle => ?_, fun chain hchain => ?_⟩
  · -- Each bound gives the same as the one before, down to the bound that is used.
    induction depth, hle using Nat.le_induction with
    | base => rfl
    | succ m hm ih =>
      have hlt : tree.entries.length < m := Nat.lt_of_lt_of_le hdepth hm
      exact ((compileWithin_loads hcurrent entry platform hlt).1).trans ih
  · rw [hordered.paths]
    exact hordered.finished.pairwise
  · cases hr : r.1 with
    | error e => rfl
    | ok d =>
      obtain ⟨-, hstarts⟩ := hok d hr
      obtain ⟨q, hq⟩ : ∃ q, Imports tree roots start q := by
        obtain rfl | ⟨q, hq, -⟩ := hreach.cases_head
        · obtain ⟨q, hq, -⟩ := Relation.TransGen.head'_iff.1 hcycle
          exact ⟨q, hq⟩
        · exact ⟨q, hq⟩
      obtain ⟨text, -, hfile, -⟩ := hq
      exact absurd hcycle (hordered.no_cycle (hordered.mem_of_reach (hstarts start hstart text hfile) hreach))
  · exact (herror _ hchain).cycle chain rfl

/-- Two files that share an import, and two that import each other by differently written paths. -/
def crossTree : FileTree :=
  { entries := [(["w"], .directory),
      (["w", "main.jssp"], .file "import 'left.jssp'; import 'right.jssp';"),
      (["w", "left.jssp"], .file "import 'base.jssp';"),
      (["w", "right.jssp"], .file "import './base.jssp';"),
      (["w", "base.jssp"], .file "domain Id int;"),
      (["w", "side.jssp"], .file "import 'loop.jssp';"),
      (["w", "loop.jssp"], .file "import 'back.jssp';"),
      (["w", "back.jssp"], .file "import '../w/loop.jssp';")]
    current := ["w"] }

/-- The shared import is compiled once, and the cycle is reported without the file that leads
to it. -/
theorem compileFile_loads_cross :
    ((({} : Session).compileFile crossTree ⟨"main.jssp"⟩ []).2.imports.documents.map (·.path.text)
        = ["/w/base.jssp", "/w/left.jssp", "/w/right.jssp", "/w/main.jssp"] ∧
      ¬ Relation.TransGen (Imports crossTree []) ⟨"/w/main.jssp"⟩ ⟨"/w/main.jssp"⟩) ∧
    (({} : Session).compileFile crossTree ⟨"side.jssp"⟩ []).1
        = .error (.importCycle [⟨"/w/loop.jssp"⟩, ⟨"/w/back.jssp"⟩, ⟨"/w/loop.jssp"⟩]) ∧
      ClosesCycle crossTree [] [⟨"/w/loop.jssp"⟩, ⟨"/w/back.jssp"⟩, ⟨"/w/loop.jssp"⟩] := by
  have hcurrent : ∀ x ∈ crossTree.current, Path.IsName x := by decide
  have hstart : ⟨"/w/main.jssp"⟩ ∈ starts crossTree ⟨"main.jssp"⟩ [] := by decide +kernel
  have hgood := compileFile_loads crossTree ⟨"main.jssp"⟩ [] none hcurrent
  have hbad := compileFile_loads crossTree ⟨"side.jssp"⟩ [] none hcurrent
  have hfine : (({} : Session).compileFile crossTree ⟨"main.jssp"⟩ []).1.isOk = true ∧
      (({} : Session).compileFile crossTree ⟨"main.jssp"⟩ []).2.imports.documents.map (·.path.text)
        = ["/w/base.jssp", "/w/left.jssp", "/w/right.jssp", "/w/main.jssp"] := by
    decide +kernel
  have herror : (({} : Session).compileFile crossTree ⟨"side.jssp"⟩ []).1.map (fun _ => ())
      = .error (.importCycle [⟨"/w/loop.jssp"⟩, ⟨"/w/back.jssp"⟩, ⟨"/w/loop.jssp"⟩]) := by
    decide +kernel
  -- From here on the two results are not computed again.
  generalize ({} : Session).compileFile crossTree ⟨"main.jssp"⟩ [] = good at *
  generalize ({} : Session).compileFile crossTree ⟨"side.jssp"⟩ [] = bad at *
  obtain ⟨-, -, -, -, hcycle, -⟩ := hgood
  obtain ⟨-, -, -, -, -, hchain⟩ := hbad
  obtain ⟨e | d, s⟩ := bad
  · cases herror
    refine ⟨⟨hfine.2, fun h => ?_⟩, rfl, hchain _ rfl⟩
    exact Bool.false_ne_true ((hcycle _ hstart _ .refl h).symm.trans hfine.1)
  · cases herror

end

end Session

end Scaffold
