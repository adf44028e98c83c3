import Scaffold.Proofs.Documents
import Scaffold.Proofs.Lowering

/-!
# Where types are declared

A symbol has the path of the file that it was declared in, and lowering looks for its declaration in
the document at this path. Types are declared in files only, so their symbols are those of documents.

* `Session.Homed`: every type is bound in the scope of the document at its path, or in a file that is
  still being read.
* `Entry.type_declared`: in a compilation without errors, every type is one of the declarations of the
  document at its path.
-/

namespace Scaffold

open Source

/-- A finished document is found under this path, and this is its scope. -/
def Session.Houses (s : Session) (p : Path) (i : ScopeId) : Prop :=
  ∃ d ∈ s.imports.documents, s.imports.get? p = some d ∧ d.scope = i

/-- Every type is bound in its scope, which is that of the document at its path or of a file that is
being read. -/
structure Session.Homed (reading : Path → ScopeId → Prop) (s : Session) : Prop where
  home : ∀ {id : SymbolId} {symbol : Symbol}, s.symbols.symbols[id]? = some symbol →
    symbol.kind.isType = true → (symbol.name, id) ∈ s.symbols.names symbol.scope ∧
      (reading symbol.path symbol.scope ∨ s.Houses symbol.path symbol.scope)

/-- Starting a file keeps all that was finished. -/
theorem ImportTable.Kept.begin {t t' : ImportTable} {path : Path}
    (h : t.begin path = .ok (none, t')) : Kept t t' where
  documents hd := (get?_begin h _).trans hd
  inProgress hp := by
    obtain ⟨-, -, hstate⟩ := begin_none h
    rw [isInProgress_iff] at hp ⊢
    rw [hstate, hp, ite_self]
  completed := ⟨[], by rw [(begin_none h).2.1, List.append_nil]⟩

/-- Names stay bound. -/
theorem SymbolTable.Grows.mem_names {live : ScopeId → Prop} {q : Nat} {t t' : SymbolTable}
    (h : Grows live q t t') {i : ScopeId} {b : String × SymbolId} (hb : b ∈ t.names i) :
    b ∈ t'.names i := by
  cases hscope : t.scopes[i]? with
  | none => simp [names, hscope] at hb
  | some sc =>
    obtain ⟨sc', hsc', -, -, ⟨bs, hbs, -⟩, -⟩ := h.scopes hscope
    rw [names_of_scope hscope] at hb
    rw [names_of_scope hsc', hbs]
    exact List.mem_append_left _ hb

namespace Session

variable {reading : Path → ScopeId → Prop} {s s' : Session} {p : Path} {i : ScopeId}

theorem Houses.kept (h : s.Houses p i) (hkept : s.imports.Kept s'.imports) : s'.Houses p i := by
  obtain ⟨d, hd, hget, hscope⟩ := h
  obtain ⟨q, hq, hqd⟩ := List.mem_filterMap.1 hd
  obtain ⟨more, hmore⟩ := hkept.completed
  refine ⟨d, List.mem_filterMap.2 ⟨q, ?_, hkept.documents hqd⟩, hkept.documents hget, hscope⟩
  rw [hmore]
  exact List.mem_append_left _ hq

section

variable {d : Document} (hs : s'.imports = s.imports.finish p d)
include hs

/-- The document of a file that is finished is at home. -/
theorem houses_finish : s'.Houses p d.scope := by
  refine ⟨d, List.mem_filterMap.2 ⟨p, ?_, ?_⟩, ?_, rfl⟩
  · rw [hs]
    exact List.mem_append_right _ List.mem_cons_self
  · rw [hs]
    exact ImportTable.get?_finish p d
  · rw [hs]
    exact ImportTable.get?_finish p d

/-- The others stay at home. -/
theorem Houses.finish (hp : s.imports.isInProgress p = true) {q : Path} (h : s.Houses q i) :
    s'.Houses q i := by
  have hget : ∀ {q d'}, s.imports.get? q = some d' → s'.imports.get? q = some d' := by
    intro q d' hq
    rw [hs]
    exact (ImportTable.get?_finish_of_isInProgress hp).2 (.inl hq)
  obtain ⟨d', hd', hget', hscope⟩ := h
  obtain ⟨r, hr, hrd⟩ := List.mem_filterMap.1 hd'
  refine ⟨d', List.mem_filterMap.2 ⟨r, ?_, hget hrd⟩, hget hget', hscope⟩
  rw [hs]
  exact List.mem_append_left _ hr

end

namespace Homed

theorem mono (h : s.Homed reading) {reading' : Path → ScopeId → Prop}
    (hreading : ∀ p i, reading p i → reading' p i ∨ s.Houses p i) : s.Homed reading' where
  home hsymbol htype := (h.home hsymbol htype).imp_right fun hhome =>
    hhome.elim (hreading _ _) .inr

/-- Types stay at home while the table grows by such types. -/
theorem grow (h : s.Homed reading) {live : ScopeId → Prop} {q : Nat}
    (hg : s.symbols.Grows live q s'.symbols) (hkept : s.imports.Kept s'.imports)
    (hnew : ∀ {id : SymbolId} {symbol : Symbol}, s'.symbols.symbols[id]? = some symbol →
      symbol.kind.isType = true → s.symbols.symbols[id]? = some symbol ∨
        (symbol.name, id) ∈ s'.symbols.names symbol.scope ∧ reading symbol.path symbol.scope) :
    s'.Homed reading := by
  refine ⟨fun hsymbol htype => ?_⟩
  obtain hold | ⟨hname, hreading⟩ := hnew hsymbol htype
  · obtain ⟨hname, hhome⟩ := h.home hold htype
    exact ⟨hg.mem_names hname, hhome.imp_right (·.kept hkept)⟩
  · exact ⟨hname, .inl hreading⟩

theorem still (h : s.Homed reading) {live : ScopeId → Prop} {q : Nat}
    (hg : s.symbols.Grows live q s'.symbols) (hkept : s.imports.Kept s'.imports)
    (hsymbols : s'.symbols.symbols = s.symbols.symbols) : s'.Homed reading :=
  h.grow hg hkept fun hsymbol _ => .inl (hsymbols ▸ hsymbol)

/-- A type that is bound in the scope of a file being read is at home there. -/
theorem bind (h : s.Homed reading) {symbol : Symbol} (hlt : Nat.lt i s.symbols.scopes.size)
    (hreading : symbol.kind.isType = true → reading symbol.path i)
    (hsymbols : s'.symbols = s.symbols.bind i symbol) (himports : s'.imports = s.imports) :
    s'.Homed reading := by
  refine h.grow (hsymbols ▸ SymbolTable.grows_bind s.symbols i symbol) (himports ▸ .refl _)
    fun {id symbol'} hsymbol htype => ?_
  rw [hsymbols] at hsymbol ⊢
  rw [SymbolTable.symbols_bind, Array.getElem?_push] at hsymbol
  split at hsymbol
  · rename_i hid
    cases hsymbol
    refine .inr ⟨?_, hreading htype⟩
    rw [SymbolTable.names_bind s.symbols symbol hlt, hid]
    exact List.mem_append_right _ List.mem_cons_self
  · exact .inl hsymbol

end Homed

end Session

/-! ## Reading a file -/

namespace Source

variable {reading : Path → ScopeId → Prop} {tree : FileTree} {text : String} {f : SourceFile}
  {s s' : Session} {d : Document}

/-- Loading a file leaves all types at home. -/
def KeepsHomed (load : Loader) : Prop :=
  ∀ reading f s d s', load f s = (.ok d, s') → s.Standing → s.Homed reading → s'.Homed reading

theorem Run.homed {env : ParserEnv} {s s' : ParserState} (hload : env.Loads)
    (hall : KeepsHomed env.load) (h : Run env s s') (hs : Standing env s)
    (hroot : reading env.source.path env.root) (hhomed : s.session.Homed reading) :
    s'.session.Homed reading := by
  induction h with
  | read h =>
    have ha := Advances.of_reads h
    exact hhomed.still ha.symbols ha.kept (congrArg (·.symbols) h.symbols)
  | own s node => exact hhomed
  | number s => exact hhomed.still (.same _) (.refl _) rfl
  | bind s symbol hseq hfree hkind hpath =>
    refine hhomed.bind hs.scope_lt (fun htype => ?_) rfl rfl
    rw [hpath, hkind htype]
    exact hroot
  | inside _ _ ih =>
    rename_i s s' kind _ _
    have hin := SymbolTable.grows_addScope s.session.symbols kind (some (s.scope env)) env.file
      (fun _ => False) 0
    exact (ih (hs.enter _) (hhomed.still hin (.refl _) rfl)).still (.same _) (.refl _) rfl
  | load h hscope =>
    rename_i s f d session
    exact (hall reading f s.session d session h hs.session hhomed).still
      (SymbolTable.grows_addImport session.symbols env.root d.scope s.seq) (.refl _) rfl
  | trans h _ ih ih' => exact ih' (h.standing hload hs) (ih hs hhomed)

/-- The shapes of a file that is being read are declared in its scope. -/
theorem declareAll_homed (hfile : reading d.path d.scope) : ∀ (shapes : List ResultShape)
    (s : Session), s.symbols.IsFile d.scope → s.Homed reading →
    (Shape.declareAll d shapes s).2.Homed reading
  | [], _, _, h => h
  | shape :: rest, s, hscope, h => by
    refine declareAll_homed hfile rest _ (hscope.grows ((Shape.declare_ok hscope shape).1.symbols 0)) ?_
    show (Shape.declare d s shape).2.Homed reading
    rw [Shape.declare_eq]
    split
    · exact h.still (.same _) (.refl _) rfl
    · exact h.bind hscope.lt (fun _ => hfile) rfl rfl

/-- Completing a file adds no types but its shapes. -/
theorem complete_homed (hfile : reading d.path d.scope) (hscope : s.symbols.IsFile d.scope)
    (h : s.Homed reading) : (complete d s).2.Homed reading := by
  have hshaped : (shaped d s).2.Homed reading :=
    declareAll_homed (d := { d with decls := (firstPass d s).1 }) hfile _ _ hscope
      (h.still (.same _) (.refl _) rfl)
  exact hshaped.still (SymbolTable.grows_closeChildren _ d.file (fun _ => False) 0) (.refl _) rfl

theorem parseText_homed {depth : Nat} (hall : KeepsHomed (loadFile tree depth))
    (h : parseText tree (loadFile tree depth) text f s = (.ok d, s')) (hs : s.Standing)
    (hhomed : s.Homed reading) : s'.Homed reading := by
  obtain ⟨-, rfl⟩ | ⟨imports, s₁, hbegin, hparse, rfl⟩ := parseText_ok h
  · exact hhomed
  · obtain ⟨tokens, items, final, -, hitems, hcomplete⟩ := parseDocument_steps hparse
    let file : SourceFile := { f with path := tree.canonical f.path }
    let env : ParserEnv := fileEnv tree (loadFile tree depth) file { s with imports }
    let root : ScopeId := s.symbols.scopes.size
    let reading' (p : Path) (i : ScopeId) : Prop := reading p i ∨ p = file.path ∧ i = root
    have hload : env.Loads := loadFile_keeps depth
    have hrun : Run env (fileStart tokens file { s with imports }) final :=
      (Parser.items_parsed hload rfl _ _ _ ⟨.read (.refl _), fun _ _ h => h⟩ hitems).run
    have hstart : Standing env (fileStart tokens file { s with imports }) :=
      fileStart_standing (begun_standing hs hbegin)
    have hbegun : s.imports.Kept imports := .begin hbegin
    have hfinal : final.session.Homed reading' := by
      refine hrun.homed hload hall hstart (.inr ⟨rfl, rfl⟩) ?_
      exact (hhomed.mono fun p i h => .inl (.inl h)).still
        (grows_fileTable file s.symbols (fun _ => False) 0) hbegun rfl
    have hfile : final.session.symbols.IsFile root :=
      SymbolTable.IsFile.grows ⟨_, scopes_fileTable file s.symbols, rfl⟩ (hrun.advances hload).symbols
    have hend : (complete (parsedDocument file { s with imports } final (items.filterMap (·.decl)))
        (fileEnd final)).2.Homed reading' :=
      complete_homed (.inr ⟨rfl, rfl⟩) hfile
        (hfinal.still (.same _) (.refl _) rfl)
    have hkey : s₁.imports.isInProgress file.path = true := by
      obtain ⟨items, final, t, hparsed⟩ := parseDocument_parsed (loadFile_keeps depth) hparse
      exact begun_isInProgress hbegin (hparsed.before (loadFile_keeps depth)).kept
    have hscope : d.scope = root := congrArg (·.1.scope) hcomplete.symm
    rw [hcomplete] at hend
    refine ⟨fun hsymbol htype => (hend.home hsymbol htype).imp_right fun hhome => ?_⟩
    obtain (hreading | ⟨hpath, hroot⟩) | hhouses := hhome
    · exact .inl hreading
    · rw [hpath, hroot, ← hscope]
      exact .inr (Session.houses_finish rfl)
    · exact .inr (hhouses.finish rfl hkey)

/-- Loading a file, with all that it imports, leaves all types at home. -/
theorem loadFile_homed (tree : FileTree) : ∀ depth : Nat, KeepsHomed (loadFile tree depth)
  | depth, reading, f, s, d, s', h, hs, hhomed => by
    obtain ⟨-, rfl⟩ | ⟨depth', text, -, hparse, rfl⟩ := loadFile_ok h
    · exact hhomed
    · exact parseText_homed (loadFile_homed tree depth') hparse hs hhomed

end Source

/-! ## Compiling -/

namespace Entry

variable {tree : FileTree} {platform : Option Platform} {e : Entry} {d : Document} {s : Session}

/-- At the end of a compilation every type is bound in the scope of the document at its path. -/
theorem compile_homed (h : e.compile tree platform = (.ok d, s)) :
    s.Homed fun _ _ => False := by
  have hfresh : ({ platform } : Session).Homed fun _ _ => False := ⟨fun h => by simp at h⟩
  cases e with
  | file path roots =>
    simp only [compile, Session.compileFile] at h
    split at h
    · cases h
    · rename_i s₁ hprelude
      obtain rfl | ⟨f, d₁, s₂, hload, rfl⟩ := Session.loadPrelude_ok hprelude
      · exact loadFile_homed tree _ _ _ _ _ _ h fresh_standing hfresh
      · have hstand : s₂.Standing := (loadFile_keeps _ _ _ _ _ hload).1.standing fresh_standing
        have hhomed := loadFile_homed tree _ _ _ _ _ _ hload fresh_standing hfresh
        exact loadFile_homed tree _ _ _ _ _ _ h (hstand.withPrelude d₁.scope) ⟨hhomed.home⟩
  | text contents name =>
    have h : parseText tree (loadFile tree (Session.importDepth tree)) contents { path := name }
        { platform } = (.ok d, s) := h
    exact parseText_homed (loadFile_homed tree _) h fresh_standing hfresh

/-- In a compilation without errors every type is one of the declarations of the document at its
path. -/
theorem type_declared (h : e.compile tree platform = (.ok d, s))
    (hclean : s.diagnostics.hasErrors = false) {id : SymbolId} {symbol : Symbol}
    (hsymbol : s.symbols.symbols[id]? = some symbol) (htype : symbol.kind.isType = true) :
    ∃ d' ∈ s.imports.documents, s.imports.get? symbol.path = some d' ∧
      symbol.declared ∈ d'.declared := by
  obtain ⟨hstand, -, hsound⟩ := compile_sound h hclean
  obtain ⟨hname, hfalse | ⟨d', hd', hget, hscope⟩⟩ := (compile_homed h).home hsymbol htype
  · exact hfalse.elim
  · rw [← hscope] at hname
    exact ⟨d', hd', hget, ((hsound.docs hget).declared.only hstand.table hname hsymbol).1⟩

end Entry

end Scaffold
