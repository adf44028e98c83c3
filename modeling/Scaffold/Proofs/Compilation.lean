import Scaffold.Proofs.Session

/-!
# What compiling does

A file is parsed by a run of the parser, completed and put away; the files it imports go through the
same before it goes on.

* `loadFile_keeps`: loading a file leaves what was there before as it is.
* `loadFile_sound`: every document a compilation ends with is what its text says.
* `compileText_of_hasChars`, `compileFile_of_hasChars`: a closed program is compiled from its
  characters.
-/

namespace Scaffold

namespace Source

/-! ## The steps of a file -/

def fileEnv (tree : FileTree) (load : Loader) (f : SourceFile) (s : Session) : ParserEnv :=
  { file := s.symbols.files.size, source := f, root := s.symbols.scopes.size, tree, load }

/-- The table with the scope of a new file. -/
def fileTable (f : SourceFile) (t : SymbolTable) : SymbolTable :=
  ((t.addFile f.path).2.addScope .file none t.files.size).2

/-- The state at the start of a file. -/
def fileStart (tokens : List Token) (f : SourceFile) (s : Session) : ParserState :=
  { rest := tokens
    session := { s with symbols := fileTable f s.symbols, stack := s.symbols.scopes.size :: s.stack } }

/-- The document of a file that has been parsed. -/
def parsedDocument (f : SourceFile) (s : Session) (final : ParserState) (decls : List Decl) :
    Document :=
  { file := s.symbols.files.size, path := f.path, origin := f.origin, scope := s.symbols.scopes.size
    imports := final.imports, decls }

/-- The session outside a file that has been parsed. -/
def fileEnd (final : ParserState) : Session :=
  { final.session with stack := final.session.stack.tail }

section

variable {tree : FileTree} {load : Loader} {text : String} {f : SourceFile} {s s' : Session}
  {d : Document} {tokens : List Token}

/-- A file whose text is made of tokens is read to its end, and then its names are bound. -/
theorem parseDocument_eq (load : Loader) (f : SourceFile) (s : Session)
    (htokens : tokenize text = .ok tokens) :
    parseDocument tree load text f s =
      let r := Parser.decls (fileEnv tree load f s) (fileStart tokens f s)
      match r.1 with
      | .error e => (.error e, fileEnd r.2)
      | .ok decls =>
        let c := complete (parsedDocument f s r.2 decls) (fileEnd r.2)
        (.ok c.1, c.2) := by
  unfold parseDocument
  rw [htokens]
  rfl

theorem parseDocument_decls (h : parseDocument tree load text f s = (.ok d, s')) :
    ∃ tokens decls final, tokenize text = .ok tokens ∧
      Parser.decls (fileEnv tree load f s) (fileStart tokens f s) = (.ok decls, final) ∧
      complete (parsedDocument f s final decls) (fileEnd final) = (d, s') := by
  cases htokens : tokenize text with
  | error m =>
    unfold parseDocument at h
    rw [htokens] at h
    cases h
  | ok tokens =>
    rw [parseDocument_eq load f s htokens] at h
    cases hdecls : Parser.decls (fileEnv tree load f s) (fileStart tokens f s) with
    | mk result final =>
      rw [hdecls] at h
      cases result with
      | error e => cases h
      | ok decls =>
        cases h
        exact ⟨tokens, decls, final, rfl, hdecls, rfl⟩

theorem parseDocument_steps (h : parseDocument tree load text f s = (.ok d, s')) :
    ∃ tokens items final, tokenize text = .ok tokens ∧
      Parser.items (fileEnv tree load f s) (fileStart tokens f s) = (.ok items, final) ∧
      complete (parsedDocument f s final (items.filterMap (·.decl))) (fileEnd final) = (d, s') := by
  obtain ⟨tokens, decls, final, htokens, hdecls, hcomplete⟩ := parseDocument_decls h
  obtain ⟨items, hitems, rfl⟩ := Parser.decls_ok hdecls
  exact ⟨tokens, items, final, htokens, hitems, hcomplete⟩

theorem grows_fileTable (f : SourceFile) (t : SymbolTable) (live : ScopeId → Prop) (q : Nat) :
    t.Grows live q (fileTable f t) :=
  ⟨id, (SymbolTable.grows_addScope (t.addFile f.path).2 .file none t.files.size live q).scopes, rfl⟩

theorem scopes_fileTable (f : SourceFile) (t : SymbolTable) :
    (fileTable f t).scopes[t.scopes.size]? = some { kind := .file, parent := none, file := t.files.size } := by
  simp [fileTable, SymbolTable.addFile, SymbolTable.scopes_addScope]

theorem fileStart_standing (hs : s.Standing) :
    Standing (fileEnv tree load f s) (fileStart tokens f s) where
  session := by
    have htable : (s.symbols.addFile f.path).2.WellFormed :=
      ⟨hs.table.parent_lt, hs.table.bound, hs.table.nodup, hs.table.inner⟩
    refine ⟨htable.addScope .file (fun _ hp => by cases hp) _, fun c hc => ?_, hs.held⟩
    have hsize : (fileTable f s.symbols).scopes.size = s.symbols.scopes.size + 1 :=
      Array.size_push ..
    show Nat.lt c (fileTable f s.symbols).scopes.size
    rw [hsize]
    obtain rfl | hc := List.mem_cons.1 hc
    · exact Nat.lt_succ_self _
    · exact Nat.lt_succ_of_lt (hs.stack c hc)
  root := ⟨_, scopes_fileTable f s.symbols, rfl, rfl⟩

end

/-- Loading a file leaves what was there before as it is, and the session has the document. -/
def Keeps (load : Loader) : Prop :=
  ∀ f s d s', load f s = (.ok d, s') → s.Before s' ∧
    (s.Standing → s'.imports.get? d.path = some d)

theorem Keeps.env {load : Loader} (h : Keeps load) (tree : FileTree) (f : SourceFile) (s : Session) :
    (fileEnv tree load f s).Loads := h

/-- The file was parsed by a run of the parser, and what it read was completed. -/
structure FileParsed (tree : FileTree) (load : Loader) (text : String) (f : SourceFile) (s : Session)
    (items : List Item) (final : ParserState) (t : SymbolTable) (d : Document) (s' : Session) :
    Prop where
  parsed : ∃ tokens, tokenize text = .ok tokens ∧
    Parser.items (fileEnv tree load f s) (fileStart tokens f s) = (.ok items, final) ∧
    ItemsParsed (fileEnv tree load f s) (fileStart tokens f s) items final
  completes : Completes (parsedDocument f s final (items.filterMap (·.decl))) (fileEnd final) t d s'

section

variable {tree : FileTree} {load : Loader} {text : String} {f : SourceFile} {s s' : Session}
  {d : Document}

theorem parseDocument_parsed (hload : Keeps load)
    (h : parseDocument tree load text f s = (.ok d, s')) :
    ∃ items final t, FileParsed tree load text f s items final t d s' := by
  obtain ⟨tokens, items, final, htokens, hitems, hcomplete⟩ := parseDocument_steps h
  have hparsed : ItemsParsed (fileEnv tree load f s) (fileStart tokens f s) items final :=
    Parser.items_parsed (hload.env tree f s) rfl _ _ _ ⟨.read (.refl _), fun _ _ h => h⟩ hitems
  have hfile : (fileTable f s.symbols).IsFile s.symbols.scopes.size :=
    ⟨_, scopes_fileTable f s.symbols, rfl⟩
  have hfinal := hfile.grows (hparsed.run.advances (hload.env tree f s)).symbols
  obtain ⟨t, ht⟩ := complete_ok hfinal hcomplete
  exact ⟨items, final, t, ⟨tokens, htokens, hitems, hparsed⟩, ht⟩

namespace FileParsed

variable {items : List Item} {final : ParserState} {t : SymbolTable}

/-- Parsing a file brings names into its own scope only. -/
theorem before (hload : Keeps load) (h : FileParsed tree load text f s items final t d s') :
    s.Before s' := by
  obtain ⟨⟨tokens, -, -, hparsed⟩, hcompletes⟩ := h
  have ha := hparsed.run.advances (hload.env tree f s)
  have hstack : final.session.stack = s.symbols.scopes.size :: s.stack := ha.stack
  have hsession := hcompletes.session
  have hsymbols : s'.symbols = t.closeChildren s.symbols.files.size := congrArg (·.symbols) hsession
  have hgrows : s.symbols.Grows (fun _ => False) 0 s'.symbols := by
    have hall : s.symbols.Grows (· = s.symbols.scopes.size) 0 s'.symbols := by
      rw [hsymbols]
      exact (((grows_fileTable f s.symbols _ 0).trans (Nat.le_refl 0) ha.symbols).trans
        (Nat.le_refl 0) (hcompletes.symbols 0)).trans (Nat.le_refl 0)
        (SymbolTable.grows_closeChildren ..)
    exact hall.mono (fun i hi heq => Nat.ne_of_lt hi heq) (Nat.le_refl 0)
  have hstack' : s'.stack = s.stack :=
    (congrArg (·.stack) hsession).trans (congrArg List.tail hstack)
  refine ⟨hstack', ?_, ?_, ?_, hgrows, ?_, fun hs => ?_⟩
  · exact (congrArg (·.platform) hsession).trans ha.platform
  · obtain ⟨more, hmore⟩ := ha.diagnostics
    obtain ⟨more', hmore'⟩ := hcompletes.diagnostics
    refine ⟨more ++ more', ?_⟩
    rw [hmore', ← List.append_assoc]
    exact congrArg (· ++ more') hmore
  · exact Nat.le_trans ha.nextNode hcompletes.nextNode
  · rw [congrArg (·.imports) hsession]
    exact ha.kept
  · have hfinal := (hparsed.run.standing (hload.env tree f s) (fileStart_standing hs)).session
    refine ⟨?_, fun c hc => ?_, ?_⟩
    · rw [hsymbols]
      exact (hcompletes.table hfinal.table).closeChildren _
    · rw [hstack'] at hc
      exact Nat.lt_of_lt_of_le (hs.stack c hc) hgrows.scopes_size
    · rw [congrArg (·.imports) hsession]
      exact hfinal.held

end FileParsed

/-! ## Files and their imports -/

theorem parseText_ok (h : parseText tree load text f s = (.ok d, s')) :
    (s.imports.get? (tree.canonical f.path) = some d ∧ s' = s) ∨
    ∃ imports s₁, s.imports.begin (tree.canonical f.path) = .ok (none, imports) ∧
      parseDocument tree load text { f with path := tree.canonical f.path } { s with imports }
        = (.ok d, s₁) ∧
      s' = { s₁ with imports := s₁.imports.finish (tree.canonical f.path) d } := by
  unfold parseText at h
  dsimp only at h
  split at h
  · cases h
  · rename_i hbegin
    cases h
    exact .inl ⟨ImportTable.begin_some hbegin, rfl⟩
  · rename_i imports hbegin
    split at h
    · rename_i hparse
      cases h
      exact .inr ⟨imports, _, hbegin, hparse, rfl⟩
    · cases h

theorem path_of_parsed {items : List Item} {final : ParserState} {t : SymbolTable}
    (h : FileParsed tree load text f s items final t d s') : d.path = f.path :=
  congrArg (·.path) h.completes.document

theorem begun_standing {imports : ImportTable} {path : Path} (hs : s.Standing)
    (h : s.imports.begin path = .ok (none, imports)) :
    Session.Standing { s with imports } :=
  ⟨hs.table, hs.stack, ImportTable.Held.begin hs.held h⟩

/-- The file that is being parsed has its mark until it is finished. -/
theorem begun_isInProgress {imports imports' : ImportTable} {path : Path}
    (h : s.imports.begin path = .ok (none, imports)) (hkept : imports.Kept imports') :
    imports'.isInProgress path = true := by
  obtain ⟨-, -, hstate⟩ := ImportTable.begin_none h
  refine hkept.inProgress ?_
  rw [ImportTable.isInProgress_iff, hstate, if_pos (Path.same_iff.2 rfl)]

/-- Parsing a text as a file leaves what was there before as it is. -/
theorem parseText_keeps (hload : Keeps load) (h : parseText tree load text f s = (.ok d, s')) :
    s.Before s' ∧ (s.Standing → s'.imports.get? d.path = some d) := by
  obtain ⟨hget, rfl⟩ | ⟨imports, s₁, hbegin, hparse, rfl⟩ := parseText_ok h
  · exact ⟨.refl _, fun hs => hs.held hget⟩
  · obtain ⟨items, final, t, hparsed⟩ := parseDocument_parsed hload hparse
    have hpath : d.path = tree.canonical f.path := path_of_parsed hparsed
    obtain ⟨hstack, hplatform, hdiag, hnode, hsymbols, hkept, hstanding⟩ := hparsed.before hload
    rw [← hpath] at hbegin
    refine ⟨⟨hstack, hplatform, hdiag, hnode, hsymbols, ?_, fun hs => ?_⟩, fun _ => ?_⟩
    · rw [← hpath]
      exact ImportTable.parse_kept hbegin hkept
    · have hend := hstanding (begun_standing hs hbegin)
      refine ⟨hend.table, hend.stack, ?_⟩
      rw [← hpath]
      exact ImportTable.Held.finish hend.held (begun_isInProgress hbegin hkept)
    · rw [← hpath]
      exact ImportTable.get?_finish d.path d

/-- A file that is loaded was finished before, or is read and parsed now. -/
theorem loadFile_ok {depth : Nat} (h : loadFile tree depth f s = (.ok d, s')) :
    (s.imports.get? (tree.canonical f.path) = some d ∧ s' = s) ∨
    ∃ depth' text, tree.read f.path = .ok text ∧
      parseText tree (loadFile tree depth') text f s = (.ok d, s') ∧ depth = depth' + 1 := by
  cases depth with
  | zero => cases h
  | succ depth =>
    rw [loadFile] at h
    split at h
    · rename_i hget
      cases h
      exact .inl ⟨hget, rfl⟩
    · split at h
      · -- Starting a file again is an error.
        rename_i hprogress
        rw [ImportTable.isInProgress_iff] at hprogress
        obtain ⟨hget, -⟩ | ⟨imports, s₁, hbegin, -⟩ := parseText_ok h
        · rw [ImportTable.get?_eq_some_iff, hprogress] at hget
          cases hget
        · obtain ⟨hnew, -⟩ := ImportTable.begin_none hbegin
          rw [hnew] at hprogress
          cases hprogress
      · split at h
        · cases h
        · rename_i text hread
          exact .inr ⟨depth, text, hread, h, rfl⟩

/-- Loading a file, with all that it imports, leaves what was there before as it is. -/
theorem loadFile_keeps : ∀ depth : Nat, Keeps (loadFile tree depth)
  | depth, f, s, d, s', h => by
    obtain ⟨hget, rfl⟩ | ⟨depth', text, -, hparse, rfl⟩ := loadFile_ok h
    · exact ⟨.refl _, fun hs => hs.held hget⟩
    · exact parseText_keeps (loadFile_keeps depth') hparse

end

/-! ## What a finished file says -/

theorem Locals.ofParams_congr {base : SymbolId} {ps ps' : List Field}
    (h : ps'.map (·.name) = ps.map (·.name)) : Locals.ofParams base ps' = Locals.ofParams base ps := by
  have hnames : ∀ ps : List Field, Locals.ofParams base ps
      = (ps.map (·.name)).foldl Locals.declare ⟨[], base⟩ := fun ps => by
    rw [List.foldl_map]
    rfl
  rw [hnames, hnames, h]

theorem Binder.FuncBound.declared {t : SymbolTable} {f f' : Func} (h : FuncBound t f f') :
    f'.declared = f.declared := by
  have hparams : ∀ f : Func, f.params.map (fun p => (⟨p.name, .param, f.header.id⟩ : Declared))
      = (f.params.map (·.name)).map (⟨·, .param, f.header.id⟩) := fun f => by
    rw [List.map_map]
    rfl
  rw [Func.declared, Func.declared, hparams, hparams, h.params, h.header, h.body.vars]

theorem Decl.body_uses {d : Decl} {y : List Declared × Func} (hy : y ∈ d.bodies) {u : Use}
    (hu : u ∈ Stmt.usesAll y.2.body) : u ∈ d.uses := by
  cases d with
  | func f =>
    rw [List.mem_singleton.1 hy] at hu
    exact List.mem_append_right _ hu
  | controller c =>
    obtain ⟨f, hf, rfl⟩ := List.mem_map.1 hy
    exact List.mem_flatMap.2 ⟨f, hf, List.mem_append_right _ hu⟩
  | _ => cases hy

theorem Decl.bodies_of_isData {d : Decl} (h : d.isData = true) : d.bodies = [] := by
  cases d with
  | domain d => rfl
  | table t => rfl
  | _ => cases h

/-- Names that were read in order and bound against the table at the end are bound as they are
read. -/
theorem BodyRead.lexical {root : ScopeId} {final : ParserState} {before : List Path}
    {members : List Declared} {f f' : Func} {t : SymbolTable} {s : Session} {file : FileId}
    (h : BodyRead root final before members f)
    (hg : final.session.symbols.Grows (· = root) final.seq t) (hwf : t.WellFormed)
    (hbound : Binder.FuncBound t f f') (hfresh : Fresh (Stmt.usesAll f.body))
    (himports : s.imports = final.session.imports) (hsymbols : s.symbols = t.closeChildren file) :
    Lexical s root before members f' := by
  obtain ⟨roots, ms, base, hopen, hms, hbase, hx⟩ := h
  have hclose : t.Grows (fun _ => False) 0 s.symbols := by
    rw [hsymbols]
    exact SymbolTable.grows_closeChildren ..
  have hnames : ∀ i, s.symbols.names i = t.names i := fun i => by
    rw [hsymbols, SymbolTable.names_closeChildren]
  have hroots : before.flatMap s.namesAt = roots.flatMap t.names := by
    clear hx
    induction hopen with
    | nil => rfl
    | cons hp _ ih =>
      obtain ⟨d, hd, rfl⟩ := hp
      rw [List.flatMap_cons, List.flatMap_cons, ih, Session.namesAt, himports, hd]
      simp only [Option.map_some, Option.getD_some, hnames]
  refine ⟨fun p hp => ?_, ms, base, hclose.declares (hg.declares hms), ?_, fun x' hx' => ?_⟩
  · obtain ⟨r, -, d, hd, -⟩ := forall₂_mem_right hopen.flip hp
    exact ⟨d, by rw [himports]; exact hd⟩
  · rw [hbound.declared]
    exact (hbase.grows hg).grows hclose
  · rw [Locals.ofParams_congr hbound.params] at hx'
    have hfresh' : Fresh ((Stmt.readingsAll (.ofParams base f.params) f.body).map (·.2)) := by
      rw [Stmt.map_readingsAll _ ⟨[], 0⟩]
      exact hfresh
    obtain ⟨x, hxmem, hx₁, -, id, symbol, hresolve, -, -, -, href⟩ :=
      forall₂_mem_right (hbound.body.readings (.ofParams base f.params) hwf hfresh') hx'
    obtain ⟨-, hfind⟩ := hx x hxmem
    refine ⟨id, by rw [href], ?_⟩
    have hgrows : final.session.symbols.Grows (Nat.le · root) final.seq t :=
      hg.mono (fun i _ hi => Nat.le_of_eq hi) (Nat.le_refl _)
    have hprelude : s.preludeNames.lookup x.2.ref.name
        = t.prelude.bind (t.lookup · x.2.ref.name) := by
      unfold Session.preludeNames
      rw [hclose.prelude]
      cases t.prelude with
      | none => rfl
      | some scope => simp [hnames, SymbolTable.lookup_eq_names]
    rw [href, hx₁, ← hresolve, SymbolTable.resolve_eq, hfind t hgrows hwf, hnames, hroots,
      ← hprelude]
    exact List.lookup_append

/-- Loading a file leaves all documents sound, and adds sound ones. -/
def KeepsSound (tree : FileTree) (texts : Path → String → Prop) (load : Loader) : Prop :=
  ∀ f s d s', load f s = (.ok d, s') → s'.Clean → s.Standing → s.Sound tree texts →
    s'.Sound tree texts

namespace FileParsed

variable {tree : FileTree} {texts : Path → String → Prop} {depth : Nat} {text : String}
  {f : SourceFile} {s s' : Session} {items : List Item} {final : ParserState} {t : SymbolTable}
  {d : Document} (hsound : KeepsSound tree texts (loadFile tree depth))
  (h : FileParsed tree (loadFile tree depth) text f s items final t d s') (hclean : s'.Clean)
  (hs : s.Standing) (hdocs : s.Sound tree texts)
include hsound h hclean hs hdocs

/-- The documents there are when the last declaration has been read are sound, and so is what was
read. -/
theorem read_sound : final.session.Sound tree texts ∧
    Standing (fileEnv tree (loadFile tree depth) f s) final ∧
    FileRead (fileEnv tree (loadFile tree depth) f s) items final := by
  obtain ⟨⟨tokens, -, -, hparsed⟩, hcompletes⟩ := h
  have hload : (fileEnv tree (loadFile tree depth) f s).Loads := loadFile_keeps depth
  have hstand : Standing (fileEnv tree (loadFile tree depth) f s) (fileStart tokens f s) :=
    fileStart_standing hs
  have hclean' : final.session.Clean :=
    Session.Clean.of_append (s := fileEnd final) hclean hcompletes.diagnostics
  have hstart : (fileStart tokens f s).session.Sound tree texts := by
    refine hdocs.grow (grows_fileTable f s.symbols (fun _ => False) 0) id (fun _ => id)
      (fun c hc => ?_) .inl
    obtain rfl | hc := List.mem_cons.1 hc
    · exact .inr (Nat.le_refl _)
    · exact .inl hc
  refine ⟨hparsed.run.sound hload hsound hclean' hstand List.mem_cons_self hstart,
    hparsed.run.standing hload hstand, hparsed.read hclean' hstand (.nil rfl ?_ ?_)⟩
  · exact SymbolTable.names_of_scope (scopes_fileTable f s.symbols)
  · exact SymbolTable.imports_of_scope (scopes_fileTable f s.symbols)

theorem docs_sound : s'.Sound tree texts := by
  obtain ⟨hfinal, -⟩ := h.read_sound hsound hclean hs hdocs
  have hbefore := h.before (loadFile_keeps depth)
  obtain ⟨⟨tokens, -, -, hparsed⟩, hcompletes⟩ := h
  have hload : (fileEnv tree (loadFile tree depth) f s).Loads := loadFile_keeps depth
  have ha := hparsed.run.advances hload
  have hstack : final.session.stack = s.symbols.scopes.size :: s.stack := ha.stack
  have himports : s'.imports = final.session.imports := congrArg (·.imports) hcompletes.session
  have hgrows : final.session.symbols.Grows (· = s.symbols.scopes.size) 0 s'.symbols := by
    rw [congrArg (·.symbols) hcompletes.session]
    exact (hcompletes.symbols 0).trans (Nat.le_refl 0) (SymbolTable.grows_closeChildren ..)
  refine hfinal.grow hgrows (fun hd => himports ▸ hd) (fun hd hlive => ?_) (fun c hc => ?_)
    fun hd => .inl (himports ▸ hd)
  · refine (hfinal.docs hd).apart ?_
    rw [hlive, hstack]
    exact List.mem_cons_self
  · rw [hbefore.stack] at hc
    rw [hstack]
    exact .inl (List.mem_cons_of_mem _ hc)

/-- The new document is what its text says. -/
theorem doc_sound (htext : texts f.path text) : DocSound tree texts s' d := by
  obtain ⟨hfinal, hstand, hread⟩ := h.read_sound hsound hclean hs hdocs
  have hbefore := h.before (loadFile_keeps depth)
  obtain ⟨⟨tokens, htokens, hitems, -⟩, hcompletes⟩ := h
  have himports : s'.imports = final.session.imports := congrArg (·.imports) hcompletes.session
  have hsymbols : s'.symbols = t.closeChildren s.symbols.files.size :=
    congrArg (·.symbols) hcompletes.session
  have hwf : t.WellFormed := hcompletes.table hstand.session.table
  have hclose : t.Grows (fun _ => False) 0 s'.symbols := by
    rw [hsymbols]
    exact SymbolTable.grows_closeChildren ..
  have hdocument := hcompletes.document
  have hscope : d.scope = s.symbols.scopes.size := congrArg (·.scope) hdocument
  have huses : ∀ {p d}, (fileEnd final).imports.get? p = some d → ∀ u ∈ d.uses,
      Resolved final.session.symbols u := fun hd => (hfinal.docs hd).uses
  refine ⟨?_, ?_, ?_, fun u hu => ?_, text, items, ?_, ?_, ?_, ?_⟩
  · obtain ⟨sc, hsc, hk, -⟩ := hstand.root
    rw [hscope]
    exact SymbolTable.IsFile.grows ⟨sc, hsc, hk⟩ ((hcompletes.symbols 0).trans (Nat.le_refl 0)
      hclose.still)
  · rw [hscope, hbefore.stack]
    exact fun hc => Nat.lt_irrefl _ (hs.stack _ hc)
  · rw [hscope, hsymbols, SymbolTable.names_closeChildren, ← hsymbols]
    exact hclose.declares (hcompletes.declares hclean rfl hread.names)
  · exact (hcompletes.resolved hclean hstand.session.table rfl hread.fresh huses u hu).grows hclose
  · rw [congrArg (·.path) hdocument]
    exact htext
  · refine ⟨depth, tokens, f, (fileStart tokens f s).session, final, ?_, ?_, htokens, ?_⟩
    · exact (congrArg (·.path) hdocument).symm
    · exact (congrArg (·.origin) hdocument).symm
    · rw [hscope, congrArg (·.file) hdocument]
      exact hitems
  · rw [congrArg (·.imports) hdocument]
    exact hread.files
  · have hdecls := hcompletes.decls hclean
    have hplaced := Item.map_placed [] items
    rw [show (parsedDocument f s final (items.filterMap (·.decl))).decls
      = items.filterMap (·.decl) from rfl, ← hplaced, List.forall₂_map_left_iff] at hdecls
    refine (List.forall₂_and_left _ _ |>.2 ⟨fun _ => id, hdecls⟩).imp
      fun x b ⟨hx, hab⟩ => ⟨hab.header, fun y' hy' => ?_⟩
    obtain ⟨y, hy, hmembers, hbound⟩ := forall₂_mem_right hab.bodies hy'
    have hdecl : x.1 ∈ items.filterMap (·.decl) := hplaced ▸ List.mem_map_of_mem hx
    have hdata : x.1.isData = false := by
      cases hdata : x.1.isData with
      | false => rfl
      | true =>
        rw [Decl.bodies_of_isData hdata] at hy
        cases hy
    rw [hdata, if_neg Bool.false_ne_true] at hbound
    rw [hscope, hmembers]
    refine (hread.bodies x hx y hy).lexical (hcompletes.symbols final.seq) hwf hbound (fun u hu => ?_)
      himports hsymbols
    exact hread.fresh x.1 hdecl u (Decl.body_uses hy hu)

end FileParsed

section

variable {tree : FileTree} {texts : Path → String → Prop}

/-- Parsing a text as a file leaves all documents sound, and the new one is. -/
theorem parseText_sound {depth : Nat} {text : String} {f : SourceFile} {s s' : Session}
    {d : Document} (hsound : KeepsSound tree texts (loadFile tree depth))
    (htext : texts (tree.canonical f.path) text)
    (h : parseText tree (loadFile tree depth) text f s = (.ok d, s')) (hclean : s'.Clean)
    (hs : s.Standing) (hdocs : s.Sound tree texts) : s'.Sound tree texts := by
  obtain ⟨-, rfl⟩ | ⟨imports, s₁, hbegin, hparse, hs'⟩ := parseText_ok h
  · exact hdocs
  · obtain ⟨items, final, t, hparsed⟩ := parseDocument_parsed (loadFile_keeps depth) hparse
    have hbegun : Session.Sound tree texts { s with imports } := by
      have hget := ImportTable.get?_begin hbegin
      refine hdocs.grow (.same _) (fun {p d} hd => ?_) (fun _ => id) (fun c hc => .inl hc)
        fun {p d} hd => .inl ?_
      · exact (hget p).trans hd
      · exact (hget p).symm.trans hd
    have hclean₁ : s₁.Clean := by
      rw [hs'] at hclean
      exact hclean
    have hstand := begun_standing hs hbegin
    have hold := hparsed.docs_sound hsound hclean₁ hstand hbegun
    have hnew := hparsed.doc_sound hsound hclean₁ hstand hbegun htext
    have hg : s₁.symbols.Grows (fun _ => False) 0 s'.symbols := by
      rw [hs']
      exact .same _
    have hstack : s'.stack = s₁.stack := by rw [hs']
    have hget : ∀ {q d'}, s'.imports.get? q = some d' ↔
        s₁.imports.get? q = some d' ∨ (tree.canonical f.path).same q = true ∧ d' = d := by
      rw [hs']
      exact ImportTable.get?_finish_of_isInProgress
        (begun_isInProgress hbegin (hparsed.before (loadFile_keeps depth)).kept)
    have hkept : ∀ {q d'}, s₁.imports.get? q = some d' → s'.imports.get? q = some d' :=
      fun hd => hget.2 (.inl hd)
    refine hold.grow hg hkept (fun _ => id) (fun c hc => .inl (hstack ▸ hc)) fun hd => ?_
    obtain hd | ⟨-, rfl⟩ := hget.1 hd
    · exact .inl hd
    · exact .inr (hold.doc hg hkept (fun _ => id) hnew id (hstack ▸ hnew.apart))

/-- Loading a file, with all that it imports, leaves all documents sound. -/
theorem loadFile_sound (htexts : ∀ p text, tree.read p = .ok text → texts (tree.canonical p) text) :
    ∀ depth : Nat, KeepsSound tree texts (loadFile tree depth)
  | depth, f, s, d, s', h, hclean, hs, hdocs => by
    obtain ⟨-, rfl⟩ | ⟨depth', text, hread, hparse, rfl⟩ := loadFile_ok h
    · exact hdocs
    · exact parseText_sound (loadFile_sound htexts depth') (htexts _ _ hread) hparse hclean hs hdocs

end

end Source

section

variable {ε α : Type} {p : α → Prop} [DecidablePred p] (r : Except ε α)

instance decidableForallOk : Decidable (∀ a, r = .ok a → p a) :=
  match r with
  | .ok a => decidable_of_iff (p a) ⟨fun h _ ha => Except.ok.inj ha ▸ h, fun h => h a rfl⟩
  | .error _ => isTrue nofun

instance decidableExistsOk : Decidable (∃ a, r = .ok a ∧ p a) :=
  match r with
  | .ok a => decidable_of_iff (p a)
      ⟨fun h => ⟨a, rfl, h⟩, fun ⟨_, ha, h⟩ => Except.ok.inj ha ▸ h⟩
  | .error _ => isFalse nofun

end

/-! ## Programs whose characters are known

To compute what a closed program compiles to, the kernel makes the bytes of every literal and reads the
characters back from them, in time quadratic in their number. That a literal is the string of its characters it
sees at once. -/

/-- The characters of a text. Of a literal it holds by `rfl`. -/
def Text.HasChars (text : String) (chars : List Char) : Prop :=
  text = String.ofList chars

theorem Text.HasChars.append {s t : String} {cs ds : List Char} (hs : HasChars s cs)
    (ht : HasChars t ds) : HasChars (s ++ t) (cs ++ ds) := by
  rw [HasChars, String.ofList_append, ← hs, ← ht]

/-- The texts of the files. -/
def FileTree.texts (tree : FileTree) : List String :=
  tree.entries.filterMap fun
    | (_, .file text) => some text
    | _ => none

theorem tokenize_of_hasChars {text : String} {chars : List Char} (h : Text.HasChars text chars) :
    tokenize text = Lexer.tokens (chars.length + 1) none ⟨chars, {}⟩ := by
  rw [tokenize, h, String.toList_ofList]

namespace Source

/-- `parseDocument`, from the tokens of the text. -/
def parseTokens (tree : FileTree) (load : Loader) (tokens : Except Mismatch (List Token))
    (f : SourceFile) (s : Session) : Except CompileError Document × Session :=
  match tokens with
  | .error m => (.error (.fault f.path m.pos (.mismatch m.expected m.found)), s)
  | .ok tokens =>
    let r := Parser.decls (fileEnv tree load f s) (fileStart tokens f s)
    match r.1 with
    | .error e => (.error e, fileEnd r.2)
    | .ok decls =>
      let c := complete (parsedDocument f s r.2 decls) (fileEnd r.2)
      (.ok c.1, c.2)

/-- What `parseText` does around the parsing of the document. -/
def parseWith (tree : FileTree) (parse : Loader) : Loader := fun f s =>
  let key := tree.canonical f.path
  match s.imports.begin key with
  | .error e => (.error e, s)
  | .ok (some document, _) => (.ok document, s)
  | .ok (none, imports) =>
    match parse { f with path := key } { s with imports } with
    | (.ok document, s) => (.ok document, { s with imports := s.imports.finish key document })
    | (.error e, s) => (.error e, { s with imports := s.imports.abandon key })

/-- What `loadFile` does around the parsing of the text. -/
def loadWith (tree : FileTree) (parse : String → Loader) : Loader := fun f s =>
  let key := tree.canonical f.path
  match s.imports.get? key with
  | some document => (.ok document, s)
  | none =>
    if s.imports.isInProgress key then parse "" f s
    else
      match tree.read f.path with
      | .error cause => (.error (.io f.path cause), s)
      | .ok text => parse text f s

/-- The tokens of a text, from its characters if they are known. -/
def lexKnown (known : List (String × List Char)) (text : String) : Except Mismatch (List Token) :=
  match known.lookup text with
  | some chars => Lexer.tokens (chars.length + 1) none ⟨chars, {}⟩
  | none => tokenize text

/-- `loadFile`, with the tokens of `lexKnown`. -/
def loadKnown (known : List (String × List Char)) (tree : FileTree) : (depth : Nat) → Loader
  | 0 => fun f s => (.error (.io f.path .notFound), s)
  | depth + 1 => loadWith tree fun text =>
    parseWith tree (parseTokens tree (loadKnown known tree depth) (lexKnown known text))

section

variable {texts : List String} {chars : List (List Char)}

theorem parseDocument_eq_parseTokens (tree : FileTree) (load : Loader) (text : String)
    (f : SourceFile) (s : Session) :
    parseDocument tree load text f s = parseTokens tree load (tokenize text) f s := by
  cases htokens : tokenize text with
  | error m =>
    unfold parseDocument
    rw [htokens]
    rfl
  | ok tokens => exact parseDocument_eq load f s htokens

theorem parseText_eq_parseWith (tree : FileTree) (load : Loader) (text : String) :
    parseText tree load text = parseWith tree (parseTokens tree load (tokenize text)) :=
  congrArg (parseWith tree) (funext₂ (parseDocument_eq_parseTokens tree load text))

theorem lexKnown_eq (h : List.Forall₂ Text.HasChars texts chars) (text : String) :
    lexKnown (texts.zip chars) text = tokenize text := by
  unfold lexKnown
  induction h with
  | nil => rfl
  | @cons other chars _ _ hchars _ ih =>
    rw [List.zip_cons_cons, List.lookup_cons]
    cases heq : text == other with
    | true => exact (eq_of_beq heq ▸ tokenize_of_hasChars hchars).symm
    | false => exact ih

theorem loadFile_eq_loadKnown (h : List.Forall₂ Text.HasChars texts chars) (tree : FileTree) :
    ∀ depth, loadFile tree depth = loadKnown (texts.zip chars) tree depth
  | 0 => rfl
  | depth + 1 => congrArg (loadWith tree) <| funext fun text => by
    rw [parseText_eq_parseWith, loadFile_eq_loadKnown h tree depth, lexKnown_eq h]

end

end Source

namespace Session

/-- A closed text is compiled from its characters. -/
theorem compileText_of_hasChars {text : String} {chars : List Char} (h : Text.HasChars text chars)
    (tree : FileTree) (name : Path) (s : Session) :
    s.compileText tree text name =
      Source.parseWith tree (Source.parseTokens tree (Source.loadFile tree (importDepth tree))
        (Lexer.tokens (chars.length + 1) none ⟨chars, {}⟩)) { path := name } s := by
  rw [compileText, Source.parseText_eq_parseWith, tokenize_of_hasChars h]

/-- The files of a closed tree are compiled from their characters. -/
theorem compileFile_of_hasChars (tree : FileTree) {chars : List (List Char)}
    (h : List.Forall₂ Text.HasChars tree.texts chars) (entry : Path) (s : Session) :
    s.compileFile tree entry [] =
      Source.loadKnown (tree.texts.zip chars) tree (importDepth tree) { path := entry } s := by
  rw [← Source.loadFile_eq_loadKnown h]
  rfl

end Session

end Scaffold
