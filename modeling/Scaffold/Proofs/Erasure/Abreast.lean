import Scaffold.Compiler
import Scaffold.Proofs.Completion.Agreement
import Scaffold.Proofs.Parser.Agreement
import Scaffold.Proofs.Parser.Passage.Decl
import Scaffold.Proofs.Parser.Function

/-!
# Sessions abreast

Two sessions are abreast if they are in step and have the same files, each as far in one as in the
other, with documents that are alike. The first of them may read a declaration that leaves no name,
and they are still abreast.

* `Link.abreast`: parsers keep sessions abreast, and add places to the file they read only.
* `ParserState.Abreast.aside`: the first parser goes on by itself.
* `ParserState.Abreast.addImport`: both load the file of an import.
-/

namespace Scaffold

open Source (Numbers Document)

/-! ## Files -/

namespace ImportTable

/-- A file is being parsed in both sessions, or it is finished and its documents are alike. -/
inductive StatesAlike (N : Numbers) : ImportState → ImportState → Prop where
  | inProgress : StatesAlike N .inProgress .inProgress
  | parsed {d d' : Document} : d.Alike N (N.bound False) d' → StatesAlike N (.parsed d) (.parsed d')

/-- The same files, each as far in one table as in the other. -/
structure Alike (N : Numbers) (t t' : ImportTable) : Prop where
  entries : List.Forall₂ (fun x x' => x.1 = x'.1 ∧ StatesAlike N x.2 x'.2) t.entries t'.entries
  chain : t.chain = t'.chain
  completed : t.completed = t'.completed

theorem StatesAlike.mono {N N' : Numbers} {x x' : ImportState} (h : StatesAlike N x x')
    (hle : N.Le N') : StatesAlike N' x x' := by
  cases h with
  | inProgress => exact .inProgress
  | parsed hd => exact .parsed (hd.mono hle hle.bound)

/-- A file that is being parsed has no document yet. -/
theorem get?_of_isInProgress {t : ImportTable} {path : Path} (h : t.isInProgress path = true) :
    t.get? path = none := by
  rw [ImportTable.get?, isInProgress_iff.1 h]

namespace Alike

variable {N N' : Numbers} {t t' : ImportTable} {path : Path}

theorem empty (N : Numbers) : Alike N {} {} :=
  ⟨.nil, rfl, rfl⟩

theorem mono (h : Alike N t t') (hle : N.Le N') : Alike N' t t' :=
  ⟨h.entries.imp fun _ _ hx => ⟨hx.1, hx.2.mono hle⟩, h.chain, h.completed⟩

theorem state? (h : Alike N t t') (path : Path) :
    Option.Rel (StatesAlike N) (t.state? path) (t'.state? path) := by
  have hentries := h.entries
  unfold ImportTable.state?
  generalize t.entries = xs, t'.entries = xs' at hentries
  induction hentries with
  | nil => exact .none
  | @cons x x' _ _ hx _ ih =>
    rw [List.find?_cons, List.find?_cons, ← hx.1]
    cases x.1.same path with
    | true => exact .some hx.2
    | false => exact ih

/-- A finished file has documents that are alike. -/
theorem get? (h : Alike N t t') (path : Path) :
    Option.Rel (fun d d' => d.Alike N (N.bound False) d') (t.get? path) (t'.get? path) := by
  have hstate := h.state? path
  unfold ImportTable.get?
  generalize t.state? path = x, t'.state? path = x' at hstate
  cases hstate with
  | none => exact .none
  | some hx =>
    cases hx with
    | inProgress => exact .none
    | parsed hd => exact .some hd

theorem isInProgress (h : Alike N t t') (path : Path) :
    t.isInProgress path = t'.isInProgress path := by
  have hstate := h.state? path
  unfold ImportTable.isInProgress
  generalize t.state? path = x, t'.state? path = x' at hstate
  cases hstate with
  | none => rfl
  | some hx => cases hx <;> rfl

theorem setState {state state' : ImportState} {xs xs' : List (Path × ImportState)}
    (h : List.Forall₂ (fun x x' => x.1 = x'.1 ∧ StatesAlike N x.2 x'.2) xs xs')
    (hstate : StatesAlike N state state') :
    List.Forall₂ (fun x x' => x.1 = x'.1 ∧ StatesAlike N x.2 x'.2)
      (setState path state xs) (ImportTable.setState path state' xs') := by
  induction h with
  | nil => exact .cons ⟨rfl, hstate⟩ .nil
  | @cons x x' _ _ hx hxs ih =>
    obtain ⟨p, x⟩ := x
    obtain ⟨p', x'⟩ := x'
    obtain ⟨rfl, hx⟩ := hx
    rw [ImportTable.setState, ImportTable.setState]
    split
    · exact .cons ⟨rfl, hstate⟩ hxs
    · exact .cons ⟨rfl, hx⟩ ih

/-- A file that is started in one session is started in the other. -/
theorem begin {imports : ImportTable} (h : Alike N t t')
    (hbegin : t.begin path = .ok (none, imports)) :
    ∃ imports', t'.begin path = .ok (none, imports') ∧ Alike N imports imports' := by
  have hstate := h.state? path
  rw [(begin_none hbegin).1] at hstate
  have hnew : t'.state? path = none := by
    generalize t'.state? path = x at hstate
    cases hstate
    rfl
  unfold ImportTable.begin at hbegin ⊢
  rw [hnew]
  split at hbegin
  · cases hbegin
  · cases hbegin
  · cases hbegin
    exact ⟨_, rfl, setState h.entries .inProgress, congrArg (· ++ [path]) h.chain, h.completed⟩

theorem finish {d d' : Document} (h : Alike N t t') (path : Path)
    (hd : d.Alike N (N.bound False) d') : Alike N (t.finish path d) (t'.finish path d') :=
  ⟨setState h.entries (.parsed hd), congrArg (cutChain path) h.chain,
    congrArg (· ++ [path]) h.completed⟩

/-- The finished documents are alike, one by one. -/
theorem documents (h : Alike N t t') :
    List.Forall₂ (fun d d' => d.Alike N (N.bound False) d') t.documents t'.documents := by
  unfold ImportTable.documents
  rw [← h.completed]
  refine List.rel_filterMap (R := (· = ·)) (fun p p' hp => ?_) (List.forall₂_eq_eq_eq ▸ rfl)
  subst hp
  exact h.get? p

end Alike

end ImportTable

/-! ## Tables -/

namespace SymbolTable.TablesAlike

variable {N : Numbers} {exact : Prop} {t t' u : SymbolTable} {f : FileId} {c c' : ScopeId}

/-- The first table may grow where nothing is looked up. -/
theorem grows (h : TablesAlike N exact t t') {q : Nat} (hg : t.Grows (fun _ => False) q u)
    (hfiles : u.files = t.files) : TablesAlike N exact u t' where
  files := by
    rw [hfiles]
    exact h.files
  scopes hc := by
    obtain ⟨s, s', hs, hs', hscopes⟩ := h.scopes hc
    obtain ⟨s₁, hs₁, hkind, hparent, ⟨bs, hbindings, hbs, -⟩, is, himports, his, -⟩ := hg.scopes hs
    rw [hbs id, List.append_nil] at hbindings
    rw [his id, List.append_nil] at himports
    have hscopes := hscopes.mono (.refl N) hg.symbols fun {i y} (hy : t'.symbols[i]? = some y) => hy
    refine ⟨s₁, s', hs₁, hs', hkind.trans hscopes.kind, ?_, fun name => ?_, ?_⟩
    · rw [hparent]
      exact hscopes.parent
    · rw [Scope.lookup, hbindings, hkind]
      exact hscopes.lookup name
    · rw [himports]
      exact hscopes.imports
  symbols hi := by
    obtain ⟨y, y', hy, hy', hsymbols⟩ := h.symbols hi
    exact ⟨y, y', hg.symbols hy, hy', hsymbols⟩
  prelude := by
    rw [hg.prelude]
    exact h.prelude

/-- Files that belong together are made visible in scopes that do, at places that do. -/
theorem addImport (h : TablesAlike N exact t t') (hN : N.OneToOne) (hc : N.scope f c c')
    {q q' : Nat} (hq : N.seq f q q') {g : FileId} {i i' : ScopeId} (hi : N.scope g i i') :
    TablesAlike N exact (t.addImport c i q) (t'.addImport c' i' q') where
  files := h.files
  scopes {k d d'} hd := by
    obtain ⟨s, s', hs, hs', hscopes⟩ := h.scopes hd
    rw [scopes_addImport, scopes_addImport, hs, hs']
    by_cases hdc : d = c
    · have hdc' := (hN.scope hd hc).1 hdc
      subst hdc
      obtain rfl := hN.home hd hc
      rw [if_pos rfl, if_pos hdc']
      exact ⟨_, _, rfl, rfl, hscopes.kind, hscopes.parent, hscopes.lookup,
        Source.forall₂_snoc hscopes.imports ⟨hq, g, hi⟩⟩
    · have hdc' : d' ≠ c' := fun h => hdc ((hN.scope hd hc).2 h)
      rw [if_neg hdc, if_neg hdc']
      exact ⟨s, s', rfl, rfl, hscopes.mono (.refl N) id id⟩
  symbols := h.symbols
  prelude := h.prelude

theorem setPrelude (h : TablesAlike N exact t t') (hc : N.scope f c c') :
    TablesAlike N exact (t.setPrelude c) (t'.setPrelude c') where
  files := h.files
  scopes hd := by
    obtain ⟨s, s', hs, hs', hscopes⟩ := h.scopes hd
    exact ⟨s, s', hs, hs', hscopes.mono (.refl N) id id⟩
  symbols := h.symbols
  prelude := .some ⟨f, hc⟩

end SymbolTable.TablesAlike

/-! ## Sessions -/

/-- Two sessions are abreast: they are in step, and have the same files, each as far in one as in the
other. Places that belong together are those of files that are there. -/
structure Session.Abreast (N : Numbers) (s s' : Session) : Prop where
  inStep : s.InStep N False [] s'
  imports : ImportTable.Alike N s.imports s'.imports
  places : ∀ {f q q'}, N.seq f q q' → f < s.symbols.files.size

namespace Session.Abreast

variable {N : Numbers} {s s' : Session}

/-- Other files may be put in place of those there are. -/
theorem withImports (h : s.Abreast N s') {imports imports' : ImportTable}
    (himports : ImportTable.Alike N imports imports') :
    Session.Abreast N { s with imports } { s' with imports := imports' } where
  inStep := { h.inStep with documents := fun _ y _ => himports.get? y.path }
  imports := himports
  places := h.places

/-- New sessions for one target are abreast. -/
theorem fresh (platform : Option Platform) :
    Session.Abreast .none { platform } { platform } where
  inStep := .start rfl rfl rfl fun h => h.elim
  imports := .empty _
  places h := h.elim

theorem setPrelude (h : s.Abreast N s') {f : FileId} {c c' : ScopeId} (hc : N.scope f c c') :
    Session.Abreast N { s with symbols := s.symbols.setPrelude c }
      { s' with symbols := s'.symbols.setPrelude c' } where
  inStep := { h.inStep with tables := h.inStep.tables.setPrelude hc }
  imports := h.imports
  places := h.places

end Session.Abreast

namespace Source

/-! ## Parsers -/

/-- Two parsers are abreast in the middle of a file: they are in step in sessions that are abreast.
Since the numbers `N₀`, no places were added to files before this one. -/
structure ParserState.Abreast (N₀ N : Numbers) (env : ParserEnv) (s : ParserState)
    (env' : ParserEnv) (s' : ParserState) : Prop where
  inStep : ParserState.InStep N False [] env s env' s'
  imports : ImportTable.Alike N s.session.imports s'.session.imports
  places : ∀ {f q q'}, N.seq f q q' → f < s.session.symbols.files.size
  frozen : ∀ {f q q'}, N.seq f q q' → f < env.file → N₀.seq f q q'
  reading : s.session.imports.isInProgress env.source.path = true

namespace ParserState.Abreast

variable {N₀ N : Numbers} {env env' : ParserEnv} {s s₁ s' : ParserState}

theorem session (h : Abreast N₀ N env s env' s') : s.session.Abreast N s'.session :=
  ⟨h.inStep.session, h.imports, h.places⟩

theorem file_lt (h : Abreast N₀ N env s env' s') : env.file < s.session.symbols.files.size :=
  (h.inStep.session.tables.files h.inStep.file).1

theorem takeSeq (h : Abreast N₀ N env s env' s') :
    Abreast N₀ (N.addSeq env.file s.seq s'.seq) env { s with seq := s.seq + 1 } env'
      { s' with seq := s'.seq + 1 } where
  inStep := h.inStep.takeSeq
  imports := h.imports.mono (N.le_addSeq _ _ _)
  places := by
    rintro f q q' (hq | ⟨rfl, -, -⟩)
    · exact h.places hq
    · exact h.file_lt
  frozen := by
    rintro f q q' (hq | ⟨rfl, -, -⟩) hlt
    · exact h.frozen hq hlt
    · exact absurd hlt (Nat.lt_irrefl _)
  reading := h.reading

theorem declare (h : Abreast N₀ N env s env' s') (name : String) (kind : SymbolKind)
    {pos pos' : Position} {id id' : NodeId} (hnode : kind ≠ .local → N.node id id') :
    ∃ N₁ : Numbers, N.Le N₁ ∧
      Abreast N₀ N₁ env (Parser.declare name kind pos id true env s).2 env'
        (Parser.declare name kind pos' id' true env' s').2 := by
  have hstill := ((Parser.declare_idle name kind pos id true).tame []).still env s
  have hstill' := ((Parser.declare_idle name kind pos' id' true).tame []).still env' s'
  obtain ⟨N₁, hle, hplaces, hstep⟩ := h.inStep.declare name kind (fun h => h.elim) hnode
  refine ⟨N₁, hle, hstep, ?_, fun {f q q'} hq => ?_, fun {f q q'} hq hlt => ?_, ?_⟩
  · rw [hstill.session.imports, hstill'.session.imports]
    exact h.imports.mono hle
  · rw [hstill.session.files]
    obtain hq | rfl := hplaces hq
    · exact h.places hq
    · exact h.file_lt
  · obtain hq | rfl := hplaces hq
    · exact h.frozen hq hlt
    · exact absurd hlt (Nat.lt_irrefl _)
  · rw [hstill.session.imports]
    exact h.reading

end ParserState.Abreast

/-- The link of sessions that are abreast. -/
def Link.abreast (N₀ : Numbers) : Link where
  World := Numbers
  le := Numbers.Le
  refl := Numbers.Le.refl
  trans := Numbers.Le.trans
  numbers w := w
  mono h := h
  exact := False
  states N := ParserState.Abreast N₀ N
  path h _ := h.inStep.path
  platform h := h.inStep.session.platform
  current h := h.inStep.current
  tokens _ _ h := { h with inStep := { h.inStep with } }
  own _ _ h := { h with inStep := { h.inStep with } }
  report _ h :=
    { h with inStep := { h.inStep with session := h.inStep.session.report fun h => h.elim } }
  takeSeq h := ⟨_, Numbers.le_addSeq _ _ _, .inr ⟨rfl, rfl, rfl⟩, h.takeSeq⟩
  takeNode {N _ s _ s'} h := by
    have hle := N.le_addNode s.session.nextNode s'.session.nextNode
    have hstep := h.inStep
    exact ⟨_, hle, .inr ⟨rfl, rfl⟩, ⟨hstep.session.takeNode, hle.file hstep.file, hstep.path,
      hle.scope hstep.root, hstep.isFile, hle.scope hstep.current, hstep.places, hstep.seq,
      hstep.imports, hstep.reading⟩, h.imports.mono hle, h.places, h.frozen, h.reading⟩
  enter {N env s _ s'} kind _ h := by
    have hle := N.le_addScope env.file s.session.symbols.scopes.size
      s'.session.symbols.scopes.size
    exact ⟨_, hle, .inr ⟨rfl, rfl, rfl⟩, h.inStep.enter kind, h.imports.mono hle, h.places, h.frozen,
      h.reading⟩
  leave h hcurrent :=
    { h with inStep := { h.inStep with session := { h.inStep.session with }, current := hcurrent } }
  declare name kind _ _ _ _ _ hnode h := h.declare name kind hnode

/-- A file was loaded in two sessions that are abreast: the documents are alike, and no places were
added to the files there were. -/
structure LoadedAbreast (N : Numbers) (s : Session) (d : Document) (s₁ : Session) (N₁ : Numbers)
    (d' : Document) (s₁' : Session) : Prop where
  le : N.Le N₁
  session : s₁.Abreast N₁ s₁'
  frozen : ∀ {g q q'}, N₁.seq g q q' → g < s.symbols.files.size → N.seq g q q'
  document : d.Alike N₁ (N₁.bound False) d'

/-- Loading a file for the target keeps sessions abreast: where the first loader succeeds without
errors, so does the second. -/
def LoadsAbreast (platform : Option Platform) (load load' : Loader) : Prop :=
  ∀ N f s s' d s₁, Session.Abreast N s s' → s.Standing → s.platform = platform →
    load f s = (.ok d, s₁) → s₁.Clean →
    ∃ N₁ d' s₁', load' f s' = (.ok d', s₁') ∧ LoadedAbreast N s d s₁ N₁ d' s₁'

namespace ParserState.Abreast

variable {N₀ N : Numbers} {env env' : ParserEnv} {s s₁ s' : ParserState} {us : List Use}

/-- The first parser goes on by itself, past a declaration that leaves no name. -/
theorem aside (h : Abreast N₀ N env s env' s') (hload : env.Loads) (hs : Standing env s)
    (hd : Declaring env s [] us s₁) (hstill : Still s s₁) (hclean : s₁.session.Clean) :
    Abreast N₀ N env s₁ env' s' := by
  have ha := hd.run.advances hload
  obtain ⟨-, hvisible, ⟨bs, hnames, hdeclares⟩, -, -⟩ := hd.adds hclean hs
  cases hdeclares
  rw [List.append_nil] at hnames
  have hg : s.session.symbols.Grows (fun _ => False) 0 s₁.session.symbols := by
    refine ⟨ha.symbols.symbols, fun {c sc} hsc => ?_, ha.symbols.prelude⟩
    obtain ⟨sc₁, hsc₁, hkind, hparent, ⟨bs, hbindings, hbs, -⟩, is, himports, his, -⟩ :=
      ha.symbols.scopes hsc
    refine ⟨sc₁, hsc₁, .of_eq hkind hparent ?_ ?_⟩
    · by_cases hcurrent : c = s.scope env
      · subst hcurrent
        rwa [SymbolTable.names_of_scope hsc, SymbolTable.names_of_scope hsc₁] at hnames
      · rw [hbindings, hbs hcurrent, List.append_nil]
    · by_cases hcurrent : c = s.scope env
      · subst hcurrent
        rwa [SymbolTable.imports_of_scope hsc, SymbolTable.imports_of_scope hsc₁] at hvisible
      · rw [himports, his hcurrent, List.append_nil]
  have hstep := h.inStep
  have hsession : s₁.session.InStep N False [] s'.session :=
    { hstep.session with
      platform := ha.platform.trans hstep.session.platform
      tables := hstep.session.tables.grows hg hstill.session.files
      nodes := fun hi => ⟨Nat.lt_of_lt_of_le (hstep.session.nodes hi).1 ha.nextNode,
        (hstep.session.nodes hi).2⟩
      documents := fun _ y _ => by
        rw [hstill.session.imports]
        exact h.imports.get? y.path
      diagnostics := fun h => h.elim }
  refine ⟨⟨hsession, hstep.file, hstep.path, hstep.root, hstep.isFile.grows hg, ?_, fun hq => ?_,
    fun h => h.elim, hstill.imports.trans hstep.imports, ?_⟩, ?_, fun hq => ?_, h.frozen, ?_⟩
  · rw [ha.scope]
    exact hstep.current
  · exact ⟨Nat.lt_of_lt_of_le (hstep.places hq).1 ha.seq, (hstep.places hq).2⟩
  · rw [hstill.session.imports]
    exact hstep.reading
  · rw [hstill.session.imports]
    exact h.imports
  · rw [hstill.session.files]
    exact h.places hq
  · rw [hstill.session.imports]
    exact h.reading

/-- Both load the file of an import, and make it visible from here on. -/
theorem addImport (h : Abreast N₀ N env s env' s') (hkeep : env.Loads) (hkeep' : env'.Loads)
    (hload : LoadsAbreast s.session.platform env.load env'.load) (hs : s.session.Standing) {f : SourceFile}
    {d : Document} {session : Session} (hfile : env.load f s.session = (.ok d, session))
    (hclean : session.Clean) :
    ∃ (N₁ : Numbers) (d' : Document) (session' : Session),
      env'.load f s'.session = (.ok d', session') ∧ N.Le N₁ ∧ d.path = d'.path ∧
      Abreast N₀ N₁ env (s.addImport env d session) env' (s'.addImport env' d' session') := by
  obtain ⟨N₁, d', session', hfile', ⟨hle, hsession, hplaces, hd⟩⟩ :=
    hload N f s.session s'.session d session h.session hs rfl hfile hclean
  have hbefore := (hkeep _ _ _ _ hfile).1
  have hbefore' := (hkeep' _ _ _ _ hfile').1
  have hstep := h.inStep
  have hreading := hbefore.kept.inProgress h.reading
  have hnone : session.imports.get? env.source.path = none :=
    ImportTable.get?_of_isInProgress hreading
  have hnone' : session'.imports.get? env.source.path = none := by
    have hget := hsession.imports.get? env.source.path
    rw [hnone] at hget
    generalize session'.imports.get? env.source.path = x at hget
    cases hget
    rfl
  have hloaded : Abreast N₀ N₁ env { s with session } env' { s' with session := session' } := by
    refine ⟨⟨hsession.inStep, hle.file hstep.file, hstep.path, hle.scope hstep.root,
      hstep.isFile.grows hbefore.symbols, ?_, fun hq => hstep.places (hplaces hq h.file_lt),
      fun h => h.elim, hstep.imports, hnone, hnone'⟩, hsession.imports, hsession.places,
      fun hq hlt => h.frozen (hplaces hq (Nat.lt_trans hlt h.file_lt)) hlt, hreading⟩
    have hscope : ({ s with session } : ParserState).scope env = s.scope env :=
      congrArg (·.headD env.root) hbefore.stack
    have hscope' : ({ s' with session := session' } : ParserState).scope env' = s'.scope env' :=
      congrArg (·.headD env'.root) hbefore'.stack
    rw [hscope, hscope']
    exact hle.scope hstep.current
  have hnext := hloaded.takeSeq
  have hle₁ := N₁.le_addSeq env.file s.seq s'.seq
  have htables := hnext.inStep.session.tables.addImport hnext.inStep.session.numbers
    (hle₁.scope hloaded.inStep.root) (.inr ⟨rfl, rfl, rfl⟩) (hle₁.scope hd.scope)
  refine ⟨_, d', session', hfile', hle.trans hle₁, hd.path, ?_⟩
  have hlast := hnext.inStep
  refine ⟨⟨{ hlast.session with tables := htables }, hlast.file, hlast.path, hlast.root, ?_,
    hlast.current, hlast.places, hlast.seq, ?_, hlast.reading⟩, hnext.imports, hnext.places,
    hnext.frozen, hnext.reading⟩
  · exact hlast.isFile.grows (SymbolTable.grows_addImport _ _ _ _)
  · show s.imports ++ [d.path] = s'.imports ++ [d'.path]
    rw [hstep.imports, hd.path]

end ParserState.Abreast

end Source

end Scaffold
