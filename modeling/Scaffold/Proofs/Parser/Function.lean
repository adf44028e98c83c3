import Mathlib.Data.List.Induction
import Scaffold.Proofs.Parser.Statement

/-!
# How functions and their parameters are parsed

A declaration binds its own name in the innermost scope and may work in scopes of its own, but it
leaves everything else there as it is: `Declaring env s ds us s'` says so, for what is declared and
the names that are read. Inside a function the parameters come into sight one by one, and its body is
read with them in sight.

* `funcDecl_parsed`: what a function declares, and how its names will be found.
* `members_ok`: a loop invariant for the members of a mapper or controller.
-/

namespace Scaffold.Source

/-! ## Declarations in a scope -/

/-- The names were written in the innermost scope, or in one opened between the two states. -/
def Inside (env : ParserEnv) (s : ParserState) (us : List Use) (s' : ParserState) : Prop :=
  ∀ u ∈ us, (u.ref.scope = s.scope env ∨ Nat.le s.session.symbols.scopes.size u.ref.scope) ∧
    Nat.lt u.ref.scope s'.session.symbols.scopes.size

/-- Between the two states the innermost scope got names for the declarations, no file became visible
there, and the names that came up are new. -/
structure Adds (env : ParserEnv) (s : ParserState) (ds : List Declared) (us : List Use)
    (s' : ParserState) : Prop where
  files : s'.imports = s.imports
  visible : s'.session.symbols.imports (s.scope env) = s.session.symbols.imports (s.scope env)
  names : ∃ bs, s'.session.symbols.names (s.scope env) = s.session.symbols.names (s.scope env) ++ bs
    ∧ s'.session.symbols.Declares bs ds
  fresh : Fresh us
  inside : Inside env s us s'

/-- Between the two states `ds` were declared and the names `us` came up. -/
structure Declaring (env : ParserEnv) (s : ParserState) (ds : List Declared) (us : List Use)
    (s' : ParserState) : Prop where
  run : Run env s s'
  adds : s'.session.Clean → Standing env s → Adds env s ds us s'

def Declared.when (active : Bool) (d : Declared) : List Declared :=
  if active then [d] else []

theorem Fresh.nil : Fresh [] :=
  fun _ hu => nomatch hu

theorem Fresh.append {us vs : List Use} (h : Fresh us) (h' : Fresh vs) : Fresh (us ++ vs) := by
  intro u hu
  obtain hu | hu := List.mem_append.1 hu
  · exact h u hu
  · exact h' u hu

theorem Reads.fresh {env : ParserEnv} {s s' : ParserState} {us : List Use}
    (h : Reads env s us s') : Fresh us :=
  fun u hu => (h.uses u hu).1

namespace Inside

variable {env : ParserEnv} {s s' s'' : ParserState} {us us' : List Use}

theorem nil : Inside env s [] s' :=
  fun _ hu => nomatch hu

theorem of_reads (hs : Standing env s) (h : Reads env s us s') : Inside env s us s' := by
  intro u hu
  obtain ⟨-, hscope, -⟩ := h.uses u hu
  refine ⟨.inl hscope, ?_⟩
  rw [hscope, h.symbols]
  exact hs.scope_lt

theorem append (h : Inside env s us s') (h' : Inside env s us' s') : Inside env s (us ++ us') s' := by
  intro u hu
  obtain hu | hu := List.mem_append.1 hu
  · exact h u hu
  · exact h' u hu

theorem later (h : Inside env s us s') (ha : Advances env s' s'') : Inside env s us s'' :=
  fun u hu => ⟨(h u hu).1, Nat.lt_of_lt_of_le (h u hu).2 ha.symbols.scopes_size⟩

theorem earlier (ha : Advances env s s') (h : Inside env s' us s'') : Inside env s us s'' := by
  intro u hu
  obtain ⟨hscope | hnew, hlt⟩ := h u hu
  · exact ⟨.inl (hscope.trans ha.scope), hlt⟩
  · exact ⟨.inr (Nat.le_trans ha.symbols.scopes_size hnew), hlt⟩

/-- A scope that was left again was opened in between. -/
theorem leave {kind : ScopeKind} (h : Inside env (s.enter env kind) us s') :
    Inside env s us s'.leave := by
  intro u hu
  obtain ⟨hscope | hnew, hlt⟩ := h u hu
  · exact ⟨.inr (Nat.le_of_eq hscope.symm), hlt⟩
  · refine ⟨.inr (Nat.le_trans (Nat.le_succ _) ?_), hlt⟩
    rwa [show (s.enter env kind).session.symbols.scopes.size
      = s.session.symbols.scopes.size + 1 from Array.size_push ..] at hnew

end Inside

/-- Nothing changed in the scopes there were. -/
theorem Adds.of_still {env : ParserEnv} {s s' : ParserState} {us : List Use} {q : Nat}
    (hs : Standing env s) (hg : s.session.symbols.Grows (fun _ => False) q s'.session.symbols)
    (hfiles : s'.imports = s.imports) (hfresh : Fresh us) (hin : Inside env s us s') :
    Adds env s [] us s' :=
  ⟨hfiles, hg.imports_eq hs.scope_lt id, ⟨[], by rw [hg.names_eq hs.scope_lt id, List.append_nil],
    .nil⟩, hfresh, hin⟩

namespace Declaring

variable {env : ParserEnv} {s s' s'' : ParserState} {ds ds' : List Declared} {us us' : List Use}

theorem reads (h : Reads env s us s') : Declaring env s [] us s' where
  run := .read h
  adds _ hs := by
    refine .of_still hs ?_ h.imports h.fresh (.of_reads hs h) (q := 0)
    rw [h.symbols]
    exact .refl _

theorem own (s : ParserState) (id : NodeId) : Declaring env s [] [] { s with owner := id } :=
  ⟨.own s id, fun _ hs => .of_still hs (.refl _) rfl .nil .nil (q := 0)⟩

theorem number (s : ParserState) :
    Declaring env s [] [] { s with session := s.session.takeNode.2 } :=
  ⟨.number s, fun _ hs => .of_still hs (.refl _) rfl .nil .nil (q := 0)⟩

theorem trans (hload : env.Loads) (h : Declaring env s ds us s') (h' : Declaring env s' ds' us' s'') :
    Declaring env s (ds ++ ds') (us ++ us') s'' where
  run := h.run.trans h'.run
  adds hclean hs := by
    have ha := h'.run.advances hload
    have hscope := (h.run.advances hload).scope
    obtain ⟨hf, hv, ⟨bs, hn, hd⟩, hfresh, hin⟩ := h.adds (ha.clean hclean) hs
    obtain ⟨hf', hv', ⟨bs', hn', hd'⟩, hfresh', hin'⟩ := h'.adds hclean (h.run.standing hload hs)
    rw [hscope] at hv' hn'
    refine ⟨hf'.trans hf, hv'.trans hv, ⟨bs ++ bs', ?_, ?_⟩, hfresh.append hfresh',
      (hin.later ha).append (.earlier (h.run.advances hload) hin')⟩
    · rw [hn', hn, List.append_assoc]
    · exact List.rel_append (ha.symbols.declares hd) hd'

theorem declare {name : String} {kind : SymbolKind} {pos : Position} {node : NodeId} {active : Bool}
    {u : Unit} (hkind : kind.isType = true → s.scope env = env.root)
    (h : Parser.declare name kind pos node active env s = (.ok u, s')) :
    Declaring env s (Declared.when active ⟨name, kind, node⟩) [] s' where
  run := Parser.declare_run hkind h
  adds hclean hs := by
    obtain ⟨rfl, rfl⟩ | ⟨rfl, -, rfl⟩ := Parser.declare_ok h hclean
    · exact .of_still hs (.refl _) rfl .nil .nil (q := 0)
    · refine ⟨rfl, SymbolTable.imports_bind .., ⟨_, SymbolTable.names_bind _ _ hs.scope_lt, ?_⟩,
        .nil, .nil⟩
      exact .cons (SymbolTable.stands_bind ..) .nil

/-- Work in a new scope declares nothing outside it. -/
theorem inside (hload : env.Loads) {kind : ScopeKind} (hkind : kind ≠ .file)
    (h : Declaring env (s.enter env kind) ds us s') : Declaring env s [] us s'.leave where
  run := .inside hkind h.run
  adds hclean hs := by
    have hfiles := h.run.imports_eq hload (hs.enter kind) (Nat.ne_of_gt hs.root_lt)
    have ha := h.adds hclean (hs.enter kind)
    exact .of_still hs (h.run.advances hload).still hfiles ha.fresh ha.inside.leave

theorem mono (h : Declaring env s ds us s') (hus : ∀ u ∈ us', u ∈ us) : Declaring env s ds us' s' :=
  ⟨h.run, fun hclean hs =>
    have ha := h.adds hclean hs
    ⟨ha.files, ha.visible, ha.names, fun u hu => ha.fresh u (hus u hu),
      fun u hu => ha.inside u (hus u hu)⟩⟩

end Declaring

/-! ## Functions -/

/-- The parameters, in sight at the start of the body. -/
def Locals.ofParams (base : SymbolId) (params : List Field) : Locals :=
  params.foldl (fun σ p => σ.declare p.name) ⟨[], base⟩

theorem Locals.ofParams_append (base : SymbolId) (params : List Field) (p : Field) :
    Locals.ofParams base (params ++ [p]) = (Locals.ofParams base params).declare p.name := by
  simp [Locals.ofParams]

theorem Locals.next_ofParams (base : SymbolId) (params : List Field) :
    (Locals.ofParams base params).next = base + params.length := by
  induction params using List.reverseRecOn with
  | nil => rfl
  | append_singleton params p ih =>
    rw [Locals.ofParams_append, Locals.declare, ih, List.length_append]
    rfl

/-- The name was read at a place from `q` on, and will resolve to what the reading sees, else to a
member of what lies around the function, and else to what it means in `outer`; more names may still
come into the scopes there. -/
def Settled (outer : ScopeId) (members : List (String × SymbolId)) (q : Nat) (s : ParserState)
    (x : Locals × Use) : Prop :=
  q ≤ x.2.ref.seq ∧ x.2.ref.seq < s.seq ∧
    ∀ t : SymbolTable, s.session.symbols.Grows (Nat.le · outer) s.seq t → t.WellFormed →
      t.find x.2.ref.name x.2.ref.seq (some x.2.ref.scope)
        = ((x.1.names ++ members).lookup x.2.ref.name).or
          (t.find x.2.ref.name x.2.ref.seq (some outer))

/-- The function and the members around it have their symbols, and the names of its body are read in
order. -/
def FuncRead (outer : ScopeId) (q : Nat) (s : ParserState) (members : List Declared) (f : Func) :
    Prop :=
  ∃ ms base, s.session.symbols.Declares ms members ∧
    s.session.symbols.DeclaresFrom base f.declared ∧
    ∀ x ∈ Stmt.readingsAll (.ofParams base f.params) f.body, Settled outer ms q s x

section

variable {env : ParserEnv} {s s' : ParserState} {outer : ScopeId} {q q' : Nat}

theorem Settled.later {ms : List (String × SymbolId)} {x : Locals × Use}
    (h : Settled outer ms q s x) (ha : Advances env s s')
    (hscope : Nat.le (s.scope env) outer) : Settled outer ms q s' x := by
  obtain ⟨hle, hlt, hfind⟩ := h
  refine ⟨hle, Nat.lt_of_lt_of_le hlt ha.seq, fun t hg hwf => hfind t ?_ hwf⟩
  have hlive : ∀ i < s.session.symbols.scopes.size, i = s.scope env → Nat.le i outer := by
    rintro i - rfl
    exact hscope
  exact (ha.symbols.mono hlive (Nat.le_refl _)).trans ha.seq hg

theorem FuncRead.later {members : List Declared} {f : Func} (h : FuncRead outer q s members f)
    (ha : Advances env s s') (hscope : Nat.le (s.scope env) outer) :
    FuncRead outer q s' members f := by
  obtain ⟨ms, base, hms, hd, hx⟩ := h
  exact ⟨ms, base, ha.symbols.declares hms, hd.grows ha.symbols,
    fun x hx' => (hx x hx').later ha hscope⟩

theorem FuncRead.early {members : List Declared} {f : Func} (h : FuncRead outer q s members f)
    (hq : q' ≤ q) : FuncRead outer q' s members f := by
  obtain ⟨ms, base, hms, hd, hx⟩ := h
  refine ⟨ms, base, hms, hd, fun x hx' => ?_⟩
  obtain ⟨hle, hrest⟩ := hx x hx'
  exact ⟨Nat.le_trans hq hle, hrest⟩

/-- Outside the scope that holds the members of a declaration, what is not found in a function is
looked up among them. -/
theorem FuncRead.member {scope : ScopeId} {sc : Scope} {members : List Declared} {f : Func}
    (h : FuncRead scope q s [] f) (hsc : s.session.symbols.scopes[scope]? = some sc)
    (hkind : sc.kind = .declaration) (hparent : sc.parent = some outer)
    (hwf : s.session.symbols.WellFormed) (hms : s.session.symbols.Declares sc.bindings members) :
    FuncRead outer q s.leave members f := by
  obtain ⟨ms, base, hnil, hd, hx⟩ := h
  cases hnil
  have hlt : outer < scope := hwf.parent_lt hsc outer hparent
  refine ⟨sc.bindings, base, hms, hd, fun x hx' => ?_⟩
  obtain ⟨hle, hlt', hfind⟩ := hx x hx'
  refine ⟨hle, hlt', fun t hg hwf' => ?_⟩
  obtain ⟨sc', hsc', hk, hp, ⟨bs, hb, hn, -⟩, -⟩ := hg.scopes hsc
  rw [hn (Nat.not_le_of_lt hlt), List.append_nil] at hb
  rw [hfind t (hg.mono (fun i _ hi => Nat.le_trans hi (Nat.le_of_lt hlt)) (Nat.le_refl _)) hwf',
    SymbolTable.find_eq hwf' hsc', SymbolTable.resolveIn_declaration (hk.trans hkind), hb,
    hp.trans hparent, List.append_nil, List.lookup_append, Option.or_assoc]

end

/-- The parser stands in the scope of a function, with these parameters in sight. -/
structure Params (env : ParserEnv) (func outer : ScopeId) (σ : Locals) (s : ParserState) :
    Prop where
  standing : Standing env s
  scope : s.scope env = func
  blocks : s.session.symbols.Blocks s.seq func outer func σ.names
  next : s.session.symbols.symbols.size = σ.next

/-- Between the two states, the second inside a function, parameters were parsed. -/
structure ParamsRead (env : ParserEnv) (node : NodeId) (s₀ : ParserState) (params : List Field)
    (s : ParserState) : Prop where
  run : Run env (s₀.enter env .declaration) s
  owner : s.owner = s₀.owner
  uses : ∀ u ∈ Field.usesAll params,
    u.ref.target = none ∧ u.ref.scope = s₀.session.symbols.scopes.size
  sight : s.session.Clean → Standing env s₀ →
    Params env s₀.session.symbols.scopes.size (s₀.scope env)
      (.ofParams s₀.session.symbols.symbols.size params) s ∧
    s.session.symbols.DeclaresFrom s₀.session.symbols.symbols.size
      (params.map (⟨·.name, .param, node⟩))

namespace ParamsRead

variable {env : ParserEnv} {node : NodeId} {s₀ s s' : ParserState} {params : List Field}

theorem nil (s₀ : ParserState) : ParamsRead env node s₀ [] (s₀.enter env .declaration) where
  run := .read (.refl _)
  owner := rfl
  uses _ hu := nomatch hu
  sight _ hs := by
    refine ⟨⟨hs.enter _, rfl, ?_, rfl⟩, .nil _ _⟩
    refine .func (s := ⟨.declaration, some (s₀.scope env), env.file, [], [], false⟩) ?_ rfl rfl
      fun _ => rfl
    simp [ParserState.enter, SymbolTable.scopes_addScope]

theorem reads {us : List Use} (h : ParamsRead env node s₀ params s) (hr : Reads env s us s') :
    ParamsRead env node s₀ params s' where
  run := h.run.trans (.read hr)
  owner := hr.owner.trans h.owner
  uses := h.uses
  sight hclean hs := by
    obtain ⟨⟨hstand, hscope, hblocks, hnext⟩, hd⟩ := h.sight ((Advances.of_reads hr).clean hclean) hs
    rw [hr.symbols]
    refine ⟨⟨hstand.of_reads hr, hr.scope.trans hscope, ?_, hr.symbols ▸ hnext⟩, hd⟩
    rw [hr.symbols]
    exact hblocks.mono hr.seq

/-- One more parameter. -/
theorem declare {name : String} {type : TypeRef} {pos : Position} {u : Unit}
    (hload : env.Loads) (h : ParamsRead env node s₀ params s)
    (huses : ∀ u ∈ type.uses, u.ref.target = none ∧ u.ref.scope = s.scope env)
    (hd : Parser.declare name .param pos node true env s = (.ok u, s')) :
    ParamsRead env node s₀ (params ++ [⟨name, type, pos⟩]) s' where
  run := h.run.trans (Parser.declare_run (fun h => absurd h (by decide)) hd)
  owner := by
    obtain ⟨-, rfl⟩ | ⟨-, hr, -⟩ | ⟨-, -, rfl⟩ := Parser.declare_cases hd
    · exact h.owner
    · exact hr.owner.trans h.owner
    · exact h.owner
  uses u hu := by
    simp only [Field.usesAll, List.flatMap_append, List.flatMap_singleton, List.mem_append] at hu
    obtain hu | hu := hu
    · exact h.uses u hu
    · exact ⟨(huses u hu).1, (huses u hu).2.trans (h.run.advances hload).scope⟩
  sight hclean hs := by
    obtain ⟨hfalse, -⟩ | ⟨-, hfree, rfl⟩ := Parser.declare_ok hd hclean
    · cases hfalse
    · obtain ⟨⟨hstand, hscope, hblocks, hnext⟩, hdeclared⟩ := h.sight hclean hs
      have hrun := Run.bind s (s.symbol env name .param pos node) rfl hfree
        (fun h : SymbolKind.param.isType = true => absurd h (by decide)) rfl
      rw [hscope] at hfree
      rw [Locals.ofParams_append, List.map_append]
      refine ⟨⟨hrun.standing hload hstand, hscope, ?_, ?_⟩, ?_⟩
      · have hblocks' : SymbolTable.Blocks _ (s.seq + 1) _ _ _ _ :=
          hblocks.param hstand.session.table (s.symbol env name .param pos node) hfree
        rw [hnext, ← hscope] at hblocks'
        rw [← hscope]
        exact hblocks'
      · simp [ParserState.bind, Locals.declare, hnext]
      · refine (hdeclared.grows (SymbolTable.grows_bind _ _ _)).append ?_
        rw [List.length_map, ← Locals.next_ofParams, ← hnext]
        exact .bind _ _ _

/-- The names of parameters and of what is read right after them stand in the scope of the
function. -/
theorem signature {s'' : ParserState} {us : List Use} (hload : env.Loads)
    (h : ParamsRead env node s₀ params s) (hr : Reads env s us s') (ha : Advances env s' s'') :
    Fresh (Field.usesAll params ++ us) ∧ Inside env s₀ (Field.usesAll params ++ us) s''.leave := by
  have hscope : ∀ u ∈ Field.usesAll params ++ us,
      u.ref.target = none ∧ u.ref.scope = s₀.session.symbols.scopes.size := by
    intro u hu
    obtain hu | hu := List.mem_append.1 hu
    · exact h.uses u hu
    · obtain ⟨htarget, hscope, -⟩ := hr.uses u hu
      exact ⟨htarget, hscope.trans (h.run.advances hload).scope⟩
  have hall := ((h.run.advances hload).trans (.of_reads hr)).trans ha
  have hlt : Nat.lt s₀.session.symbols.scopes.size s''.session.symbols.scopes.size := by
    refine Nat.lt_of_lt_of_le ?_ hall.symbols.scopes_size
    rw [show (s₀.enter env .declaration).session.symbols.scopes.size
      = s₀.session.symbols.scopes.size + 1 from Array.size_push ..]
    exact Nat.lt_succ_self _
  refine ⟨fun u hu => (hscope u hu).1, fun u hu => ?_⟩
  obtain ⟨-, heq⟩ := hscope u hu
  exact ⟨.inr (Nat.le_of_eq heq.symm), heq ▸ hlt⟩

end ParamsRead

namespace Parser

variable {env : ParserEnv} {s s' : ParserState}

/-- A keyword, a name and its declaration. -/
theorem named_declaring (hload : env.Loads) {k : Keyword} {name : String} {kind : SymbolKind}
    {p pos : Position} {node : NodeId} {active : Bool} {u : Unit} {s₁ s₂ : ParserState}
    (hkind : kind.isType = true → s.scope env = env.root)
    (h₁ : expectKeyword k env s = (.ok p, s₁)) (h₂ : ident env s₁ = (.ok (name, pos), s₂))
    (h₃ : declare name kind pos node active env s₂ = (.ok u, s')) :
    Declaring env s (Declared.when active ⟨name, kind, node⟩) [] s' := by
  have hread := ((expectKeyword_scans k).reads h₁).trans (ident_scans.reads h₂)
  exact (Declaring.reads hread).trans hload (.declare (fun hty => hread.scope.trans (hkind hty)) h₃)

variable (hload : env.Loads)
include hload

theorem params_read {s₀ : ParserState} {owner : String} {node : NodeId} {ps : List Field}
    (h : params owner node env (s₀.enter env .declaration) = (.ok ps, s')) :
    ParamsRead env node s₀ ps s' := by
  unfold params at h
  obtain ⟨_, s₁, h₁, h⟩ := bind_ok.1 h
  obtain ⟨ps', s₂, h₂, h⟩ := bind_ok.1 h
  obtain ⟨_, s₃, h₃, h⟩ := bind_ok.1 h
  obtain ⟨rfl, rfl⟩ := pure_ok.1 h
  refine ParamsRead.reads ?_ ((expectPunct_scans _).reads h₃)
  have hnil : ParamsRead env node s₀ [] _ := .nil s₀
  have hstart := hnil.reads ((expectPunct_scans _).reads h₁)
  refine Triple.commaList .parenClose (J := ParamsRead env node s₀) (fun _ _ _ hp hr => hp.reads hr)
    (fun ps => ?_) [] _ _ _ hstart h₂
  intro s ps' s' hp h
  obtain ⟨⟨name, pos⟩, s₄, h₄, h⟩ := bind_ok.1 h
  obtain ⟨type, s₅, h₅, h⟩ := bind_ok.1 h
  have htype := typeRef_scans.reads h₅
  have hp' := (hp.reads (ident_scans.reads h₄)).reads htype
  split at h
  · -- A second parameter of the same name is dropped before it comes into sight.
    obtain ⟨_, s₆, h₆, h⟩ := bind_ok.1 h
    obtain ⟨rfl, rfl⟩ := pure_ok.1 h
    exact hp'.reads ((invalid_scans _ _ _).reads h₆)
  · obtain ⟨_, s₆, h₆, h⟩ := bind_ok.1 h
    obtain ⟨rfl, rfl⟩ := pure_ok.1 h
    refine hp'.declare hload (fun u hu => ?_) h₆
    obtain ⟨htarget, hscope, -⟩ := htype.uses u hu
    exact ⟨htarget, hscope.trans htype.scope.symm⟩

/-- The body of a function is read with the parameters in sight. -/
theorem body_read {s₀ s₁ s₂ s₃ : ParserState} {f : Func}
    (hparams : ParamsRead env f.header.id s₀ f.params s₁) (howner : s₀.owner = f.header.id)
    (hbody : Parses env (s₁.enter env .block) (.stmts f.body) s₂) (hclose : Reads env s₂.leave [] s₃)
    (hclean : s₃.session.Clean) (hs : Standing env s₀) :
    FuncRead (s₀.scope env) s₀.seq s₃.leave [] f ∧ Fresh (Stmt.usesAll f.body) ∧
      Inside env s₀ (Stmt.usesAll f.body) s₃.leave := by
  have hrun := hbody.run.advances hload
  have hclean₂ : s₂.session.Clean := (Advances.of_reads hclose).clean hclean
  obtain ⟨⟨hstand, hscope, hblocks, hnext⟩, hd⟩ := hparams.sight (hrun.clean hclean₂) hs
  have hin : Body env s₀.session.symbols.scopes.size (s₀.scope env)
      (.ofParams s₀.session.symbols.symbols.size f.params) (s₁.enter env .block) := by
    refine ⟨hstand.enter _, ?_, ?_, hnext⟩
    · have := hstand.scope_lt
      rw [hscope] at this
      exact Nat.ne_of_gt this
    · rw [← hscope]
      rw [← hscope] at hblocks
      exact hblocks.enter hstand.session.table _
  have hfollows := hbody.follows _ _ _ hclean₂ hin
  have hblock : Advances env s₁ s₂.leave := hrun.inside
  have hseq : s₀.seq ≤ s₁.seq := (hparams.run.advances hload).seq
  have hlocated : ∀ u ∈ Stmt.usesAll f.body, ∃ σ, Located s₀.session.symbols.scopes.size
      (s₀.scope env) (s₁.enter env .block).seq s₂ (σ, u) := by
    intro u hu
    rw [Stmt.usesAll, Stmt.map_readingsAll _ (.ofParams s₀.session.symbols.symbols.size f.params)] at hu
    obtain ⟨x, hx, rfl⟩ := List.mem_map.1 hu
    exact ⟨x.1, hfollows.located x hx⟩
  refine ⟨⟨[], s₀.session.symbols.symbols.size, .nil, ?_, fun x hx => ?_⟩, fun u hu => ?_,
    fun u hu => ?_⟩
  · show s₃.session.symbols.DeclaresFrom _ f.declared
    rw [hclose.symbols]
    refine (hd.grows hblock.symbols).append ?_
    have hvars := hfollows.declared
    rw [Locals.next_ofParams, show (s₁.enter env .block).owner = f.header.id from
      hparams.owner.trans howner] at hvars
    rw [List.length_map]
    exact hvars
  · obtain ⟨-, -, hle, hlt, hfind⟩ := hfollows.located x hx
    refine ⟨Nat.le_trans hseq hle, Nat.lt_of_lt_of_le hlt hclose.seq, fun t hg hwf => ?_⟩
    rw [show s₃.leave.session.symbols = s₂.session.symbols from hclose.symbols] at hg
    rw [List.append_nil]
    refine hfind t (hg.mono (fun i _ hi => ?_) hclose.seq) hwf
    exact Nat.ne_of_lt (Nat.lt_of_le_of_lt hi hs.scope_lt)
  · obtain ⟨σ, hx⟩ := hlocated u hu
    exact hx.1
  · obtain ⟨σ, -, ⟨hle, hlt⟩, -⟩ := hlocated u hu
    refine ⟨.inr hle, ?_⟩
    rw [show s₃.leave.session.symbols = s₂.session.symbols from hclose.symbols]
    exact hlt

/-- A function declares its name around it, and its body is read with its parameters in sight. -/
theorem funcDecl_parsed {hd : Header} {active : Bool} {kind : SymbolKind} {f : Func}
    (hkind : kind.isType = false) (h : funcDecl hd active kind env s = (.ok f, s')) :
    f.header = hd ∧
    Declaring env s (Declared.when active ⟨f.name, kind, hd.id⟩) f.uses s' ∧
    (s'.session.Clean → Standing env s → FuncRead (s.scope env) s.seq s' [] f) := by
  unfold funcDecl at h
  obtain ⟨_, s₁, h₁, h⟩ := bind_ok.1 h
  obtain ⟨⟨name, pos⟩, s₂, h₂, h⟩ := bind_ok.1 h
  obtain ⟨_, s₃, h₃, h⟩ := bind_ok.1 h
  obtain ⟨_, s₄, h₄, h⟩ := bind_ok.1 h
  obtain ⟨⟨func, ps, returns, body⟩, s₅, h₅, h⟩ := bind_ok.1 h
  obtain ⟨rfl, rfl⟩ := pure_ok.1 h
  cases h₄
  have hname := named_declaring hload (fun hty => absurd hty (by simp [hkind])) h₁ h₂ h₃
  have hown := hname.trans hload (.own s₃ hd.id)
  obtain ⟨-, s₆, hin, rfl⟩ := inScope_ok h₅
  obtain ⟨ps', s₇, h₇, hin⟩ := bind_ok.1 hin
  have hparams := params_read hload h₇
  obtain ⟨open?, s₈, h₈, hin⟩ := bind_ok.1 hin
  have hreturns : ps' = ps ∧ ∃ s₉, Reads env s₇ (returns.elim [] TypeRef.uses) s₉ ∧
      block env s₉ = (.ok body, s₆) := by
    have hopen := (isPunct_scans _).reads h₈
    split at hin
    · obtain ⟨_, s₉, h₉, hin⟩ := bind_ok.1 hin
      cases h₉
      obtain ⟨body', s₁₀, h₁₀, hin⟩ := bind_ok.1 hin
      obtain ⟨heq, rfl⟩ := pure_ok.1 hin
      cases heq
      exact ⟨rfl, s₈, hopen, h₁₀⟩
    · obtain ⟨type, s₉, h₉, hin⟩ := bind_ok.1 hin
      obtain ⟨_, s₁₀, h₁₀, hin⟩ := bind_ok.1 hin
      cases h₁₀
      obtain ⟨body', s₁₁, h₁₁, hin⟩ := bind_ok.1 hin
      obtain ⟨heq, rfl⟩ := pure_ok.1 hin
      cases heq
      exact ⟨rfl, s₉, hopen.trans (typeRef_scans.reads h₉), h₁₁⟩
  obtain ⟨rfl, s₉, hread, hblock⟩ := hreturns
  obtain ⟨s₁₀, s₁₁, hopen, hbody, hclose⟩ := block_inner hload hblock
  let f : Func := ⟨hd, name, ps', returns, body⟩
  have hparams' : ParamsRead env hd.id { s₃ with owner := hd.id } ps' s₁₀ :=
    (hparams.reads hread).reads hopen
  have hread' := body_read hload (f := f) hparams' rfl hbody hclose
  have hinner : Run env (ParserState.enter env .declaration { s₃ with owner := hd.id }) s₆ :=
    (hparams'.run.trans (.inside (by decide) hbody.run)).trans (.read hclose)
  have hafter : Advances env s₉ s₆ := ((Advances.of_reads hopen).trans
    (hbody.run.advances hload).inside).trans (.of_reads hclose)
  have hfunc : Declaring env { s₃ with owner := hd.id } [] f.uses s₆.leave := by
    refine ⟨.inside (by decide) hinner, fun hclean hs => ?_⟩
    have hfiles := hinner.imports_eq hload (hs.enter _) (Nat.ne_of_gt hs.root_lt)
    obtain ⟨-, hfresh, hin⟩ := hread' hclean hs
    obtain ⟨hfresh', hin'⟩ := hparams.signature hload hread hafter
    exact .of_still hs (hinner.advances hload).still hfiles (hfresh'.append hfresh)
      (hin'.append hin)
  have hall := hown.trans hload hfunc
  rw [List.append_nil, List.append_nil] at hall
  refine ⟨rfl, hall, fun hclean hs => ?_⟩
  have ha := hown.run.advances hload
  have hfinal := (hread' hclean (hown.run.standing hload hs)).1
  rw [ha.scope] at hfinal
  exact hfinal.early ha.seq

/-- A query declares its name; then its parameters and its return type are read in a scope of their
own. -/
theorem queryDecl_ok {hd : Header} {active : Bool} {q : Query}
    (h : queryDecl hd active env s = (.ok q, s')) :
    ∃ s₁ s₂ s₃, Declaring env s (Declared.when active ⟨q.name, .query, hd.id⟩) [] s₁ ∧
      ParamsRead env hd.id s₁ q.params s₂ ∧ Reads env s₂ (q.returns.elim [] TypeRef.uses) s₃ ∧
      q.scope = s₁.session.symbols.scopes.size ∧ Reads env s₃.leave [] s' := by
  unfold queryDecl at h
  obtain ⟨_, s₁, h₁, h⟩ := bind_ok.1 h
  obtain ⟨⟨name, pos⟩, s₂, h₂, h⟩ := bind_ok.1 h
  obtain ⟨_, s₃, h₃, h⟩ := bind_ok.1 h
  obtain ⟨seq, s₄, h₄, h⟩ := bind_ok.1 h
  obtain ⟨⟨scope, ps, returns⟩, s₅, h₅, h⟩ := bind_ok.1 h
  obtain ⟨t, s₆, h₆, hend⟩ := bind_ok.1 h
  have hname := named_declaring hload (fun hty => absurd hty (by decide)) h₁ h₂ h₃
  obtain ⟨hscope, s₇, hin, rfl⟩ := inScope_ok h₅
  obtain ⟨ps', s₈, h₈, hin⟩ := bind_ok.1 hin
  have hparams := params_read hload h₈
  obtain ⟨next, s₉, h₉, hin⟩ := bind_ok.1 hin
  have hreturns : ps = ps' ∧ Reads env s₈ (returns.elim [] TypeRef.uses) s₇ := by
    cases hkind : next.kind with
    | raw _ =>
      rw [hkind] at hin
      obtain ⟨heq, rfl⟩ := pure_ok.1 hin
      cases heq
      exact ⟨rfl, peek_scans.reads h₉⟩
    | _ =>
      rw [hkind] at hin
      obtain ⟨type, s₁₀, h₁₀, hin⟩ := bind_ok.1 hin
      obtain ⟨heq, rfl⟩ := pure_ok.1 hin
      cases heq
      exact ⟨rfl, (peek_scans.reads h₉).trans (typeRef_scans.reads h₁₀)⟩
  obtain ⟨heq, hread⟩ := hreturns
  subst heq
  cases hkind : t.kind with
  | raw sql =>
    rw [hkind] at hend
    obtain ⟨_, s₉, h₉, hend⟩ := bind_ok.1 hend
    obtain ⟨rfl, rfl⟩ := pure_ok.1 hend
    have hdeclared := hname.trans hload (.reads (takeSeq_scans.reads h₄))
    rw [List.append_nil, List.append_nil] at hdeclared
    exact ⟨s₄, s₈, s₇, hdeclared, hparams, hread, hscope,
      (peek_scans.reads h₆).trans (advance_scans.reads h₉)⟩
  | _ =>
    rw [hkind] at hend
    cases hend

/-- The parameters of a query stay in its own scope. -/
theorem queryDecl_declaring {hd : Header} {active : Bool} {q : Query}
    (h : queryDecl hd active env s = (.ok q, s')) :
    Declaring env s (Declared.when active ⟨q.name, .query, hd.id⟩) q.uses s' := by
  obtain ⟨s₁, s₂, s₃, hname, hparams, hread, -, hend⟩ := queryDecl_ok hload h
  have hinner : Declaring env s₁ [] q.uses s₃.leave := by
    have hrun := hparams.run.trans (.read hread)
    refine ⟨.inside (by decide) hrun, fun hclean hs => ?_⟩
    have hfiles := hrun.imports_eq hload (hs.enter _) (Nat.ne_of_gt hs.root_lt)
    obtain ⟨hfresh, hin⟩ := hparams.signature hload hread (.of_reads (.refl s₃))
    exact .of_still hs (hrun.advances hload).still hfiles hfresh hin
  simpa using (hname.trans hload hinner).trans hload (.reads hend)

/-! ## Members -/

omit hload in
theorem annotationsFuel_scans : ∀ (fuel : Nat) (b : AnnotationBlock),
    Scans env [] (annotations.annotationsFuel fuel b) fun _ => []
  | 0, b => .pure (by simp)
  | fuel + 1, b => by
    refine .bind peek_scans fun t => ?_
    split
    · exact .bind advance_scans fun _ => annotationsFuel_scans fuel _
    · exact .pure (by simp)

omit hload in
theorem annotations_scans : Scans env [] annotations fun _ => [] :=
  .bind remaining_scans fun _ => annotationsFuel_scans _ _

theorem header_declaring {hd : Header × Bool} (h : header env s = (.ok hd, s')) :
    Declaring env s [] [] s' := by
  obtain ⟨block, s₁, h₁, h⟩ := bind_ok.1 h
  obtain ⟨_, s₂, h₂, h⟩ := bind_ok.1 h
  cases h₂
  obtain ⟨id, s₃, h₃, h⟩ := bind_ok.1 h
  obtain ⟨t, s₄, h₄, h⟩ := bind_ok.1 h
  cases h₄
  obtain ⟨-, rfl⟩ := pure_ok.1 h
  obtain ⟨-, rfl⟩ := takeNode_ok h₃
  exact (Declaring.reads (annotations_scans.reads h₁)).trans hload (.number s₁)

/-- What every member keeps up holds at the end of the members, which have a scope of their own. -/
theorem members_ok {α : Type} {active : Bool} {member : Header → Bool → Parser α} {items : List α}
    {J : ParserState → List α → ParserState → Prop} (hnil : ∀ s, J s [] s)
    (hstill : ∀ {s₀ items s s'}, J s₀ items s → Declaring env s [] [] s' → J s₀ items s')
    (hmember : ∀ {s₀ items s hd a item s'}, J s₀ items s → member hd a env s = (.ok item, s') →
      J s₀ (if a then items ++ [item] else items) s')
    (h : members active member env s = (.ok items, s')) :
    ∃ s₁ s₂, Reads env s [] s₁ ∧ J (s₁.enter env .declaration) items s₂ ∧ s' = s₂.leave := by
  obtain ⟨_, s₁, h₁, h⟩ := bind_ok.1 h
  obtain ⟨⟨scope, items'⟩, s₂, h₂, h⟩ := bind_ok.1 h
  obtain ⟨rfl, rfl⟩ := pure_ok.1 h
  obtain ⟨-, s₃, hin, rfl⟩ := inScope_ok h₂
  obtain ⟨items, s₄, h₄, hin⟩ := bind_ok.1 hin
  obtain ⟨_, s₅, h₅, hin⟩ := bind_ok.1 hin
  obtain ⟨rfl, rfl⟩ := pure_ok.1 hin
  refine ⟨s₁, s₅, (expectPunct_scans _).reads h₁, ?_, rfl⟩
  refine hstill ?_ (.reads ((expectPunct_scans _).reads h₅))
  refine Triple.untilClose .braceClose (J := J (s₁.enter env .declaration))
    (fun _ _ _ hj hr => hstill hj (.reads hr)) (fun items => ?_) [] _ _ _ (hnil _) h₄
  intro s items' s' hj h
  obtain ⟨⟨hd, own⟩, s₆, h₆, h⟩ := bind_ok.1 h
  obtain ⟨item, s₇, h₇, h⟩ := bind_ok.1 h
  obtain ⟨rfl, rfl⟩ := pure_ok.1 h
  exact hmember (hstill hj (header_declaring hload h₆)) h₇

omit hload in
theorem checkHandler_scans (controller : String) (f : Func) :
    Scans env [] (checkHandler controller f) fun _ => [] := by
  unfold checkHandler
  extract_lets declaration notes checkBody checkRoute
  have hbody : ∀ u, Scans env [] (checkBody u) fun _ => [] := by
    intro u
    dsimp only [checkBody]
    split
    · exact .pure (by simp)
    · split
      · exact invalid_scans _ _ _
      · exact .pure (by simp)
  have hroute : ∀ u, Scans env [] (checkRoute u) fun _ => [] := by
    intro u
    dsimp only [checkRoute]
    split
    · exact (invalid_scans _ _ _).bind fun u => hbody u
    · exact hbody ()
  split
  · exact (invalid_scans _ _ _).bind fun u => hroute u
  · split
    · exact (invalid_scans _ _ _).bind fun u => hroute u
    · exact hroute ()

end Parser

/-- The handlers of a controller: what they declare, and how their bodies are read. -/
structure HandlersRead (env : ParserEnv) (s₀ : ParserState) (fs : List Func) (s : ParserState) :
    Prop where
  declaring : Declaring env s₀ (fs.map fun f => ⟨f.name, .handler, f.header.id⟩)
    (fs.flatMap Func.uses) s
  bodies : s.session.Clean → Standing env s₀ → ∀ f ∈ fs, FuncRead (s₀.scope env) s₀.seq s [] f

namespace HandlersRead

variable {env : ParserEnv} {s₀ s s' : ParserState} {fs : List Func} (hload : env.Loads)
include hload

theorem still (h : HandlersRead env s₀ fs s) (hd : Declaring env s [] [] s') :
    HandlersRead env s₀ fs s' where
  declaring := by simpa using h.declaring.trans hload hd
  bodies hclean hs f hf := by
    have ha := hd.run.advances hload
    refine (h.bodies (ha.clean hclean) hs f hf).later ha ?_
    exact Nat.le_of_eq (h.declaring.run.advances hload).scope

/-- One more handler, which is left out if it is for other platforms. -/
theorem handler {hd : Header} {a : Bool} {f : Func} (h : HandlersRead env s₀ fs s)
    (hf : Parser.funcDecl hd a .handler env s = (.ok f, s')) :
    HandlersRead env s₀ (if a then fs ++ [f] else fs) s' := by
  obtain ⟨rfl, hdecl, hread⟩ := Parser.funcDecl_parsed hload rfl hf
  have hall := h.declaring.trans hload hdecl
  have ha := h.declaring.run.advances hload
  have ha' := hdecl.run.advances hload
  have hold : s'.session.Clean → Standing env s₀ → ∀ f ∈ fs, FuncRead (s₀.scope env) s₀.seq s' [] f :=
    fun hclean hs f hf => (h.bodies (ha'.clean hclean) hs f hf).later ha'
      (Nat.le_of_eq ha.scope)
  cases a with
  | false =>
    exact ⟨by simpa [Declared.when] using hall.mono fun u => List.mem_append_left _, hold⟩
  | true =>
    refine ⟨by simpa [Declared.when] using hall, fun hclean hs g hg => ?_⟩
    obtain hg | hg := List.mem_append.1 hg
    · exact hold hclean hs g hg
    · rw [List.mem_singleton.1 hg, ← ha.scope]
      exact (hread hclean (h.declaring.run.standing hload hs)).early ha.seq

/-- Outside the controller, what is not found in a handler is looked up among all handlers. -/
theorem leave (h : HandlersRead env (s₀.enter env .declaration) fs s) (hclean : s.session.Clean)
    (hs : Standing env s₀) : ∀ f ∈ fs, FuncRead (s₀.scope env) s₀.seq s.leave
      (fs.map fun f => ⟨f.name, .handler, f.header.id⟩) f := by
  intro f hf
  have hin := hs.enter .declaration
  have hread := h.bodies hclean hin f hf
  have hnew : (s₀.enter env .declaration).session.symbols.scopes[s₀.session.symbols.scopes.size]?
      = some ⟨.declaration, some (s₀.scope env), env.file, [], [], false⟩ := by
    simp [ParserState.enter, SymbolTable.scopes_addScope]
  obtain ⟨sc, hsc, hk, hp, -⟩ := (h.declaring.run.advances hload).symbols.scopes hnew
  obtain ⟨bs, hnames, hd⟩ := (h.declaring.adds hclean hin).names
  have hbs : sc.bindings = bs := by
    rw [← SymbolTable.names_of_scope hsc]
    have hempty := SymbolTable.names_of_scope hnew
    exact hnames.trans (by rw [show (s₀.enter env .declaration).scope env
      = s₀.session.symbols.scopes.size from rfl, hempty]; rfl)
  refine hread.member hsc hk hp (h.declaring.run.standing hload hin).session.table ?_
  rw [hbs]
  exact hd

end HandlersRead

end Scaffold.Source
