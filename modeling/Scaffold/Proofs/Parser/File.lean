import Scaffold.Proofs.Parser.Decl

/-!
# How files are parsed

A file is a list of items: each is a declaration, or nothing where the declaration is for other
platforms, together with the files it imports. `Parser.items` gives them, and the declarations of the
file are theirs (`decls_ok`).

* `Item.placed`: each declaration with the files imported before it.
* `BodyRead`: what every name in a body will be found to mean, as a look-up in one list of names.
* `items_read`: a parsed file declares its declarations, and its bodies are read in order.
-/

namespace Scaffold

/-- A path leads to a finished document, and this is its scope. -/
def Session.Opens (s : Session) (p : Path) (scope : ScopeId) : Prop :=
  ∃ d, s.imports.get? p = some d ∧ d.scope = scope

namespace Source

/-- What one declaration of a file comes to: itself, unless it is for other platforms, and the files
it imports. -/
structure Item where
  decl : Option Decl
  imports : List Path

namespace Item

/-- The declarations, each with the files imported before it. -/
def placed (before : List Path) : List Item → List (Decl × List Path)
  | [] => []
  | item :: rest => (item.decl.map (·, before)).toList ++ placed (before ++ item.imports) rest

theorem placed_append (before : List Path) (items : List Item) (item : Item) :
    placed before (items ++ [item]) = placed before items
      ++ (item.decl.map (·, before ++ items.flatMap (·.imports))).toList := by
  induction items generalizing before with
  | nil => simp [placed]
  | cons first rest ih => simp [placed, ih, List.append_assoc]

theorem map_placed (before : List Path) (items : List Item) :
    (placed before items).map (·.1) = items.filterMap (·.decl) := by
  induction items generalizing before with
  | nil => rfl
  | cons item rest ih => cases hd : item.decl <;> simp [placed, hd, ih]

end Item

namespace Parser

/-- A declaration of a file together with the files it imports. -/
def item : Parser Item := fun env s =>
  match decl env s with
  | (.ok d, s') => (.ok ⟨d, s'.imports.drop s.imports.length⟩, s')
  | (.error e, s') => (.error e, s')

/-- The declarations of a file together with the files they import. -/
def items : Parser (List Item) := do
  untilFuel atEnd step ((← remaining) + 1) []
where
  step (items : List Item) : Parser (List Item) := do
    if ← skipPunct .semicolon then return items else return items ++ [← item]

variable {env : ParserEnv} {s s' : ParserState}

theorem item_ok {d : Option Decl} (h : decl env s = (.ok d, s')) :
    item env s = (.ok ⟨d, s'.imports.drop s.imports.length⟩, s') := by
  simp [item, h]

/-- A loop that keeps more than another does the same. -/
theorem untilFuel_map {β γ : Type} {stop : Parser Bool} {step : β → Parser β} {step' : γ → Parser γ}
    (view : γ → β) (hstep : ∀ c s b s', step (view c) env s = (.ok b, s') →
      ∃ c', step' c env s = (.ok c', s') ∧ b = view c') :
    ∀ (fuel : Nat) (c : γ) (s : ParserState) (b : β) (s' : ParserState),
      untilFuel stop step fuel (view c) env s = (.ok b, s') →
      ∃ c', untilFuel stop step' fuel c env s = (.ok c', s') ∧ b = view c'
  | 0, c, s, b, s', h => by
    obtain ⟨rfl, rfl⟩ := pure_ok.1 h
    exact ⟨c, rfl, rfl⟩
  | fuel + 1, c, s, b, s', h => by
    obtain ⟨stopped, s₁, h₁, h⟩ := bind_ok.1 h
    cases stopped with
    | true =>
      obtain ⟨rfl, rfl⟩ := pure_ok.1 h
      exact ⟨c, bind_ok.2 ⟨true, s₁, h₁, rfl⟩, rfl⟩
    | false =>
      obtain ⟨b₁, s₂, h₂, h⟩ := bind_ok.1 h
      obtain ⟨c₁, hc₁, rfl⟩ := hstep _ _ _ _ h₂
      obtain ⟨c', hc', rfl⟩ := untilFuel_map view hstep fuel c₁ _ _ _ h
      exact ⟨c', bind_ok.2 ⟨false, s₁, h₁, bind_ok.2 ⟨c₁, s₂, hc₁, hc'⟩⟩, rfl⟩

/-- The declarations of a file are those of its items. -/
theorem decls_ok {ds : List Decl} (h : decls env s = (.ok ds, s')) :
    ∃ is, items env s = (.ok is, s') ∧ ds = is.filterMap (·.decl) := by
  have hstep : ∀ (is : List Item) s ds s', decls.step (is.filterMap (·.decl)) env s = (.ok ds, s') →
      ∃ is', items.step is env s = (.ok is', s') ∧ ds = is'.filterMap (·.decl) := by
    intro is s ds s' h
    obtain ⟨skipped, s₁, h₁, h⟩ := bind_ok.1 h
    cases skipped with
    | true =>
      obtain ⟨rfl, rfl⟩ := pure_ok.1 h
      exact ⟨is, bind_ok.2 ⟨true, s₁, h₁, rfl⟩, rfl⟩
    | false =>
      obtain ⟨d, s₂, h₂, h⟩ := bind_ok.1 h
      obtain ⟨rfl, rfl⟩ := pure_ok.1 h
      refine ⟨_, bind_ok.2 ⟨false, s₁, h₁, bind_ok.2 ⟨_, _, item_ok h₂, rfl⟩⟩, ?_⟩
      cases d <;> simp
  obtain ⟨n, s₁, h₁, h⟩ := bind_ok.1 h
  obtain ⟨is, his, rfl⟩ := untilFuel_map (List.filterMap Item.decl) hstep _ [] _ _ _ h
  exact ⟨is, bind_ok.2 ⟨n, s₁, h₁, his⟩, rfl⟩

end Parser

/-! ## What a file says -/

/-- The function and the members around it have their symbols, and each name in its body will be
found among the variables and parameters in sight, the members, the declarations of the file, and the
declarations of the files imported before, in this order. -/
def BodyRead (root : ScopeId) (s : ParserState) (before : List Path) (members : List Declared)
    (f : Func) : Prop :=
  ∃ roots ms base, List.Forall₂ s.session.Opens before roots ∧
    s.session.symbols.Declares ms members ∧ s.session.symbols.DeclaresFrom base f.declared ∧
    ∀ x ∈ Stmt.readingsAll (.ofParams base f.params) f.body, x.2.ref.seq < s.seq ∧
      ∀ t : SymbolTable, s.session.symbols.Grows (Nat.le · root) s.seq t → t.WellFormed →
        t.find x.2.ref.name x.2.ref.seq (some x.2.ref.scope)
          = (x.1.names ++ ms ++ t.names root ++ roots.flatMap t.names).lookup x.2.ref.name

/-- The items have been read. -/
structure FileRead (env : ParserEnv) (items : List Item) (s : ParserState) : Prop where
  files : s.imports = items.flatMap (·.imports)
  visible : List.Forall₂ (fun p i => i.seq < s.seq ∧ s.session.Opens p i.scope) s.imports
    (s.session.symbols.imports env.root)
  names : s.session.symbols.Declares (s.session.symbols.names env.root)
    ((items.filterMap (·.decl)).filterMap Decl.declared?)
  fresh : ∀ d ∈ items.filterMap (·.decl), Fresh d.uses
  inside : ∀ d ∈ items.filterMap (·.decl), ∀ u ∈ d.uses, Nat.le env.root u.ref.scope ∧
    Nat.lt u.ref.scope s.session.symbols.scopes.size ∧ (d.isData = true → u.ref.scope = env.root)
  bodies : ∀ x ∈ Item.placed [] items, ∀ y ∈ x.1.bodies, BodyRead env.root s x.2 y.1 y.2

section

variable {env : ParserEnv} {s s' : ParserState}

theorem Advances.opens (h : Advances env s s') {p : Path} {scope : ScopeId}
    (ho : s.session.Opens p scope) : s'.session.Opens p scope := by
  obtain ⟨d, hd, hscope⟩ := ho
  exact ⟨d, h.kept.documents hd, hscope⟩

theorem BodyRead.later {root : ScopeId} {before : List Path} {members : List Declared} {f : Func}
    (h : BodyRead root s before members f) (ha : Advances env s s') (hscope : s.scope env = root) :
    BodyRead root s' before members f := by
  obtain ⟨roots, ms, base, hopen, hms, hd, hx⟩ := h
  refine ⟨roots, ms, base, hopen.imp fun _ _ => ha.opens, ha.symbols.declares hms,
    hd.grows ha.symbols, fun x hx' => ?_⟩
  obtain ⟨hlt, hfind⟩ := hx x hx'
  refine ⟨Nat.lt_of_lt_of_le hlt ha.seq, fun t hg hwf => hfind t ?_ hwf⟩
  have hlive : ∀ i < s.session.symbols.scopes.size, i = s.scope env → Nat.le i root :=
    fun i _ hi => Nat.le_of_eq (hi.trans hscope)
  exact (ha.symbols.mono hlive (Nat.le_refl _)).trans ha.seq hg

/-- What is not found in a function or among its members is looked up at file level. -/
theorem FuncRead.body {q : Nat} {files : List Path} {members : List Declared} {f : Func}
    (h : FuncRead env.root q s members f) (hs : Standing env s)
    (hvisible : List.Forall₂ (fun p i => i.seq < q ∧ s.session.Opens p i.scope) files
      (s.session.symbols.imports env.root)) :
    BodyRead env.root s files members f := by
  obtain ⟨ms, base, hms, hd, hx⟩ := h
  obtain ⟨sc, hsc, hk, hp⟩ := hs.root
  rw [SymbolTable.imports_of_scope hsc] at hvisible
  refine ⟨sc.imports.map (·.scope), ms, base, ?_, hms, hd, fun x hx' => ?_⟩
  · rw [List.forall₂_map_right_iff]
    exact hvisible.imp fun _ _ h => h.2
  · obtain ⟨hle, hlt, hfind⟩ := hx x hx'
    refine ⟨hlt, fun t hg hwf => ?_⟩
    have hold : ∀ i ∈ sc.imports, i.seq < q := by
      intro i hi
      obtain ⟨p, -, hlt, -⟩ := forall₂_mem_right hvisible hi
      exact hlt
    rw [hfind t hg hwf, SymbolTable.find_file hsc hk hp hold hg hwf hle hlt, List.flatMap_map,
      List.append_assoc (x.1.names ++ ms)]
    exact List.lookup_append.symm

namespace FileRead

variable {is : List Item} (hload : env.Loads)

theorem inside_later (h : FileRead env is s) (ha : Advances env s s') :
    ∀ d ∈ is.filterMap (·.decl), ∀ u ∈ d.uses, Nat.le env.root u.ref.scope ∧
      Nat.lt u.ref.scope s'.session.symbols.scopes.size ∧
      (d.isData = true → u.ref.scope = env.root) := by
  intro d hd u hu
  obtain ⟨hle, hlt, hdata⟩ := h.inside d hd u hu
  exact ⟨hle, Nat.lt_of_lt_of_le hlt ha.symbols.scopes_size, hdata⟩

/-- Nothing has been read yet. -/
theorem nil (hfiles : s.imports = []) (hnames : s.session.symbols.names env.root = [])
    (hvisible : s.session.symbols.imports env.root = []) : FileRead env [] s where
  files := hfiles
  visible := by
    rw [hfiles, hvisible]
    exact .nil
  names := by
    rw [hnames]
    exact .nil
  fresh _ hd := nomatch hd
  inside _ hd := nomatch hd
  bodies _ hx := nomatch hx

include hload

/-- A declaration was parsed. -/
theorem decl {active : Bool} {d : Decl} (h : FileRead env is s) (hroot : s.scope env = env.root)
    (hs : Standing env s) (hd : DeclParsed env s active d s') (hclean : s'.session.Clean) :
    FileRead env (is ++ [⟨if active then some d else none, []⟩]) s' := by
  have ha := hd.declaring.run.advances hload
  obtain ⟨hfiles, hvisible, ⟨bs, hnames, hdeclares⟩, hfresh, hinside⟩ := hd.declaring.adds hclean hs
  rw [hroot] at hvisible hnames
  have hopen : List.Forall₂ (fun p i => i.seq < s.seq ∧ s'.session.Opens p i.scope) s'.imports
      (s'.session.symbols.imports env.root) := by
    rw [hfiles, hvisible]
    exact h.visible.imp fun p i hi => ⟨hi.1, ha.opens hi.2⟩
  refine ⟨?_, hopen.imp fun p i hi => ⟨Nat.lt_of_lt_of_le hi.1 ha.seq, hi.2⟩, ?_, ?_, ?_, ?_⟩
  · rw [hfiles, h.files]
    simp
  · rw [hnames, List.filterMap_append, List.filterMap_append]
    refine List.rel_append (ha.symbols.declares h.names) ?_
    cases active with
    | false => exact hdeclares
    | true => cases hd : d.declared? <;> simpa [hd, SymbolTable.Declares] using hdeclares
  · intro d' hd'
    rw [List.filterMap_append] at hd'
    obtain hd' | hd' := List.mem_append.1 hd'
    · exact h.fresh d' hd'
    · cases active with
      | false => cases hd'
      | true =>
        rw [List.mem_singleton.1 hd']
        exact hfresh
  · intro d' hd' u hu
    rw [List.filterMap_append] at hd'
    obtain hd' | hd' := List.mem_append.1 hd'
    · exact h.inside_later ha d' hd' u hu
    · cases active with
      | false => cases hd'
      | true =>
        rw [List.mem_singleton.1 hd'] at hu ⊢
        obtain ⟨hscope, hlt⟩ := hinside u hu
        refine ⟨?_, hlt, fun hdata => (hd.level hdata u hu).trans hroot⟩
        obtain hscope | hnew := hscope
        · exact Nat.le_of_eq (hscope.trans hroot).symm
        · exact Nat.le_trans (Nat.le_of_lt hs.root_lt) hnew
  · intro x hx y hy
    rw [Item.placed_append] at hx
    obtain hx | hx := List.mem_append.1 hx
    · exact (h.bodies x hx y hy).later ha hroot
    · cases active with
      | false => cases hx
      | true =>
        rw [List.mem_singleton.1 hx] at hy ⊢
        have hbody := (hd.bodies hclean hs y hy).body (hd.declaring.run.standing hload hs) hopen
        rw [hfiles, h.files] at hbody
        exact hbody

/-- A file was imported. -/
theorem load {f : SourceFile} {d : Document} {session : Session} {o : Option Decl}
    (h : FileRead env is s) (hroot : s.scope env = env.root) (hs : Standing env s)
    (ho : ∀ d, o = some d → ∃ i, d = .importFile i)
    (hd : env.load f s.session = (.ok d, session)) :
    FileRead env (is ++ [⟨o, [d.path]⟩]) (s.addImport env d session) := by
  have hrun : Run env s (s.addImport env d session) := .load hd hroot
  have ha := hrun.advances hload
  obtain ⟨hbefore, hheld⟩ := hload _ _ _ _ hd
  have hlt := hs.root_lt
  have hlt' : env.root < session.symbols.scopes.size :=
    Nat.lt_of_lt_of_le hlt hbefore.symbols.scopes_size
  have hnames : (s.addImport env d session).session.symbols.names env.root
      = s.session.symbols.names env.root := by
    show (session.symbols.addImport env.root d.scope s.seq).names env.root = _
    rw [SymbolTable.names_addImport, hbefore.symbols.names_eq hlt id]
  have hvisible : (s.addImport env d session).session.symbols.imports env.root
      = s.session.symbols.imports env.root ++ [⟨s.seq, d.scope⟩] := by
    show (session.symbols.addImport env.root d.scope s.seq).imports env.root = _
    rw [SymbolTable.imports_addImport _ _ _ hlt', hbefore.symbols.imports_eq hlt id]
  refine ⟨?_, ?_, ?_, ?_, ?_, ?_⟩
  · simp [ParserState.addImport, h.files]
  · rw [hvisible]
    refine List.rel_append (h.visible.imp fun p i hi => ?_) (.cons ⟨?_, ?_⟩ .nil)
    · exact ⟨Nat.lt_of_lt_of_le hi.1 ha.seq, ha.opens hi.2⟩
    · exact Nat.lt_succ_self _
    · exact ⟨d, hheld hs.session, rfl⟩
  · rw [hnames, List.filterMap_append, List.filterMap_append]
    have hnone : ([⟨o, [d.path]⟩] : List Item).filterMap (·.decl) = o.toList := by
      cases o <;> rfl
    have hnone' : o.toList.filterMap Decl.declared? = [] := by
      cases o with
      | none => rfl
      | some d' =>
        obtain ⟨i, rfl⟩ := ho d' rfl
        rfl
    rw [hnone, hnone', List.append_nil]
    exact ha.symbols.declares h.names
  · intro d' hd'
    rw [List.filterMap_append] at hd'
    obtain hd' | hd' := List.mem_append.1 hd'
    · exact h.fresh d' hd'
    · obtain ⟨item, hitem, hdecl⟩ := List.mem_filterMap.1 hd'
      rw [List.mem_singleton.1 hitem] at hdecl
      obtain ⟨i, rfl⟩ := ho d' hdecl
      exact .nil
  · intro d' hd' u hu
    rw [List.filterMap_append] at hd'
    obtain hd' | hd' := List.mem_append.1 hd'
    · exact h.inside_later ha d' hd' u hu
    · obtain ⟨item, hitem, hdecl⟩ := List.mem_filterMap.1 hd'
      rw [List.mem_singleton.1 hitem] at hdecl
      obtain ⟨i, rfl⟩ := ho d' hdecl
      cases hu
  · intro x hx y hy
    rw [Item.placed_append] at hx
    obtain hx | hx := List.mem_append.1 hx
    · exact (h.bodies x hx y hy).later ha hroot
    · cases o with
      | none => cases hx
      | some d' =>
        obtain ⟨i, rfl⟩ := ho d' rfl
        rw [List.mem_singleton.1 hx] at hy
        cases hy

/-- Nothing but tokens was read. -/
theorem still (h : FileRead env is s) (hroot : s.scope env = env.root) (hs : Standing env s)
    (hd : Declaring env s [] [] s') (hclean : s'.session.Clean) : FileRead env is s' := by
  have ha := hd.run.advances hload
  obtain ⟨hfiles, hvisible, ⟨bs, hnames, hdeclares⟩, -⟩ := hd.adds hclean hs
  cases hdeclares
  rw [hroot, List.append_nil] at hnames
  rw [hroot] at hvisible
  refine ⟨hfiles.trans h.files, ?_, ?_, h.fresh, h.inside_later ha,
    fun x hx y hy => (h.bodies x hx y hy).later ha hroot⟩
  · rw [hfiles, hvisible]
    exact h.visible.imp fun p i hi => ⟨Nat.lt_of_lt_of_le hi.1 ha.seq, ha.opens hi.2⟩
  · rw [hnames]
    exact ha.symbols.declares h.names

end FileRead

end

/-- A parser of items ran, from a state in the scope of the file. -/
structure ItemsParsed (env : ParserEnv) (s₀ : ParserState) (is : List Item) (s : ParserState) :
    Prop where
  run : Run env s₀ s
  read : s.session.Clean → Standing env s₀ → FileRead env [] s₀ → FileRead env is s

namespace Parser

variable {env : ParserEnv} {s₀ : ParserState} (hload : env.Loads)
  (hroot : s₀.scope env = env.root)
include hload hroot

theorem item_parsed (is : List Item) :
    Triple env (ItemsParsed env s₀ is) item fun i => ItemsParsed env s₀ (is ++ [i]) := by
  intro s i s' hs h
  have hscope : s.scope env = env.root := (hs.run.advances hload).scope.trans hroot
  obtain ⟨o, hdecl, rfl⟩ : ∃ o, decl env s = (.ok o, s') ∧
      i = ⟨o, s'.imports.drop s.imports.length⟩ := by
    unfold item at h
    split at h
    · cases h
      exact ⟨_, by assumption, rfl⟩
    · cases h
  obtain ⟨active, d, rfl, hd⟩ | ⟨active, i, rfl, s₁, f, d, session, hd, hfile, rfl⟩ :=
    decl_ends hload hscope s o s' (.reads (.refl s)) hdecl
  · have ha := hd.declaring.run.advances hload
    refine ⟨hs.run.trans hd.declaring.run, fun hclean hstand hnil => ?_⟩
    have hstand' := hs.run.standing hload hstand
    have hread := hs.read (ha.clean hclean) hstand hnil
    rw [(hd.declaring.adds hclean hstand').files, List.drop_length]
    exact hread.decl hload hscope hstand' hd hclean
  · have hrun := hs.run.trans hd.run
    have hscope' : s₁.scope env = env.root := (hd.run.advances hload).scope.trans hscope
    have hloaded : Run env s₁ (s₁.addImport env d session) := .load hfile hscope'
    refine ⟨hrun.trans hloaded, fun hclean hstand hnil => ?_⟩
    have hclean₁ := (hloaded.advances hload).clean hclean
    have hstand' := hs.run.standing hload hstand
    have hread := hs.read ((hd.run.advances hload).clean hclean₁) hstand hnil
    have hread₁ := hread.still hload hscope hstand' hd hclean₁
    rw [show (s₁.addImport env d session).imports = s₁.imports ++ [d.path] from rfl,
      (hd.adds hclean₁ hstand').files, List.drop_left]
    refine hread₁.load hload hscope' (hd.run.standing hload hstand') (fun d' hd' => ?_) hfile
    cases active with
    | false => cases hd'
    | true => exact ⟨i, (Option.some.inj hd').symm⟩

theorem ItemsParsed.still {is : List Item} {s s' : ParserState} (h : ItemsParsed env s₀ is s)
    (hr : Reads env s [] s') : ItemsParsed env s₀ is s' := by
  refine ⟨h.run.trans (.read hr), fun hclean hstand hnil => ?_⟩
  have hclean' := (Advances.of_reads hr).clean hclean
  exact (h.read hclean' hstand hnil).still hload ((h.run.advances hload).scope.trans hroot)
    (h.run.standing hload hstand) (.reads hr) hclean

/-- Every item of a file is parsed as it is read. -/
theorem items_parsed : Triple env (ItemsParsed env s₀ []) items (ItemsParsed env s₀) := by
  refine .read remaining_scans (fun _ _ _ h hr => ItemsParsed.still hload hroot h hr) fun _ => ?_
  refine .untilFuel (J := ItemsParsed env s₀) atEnd_scans
    (fun _ _ _ h hr => ItemsParsed.still hload hroot h hr) (fun is => ?_) _ []
  refine .read (skipPunct_scans _) (fun _ _ _ h hr => ItemsParsed.still hload hroot h hr) fun _ => ?_
  split
  · exact .pure fun _ => id
  · exact .bind (item_parsed hload hroot is) fun _ => .pure fun _ => id

end Parser

end Source

end Scaffold
