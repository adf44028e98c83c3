import Scaffold.Proofs.Resolution

/-!
# Names looked up again

A name is looked up once, when its file is completed; the table goes on growing after that. Looking
the name up again in the finished table gives the same symbol, because by then every scope on the way
has been left: the scope of the name, those around it, and the files that were imported. There is one
exception. Domains and columns are bound before the result shapes of their file are declared, so a
shape may capture a name that was found in an imported file or in the prelude.

* `SymbolTable.Rests`: looking up from a scope reads closed scopes only, and so gives the same at any
  later time (`Rests.resolve_eq`).
* `SymbolTable.Captures`: a result shape stands in front of what a name is bound to.
* `Session.Steady`: every name of a finished document resolves to what it is bound to, or is captured.
* `Entry.resolve_again`: so it is at the end of a compilation without errors.
-/

namespace Scaffold

namespace SymbolTable

variable {t t' : SymbolTable} {live closed closed' : ScopeId → Prop} {q : Nat} {name : String}
  {seq : Nat}

/-! ## Scopes at rest -/

/-- Looking a name up from here reads closed scopes only: this one, those around it, and the files
visible in them. -/
inductive Rests (t : SymbolTable) (closed : ScopeId → Prop) : ScopeId → Prop where
  | mk {i : ScopeId} {sc : Scope} : t.scopes[i]? = some sc → closed i →
    (∀ j ∈ sc.imports, Nat.lt j.scope t.scopes.size ∧ closed j.scope) →
    (∀ p, sc.parent = some p → Rests t closed p) → Rests t closed i

/-- A scope that is not live, and sees files that are not live, finds what it found. -/
theorem Grows.resolveIn_eq (hg : Grows live q t t') (ht : t.WellFormed) {i : ScopeId}
    {sc sc' : Scope} (hsc : t.scopes[i]? = some sc) (hsc' : t'.scopes[i]? = some sc')
    (hlive : ¬ live i)
    (himports : ∀ j ∈ sc.imports, Nat.lt j.scope t.scopes.size ∧ ¬ live j.scope) :
    t'.resolveIn sc' name seq = t.resolveIn sc name seq := by
  obtain ⟨sc₁, hsc₁, hk, -, ⟨bs, hb, hbs, -⟩, is, hi, his, -⟩ := hg.scopes hsc
  obtain rfl : sc₁ = sc' := Option.some.inj (hsc₁.symm.trans hsc')
  rw [hbs hlive, List.append_nil] at hb
  rw [his hlive, List.append_nil] at hi
  have hseen : (sc₁.lookup name).filter (fun id => sc₁.kind != .block || t'.symbols[id]?.any (·.seq < seq))
      = (sc.lookup name).filter (fun id => sc.kind != .block || t.symbols[id]?.any (·.seq < seq)) := by
    rw [Scope.lookup, Scope.lookup, hb, hk]
    cases hl : sc.bindings.lookup name with
    | none => rfl
    | some id =>
      obtain ⟨symbol, hsymbol, -⟩ := ht.bound hsc _ (mem_of_lookup hl)
      simp only [Option.filter_some, hsymbol, hg.symbols hsymbol]
  have hfiles : (sc₁.imports.filter (·.seq < seq)).findSome? (fun j => t'.lookup j.scope name)
      = (sc.imports.filter (·.seq < seq)).findSome? (fun j => t.lookup j.scope name) := by
    simp only [lookup_eq_names]
    rw [hi, ← lookup_flatMap, ← lookup_flatMap]
    refine congrArg (List.lookup name) (List.flatMap_congr fun j hj => ?_)
    obtain ⟨hlt, hclosed⟩ := himports j (List.mem_of_mem_filter hj)
    exact hg.names_eq hlt hclosed
  unfold resolveIn
  dsimp only
  rw [hseen, hfiles, hk]

namespace Rests

theorem lt {i : ScopeId} (h : t.Rests closed i) : Nat.lt i t.scopes.size := by
  cases h with
  | mk hsc => exact (Array.getElem?_eq_some_iff.1 hsc).1

theorem closed_self {i : ScopeId} (h : t.Rests closed i) : closed i := by
  cases h with
  | mk _ hclosed => exact hclosed

/-- Scopes stay at rest while no file becomes visible in them. -/
theorem grows {i : ScopeId} (h : t.Rests closed i) (hg : Grows live q t t')
    (himports : ∀ i, Nat.lt i t.scopes.size → closed i → t'.imports i = t.imports i)
    (hclosed : ∀ i, Nat.lt i t.scopes.size → closed i → closed' i) : t'.Rests closed' i := by
  induction h with
  | mk hsc hi himp hparent ih =>
    obtain ⟨sc', hsc', -, hp, -⟩ := hg.scopes hsc
    have hlt := (Array.getElem?_eq_some_iff.1 hsc).1
    refine .mk hsc' (hclosed _ hlt hi) (fun j hj => ?_) fun p hp' => ih p (hp ▸ hp')
    rw [← imports_of_scope hsc', himports _ hlt hi, imports_of_scope hsc] at hj
    obtain ⟨hj, hclosed_j⟩ := himp j hj
    exact ⟨Nat.lt_of_lt_of_le hj hg.scopes_size, hclosed _ hj hclosed_j⟩

theorem of_scopes {i : ScopeId} (h : t.Rests closed i) (hscopes : t'.scopes = t.scopes) :
    t'.Rests closed i := by
  induction h with
  | mk hsc hi himp _ ih =>
    exact .mk (hscopes ▸ hsc) hi (fun j hj => ⟨hscopes ▸ (himp j hj).1, (himp j hj).2⟩) ih

/-- From a scope at rest the same is found at a later time. -/
theorem find_eq {i : ScopeId} (h : t.Rests closed i) (hg : Grows live q t t') (ht : t.WellFormed)
    (ht' : t'.WellFormed) (hlive : ∀ i, Nat.lt i t.scopes.size → closed i → ¬ live i) :
    t'.find name seq (some i) = t.find name seq (some i) := by
  induction h with
  | mk hsc hi himp _ ih =>
    rename_i i sc _
    obtain ⟨sc', hsc', -, hp, -⟩ := hg.scopes hsc
    have hlt := (Array.getElem?_eq_some_iff.1 hsc).1
    rw [SymbolTable.find_eq ht hsc, SymbolTable.find_eq ht' hsc', hp,
      hg.resolveIn_eq ht hsc hsc' (hlive _ hlt hi)
        fun j hj => ⟨(himp j hj).1, hlive _ (himp j hj).1 (himp j hj).2⟩]
    cases hparent : sc.parent with
    | none => rw [find_none, find_none]
    | some p => rw [ih p hparent]

/-- From a scope at rest a name means the same at a later time. -/
theorem resolve_eq {i : ScopeId} (h : t.Rests closed i) (hg : Grows live q t t')
    (ht : t.WellFormed) (ht' : t'.WellFormed)
    (hlive : ∀ i, Nat.lt i t.scopes.size → closed i → ¬ live i)
    (hprelude : ∀ p, t.prelude = some p → Nat.lt p t.scopes.size ∧ closed p) :
    t'.resolve i name seq = t.resolve i name seq := by
  rw [SymbolTable.resolve_eq, SymbolTable.resolve_eq, h.find_eq hg ht ht' hlive, hg.prelude]
  cases hp : t.prelude with
  | none => rfl
  | some p =>
    obtain ⟨hlt, hclosed⟩ := hprelude p hp
    simp only [Option.bind_some, lookup_eq_names, hg.names_eq hlt (hlive p hlt hclosed)]

end Rests

/-- A scope that was there before is the same scope at an earlier time. -/
theorem Grows.back (hg : Grows live q t t') {i : ScopeId} (hi : Nat.lt i t.scopes.size) {sc' : Scope}
    (hsc' : t'.scopes[i]? = some sc') :
    ∃ sc, t.scopes[i]? = some sc ∧ Later (live i) q t' sc sc' := by
  have hsc := Array.getElem?_eq_getElem hi
  obtain ⟨sc₁, hsc₁, hlater⟩ := hg.scopes hsc
  obtain rfl : sc₁ = sc' := Option.some.inj (hsc₁.symm.trans hsc')
  exact ⟨_, hsc, hlater⟩

/-- Growth that may put off new files to any later place brings none. -/
theorem imports_eq_of_grows (hg : ∀ q, Grows live q t t') {i : ScopeId}
    (hi : Nat.lt i t.scopes.size) : t'.imports i = t.imports i := by
  have hsc := Array.getElem?_eq_getElem hi
  obtain ⟨sc', hsc', -, -, -, is, his, -⟩ := (hg 0).scopes hsc
  rw [imports_of_scope hsc, imports_of_scope hsc', his]
  cases is with
  | nil => exact List.append_nil _
  | cons j is =>
    obtain ⟨sc₁, hsc₁, -, -, -, is₁, his₁, -, hlate⟩ := (hg (j.seq + 1)).scopes hsc
    obtain rfl : sc₁ = sc' := Option.some.inj (hsc₁.symm.trans hsc')
    obtain rfl := List.append_cancel_left (his₁.symm.trans his)
    exact absurd (hlate j List.mem_cons_self) (Nat.not_succ_le_self _)

/-! ## Scopes of one file -/

/-- Scopes from `n` on lie inside scopes from `n` on. -/
def Founded (n : Nat) (t : SymbolTable) : Prop :=
  ∀ (i : ScopeId) (sc : Scope), t.scopes[i]? = some sc → Nat.le n i → ∀ p, sc.parent = some p →
    Nat.le n p

namespace Founded

variable {n m : Nat}

/-- What was added after the scopes there were lies inside itself. -/
theorem later (h : Founded n t) (hg : Grows live q t t') (hnew : Founded t.scopes.size t')
    (hn : n ≤ t.scopes.size) : Founded n t' := by
  intro i sc' hsc' hi p hp
  by_cases hlt : i < t.scopes.size
  · obtain ⟨sc, hsc, hlater⟩ := hg.back hlt hsc'
    exact h i sc hsc hi p (hlater.parent ▸ hp)
  · exact Nat.le_trans hn (hnew i sc' hsc' (Nat.le_of_not_lt hlt) p hp)

/-- Nothing was added. -/
theorem same (h : Founded n t) (hg : Grows live q t t') (hsize : t'.scopes.size = t.scopes.size) :
    Founded n t' := by
  intro i sc' hsc' hi p hp
  obtain ⟨sc, hsc, hlater⟩ := hg.back (hsize ▸ (Array.getElem?_eq_some_iff.1 hsc').1) hsc'
  exact h i sc hsc hi p (hlater.parent ▸ hp)

theorem addScope (h : Founded n t) (kind : ScopeKind) {parent : Option ScopeId}
    (hparent : ∀ p, parent = some p → Nat.le n p) (file : FileId) :
    Founded n (t.addScope kind parent file).2 := by
  intro i sc hsc hi p hp
  rw [scopes_addScope] at hsc
  split at hsc
  · cases hsc
    exact hparent p hp
  · exact h i sc hsc hi p hp

/-- A scope from `n` on is at rest once all scopes from there on are closed. -/
theorem rests (h : Founded n t) (ht : t.WellFormed) (hclosed : ∀ i, Nat.le n i → closed i)
    (himports : ∀ {i : ScopeId} {sc : Scope}, t.scopes[i]? = some sc → ∀ j ∈ sc.imports,
      Nat.lt j.scope t.scopes.size ∧ closed j.scope) :
    ∀ i, Nat.le n i → Nat.lt i t.scopes.size → t.Rests closed i := by
  intro i
  induction i using Nat.strongRecOn with
  | _ i ih =>
    intro hi hlt
    have hsc := Array.getElem?_eq_getElem hlt
    refine .mk hsc (hclosed i hi) (himports hsc) fun p hp => ?_
    have hp' := ht.parent_lt hsc p hp
    exact ih p hp' (h i _ hsc hi p hp) (Nat.lt_trans hp' hlt)

end Founded

/-! ## Names at file level -/

/-- The prelude comes last. -/
theorem find_setPrelude (t : SymbolTable) (prelude scope : ScopeId) :
    (t.setPrelude prelude).find name seq (some scope) = t.find name seq (some scope) := by
  have hfrom : ∀ (fuel : Nat) (start : Option ScopeId),
      (t.setPrelude prelude).resolveFrom name seq fuel start = t.resolveFrom name seq fuel start := by
    intro fuel
    induction fuel with
    | zero => exact fun _ => rfl
    | succ fuel ih =>
      intro start
      cases start with
      | none => rfl
      | some i =>
        rw [resolveFrom_succ, resolveFrom_succ]
        simp only [ih]
        rfl
  exact hfrom _ _

/-- In the scope of a file a name means what the file declares, else what the files imported before
declare, else what the prelude declares. -/
theorem resolve_file (ht : t.WellFormed) {i : ScopeId} {sc : Scope} (hsc : t.scopes[i]? = some sc)
    (hk : sc.kind = .file) (hp : sc.parent = none) :
    t.resolve i name seq = ((t.names i).lookup name).or
      ((((t.imports i).filter (·.seq < seq)).flatMap fun j => t.names j.scope).lookup name |>.or
        (t.prelude.bind fun p => (t.names p).lookup name)) := by
  rw [resolve_eq, find_eq ht hsc, resolveIn_file hk, hp, find_none, Option.or_none, names_of_scope hsc,
    imports_of_scope hsc, Option.or_assoc, lookup_flatMap]
  simp only [lookup_eq_names]

/-- The scope that a name was written in has a result shape of this name, and the name is bound to
another symbol. -/
def Captures (t : SymbolTable) (r : NameRef) : Prop :=
  ∃ id symbol, t.lookup r.scope r.name = some id ∧ t.symbols[id]? = some symbol ∧
    symbol.kind = .shape ∧ r.target ≠ some id

/-- A captured name resolves to the shape. -/
theorem Captures.resolve_ne {r : NameRef} (h : t.Captures r) (ht : t.WellFormed) :
    t.resolve r.scope r.name r.seq ≠ r.target := by
  obtain ⟨id, symbol, hlookup, hsymbol, hkind, hne⟩ := h
  obtain ⟨sc, hsc, hmem⟩ := mem_of_lookup_scope hlookup
  have hfile : sc.kind = .file := by
    by_contra hfile
    have := ht.inner hsc hfile _ hmem symbol hsymbol
    rw [hkind] at this
    cases this
  rw [lookup_eq_names, names_of_scope hsc] at hlookup
  rw [resolve_eq, find_eq ht hsc, resolveIn_file hfile, hlookup]
  exact fun h => hne h.symm

theorem Captures.grows {r : NameRef} (h : t.Captures r) (hg : Grows live q t t')
    (hlive : ¬ live r.scope) : t'.Captures r := by
  obtain ⟨id, symbol, hlookup, hsymbol, hkind, hne⟩ := h
  obtain ⟨sc, hsc, -⟩ := mem_of_lookup_scope hlookup
  have hlt := (Array.getElem?_eq_some_iff.1 hsc).1
  refine ⟨id, symbol, ?_, hg.symbols hsymbol, hkind, hne⟩
  rw [lookup_eq_names, hg.names_eq hlt hlive, ← lookup_eq_names]
  exact hlookup

/-- When result shapes are declared in a file, a name there means what it meant, or a shape captures
it. -/
theorem resolve_or_captures {root : ScopeId} {sc : Scope} {bs : List (String × SymbolId)}
    {shapes : List Declared} {r : NameRef} {id : SymbolId} (hg : ∀ q, Grows (· = root) q t t')
    (ht : t.WellFormed) (ht' : t'.WellFormed) (hsc : t.scopes[root]? = some sc)
    (hk : sc.kind = .file) (hp : sc.parent = none)
    (himports : ∀ j ∈ t.imports root, Nat.lt j.scope t.scopes.size ∧ j.scope ≠ root)
    (hprelude : ∀ p, t.prelude = some p → Nat.lt p t.scopes.size ∧ p ≠ root)
    (hnames : t'.names root = t.names root ++ bs) (hshapes : t'.Declares bs shapes)
    (hkind : ∀ d ∈ shapes, d.kind = .shape) (hroot : r.scope = root) (htarget : r.target = some id)
    (h : t.resolve r.scope r.name r.seq = some id) :
    t'.resolve r.scope r.name r.seq = some id ∨ t'.Captures r := by
  obtain ⟨sc', hsc', hk', hp', -⟩ := (hg 0).scopes hsc
  have hlt : Nat.lt root t.scopes.size := (Array.getElem?_eq_some_iff.1 hsc).1
  have hfiles : ((t'.imports root).filter (·.seq < r.seq)).flatMap (fun j => t'.names j.scope)
      = ((t.imports root).filter (·.seq < r.seq)).flatMap (fun j => t.names j.scope) := by
    rw [imports_eq_of_grows hg hlt]
    refine List.flatMap_congr fun j hj => ?_
    obtain ⟨hj, hne⟩ := himports j (List.mem_of_mem_filter hj)
    exact (hg 0).names_eq hj hne
  have hlast : t'.prelude.bind (fun p => (t'.names p).lookup r.name)
      = t.prelude.bind (fun p => (t.names p).lookup r.name) := by
    rw [(hg 0).prelude]
    cases hp : t.prelude with
    | none => rfl
    | some p =>
      obtain ⟨hlt, hne⟩ := hprelude p hp
      simp only [Option.bind_some, (hg 0).names_eq hlt hne]
  rw [hroot, resolve_file ht hsc hk hp] at h
  rw [hroot, resolve_file ht' hsc' (hk'.trans hk) (hp'.trans hp), hfiles, hlast, hnames,
    List.lookup_append]
  cases hown : (t.names root).lookup r.name with
  | some own =>
    rw [hown] at h
    exact .inl h
  | none =>
    rw [hown, Option.none_or] at h
    rw [Option.none_or]
    cases hnew : bs.lookup r.name with
    | none => exact .inl h
    | some new =>
      by_cases heq : new = id
      · rw [heq]
        exact .inl rfl
      · -- The shape is found first, in front of what the name is bound to.
        obtain ⟨d, hd, -, symbol, hsymbol, hdeclared⟩ :=
          forall₂_mem_right hshapes.flip (mem_of_lookup hnew)
        refine .inr ⟨new, symbol, ?_, hsymbol, ?_, ?_⟩
        · rw [hroot, lookup_eq_names, hnames, List.lookup_append, hown, Option.none_or, hnew]
        · rw [← hkind d hd, ← hdeclared]
          rfl
        · rw [htarget]
          exact fun h => heq (Option.some.inj h).symm

end SymbolTable

open Source

/-! ## Sessions -/

/-- The files visible in scopes are finished documents, and the scope of a file lies in no other. -/
structure Session.Linked (s : Session) : Prop where
  visible : ∀ {i : ScopeId} {sc : Scope}, s.symbols.scopes[i]? = some sc → ∀ j ∈ sc.imports,
    ∃ p, s.Opens p j.scope
  outermost : ∀ {i : ScopeId} {sc : Scope}, s.symbols.scopes[i]? = some sc → sc.kind = .file →
    sc.parent = none

namespace Session.Linked

variable {s s' : Session} (h : s.Linked)
  (hkept : ∀ {p d}, s.imports.get? p = some d → s'.imports.get? p = some d)
include h hkept

/-- Scopes were left as they are, and new ones see no file yet. -/
theorem step (hscopes : ∀ {i : ScopeId} {sc' : Scope}, s'.symbols.scopes[i]? = some sc' →
      (∃ sc, s.symbols.scopes[i]? = some sc ∧ sc'.imports = sc.imports ∧ sc'.kind = sc.kind ∧
        sc'.parent = sc.parent) ∨
      sc'.imports = [] ∧ (sc'.kind = .file → sc'.parent = none)) : s'.Linked := by
  refine ⟨fun hsc' j hj => ?_, fun hsc' hk => ?_⟩
  · obtain ⟨sc, hsc, himports, -⟩ | ⟨hnone, -⟩ := hscopes hsc'
    · obtain ⟨p, d, hd, hscope⟩ := h.visible hsc j (himports ▸ hj)
      exact ⟨p, d, hkept hd, hscope⟩
    · rw [hnone] at hj
      cases hj
  · obtain ⟨sc, hsc, -, hkind, hparent⟩ | ⟨-, hfile⟩ := hscopes hsc'
    · exact hparent.trans (h.outermost hsc (hkind.symm.trans hk))
    · exact hfile hk

/-- Growth that adds neither scopes nor visible files. -/
theorem grow {live : ScopeId → Prop} {q : Nat} (hg : s.symbols.Grows live q s'.symbols)
    (hsize : s'.symbols.scopes.size = s.symbols.scopes.size)
    (himports : ∀ i, Nat.lt i s.symbols.scopes.size → s'.symbols.imports i = s.symbols.imports i) :
    s'.Linked := by
  refine h.step hkept fun {i sc'} hsc' => .inl ?_
  have hlt : i < s.symbols.scopes.size := hsize ▸ (Array.getElem?_eq_some_iff.1 hsc').1
  obtain ⟨sc, hsc, hlater⟩ := hg.back hlt hsc'
  refine ⟨sc, hsc, ?_, hlater.kind, hlater.parent⟩
  rw [← SymbolTable.imports_of_scope hsc', ← SymbolTable.imports_of_scope hsc]
  exact himports i hlt

end Session.Linked

/-- The prelude is there, and is not being read. -/
theorem Session.Sound.prelude_apart {tree : FileTree} {texts : Path → String → Prop} {s : Session}
    (h : s.Sound tree texts) {scope : ScopeId} (hp : s.symbols.prelude = some scope) :
    Nat.lt scope s.symbols.scopes.size ∧ scope ∉ s.stack := by
  obtain ⟨p, d, hd, rfl⟩ := h.prelude hp
  exact ⟨(h.docs hd).file.lt, (h.docs hd).apart⟩

/-- So are the files that are visible somewhere. -/
theorem Session.Sound.visible_apart {tree : FileTree} {texts : Path → String → Prop} {s : Session}
    (h : s.Sound tree texts) (hlinked : s.Linked) {i : ScopeId} {sc : Scope}
    (hsc : s.symbols.scopes[i]? = some sc) {j : ScopeImport} (hj : j ∈ sc.imports) :
    Nat.lt j.scope s.symbols.scopes.size ∧ j.scope ∉ s.stack := by
  obtain ⟨p, d, hd, hscope⟩ := hlinked.visible hsc j hj
  rw [← hscope]
  exact ⟨(h.docs hd).file.lt, (h.docs hd).apart⟩

namespace Source

/-- The scopes around the name have been left, and it is bound to what it resolves to; where `loose`,
a result shape may have captured it since. -/
structure Steady (s : Session) (loose : Bool) (u : Use) : Prop where
  rests : s.symbols.Rests (· ∉ s.stack) u.ref.scope
  again : ∃ id, u.ref.target = some id ∧
    (s.symbols.resolve u.ref.scope u.ref.name u.ref.seq = some id ∨
      loose = true ∧ s.symbols.Captures u.ref)

/-- All names of a document are steady; those of domains and columns were bound before the shapes
were declared, and the columns of shapes are copies of such columns. -/
structure DocSteady (s : Session) (d : Document) : Prop where
  decls : ∀ b ∈ d.decls, ∀ u ∈ b.uses, Steady s b.isData u
  shapes : ∀ shape ∈ d.shapes, ∀ u ∈ Field.usesAll shape.columns, Steady s true u

theorem Steady.loosen {s : Session} {loose : Bool} {u : Use} (h : Steady s loose u) :
    Steady s true u := by
  obtain ⟨hrests, id, htarget, hagain⟩ := h
  exact ⟨hrests, id, htarget, hagain.imp_right fun h => ⟨rfl, h.2⟩⟩

theorem DocSteady.uses {s : Session} {d : Document} (h : DocSteady s d) :
    ∀ u ∈ d.uses, Steady s true u := by
  intro u hu
  obtain hu | hu := List.mem_append.1 hu
  · obtain ⟨b, hb, hu⟩ := List.mem_flatMap.1 hu
    exact (h.decls b hb u hu).loosen
  · obtain ⟨shape, hshape, hu⟩ := List.mem_flatMap.1 hu
    exact h.shapes shape hshape u hu

end Source

/-- All names of finished documents are steady. -/
structure Session.Steady (s : Session) : Prop where
  linked : s.Linked
  docs : ∀ {p d}, s.imports.get? p = some d → DocSteady s d

section

variable {tree : FileTree} {texts : Path → String → Prop} {s s' : Session} {live : ScopeId → Prop}
  {q : Nat} (hsound : s.Sound tree texts) (hwf : s.symbols.WellFormed)
  (hwf' : s'.symbols.WellFormed) (hg : s.symbols.Grows live q s'.symbols)
  (hlive : ∀ i, live i → i ∈ s.stack)
  (hstack : ∀ c ∈ s'.stack, c ∈ s.stack ∨ s.symbols.scopes.size ≤ c)
include hsound hwf hwf' hg hlive hstack

/-- Names stay steady while only open scopes grow. -/
theorem Source.Steady.grow {loose : Bool} {u : Use} (h : Source.Steady s loose u) :
    Source.Steady s' loose u := by
  obtain ⟨hrests, id, htarget, hagain⟩ := h
  have hapart : ∀ i, Nat.lt i s.symbols.scopes.size → i ∉ s.stack → ¬ live i :=
    fun i _ hi hl => hi (hlive i hl)
  refine ⟨hrests.grows hg (fun i hlt hi => hg.imports_eq hlt (hapart i hlt hi))
    (fun i hlt hi hc => ?_), id, htarget, hagain.imp (fun h => ?_) fun h => ⟨h.1, ?_⟩⟩
  · obtain hc | hc := hstack i hc
    · exact hi hc
    · exact absurd hlt (Nat.not_lt.2 hc)
  · rw [hrests.resolve_eq hg hwf hwf' hapart fun p hp => hsound.prelude_apart hp]
    exact h
  · exact h.2.grows hg (hapart _ hrests.lt hrests.closed_self)

theorem Source.DocSteady.grow {d : Document} (h : DocSteady s d) : DocSteady s' d where
  decls b hb u hu := (h.decls b hb u hu).grow hsound hwf hwf' hg hlive hstack
  shapes shape hs u hu := (h.shapes shape hs u hu).grow hsound hwf hwf' hg hlive hstack

theorem Session.Steady.grow (h : s.Steady) (hlinked : s'.Linked)
    (hnew : ∀ {p d}, s'.imports.get? p = some d → s.imports.get? p = some d ∨ DocSteady s' d) :
    s'.Steady where
  linked := hlinked
  docs hd := by
    obtain hd | hd := hnew hd
    · exact (h.docs hd).grow hsound hwf hwf' hg hlive hstack
    · exact hd

end

/-- Names are looked up in the table only. -/
theorem Source.DocSteady.of_eq {s s' : Session} {d : Document} (h : DocSteady s d)
    (hsymbols : s'.symbols = s.symbols) (hstack : s'.stack = s.stack) : DocSteady s' d := by
  have huse : ∀ {loose u}, Source.Steady s loose u → Source.Steady s' loose u := fun {loose u} hu => by
    refine ⟨?_, ?_⟩
    · rw [hsymbols, hstack]
      exact hu.rests
    · rw [hsymbols]
      exact hu.again
  exact ⟨fun b hb u hu => huse (h.decls b hb u hu),
    fun shape hs u hu => huse (h.shapes shape hs u hu)⟩

/-- Nothing that is looked at changed. -/
theorem Session.Steady.of_eq {s s' : Session} (h : s.Steady) (hsymbols : s'.symbols = s.symbols)
    (himports : s'.imports = s.imports) (hstack : s'.stack = s.stack) : s'.Steady :=
  ⟨h.linked.step (fun hd => himports ▸ hd) fun hsc => .inl ⟨_, hsymbols ▸ hsc, rfl, rfl, rfl⟩,
    fun hd => (h.docs (himports ▸ hd)).of_eq hsymbols hstack⟩

namespace Source

variable {tree : FileTree} {texts : Path → String → Prop}

/-! ## Parsing a file -/

/-- Loading a file leaves all names steady, and its scopes lie among themselves. -/
def KeepsSteady (tree : FileTree) (texts : Path → String → Prop) (load : Loader) : Prop :=
  ∀ f s d s', load f s = (.ok d, s') → s'.Clean → s.Standing → s.Sound tree texts → s.Steady →
    s'.Steady ∧ s'.symbols.Founded s.symbols.scopes.size

/-- Parsing a file leaves all names steady, and the scopes of the file lie among themselves. -/
theorem Run.steady {env : ParserEnv} {s s' : ParserState} (hload : env.Loads)
    (hsound : env.LoadsSound tree texts) (hsteady : KeepsSteady tree texts env.load)
    (h : Run env s s') (hclean : s'.session.Clean) (hstand : Standing env s)
    (hroot : env.root ∈ s.session.stack) (hdocs : s.session.Sound tree texts)
    (hle : Nat.le env.root (s.scope env)) (hnames : s.session.Steady)
    (hfounded : s.session.symbols.Founded env.root) :
    s'.session.Steady ∧ s'.session.symbols.Founded env.root := by
  induction h with
  | read h =>
    obtain ⟨more, hsession⟩ := h.session
    exact ⟨hnames.of_eq h.symbols (by rw [hsession]) h.stack, h.symbols ▸ hfounded⟩
  | own s node => exact ⟨hnames, hfounded⟩
  | number s => exact ⟨hnames.of_eq rfl rfl rfl, hfounded⟩
  | bind s symbol hseq hfree hkind hpath =>
    have hg := SymbolTable.grows_bind s.session.symbols (s.scope env) symbol
    have hrun : Run env s (s.bind env symbol) := .bind s symbol hseq hfree hkind hpath
    have hsize : (s.session.symbols.bind (s.scope env) symbol).scopes.size
        = s.session.symbols.scopes.size := Array.size_modify
    refine ⟨hnames.grow hdocs hstand.session.table (hrun.standing hload hstand).session.table hg
      (fun i hi => hi ▸ ParserState.scope_mem hroot) (fun c hc => .inl hc) ?_ .inl,
      hfounded.same hg hsize⟩
    exact hnames.linked.grow id hg hsize fun i _ => SymbolTable.imports_bind ..
  | inside hkind h ih =>
    rename_i s s' kind
    have hgrow := SymbolTable.grows_addScope s.session.symbols kind (some (s.scope env)) env.file
      (fun _ => False) 0
    have hstand' := hstand.enter kind
    have hopen : ∀ c ∈ (s.enter env kind).session.stack,
        c ∈ s.session.stack ∨ s.session.symbols.scopes.size ≤ c := by
      intro c hc
      obtain rfl | hc := List.mem_cons.1 hc
      · exact .inr (Nat.le_refl _)
      · exact .inl hc
    have hin : (s.enter env kind).session.Steady := by
      refine hnames.grow hdocs hstand.session.table hstand'.session.table hgrow (fun _ h => h.elim)
        hopen ?_ .inl
      refine hnames.linked.step id fun {i sc'} hsc' => ?_
      rw [show (s.enter env kind).session.symbols.scopes[i]? = _ from
        SymbolTable.scopes_addScope ..] at hsc'
      split at hsc'
      · cases hsc'
        exact .inr ⟨rfl, fun hk => absurd hk hkind⟩
      · exact .inl ⟨sc', hsc', rfl, rfl, rfl⟩
    have hdocs' : (s.enter env kind).session.Sound tree texts :=
      hdocs.grow hgrow id (fun _ => id) hopen .inl
    obtain ⟨hend, hfounded'⟩ := ih hclean hstand' (List.mem_cons_of_mem _ hroot) hdocs'
      (Nat.le_of_lt hstand.root_lt) hin
      (hfounded.addScope kind (fun p hp => (Option.some.inj hp) ▸ hle) env.file)
    have hrun := h.standing hload hstand'
    have hsound' := h.sound hload hsound hclean hstand' (List.mem_cons_of_mem _ hroot) hdocs'
    refine ⟨hend.grow hsound' hrun.session.table hrun.session.table (.same _) (fun _ h => h.elim)
      (fun c hc => .inl (List.mem_of_mem_tail hc)) ?_ .inl, hfounded'⟩
    exact hend.linked.step id fun hsc => .inl ⟨_, hsc, rfl, rfl, rfl⟩
  | load h hscope =>
    rename_i s f d session
    obtain ⟨hsession, hnew⟩ := hsteady _ _ _ _ h hclean hstand.session hdocs hnames
    obtain ⟨hbefore, hheld⟩ := hload _ _ _ _ h
    have hdocs' := hsound _ _ _ _ h hclean hstand.session hdocs
    have hstand' := hbefore.standing hstand.session
    have hg := SymbolTable.grows_addImport session.symbols env.root d.scope s.seq
    have hsize : (session.symbols.addImport env.root d.scope s.seq).scopes.size
        = session.symbols.scopes.size := Array.size_modify
    have hfounded' := hfounded.later hbefore.symbols hnew (Nat.le_of_lt hstand.root_lt)
    refine ⟨hsession.grow hdocs' hstand'.table (hstand'.table.addImport ..) hg
      (fun i hi => hi ▸ hbefore.stack ▸ hroot) (fun c hc => .inl hc) ?_ .inl, hfounded'.same hg hsize⟩
    refine ⟨fun {i sc'} hsc' j hj => ?_, fun {i sc'} hsc' hk => ?_⟩
    · rw [show (s.addImport env d session).session.symbols.scopes[i]? = _ from
        SymbolTable.scopes_addImport ..] at hsc'
      split at hsc'
      · obtain ⟨sc, hsc, rfl⟩ := Option.map_eq_some_iff.1 hsc'
        obtain hj | hj := List.mem_append.1 hj
        · exact hsession.linked.visible hsc j hj
        · rw [List.mem_singleton.1 hj]
          exact ⟨d.path, d, hheld hstand.session, rfl⟩
      · exact hsession.linked.visible hsc' j hj
    · have hlt : i < session.symbols.scopes.size := hsize ▸ (Array.getElem?_eq_some_iff.1 hsc').1
      obtain ⟨sc, hsc, hlater⟩ := hg.back hlt hsc'
      exact hlater.parent.trans (hsession.linked.outermost hsc (hlater.kind.symm.trans hk))
  | trans h h' ih ih' =>
    have ha := h.advances hload
    have ha' := h'.advances hload
    have hclean' := ha'.clean hclean
    obtain ⟨hmid, hfounded'⟩ := ih hclean' hstand hroot hdocs hle hnames hfounded
    exact ih' hclean (h.standing hload hstand) (ha.stack ▸ hroot)
      (h.sound hload hsound hclean' hstand hroot hdocs) (ha.scope.symm ▸ hle) hmid hfounded'

namespace FileParsed

variable {depth : Nat} {text : String} {f : SourceFile} {s s' : Session} {items : List Item}
  {final : ParserState} {t : SymbolTable} {d : Document}
  (hsound : KeepsSound tree texts (loadFile tree depth))
  (hsteady : KeepsSteady tree texts (loadFile tree depth))
  (h : FileParsed tree (loadFile tree depth) text f s items final t d s') (hclean : s'.Clean)
  (hs : s.Standing) (hdocs : s.Sound tree texts) (hnames : s.Steady)
include hsound hsteady h hclean hs hdocs hnames

/-- All names are steady when the last declaration has been read. -/
theorem read_steady :
    final.session.Steady ∧ final.session.symbols.Founded s.symbols.scopes.size := by
  obtain ⟨⟨tokens, -, -, hparsed⟩, hcompletes⟩ := h
  have hload : (fileEnv tree (loadFile tree depth) f s).Loads := loadFile_keeps depth
  have hstand : Standing (fileEnv tree (loadFile tree depth) f s) (fileStart tokens f s) :=
    fileStart_standing hs
  have hclean' : final.session.Clean :=
    Session.Clean.of_append (s := fileEnd final) hclean hcompletes.diagnostics
  have hg := grows_fileTable f s.symbols (fun _ => False) 0
  have hopen : ∀ c ∈ (fileStart tokens f s).session.stack,
      c ∈ s.stack ∨ s.symbols.scopes.size ≤ c := by
    intro c hc
    obtain rfl | hc := List.mem_cons.1 hc
    · exact .inr (Nat.le_refl _)
    · exact .inl hc
  have hscopes : ∀ i, (fileTable f s.symbols).scopes[i]? = if i = s.symbols.scopes.size then
      some { kind := .file, parent := none, file := s.symbols.files.size }
      else s.symbols.scopes[i]? := SymbolTable.scopes_addScope (s.symbols.addFile f.path).2 _ _ _
  have hstart : (fileStart tokens f s).session.Steady := by
    refine hnames.grow hdocs hs.table hstand.session.table hg (fun _ h => h.elim) hopen ?_ .inl
    refine hnames.linked.step id fun {i sc'} hsc' => ?_
    rw [show (fileStart tokens f s).session.symbols.scopes[i]? = _ from hscopes i] at hsc'
    split at hsc'
    · cases hsc'
      exact .inr ⟨rfl, fun _ => rfl⟩
    · exact .inl ⟨sc', hsc', rfl, rfl, rfl⟩
  have hfounded : (fileTable f s.symbols).Founded s.symbols.scopes.size := by
    intro i sc hsc hi p hp
    rw [hscopes] at hsc
    split at hsc
    · cases hsc
      cases hp
    · exact absurd (Array.getElem?_eq_some_iff.1 hsc).1 (Nat.not_lt.2 hi)
  exact hparsed.run.steady hload hsound hsteady hclean' hstand List.mem_cons_self
    (hdocs.grow hg id (fun _ => id) hopen .inl) (Nat.le_refl _) hstart hfounded

/-- What was finished before stays steady while the file is completed. -/
theorem docs_steady : s'.Steady ∧ s'.symbols.Founded s.symbols.scopes.size := by
  obtain ⟨hfinal, hfounded⟩ := h.read_steady hsound hsteady hclean hs hdocs hnames
  obtain ⟨hread, hstand, -⟩ := h.read_sound hsound hclean hs hdocs
  have hbefore := h.before (loadFile_keeps depth)
  obtain ⟨⟨tokens, -, -, hparsed⟩, hcompletes⟩ := h
  have hload : (fileEnv tree (loadFile tree depth) f s).Loads := loadFile_keeps depth
  have hstack : final.session.stack = s.symbols.scopes.size :: s.stack :=
    (hparsed.run.advances hload).stack
  have himports : s'.imports = final.session.imports := congrArg (·.imports) hcompletes.session
  have hsymbols : s'.symbols = t.closeChildren s.symbols.files.size :=
    congrArg (·.symbols) hcompletes.session
  have hgrows : ∀ q, final.session.symbols.Grows (· = s.symbols.scopes.size) q s'.symbols := by
    intro q
    rw [hsymbols]
    exact (hcompletes.symbols q).trans (Nat.le_refl q) (SymbolTable.grows_closeChildren ..)
  have hsize : s'.symbols.scopes.size = final.session.symbols.scopes.size := by
    rw [hsymbols]
    exact (Array.size_map ..).trans hcompletes.size
  have hwf' : s'.symbols.WellFormed := by
    rw [hsymbols]
    exact (hcompletes.table hstand.session.table).closeChildren _
  refine ⟨hfinal.grow hread hstand.session.table hwf' (hgrows 0) (fun i hi => ?_) (fun c hc => ?_)
    ?_ fun hd => .inl (himports ▸ hd), hfounded.same (hgrows 0) hsize⟩
  · rw [hi, hstack]
    exact List.mem_cons_self
  · rw [hbefore.stack] at hc
    rw [hstack]
    exact .inl (List.mem_cons_of_mem _ hc)
  · exact hfinal.linked.grow (fun hd => himports ▸ hd) (hgrows 0) hsize
      fun i hi => SymbolTable.imports_eq_of_grows hgrows hi

omit hsound hsteady hclean hs hdocs hnames in
/-- What is left when the file is: neither its own scope nor one that was open before. -/
theorem left {i : ScopeId} (hi : i ∉ final.session.stack) :
    i ∉ s.stack ∧ i ≠ s.symbols.scopes.size := by
  obtain ⟨⟨tokens, -, -, hparsed⟩, -⟩ := h
  have hload : (fileEnv tree (loadFile tree depth) f s).Loads := loadFile_keeps depth
  rw [(hparsed.run.advances hload).stack,
    show (fileStart tokens f s).session.stack = s.symbols.scopes.size :: s.stack from rfl,
    List.mem_cons, not_or] at hi
  exact ⟨hi.2, hi.1⟩

/-- The scopes of the file are at rest when it is completed. -/
theorem scopes_rest (i : ScopeId) (hle : Nat.le s.symbols.scopes.size i)
    (hlt : Nat.lt i final.session.symbols.scopes.size) : t.Rests (· ∉ s.stack) i := by
  obtain ⟨hfinal, hfounded⟩ := h.read_steady hsound hsteady hclean hs hdocs hnames
  obtain ⟨hread, hstand, -⟩ := h.read_sound hsound hclean hs hdocs
  have hrest : final.session.symbols.Rests (· ∉ s.stack) i := by
    refine hfounded.rests hstand.session.table (fun i hi hc => ?_) (fun hsc j hj => ?_) i hle hlt
    · exact absurd (hs.stack i hc) (Nat.not_lt.2 hi)
    · obtain ⟨hj, hapart⟩ := hread.visible_apart hfinal.linked hsc hj
      exact ⟨hj, (h.left hapart).1⟩
  exact hrest.grows (h.completes.symbols 0)
    (fun i hi _ => SymbolTable.imports_eq_of_grows h.completes.symbols hi) fun _ _ => id

/-- The names of the new document resolve to what they are bound to when its shapes have been
declared: those of domains and columns unless a shape captures them, all others because they were
bound after that. -/
theorem decl_again {a b : Decl} {u : Use} (ha : a ∈ items.filterMap (·.decl)) (hu : u ∈ b.uses)
    (hab : DeclBound (if a.isData then final.session.symbols else t) a b) :
    t.Rests (· ∉ s.stack) u.ref.scope ∧ ∃ id, u.ref.target = some id ∧
      (t.resolve u.ref.scope u.ref.name u.ref.seq = some id ∨
        b.isData = true ∧ t.Captures u.ref) := by
  obtain ⟨hfinal, -⟩ := h.read_steady hsound hsteady hclean hs hdocs hnames
  obtain ⟨hsessions, hstand, hread⟩ := h.read_sound hsound hclean hs hdocs
  have hwf := hstand.session.table
  have hwf' : t.WellFormed := h.completes.table hwf
  have hwf₁ : (if a.isData = true then final.session.symbols else t).WellFormed := by
    split
    · exact hwf
    · exact hwf'
  obtain ⟨u₀, hu₀, -, id, symbol, hresolve, -, -, -, href⟩ :=
    forall₂_mem_right (hab.uses hwf₁ (hread.fresh a ha)) hu
  obtain ⟨hle, hlt, hdata⟩ := hread.inside a ha u₀ hu₀
  rw [hab.isData, href]
  refine ⟨h.scopes_rest hsound hsteady hclean hs hdocs hnames _ hle hlt, id, rfl, ?_⟩
  cases hcase : a.isData with
  | false =>
    rw [hcase, if_neg Bool.false_ne_true] at hresolve
    exact .inl hresolve
  | true =>
    rw [hcase, if_pos rfl] at hresolve
    obtain ⟨sc, hsc, hk, hp⟩ := hstand.root
    obtain ⟨shapes, bs, -, hbs, hdeclares, -⟩ := h.completes.shapes
    refine (SymbolTable.resolve_or_captures (r := { u₀.ref with target := some id })
      h.completes.symbols hwf hwf' hsc hk hp (fun j hj => ?_) (fun p hp => ?_) hbs hdeclares
      (fun d hd => ?_) (hdata hcase) rfl hresolve).imp_right fun h => ⟨rfl, h⟩
    · have hj : j ∈ sc.imports := SymbolTable.imports_of_scope hsc ▸ hj
      obtain ⟨hj, hapart⟩ := hsessions.visible_apart hfinal.linked hsc hj
      exact ⟨hj, (h.left hapart).2⟩
    · obtain ⟨hlt, hapart⟩ := hsessions.prelude_apart hp
      exact ⟨hlt, (h.left hapart).2⟩
    · obtain ⟨shape, -, rfl⟩ := List.mem_map.1 hd
      rfl

/-- The declarations of the new document are steady. -/
theorem decls_steady : ∀ b ∈ d.decls, ∀ u ∈ b.uses, Steady s' b.isData u := by
  intro b hb u hu
  obtain ⟨a, ha, hab⟩ := forall₂_mem_right (h.completes.decls hclean) hb
  obtain ⟨hrest, id, htarget, hagain⟩ :=
    h.decl_again hsound hsteady hclean hs hdocs hnames ha hu hab
  obtain ⟨hsessions, hstand, -⟩ := h.read_sound hsound hclean hs hdocs
  have hbefore := h.before (loadFile_keeps depth)
  have hsymbols : s'.symbols = t.closeChildren s.symbols.files.size :=
    congrArg (·.symbols) h.completes.session
  have hwf : t.WellFormed := h.completes.table hstand.session.table
  have hclose : t.Grows (fun _ => False) 0 s'.symbols := by
    rw [hsymbols]
    exact SymbolTable.grows_closeChildren ..
  refine ⟨hrest.grows hclose (fun i hi _ => hclose.imports_eq hi (fun h => h)) fun i _ hi => ?_, id,
    htarget, hagain.imp (fun hagain => ?_) fun h => ⟨h.1, h.2.grows hclose fun h => h⟩⟩
  · rw [hbefore.stack]
    exact hi
  · rw [hrest.resolve_eq hclose hwf (hsymbols ▸ hwf.closeChildren _) (fun _ _ _ h => h) fun p hp => ?_]
    · exact hagain
    · rw [(h.completes.symbols 0).prelude] at hp
      obtain ⟨hlt, hapart⟩ := hsessions.prelude_apart hp
      exact ⟨Nat.lt_of_lt_of_le hlt (h.completes.symbols 0).scopes_size,
        (h.left hapart).1⟩

theorem doc_steady : DocSteady s' d := by
  have hdecls := h.decls_steady hsound hsteady hclean hs hdocs hnames
  obtain ⟨hsteady', -⟩ := h.docs_steady hsound hsteady hclean hs hdocs hnames
  obtain ⟨-, hcompletes⟩ := h
  refine ⟨hdecls, fun shape hshape u hu => ?_⟩
  obtain ⟨shapes, -, hnew, -, -, hcopied⟩ := hcompletes.shapes
  rw [hnew, show (parsedDocument f s final (items.filterMap (·.decl))).shapes = [] from rfl,
    List.nil_append] at hshape
  obtain ⟨table, htable, hu⟩ | ⟨p, d₀, hd₀, hu⟩ := hcopied hclean shape hshape u hu
  · exact (hdecls _ htable u hu).loosen
  · have himports : s'.imports = final.session.imports := congrArg (·.imports) hcompletes.session
    exact (hsteady'.docs (himports ▸ hd₀)).uses u hu

end FileParsed

/-! ## Compiling -/

/-- Parsing a text as a file leaves all names steady, and those of the new document are. -/
theorem parseText_steady {depth : Nat} {text : String} {f : SourceFile} {s s' : Session}
    {d : Document} (hsound : KeepsSound tree texts (loadFile tree depth))
    (hsteady : KeepsSteady tree texts (loadFile tree depth))
    (h : parseText tree (loadFile tree depth) text f s = (.ok d, s')) (hclean : s'.Clean)
    (hs : s.Standing) (hdocs : s.Sound tree texts) (hnames : s.Steady) :
    s'.Steady ∧ s'.symbols.Founded s.symbols.scopes.size := by
  obtain ⟨-, rfl⟩ | ⟨imports, s₁, hbegin, hparse, rfl⟩ := parseText_ok h
  · refine ⟨hnames, fun i sc hsc hi => ?_⟩
    exact absurd (Array.getElem?_eq_some_iff.1 hsc).1 (Nat.not_lt.2 hi)
  · obtain ⟨items, final, t, hparsed⟩ := parseDocument_parsed (loadFile_keeps depth) hparse
    have hget := ImportTable.get?_begin hbegin
    have hbegun : Session.Sound tree texts { s with imports } :=
      hdocs.grow (.same _) (fun {p d} hd => (hget p).trans hd) (fun _ => id) (fun c hc => .inl hc)
        fun {p d} hd => .inl ((hget p).symm.trans hd)
    have hstand := begun_standing hs hbegin
    have hsteady₀ : Session.Steady { s with imports } := by
      refine hnames.grow hdocs hs.table hs.table (.same _) (fun _ h => h.elim) (fun c hc => .inl hc)
        ?_ fun {p d} hd => .inl ((hget p).symm.trans hd)
      exact hnames.linked.step (fun {p d} hd => (hget p).trans hd)
        fun hsc => .inl ⟨_, hsc, rfl, rfl, rfl⟩
    obtain ⟨hold, hfounded⟩ := hparsed.docs_steady hsound hsteady hclean hstand hbegun hsteady₀
    have hnew := hparsed.doc_steady hsound hsteady hclean hstand hbegun hsteady₀
    have hsound₁ := hparsed.docs_sound hsound hclean hstand hbegun
    have hwf := ((hparsed.before (loadFile_keeps depth)).standing hstand).table
    have hfinish : ∀ {q d'}, (s₁.imports.finish (tree.canonical f.path) d).get? q = some d' ↔
        s₁.imports.get? q = some d' ∨ (tree.canonical f.path).same q = true ∧ d' = d :=
      ImportTable.get?_finish_of_isInProgress
        (begun_isInProgress hbegin (hparsed.before (loadFile_keeps depth)).kept)
    refine ⟨hold.grow hsound₁ hwf hwf (.same _) (fun _ h => h.elim) (fun c hc => .inl hc) ?_
      fun hd => ?_, hfounded⟩
    · exact hold.linked.step (fun hd => hfinish.2 (.inl hd)) fun hsc => .inl ⟨_, hsc, rfl, rfl, rfl⟩
    · obtain hd | ⟨-, rfl⟩ := hfinish.1 hd
      · exact .inl hd
      · exact .inr (hnew.of_eq rfl rfl)

/-- Loading a file, with all that it imports, leaves all names steady. -/
theorem loadFile_steady (htexts : ∀ p text, tree.read p = .ok text → texts (tree.canonical p) text) :
    ∀ depth : Nat, KeepsSteady tree texts (loadFile tree depth)
  | depth, f, s, d, s', h, hclean, hs, hdocs, hnames => by
    obtain ⟨-, rfl⟩ | ⟨depth', text, -, hparse, rfl⟩ := loadFile_ok h
    · refine ⟨hnames, fun i sc hsc hi => ?_⟩
      exact absurd (Array.getElem?_eq_some_iff.1 hsc).1 (Nat.not_lt.2 hi)
    · exact parseText_steady (loadFile_sound htexts depth') (loadFile_steady htexts depth') hparse
        hclean hs hdocs hnames

end Source

namespace Session

variable {tree : FileTree} {texts : Path → String → Prop} {s s' : Session}

/-- What is found without a prelude is found with one. -/
theorem Steady.withPrelude (h : s.Steady) (hnone : s.symbols.prelude = none) (scope : ScopeId) :
    (s.withPrelude scope).Steady := by
  have huse : ∀ {loose u}, Source.Steady s loose u → Source.Steady (s.withPrelude scope) loose u := by
    rintro loose u ⟨hrests, id, htarget, hagain⟩
    refine ⟨hrests.of_scopes rfl, id, htarget, hagain.imp_left fun h => ?_⟩
    rw [SymbolTable.resolve_eq, hnone, Option.bind_none, Option.or_none] at h
    rw [SymbolTable.resolve_eq, Session.withPrelude, SymbolTable.find_setPrelude, h]
    rfl
  refine ⟨h.linked.step id fun hsc => .inl ⟨_, hsc, rfl, rfl, rfl⟩, fun hd => ?_⟩
  exact ⟨fun b hb u hu => huse ((h.docs hd).decls b hb u hu),
    fun shape hs u hu => huse ((h.docs hd).shapes shape hs u hu)⟩

/-- Loading the prelude leaves all names steady. -/
theorem loadPrelude_steady {roots : List Path}
    (htexts : ∀ p text, tree.read p = .ok text → texts (tree.canonical p) text)
    (h : s.loadPrelude tree roots = (.ok (), s')) (hnone : s.symbols.prelude = none)
    (hclean : s'.Clean) (hs : s.Standing) (hdocs : s.Sound tree texts) (hnames : s.Steady) :
    s'.Steady := by
  obtain rfl | ⟨f, d, s₁, hload, rfl⟩ := loadPrelude_ok h
  · exact hnames
  · obtain ⟨hbefore, -⟩ := Source.loadFile_keeps _ f s d s₁ hload
    obtain ⟨hsteady, -⟩ := Source.loadFile_steady htexts _ f s d s₁ hload hclean hs hdocs hnames
    exact hsteady.withPrelude (hbefore.symbols.prelude.trans hnone) d.scope

end Session

namespace Entry

variable {tree : FileTree} {platform : Option Platform} {e : Entry} {d : Source.Document}
  {s : Session}

theorem fresh_steady : Session.Steady { platform } where
  linked := ⟨fun h => by simp at h, fun h => by simp at h⟩
  docs h := nomatch h

/-- Without errors all names are steady at the end of a compilation. -/
theorem compile_steady (h : e.compile tree platform = (.ok d, s)) (hclean : s.Clean) : s.Steady := by
  have htexts : ∀ p text, tree.read p = .ok text → e.Texts tree (tree.canonical p) text :=
    fun p _ hread => .inl ⟨p, hread, rfl⟩
  cases e with
  | file path roots =>
    simp only [compile, Session.compileFile] at h
    split at h
    · cases h
    · rename_i s₁ hprelude
      obtain ⟨hbefore, -⟩ := Source.loadFile_keeps _ _ _ _ _ h
      have hclean₁ := hclean.of_append hbefore.diagnostics
      obtain ⟨hstand, hsound⟩ := Session.loadPrelude_sound htexts hprelude rfl hclean₁ fresh_standing
        fresh_sound
      have hsteady := Session.loadPrelude_steady htexts hprelude rfl hclean₁ fresh_standing
        fresh_sound fresh_steady
      exact (Source.loadFile_steady htexts _ _ _ _ _ h hclean hstand hsound hsteady).1
  | text contents name =>
    have h : Source.parseText tree (Source.loadFile tree (Session.importDepth tree)) contents
        { path := name } { platform } = (.ok d, s) := h
    exact (Source.parseText_steady (Source.loadFile_sound htexts _) (Source.loadFile_steady htexts _)
      h hclean fresh_standing fresh_sound fresh_steady).1

/-- In a compilation without errors a name resolves again to the symbol it is bound to, exactly
unless a result shape captures it, and none is captured but in the types of domains and columns. So
names that are not captured mean the same wherever they stand at file level after the last import. -/
theorem resolve_again (h : e.compile tree platform = (.ok d, s))
    (hclean : s.diagnostics.hasErrors = false) :
    (∀ d' ∈ s.imports.documents, ∀ u ∈ d'.uses, ∀ id, u.ref.target = some id →
      (s.symbols.resolve u.ref.scope u.ref.name u.ref.seq = some id ↔ ¬ s.symbols.Captures u.ref)) ∧
    (∀ d' ∈ s.imports.documents, ∀ b ∈ d'.decls, b.isData = false → ∀ u ∈ b.uses,
      s.symbols.resolve u.ref.scope u.ref.name u.ref.seq = u.ref.target) ∧
    (∀ d₁ ∈ s.imports.documents, ∀ d₂ ∈ s.imports.documents, ∀ d' ∈ s.imports.documents,
      ∀ u₁ ∈ d₁.uses, ∀ u₂ ∈ d₂.uses, u₁.ref.scope = d'.scope → u₂.ref.scope = d'.scope →
      u₁.ref.name = u₂.ref.name →
      (∀ i ∈ s.symbols.imports d'.scope, i.seq < u₁.ref.seq ∧ i.seq < u₂.ref.seq) →
      ¬ s.symbols.Captures u₁.ref → ¬ s.symbols.Captures u₂.ref →
      u₁.ref.target = u₂.ref.target) := by
  obtain ⟨hstand, -, hsound⟩ := compile_sound h hclean
  have hsteady := compile_steady h hclean
  have hagain : ∀ d' ∈ s.imports.documents, ∀ u ∈ d'.uses, ¬ s.symbols.Captures u.ref →
      s.symbols.resolve u.ref.scope u.ref.name u.ref.seq = u.ref.target := by
    intro d' hd' u hu hfree
    obtain ⟨p, -, hp⟩ := List.mem_filterMap.1 hd'
    obtain ⟨id, htarget, hagain | ⟨-, hcaught⟩⟩ := ((hsteady.docs hp).uses u hu).again
    · exact hagain.trans htarget.symm
    · exact absurd hcaught hfree
  refine ⟨fun d' hd' u hu id htarget => ⟨fun heq hcaught => ?_, fun hfree => ?_⟩,
    fun d' hd' b hb hother u hu => ?_, fun d₁ hd₁ d₂ hd₂ d' hd' u₁ hu₁ u₂ hu₂ h₁ h₂ hname hafter
      hfree₁ hfree₂ => ?_⟩
  · exact hcaught.resolve_ne hstand.table (heq.trans htarget.symm)
  · exact (hagain d' hd' u hu hfree).trans htarget
  · obtain ⟨p, -, hp⟩ := List.mem_filterMap.1 hd'
    obtain ⟨id, htarget, hagain | ⟨hdata, -⟩⟩ := ((hsteady.docs hp).decls b hb u hu).again
    · exact hagain.trans htarget.symm
    · rw [hother] at hdata
      cases hdata
  · obtain ⟨p, -, hp⟩ := List.mem_filterMap.1 hd'
    obtain ⟨sc, hsc, hk⟩ := (hsound.docs hp).file
    have hall : ∀ seq, (∀ i ∈ s.symbols.imports d'.scope, i.seq < seq) →
        (s.symbols.imports d'.scope).filter (·.seq < seq) = s.symbols.imports d'.scope :=
      fun seq hseq => List.filter_eq_self.2 fun i hi => by simpa using hseq i hi
    rw [← hagain d₁ hd₁ u₁ hu₁ hfree₁, ← hagain d₂ hd₂ u₂ hu₂ hfree₂, h₁, h₂, hname,
      SymbolTable.resolve_file hstand.table hsc hk (hsteady.linked.outermost hsc hk),
      SymbolTable.resolve_file hstand.table hsc hk (hsteady.linked.outermost hsc hk),
      hall _ fun i hi => (hafter i hi).1, hall _ fun i hi => (hafter i hi).2]

/-- A domain whose type is found in an imported file until a query of the same file brings a result
shape of that name. -/
def capturedTree : FileTree :=
  { entries := [(["b.jssp"], .file "struct N \x7b y int; \x7d"),
      (["main.jssp"], .file ("table t \x7b id int; key(id); \x7d mapper M \x7b query q() N \x7b " ++
        "select id from t; \x7d \x7d import 'b.jssp'; domain D N; struct S \x7b x N; \x7d"))] }

def capturedRun : Except CompileError Source.Document × Session :=
  Entry.compile capturedTree none (.file ⟨"main.jssp"⟩ [])

theorem resolve_again_captured :
    (∃ d, capturedRun.1 = .ok d) ∧ capturedRun.2.diagnostics.hasErrors = false ∧
      (capturedRun.2.imports.documents.map fun d' => d'.uses.map fun u =>
        (u.ref.name, u.ref.target)) = [[], [("N", some 6), ("N", some 3), ("N", some 6)]] ∧
      (∀ d' ∈ capturedRun.2.imports.documents, ∀ u ∈ d'.uses, ∀ id, u.ref.target = some id →
        (capturedRun.2.symbols.resolve u.ref.scope u.ref.name u.ref.seq = some id ↔
          ¬ capturedRun.2.symbols.Captures u.ref)) := by
  have hrun : capturedRun.1.isOk = true ∧ capturedRun.2.diagnostics.hasErrors = false ∧
      (capturedRun.2.imports.documents.map fun d' => d'.uses.map fun u =>
        (u.ref.name, u.ref.target)) = [[], [("N", some 6), ("N", some 3), ("N", some 6)]] := by
    rw [capturedRun, compile_file capturedTree (.cons rfl (.cons (.append rfl rfl) .nil))]
    decide +kernel
  obtain ⟨hok, hclean, huses⟩ := hrun
  obtain ⟨d, hd⟩ : ∃ d, capturedRun = (.ok d, capturedRun.2) := exists_of_isOk hok
  exact ⟨⟨d, congrArg (·.1) hd⟩, hclean, huses, (resolve_again hd hclean).1⟩

/-- The type of the domain resolves again to another symbol, and the field after it, whose type has
the same name, is bound to that one. -/
theorem resolve_again_domain :
    capturedRun.1.isOk = true ∧ capturedRun.2.diagnostics = [] ∧
    ∃ d' ∈ capturedRun.2.imports.documents, ∃ u₁ ∈ d'.uses, ∃ u₂ ∈ d'.uses,
      (u₁.ref.target.isSome = true ∧
        capturedRun.2.symbols.resolve u₁.ref.scope u₁.ref.name u₁.ref.seq ≠ u₁.ref.target) ∧
      (u₁.ref.name = u₂.ref.name ∧ u₁.ref.scope = d'.scope ∧ u₂.ref.scope = d'.scope ∧
        (∀ i ∈ capturedRun.2.symbols.imports d'.scope, i.seq < u₁.ref.seq ∧ i.seq < u₂.ref.seq) ∧
        u₁.ref.target ≠ u₂.ref.target) := by
  rw [capturedRun, compile_file capturedTree (.cons rfl (.cons (.append rfl rfl) .nil))]
  decide +kernel

end Entry

end Scaffold
