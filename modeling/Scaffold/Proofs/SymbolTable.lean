import Mathlib.Data.List.Forall2
import Scaffold.Symbol

/-!
# Symbol tables that only grow

The table of a session is never rolled back: scopes keep their kind and their parent, names stay
bound, and symbols keep their numbers. `SymbolTable.Grows live q t t'` says so, and says where and
when names may have come in between: only into the `live` scopes, and into blocks only with a place
in the file from `q` on. What was looked up before can so be compared with what is looked up later.

* `find_eq`: looking up a name goes from a scope to its parent; the fuel of `resolveFrom` does not
  matter, because parents have smaller numbers.
* `Blocks.find`: inside a body the places in the file give back the list of variables in sight.
-/

namespace Scaffold

/-- In lists related member by member, every member on the right has one on the left. -/
theorem forall₂_mem_right {α β : Type} {R : α → β → Prop} {xs : List α} {ys : List β}
    (h : List.Forall₂ R xs ys) {y : β} (hy : y ∈ ys) : ∃ x ∈ xs, R x y := by
  induction h with
  | nil => cases hy
  | cons hxy _ ih =>
    obtain rfl | hy := List.mem_cons.1 hy
    · exact ⟨_, List.mem_cons_self, hxy⟩
    · obtain ⟨x, hx, hr⟩ := ih hy
      exact ⟨x, List.mem_cons_of_mem _ hx, hr⟩

/-- What a symbol says about its declaration. -/
structure Declared where
  name : String
  kind : SymbolKind
  node : NodeId
  deriving DecidableEq

def Symbol.declared (s : Symbol) : Declared :=
  ⟨s.name, s.kind, s.node⟩

namespace SymbolTable

variable {t t' t'' : SymbolTable}

def names (t : SymbolTable) (scope : ScopeId) : List (String × SymbolId) :=
  (t.scopes[scope]?.map (·.bindings)).getD []

theorem names_of_scope {i : ScopeId} {s : Scope} (h : t.scopes[i]? = some s) :
    t.names i = s.bindings := by
  simp [names, h]

def imports (t : SymbolTable) (scope : ScopeId) : List ScopeImport :=
  (t.scopes[scope]?.map (·.imports)).getD []

theorem imports_of_scope {i : ScopeId} {s : Scope} (h : t.scopes[i]? = some s) :
    t.imports i = s.imports := by
  simp [imports, h]

theorem lookup_eq_names (t : SymbolTable) (scope : ScopeId) (name : String) :
    t.lookup scope name = (t.names scope).lookup name := by
  unfold SymbolTable.lookup names
  cases t.scopes[scope]? <;> rfl

/-- The binding stands for the declaration. -/
def Stands (t : SymbolTable) (b : String × SymbolId) (d : Declared) : Prop :=
  b.1 = d.name ∧ ∃ symbol, t.symbols[b.2]? = some symbol ∧ symbol.declared = d

/-- The bindings are those of the declarations, one by one. -/
def Declares (t : SymbolTable) (bs : List (String × SymbolId)) (ds : List Declared) : Prop :=
  List.Forall₂ t.Stands bs ds

/-- Scopes lie inside earlier ones, bound names are those of their symbols and bound once, and types
are declared in files only. -/
structure WellFormed (t : SymbolTable) : Prop where
  parent_lt : ∀ {i : Nat} {s : Scope}, t.scopes[i]? = some s → ∀ p : Nat, s.parent = some p → p < i
  bound : ∀ {i : ScopeId} {s : Scope}, t.scopes[i]? = some s → ∀ b ∈ s.bindings,
    ∃ symbol, t.symbols[b.2]? = some symbol ∧ symbol.name = b.1
  nodup : ∀ {i : ScopeId} {s : Scope}, t.scopes[i]? = some s → (s.bindings.map (·.1)).Nodup
  inner : ∀ {i : ScopeId} {s : Scope}, t.scopes[i]? = some s → s.kind ≠ .file → ∀ b ∈ s.bindings,
    ∀ symbol, t.symbols[b.2]? = some symbol → symbol.kind.isType = false

/-! ## Growth -/

/-- The second scope is the first at a later time. -/
structure Later (live : Prop) (q : Nat) (t : SymbolTable) (s s' : Scope) : Prop where
  kind : s'.kind = s.kind
  parent : s'.parent = s.parent
  bindings : ∃ bs, s'.bindings = s.bindings ++ bs ∧ (¬ live → bs = []) ∧
    (s.kind = .block → ∀ b ∈ bs, ∃ symbol, t.symbols[b.2]? = some symbol ∧ q ≤ symbol.seq)
  imports : ∃ is, s'.imports = s.imports ++ is ∧ (¬ live → is = []) ∧ ∀ i ∈ is, q ≤ i.seq

/-- The second table is the first at a later time: names came into `live` scopes only, and into
blocks with a place from `q` on. -/
structure Grows (live : ScopeId → Prop) (q : Nat) (t t' : SymbolTable) : Prop where
  symbols : ∀ {id : SymbolId} {symbol : Symbol}, t.symbols[id]? = some symbol → t'.symbols[id]? = some symbol
  scopes : ∀ {i : ScopeId} {s : Scope}, t.scopes[i]? = some s → ∃ s', t'.scopes[i]? = some s' ∧ Later (live i) q t' s s'
  prelude : t'.prelude = t.prelude

/-- A scope that changed in nothing that is looked at. -/
theorem Later.of_eq {live : Prop} {q : Nat} {s s' : Scope} (hk : s'.kind = s.kind)
    (hp : s'.parent = s.parent) (hb : s'.bindings = s.bindings) (hi : s'.imports = s.imports) :
    Later live q t s s' :=
  ⟨hk, hp, ⟨[], by simp [hb], fun _ => rfl, by simp⟩, ⟨[], by simp [hi], fun _ => rfl, by simp⟩⟩

namespace Grows

variable {live live' : ScopeId → Prop} {q q' : Nat}

theorem refl (t : SymbolTable) : Grows live q t t :=
  ⟨id, fun h => ⟨_, h, .of_eq rfl rfl rfl rfl⟩, rfl⟩

/-- Nothing happened. -/
theorem same (t : SymbolTable) : Grows (fun _ => False) 0 t t :=
  refl t

theorem trans (h₁ : Grows live q t t') (hq : q ≤ q') (h₂ : Grows live q' t' t'') :
    Grows live q t t'' where
  symbols h := h₂.symbols (h₁.symbols h)
  prelude := h₂.prelude.trans h₁.prelude
  scopes h := by
    obtain ⟨s₁, hs₁, hk₁, hp₁, ⟨bs₁, hb₁, hn₁, hl₁⟩, is₁, hi₁, hm₁, hj₁⟩ := h₁.scopes h
    obtain ⟨s₂, hs₂, hk₂, hp₂, ⟨bs₂, hb₂, hn₂, hl₂⟩, is₂, hi₂, hm₂, hj₂⟩ := h₂.scopes hs₁
    refine ⟨s₂, hs₂, hk₂.trans hk₁, hp₂.trans hp₁, ⟨bs₁ ++ bs₂, by simp [hb₂, hb₁], ?_, ?_⟩,
      is₁ ++ is₂, by simp [hi₂, hi₁], ?_, ?_⟩
    · intro hl
      rw [hn₁ hl, hn₂ hl, List.append_nil]
    · intro hblock b hb
      obtain hb | hb := List.mem_append.1 hb
      · obtain ⟨symbol, hsym, hseq⟩ := hl₁ hblock b hb
        exact ⟨symbol, h₂.symbols hsym, hseq⟩
      · obtain ⟨symbol, hsym, hseq⟩ := hl₂ (hk₁.trans hblock) b hb
        exact ⟨symbol, hsym, Nat.le_trans hq hseq⟩
    · intro hl
      rw [hm₁ hl, hm₂ hl, List.append_nil]
    · intro i hi
      obtain hi | hi := List.mem_append.1 hi
      · exact hj₁ i hi
      · exact Nat.le_trans hq (hj₂ i hi)

/-- Growth without live scopes needs no bound on places. -/
theorem still (h : Grows (fun _ => False) q t t') : Grows live q' t t' where
  symbols := h.symbols
  prelude := h.prelude
  scopes hs := by
    obtain ⟨s', hs', hk, hp, ⟨bs, hb, hn, -⟩, is, hi, hm, -⟩ := h.scopes hs
    rw [hn id, List.append_nil] at hb
    rw [hm id, List.append_nil] at hi
    exact ⟨s', hs', .of_eq hk hp hb hi⟩

/-- Only scopes that are there can be live, and an earlier bound on places holds too. -/
theorem mono (h : Grows live q t t') (hl : ∀ i < t.scopes.size, live i → live' i) (hq : q' ≤ q) :
    Grows live' q' t t' where
  symbols := h.symbols
  prelude := h.prelude
  scopes {i s} hs := by
    obtain ⟨s', hs', hk, hp, ⟨bs, hb, hn, hj⟩, is, hi, hm, hj'⟩ := h.scopes hs
    have hlt : i < t.scopes.size := (Array.getElem?_eq_some_iff.1 hs).1
    refine ⟨s', hs', hk, hp, ⟨bs, hb, fun h => hn fun h' => h (hl i hlt h'), fun hblock b hb => ?_⟩,
      is, hi, fun h => hm fun h' => h (hl i hlt h'), fun i hi => Nat.le_trans hq (hj' i hi)⟩
    obtain ⟨symbol, hsym, hseq⟩ := hj hblock b hb
    exact ⟨symbol, hsym, Nat.le_trans hq hseq⟩

theorem scopes_size (h : Grows live q t t') : t.scopes.size ≤ t'.scopes.size := by
  cases hn : t.scopes.size with
  | zero => omega
  | succ n =>
    obtain ⟨s', hs', -⟩ := h.scopes (Array.getElem?_eq_getElem (i := n) (by omega))
    exact (Array.getElem?_eq_some_iff.1 hs').1

/-- A scope that is not live keeps its names. -/
theorem names_eq (h : Grows live q t t') {i : ScopeId} (hi : i < t.scopes.size) (hl : ¬ live i) :
    t'.names i = t.names i := by
  have hs := Array.getElem?_eq_getElem hi
  obtain ⟨s', hs', -, -, ⟨bs, hb, hn, -⟩, -⟩ := h.scopes hs
  rw [names_of_scope hs, names_of_scope hs', hb, hn hl, List.append_nil]

/-- A scope that is not live sees the same files. -/
theorem imports_eq (h : Grows live q t t') {i : ScopeId} (hi : i < t.scopes.size) (hl : ¬ live i) :
    t'.imports i = t.imports i := by
  have hs := Array.getElem?_eq_getElem hi
  obtain ⟨s', hs', -, -, -, is, hb, hn, -⟩ := h.scopes hs
  rw [imports_of_scope hs, imports_of_scope hs', hb, hn hl, List.append_nil]

theorem declares (h : Grows live q t t') {bs : List (String × SymbolId)} {ds : List Declared}
    (hd : t.Declares bs ds) : t'.Declares bs ds := by
  refine List.Forall₂.imp (fun b d hb => ?_) hd
  obtain ⟨hname, symbol, hsym, hdecl⟩ := hb
  exact ⟨hname, symbol, h.symbols hsym, hdecl⟩

end Grows

/-- The scope is that of a file. -/
def IsFile (t : SymbolTable) (scope : ScopeId) : Prop :=
  ∃ sc, t.scopes[scope]? = some sc ∧ sc.kind = .file

theorem IsFile.grows {live : ScopeId → Prop} {q : Nat} {scope : ScopeId} (h : t.IsFile scope)
    (hg : Grows live q t t') : t'.IsFile scope := by
  obtain ⟨sc, hsc, hk⟩ := h
  obtain ⟨sc', hsc', hk', -⟩ := hg.scopes hsc
  exact ⟨sc', hsc', hk'.trans hk⟩

theorem IsFile.lt {scope : ScopeId} (h : t.IsFile scope) : scope < t.scopes.size := by
  obtain ⟨sc, hsc, -⟩ := h
  exact (Array.getElem?_eq_some_iff.1 hsc).1

/-! ## Operations -/

theorem scopes_addScope (t : SymbolTable) (kind : ScopeKind) (parent : Option ScopeId)
    (file : FileId) (i : ScopeId) :
    (t.addScope kind parent file).2.scopes[i]?
      = if i = t.scopes.size then some { kind, parent, file } else t.scopes[i]? := by
  simp only [addScope, Array.getElem?_push]

theorem grows_addScope (t : SymbolTable) (kind : ScopeKind) (parent : Option ScopeId)
    (file : FileId) (live : ScopeId → Prop) (q : Nat) :
    Grows live q t (t.addScope kind parent file).2 where
  symbols := id
  prelude := rfl
  scopes {i s} h := by
    have hi : i ≠ t.scopes.size := Nat.ne_of_lt (Array.getElem?_eq_some_iff.1 h).1
    exact ⟨s, by rw [scopes_addScope, if_neg hi, h], .of_eq rfl rfl rfl rfl⟩

/-- The table with a symbol bound in a scope. -/
def bind (t : SymbolTable) (scope : ScopeId) (symbol : Symbol) : SymbolTable :=
  { t with
    scopes := t.scopes.modify scope fun s =>
      { s with bindings := s.bindings ++ [(symbol.name, t.symbols.size)] }
    symbols := t.symbols.push { symbol with scope } }

theorem declare_eq (t : SymbolTable) (scope : ScopeId) (symbol : Symbol) :
    t.declare scope symbol = match t.lookup scope symbol.name with
      | some previous => (.error previous, t)
      | none => (.ok t.symbols.size, t.bind scope symbol) := rfl

theorem scopes_bind (t : SymbolTable) (scope : ScopeId) (symbol : Symbol) (i : ScopeId) :
    (t.bind scope symbol).scopes[i]? = if i = scope then t.scopes[i]?.map fun s =>
      { s with bindings := s.bindings ++ [(symbol.name, t.symbols.size)] } else t.scopes[i]? := by
  simp only [bind, Array.getElem?_modify]
  by_cases h : scope = i
  · simp [h]
  · simp [h, Ne.symm h]

@[simp] theorem symbols_bind (t : SymbolTable) (scope : ScopeId) (symbol : Symbol) :
    (t.bind scope symbol).symbols = t.symbols.push { symbol with scope } := rfl

theorem symbols_bind_new (t : SymbolTable) (scope : ScopeId) (symbol : Symbol) :
    (t.bind scope symbol).symbols[t.symbols.size]? = some { symbol with scope } := by
  simp

theorem symbols_bind_old (t : SymbolTable) (scope : ScopeId) (symbol : Symbol) {id : SymbolId}
    {old : Symbol} (h : t.symbols[id]? = some old) :
    (t.bind scope symbol).symbols[id]? = some old := by
  have hid : id ≠ t.symbols.size := Nat.ne_of_lt (Array.getElem?_eq_some_iff.1 h).1
  rw [symbols_bind, Array.getElem?_push, if_neg hid, h]

theorem grows_bind (t : SymbolTable) (scope : ScopeId) (symbol : Symbol) :
    Grows (· = scope) symbol.seq t (t.bind scope symbol) where
  symbols := symbols_bind_old t scope symbol
  prelude := rfl
  scopes {i s} h := by
    rw [scopes_bind, h]
    by_cases hi : i = scope
    · rw [if_pos hi]
      refine ⟨_, rfl, rfl, rfl, ⟨_, rfl, fun hl => absurd hi hl, fun _ b hb => ?_⟩,
        [], by simp, fun _ => rfl, by simp⟩
      rw [List.mem_singleton.1 hb]
      exact ⟨_, symbols_bind_new t scope symbol, Nat.le_refl _⟩
    · rw [if_neg hi]
      exact ⟨s, rfl, .of_eq rfl rfl rfl rfl⟩

/-- Outside blocks it does not matter which place a new name has. -/
theorem grows_bind_file (t : SymbolTable) {scope : ScopeId} {sc : Scope}
    (hsc : t.scopes[scope]? = some sc) (hk : sc.kind = .file) (symbol : Symbol) (q : Nat) :
    Grows (· = scope) q t (t.bind scope symbol) where
  symbols := symbols_bind_old t scope symbol
  prelude := rfl
  scopes {i s} h := by
    rw [scopes_bind, h]
    by_cases hi : i = scope
    · rw [if_pos hi]
      subst hi
      rw [hsc] at h
      cases h
      refine ⟨_, rfl, rfl, rfl, ⟨_, rfl, fun hl => absurd rfl hl, fun hblock => ?_⟩,
        [], by simp, fun _ => rfl, by simp⟩
      rw [hk] at hblock
      cases hblock
    · rw [if_neg hi]
      exact ⟨s, rfl, .of_eq rfl rfl rfl rfl⟩

theorem names_bind (t : SymbolTable) {scope : ScopeId} (symbol : Symbol)
    (h : scope < t.scopes.size) :
    (t.bind scope symbol).names scope = t.names scope ++ [(symbol.name, t.symbols.size)] := by
  simp [names, scopes_bind, h]

theorem imports_bind (t : SymbolTable) (scope : ScopeId) (symbol : Symbol) (i : ScopeId) :
    (t.bind scope symbol).imports i = t.imports i := by
  unfold imports
  rw [scopes_bind]
  split
  · cases t.scopes[i]? <;> rfl
  · rfl

theorem stands_bind (t : SymbolTable) (scope : ScopeId) (symbol : Symbol) :
    (t.bind scope symbol).Stands (symbol.name, t.symbols.size) symbol.declared :=
  ⟨rfl, _, symbols_bind_new t scope symbol, rfl⟩

theorem scopes_addImport (t : SymbolTable) (scope imported : ScopeId) (seq : Nat) (i : ScopeId) :
    (t.addImport scope imported seq).scopes[i]? = if i = scope then t.scopes[i]?.map fun s =>
      { s with imports := s.imports ++ [⟨seq, imported⟩] } else t.scopes[i]? := by
  simp only [addImport, Array.getElem?_modify]
  by_cases h : scope = i
  · simp [h]
  · simp [h, Ne.symm h]

theorem imports_addImport (t : SymbolTable) {scope : ScopeId} (imported : ScopeId) (seq : Nat)
    (h : scope < t.scopes.size) :
    (t.addImport scope imported seq).imports scope = t.imports scope ++ [⟨seq, imported⟩] := by
  simp [imports, scopes_addImport, h]

theorem names_addImport (t : SymbolTable) (scope imported : ScopeId) (seq : Nat) (i : ScopeId) :
    (t.addImport scope imported seq).names i = t.names i := by
  unfold names
  rw [scopes_addImport]
  split
  · cases t.scopes[i]? <;> rfl
  · rfl

theorem grows_addImport (t : SymbolTable) (scope imported : ScopeId) (seq : Nat) :
    Grows (· = scope) seq t (t.addImport scope imported seq) where
  symbols := id
  prelude := rfl
  scopes {i s} h := by
    rw [scopes_addImport, h]
    by_cases hi : i = scope
    · rw [if_pos hi]
      refine ⟨_, rfl, rfl, rfl, ⟨[], by simp, fun _ => rfl, by simp⟩, _, rfl,
        fun hl => absurd hi hl, fun j hj => ?_⟩
      obtain rfl := List.mem_singleton.1 hj
      exact Nat.le_refl _
    · rw [if_neg hi]
      exact ⟨s, rfl, .of_eq rfl rfl rfl rfl⟩

theorem scopes_closeChildren (t : SymbolTable) (file : FileId) (i : ScopeId) :
    (t.closeChildren file).scopes[i]? = t.scopes[i]?.map fun s =>
      if s.file == file && s.kind != .file then { s with closed := true } else s := by
  simp [closeChildren]

theorem names_closeChildren (t : SymbolTable) (file : FileId) (i : ScopeId) :
    (t.closeChildren file).names i = t.names i := by
  unfold names
  rw [scopes_closeChildren]
  cases t.scopes[i]? with
  | none => rfl
  | some s =>
    simp only [Option.map_some, Option.getD_some]
    split <;> rfl

theorem grows_closeChildren (t : SymbolTable) (file : FileId) (live : ScopeId → Prop) (q : Nat) :
    Grows live q t (t.closeChildren file) where
  symbols := id
  prelude := rfl
  scopes {i s} h := by
    rw [scopes_closeChildren, h]
    refine ⟨_, rfl, ?_⟩
    dsimp only
    split <;> exact .of_eq rfl rfl rfl rfl

theorem WellFormed.addScope (ht : t.WellFormed) (kind : ScopeKind) {parent : Option ScopeId}
    (hp : ∀ p, parent = some p → p < t.scopes.size) (file : FileId) :
    (t.addScope kind parent file).2.WellFormed where
  parent_lt {i s} h := by
    rw [scopes_addScope] at h
    split at h
    · rename_i hi
      cases h
      exact hi ▸ hp
    · exact ht.parent_lt h
  bound {i s} h := by
    rw [scopes_addScope] at h
    split at h
    · cases h
      intro b hb
      cases hb
    · exact ht.bound h
  nodup {i s} h := by
    rw [scopes_addScope] at h
    split at h
    · cases h
      exact .nil
    · exact ht.nodup h
  inner {i s} h hk := by
    rw [scopes_addScope] at h
    split at h
    · cases h
      intro b hb
      cases hb
    · exact ht.inner h hk

theorem WellFormed.bind (ht : t.WellFormed) {scope : ScopeId} {symbol : Symbol}
    (hfree : t.lookup scope symbol.name = none)
    (hk : symbol.kind.isType = true → ∀ s, t.scopes[scope]? = some s → s.kind = .file) :
    (t.bind scope symbol).WellFormed := by
  -- A scope of the new table is one of the old one, perhaps with the new binding.
  have old : ∀ {i : ScopeId} {s : Scope}, (t.bind scope symbol).scopes[i]? = some s → ∃ s₀, t.scopes[i]? = some s₀ ∧
      s.kind = s₀.kind ∧ s.parent = s₀.parent ∧ (s.bindings = s₀.bindings ∨
        i = scope ∧ s.bindings = s₀.bindings ++ [(symbol.name, t.symbols.size)]) := by
    intro i s h
    rw [scopes_bind] at h
    split at h
    · rename_i hi
      obtain ⟨s₀, hs₀, rfl⟩ := Option.map_eq_some_iff.1 h
      exact ⟨s₀, hs₀, rfl, rfl, .inr ⟨hi, rfl⟩⟩
    · exact ⟨s, h, rfl, rfl, .inl rfl⟩
  have mem : ∀ {bs bs₀ : List (String × SymbolId)} {P : Prop} {b : String × SymbolId},
      (bs = bs₀ ∨ P ∧ bs = bs₀ ++ [(symbol.name, t.symbols.size)]) → b ∈ bs →
      b ∈ bs₀ ∨ P ∧ b = (symbol.name, t.symbols.size) := by
    rintro bs bs₀ P b (rfl | ⟨hP, rfl⟩) hb
    · exact .inl hb
    · simpa [hP] using hb
  refine ⟨fun h => ?_, fun {i s} h b hb => ?_, fun {i s} h => ?_,
    fun {i s} h hkind b hb sym hsym => ?_⟩
  · obtain ⟨s₀, hs₀, -, hp, -⟩ := old h
    exact hp ▸ ht.parent_lt hs₀
  · obtain ⟨s₀, hs₀, -, -, hbs⟩ := old h
    obtain hb | ⟨-, rfl⟩ := mem hbs hb
    · obtain ⟨sym, hsym, hname⟩ := ht.bound hs₀ b hb
      exact ⟨sym, symbols_bind_old t scope symbol hsym, hname⟩
    · exact ⟨_, symbols_bind_new t scope symbol, rfl⟩
  · obtain ⟨s₀, hs₀, -, -, hbs | ⟨rfl, hbs⟩⟩ := old h
    · rw [hbs]
      exact ht.nodup hs₀
    · rw [lookup_eq_names, names_of_scope hs₀, List.lookup_eq_none_iff] at hfree
      rw [hbs, List.map_append, List.nodup_append]
      refine ⟨ht.nodup hs₀, by simp, fun n hn m hm heq => ?_⟩
      obtain ⟨b, hb, rfl⟩ := List.mem_map.1 hn
      have hm : m = symbol.name := by simpa using hm
      exact absurd (hfree b hb) (by simp [heq, hm])
  · obtain ⟨s₀, hs₀, hk₀, -, hbs⟩ := old h
    obtain hb | ⟨rfl, rfl⟩ := mem hbs hb
    · obtain ⟨sym₀, hsym₀, -⟩ := ht.bound hs₀ b hb
      have heq := symbols_bind_old t scope symbol hsym₀
      rw [hsym] at heq
      cases heq
      exact ht.inner hs₀ (hk₀ ▸ hkind) b hb sym hsym₀
    · rw [symbols_bind_new] at hsym
      cases hsym
      by_contra htype
      exact hkind (hk₀.trans (hk (by simpa using htype) s₀ hs₀))

/-- Tables with the same symbols whose scopes differ in imports and marks only. -/
theorem WellFormed.of_same (ht : t.WellFormed) (hsym : t'.symbols = t.symbols)
    (h : ∀ {i : ScopeId} {s' : Scope}, t'.scopes[i]? = some s' → ∃ s, t.scopes[i]? = some s ∧ s'.kind = s.kind ∧
      s'.parent = s.parent ∧ s'.bindings = s.bindings) : t'.WellFormed := by
  refine ⟨fun hs => ?_, fun hs => ?_, fun hs => ?_, fun hs => ?_⟩
  · obtain ⟨s, hs, -, hp, -⟩ := h hs
    exact hp ▸ ht.parent_lt hs
  · obtain ⟨s, hs, -, -, hb⟩ := h hs
    rw [hsym, hb]
    exact ht.bound hs
  · obtain ⟨s, hs, -, -, hb⟩ := h hs
    rw [hb]
    exact ht.nodup hs
  · obtain ⟨s, hs, hk, -, hb⟩ := h hs
    rw [hsym, hb, hk]
    exact ht.inner hs

theorem WellFormed.addImport (ht : t.WellFormed) (scope imported : ScopeId) (seq : Nat) :
    (t.addImport scope imported seq).WellFormed := by
  refine ht.of_same rfl fun {i s'} h => ?_
  rw [scopes_addImport] at h
  split at h
  · obtain ⟨s, hs, rfl⟩ := Option.map_eq_some_iff.1 h
    exact ⟨s, hs, rfl, rfl, rfl⟩
  · exact ⟨s', h, rfl, rfl, rfl⟩

theorem WellFormed.closeChildren (ht : t.WellFormed) (file : FileId) :
    (t.closeChildren file).WellFormed := by
  refine ht.of_same rfl fun {i s'} h => ?_
  rw [scopes_closeChildren] at h
  obtain ⟨s, hs, rfl⟩ := Option.map_eq_some_iff.1 h
  exact ⟨s, hs, by split <;> simp⟩

/-! ## Looking up -/

/-- The symbol that a name finds in a scope or one of those around it. -/
def find (t : SymbolTable) (name : String) (seq : Nat) (scope : Option ScopeId) : Option SymbolId :=
  t.resolveFrom name seq (t.scopes.size + 1) scope

theorem resolve_eq (t : SymbolTable) (scope : ScopeId) (name : String) (seq : Nat) :
    t.resolve scope name seq
      = (t.find name seq (some scope)).or (t.prelude.bind (t.lookup · name)) := by
  unfold resolve find
  cases t.resolveFrom name seq (t.scopes.size + 1) (some scope) <;> rfl

section

variable {name : String} {seq : Nat}

theorem resolveFrom_none (fuel : Nat) : t.resolveFrom name seq fuel none = none := by
  cases fuel <;> rfl

theorem resolveFrom_succ (fuel : Nat) (i : ScopeId) :
    t.resolveFrom name seq (fuel + 1) (some i) = match t.scopes[i]? with
      | none => none
      | some s => (t.resolveIn s name seq).or (t.resolveFrom name seq fuel s.parent) := by
  rw [resolveFrom]
  cases t.scopes[i]? with
  | none => rfl
  | some s => cases hin : t.resolveIn s name seq <;> simp [hin]

/-- Where scopes lie inside earlier ones, fuel beyond the number of a scope changes nothing. -/
theorem resolveFrom_enough (hparent : ∀ {i : Nat} {s : Scope}, t.scopes[i]? = some s →
      ∀ p : Nat, s.parent = some p → p < i) (i fuel fuel' : Nat) (hf : i < fuel) (hf' : i < fuel') :
    t.resolveFrom name seq fuel (some i) = t.resolveFrom name seq fuel' (some i) := by
  induction i using Nat.strongRecOn generalizing fuel fuel' with
  | _ i ih =>
    obtain ⟨fuel, rfl⟩ := Nat.exists_eq_add_of_lt hf
    obtain ⟨fuel', rfl⟩ := Nat.exists_eq_add_of_lt hf'
    rw [resolveFrom_succ, resolveFrom_succ]
    cases hs : t.scopes[i]? with
    | none => rfl
    | some s =>
      dsimp only
      cases hp : s.parent with
      | none => rw [resolveFrom_none, resolveFrom_none]
      | some p =>
        have hlt := hparent hs p hp
        rw [ih p hlt (i + fuel) (i + fuel') (by omega) (by omega)]

theorem resolveFrom_fuel (ht : t.WellFormed) (i fuel fuel' : Nat) (hf : i < fuel)
    (hf' : i < fuel') :
    t.resolveFrom name seq fuel (some i) = t.resolveFrom name seq fuel' (some i) :=
  resolveFrom_enough ht.parent_lt i fuel fuel' hf hf'

theorem find_none : t.find name seq none = none :=
  resolveFrom_none _

theorem find_eq (ht : t.WellFormed) {i : Nat} {s : Scope} (hs : t.scopes[i]? = some s) :
    t.find name seq (some i) = (t.resolveIn s name seq).or (t.find name seq s.parent) := by
  unfold find
  rw [resolveFrom_succ, hs]
  dsimp only
  cases hp : s.parent with
  | none => rw [resolveFrom_none, resolveFrom_none]
  | some p =>
    have hlt := ht.parent_lt hs p hp
    have hi : i < t.scopes.size := (Array.getElem?_eq_some_iff.1 hs).1
    rw [resolveFrom_fuel ht p t.scopes.size (t.scopes.size + 1) (by omega) (by omega)]

theorem resolveIn_declaration {s : Scope} (hk : s.kind = .declaration) :
    t.resolveIn s name seq = s.bindings.lookup name := by
  unfold resolveIn
  rw [Scope.lookup, hk]
  cases s.bindings.lookup name <;> rfl

theorem resolveIn_file {s : Scope} (hk : s.kind = .file) :
    t.resolveIn s name seq = (s.bindings.lookup name).or
      ((s.imports.filter (·.seq < seq)).findSome? fun i => t.lookup i.scope name) := by
  unfold resolveIn
  rw [Scope.lookup, hk]
  cases s.bindings.lookup name <;> rfl

end

/-- Looking through scopes one after the other is looking through all their names. -/
theorem lookup_flatMap {α : Type} (f : α → List (String × SymbolId)) (name : String) :
    ∀ xs : List α, (xs.flatMap f).lookup name = xs.findSome? fun x => (f x).lookup name
  | [] => rfl
  | x :: xs => by
    rw [List.flatMap_cons, List.lookup_append, List.findSome?_cons, lookup_flatMap f name xs]
    cases (f x).lookup name <;> rfl

/-- At file level, a name is looked up among the declarations of the whole file and then in the files
that were imported before it. -/
theorem find_file {live : ScopeId → Prop} {q q' r : Nat} {root : ScopeId} {sc : Scope}
    (hsc : t.scopes[root]? = some sc) (hk : sc.kind = .file) (hp : sc.parent = none)
    (hold : ∀ i ∈ sc.imports, i.seq < q) (hg : Grows live q' t t') (ht' : t'.WellFormed)
    (hq : q ≤ r) (hr : r < q') (name : String) :
    t'.find name r (some root)
      = (t'.names root ++ sc.imports.flatMap fun i => t'.names i.scope).lookup name := by
  obtain ⟨sc', hsc', hk', hp', -, is, hi, -, hnew⟩ := hg.scopes hsc
  have hfilter : sc'.imports.filter (·.seq < r) = sc.imports := by
    have hbefore : sc.imports.filter (·.seq < r) = sc.imports :=
      List.filter_eq_self.2 fun i hi => by simpa using Nat.lt_of_lt_of_le (hold i hi) hq
    have hafter : is.filter (·.seq < r) = [] :=
      List.filter_eq_nil_iff.2 fun i hi => by
        simpa using Nat.le_of_lt (Nat.lt_of_lt_of_le hr (hnew i hi))
    rw [hi, List.filter_append, hbefore, hafter, List.append_nil]
  rw [find_eq ht' hsc', resolveIn_file (hk'.trans hk), hp', hp, find_none, Option.or_none, hfilter,
    List.lookup_append, names_of_scope hsc', lookup_flatMap]
  simp only [lookup_eq_names]

theorem mem_of_lookup {bs : List (String × SymbolId)} {name : String} {id : SymbolId}
    (h : bs.lookup name = some id) : (name, id) ∈ bs := by
  obtain ⟨l₁, l₂, heq, -⟩ := List.lookup_eq_some_iff.1 h
  simp [heq]

/-- What is found under a name in a scope's own names is bound there. -/
theorem mem_of_lookup_scope {scope : ScopeId} {name : String} {id : SymbolId}
    (h : t.lookup scope name = some id) :
    ∃ s, t.scopes[scope]? = some s ∧ (name, id) ∈ s.bindings := by
  unfold SymbolTable.lookup at h
  obtain ⟨s, hs, hl⟩ := Option.bind_eq_some_iff.1 h
  exact ⟨s, hs, mem_of_lookup hl⟩

theorem mem_of_resolveIn {s : Scope} {name : String} {seq : Nat} {id : SymbolId} {i : ScopeId}
    (hs : t.scopes[i]? = some s) (h : t.resolveIn s name seq = some id) :
    ∃ (i : ScopeId) (s : Scope), t.scopes[i]? = some s ∧ (name, id) ∈ s.bindings := by
  unfold resolveIn at h
  dsimp only at h
  split at h
  · rename_i found hfound
    cases h
    exact ⟨i, s, hs, mem_of_lookup (Option.filter_eq_some_iff.1 hfound).1⟩
  · split at h
    · obtain ⟨imported, -, hfound⟩ := List.exists_of_findSome?_eq_some h
      exact ⟨_, mem_of_lookup_scope hfound⟩
    · cases h

/-- What a name resolves to is bound under this name in some scope. -/
theorem mem_of_resolve {scope : ScopeId} {name : String} {seq : Nat} {id : SymbolId}
    (h : t.resolve scope name seq = some id) :
    ∃ (i : ScopeId) (s : Scope), t.scopes[i]? = some s ∧ (name, id) ∈ s.bindings := by
  have hfrom : ∀ (fuel : Nat) (start : Option ScopeId),
      t.resolveFrom name seq fuel start = some id →
      ∃ (i : ScopeId) (s : Scope), t.scopes[i]? = some s ∧ (name, id) ∈ s.bindings := by
    intro fuel
    induction fuel with
    | zero => intro start h; cases h
    | succ fuel ih =>
      intro start h
      cases start with
      | none => cases h
      | some i =>
        rw [resolveFrom_succ] at h
        cases hs : t.scopes[i]? with
        | none => rw [hs] at h; cases h
        | some s =>
          rw [hs] at h
          obtain h | ⟨-, h⟩ := Option.or_eq_some_iff.1 h
          · exact mem_of_resolveIn hs h
          · exact ih _ h
  rw [resolve_eq] at h
  obtain h | ⟨-, h⟩ := Option.or_eq_some_iff.1 h
  · exact hfrom _ _ h
  · obtain ⟨sc, -, h⟩ := Option.bind_eq_some_iff.1 h
    exact ⟨_, mem_of_lookup_scope h⟩

/-- What a name resolves to is a symbol of this name. -/
theorem WellFormed.symbol_of_resolve (ht : t.WellFormed) {scope : ScopeId} {name : String} {seq : Nat}
    {id : SymbolId} (h : t.resolve scope name seq = some id) :
    ∃ symbol, t.symbols[id]? = some symbol ∧ symbol.name = name := by
  obtain ⟨i, s, hs, hmem⟩ := mem_of_resolve h
  exact ht.bound hs _ hmem

/-! ## Bodies -/

/-- The variables in sight in a block of a body, innermost first: those of the block, of the blocks
around it, and the parameters. The variables were declared before `q`; around the scope of the
function lies `outer`. -/
inductive Blocks (t : SymbolTable) (q : Nat) (func outer : ScopeId) :
    ScopeId → List (String × SymbolId) → Prop where
  | func {s : Scope} {own : List (String × SymbolId)} :
    t.scopes[func]? = some s → s.kind = .declaration → s.parent = some outer →
    (∀ n, own.lookup n = s.bindings.lookup n) → Blocks t q func outer func own
  | block {c p : ScopeId} {s : Scope} {own env : List (String × SymbolId)} :
    t.scopes[c]? = some s → s.kind = .block → s.parent = some p →
    (∀ n, own.lookup n = s.bindings.lookup n) →
    (∀ b ∈ s.bindings, ∃ symbol, t.symbols[b.2]? = some symbol ∧ symbol.seq < q) →
    Blocks t q func outer p env → Blocks t q func outer c (own ++ env)

namespace Blocks

variable {q q' : Nat} {func outer c : ScopeId} {env : List (String × SymbolId)}

theorem mono (h : Blocks t q func outer c env) (hq : q ≤ q') : Blocks t q' func outer c env := by
  induction h with
  | func hs hk hp hown => exact .func hs hk hp hown
  | block hs hk hp hown hseq _ ih =>
    refine .block hs hk hp hown (fun b hb => ?_) ih
    obtain ⟨symbol, hsym, hlt⟩ := hseq b hb
    exact ⟨symbol, hsym, Nat.lt_of_lt_of_le hlt hq⟩

theorem func_le (h : Blocks t q func outer c env) (ht : t.WellFormed) : Nat.le func c := by
  induction h with
  | func => exact Nat.le_refl _
  | block hs _ hp _ _ _ ih => exact Nat.le_of_lt (Nat.lt_of_le_of_lt ih (ht.parent_lt hs _ hp))

/-- Growth elsewhere leaves the variables in sight as they are. -/
theorem grows (h : Blocks t q func outer c env) (ht : t.WellFormed) {live : ScopeId → Prop}
    (hl : ∀ i : Nat, i ≤ c → ¬ live i) (hg : Grows live q' t t') :
    Blocks t' q func outer c env := by
  induction h with
  | func hs hk hp hown =>
    obtain ⟨s', hs', hk', hp', ⟨bs, hb, hn, -⟩, -⟩ := hg.scopes hs
    rw [hn (hl func (Nat.le_refl _)), List.append_nil] at hb
    exact .func hs' (hk'.trans hk) (hp'.trans hp) fun n => by rw [hb, hown n]
  | block hs hk hp hown hseq hout ih =>
    rename_i c p s own env
    obtain ⟨s', hs', hk', hp', ⟨bs, hb, hn, -⟩, -⟩ := hg.scopes hs
    rw [hn (hl c (Nat.le_refl c)), List.append_nil] at hb
    have hlt := ht.parent_lt hs _ hp
    refine .block hs' (hk'.trans hk) (hp'.trans hp) (fun n => ?_) (fun b hmem => ?_)
      (ih fun i hi => hl i (by omega))
    · rw [hb, hown n]
    · obtain ⟨symbol, hsym, hseq⟩ := hseq b (hb ▸ hmem)
      exact ⟨symbol, hg.symbols hsym, hseq⟩

/-- A new block sees what is in sight around it. -/
theorem enter (h : Blocks t q func outer c env) (ht : t.WellFormed) (file : FileId) :
    Blocks (t.addScope .block (some c) file).2 q func outer t.scopes.size env := by
  have hg := grows_addScope t .block (some c) file (fun _ => False) q
  have hout := h.grows ht (fun _ _ => id) hg
  rw [← List.nil_append env]
  exact .block (by rw [scopes_addScope, if_pos rfl]) rfl rfl (fun _ => rfl)
    (fun b hb => absurd hb List.not_mem_nil) hout

/-- A new name may be put in front or at the end. -/
theorem lookup_snoc {own bs : List (String × SymbolId)} {name : String} {id : SymbolId}
    (hown : ∀ n, own.lookup n = bs.lookup n) (hfree : bs.lookup name = none) (n : String) :
    ((name, id) :: own).lookup n = (bs ++ [(name, id)]).lookup n := by
  rw [List.lookup_cons, hown n, List.lookup_append]
  by_cases hn : n = name
  · subst hn
    simp [hfree]
  · simp [List.lookup_cons, beq_false_of_ne hn]

/-- A variable declared in a block comes into sight there. -/
theorem bind (h : Blocks t q func outer c env) (ht : t.WellFormed) (hc : c ≠ func)
    {symbol : Symbol} (hseq : symbol.seq = q) (hfree : t.lookup c symbol.name = none) :
    Blocks (t.bind c symbol) (q + 1) func outer c ((symbol.name, t.symbols.size) :: env) := by
  cases h with
  | func => exact absurd rfl hc
  | block hs hk hp hown hold hout =>
    rename_i p s own env
    have hlt := ht.parent_lt hs _ hp
    have hg := grows_bind t c symbol
    rw [lookup_eq_names, names_of_scope hs] at hfree
    rw [← List.cons_append]
    have hs' : (t.bind c symbol).scopes[c]? = some { s with
        bindings := s.bindings ++ [(symbol.name, t.symbols.size)] } := by
      rw [scopes_bind, if_pos rfl, hs]
      rfl
    refine .block hs' hk hp (fun n => ?_) (fun b hb => ?_)
      ((hout.mono (Nat.le_succ q)).grows ht
        (fun i hi => Nat.ne_of_lt (Nat.lt_of_le_of_lt hi hlt)) hg)
    · exact lookup_snoc hown hfree n
    · obtain hb | hb := List.mem_append.1 hb
      · obtain ⟨old, hsym, hlt⟩ := hold b hb
        exact ⟨old, symbols_bind_old t c symbol hsym, by omega⟩
      · rw [List.mem_singleton.1 hb]
        exact ⟨_, symbols_bind_new t c symbol, by simp [hseq]⟩

/-- A parameter comes into sight in the scope of its function. -/
theorem param (h : Blocks t q func outer func env) (ht : t.WellFormed) (symbol : Symbol)
    (hfree : t.lookup func symbol.name = none) :
    Blocks (t.bind func symbol) q' func outer func ((symbol.name, t.symbols.size) :: env) := by
  cases h with
  | block hs _ hp _ _ hout =>
    exact absurd (ht.parent_lt hs _ hp) (Nat.not_lt.2 (hout.func_le ht))
  | func hs hk hp hown =>
    rename_i s
    rw [lookup_eq_names, names_of_scope hs] at hfree
    have hs' : (t.bind func symbol).scopes[func]? = some { s with
        bindings := s.bindings ++ [(symbol.name, t.symbols.size)] } := by
      rw [scopes_bind, if_pos rfl, hs]
      rfl
    exact .func hs' hk hp (lookup_snoc hown hfree)

/-- A name in a body, looked up at any later time, means the innermost variable or the parameter that
was in sight, and else what it means around the function. Blocks may have got more variables since,
but only from places after the name. -/
theorem find (h : Blocks t q func outer c env) (hg : Grows (· ≠ func) q' t t')
    (ht' : t'.WellFormed) {r : Nat} (hq : q ≤ r) (hr : r ≤ q') (name : String) :
    t'.find name r (some c) = (env.lookup name).or (t'.find name r (some outer)) := by
  induction h with
  | func hs hk hp hown =>
    obtain ⟨s', hs', hk', hp', ⟨bs, hb, hn, -⟩, -⟩ := hg.scopes hs
    rw [hn (fun h => h rfl), List.append_nil] at hb
    rw [find_eq ht' hs', resolveIn_declaration (hk'.trans hk), hp', hp, hb, hown]
  | block hs hk hp hown hseq hout ih =>
    rename_i c p s own env
    obtain ⟨s', hs', hk', hp', ⟨bs, hb, -, hnew⟩, -⟩ := hg.scopes hs
    rw [find_eq ht' hs', hp', hp, ih, List.lookup_append, hown, Option.or_assoc]
    congr 1
    -- In the block itself, the bindings from before `q` are visible and the later ones are not.
    unfold resolveIn
    rw [Scope.lookup, hb, List.lookup_append, hk', hk]
    cases hl : s.bindings.lookup name with
    | some id =>
      obtain ⟨symbol, hsym, hlt⟩ := hseq (name, id) (mem_of_lookup hl)
      have hsee : t'.symbols[id]?.any (·.seq < r) = true := by
        simp [hg.symbols hsym, Nat.lt_of_lt_of_le hlt hq]
      simp [Option.filter, hsee]
    | none =>
      cases hl' : bs.lookup name with
      | none => simp
      | some id =>
        obtain ⟨symbol, hsym, hle⟩ := hnew hk (name, id) (mem_of_lookup hl')
        have hsee : t'.symbols[id]?.any (·.seq < r) = false := by
          simp [hsym, Nat.le_trans hr hle]
        simp [Option.filter, hsee]

end Blocks

/-- The declarations have the symbols numbered from `base` on. -/
def DeclaresFrom (t : SymbolTable) (base : SymbolId) (ds : List Declared) : Prop :=
  ∀ (k : Nat) d, ds[k]? = some d → ∃ symbol, t.symbols[base + k]? = some symbol ∧ symbol.declared = d

namespace DeclaresFrom

variable {base : Nat} {ds ds' : List Declared}

theorem nil (t : SymbolTable) (base : SymbolId) : t.DeclaresFrom base [] :=
  fun k d h => by simp at h

theorem append (h : t.DeclaresFrom base ds) (h' : t.DeclaresFrom (base + ds.length) ds') :
    t.DeclaresFrom base (ds ++ ds') := by
  intro k d hk
  by_cases hlt : k < ds.length
  · rw [List.getElem?_append_left hlt] at hk
    exact h k d hk
  · rw [List.getElem?_append_right (Nat.le_of_not_lt hlt)] at hk
    obtain ⟨symbol, hsym, hd⟩ := h' _ d hk
    refine ⟨symbol, ?_, hd⟩
    rwa [show base + ds.length + (k - ds.length) = base + k by omega] at hsym

theorem grows {live : ScopeId → Prop} {q : Nat} (h : t.DeclaresFrom base ds)
    (hg : Grows live q t t') : t'.DeclaresFrom base ds := by
  intro k d hk
  obtain ⟨symbol, hsym, hd⟩ := h k d hk
  exact ⟨symbol, hg.symbols hsym, hd⟩

theorem bind (t : SymbolTable) (scope : ScopeId) (symbol : Symbol) :
    (t.bind scope symbol).DeclaresFrom t.symbols.size [symbol.declared] := by
  intro k d hk
  cases k with
  | zero =>
    cases hk
    exact ⟨_, symbols_bind_new t scope symbol, rfl⟩
  | succ k => simp at hk

end DeclaresFrom

end SymbolTable

end Scaffold
