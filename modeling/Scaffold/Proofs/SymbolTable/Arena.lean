import Scaffold.Proofs.SymbolTable

/-!
# Tables whose numbers can be trusted

Scopes and symbols refer to each other by number. In an arena every number is in range and leads back:
a name bound in a scope has a symbol that says so, every symbol is bound where it says, scopes lie
inside earlier ones of their file, and imports lead to the scopes of files.

* `Scope.Fits`, `Arena`: the invariant, for one scope and for a table.
* `Lasts live t t'`: what no operation changes in the scopes there are; only those of files that are
  not `live` may be closed.
* `Arena.addScope`, `Arena.bind`, …: each operation keeps a table an arena.
* `Arena.once`, `Arena.resolve_lt`: what follows for names and their symbols.
-/

namespace Scaffold

namespace SymbolTable

variable {t t' t'' : SymbolTable} {i scope : ScopeId} {sc : Scope}

/-- The scope with the number `i` fits into the table. -/
structure Fits (t : SymbolTable) (i : ScopeId) (sc : Scope) : Prop where
  bound : ∀ b ∈ sc.bindings, ∃ symbol, t.symbols[b.2]? = some symbol ∧ symbol.name = b.1 ∧
    symbol.scope = i
  nodup : (sc.bindings.map (·.1)).Nodup
  parent : ∀ p : Nat, sc.parent = some p → p < i ∧
    ∃ outer, t.scopes[p]? = some outer ∧ outer.file = sc.file
  top : sc.parent = none ↔ sc.kind = .file
  imports : ∀ im ∈ sc.imports, sc.kind = .file ∧ t.IsFile im.scope
  file : Nat.lt sc.file t.files.size
  left_open : sc.kind = .file → sc.closed = false

/-- All numbers are in range and lead back. -/
structure Arena (t : SymbolTable) : Prop where
  fits : ∀ {i : ScopeId} {sc : Scope}, t.scopes[i]? = some sc → t.Fits i sc
  home : ∀ {id : SymbolId} {symbol : Symbol}, t.symbols[id]? = some symbol →
    ∃ sc, t.scopes[symbol.scope]? = some sc ∧ (symbol.name, id) ∈ sc.bindings
  prelude : ∀ scope, t.prelude = some scope → t.IsFile scope

/-! ## What stays -/

/-- The scope is still at the same place, and open or closed as before if `live`. -/
structure Still (live : Prop) (sc sc' : Scope) : Prop where
  kind : sc'.kind = sc.kind
  parent : sc'.parent = sc.parent
  file : sc'.file = sc.file
  closed : live → sc'.closed = sc.closed

/-- Files, symbols and scopes are kept, and the scopes of `live` files are open or closed as
before. -/
structure Lasts (live : FileId → Prop) (t t' : SymbolTable) : Prop where
  files : t.files.size ≤ t'.files.size
  symbols : ∀ {id : SymbolId} {symbol : Symbol}, t.symbols[id]? = some symbol →
    t'.symbols[id]? = some symbol
  scopes : ∀ {i : ScopeId} {sc : Scope}, t.scopes[i]? = some sc →
    ∃ sc', t'.scopes[i]? = some sc' ∧ Still (live sc.file) sc sc'

def anyFile : FileId → Prop :=
  fun _ => True

namespace Lasts

variable {live live' : FileId → Prop}

theorem refl (t : SymbolTable) : Lasts live t t :=
  ⟨Nat.le_refl _, id, fun h => ⟨_, h, rfl, rfl, rfl, fun _ => rfl⟩⟩

theorem trans (h : Lasts live t t') (h' : Lasts live t' t'') : Lasts live t t'' where
  files := Nat.le_trans h.files h'.files
  symbols hs := h'.symbols (h.symbols hs)
  scopes hs := by
    obtain ⟨sc', hs', hkind, hparent, hfile, hclosed⟩ := h.scopes hs
    obtain ⟨sc'', hs'', hkind', hparent', hfile', hclosed'⟩ := h'.scopes hs'
    exact ⟨sc'', hs'', hkind'.trans hkind, hparent'.trans hparent, hfile'.trans hfile,
      fun hl => (hclosed' (hfile ▸ hl)).trans (hclosed hl)⟩

/-- Only the files of scopes that are there can be live. -/
theorem mono (h : Lasts live t t')
    (hl : ∀ {i : ScopeId} {sc : Scope}, t.scopes[i]? = some sc → live' sc.file → live sc.file) : Lasts live' t t' where
  files := h.files
  symbols := h.symbols
  scopes hs := by
    obtain ⟨sc', hs', hkind, hparent, hfile, hclosed⟩ := h.scopes hs
    exact ⟨sc', hs', hkind, hparent, hfile, fun hlive => hclosed (hl hs hlive)⟩

theorem isFile (h : Lasts live t t') (hs : t.IsFile scope) : t'.IsFile scope := by
  obtain ⟨sc, hsc, hkind⟩ := hs
  obtain ⟨sc', hsc', hstill⟩ := h.scopes hsc
  exact ⟨sc', hsc', hstill.kind.trans hkind⟩

end Lasts

theorem Fits.lasts {live : FileId → Prop} (h : t.Fits i sc) (hk : Lasts live t t') : t'.Fits i sc where
  bound b hb := by
    obtain ⟨symbol, hsymbol, hsays⟩ := h.bound b hb
    exact ⟨symbol, hk.symbols hsymbol, hsays⟩
  nodup := h.nodup
  parent p hp := by
    obtain ⟨hlt, outer, houter, hfile⟩ := h.parent p hp
    obtain ⟨outer', houter', hstill⟩ := hk.scopes houter
    exact ⟨hlt, outer', houter', hstill.file.trans hfile⟩
  top := h.top
  imports im him := ⟨(h.imports im him).1, hk.isFile (h.imports im him).2⟩
  file := Nat.lt_of_lt_of_le h.file hk.files
  left_open := h.left_open

/-! ## Operations -/

theorem addFile_lasts (t : SymbolTable) (path : Path) : Lasts anyFile t (t.addFile path).2 := by
  refine ⟨?_, id, fun h => ⟨_, h, rfl, rfl, rfl, fun _ => rfl⟩⟩
  show t.files.size ≤ (t.files.push path).size
  rw [Array.size_push]
  exact Nat.le_succ _

theorem Arena.addFile (h : t.Arena) (path : Path) : (t.addFile path).2.Arena where
  fits hs := (h.fits hs).lasts (addFile_lasts t path)
  home := h.home
  prelude := h.prelude

section

variable {kind : ScopeKind} {parent : Option ScopeId} {file : FileId}

theorem addScope_lasts (t : SymbolTable) (kind : ScopeKind) (parent : Option ScopeId)
    (file : FileId) : Lasts anyFile t (t.addScope kind parent file).2 where
  files := Nat.le_refl _
  symbols := id
  scopes {i sc} h := by
    have hi : i ≠ t.scopes.size := Nat.ne_of_lt (Array.getElem?_eq_some_iff.1 h).1
    exact ⟨sc, by rw [scopes_addScope, if_neg hi, h], rfl, rfl, rfl, fun _ => rfl⟩

theorem addScope_new (t : SymbolTable) (kind : ScopeKind) (parent : Option ScopeId)
    (file : FileId) :
    (t.addScope kind parent file).2.scopes[t.scopes.size]? = some { kind, parent, file } := by
  rw [scopes_addScope, if_pos rfl]

/-- A new scope is that of a file, or lies in a scope of its file. -/
theorem Arena.addScope (h : t.Arena) (htop : parent = none ↔ kind = .file)
    (hparent : ∀ p, parent = some p → ∃ outer, t.scopes[p]? = some outer ∧ outer.file = file)
    (hfile : Nat.lt file t.files.size) : (t.addScope kind parent file).2.Arena := by
  have hlasts := addScope_lasts t kind parent file
  refine ⟨fun {i sc} hs => ?_, fun hs => ?_, fun scope hs => hlasts.isFile (h.prelude scope hs)⟩
  · rw [scopes_addScope] at hs
    split at hs
    · rename_i hi
      cases hs
      refine ⟨nofun, .nil, fun p hp => ?_, htop, nofun, hfile, fun _ => rfl⟩
      obtain ⟨outer, houter, hsame⟩ := hparent p hp
      obtain ⟨outer', houter', hstill⟩ := hlasts.scopes houter
      have hlt : p < t.scopes.size := (Array.getElem?_eq_some_iff.1 houter).1
      exact ⟨hi ▸ hlt, outer', houter', hstill.file.trans hsame⟩
    · exact (h.fits hs).lasts hlasts
  · obtain ⟨sc, hsc, hmem⟩ := h.home hs
    have hi := Nat.ne_of_lt (Array.getElem?_eq_some_iff.1 hsc).1
    exact ⟨sc, by rw [scopes_addScope, if_neg hi, hsc], hmem⟩

end

section

variable {symbol : Symbol}

/-- What a scope is after a name was bound in some scope. -/
theorem scopes_of_bind (h : (t.bind scope symbol).scopes[i]? = some sc) :
    (t.scopes[i]? = some sc ∧ i ≠ scope) ∨ ∃ old, t.scopes[i]? = some old ∧ i = scope ∧
      sc = { old with bindings := old.bindings ++ [(symbol.name, t.symbols.size)] } := by
  rw [scopes_bind] at h
  split at h
  · rename_i hi
    obtain ⟨old, hold, rfl⟩ := Option.map_eq_some_iff.1 h
    exact .inr ⟨old, hold, hi, rfl⟩
  · rename_i hi
    exact .inl ⟨h, hi⟩

theorem bind_lasts (t : SymbolTable) (scope : ScopeId) (symbol : Symbol) :
    Lasts anyFile t (t.bind scope symbol) where
  files := Nat.le_refl _
  symbols := symbols_bind_old t scope symbol
  scopes {i sc} h := by
    rw [scopes_bind, h]
    split <;> exact ⟨_, rfl, rfl, rfl, rfl, fun _ => rfl⟩

theorem Arena.bind (h : t.Arena) (hscope : t.scopes[scope]? = some sc)
    (hfree : t.lookup scope symbol.name = none) : (t.bind scope symbol).Arena := by
  have hlasts := bind_lasts t scope symbol
  refine ⟨fun {i sc'} hs => ?_, fun {id symbol'} hs => ?_,
    fun scope hs => hlasts.isFile (h.prelude scope hs)⟩
  · obtain ⟨hs, -⟩ | ⟨old, hold, rfl, rfl⟩ := scopes_of_bind hs
    · exact (h.fits hs).lasts hlasts
    · have hfits := (h.fits hold).lasts hlasts
      refine ⟨fun b hb => ?_, ?_, hfits.parent, hfits.top, hfits.imports, hfits.file,
        hfits.left_open⟩
      · obtain hb | hb := List.mem_append.1 hb
        · exact hfits.bound b hb
        · rw [List.mem_singleton.1 hb]
          exact ⟨_, symbols_bind_new t i symbol, rfl, rfl⟩
      · rw [lookup_eq_names, names_of_scope hold, List.lookup_eq_none_iff] at hfree
        rw [List.map_append, List.nodup_append]
        refine ⟨hfits.nodup, by simp, fun name hname name' hname' heq => ?_⟩
        obtain ⟨b, hb, rfl⟩ := List.mem_map.1 hname
        have hname' : name' = symbol.name := by simpa using hname'
        exact absurd (hfree b hb) (by simp [heq, hname'])
  · -- The symbol was there before, or is the new one.
    rw [symbols_bind, Array.getElem?_push] at hs
    split at hs
    · rename_i hid
      cases hs
      refine ⟨{ sc with bindings := sc.bindings ++ [(symbol.name, t.symbols.size)] }, ?_, ?_⟩
      · rw [scopes_bind, if_pos rfl, hscope]
        rfl
      · rw [hid]
        exact List.mem_append_right _ (List.mem_singleton_self _)
    · obtain ⟨old, hold, hmem⟩ := h.home hs
      rw [scopes_bind, hold]
      split
      · exact ⟨_, rfl, List.mem_append_left _ hmem⟩
      · exact ⟨_, rfl, hmem⟩

/-- Declaring a name, whether it is free or taken. -/
theorem Arena.declare (h : t.Arena) (hscope : t.scopes[scope]? = some sc) (symbol : Symbol) :
    (t.declare scope symbol).2.Arena := by
  rw [declare_eq]
  cases hfree : t.lookup scope symbol.name with
  | some previous => exact h
  | none => exact h.bind hscope hfree

theorem declare_lasts (t : SymbolTable) (scope : ScopeId) (symbol : Symbol) :
    Lasts anyFile t (t.declare scope symbol).2 := by
  rw [declare_eq]
  cases t.lookup scope symbol.name with
  | some previous => exact .refl t
  | none => exact bind_lasts t scope symbol

end

/-- Tables with the same symbols, whose scopes bind the same names. -/
theorem Arena.of_same {live : FileId → Prop} (h : t.Arena) (hk : Lasts live t t')
    (hsymbols : t'.symbols = t.symbols) (hprelude : ∀ scope, t'.prelude = some scope → t'.IsFile scope)
    (hscopes : ∀ {i : ScopeId} {sc' : Scope}, t'.scopes[i]? = some sc' → ∃ sc, t.scopes[i]? = some sc ∧
      sc'.kind = sc.kind ∧ sc'.parent = sc.parent ∧ sc'.file = sc.file ∧ sc'.bindings = sc.bindings ∧
      (∀ im ∈ sc'.imports, im ∈ sc.imports ∨ sc.kind = .file ∧ t.IsFile im.scope) ∧
      (sc.kind = .file → sc'.closed = sc.closed)) : t'.Arena := by
  refine ⟨fun {i sc'} hs => ?_, fun {id symbol} hs => ?_, hprelude⟩
  · obtain ⟨sc, hsc, hkind, hparent, hfile, hbindings, himports, hclosed⟩ := hscopes hs
    have hfits := (h.fits hsc).lasts hk
    refine ⟨hbindings ▸ hfits.bound, hbindings ▸ hfits.nodup, ?_, ?_, fun im him => ?_,
      hfile ▸ hfits.file, fun hsc' => ?_⟩
    · rw [hparent, hfile]
      exact hfits.parent
    · rw [hparent, hkind]
      exact hfits.top
    · rw [hkind]
      obtain him | ⟨hsc, him⟩ := himports im him
      · exact hfits.imports im him
      · exact ⟨hsc, hk.isFile him⟩
    · rw [hkind] at hsc'
      exact (hclosed hsc').trans (hfits.left_open hsc')
  · rw [hsymbols] at hs
    obtain ⟨sc, hsc, hmem⟩ := h.home hs
    obtain ⟨sc', hsc', -⟩ := hk.scopes hsc
    obtain ⟨sc₀, hsc₀, -, -, -, hbindings, -⟩ := hscopes hsc'
    rw [hsc] at hsc₀
    cases hsc₀
    exact ⟨sc', hsc', hbindings ▸ hmem⟩

theorem addImport_lasts (t : SymbolTable) (scope imported : ScopeId) (seq : Nat) :
    Lasts anyFile t (t.addImport scope imported seq) where
  files := Nat.le_refl _
  symbols := id
  scopes {i sc} h := by
    rw [scopes_addImport, h]
    split <;> exact ⟨_, rfl, rfl, rfl, rfl, fun _ => rfl⟩

theorem Arena.addImport {imported : ScopeId} (h : t.Arena) (hscope : t.IsFile scope)
    (himported : t.IsFile imported) (seq : Nat) : (t.addImport scope imported seq).Arena := by
  have hlasts := addImport_lasts t scope imported seq
  refine h.of_same hlasts rfl (fun scope hs => hlasts.isFile (h.prelude scope hs))
    fun {i sc'} hs => ?_
  rw [scopes_addImport] at hs
  split at hs
  · rename_i hi
    obtain ⟨sc, hsc, rfl⟩ := Option.map_eq_some_iff.1 hs
    obtain ⟨sc₀, hsc₀, hkind⟩ := hscope
    rw [hi] at hsc
    rw [hsc] at hsc₀
    cases hsc₀
    refine ⟨sc, hi ▸ hsc, rfl, rfl, rfl, rfl, fun im him => ?_, fun _ => rfl⟩
    obtain him | him := List.mem_append.1 him
    · exact .inl him
    · rw [List.mem_singleton.1 him]
      exact .inr ⟨hkind, himported⟩
  · exact ⟨sc', hs, rfl, rfl, rfl, rfl, fun im him => .inl him, fun _ => rfl⟩

theorem setPrelude_lasts (t : SymbolTable) (scope : ScopeId) :
    Lasts anyFile t (t.setPrelude scope) :=
  ⟨Nat.le_refl _, id, fun h => ⟨_, h, rfl, rfl, rfl, fun _ => rfl⟩⟩

theorem Arena.setPrelude (h : t.Arena) (hscope : t.IsFile scope) : (t.setPrelude scope).Arena := by
  refine h.of_same (setPrelude_lasts t scope) rfl (fun scope' hs => ?_) fun hs =>
    ⟨_, hs, rfl, rfl, rfl, rfl, fun _ him => .inl him, fun _ => rfl⟩
  cases hs
  exact hscope

theorem closeChildren_lasts (t : SymbolTable) (file : FileId) :
    Lasts (· ≠ file) t (t.closeChildren file) where
  files := Nat.le_refl _
  symbols := id
  scopes {i sc} h := by
    rw [scopes_closeChildren, h]
    refine ⟨_, rfl, ?_⟩
    dsimp only
    split
    · rename_i hclose
      refine ⟨rfl, rfl, rfl, fun hne => absurd ?_ hne⟩
      exact eq_of_beq (Bool.and_eq_true_iff.1 hclose).1
    · exact ⟨rfl, rfl, rfl, fun _ => rfl⟩

theorem Arena.closeChildren (h : t.Arena) (file : FileId) : (t.closeChildren file).Arena := by
  have hlasts := closeChildren_lasts t file
  refine h.of_same hlasts rfl (fun scope hs => hlasts.isFile (h.prelude scope hs))
    fun {i sc'} hs => ?_
  rw [scopes_closeChildren] at hs
  obtain ⟨sc, hsc, rfl⟩ := Option.map_eq_some_iff.1 hs
  refine ⟨sc, hsc, ?_⟩
  split
  · rename_i hclose
    refine ⟨rfl, rfl, rfl, rfl, fun im him => .inl him, fun hkind => ?_⟩
    rw [hkind] at hclose
    simp at hclose
  · exact ⟨rfl, rfl, rfl, rfl, fun im him => .inl him, fun _ => rfl⟩

/-! ## Names and symbols -/

/-- Bindings of one symbol are the same binding of the same scope. -/
theorem Arena.distinct (h : t.Arena) {i' : ScopeId} {sc' : Scope} {b b' : String × SymbolId}
    (hs : t.scopes[i]? = some sc) (hb : b ∈ sc.bindings) (hs' : t.scopes[i']? = some sc')
    (hb' : b' ∈ sc'.bindings) (hid : b.2 = b'.2) : i = i' ∧ b = b' := by
  obtain ⟨symbol, hsymbol, hname, hscope⟩ := (h.fits hs).bound b hb
  obtain ⟨symbol', hsymbol', hname', hscope'⟩ := (h.fits hs').bound b' hb'
  rw [hid, hsymbol'] at hsymbol
  cases hsymbol
  exact ⟨hscope.symm.trans hscope', Prod.ext (hname.symm.trans hname') hid⟩

/-- Every symbol is bound exactly once. -/
theorem Arena.once (h : t.Arena) {id : Nat} (hid : id < t.symbols.size) :
    ∃! x : ScopeId × String, ∃ sc, t.scopes[x.1]? = some sc ∧ (x.2, id) ∈ sc.bindings := by
  obtain ⟨sc, hsc, hmem⟩ := h.home (Array.getElem?_eq_getElem hid)
  refine ⟨(t.symbols[id].scope, t.symbols[id].name), ⟨sc, hsc, hmem⟩, ?_⟩
  rintro ⟨i, name⟩ ⟨sc', hsc', hmem'⟩
  obtain ⟨hi, hb⟩ := h.distinct hsc' hmem' hsc hmem rfl
  exact Prod.ext hi (congrArg Prod.fst hb)

/-- Looking up a name comes to an end: fuel for the scopes around a scope is enough. -/
theorem Arena.resolveFrom_enough (h : t.Arena) (name : String) (seq : Nat) {fuel fuel' : Nat}
    (i : Nat) (hfuel : i < fuel) (hfuel' : i < fuel') :
    t.resolveFrom name seq fuel (some i) = t.resolveFrom name seq fuel' (some i) :=
  SymbolTable.resolveFrom_enough (fun hs p hp => ((h.fits hs).parent p hp).1) i fuel fuel' hfuel hfuel'

/-- What a name resolves to is a symbol of that name. -/
theorem Arena.resolve_symbol (h : t.Arena) {name : String} {seq : Nat} {id : SymbolId}
    (hid : t.resolve scope name seq = some id) :
    ∃ symbol, t.symbols[id]? = some symbol ∧ symbol.name = name := by
  obtain ⟨i, sc, hsc, hmem⟩ := mem_of_resolve hid
  obtain ⟨symbol, hsymbol, hname, -⟩ := (h.fits hsc).bound _ hmem
  exact ⟨symbol, hsymbol, hname⟩

end SymbolTable

end Scaffold
