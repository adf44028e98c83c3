import Scaffold.Proofs.Likeness
import Scaffold.Proofs.SymbolTable
import Scaffold.Session

/-!
# Sessions in step

Two sessions are in step if what belongs together by `Numbers` looks the same: scopes bind the same
names to symbols that belong together and lie in scopes that do, and symbols are of one kind and from
one file. There may be anything else in the two sessions.

* `TablesAlike.resolve`: a name has the same meaning from two places that belong together.
* `TablesAlike.addScope`, `TablesAlike.bind`: the tables stay alike, with new numbers that belong
  together.
-/

namespace Scaffold

open Source (Numbers)

namespace Source.Numbers

variable {N : Numbers} {f : FileId}

/-- A number belongs to one number at most, and to one file, and places keep their order. -/
structure OneToOne (N : Numbers) : Prop where
  file : ∀ {f f' g g'}, N.file f f' → N.file g g' → (f = g ↔ f' = g')
  scope : ∀ {f c c' g d d'}, N.scope f c c' → N.scope g d d' → (c = d ↔ c' = d')
  home : ∀ {f g c c' d'}, N.scope f c c' → N.scope g c d' → f = g
  seq : ∀ {f q q' p p'}, N.seq f q q' → N.seq f p p' → (q < p ↔ q' < p')
  symbol : ∀ {f i i' g j j'}, N.symbol f i i' → N.symbol g j j' → (i = j ↔ i' = j')
  node : ∀ {i i' j j'}, N.node i i' → N.node j j' → (i = j ↔ i' = j')

/-- No numbers belong together. -/
def none : Numbers where
  file _ _ := False
  scope _ _ _ := False
  seq _ _ _ := False
  symbol _ _ _ := False
  node _ _ := False

theorem none_oneToOne : none.OneToOne :=
  ⟨fun h => h.elim, fun h => h.elim, fun h => h.elim, fun h => h.elim, fun h => h.elim,
    fun h => h.elim⟩

def addFile (N : Numbers) (f f' : FileId) : Numbers :=
  { N with file := fun g g' => N.file g g' ∨ g = f ∧ g' = f' }

def addScope (N : Numbers) (f : FileId) (c c' : ScopeId) : Numbers :=
  { N with scope := fun g d d' => N.scope g d d' ∨ g = f ∧ d = c ∧ d' = c' }

/-- Two more places in the order of a file. -/
def addSeq (N : Numbers) (f : FileId) (q q' : Nat) : Numbers :=
  { N with seq := fun g p p' => N.seq g p p' ∨ g = f ∧ p = q ∧ p' = q' }

def addSymbol (N : Numbers) (f : FileId) (i i' : SymbolId) : Numbers :=
  { N with symbol := fun g j j' => N.symbol g j j' ∨ g = f ∧ j = i ∧ j' = i' }

def addNode (N : Numbers) (i i' : NodeId) : Numbers :=
  { N with node := fun j j' => N.node j j' ∨ j = i ∧ j' = i' }

theorem le_addFile (f f' : FileId) : N.Le (N.addFile f f') :=
  ⟨.inl, id, id, id, id⟩

theorem le_addScope (f : FileId) (c c' : ScopeId) : N.Le (N.addScope f c c') :=
  ⟨id, .inl, id, id, id⟩

theorem le_addSeq (f : FileId) (q q' : Nat) : N.Le (N.addSeq f q q') :=
  ⟨id, id, .inl, id, id⟩

theorem le_addSymbol (f : FileId) (i i' : SymbolId) : N.Le (N.addSymbol f i i') :=
  ⟨id, id, id, .inl, id⟩

theorem le_addNode (i i' : NodeId) : N.Le (N.addNode i i') :=
  ⟨id, id, id, id, .inl⟩

namespace OneToOne

variable (h : N.OneToOne)

include h

theorem addFile {f f' : FileId} (hnew : ∀ {g g'}, N.file g g' → g ≠ f ∧ g' ≠ f') :
    (N.addFile f f').OneToOne where
  file := by
    rintro g g' k k' (hg | ⟨rfl, rfl⟩) (hk | ⟨rfl, rfl⟩)
    · exact h.file hg hk
    · simp [hnew hg]
    · simp [Ne.symm (hnew hk).1, Ne.symm (hnew hk).2]
    · simp
  scope := h.scope
  home := h.home
  seq := h.seq
  symbol := h.symbol
  node := h.node

theorem addScope {c c' : ScopeId} (hnew : ∀ {g d d'}, N.scope g d d' → d ≠ c ∧ d' ≠ c') :
    (N.addScope f c c').OneToOne where
  file := h.file
  scope := by
    rintro g d d' k e e' (hd | ⟨rfl, rfl, rfl⟩) (he | ⟨rfl, rfl, rfl⟩)
    · exact h.scope hd he
    · simp [hnew hd]
    · simp [Ne.symm (hnew he).1, Ne.symm (hnew he).2]
    · simp
  home := by
    rintro g k d d' e' (hd | ⟨rfl, rfl, rfl⟩) (he | ⟨rfl, hde, rfl⟩)
    · exact h.home hd he
    · exact absurd hde (hnew hd).1
    · exact absurd rfl (hnew he).1
    · rfl
  seq := h.seq
  symbol := h.symbol
  node := h.node

theorem addSeq {q q' : Nat} (hnew : ∀ {p p'}, N.seq f p p' → p < q ∧ p' < q') :
    (N.addSeq f q q').OneToOne where
  file := h.file
  scope := h.scope
  home := h.home
  seq := by
    rintro g p p' r r' (hp | ⟨rfl, rfl, rfl⟩) (hr | ⟨hg, rfl, rfl⟩)
    · exact h.seq hp hr
    · subst hg
      have := hnew hp
      omega
    · have := hnew hr
      omega
    · omega
  symbol := h.symbol
  node := h.node

theorem addSymbol {i i' : SymbolId} (hnew : ∀ {g j j'}, N.symbol g j j' → j ≠ i ∧ j' ≠ i') :
    (N.addSymbol f i i').OneToOne where
  file := h.file
  scope := h.scope
  home := h.home
  seq := h.seq
  symbol := by
    rintro g j j' k e e' (hj | ⟨rfl, rfl, rfl⟩) (he | ⟨rfl, rfl, rfl⟩)
    · exact h.symbol hj he
    · simp [hnew hj]
    · simp [Ne.symm (hnew he).1, Ne.symm (hnew he).2]
    · simp
  node := h.node

theorem addNode {i i' : NodeId} (hnew : ∀ {j j'}, N.node j j' → j ≠ i ∧ j' ≠ i') :
    (N.addNode i i').OneToOne where
  file := h.file
  scope := h.scope
  home := h.home
  seq := h.seq
  symbol := h.symbol
  node := by
    rintro j j' e e' (hj | ⟨rfl, rfl⟩) (he | ⟨rfl, rfl⟩)
    · exact h.node hj he
    · simp [hnew hj]
    · simp [Ne.symm (hnew he).1, Ne.symm (hnew he).2]
    · simp

end OneToOne

end Source.Numbers

namespace SymbolTable

variable {N N' : Numbers} {exact : Prop} {t t' u u' : SymbolTable} {f : FileId}
  {c c' : ScopeId} {i i' : SymbolId} {q q' : Nat} {name : String}

/-! ## Tables that are alike -/

/-- Symbols of one name, file and kind. Positions are the same if `exact` holds. -/
structure SymbolsAlike (N : Numbers) (exact : Prop) (f : FileId) (y y' : Symbol) : Prop where
  name : y.name = y'.name
  file : y.file = f
  file' : N.file f y'.file
  kind : y.kind = y'.kind
  path : y.path = y'.path
  pos : exact → y.pos = y'.pos
  node : y.kind ≠ .local → N.node y.node y'.node

/-- The places of two symbols belong together. -/
def PlacesAlike (N : Numbers) (f : FileId) (t t' : SymbolTable) (i i' : SymbolId) : Prop :=
  ∃ y y', t.symbols[i]? = some y ∧ t'.symbols[i']? = some y' ∧ N.seq f y.seq y'.seq

/-- Scopes that bind the same names and see the same files. Where the order of names matters, their
places belong together. -/
structure ScopesAlike (N : Numbers) (f : FileId) (t t' : SymbolTable) (c c' : ScopeId)
    (s s' : Scope) : Prop where
  kind : s.kind = s'.kind
  parent : Option.Rel (fun p p' => p < c ∧ p' < c' ∧ N.scope f p p') s.parent s'.parent
  lookup : ∀ name, Option.Rel
    (fun i i' => N.symbol f i i' ∧ (s.kind = .block → PlacesAlike N f t t' i i'))
    (s.lookup name) (s'.lookup name)
  imports : List.Forall₂ (fun i i' => N.seq f i.seq i'.seq ∧ ∃ g, N.scope g i.scope i'.scope)
    s.imports s'.imports

/-- What belongs together is there and alike. -/
structure TablesAlike (N : Numbers) (exact : Prop) (t t' : SymbolTable) : Prop where
  files : ∀ {f f'}, N.file f f' → f < t.files.size ∧ f' < t'.files.size
  scopes : ∀ {f c c'}, N.scope f c c' →
    ∃ s s', t.scopes[c]? = some s ∧ t'.scopes[c']? = some s' ∧ ScopesAlike N f t t' c c' s s'
  symbols : ∀ {f i i'}, N.symbol f i i' →
    ∃ y y', t.symbols[i]? = some y ∧ t'.symbols[i']? = some y' ∧ SymbolsAlike N exact f y y'
  prelude : Option.Rel (fun c c' => ∃ g, N.scope g c c') t.prelude t'.prelude

/-! ## The meaning of names -/

theorem relOption_or {α β : Type} {R : α → β → Prop} {a c : Option α} {b d : Option β}
    (h : Option.Rel R a b) (h' : Option.Rel R c d) : Option.Rel R (a.or c) (b.or d) := by
  cases h with
  | none => exact h'
  | some h => exact .some h

theorem resolveIn_eq (t : SymbolTable) (s : Scope) (name : String) (q : Nat) :
    t.resolveIn s name q = ((s.lookup name).filter fun i =>
        s.kind != .block || (t.symbols[i]?.any (·.seq < q))).or
      (if s.kind == .file then (s.imports.filter (·.seq < q)).findSome? fun i => t.lookup i.scope name
        else none) := by
  unfold resolveIn
  dsimp only
  split
  · rename_i h
    rw [h, Option.some_or]
  · rename_i h
    rw [h, Option.none_or]

namespace TablesAlike

/-- A name is bound in two scopes that belong together, or in none. -/
theorem lookup (h : TablesAlike N exact t t') (hc : N.scope f c c') (name : String) :
    Option.Rel N.Symbols (t.lookup c name) (t'.lookup c' name) := by
  obtain ⟨s, s', hs, hs', hscope⟩ := h.scopes hc
  rw [SymbolTable.lookup, SymbolTable.lookup, hs, hs']
  exact Source.relOption_mono (fun _ _ hi => ⟨f, hi.1⟩) (hscope.lookup name)

/-- The files that a scope sees bind a name alike. -/
theorem imported (h : TablesAlike N exact t t') (hN : N.OneToOne) (hq : N.seq f q q')
    (name : String) {is is' : List ScopeImport}
    (his : List.Forall₂ (fun i i' => N.seq f i.seq i'.seq ∧ ∃ g, N.scope g i.scope i'.scope) is is') :
    Option.Rel N.Symbols ((is.filter (·.seq < q)).findSome? fun i => t.lookup i.scope name)
      ((is'.filter (·.seq < q')).findSome? fun i => t'.lookup i.scope name) := by
  induction his with
  | nil => exact .none
  | @cons i i' _ _ hi _ ih =>
    obtain ⟨hseq, g, hscope⟩ := hi
    have horder := hN.seq hseq hq
    by_cases hlt : i.seq < q
    · have hlt' := horder.1 hlt
      have hlookup := h.lookup hscope name
      rw [List.filter_cons_of_pos (by simpa using hlt), List.filter_cons_of_pos (by simpa using hlt'),
        List.findSome?_cons, List.findSome?_cons]
      generalize t.lookup i.scope name = r, t'.lookup i'.scope name = r' at hlookup
      cases hlookup with
      | none => exact ih
      | some hr => exact .some hr
    · have hlt' : ¬ i'.seq < q' := fun hlt' => hlt (horder.2 hlt')
      rw [List.filter_cons_of_neg (by simpa using hlt), List.filter_cons_of_neg (by simpa using hlt')]
      exact ih

theorem resolveIn (h : TablesAlike N exact t t') (hN : N.OneToOne) {s s' : Scope}
    (hs : ScopesAlike N f t t' c c' s s') (hq : N.seq f q q') (name : String) :
    Option.Rel N.Symbols (t.resolveIn s name q) (t'.resolveIn s' name q') := by
  rw [resolveIn_eq, resolveIn_eq, ← hs.kind]
  refine relOption_or ?_ ?_
  · have hlookup := hs.lookup name
    generalize s.lookup name = l, s'.lookup name = l' at hlookup
    cases hlookup with
    | none => exact .none
    | @some i i' hi =>
      have hvisible : (s.kind != .block || (t.symbols[i]?.any (·.seq < q)))
          = (s.kind != .block || (t'.symbols[i']?.any (·.seq < q'))) := by
        by_cases hblock : s.kind = .block
        · obtain ⟨y, y', hy, hy', hseq⟩ := hi.2 hblock
          simp [hblock, hy, hy', hN.seq hseq hq]
        · rw [bne_iff_ne.2 hblock, Bool.true_or, Bool.true_or]
      rw [Option.filter_some, Option.filter_some, hvisible]
      split
      · exact .some ⟨f, hi.1⟩
      · exact .none
  · split
    · exact h.imported hN hq name hs.imports
    · exact .none

theorem resolveFrom (h : TablesAlike N exact t t') (hN : N.OneToOne) (hq : N.seq f q q')
    (name : String) : ∀ {c c'}, N.scope f c c' → ∀ fuel fuel', c < fuel → c' < fuel' →
    Option.Rel N.Symbols (t.resolveFrom name q fuel (some c))
      (t'.resolveFrom name q' fuel' (some c')) := by
  intro c
  induction c using Nat.strongRecOn with
  | _ c ih =>
    intro c' hc fuel fuel' hfuel hfuel'
    obtain ⟨fuel, rfl⟩ := Nat.exists_eq_add_of_lt hfuel
    obtain ⟨fuel', rfl⟩ := Nat.exists_eq_add_of_lt hfuel'
    obtain ⟨s, s', hs, hs', hscope⟩ := h.scopes hc
    rw [resolveFrom_succ, resolveFrom_succ, hs, hs']
    refine relOption_or (h.resolveIn hN hscope hq name) ?_
    have hparent := hscope.parent
    generalize s.parent = p, s'.parent = p' at hparent
    cases hparent with
    | none =>
      rw [resolveFrom_none, resolveFrom_none]
      exact .none
    | some hp =>
      obtain ⟨hlt, hlt', hp⟩ := hp
      exact ih _ hlt hp _ _ (Nat.lt_add_right _ hlt) (Nat.lt_add_right _ hlt')

/-- A name means symbols that belong together, or nothing, from places that belong together. -/
theorem resolve (h : TablesAlike N exact t t') (hN : N.OneToOne) (hp : N.Place c q c' q')
    (name : String) : Option.Rel N.Symbols (t.resolve c name q) (t'.resolve c' name q') := by
  obtain ⟨f, hc, hq⟩ := hp
  obtain ⟨s, s', hs, hs', -⟩ := h.scopes hc
  have hlt := (Array.getElem?_eq_some_iff.1 hs).1
  have hlt' := (Array.getElem?_eq_some_iff.1 hs').1
  rw [resolve_eq, resolve_eq]
  refine relOption_or (h.resolveFrom hN hq name hc _ _ (Nat.lt_succ_of_lt hlt)
    (Nat.lt_succ_of_lt hlt')) ?_
  have hprelude := h.prelude
  generalize t.prelude = p, t'.prelude = p' at hprelude
  cases hprelude with
  | none => exact .none
  | some hp => exact hp.elim fun _ hc => h.lookup hc name

end TablesAlike

/-! ## Growth -/

/-- Scopes stay alike when numbers and symbols are added. -/
theorem ScopesAlike.mono {s s' : Scope} (h : ScopesAlike N f t t' c c' s s') (hle : N.Le N')
    (hsymbols : ∀ {i : SymbolId} {y}, t.symbols[i]? = some y → u.symbols[i]? = some y)
    (hsymbols' : ∀ {i : SymbolId} {y}, t'.symbols[i]? = some y → u'.symbols[i]? = some y) :
    ScopesAlike N' f u u' c c' s s' where
  kind := h.kind
  parent := Source.relOption_mono (fun _ _ hp => ⟨hp.1, hp.2.1, hle.scope hp.2.2⟩) h.parent
  lookup name := by
    refine Source.relOption_mono (fun _ _ hi => ⟨hle.symbol hi.1, fun hblock => ?_⟩) (h.lookup name)
    obtain ⟨y, y', hy, hy', hseq⟩ := hi.2 hblock
    exact ⟨y, y', hsymbols hy, hsymbols' hy', hle.seq hseq⟩
  imports := h.imports.imp fun _ _ hi => ⟨hle.seq hi.1, hi.2.imp fun _ => hle.scope⟩

theorem SymbolsAlike.mono {y y' : Symbol} (h : SymbolsAlike N exact f y y') (hle : N.Le N') :
    SymbolsAlike N' exact f y y' :=
  ⟨h.name, h.file, hle.file h.file', h.kind, h.path, h.pos, fun hk => hle.node (h.node hk)⟩

theorem lt_of_scope {s : Scope} (h : t.scopes[c]? = some s) : c < t.scopes.size :=
  (Array.getElem?_eq_some_iff.1 h).1

theorem lt_of_symbol {y : Symbol} (h : t.symbols[i]? = some y) : i < t.symbols.size :=
  (Array.getElem?_eq_some_iff.1 h).1

namespace TablesAlike

variable (h : TablesAlike N exact t t')

include h

/-- Numbers of scopes that are not there yet belong to nothing. -/
theorem new_scope {g : FileId} {d d' : ScopeId} (hd : N.scope g d d') :
    d ≠ t.scopes.size ∧ d' ≠ t'.scopes.size := by
  obtain ⟨s, s', hs, hs', -⟩ := h.scopes hd
  exact ⟨Nat.ne_of_lt (lt_of_scope hs), Nat.ne_of_lt (lt_of_scope hs')⟩

/-- Numbers of symbols that are not there yet belong to nothing. -/
theorem new_symbol {g : FileId} {j j' : SymbolId} (hj : N.symbol g j j') :
    j ≠ t.symbols.size ∧ j' ≠ t'.symbols.size := by
  obtain ⟨y, y', hy, hy', -⟩ := h.symbols hj
  exact ⟨Nat.ne_of_lt (lt_of_symbol hy), Nat.ne_of_lt (lt_of_symbol hy')⟩

/-- More numbers belong together that the tables know nothing of. -/
theorem more (hle : N.Le N') (hfile : ∀ {f f'}, N'.file f f' → N.file f f')
    (hscope : ∀ {f c c'}, N'.scope f c c' → N.scope f c c')
    (hsymbol : ∀ {f i i'}, N'.symbol f i i' → N.symbol f i i') : TablesAlike N' exact t t' where
  files hf := h.files (hfile hf)
  scopes hc := by
    obtain ⟨s, s', hs, hs', hscopes⟩ := h.scopes (hscope hc)
    exact ⟨s, s', hs, hs', hscopes.mono hle id id⟩
  symbols hi := by
    obtain ⟨y, y', hy, hy', hsymbols⟩ := h.symbols (hsymbol hi)
    exact ⟨y, y', hy, hy', hsymbols.mono hle⟩
  prelude := Source.relOption_mono (fun _ _ hc => hc.imp fun _ => hle.scope) h.prelude

theorem addFile (path : Path) : TablesAlike (N.addFile t.files.size t'.files.size) exact
    (t.addFile path).2 (t'.addFile path).2 where
  files := by
    simp only [SymbolTable.addFile, Array.size_push]
    rintro f f' (hf | ⟨rfl, rfl⟩)
    · exact ⟨Nat.lt_succ_of_lt (h.files hf).1, Nat.lt_succ_of_lt (h.files hf).2⟩
    · exact ⟨Nat.lt_succ_self _, Nat.lt_succ_self _⟩
  scopes hc := by
    obtain ⟨s, s', hs, hs', hscopes⟩ := h.scopes hc
    exact ⟨s, s', hs, hs', hscopes.mono (N.le_addFile _ _) id id⟩
  symbols hi := by
    obtain ⟨y, y', hy, hy', hsymbols⟩ := h.symbols hi
    exact ⟨y, y', hy, hy', hsymbols.mono (N.le_addFile _ _)⟩
  prelude := h.prelude

theorem addScope (kind : ScopeKind) {parent parent' : Option ScopeId}
    (hparent : Option.Rel (N.scope f) parent parent') (file file' : FileId) :
    TablesAlike (N.addScope f t.scopes.size t'.scopes.size) exact
      (t.addScope kind parent file).2 (t'.addScope kind parent' file').2 where
  files := h.files
  scopes := by
    rintro g d d' (hd | ⟨rfl, rfl, rfl⟩)
    · obtain ⟨s, s', hs, hs', hscopes⟩ := h.scopes hd
      refine ⟨s, s', ?_, ?_, hscopes.mono (N.le_addScope _ _ _) id id⟩
      · rw [scopes_addScope, if_neg (h.new_scope hd).1, hs]
      · rw [scopes_addScope, if_neg (h.new_scope hd).2, hs']
    · rw [scopes_addScope, scopes_addScope, if_pos rfl, if_pos rfl]
      refine ⟨_, _, rfl, rfl, rfl, ?_, fun _ => .none, .nil⟩
      refine Source.relOption_mono (fun p p' hp => ?_) hparent
      obtain ⟨s, s', hs, hs', -⟩ := h.scopes hp
      exact ⟨lt_of_scope hs, lt_of_scope hs', .inl hp⟩
  symbols hi := by
    obtain ⟨y, y', hy, hy', hsymbols⟩ := h.symbols hi
    exact ⟨y, y', hy, hy', hsymbols.mono (N.le_addScope _ _ _)⟩
  prelude := Source.relOption_mono (fun _ _ hc => hc.imp fun _ => .inl) h.prelude

/-- Symbols of one name are bound in scopes that belong together. In a block, their places have to
belong together as well. -/
theorem bind (hN : N.OneToOne) (hc : N.scope f c c') {y y' : Symbol}
    (hy : SymbolsAlike N exact f y y')
    (hseq : (∀ s, t.scopes[c]? = some s → s.kind ≠ .block) ∨ N.seq f y.seq y'.seq) :
    TablesAlike (N.addSymbol f t.symbols.size t'.symbols.size) exact (t.bind c y) (t'.bind c' y')
    where
  files := h.files
  scopes := by
    intro g d d' hd
    obtain ⟨s, s', hs, hs', hscopes⟩ := h.scopes hd
    have hmore := hscopes.mono (N.le_addSymbol f t.symbols.size t'.symbols.size)
      (fun hy => symbols_bind_old t c y hy) (fun hy => symbols_bind_old t' c' y' hy)
    rw [scopes_bind, scopes_bind, hs, hs']
    by_cases hdc : d = c
    · have hdc' := (hN.scope hd hc).1 hdc
      subst hdc
      obtain rfl := hN.home hd hc
      rw [if_pos rfl, if_pos hdc']
      refine ⟨_, _, rfl, rfl, hmore.kind, hmore.parent, fun name => ?_, hmore.imports⟩
      simp only [Scope.lookup, List.lookup_append, ← hy.name]
      refine relOption_or (hmore.lookup name) ?_
      by_cases hsame : name = y.name
      · simp only [hsame, List.lookup_cons_self]
        refine .some ⟨.inr ⟨rfl, rfl, rfl⟩, fun hblock => ?_⟩
        exact ⟨_, _, symbols_bind_new t d y, symbols_bind_new t' c' y',
          hseq.resolve_left fun hplain => hplain s hs hblock⟩
      · rw [List.lookup_cons, List.lookup_cons, beq_eq_false_iff_ne.2 hsame]
        exact .none
    · have hdc' : d' ≠ c' := fun h => hdc ((hN.scope hd hc).2 h)
      rw [if_neg hdc, if_neg hdc']
      exact ⟨s, s', rfl, rfl, hmore⟩
  symbols := by
    rintro g j j' (hj | ⟨rfl, rfl, rfl⟩)
    · obtain ⟨z, z', hz, hz', hsymbols⟩ := h.symbols hj
      exact ⟨z, z', symbols_bind_old t c y hz, symbols_bind_old t' c' y' hz',
        hsymbols.mono (N.le_addSymbol _ _ _)⟩
    · exact ⟨_, _, symbols_bind_new t c y, symbols_bind_new t' c' y',
        hy.name, hy.file, hy.file', hy.kind, hy.path, hy.pos, hy.node⟩
  prelude := h.prelude

theorem closeChildren (file file' : FileId) :
    TablesAlike N exact (t.closeChildren file) (t'.closeChildren file') where
  files := h.files
  scopes hc := by
    obtain ⟨s, s', hs, hs', hscopes⟩ := h.scopes hc
    rw [scopes_closeChildren, scopes_closeChildren, hs, hs']
    refine ⟨_, _, rfl, rfl, ?_⟩
    dsimp only
    have hclosed : ∀ (s : Scope) (b : Bool),
        (if b then { s with closed := true } else s) = { s with closed := b || s.closed } := by
      intro s b
      cases b <;> rfl
    rw [hclosed, hclosed]
    exact ⟨hscopes.kind, hscopes.parent, hscopes.lookup, hscopes.imports⟩
  symbols := h.symbols
  prelude := h.prelude

end TablesAlike

end SymbolTable

/-! ## Sessions -/

theorem Source.Document.Alike.mono {N N' : Numbers} {L L' : Source.Likeness} {d d' : Source.Document}
    (h : d.Alike N L d') (hle : N.Le N') (hL : L.Le L') : d.Alike N' L' d' :=
  ⟨hle.file h.file, h.path, h.origin, hle.scope h.scope, h.imports,
    h.decls.imp fun _ _ h => h.mono hL, h.shapes.imp fun _ _ h => h.mono hL⟩

/-- Two sessions are in step: they are for one target, what belongs together looks the same, and the
files of symbols that belong together are both finished, with documents that are alike, or both are
not. If `exact` holds, the second session found the same problems as the first after those it had
`before`. -/
structure Session.InStep (N : Numbers) (exact : Prop) (before : Diagnostics) (s s' : Session) :
    Prop where
  numbers : N.OneToOne
  seq : exact → ∀ {f q q'}, N.seq f q q' → q = q'
  platform : s.platform = s'.platform
  tables : s.symbols.TablesAlike N exact s'.symbols
  nodes : ∀ {i i'}, N.node i i' → i < s.nextNode ∧ i' < s'.nextNode
  documents : ∀ {f i i'}, N.symbol f i i' → ∀ y, s.symbols.symbols[i]? = some y →
    Option.Rel (fun d d' => d.Alike N (N.bound exact) d') (s.imports.get? y.path)
      (s'.imports.get? y.path)
  diagnostics : exact → s'.diagnostics = before ++ s.diagnostics

namespace Session.InStep

open SymbolTable

variable {N : Numbers} {exact : Prop} {before : Diagnostics} {s s' : Session} {f : FileId}
  {c c' : ScopeId}

theorem documents_mono {N' : Numbers} (hle : N.Le N') {p : Path}
    (hp : Option.Rel (fun d d' => d.Alike N (N.bound exact) d') (s.imports.get? p)
      (s'.imports.get? p)) :
    Option.Rel (fun d d' => d.Alike N' (N'.bound exact) d') (s.imports.get? p)
      (s'.imports.get? p) :=
  Source.relOption_mono (fun _ _ hd => hd.mono hle hle.bound) hp

/-- Sessions for one target are in step as long as nothing belongs together in them. -/
theorem start (hplatform : s.platform = s'.platform) (hprelude : s.symbols.prelude = none)
    (hprelude' : s'.symbols.prelude = none)
    (hdiagnostics : exact → s'.diagnostics = before ++ s.diagnostics) :
    s.InStep .none exact before s' where
  numbers := Numbers.none_oneToOne
  seq _ := fun h => h.elim
  platform := hplatform
  tables := by
    refine ⟨fun h => h.elim, fun h => h.elim, fun h => h.elim, ?_⟩
    rw [hprelude, hprelude']
    exact .none
  nodes h := h.elim
  documents h := h.elim
  diagnostics := hdiagnostics

variable (h : s.InStep N exact before s')

include h

theorem report {ds ds' : Diagnostics} (hds : exact → ds = ds') :
    Session.InStep N exact before { s with diagnostics := s.diagnostics ++ ds }
      { s' with diagnostics := s'.diagnostics ++ ds' } :=
  { h with
    diagnostics := fun hexact => by
      rw [h.diagnostics hexact, hds hexact, List.append_assoc] }

theorem addSeq {q q' : Nat} (hnew : ∀ {p p'}, N.seq f p p' → p < q ∧ p' < q')
    (hq : exact → q = q') : s.InStep (N.addSeq f q q') exact before s' where
  numbers := h.numbers.addSeq hnew
  seq hexact := by
    rintro g p p' (hp | ⟨rfl, rfl, rfl⟩)
    · exact h.seq hexact hp
    · exact hq hexact
  platform := h.platform
  tables := h.tables.more (N.le_addSeq f q q') id id id
  nodes := h.nodes
  documents hi y hy := documents_mono (N.le_addSeq f q q') (h.documents hi y hy)
  diagnostics := h.diagnostics

theorem takeNode : s.takeNode.2.InStep (N.addNode s.nextNode s'.nextNode) exact before
    s'.takeNode.2 where
  numbers := h.numbers.addNode fun hj =>
    ⟨Nat.ne_of_lt (h.nodes hj).1, Nat.ne_of_lt (h.nodes hj).2⟩
  seq := h.seq
  platform := h.platform
  tables := h.tables.more (N.le_addNode _ _) id id id
  nodes := by
    rintro i i' (hi | ⟨rfl, rfl⟩)
    · exact ⟨Nat.lt_succ_of_lt (h.nodes hi).1, Nat.lt_succ_of_lt (h.nodes hi).2⟩
    · exact ⟨Nat.lt_succ_self _, Nat.lt_succ_self _⟩
  documents hi y hy := documents_mono (N.le_addNode _ _) (h.documents hi y hy)
  diagnostics := h.diagnostics

theorem addFile (path : Path) :
    Session.InStep (N.addFile s.symbols.files.size s'.symbols.files.size) exact before
      { s with symbols := (s.symbols.addFile path).2 }
      { s' with symbols := (s'.symbols.addFile path).2 } where
  numbers := h.numbers.addFile fun hg =>
    ⟨Nat.ne_of_lt (h.tables.files hg).1, Nat.ne_of_lt (h.tables.files hg).2⟩
  seq := h.seq
  platform := h.platform
  tables := h.tables.addFile path
  nodes := h.nodes
  documents hi y hy := documents_mono (N.le_addFile _ _) (h.documents hi y hy)
  diagnostics := h.diagnostics

theorem addScope (kind : ScopeKind) {parent parent' : Option ScopeId}
    (hparent : Option.Rel (N.scope f) parent parent') (file file' : FileId)
    (stack stack' : List ScopeId) :
    Session.InStep (N.addScope f s.symbols.scopes.size s'.symbols.scopes.size) exact before
      { s with symbols := (s.symbols.addScope kind parent file).2, stack }
      { s' with symbols := (s'.symbols.addScope kind parent' file').2, stack := stack' } where
  numbers := h.numbers.addScope h.tables.new_scope
  seq := h.seq
  platform := h.platform
  tables := h.tables.addScope kind hparent file file'
  nodes := h.nodes
  documents hi y hy := documents_mono (N.le_addScope _ _ _) (h.documents hi y hy)
  diagnostics := h.diagnostics

/-- A symbol of a file that is not finished is bound in both sessions. -/
theorem bind (hc : N.scope f c c') {y y' : Symbol} (hy : SymbolsAlike N exact f y y')
    (hseq : (∀ z, s.symbols.scopes[c]? = some z → z.kind ≠ .block) ∨ N.seq f y.seq y'.seq)
    (hreading : s.imports.get? y.path = none ∧ s'.imports.get? y.path = none) :
    Session.InStep (N.addSymbol f s.symbols.symbols.size s'.symbols.symbols.size) exact before
      { s with symbols := s.symbols.bind c y } { s' with symbols := s'.symbols.bind c' y' } where
  numbers := h.numbers.addSymbol h.tables.new_symbol
  seq := h.seq
  platform := h.platform
  tables := h.tables.bind h.numbers hc hy hseq
  nodes := h.nodes
  documents := by
    rintro g i i' (hi | ⟨rfl, rfl, rfl⟩) z hz
    · obtain ⟨w, -, hw, -⟩ := h.tables.symbols hi
      have hwz := (symbols_bind_old s.symbols c y hw).symm.trans hz
      cases hwz
      exact documents_mono (N.le_addSymbol _ _ _) (h.documents hi z hw)
    · have hyz := (symbols_bind_new s.symbols c y).symm.trans hz
      cases hyz
      dsimp only
      rw [hreading.1, hreading.2]
      exact .none
  diagnostics := h.diagnostics

theorem closeChildren (file file' : FileId) :
    Session.InStep N exact before { s with symbols := s.symbols.closeChildren file }
      { s' with symbols := s'.symbols.closeChildren file' } where
  numbers := h.numbers
  seq := h.seq
  platform := h.platform
  tables := h.tables.closeChildren file file'
  nodes := h.nodes
  documents := h.documents
  diagnostics := h.diagnostics

end Session.InStep

end Scaffold
