import Scaffold.Proofs.Binding
import Scaffold.Proofs.ImportTable
import Scaffold.Proofs.Parser.Term
import Scaffold.Source.Parser.Decl

/-!
# What a parser does to the session

`Run env s s'` lists everything that a successful parser can do between two states: read, number a
declaration, bind a name in the innermost scope, work inside a new scope and leave it again, and
load the file of an import. What all parsers preserve is then shown once, by induction on `Run`.

* `Run.advances`: the stack is as before, the places in the file go up, nothing is taken back, and
  names came into no other scope than the innermost one.
* `*_run`: the parsers of statements and declarations do nothing else.
-/

namespace Scaffold

/-- The table is well formed, the open scopes are in it, and documents are where they belong. -/
structure Session.Standing (s : Session) : Prop where
  table : s.symbols.WellFormed
  stack : ∀ c ∈ s.stack, Nat.lt c s.symbols.scopes.size
  held : s.imports.Held

/-- The second session is the first at a later time, with the same scopes open and none of the
scopes there were changed. -/
structure Session.Before (s s' : Session) : Prop where
  stack : s'.stack = s.stack
  platform : s'.platform = s.platform
  diagnostics : ∃ more, s'.diagnostics = s.diagnostics ++ more
  nextNode : s.nextNode ≤ s'.nextNode
  symbols : s.symbols.Grows (fun _ => False) 0 s'.symbols
  kept : s.imports.Kept s'.imports
  standing : s.Standing → s'.Standing

theorem Session.Before.refl (s : Session) : s.Before s :=
  ⟨rfl, rfl, ⟨[], (List.append_nil _).symm⟩, Nat.le_refl _, .refl _, .refl _, id⟩

namespace Source

namespace ParserState

/-- The state inside a new scope. -/
def enter (env : ParserEnv) (kind : ScopeKind) (s : ParserState) : ParserState :=
  { s with session := { s.session with
      symbols := (s.session.symbols.addScope kind (some (s.scope env)) env.file).2
      stack := s.session.symbols.scopes.size :: s.session.stack } }

def leave (s : ParserState) : ParserState :=
  { s with session := { s.session with stack := s.session.stack.tail } }

/-- The symbol of a declaration read here. -/
def symbol (env : ParserEnv) (s : ParserState) (name : String) (kind : SymbolKind) (pos : Position)
    (node : NodeId) : Symbol :=
  { name, kind, file := env.file, path := env.source.path, pos, seq := s.seq, scope := s.scope env
    node }

/-- The state with a symbol bound in the innermost scope. -/
def bind (env : ParserEnv) (s : ParserState) (symbol : Symbol) : ParserState :=
  { s with
    seq := s.seq + 1
    session := { s.session with symbols := s.session.symbols.bind (s.scope env) symbol } }

/-- The state with the file of an import loaded and visible from here on. -/
def addImport (env : ParserEnv) (s : ParserState) (d : Document) (session : Session) :
    ParserState :=
  { s with
    seq := s.seq + 1
    imports := s.imports ++ [d.path]
    session := { session with symbols := session.symbols.addImport env.root d.scope s.seq } }

end ParserState

/-- Everything a successful parser can do. -/
inductive Run (env : ParserEnv) : ParserState → ParserState → Prop where
  | read {s s' : ParserState} {us : List Use} : Reads env s us s' → Run env s s'
  | own (s : ParserState) (id : NodeId) : Run env s { s with owner := id }
  | number (s : ParserState) : Run env s { s with session := s.session.takeNode.2 }
  | bind (s : ParserState) (symbol : Symbol) : symbol.seq = s.seq →
    s.session.symbols.lookup (s.scope env) symbol.name = none →
    (symbol.kind.isType = true → s.scope env = env.root) → symbol.path = env.source.path →
    Run env s (s.bind env symbol)
  | inside {s s' : ParserState} {kind : ScopeKind} : kind ≠ .file →
    Run env (s.enter env kind) s' → Run env s s'.leave
  | load {s : ParserState} {f : SourceFile} {d : Document} {session : Session} :
    env.load f s.session = (.ok d, session) → s.scope env = env.root →
    Run env s (s.addImport env d session)
  | trans {s s' s'' : ParserState} : Run env s s' → Run env s' s'' → Run env s s''

/-- The second state is the first at a later time, with the same scopes open and names bound in the
innermost one only. -/
structure Advances (env : ParserEnv) (s s' : ParserState) : Prop where
  stack : s'.session.stack = s.session.stack
  platform : s'.session.platform = s.session.platform
  diagnostics : ∃ more, s'.session.diagnostics = s.session.diagnostics ++ more
  nextNode : s.session.nextNode ≤ s'.session.nextNode
  seq : s.seq ≤ s'.seq
  imports : ∃ more, s'.imports = s.imports ++ more
  symbols : s.session.symbols.Grows (· = s.scope env) s.seq s'.session.symbols
  kept : s.session.imports.Kept s'.session.imports

namespace Advances

variable {env : ParserEnv} {s s' s'' : ParserState}

theorem scope (h : Advances env s s') : s'.scope env = s.scope env := by
  rw [ParserState.scope, h.stack]
  rfl

theorem trans (h : Advances env s s') (h' : Advances env s' s'') : Advances env s s'' where
  stack := h'.stack.trans h.stack
  platform := h'.platform.trans h.platform
  diagnostics := by
    obtain ⟨more, hs⟩ := h.diagnostics
    obtain ⟨more', hs'⟩ := h'.diagnostics
    exact ⟨more ++ more', by rw [hs', hs, List.append_assoc]⟩
  nextNode := Nat.le_trans h.nextNode h'.nextNode
  seq := Nat.le_trans h.seq h'.seq
  imports := by
    obtain ⟨more, hs⟩ := h.imports
    obtain ⟨more', hs'⟩ := h'.imports
    exact ⟨more ++ more', by rw [hs', hs, List.append_assoc]⟩
  symbols := h.symbols.trans h.seq (h.scope ▸ h'.symbols)
  kept := h.kept.trans h'.kept

theorem clean (h : Advances env s s') (hs : s'.session.Clean) : s.session.Clean :=
  hs.of_append h.diagnostics

theorem of_reads {us : List Use} (h : Reads env s us s') : Advances env s s' := by
  obtain ⟨more, hs⟩ := h.session
  refine ⟨h.stack, by rw [hs], ⟨more, by rw [hs]⟩, by simp [hs], h.seq,
    ⟨[], by simp [h.imports]⟩, ?_, ?_⟩
  · rw [h.symbols]
    exact .refl _
  · rw [hs]
    exact .refl _

theorem bind (s : ParserState) {symbol : Symbol} (hseq : symbol.seq = s.seq) :
    Advances env s (s.bind env symbol) where
  stack := rfl
  platform := rfl
  diagnostics := ⟨[], by simp [ParserState.bind]⟩
  nextNode := Nat.le_refl _
  seq := Nat.le_succ _
  imports := ⟨[], by simp [ParserState.bind]⟩
  symbols := hseq ▸ SymbolTable.grows_bind s.session.symbols (s.scope env) symbol
  kept := .refl _

/-- Work in a new scope leaves the scopes there were as they are. -/
theorem still {kind : ScopeKind} (h : Advances env (s.enter env kind) s') :
    s.session.symbols.Grows (fun _ => False) s.seq s'.leave.session.symbols := by
  have hnew := SymbolTable.grows_addScope s.session.symbols kind (some (s.scope env)) env.file
    (· = s.session.symbols.scopes.size) s.seq
  have hall := hnew.trans (Nat.le_refl _) h.symbols
  exact hall.mono (fun i hi heq => Nat.ne_of_lt hi heq) (Nat.le_refl _)

theorem inside {kind : ScopeKind} (h : Advances env (s.enter env kind) s') :
    Advances env s s'.leave where
  stack := by
    show s'.session.stack.tail = s.session.stack
    rw [h.stack]
    rfl
  platform := h.platform
  diagnostics := h.diagnostics
  nextNode := h.nextNode
  seq := h.seq
  imports := h.imports
  symbols := h.still.still
  kept := h.kept

theorem load {d : Document} {session : Session} (h : s.session.Before session)
    (hroot : s.scope env = env.root) : Advances env s (s.addImport env d session) where
  stack := h.stack
  platform := h.platform
  diagnostics := h.diagnostics
  nextNode := h.nextNode
  seq := Nat.le_succ _
  imports := ⟨_, rfl⟩
  symbols := by
    rw [hroot]
    exact h.symbols.still.trans (Nat.le_refl _)
      (SymbolTable.grows_addImport session.symbols env.root d.scope s.seq)
  kept := h.kept

end Advances

/-- Loading a file leaves what was there before as it is, and the session has the document. -/
def ParserEnv.Loads (env : ParserEnv) : Prop :=
  ∀ f s d s', env.load f s = (.ok d, s') → s.Before s' ∧
    (s.Standing → s'.imports.get? d.path = some d)

namespace Run

variable {env : ParserEnv} {s s' : ParserState}

/-- What a parser does to a state, whatever it parses. -/
theorem advances (hload : env.Loads) (h : Run env s s') : Advances env s s' := by
  induction h with
  | read h => exact .of_reads h
  | own s node =>
    exact ⟨rfl, rfl, ⟨[], by simp⟩, Nat.le_refl _, Nat.le_refl _, ⟨[], by simp⟩, .refl _, .refl _⟩
  | number s =>
    exact ⟨rfl, rfl, ⟨[], by simp [Session.takeNode]⟩, Nat.le_succ _, Nat.le_refl _, ⟨[], by simp⟩,
      .refl _, .refl _⟩
  | bind s symbol hseq => exact .bind s hseq
  | inside _ _ ih => exact ih.inside
  | load h hroot => exact .load (hload _ _ _ _ h).1 hroot
  | trans _ _ ih ih' => exact ih.trans ih'

end Run

/-- The table is well formed, the open scopes are in it, and so is the scope of the file. -/
structure Standing (env : ParserEnv) (s : ParserState) : Prop where
  session : s.session.Standing
  root : ∃ sc, s.session.symbols.scopes[env.root]? = some sc ∧ sc.kind = .file ∧ sc.parent = none

namespace Standing

variable {env : ParserEnv} {s s' : ParserState}

theorem root_lt (h : Standing env s) : Nat.lt env.root s.session.symbols.scopes.size := by
  obtain ⟨sc, hsc, -⟩ := h.root
  exact (Array.getElem?_eq_some_iff.1 hsc).1

theorem scope_lt (h : Standing env s) : Nat.lt (s.scope env) s.session.symbols.scopes.size := by
  unfold ParserState.scope
  cases hstack : s.session.stack with
  | nil => exact h.root_lt
  | cons c rest => exact h.session.stack c (by simp [hstack])

theorem root_of_grows {live : ScopeId → Prop} {q : Nat}
    (h : Standing env s) (hg : s.session.symbols.Grows live q s'.session.symbols) :
    ∃ sc, s'.session.symbols.scopes[env.root]? = some sc ∧ sc.kind = .file ∧ sc.parent = none := by
  obtain ⟨sc, hsc, hk, hp⟩ := h.root
  obtain ⟨sc', hsc', hk', hp', -⟩ := hg.scopes hsc
  exact ⟨sc', hsc', hk'.trans hk, hp'.trans hp⟩

theorem enter (h : Standing env s) (kind : ScopeKind) : Standing env (s.enter env kind) where
  session := by
    refine ⟨h.session.table.addScope kind (fun p hp => ?_) env.file, fun c hc => ?_, h.session.held⟩
    · cases hp
      exact h.scope_lt
    · show Nat.lt c (s.session.symbols.scopes.push _).size
      rw [Array.size_push]
      obtain rfl | hc := List.mem_cons.1 hc
      · exact Nat.lt_succ_self _
      · exact Nat.lt_succ_of_lt (h.session.stack c hc)
  root := h.root_of_grows (SymbolTable.grows_addScope _ _ _ _ (fun _ => False) 0)

theorem leave (h : Standing env s) : Standing env s.leave where
  session := ⟨h.session.table, fun c hc => h.session.stack c (List.mem_of_mem_tail hc),
    h.session.held⟩
  root := h.root

theorem of_reads {us : List Use} (h : Standing env s) (hr : Reads env s us s') :
    Standing env s' := by
  obtain ⟨more, hs⟩ := hr.session
  refine ⟨⟨?_, fun c hc => ?_, ?_⟩, ?_⟩
  · exact hr.symbols ▸ h.session.table
  · exact hr.symbols ▸ h.session.stack c (hr.stack ▸ hc)
  · rw [hs]
    exact h.session.held
  · exact hr.symbols ▸ h.root

end Standing

namespace Run

variable {env : ParserEnv} {s s' : ParserState}

theorem standing (hload : env.Loads) (h : Run env s s') (hs : Standing env s) :
    Standing env s' := by
  induction h with
  | read h => exact hs.of_reads h
  | own s node => exact ⟨hs.session, hs.root⟩
  | number s => exact ⟨⟨hs.session.table, hs.session.stack, hs.session.held⟩, hs.root⟩
  | bind s symbol hseq hfree hkind =>
    have hg := SymbolTable.grows_bind s.session.symbols (s.scope env) symbol
    refine ⟨⟨hs.session.table.bind hfree fun hty sc hsc => ?_, fun c hc => ?_, hs.session.held⟩,
      hs.root_of_grows hg⟩
    · obtain ⟨sc', hsc', hk, -⟩ := hs.root
      rw [hkind hty, hsc'] at hsc
      cases hsc
      exact hk
    · exact Nat.lt_of_lt_of_le (hs.session.stack c hc) hg.scopes_size
  | inside _ _ ih => exact (ih (hs.enter _)).leave
  | load h hroot =>
    rename_i s f d session
    have hb := (hload _ _ _ _ h).1
    have hs' := hb.standing hs.session
    have hg := SymbolTable.grows_addImport session.symbols env.root d.scope s.seq
    refine ⟨⟨hs'.table.addImport _ _ _, fun c hc => ?_, hs'.held⟩, ?_⟩
    · exact Nat.lt_of_lt_of_le (hs'.stack c hc) hg.scopes_size
    · exact hs.root_of_grows (hb.symbols.still.trans (Nat.zero_le _) hg)
  | trans _ _ ih ih' => exact ih' (ih hs)

/-- Imports stand outside all scopes but the file's. -/
theorem imports_eq (hload : env.Loads) (h : Run env s s') (hs : Standing env s)
    (hscope : s.scope env ≠ env.root) : s'.imports = s.imports := by
  induction h with
  | read h => exact h.imports
  | own s node => rfl
  | number s => rfl
  | bind s symbol hseq hfree hkind => rfl
  | inside _ _ ih => exact ih (hs.enter _) (Nat.ne_of_gt hs.root_lt)
  | load h hroot => exact absurd hroot hscope
  | trans h _ ih ih' =>
    rw [ih' (h.standing hload hs) ((h.advances hload).scope ▸ hscope), ih hs hscope]

end Run

namespace Parser

variable {α β : Type} {env : ParserEnv} {s s' : ParserState}

/-! ## Scopes and declarations -/

theorem takeNode_ok {id : NodeId} (h : takeNode env s = (.ok id, s')) :
    id = s.session.nextNode ∧ s' = { s with session := s.session.takeNode.2 } := by
  cases h
  exact ⟨rfl, rfl⟩

theorem inScope_ok {kind : ScopeKind} {p : Parser α} {id : ScopeId} {a : α}
    (h : inScope kind p env s = (.ok (id, a), s')) :
    id = s.session.symbols.scopes.size ∧
      ∃ s₁, p env (s.enter env kind) = (.ok a, s₁) ∧ s' = s₁.leave := by
  have hscope : inScope kind p env s = ((p env (s.enter env kind)).1.map
      (s.session.symbols.scopes.size, ·), (p env (s.enter env kind)).2.leave) := rfl
  rw [hscope] at h
  cases hp : p env (s.enter env kind) with
  | mk r s₁ =>
    rw [hp] at h
    cases r with
    | error e => cases h
    | ok b =>
      cases h
      exact ⟨rfl, s₁, rfl, rfl⟩

/-- What declaring a name that takes part does. -/
theorem declare_true (name : String) (kind : SymbolKind) (pos : Position) (node : NodeId)
    (env : ParserEnv) (s : ParserState) : declare name kind pos node true env s =
      let r : Unit × Session :=
        match s.session.symbols.declare (s.scope env) (s.symbol env name kind pos node) with
        | (.ok _, symbols) => ((), { s.session with symbols })
        | (.error previous, symbols) =>
          let before := ((symbols.symbols[previous]?).map (·.pos)).getD {}
          ((), s.session.report (.fault env.source.path pos (.duplicateSymbol name before)))
      (.ok r.1, { s with seq := s.seq + 1, session := r.2 }) :=
  rfl

/-- A declaration that takes no part changes nothing, a name that is taken is reported as an error,
and any other is bound in the innermost scope. -/
theorem declare_cases {name : String} {kind : SymbolKind} {pos : Position} {node : NodeId}
    {active : Bool} {u : Unit} (h : declare name kind pos node active env s = (.ok u, s')) :
    (active = false ∧ s' = s) ∨
    (active = true ∧ Reads env s [] s' ∧ ¬ s'.session.Clean) ∨
    (active = true ∧ s.session.symbols.lookup (s.scope env) name = none ∧
      s' = s.bind env (s.symbol env name kind pos node)) := by
  cases active with
  | false =>
    cases h
    exact .inl ⟨rfl, rfl⟩
  | true =>
    right
    rw [declare_true, SymbolTable.declare_eq] at h
    cases hl : s.session.symbols.lookup (s.scope env) name with
    | none =>
      rw [show (s.symbol env name kind pos node).name = name from rfl, hl] at h
      cases h
      exact .inr ⟨rfl, rfl, rfl⟩
    | some previous =>
      rw [show (s.symbol env name kind pos node).name = name from rfl, hl] at h
      cases h
      refine .inl ⟨rfl, ⟨⟨_, rfl⟩, rfl, rfl, Nat.le_succ _, by simp⟩, ?_⟩
      simp [Session.Clean, Session.report, Diagnostics.hasErrors, Diagnostic.isError,
        CompileError.toDiagnostic, CompileError.severity, Fault.severity]

theorem declare_run {name : String} {kind : SymbolKind} {pos : Position} {node : NodeId}
    {active : Bool} {u : Unit} (hkind : kind.isType = true → s.scope env = env.root)
    (h : declare name kind pos node active env s = (.ok u, s')) : Run env s s' := by
  obtain ⟨-, rfl⟩ | ⟨-, hr, -⟩ | ⟨-, hfree, rfl⟩ := declare_cases h
  · exact .read (.refl _)
  · exact .read hr
  · exact .bind s _ rfl hfree hkind rfl

/-- Where no error is reported, a name that takes part is bound. -/
theorem declare_ok {name : String} {kind : SymbolKind} {pos : Position} {node : NodeId}
    {active : Bool} {u : Unit} (h : declare name kind pos node active env s = (.ok u, s'))
    (hclean : s'.session.Clean) :
    (active = false ∧ s' = s) ∨ (active = true ∧
      s.session.symbols.lookup (s.scope env) name = none ∧
      s' = s.bind env (s.symbol env name kind pos node)) := by
  obtain h | ⟨-, -, hdirty⟩ | h := declare_cases h
  · exact .inl h
  · exact absurd hclean hdirty
  · exact .inr h

end Parser

end Source

end Scaffold
