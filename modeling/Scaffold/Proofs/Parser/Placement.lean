import Scaffold.Proofs.Parser.Decl

/-!
# Where queries stand

Every query has a scope of its own, for its parameters, inside the scope of its mapper, which lies
inside that of the file. What its SQL and its return type mention is looked up from there.

* `SymbolTable.Within.exists_resolve`: such a name is looked up in the query, in the mapper and in the
  file, and elsewhere only then.
* `decls_placed`: all queries of a parsed file are placed so.
-/

namespace Scaffold

namespace SymbolTable

variable {t t' : SymbolTable} {outer scope : ScopeId}

/-- The scope is that of a declaration directly inside another one. -/
def Within (t : SymbolTable) (outer scope : ScopeId) : Prop :=
  Nat.lt outer scope ∧
    ∃ sc, t.scopes[scope]? = some sc ∧ sc.kind = .declaration ∧ sc.parent = some outer

namespace Within

theorem grows {live : ScopeId → Prop} {q : Nat} (h : t.Within outer scope)
    (hg : t.Grows live q t') : t'.Within outer scope := by
  obtain ⟨hlt, sc, hsc, hk, hp⟩ := h
  obtain ⟨sc', hsc', hk', hp', -⟩ := hg.scopes hsc
  exact ⟨hlt, sc', hsc', hk'.trans hk, hp'.trans hp⟩

theorem lt (h : t.Within outer scope) : Nat.lt scope t.scopes.size := by
  obtain ⟨-, sc, hsc, -⟩ := h
  exact (Array.getElem?_eq_some_iff.1 hsc).1

/-- Names that come into the scope of the file do not come into the scopes inside it. -/
theorem lookup_eq {root : ScopeId} {q : Nat} (h : t.Within outer scope) (hroot : Nat.le root outer)
    (hg : t.Grows (· = root) q t') (name : String) : t'.lookup scope name = t.lookup scope name := by
  have hne : scope ≠ root := Nat.ne_of_gt (Nat.lt_of_le_of_lt hroot h.1)
  rw [lookup_eq_names, lookup_eq_names, hg.names_eq h.lt hne]

/-- In the scope of a declaration it does not matter where a name was bound. -/
theorem resolveFrom (h : t.Within outer scope) (name : String) (seq fuel : Nat) :
    t.resolveFrom name seq (fuel + 1) (some scope)
      = (t.lookup scope name).or (t.resolveFrom name seq fuel (some outer)) := by
  obtain ⟨-, sc, hsc, hk, hp⟩ := h
  rw [resolveFrom_succ, hsc, lookup_eq_names, names_of_scope hsc]
  dsimp only
  rw [resolveIn_declaration hk, hp]

/-- A name in a member of a declaration of a file is looked up in the member, in the declaration and
in the file, whatever the place; only then does anything else matter. -/
theorem exists_resolve {root : ScopeId} (h : t.Within outer scope) (h' : t.Within root outer)
    (hroot : t.IsFile root) (name : String) (seq : Nat) : ∃ outside, t.resolve scope name seq
      = (t.lookup scope name).or ((t.lookup outer name).or ((t.lookup root name).or outside)) := by
  obtain ⟨sc, hsc, hk⟩ := hroot
  obtain ⟨fuel, hfuel⟩ : ∃ fuel, t.scopes.size + 1 = fuel + 3 := by
    have := h.lt
    have := h.1
    have := h'.1
    simp only [Nat.lt_eq] at *
    exact ⟨t.scopes.size - 2, by omega⟩
  refine ⟨(((sc.imports.filter (·.seq < seq)).findSome? fun i => t.lookup i.scope name).or
    (t.resolveFrom name seq fuel sc.parent)).or (t.prelude.bind (t.lookup · name)), ?_⟩
  rw [resolve_eq, find, hfuel, h.resolveFrom, h'.resolveFrom, resolveFrom_succ, hsc]
  dsimp only
  rw [resolveIn_file hk, lookup_eq_names t root, names_of_scope hsc]
  simp only [Option.or_assoc]

end Within

end SymbolTable

namespace Source

/-- The scope of the query lies in the scope of a declaration, and the names of its return type are
new and stand in it. -/
structure QueryIn (t : SymbolTable) (outer : ScopeId) (q : Query) : Prop where
  scope : t.Within outer q.scope
  returns : ∀ u ∈ q.returns.elim [] TypeRef.uses, u.ref.target = none ∧ u.ref.scope = q.scope

/-- The query stands in a mapper of the file. -/
def QueryPlaced (root : ScopeId) (t : SymbolTable) (q : Query) : Prop :=
  ∃ mapper, t.Within root mapper ∧ QueryIn t mapper q

/-- The queries of the declaration, if it is a mapper, are placed. -/
def Decl.Placed (root : ScopeId) (t : SymbolTable) : Decl → Prop
  | .mapper m => ∀ q ∈ m.queries, QueryPlaced root t q
  | _ => True

section

variable {t t' : SymbolTable} {live : ScopeId → Prop} {q : Nat} {root : ScopeId}

theorem QueryIn.grows {outer : ScopeId} {query : Query} (h : QueryIn t outer query)
    (hg : t.Grows live q t') : QueryIn t' outer query :=
  ⟨h.scope.grows hg, h.returns⟩

theorem QueryPlaced.grows {query : Query} (h : QueryPlaced root t query) (hg : t.Grows live q t') :
    QueryPlaced root t' query := by
  obtain ⟨mapper, hmapper, hquery⟩ := h
  exact ⟨mapper, hmapper.grows hg, hquery.grows hg⟩

theorem Decl.Placed.grows {d : Decl} (h : d.Placed root t) (hg : t.Grows live q t') :
    d.Placed root t' := by
  cases d with
  | mapper m => exact fun query hquery => (h query hquery).grows hg
  | _ => trivial

end

/-- The parser stands in this scope, which is in the table. -/
def ParserState.At (env : ParserEnv) (scope : ScopeId) (s : ParserState) : Prop :=
  s.scope env = scope ∧ Nat.lt scope s.session.symbols.scopes.size

namespace ParserState.At

variable {env : ParserEnv} {s s' : ParserState} {scope : ScopeId}

theorem later (h : s.At env scope) (ha : Advances env s s') : s'.At env scope :=
  ⟨ha.scope.trans h.1, Nat.lt_of_lt_of_le h.2 ha.symbols.scopes_size⟩

/-- A new scope lies in the one around it. -/
theorem enter (h : s.At env scope) :
    (s.enter env .declaration).At env s.session.symbols.scopes.size ∧
      (s.enter env .declaration).session.symbols.Within scope s.session.symbols.scopes.size := by
  refine ⟨⟨rfl, ?_⟩, h.2, ⟨.declaration, some scope, env.file, [], [], false⟩, ?_, rfl, rfl⟩
  · rw [show (s.enter env .declaration).session.symbols.scopes.size
      = s.session.symbols.scopes.size + 1 from Array.size_push ..]
    exact Nat.lt_succ_self _
  · simp [ParserState.enter, SymbolTable.scopes_addScope, h.1]

end ParserState.At

/-- Between the two states queries were parsed, each in a scope inside the first one. -/
structure QueriesRead (env : ParserEnv) (s₀ : ParserState) (qs : List Query) (s : ParserState) :
    Prop where
  advances : Advances env s₀ s
  placed : ∀ scope, s₀.At env scope → ∀ q ∈ qs, QueryIn s.session.symbols scope q

namespace Parser

variable {env : ParserEnv} {s s' : ParserState} (hload : env.Loads)
include hload

theorem queryDecl_in {hd : Header} {active : Bool} {q : Query} {scope : ScopeId}
    (h : queryDecl hd active env s = (.ok q, s')) (hat : s.At env scope) :
    QueryIn s'.session.symbols scope q := by
  obtain ⟨s₁, s₂, s₃, hname, hparams, hread, hscope, hend⟩ := queryDecl_ok hload h
  obtain ⟨hin, hwithin⟩ := (hat.later (hname.run.advances hload)).enter
  have ha := hparams.run.advances hload
  refine ⟨?_, fun u hu => ?_⟩
  · rw [hscope, hend.symbols]
    exact (hwithin.grows ha.symbols).grows (Advances.of_reads hread).symbols
  · obtain ⟨htarget, hu, -⟩ := hread.uses u hu
    exact ⟨htarget, hu.trans ((hin.later ha).1.trans hscope.symm)⟩

theorem mapperDecl_placed (hd : Header) (active : Bool) :
    Triple env (ParserState.At env env.root) (mapperDecl hd active)
      fun m s => ∀ q ∈ m.queries, QueryPlaced env.root s.session.symbols q := by
  intro s m s' hat h
  obtain ⟨_, s₁, h₁, h⟩ := bind_ok.1 h
  obtain ⟨⟨name, pos⟩, s₂, h₂, h⟩ := bind_ok.1 h
  obtain ⟨_, s₃, h₃, h⟩ := bind_ok.1 h
  obtain ⟨qs, s₄, h₄, h⟩ := bind_ok.1 h
  obtain ⟨rfl, rfl⟩ := pure_ok.1 h
  have hname := named_declaring hload (fun hty => absurd hty (by decide)) h₁ h₂ h₃
  obtain ⟨s₅, s₆, hread, hqueries, rfl⟩ := members_ok hload (J := QueriesRead env)
    (fun s => ⟨.of_reads (.refl s), nofun⟩)
    (fun hj hd => by
      have ha := hd.run.advances hload
      exact ⟨hj.advances.trans ha, fun scope hat q hq => (hj.placed scope hat q hq).grows ha.symbols⟩)
    (fun {s₀ qs s hd a q s'} hj hq => by
      have ha := (queryDecl_declaring hload hq).run.advances hload
      refine ⟨hj.advances.trans ha, fun scope hat q' hq' => ?_⟩
      have hold := fun q hq => (hj.placed scope hat q hq).grows ha.symbols
      cases a with
      | false => exact hold q' hq'
      | true =>
        obtain hq' | hq' := List.mem_append.1 hq'
        · exact hold q' hq'
        · rw [List.mem_singleton.1 hq']
          exact queryDecl_in hload hq (hat.later hj.advances)) h₄
  have hat := (hat.later (hname.run.advances hload)).later (.of_reads hread)
  obtain ⟨hin, hwithin⟩ := hat.enter
  exact fun q hq => ⟨_, hwithin.grows hqueries.advances.symbols, hqueries.placed _ hin q hq⟩

/-- All queries of a file are placed. -/
theorem decls_placed {s₀ : ParserState} (hat : s₀.At env env.root) :
    Triple env (DeclsRead env (fun d s => d.Placed env.root s.session.symbols) s₀ []) decls
      (DeclsRead env (fun d s => d.Placed env.root s.session.symbols) s₀) := by
  refine decls_read hload hat.1 (fun d s s' hd ha => hd.grows ha.symbols) fun hd s s' d ha hstep => ?_
  cases hstep with
  | mapper h => exact mapperDecl_placed hload hd.1 hd.2 s _ s' (hat.later ha) h
  | _ => trivial

end Parser

end Source

end Scaffold
