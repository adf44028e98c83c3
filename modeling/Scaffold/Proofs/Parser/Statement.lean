import Scaffold.Proofs.Parser.Run

/-!
# How statements are parsed

A successful parser of statements follows the reading of what it returns: it brings each variable
into sight where the reading does, under the number the reading gives it, and each name it meets
will later resolve to what the reading sees.

Parts of statements are put together as `Fragment`s: names that are read, a variable, one part after
the other, and a block. `Parses env s f s'` relates a fragment to two states of the parser, and there
is one lemma for each way to put fragments together (`Parses.see`, `Parses.declare`,
`Parses.andThen`, `Parses.block`). The parsers themselves then only have to be taken apart.
-/

namespace Scaffold.Source

/-! ## Fragments -/

/-- A part of a body: what it brings into sight, the variables it declares, and how its names are
read. -/
@[ext] structure Fragment where
  after : Locals → Locals
  vars : List String
  readings : Locals → List (Locals × Use)

namespace Fragment

def see (us : List Use) : Fragment :=
  ⟨id, [], fun σ => σ.see us⟩

def declare (name : String) : Fragment :=
  ⟨fun σ => σ.declare name, [name], fun _ => []⟩

def andThen (f g : Fragment) : Fragment :=
  ⟨fun σ => g.after (f.after σ), f.vars ++ g.vars, fun σ => f.readings σ ++ g.readings (f.after σ)⟩

/-- A block: what it brings into sight is out of sight after it. -/
def block (f : Fragment) : Fragment :=
  ⟨fun σ => σ.leave (f.after σ), f.vars, f.readings⟩

def stmt (s : Stmt) : Fragment :=
  ⟨fun σ => s.after σ, s.vars, fun σ => s.readings σ⟩

def stmts (ss : List Stmt) : Fragment :=
  ⟨fun σ => Stmt.afterAll σ ss, Stmt.varsAll ss, fun σ => Stmt.readingsAll σ ss⟩

@[simp] theorem see_nil_andThen (f : Fragment) : (see []).andThen f = f := rfl

@[simp] theorem andThen_see_nil (f : Fragment) : f.andThen (see []) = f := by
  ext1
  · rfl
  · exact List.append_nil _
  · funext σ
    exact List.append_nil _

theorem andThen_assoc (f g h : Fragment) :
    (f.andThen g).andThen h = f.andThen (g.andThen h) := by
  ext1
  · rfl
  · exact List.append_assoc ..
  · funext σ
    exact List.append_assoc ..

theorem see_andThen_see (us vs : List Use) : (see us).andThen (see vs) = see (us ++ vs) := by
  ext1
  · rfl
  · rfl
  · funext σ
    simp [andThen, see, Locals.see]

theorem stmts_nil : stmts [] = see [] := rfl

theorem stmts_cons (s : Stmt) (ss : List Stmt) : stmts (s :: ss) = (stmt s).andThen (stmts ss) := rfl

theorem stmts_append (ss : List Stmt) (s : Stmt) :
    stmts (ss ++ [s]) = (stmts ss).andThen (stmt s) := by
  induction ss with
  | nil =>
    show stmts [s] = (see []).andThen (stmt s)
    rw [see_nil_andThen, stmts_cons, stmts_nil, andThen_see_nil]
  | cons s' ss ih =>
    rw [List.cons_append, stmts_cons, stmts_cons, ih, andThen_assoc]

theorem stmt_declare (name : String) (type : Option TypeRef) (init : Option Expr) (pos : Position) :
    stmt (.declare name type init pos)
      = (see (type.elim [] TypeRef.uses ++ init.elim [] Expr.uses)).andThen (declare name) := by
  ext1
  · rfl
  · rfl
  · funext σ
    exact (List.append_nil _).symm

theorem stmt_cond_none (test : Expr) (yes : List Stmt) (pos : Position) :
    stmt (.cond test yes none pos) = (see test.uses).andThen (stmts yes).block := by
  ext1
  · rfl
  · exact List.append_nil _
  · funext σ
    exact List.append_nil _

theorem stmt_cond_some (test : Expr) (yes no : List Stmt) (pos : Position) :
    stmt (.cond test yes (some no) pos)
      = ((see test.uses).andThen (stmts yes).block).andThen (stmts no).block := rfl

theorem stmt_each (var : String) (iter : ForIter) (body : List Stmt) (pos : Position) :
    stmt (.each var iter body pos)
      = (see iter.uses).andThen ((declare var).andThen (stmts body).block).block := rfl

/-- A statement that is itself a choice is a block of its own already. -/
theorem block_stmts_cond (test : Expr) (yes : List Stmt) (no : Option (List Stmt))
    (pos : Position) : (stmts [.cond test yes no pos]).block = stmt (.cond test yes no pos) := by
  rw [stmts_cons, stmts_nil, andThen_see_nil]
  rfl

end Fragment

/-! ## Following a reading -/

/-- The parser stands in a body, with these variables in sight. -/
structure Body (env : ParserEnv) (func outer : ScopeId) (σ : Locals) (s : ParserState) : Prop where
  standing : Standing env s
  inside : s.scope env ≠ func
  blocks : s.session.symbols.Blocks s.seq func outer (s.scope env) σ.names
  next : s.session.symbols.symbols.size = σ.next

/-- The name was read in the function at a place from `q` on, and will resolve to what the reading
sees, and else to what it means around the function. -/
def Located (func outer : ScopeId) (q : Nat) (s : ParserState) (x : Locals × Use) : Prop :=
  x.2.ref.target = none ∧
    (Nat.le func x.2.ref.scope ∧ Nat.lt x.2.ref.scope s.session.symbols.scopes.size) ∧
    q ≤ x.2.ref.seq ∧ x.2.ref.seq < s.seq ∧
    ∀ t : SymbolTable, s.session.symbols.Grows (· ≠ func) s.seq t → t.WellFormed →
      t.find x.2.ref.name x.2.ref.seq (some x.2.ref.scope)
        = (x.1.names.lookup x.2.ref.name).or (t.find x.2.ref.name x.2.ref.seq (some outer))

/-- Between the two states the parser followed the reading of a fragment. -/
structure Follows (env : ParserEnv) (func outer : ScopeId) (σ : Locals) (s : ParserState)
    (f : Fragment) (s' : ParserState) : Prop where
  body : Body env func outer (f.after σ) s'
  count : (f.after σ).next = σ.next + f.vars.length
  declared : s'.session.symbols.DeclaresFrom σ.next (f.vars.map (⟨·, .local, s.owner⟩))
  located : ∀ x ∈ f.readings σ, Located func outer s.seq s' x

/-- Between the two states a fragment was parsed; where no error is reported, the parser followed its
reading, in whatever body it stands. -/
structure Parses (env : ParserEnv) (s : ParserState) (f : Fragment) (s' : ParserState) : Prop where
  run : Run env s s'
  owner : s'.owner = s.owner
  follows : ∀ func outer σ, s'.session.Clean → Body env func outer σ s →
    Follows env func outer σ s f s'

section

variable {env : ParserEnv} {s s' s'' : ParserState} {func outer : ScopeId} {σ : Locals}
  {f g : Fragment}

theorem Located.later {q q' : Nat} {x : Locals × Use} (h : Located func outer q s x) (hq : q' ≤ q)
    (ha : Advances env s s') (hscope : s.scope env ≠ func) : Located func outer q' s' x := by
  obtain ⟨ht, hin, hle, hlt, hfind⟩ := h
  refine ⟨ht, ⟨hin.1, Nat.lt_of_lt_of_le hin.2 ha.symbols.scopes_size⟩, Nat.le_trans hq hle,
    Nat.lt_of_lt_of_le hlt ha.seq, fun t hg hwf => hfind t ?_ hwf⟩
  have hlive : ∀ i < s.session.symbols.scopes.size, i = s.scope env → i ≠ func := by
    rintro i - rfl
    exact hscope
  exact (ha.symbols.mono hlive (Nat.le_refl _)).trans ha.seq hg

namespace Parses

theorem nil (s : ParserState) : Parses env s (.see []) s where
  run := .read (.refl s)
  owner := rfl
  follows _ _ _ _ hbody := ⟨hbody, rfl, .nil _ _, fun _ hx => nomatch hx⟩

/-- Names that are read see the variables in sight. -/
theorem see {us : List Use} (h : Reads env s us s') : Parses env s (.see us) s' where
  run := .read h
  owner := h.owner
  follows func outer σ _ hbody := by
    refine ⟨⟨hbody.standing.of_reads h, h.scope ▸ hbody.inside, ?_,
      h.symbols ▸ hbody.next⟩, rfl, .nil _ _, fun x hx => ?_⟩
    · rw [h.symbols, h.scope]
      exact hbody.blocks.mono h.seq
    · obtain ⟨u, hu, rfl⟩ := List.mem_map.1 hx
      obtain ⟨htarget, hscope, hle, hlt⟩ := h.uses u hu
      refine ⟨htarget, ⟨?_, ?_⟩, hle, hlt, fun t hg hwf => ?_⟩
      · rw [hscope]
        exact hbody.blocks.func_le hbody.standing.session.table
      · rw [hscope, h.symbols]
        exact hbody.standing.scope_lt
      rw [h.symbols] at hg
      rw [hscope]
      exact hbody.blocks.find hg hwf hle (Nat.le_of_lt hlt) _

/-- A declared variable comes into sight. -/
theorem declare {name : String} {pos : Position} {u : Unit}
    (h : Parser.declare name .local pos s.owner true env s = (.ok u, s')) :
    Parses env s (.declare name) s' where
  run := Parser.declare_run (fun h => absurd h (by decide)) h
  owner := by
    obtain ⟨-, rfl⟩ | ⟨-, hr, -⟩ | ⟨-, -, rfl⟩ := Parser.declare_cases h
    · rfl
    · exact hr.owner
    · rfl
  follows func outer σ hclean hbody := by
    obtain ⟨h, -⟩ | ⟨-, hfree, rfl⟩ := Parser.declare_ok h hclean
    · cases h
    · have htable := hbody.standing.session.table
      have hkind : SymbolKind.local.isType = true → ∀ sc,
          s.session.symbols.scopes[s.scope env]? = some sc → sc.kind = .file :=
        fun h => absurd h (by decide)
      refine ⟨⟨?_, hbody.inside, ?_, ?_⟩, rfl, ?_, fun _ hx => nomatch hx⟩
      · have hg := SymbolTable.grows_bind s.session.symbols (s.scope env)
          (s.symbol env name .local pos s.owner)
        refine ⟨⟨htable.bind hfree hkind, fun c hc => ?_, hbody.standing.session.held⟩,
          hbody.standing.root_of_grows hg⟩
        exact Nat.lt_of_lt_of_le (hbody.standing.session.stack c hc) hg.scopes_size
      · have hseq : (s.symbol env name .local pos s.owner).seq = s.seq := rfl
        have hbind := hbody.blocks.bind htable hbody.inside hseq hfree
        rw [hbody.next] at hbind
        exact hbind
      · simp [ParserState.bind, Fragment.declare, Locals.declare, hbody.next]
      · rw [← hbody.next]
        exact SymbolTable.DeclaresFrom.bind s.session.symbols (s.scope env)
          (s.symbol env name .local pos s.owner)

/-- One fragment after the other. -/
theorem andThen (hload : env.Loads) (h : Parses env s f s') (h' : Parses env s' g s'') :
    Parses env s (f.andThen g) s'' where
  run := h.run.trans h'.run
  owner := h'.owner.trans h.owner
  follows func outer σ hclean hbody := by
    have ha := h'.run.advances hload
    have hf := h.follows func outer σ (ha.clean hclean) hbody
    have hg := h'.follows func outer (f.after σ) hclean hf.body
    refine ⟨hg.body, ?_, ?_, fun x hx => ?_⟩
    · simp only [Fragment.andThen, List.length_append, hg.count, hf.count, Nat.add_assoc]
    · simp only [Fragment.andThen, List.map_append]
      refine (hf.declared.grows ha.symbols).append ?_
      rw [List.length_map, ← hf.count, ← h.owner]
      exact hg.declared
    · obtain hx | hx := List.mem_append.1 hx
      · exact (hf.located x hx).later (Nat.le_refl _) ha hf.body.inside
      · obtain ⟨ht, hin, hle, hrest⟩ := hg.located x hx
        exact ⟨ht, hin, Nat.le_trans (h.run.advances hload).seq hle, hrest⟩

/-- A block: its variables are out of sight after it. -/
theorem block (hload : env.Loads) (h : Parses env (s.enter env .block) f s') :
    Parses env s f.block s'.leave where
  run := .inside (by decide) h.run
  owner := h.owner
  follows func outer σ hclean hbody := by
    have ha := h.run.advances hload
    have htable := hbody.standing.session.table
    have hfunc : func ≠ s.session.symbols.scopes.size :=
      Nat.ne_of_lt (Nat.lt_of_le_of_lt (hbody.blocks.func_le htable) hbody.standing.scope_lt)
    have hin : Body env func outer σ (s.enter env .block) :=
      ⟨hbody.standing.enter _, Ne.symm hfunc, hbody.blocks.enter htable _, hbody.next⟩
    have hf := h.follows func outer σ hclean hin
    refine ⟨⟨hf.body.standing.leave, ?_, ?_, hf.body.next⟩, hf.count, hf.declared, hf.located⟩
    · rw [ha.inside.scope]
      exact hbody.inside
    · rw [ha.inside.scope]
      exact (hbody.blocks.mono ha.seq).grows htable (fun _ _ => id) ha.still

end Parses

end

/-! ## Parsers -/

/-- Started where `I` holds, a success of the parser ends where `Q` holds. -/
def Triple {α : Type} (env : ParserEnv) (I : ParserState → Prop) (p : Parser α)
    (Q : α → ParserState → Prop) : Prop :=
  ∀ s a s', I s → p env s = (.ok a, s') → Q a s'

namespace Triple

variable {α β : Type} {env : ParserEnv} {I : ParserState → Prop} {Q : α → ParserState → Prop}

theorem pure {a : α} (h : ∀ s, I s → Q a s) : Triple env I (Pure.pure a) Q := by
  intro s b s' hI hp
  obtain ⟨rfl, rfl⟩ := Parser.pure_ok.1 hp
  exact h s hI

theorem bind {p : Parser β} {k : β → Parser α} {M : β → ParserState → Prop}
    (hp : Triple env I p M) (hk : ∀ b, Triple env (M b) (k b) Q) : Triple env I (p >>= k) Q := by
  intro s a s' hI h
  obtain ⟨b, s₁, hb, h⟩ := Parser.bind_ok.1 h
  exact hk b s₁ a s' (hp s b s₁ hI hb) h

/-- A parser that only reads goes before any other. -/
theorem read {p : Parser β} {k : β → Parser α} {U : β → List Use} (hp : Scans env [] p U)
    {M : β → ParserState → Prop} (hM : ∀ b s s', I s → Reads env s (U b) s' → M b s')
    (hk : ∀ b, Triple env (M b) (k b) Q) : Triple env I (p >>= k) Q :=
  bind (fun s b s' hI hb => hM b s s' hI (hp.reads hb)) hk

section

variable {step : β → Parser β} {J : β → ParserState → Prop}

theorem untilFuel {stop : Parser Bool} (hstop : Scans env [] stop fun _ => [])
    (hread : ∀ b s s', J b s → Reads env s [] s' → J b s')
    (hstep : ∀ b, Triple env (J b) (step b) J) :
    ∀ (fuel : Nat) (b : β), Triple env (J b) (Parser.untilFuel stop step fuel b) J
  | 0, b => .pure fun _ => id
  | fuel + 1, b => by
    refine .read hstop (fun _ => hread b) fun stopped => ?_
    split
    · exact .pure fun _ => id
    · exact .bind (hstep b) fun b' => untilFuel hstop hread hstep fuel b'

/-- What a step keeps up holds at the end of a list in brackets. -/
theorem untilClose (close : Punct) (hread : ∀ b s s', J b s → Reads env s [] s' → J b s')
    (hstep : ∀ b, Triple env (J b) (step b) J) (b : β) :
    Triple env (J b) (Parser.untilClose close step b) J :=
  .read Parser.remaining_scans (fun _ => hread b) fun _ =>
    untilFuel (Parser.peek_scans.bind fun _ => .pure (by simp)) hread hstep _ b

theorem commaFuel (close : Punct) (hread : ∀ b s s', J b s → Reads env s [] s' → J b s')
    (hstep : ∀ b, Triple env (J b) (step b) J) :
    ∀ (fuel : Nat) (b : β), Triple env (J b) (Parser.commaFuel close step fuel b) J
  | 0, b => .pure fun _ => id
  | fuel + 1, b => by
    refine .read (Parser.isPunct_scans close) (fun _ => hread b) fun stopped => ?_
    split
    · exact .pure fun _ => id
    · refine .bind (hstep b) fun b' => ?_
      refine .read (Parser.skipPunct_scans .comma) (fun _ => hread b') fun more => ?_
      split
      · exact commaFuel close hread hstep fuel b'
      · exact .pure fun _ => id

/-- What a step keeps up holds at the end of a list with commas. -/
theorem commaList (close : Punct) (hread : ∀ b s s', J b s → Reads env s [] s' → J b s')
    (hstep : ∀ b, Triple env (J b) (step b) J) (b : β) :
    Triple env (J b) (Parser.commaList close step b) J :=
  .read Parser.remaining_scans (fun _ => hread b) fun _ => commaFuel close hread hstep _ b

end

section

variable {s₀ : ParserState} {f : Fragment} (hload : env.Loads)
include hload

/-- The names that a parser reads come after what was parsed. -/
theorem names {p : Parser β} {k : β → Parser α} {U : β → List Use} (hp : Scans env [] p U)
    (hk : ∀ b, Triple env (Parses env s₀ (f.andThen (.see (U b)))) (k b) Q) :
    Triple env (Parses env s₀ f) (p >>= k) Q :=
  .read hp (fun _ _ _ hf hr => hf.andThen hload (.see hr)) hk

/-- A parser that finds no names changes nothing in what was parsed. -/
theorem skip {p : Parser β} {k : β → Parser α} (hp : Scans env [] p fun _ => [])
    (hk : ∀ b, Triple env (Parses env s₀ f) (k b) Q) : Triple env (Parses env s₀ f) (p >>= k) Q :=
  names hload hp fun b => by
    rw [Fragment.andThen_see_nil]
    exact hk b

end

end Triple

def ParserState.next (s : ParserState) : TokenKind :=
  (s.rest.headD ⟨.eof, {}⟩).kind

namespace Parser

theorem isKeyword_ok {env : ParserEnv} {k : Keyword} {s s' : ParserState} {found : Bool}
    (h : isKeyword k env s = (.ok found, s')) :
    s' = s ∧ (found = true → s.next = .keyword k) := by
  have heq : isKeyword k env s = (.ok (s.next == .keyword k), s) := rfl
  rw [heq] at h
  cases h
  exact ⟨rfl, fun h => by simpa using h⟩

theorem condStmt_shape {env : ParserEnv} {stmt : Parser Stmt} {s s' : ParserState} {st : Stmt}
    (h : condStmt stmt env s = (.ok st, s')) : ∃ test yes no pos, st = .cond test yes no pos := by
  unfold condStmt at h
  obtain ⟨pos, s₁, -, h⟩ := bind_ok.1 h
  obtain ⟨test, s₂, -, h⟩ := bind_ok.1 h
  obtain ⟨yes, s₃, -, h⟩ := bind_ok.1 h
  obtain ⟨more, s₄, -, h⟩ := bind_ok.1 h
  split at h
  · obtain ⟨_, s₅, -, h⟩ := bind_ok.1 h
    obtain ⟨again, s₆, -, h⟩ := bind_ok.1 h
    split at h
    · obtain ⟨no, s₇, -, h⟩ := bind_ok.1 h
      exact ⟨test, yes, _, pos, (pure_ok.1 h).1.symm⟩
    · obtain ⟨no, s₇, -, h⟩ := bind_ok.1 h
      exact ⟨test, yes, _, pos, (pure_ok.1 h).1.symm⟩
  · exact ⟨test, yes, _, pos, (pure_ok.1 h).1.symm⟩

/-- A statement that starts with `if` is a choice. -/
theorem stmtFuel_if {env : ParserEnv} {fuel : Nat} {s s' : ParserState} {st : Stmt}
    (hnext : s.next = .keyword .ifKw) (h : stmtFuel fuel env s = (.ok st, s')) :
    ∃ test yes no pos, st = .cond test yes no pos := by
  cases fuel with
  | zero => cases h
  | succ fuel =>
    obtain ⟨t, s₁, ht, h⟩ := bind_ok.1 h
    cases ht
    have hkind : (s.rest.headD ⟨.eof, {}⟩).kind = .keyword .ifKw := hnext
    rw [hkind] at h
    exact condStmt_shape h

variable {env : ParserEnv} (hload : env.Loads)
include hload

section

variable {stmt : Parser Stmt}
  (hstmt : ∀ s st s', stmt env s = (.ok st, s') → Parses env s (.stmt st) s')
include hstmt

/-- Statements in braces are parsed in a scope of their own. -/
theorem blockOf_inner {s s' : ParserState} {body : List Stmt}
    (h : blockOf stmt env s = (.ok body, s')) : ∃ s₁ s₂, Reads env s [] s₁ ∧
      Parses env (s₁.enter env .block) (.stmts body) s₂ ∧ Reads env s₂.leave [] s' := by
  unfold blockOf at h
  obtain ⟨_, s₁, h₁, h⟩ := bind_ok.1 h
  obtain ⟨⟨scope, ss⟩, s₂, h₂, h⟩ := bind_ok.1 h
  obtain ⟨_, s₃, h₃, h⟩ := bind_ok.1 h
  obtain ⟨rfl, rfl⟩ := pure_ok.1 h
  obtain ⟨-, s₄, hbody, rfl⟩ := inScope_ok h₂
  refine ⟨s₁, s₄, (expectPunct_scans _).reads h₁, ?_, (expectPunct_scans _).reads h₃⟩
  refine Triple.untilClose .braceClose (J := fun ss => Parses env _ (.stmts ss))
    (fun ss s s' hss hr => ?_) (fun ss => ?_) [] _ _ _ (.nil _) hbody
  · simpa using hss.andThen hload (.see hr)
  · refine .bind (M := fun st => Parses env (s₁.enter env .block) (.stmts (ss ++ [st])))
      (fun s st s' hss hst => ?_) fun st => .pure fun _ => id
    dsimp only
    rw [Fragment.stmts_append]
    exact hss.andThen hload (hstmt _ _ _ hst)

theorem blockOf_parses {s s' : ParserState} {body : List Stmt}
    (h : blockOf stmt env s = (.ok body, s')) : Parses env s (Fragment.stmts body).block s' := by
  obtain ⟨s₁, s₂, hopen, hin, hclose⟩ := blockOf_inner hload hstmt h
  simpa using ((Parses.see hopen).andThen hload (hin.block hload)).andThen hload (.see hclose)

/-- After `else`, another choice stands for a block with nothing else in it. -/
theorem condStmt_parses {s s' : ParserState} {st : Stmt}
    (hif : ∀ s st s', s.next = .keyword .ifKw → stmt env s = (.ok st, s') →
      (Fragment.stmts [st]).block = .stmt st)
    (h : condStmt stmt env s = (.ok st, s')) : Parses env s (.stmt st) s' := by
  unfold condStmt at h
  obtain ⟨pos, s₁, h₁, h⟩ := bind_ok.1 h
  obtain ⟨test, s₂, h₂, h⟩ := bind_ok.1 h
  obtain ⟨yes, s₃, h₃, h⟩ := bind_ok.1 h
  obtain ⟨more, s₄, h₄, h⟩ := bind_ok.1 h
  have hread := ((expectKeyword_scans _).reads h₁).trans (condition_scans.reads h₂)
  have hyes := (Parses.see hread).andThen hload (blockOf_parses hload hstmt h₃)
  have hmore := hyes.andThen hload (.see ((isKeyword_scans _).reads h₄))
  rw [List.nil_append, Fragment.andThen_see_nil] at hmore
  split at h
  · obtain ⟨_, s₅, h₅, h⟩ := bind_ok.1 h
    obtain ⟨again, s₆, h₆, h⟩ := bind_ok.1 h
    have helse := (advance_scans.reads h₅).trans ((isKeyword_scans _).reads h₆)
    split at h
    · rename_i hagain
      obtain ⟨heq, hkind⟩ := isKeyword_ok h₆
      rw [← heq] at hkind
      obtain ⟨no, s₇, h₇, h⟩ := bind_ok.1 h
      obtain ⟨rfl, rfl⟩ := pure_ok.1 h
      rw [Fragment.stmt_cond_some, hif _ _ _ (hkind hagain) h₇]
      have := hmore.andThen hload ((Parses.see helse).andThen hload (hstmt _ _ _ h₇))
      simpa using this
    · obtain ⟨no, s₇, h₇, h⟩ := bind_ok.1 h
      obtain ⟨rfl, rfl⟩ := pure_ok.1 h
      rw [Fragment.stmt_cond_some]
      have := hmore.andThen hload ((Parses.see helse).andThen hload (blockOf_parses hload hstmt h₇))
      simpa using this
  · obtain ⟨rfl, rfl⟩ := pure_ok.1 h
    rw [Fragment.stmt_cond_none]
    exact hmore

theorem eachStmt_parses {s s' : ParserState} {st : Stmt}
    (h : eachStmt stmt env s = (.ok st, s')) : Parses env s (.stmt st) s' := by
  suffices hall : Triple env (Parses env s (.see [])) (eachStmt stmt)
      fun st => Parses env s (.stmt st) from hall _ _ _ (.nil s) h
  unfold eachStmt
  refine .skip hload (expectKeyword_scans _) fun pos => .skip hload (expectPunct_scans _) fun _ =>
    .skip hload ident_scans fun var => ?_
  refine .skip hload (expectKeyword_scans _) fun _ => .names hload expr_scans fun first => ?_
  dsimp -zeta only
  extract_lets withIter
  have hwithIter : ∀ iter, Triple env (Parses env s (.see iter.uses)) (withIter iter)
      fun st => Parses env s (.stmt st) := by
    intro iter
    refine .skip hload (expectPunct_scans _) fun _ => ?_
    intro s₁ st s₂ hiter h
    obtain ⟨s₀, _, h₀, h⟩ := bind_ok.1 h
    cases h₀
    obtain ⟨⟨scope, body⟩, s₃, h₃, h⟩ := bind_ok.1 h
    obtain ⟨rfl, rfl⟩ := pure_ok.1 h
    obtain ⟨-, s₄, hin, rfl⟩ := inScope_ok h₃
    obtain ⟨_, s₅, hvar, hbody⟩ := bind_ok.1 hin
    rw [Fragment.stmt_each]
    have hdecl := Parses.declare (s := s₁.enter env .block) hvar
    exact hiter.andThen hload ((hdecl.andThen hload (blockOf_parses hload hstmt hbody)).block hload)
  refine .skip hload (skipPunct_scans _) fun _ => ?_
  split
  · refine .names hload expr_scans fun last => ?_
    have := hwithIter (.range first last)
    rw [ForIter.uses, ← Fragment.see_andThen_see] at this
    exact this
  · exact hwithIter (.each first)

end

theorem declareStmt_parses {s s' : ParserState} {st : Stmt}
    (h : declareStmt env s = (.ok st, s')) : Parses env s (.stmt st) s' := by
  suffices hall : Triple env (Parses env s (.see [])) declareStmt fun st => Parses env s (.stmt st)
    from hall _ _ _ (.nil s) h
  unfold declareStmt
  refine .skip hload (expectKeyword_scans _) fun pos => .skip hload ident_scans fun name => ?_
  dsimp -zeta only
  extract_lets withType
  have hwithType : ∀ type, Triple env (Parses env s (.see (type.elim [] TypeRef.uses)))
      (withType type) fun st => Parses env s (.stmt st) := by
    intro type
    refine .skip hload (skipPunct_scans _) fun assigned => ?_
    extract_lets withInit
    have hwithInit : ∀ init, Triple env (Parses env s (.see (type.elim [] TypeRef.uses
        ++ init.elim [] Expr.uses))) (withInit init) fun st => Parses env s (.stmt st) := by
      intro init
      refine .skip hload (expectPunct_scans _) fun _ => ?_
      intro s₁ st s₂ hinit h
      obtain ⟨s₀, _, h₀, h⟩ := bind_ok.1 h
      cases h₀
      obtain ⟨_, s₃, h₃, h⟩ := bind_ok.1 h
      obtain ⟨rfl, rfl⟩ := pure_ok.1 h
      rw [Fragment.stmt_declare]
      exact hinit.andThen hload (.declare h₃)
    split
    · refine .names hload expr_scans fun init => ?_
      rw [Fragment.see_andThen_see]
      exact hwithInit (some init)
    · have := hwithInit none
      rw [Option.elim, List.append_nil] at this
      exact this
  refine .skip hload (isPunct_scans _) fun _ => .skip hload (isPunct_scans _) fun _ => ?_
  split
  · exact hwithType none
  · exact .names hload typeRef_scans fun type => hwithType (some type)

theorem exprStmt_parses {pos : Position} {s s' : ParserState} {st : Stmt}
    (h : exprStmt pos env s = (.ok st, s')) : Parses env s (.stmt st) s' := by
  suffices hall : Triple env (Parses env s (.see [])) (exprStmt pos)
      fun st => Parses env s (.stmt st) from hall _ _ _ (.nil s) h
  refine .names hload expr_scans fun e => .skip hload (skipPunct_scans _) fun _ => ?_
  split
  · refine .names hload expr_scans fun value => .skip hload (expectPunct_scans _) fun _ => ?_
    rw [Fragment.andThen_assoc, Fragment.see_andThen_see]
    exact .pure fun _ => id
  · exact .skip hload (expectPunct_scans _) fun _ => .pure fun _ => id

theorem stmtFuel_parses : ∀ (fuel : Nat) (s : ParserState) (st : Stmt) (s' : ParserState),
    stmtFuel fuel env s = (.ok st, s') → Parses env s (.stmt st) s'
  | 0, s, st, s', h => by cases h
  | fuel + 1, s, st, s', h => by
    have ih := stmtFuel_parses fuel
    suffices hall : Triple env (Parses env s (.see [])) (stmtFuel (fuel + 1))
        fun st => Parses env s (.stmt st) from hall _ _ _ (.nil s) h
    have hpart : ∀ {p : Parser Stmt}, (∀ s st s', p env s = (.ok st, s') →
        Parses env s (.stmt st) s') → Triple env (Parses env s (.see [])) p
        fun st => Parses env s (.stmt st) :=
      fun hp s₁ st s₂ hs h => hs.andThen hload (hp _ _ _ h)
    refine .skip hload peek_scans fun t => ?_
    split
    · exact hpart fun _ _ _ => declareStmt_parses hload
    · refine hpart fun _ _ _ => condStmt_parses hload ih fun _ _ _ hnext hst => ?_
      obtain ⟨test, yes, no, pos, rfl⟩ := stmtFuel_if hnext hst
      exact Fragment.block_stmts_cond ..
    · refine .skip hload advance_scans fun _ => .names hload condition_scans fun test => ?_
      refine .bind (M := fun body => Parses env s (.stmt (.loop test body t.pos)))
        (fun s₁ body s₂ hs h => ?_) fun body => .pure fun _ => id
      exact hs.andThen hload (blockOf_parses hload ih h)
    · exact hpart fun _ _ _ => eachStmt_parses hload ih
    · refine .skip hload advance_scans fun _ => ?_
      extract_lets withValue
      have hwithValue : ∀ value, Triple env (Parses env s (.see (value.elim [] Expr.uses)))
          (withValue value) fun st => Parses env s (.stmt st) := fun value =>
        .skip hload (expectPunct_scans _) fun _ => .pure fun _ => id
      refine .skip hload (isPunct_scans _) fun _ => ?_
      split
      · exact hwithValue none
      · exact .names hload expr_scans fun value => hwithValue (some value)
    · exact .skip hload advance_scans fun _ => .skip hload (expectPunct_scans _) fun _ =>
        .pure fun _ => id
    · exact .skip hload advance_scans fun _ => .skip hload (expectPunct_scans _) fun _ =>
        .pure fun _ => id
    · exact hpart fun _ _ _ => exprStmt_parses hload

/-- The body of a function is parsed as it is read. -/
theorem block_inner {s s' : ParserState} {body : List Stmt}
    (h : Parser.block env s = (.ok body, s')) : ∃ s₁ s₂, Reads env s [] s₁ ∧
      Parses env (s₁.enter env .block) (.stmts body) s₂ ∧ Reads env s₂.leave [] s' := by
  obtain ⟨n, s₁, h₁, h⟩ := bind_ok.1 h
  cases h₁
  exact blockOf_inner hload (stmtFuel_parses hload _) h

end Parser

end Scaffold.Source
