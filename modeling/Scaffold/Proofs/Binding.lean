import Scaffold.Proofs.Reading

/-!
# What binding does to names

Binding reports every name that it cannot bind. So when no error was reported, each name has become
the same name with the symbol it resolves to, and that symbol is of a kind its place accepts.

* `Ends m Q`: running `m` only adds problems, and when none of all is an error its result
  satisfies `Q`. The rules `Ends.pure` and `Ends.bind` follow the programs.
* `func_ends`: a bound body is read as the one it came from, name by name.
* `dataDecl_ends`, `otherDecl_ends`: which declarations each of the two passes binds.
-/

namespace Scaffold

theorem Diagnostics.hasErrors_of_append {ds more : Diagnostics}
    (h : Diagnostics.hasErrors (ds ++ more) = false) : ds.hasErrors = false := by
  simp only [Diagnostics.hasErrors, List.any_append, Bool.or_eq_false_iff] at h
  exact h.1

/-- No error has been reported. -/
abbrev Session.Clean (s : Session) : Prop :=
  s.diagnostics.hasErrors = false

theorem Session.Clean.of_append {s s' : Session} (h : s'.Clean)
    (hs : ∃ more, s'.diagnostics = s.diagnostics ++ more) : s.Clean := by
  obtain ⟨more, hs⟩ := hs
  rw [Session.Clean, hs] at h
  exact Diagnostics.hasErrors_of_append h

namespace Source

/-- Running `m` only adds problems, and when none of all is an error its result satisfies `Q`. -/
def Ends {α : Type} (m : Bind α) (Q : α → Prop) : Prop :=
  ∀ ds : Diagnostics, (∃ more, (m.run ds).2 = ds ++ more) ∧
    (Diagnostics.hasErrors (m.run ds).2 = false → Q (m.run ds).1)

namespace Ends

variable {α β : Type}

theorem pure {Q : α → Prop} {a : α} (h : Q a) : Ends (Pure.pure a) Q :=
  fun ds => ⟨⟨[], (List.append_nil ds).symm⟩, fun _ => h⟩

/-- What the first part ensures is at hand when the result of the second is judged. -/
theorem bind {m : Bind α} {f : α → Bind β} {P : α → Prop} {Q : β → Prop} (hm : Ends m P)
    (hf : ∀ a, Ends (f a) fun b => P a → Q b) : Ends (m >>= f) Q := by
  intro ds
  obtain ⟨⟨more, hmore⟩, hP⟩ := hm ds
  obtain ⟨⟨more', hmore'⟩, hQ⟩ := hf (m.run ds).1 (m.run ds).2
  have hrun : (m >>= f).run ds = (f (m.run ds).1).run (m.run ds).2 := rfl
  rw [hrun]
  refine ⟨⟨more ++ more', by rw [hmore', hmore, List.append_assoc]⟩, fun hok => hQ hok (hP ?_)⟩
  rw [hmore'] at hok
  exact Diagnostics.hasErrors_of_append hok

/-- A part that reports an error may end anyhow. -/
theorem report {b : Binder} {pos : Position} {f : Fault} (hf : f.severity = .error) (a : α)
    (Q : α → Prop) : Ends (do b.report pos f; return a) Q := by
  intro ds
  refine ⟨⟨_, rfl⟩, fun hok => ?_⟩
  have hrun : ((do b.report pos f; return a : Bind α).run ds).2
      = ds ++ [(CompileError.fault b.path pos f).toDiagnostic] := rfl
  rw [hrun] at hok
  simp [Diagnostics.hasErrors, Diagnostic.isError, CompileError.toDiagnostic,
    CompileError.severity, hf] at hok

end Ends

/-- The name has not been bound yet. -/
def Fresh (us : List Use) : Prop :=
  ∀ u ∈ us, u.ref.target = none

/-- The second is the first, bound to the symbol that the name resolves to. -/
structure Binds (t : SymbolTable) (u u' : Use) : Prop where
  expects : u'.expects = u.expects
  target : ∃ id symbol, t.resolve u.ref.scope u.ref.name u.ref.seq = some id ∧
    t.symbols[id]? = some symbol ∧ symbol.name = u.ref.name ∧
    u.expects.accepts symbol.kind = true ∧ u'.ref = { u.ref with target := some id }

/-- In a well-formed table, names that were not bound before are bound one by one. -/
def Bound (t : SymbolTable) (us us' : List Use) : Prop :=
  t.WellFormed → Fresh us → List.Forall₂ (Binds t) us us'

/-- The same for the names of a body, with the same variables in sight. -/
def ReadingsBound (t : SymbolTable) (xs xs' : List (Locals × Use)) : Prop :=
  t.WellFormed → Fresh (xs.map (·.2)) →
    List.Forall₂ (fun x x' => x'.1 = x.1 ∧ Binds t x.2 x'.2) xs xs'

namespace Bound

variable {t : SymbolTable} {us us' vs vs' : List Use}

theorem nil : Bound t [] [] := fun _ _ => .nil

theorem append (h : Bound t us us') (h' : Bound t vs vs') : Bound t (us ++ vs) (us' ++ vs') := by
  intro hwf hfresh
  refine List.rel_append (h hwf fun u hu => hfresh u ?_) (h' hwf fun u hu => hfresh u ?_)
  · exact List.mem_append_left _ hu
  · exact List.mem_append_right _ hu

theorem see (h : Bound t us us') (σ : Locals) : ReadingsBound t (σ.see us) (σ.see us') := by
  intro hwf hfresh
  rw [Locals.map_see] at hfresh
  simp only [Locals.see, List.forall₂_map_left_iff, List.forall₂_map_right_iff]
  exact (h hwf hfresh).imp fun u u' hb => ⟨trivial, hb⟩

end Bound

namespace ReadingsBound

variable {t : SymbolTable} {xs xs' ys ys' : List (Locals × Use)}

theorem nil : ReadingsBound t [] [] := fun _ _ => .nil

theorem append (h : ReadingsBound t xs xs') (h' : ReadingsBound t ys ys') :
    ReadingsBound t (xs ++ ys) (xs' ++ ys') := by
  intro hwf hfresh
  rw [List.map_append] at hfresh
  refine List.rel_append (h hwf fun u hu => hfresh u ?_) (h' hwf fun u hu => hfresh u ?_)
  · exact List.mem_append_left _ hu
  · exact List.mem_append_right _ hu

theorem uses (h : ReadingsBound t xs xs') : Bound t (xs.map (·.2)) (xs'.map (·.2)) := by
  intro hwf hfresh
  simp only [List.forall₂_map_left_iff, List.forall₂_map_right_iff]
  exact (h hwf hfresh).imp fun x x' hx => hx.2

end ReadingsBound

namespace Binder

/-! ## Names and types -/

section

variable (b : Binder)

theorem name_ends (e : Expectation) (r : NameRef) :
    Ends (b.name e r) fun r' => b.symbols.WellFormed → Binds b.symbols ⟨e, r⟩ ⟨e, r'⟩ := by
  unfold Binder.name
  split
  · exact .report rfl r _
  · rename_i id hid
    cases hsym : b.symbols.symbols[id]? with
    | none =>
      -- What a name resolves to is a symbol, if the table is well formed.
      refine .pure fun hwf => ?_
      obtain ⟨symbol, hsome, -⟩ := hwf.symbol_of_resolve hid
      rw [hsym] at hsome
      cases hsome
    | some symbol =>
      dsimp only
      split
      · rename_i hk
        refine .pure fun hwf => ⟨rfl, id, symbol, hid, hsym, ?_, hk, rfl⟩
        obtain ⟨symbol', hsym', hname⟩ := hwf.symbol_of_resolve hid
        rw [hsym] at hsym'
        cases hsym'
        exact hname
      · exact .report rfl r _

theorem name?_ends (e : Expectation) : ∀ r : Option NameRef,
    Ends (b.name? e r) fun r' =>
      Bound b.symbols (r.map (⟨e, ·⟩)).toList (r'.map (⟨e, ·⟩)).toList
  | none => .pure .nil
  | some r => (b.name_ends e r).bind fun _ => .pure fun h hwf _ => .cons (h hwf) .nil

theorem type_ends : ∀ ty : TypeRef, Ends (b.type ty) fun ty' => Bound b.symbols ty.uses ty'.uses
  | .primitive p => .pure .nil
  | .list item => (type_ends item).bind fun item' => .pure id
  | .named r => by
    rw [Binder.type]
    split
    · exact (b.name_ends .type r).bind fun r' => .pure fun h hwf _ => .cons (h hwf) .nil
    · rename_i hr
      refine .pure fun _ hfresh => absurd ?_ hr
      rw [hfresh ⟨.type, r⟩ (List.mem_singleton.2 rfl)]
      rfl

theorem type?_ends : ∀ ty : Option TypeRef, Ends (b.type? ty) fun ty' =>
    Bound b.symbols (ty.elim [] TypeRef.uses) (ty'.elim [] TypeRef.uses)
  | none => .pure .nil
  | some ty => (b.type_ends ty).bind fun _ => .pure id

theorem fields_ends : ∀ fs : List Field, Ends (b.fields fs) fun fs' =>
    fs'.map (·.name) = fs.map (·.name) ∧ Bound b.symbols (Field.usesAll fs) (Field.usesAll fs')
  | [] => .pure ⟨rfl, .nil⟩
  | f :: rest => by
    refine (b.type_ends f.type).bind fun type => (fields_ends rest).bind fun rest' => ?_
    refine .pure fun ⟨hnames, hrest⟩ htype => ⟨by simp [hnames], ?_⟩
    simp only [Field.usesAll, List.flatMap_cons]
    exact htype.append hrest

theorem columns_ends : ∀ cs : List Column, Ends (b.columns cs) fun cs' =>
    Bound b.symbols (cs.flatMap (·.type.uses)) (cs'.flatMap (·.type.uses))
  | [] => .pure .nil
  | c :: rest => by
    refine (b.type_ends c.type).bind fun type => (columns_ends rest).bind fun rest' => ?_
    refine .pure fun hrest htype => ?_
    simp only [List.flatMap_cons]
    exact htype.append hrest

end

/-! ## Expressions and statements -/

mutual

theorem expr_ends (b : Binder) :
    ∀ e : Expr, Ends (b.expr e) fun e' => Bound b.symbols e.uses e'.uses
  | .literal l => by
    rw [Binder.expr]
    exact .pure .nil
  | .name r => by
    rw [Binder.expr]
    exact (b.name_ends .value r).bind fun _ => .pure fun h hwf _ => .cons (h hwf) .nil
  | .member object name => by
    rw [Binder.expr]
    exact (expr_ends b object).bind fun _ => .pure id
  | .call callee args => by
    rw [Binder.expr]
    exact (expr_ends b callee).bind fun _ => (exprs_ends b args).bind fun _ =>
      .pure fun hargs hcallee => hcallee.append hargs
  | .native path args pos => by
    rw [Binder.expr]
    exact (exprs_ends b args).bind fun _ => .pure id
  | .unary op e => by
    rw [Binder.expr]
    exact (expr_ends b e).bind fun _ => .pure id
  | .binary op lhs rhs => by
    rw [Binder.expr]
    exact (expr_ends b lhs).bind fun _ => (expr_ends b rhs).bind fun _ =>
      .pure fun hrhs hlhs => hlhs.append hrhs

theorem exprs_ends (b : Binder) : ∀ es : List Expr,
    Ends (b.exprs es) fun es' => Bound b.symbols (Expr.usesAll es) (Expr.usesAll es')
  | [] => by
    rw [Binder.exprs]
    exact .pure .nil
  | e :: rest => by
    rw [Binder.exprs]
    exact (expr_ends b e).bind fun _ => (exprs_ends b rest).bind fun _ =>
      .pure fun hrest he => he.append hrest

end

theorem expr?_ends (b : Binder) : ∀ e : Option Expr,
    Ends (b.expr? e) fun e' => Bound b.symbols (e.elim [] Expr.uses) (e'.elim [] Expr.uses)
  | none => .pure .nil
  | some e => (b.expr_ends e).bind fun _ => .pure id

theorem iter_ends (b : Binder) : ∀ i : ForIter,
    Ends (b.iter i) fun i' => Bound b.symbols i.uses i'.uses
  | .range first last => (b.expr_ends first).bind fun _ => (b.expr_ends last).bind fun _ =>
      .pure fun hlast hfirst => hfirst.append hlast
  | .each items => (b.expr_ends items).bind fun _ => .pure id

/-- A bound statement declares what it declared before, and its names are bound as they are read. -/
structure StmtBound (t : SymbolTable) (s s' : Stmt) : Prop where
  after : ∀ σ, s'.after σ = s.after σ
  vars : s'.vars = s.vars
  readings : ∀ σ, ReadingsBound t (s.readings σ) (s'.readings σ)

/-- The same for statements. -/
structure BodyBound (t : SymbolTable) (ss ss' : List Stmt) : Prop where
  after : ∀ σ, Stmt.afterAll σ ss' = Stmt.afterAll σ ss
  vars : Stmt.varsAll ss' = Stmt.varsAll ss
  readings : ∀ σ, ReadingsBound t (Stmt.readingsAll σ ss) (Stmt.readingsAll σ ss')

/-- The same for an `else`. -/
structure ElseBound (t : SymbolTable) (ss ss' : Option (List Stmt)) : Prop where
  after : ∀ σ, Stmt.afterElse σ ss' = Stmt.afterElse σ ss
  vars : Stmt.varsElse ss' = Stmt.varsElse ss
  readings : ∀ σ, ReadingsBound t (Stmt.readingsElse σ ss) (Stmt.readingsElse σ ss')

mutual

theorem stmt_ends (b : Binder) :
    ∀ s : Stmt, Ends (b.stmt s) (StmtBound b.symbols s)
  | .declare name type init pos => by
    rw [Binder.stmt]
    refine (b.type?_ends type).bind fun _ => (b.expr?_ends init).bind fun _ => ?_
    exact .pure fun hinit htype => ⟨fun _ => rfl, rfl, fun σ => (htype.append hinit).see σ⟩
  | .assign target value pos => by
    rw [Binder.stmt]
    refine (b.expr_ends target).bind fun _ => (b.expr_ends value).bind fun _ => ?_
    exact .pure fun hvalue htarget => ⟨fun _ => rfl, rfl, fun σ => (htarget.append hvalue).see σ⟩
  | .cond test yes no pos => by
    rw [Binder.stmt]
    refine (b.expr_ends test).bind fun _ => (stmts_ends b yes).bind fun _ =>
      (stmts?_ends b no).bind fun _ => .pure fun hno hyes htest => ⟨fun σ => ?_, ?_, fun σ => ?_⟩
    · simp only [Stmt.after, hno.after, hyes.after]
    · simp only [Stmt.vars, hno.vars, hyes.vars]
    · simp only [Stmt.readings, hyes.after]
      exact ((htest.see σ).append (hyes.readings σ)).append (hno.readings _)
  | .loop test body pos => by
    rw [Binder.stmt]
    refine (b.expr_ends test).bind fun _ => (stmts_ends b body).bind fun _ =>
      .pure fun hbody htest => ⟨fun σ => ?_, ?_, fun σ => ?_⟩
    · simp only [Stmt.after, hbody.after]
    · simp only [Stmt.vars, hbody.vars]
    · exact (htest.see σ).append (hbody.readings σ)
  | .each var iter body pos => by
    rw [Binder.stmt]
    refine (b.iter_ends iter).bind fun _ => (stmts_ends b body).bind fun _ =>
      .pure fun hbody hiter => ⟨fun σ => ?_, ?_, fun σ => ?_⟩
    · simp only [Stmt.after, hbody.after]
    · simp only [Stmt.vars, hbody.vars]
    · exact (hiter.see σ).append (hbody.readings _)
  | .ret value pos => by
    rw [Binder.stmt]
    refine (b.expr?_ends value).bind fun _ => ?_
    exact .pure fun h => ⟨fun _ => rfl, rfl, fun σ => h.see σ⟩
  | .leave pos => by
    rw [Binder.stmt]
    exact .pure ⟨fun _ => rfl, rfl, fun _ => .nil⟩
  | .next pos => by
    rw [Binder.stmt]
    exact .pure ⟨fun _ => rfl, rfl, fun _ => .nil⟩
  | .expr e pos => by
    rw [Binder.stmt]
    refine (b.expr_ends e).bind fun _ => ?_
    exact .pure fun h => ⟨fun _ => rfl, rfl, fun σ => h.see σ⟩

theorem stmts_ends (b : Binder) :
    ∀ ss : List Stmt, Ends (b.stmts ss) (BodyBound b.symbols ss)
  | [] => by
    rw [Binder.stmts]
    exact .pure ⟨fun _ => rfl, rfl, fun _ => .nil⟩
  | s :: rest => by
    rw [Binder.stmts]
    refine (stmt_ends b s).bind fun _ => (stmts_ends b rest).bind fun _ =>
      .pure fun hrest hs => ⟨fun σ => ?_, ?_, fun σ => ?_⟩
    · simp only [Stmt.afterAll, hs.after, hrest.after]
    · simp only [Stmt.varsAll, hs.vars, hrest.vars]
    · simp only [Stmt.readingsAll, hs.after]
      exact (hs.readings σ).append (hrest.readings _)

theorem stmts?_ends (b : Binder) :
    ∀ ss : Option (List Stmt), Ends (b.stmts? ss) (ElseBound b.symbols ss)
  | none => by
    rw [Binder.stmts?]
    exact .pure ⟨fun _ => rfl, rfl, fun _ => .nil⟩
  | some body => by
    rw [Binder.stmts?]
    refine (stmts_ends b body).bind fun _ => ?_
    exact .pure fun h => ⟨h.after, h.vars, h.readings⟩

end

/-! ## Declarations -/

mutual

theorem markupNode_ends (b : Binder) :
    ∀ node : MarkupNode, Ends (b.markupNode node) fun node' =>
      Bound b.symbols (nodeUses node) (nodeUses node')
  | .element tag attrs component children => by
    rw [Binder.markupNode]
    exact (b.name?_ends .page component).bind fun _ => (markup_ends b children).bind fun _ =>
      .pure fun hchildren hcomponent => hcomponent.append hchildren
  | .text s => by
    rw [Binder.markupNode]
    · exact .pure .nil
    · intro tag attrs component children h
      cases h
  | .interpolation source => by
    rw [Binder.markupNode]
    · exact .pure .nil
    · intro tag attrs component children h
      cases h

theorem markup_ends (b : Binder) :
    ∀ nodes : List MarkupNode, Ends (b.markup nodes) fun nodes' =>
      Bound b.symbols (markupUses nodes) (markupUses nodes')
  | [] => by
    rw [Binder.markup]
    exact .pure .nil
  | node :: rest => by
    rw [Binder.markup]
    exact (markupNode_ends b node).bind fun _ => (markup_ends b rest).bind fun _ =>
      .pure fun hrest hnode => hnode.append hrest

end

/-- A bound function declares what it declared before, and its names are bound as they are read. -/
structure FuncBound (t : SymbolTable) (f f' : Func) : Prop where
  header : f'.header = f.header
  name : f'.name = f.name
  params : f'.params.map (·.name) = f.params.map (·.name)
  body : BodyBound t f.body f'.body
  uses : Bound t f.uses f'.uses

theorem func_ends (b : Binder) (f : Func) :
    Ends (b.func f) (FuncBound b.symbols f) := by
  unfold Binder.func
  refine (b.fields_ends f.params).bind fun _ => (b.type?_ends f.returns).bind fun _ =>
    (b.stmts_ends f.body).bind fun _ => .pure fun hbody hreturns hparams => ?_
  exact ⟨rfl, rfl, hparams.1, hbody, (hparams.2.append hreturns).append (hbody.readings _).uses⟩

theorem queries_ends (b : Binder) (mapper : String) :
    ∀ qs : List Query, Ends (b.queries mapper qs) fun qs' =>
      Bound b.symbols (qs.flatMap Query.uses) (qs'.flatMap Query.uses)
  | [] => .pure .nil
  | q :: rest => by
    let inner : Binder := { b with context := s!"query {mapper}.{q.name}" }
    refine (inner.fields_ends q.params).bind fun _ =>
      (inner.type?_ends q.returns).bind fun _ =>
      (queries_ends b mapper rest).bind fun _ => .pure fun hrest hreturns hparams => ?_
    simp only [List.flatMap_cons]
    exact (hparams.2.append hreturns).append hrest

theorem handlers_ends (b : Binder) (controller : String) :
    ∀ fs : List Func, Ends (b.handlers controller fs) (List.Forall₂ (FuncBound b.symbols) fs)
  | [] => .pure .nil
  | f :: rest => by
    let inner : Binder := { b with context := s!"handler {controller}.{f.name}" }
    exact (inner.func_ends f).bind fun _ => (handlers_ends b controller rest).bind fun _ =>
      .pure fun hrest hf => .cons hf hrest

theorem members_ends (b : Binder) :
    ∀ ms : List ApiMember, Ends (b.members ms) fun ms' =>
      Bound b.symbols (ms.map fun m => ⟨.controller, m.controller⟩)
        (ms'.map fun m => ⟨.controller, m.controller⟩)
  | [] => .pure .nil
  | m :: rest => by
    refine (b.name_ends .controller m.controller).bind fun _ =>
      (members_ends b rest).bind fun _ => .pure fun hrest hm => ?_
    exact Bound.append (fun hwf _ => .cons (hm hwf) .nil) hrest

end Binder

/-- The functions with bodies in a declaration, each with what its controller declares. -/
def Decl.bodies : Decl → List (List Declared × Func)
  | .func f => [([], f)]
  | .controller c => c.handlers.map (c.declared, ·)
  | _ => []

/-- Domains and tables are bound first, because result shapes copy their types. -/
def Decl.isData : Decl → Bool
  | .domain _ | .table _ => true
  | _ => false

/-- A bound declaration declares what it declared before, and its names are bound. -/
structure DeclBound (t : SymbolTable) (d d' : Decl) : Prop where
  header : d'.header = d.header
  declared : d'.declared? = d.declared?
  isData : d'.isData = d.isData
  uses : Bound t d.uses d'.uses
  bodies : List.Forall₂ (fun x x' => x'.1 = x.1 ∧ Binder.FuncBound t x.2 x'.2) d.bodies d'.bodies

namespace Binder

theorem dataDecl_ends (b : Binder) (d : Decl) :
    Ends (b.dataDecl d) fun d' => if d.isData then DeclBound b.symbols d d' else d' = d := by
  cases d with
  | domain d =>
    let inner : Binder := { b with context := s!"domain {d.name}" }
    exact (inner.type_ends d.type).bind fun _ => .pure fun h => ⟨rfl, rfl, rfl, h, .nil⟩
  | table t =>
    let inner : Binder := { b with context := s!"table {t.name}" }
    exact (inner.columns_ends t.columns).bind fun _ => .pure fun h => ⟨rfl, rfl, rfl, h, .nil⟩
  | _ => exact .pure rfl

theorem flatMap_uses_of_funcs {t : SymbolTable} {fs fs' : List Func}
    (h : List.Forall₂ (FuncBound t) fs fs') :
    Bound t (fs.flatMap Func.uses) (fs'.flatMap Func.uses) := by
  induction h with
  | nil => exact .nil
  | cons hf _ ih =>
    simp only [List.flatMap_cons]
    exact hf.uses.append ih

theorem declared_of_funcs {t : SymbolTable} {c : Controller} {fs' : List Func}
    (h : List.Forall₂ (FuncBound t) c.handlers fs') :
    Controller.declared { c with handlers := fs' } = c.declared := by
  obtain ⟨header, name, handlers⟩ := c
  simp only [Controller.declared] at h ⊢
  induction h with
  | nil => rfl
  | cons hf _ ih => simp only [List.map_cons, hf.name, hf.header, ih]

theorem otherDecl_ends (b : Binder) (d : Decl) :
    Ends (b.otherDecl d) fun d' => if d.isData then d' = d else DeclBound b.symbols d d' := by
  cases d with
  | importFile d => exact .pure ⟨rfl, rfl, rfl, .nil, .nil⟩
  | domain d => exact .pure rfl
  | table t => exact .pure rfl
  | entity e =>
    let inner : Binder := { b with context := s!"entity {e.name}" }
    exact (inner.name?_ends .table e.table).bind fun _ =>
      (inner.fields_ends e.fields).bind fun _ =>
      .pure fun hfields htable => ⟨rfl, rfl, rfl, htable.append hfields.2, .nil⟩
  | record r =>
    let inner : Binder := { b with context := s!"struct {r.name}" }
    exact (inner.fields_ends r.fields).bind fun _ => .pure fun h => ⟨rfl, rfl, rfl, h.2, .nil⟩
  | mapper m =>
    exact (b.queries_ends m.name m.queries).bind fun _ =>
      .pure fun h => ⟨rfl, rfl, rfl, h, .nil⟩
  | controller c =>
    refine (b.handlers_ends c.name c.handlers).bind fun fs' => .pure fun h => ?_
    refine ⟨rfl, rfl, rfl, flatMap_uses_of_funcs h, ?_⟩
    simp only [Decl.bodies, declared_of_funcs h, List.forall₂_map_left_iff,
      List.forall₂_map_right_iff]
    exact h.imp fun f f' hf => ⟨trivial, hf⟩
  | api a =>
    let inner : Binder := { b with context := s!"api {a.name}" }
    exact (inner.members_ends a.members).bind fun _ => .pure fun h => ⟨rfl, rfl, rfl, h, .nil⟩
  | page p =>
    let inner : Binder := { b with context := s!"page {p.name}" }
    exact (inner.name?_ends .page p.parent).bind fun _ =>
      (inner.name?_ends .page p.layout).bind fun _ =>
      (inner.markup_ends p.markup).bind fun _ => .pure fun hmarkup hlayout hparent =>
        ⟨rfl, rfl, rfl, (hparent.append hlayout).append hmarkup, .nil⟩
  | property p =>
    let inner : Binder := { b with context := s!"property {p.name}" }
    exact (inner.type_ends p.type).bind fun _ => (inner.expr?_ends p.value).bind fun _ =>
      .pure fun hvalue htype => ⟨rfl, rfl, rfl, htype.append hvalue, .nil⟩
  | func f =>
    let inner : Binder := { b with context := s!"function {f.name}" }
    exact (inner.func_ends f).bind fun _ => .pure fun h =>
      ⟨by simp [Decl.header, h.header], by simp [Decl.declared?, h.header, h.name], rfl, h.uses,
        .cons ⟨rfl, h⟩ .nil⟩

theorem decls_ends {bindDecl : Decl → Bind Decl} {R : Decl → Decl → Prop}
    (h : ∀ d, Ends (bindDecl d) (R d)) :
    ∀ ds : List Decl, Ends (Binder.decls bindDecl ds) (List.Forall₂ R ds)
  | [] => .pure .nil
  | d :: rest => (h d).bind fun _ => (decls_ends h rest).bind fun _ =>
      .pure fun hrest hd => .cons hd hrest

end Binder

end Source

end Scaffold
