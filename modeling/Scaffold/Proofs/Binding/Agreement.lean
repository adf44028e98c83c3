import Scaffold.Proofs.Binding
import Scaffold.Proofs.InStep

/-!
# Binding names in two sessions

Sources that are alike are bound alike in sessions in step: their names come to mean symbols that
belong together, and the same problems are found.

* `Binder.dataDecl_alike`, `Binder.otherDecl_alike`: what the two passes make of a declaration.
* `Binder.decls_alike`: a pass over all declarations.
-/

namespace Scaffold.Source

/-- Two bindings end alike: with values so related, and if `exact` holds with the same problems. -/
def EndAlike (exact : Prop) {α β : Type} (m : Bind α) (m' : Bind β) (V : α → β → Prop) : Prop :=
  ∀ ds ds', ∃ es es', (m.run ds).2 = ds ++ es ∧ (m'.run ds').2 = ds' ++ es' ∧
    (exact → es = es') ∧ V (m.run ds).1 (m'.run ds').1

namespace EndAlike

variable {exact : Prop} {α β γ δ : Type} {m : Bind α} {m' : Bind β} {f : α → Bind γ}
  {f' : β → Bind δ} {V : α → β → Prop} {W : γ → δ → Prop}

theorem pure {a : α} {b : β} (h : V a b) : EndAlike exact (Pure.pure a) (Pure.pure b) V :=
  fun ds ds' => ⟨[], [], (List.append_nil ds).symm, (List.append_nil ds').symm, fun _ => rfl, h⟩

theorem bind (hm : EndAlike exact m m' V) (hf : ∀ a b, V a b → EndAlike exact (f a) (f' b) W) :
    EndAlike exact (m >>= f) (m' >>= f') W := by
  intro ds ds'
  obtain ⟨es, es', hrun, hrun', hes, hV⟩ := hm ds ds'
  obtain ⟨fs, fs', hnext, hnext', hfs, hW⟩ := hf _ _ hV (m.run ds).2 (m'.run ds').2
  refine ⟨es ++ fs, es' ++ fs', ?_, ?_, fun hexact => by rw [hes hexact, hfs hexact], hW⟩
  · rw [← List.append_assoc, ← hrun]
    exact hnext
  · rw [← List.append_assoc, ← hrun']
    exact hnext'

theorem report {pos pos' : Position} {fault : Fault} {b b' : Binder} (hpath : b.path = b'.path)
    (hpos : exact → pos = pos') {a : α} {a' : β} (h : V a a') :
    EndAlike exact (do b.report pos fault; return a) (do b'.report pos' fault; return a') V :=
  fun ds ds' => ⟨_, _, rfl, rfl, fun hexact => by rw [hpath, hpos hexact], h⟩

end EndAlike

/-- A header holds no names. -/
theorem Header.Alike.bound {N : Numbers} {exact : Prop} {h h' : Header}
    (ha : h.Alike (N.unbound exact) h') : h.Alike (N.bound exact) h' :=
  ⟨ha.node, ha.pos, ha.annotations⟩

/-- Two binders work in sessions in step, on one file, and name the declaration alike. -/
structure Binder.Alike (N : Numbers) (exact : Prop) (b b' : Binder) : Prop where
  numbers : N.OneToOne
  tables : b.symbols.TablesAlike N exact b'.symbols
  path : b.path = b'.path
  context : b.context = b'.context

namespace Binder

variable {N : Numbers} {exact : Prop} {b b' : Binder}

theorem Alike.within (h : b.Alike N exact b') (context : String) :
    Binder.Alike N exact { b with context } { b' with context } :=
  ⟨h.numbers, h.tables, h.path, rfl⟩

section

variable (hb : b.Alike N exact b')

include hb

theorem name_alike (expectation : Expectation) {r r' : NameRef} (h : (N.unbound exact).ref r r') :
    EndAlike exact (b.name expectation r) (b'.name expectation r') (N.bound exact).ref := by
  obtain ⟨hname, hpos, hplace, htarget, htarget'⟩ := h
  have hresolve := hb.tables.resolve hb.numbers hplace r.name
  have hkept : (N.bound exact).ref r r' :=
    ⟨hname, hpos, hplace, by rw [htarget, htarget']; exact .none⟩
  unfold name
  rw [← hname]
  generalize b.symbols.resolve r.scope r.name r.seq = t,
    b'.symbols.resolve r'.scope r.name r'.seq = t' at hresolve
  cases hresolve with
  | none =>
    dsimp only
    rw [← hb.context]
    exact .report hb.path hpos hkept
  | @some i i' hi =>
    obtain ⟨f, hi⟩ := hi
    obtain ⟨y, y', hy, hy', hsymbols⟩ := hb.tables.symbols hi
    dsimp only
    rw [hy, hy']
    dsimp only
    rw [← hsymbols.kind]
    split
    · exact .pure ⟨rfl, hpos, hplace, .some ⟨f, hi⟩⟩
    · exact .report hb.path hpos hkept

theorem name?_alike (expectation : Expectation) {r r' : Option NameRef}
    (h : Option.Rel (N.unbound exact).ref r r') :
    EndAlike exact (b.name? expectation r) (b'.name? expectation r')
      (Option.Rel (N.bound exact).ref) := by
  cases h with
  | none => exact .pure .none
  | some hr => exact (name_alike hb expectation hr).bind fun _ _ hr => .pure (.some hr)

theorem type_alike {t t' : TypeRef} (h : t.Alike (N.unbound exact) t') :
    EndAlike exact (b.type t) (b'.type t') (TypeRef.Alike (N.bound exact)) := by
  induction h with
  | primitive p => exact .pure (.primitive p)
  | list _ ih => exact ih.bind fun _ _ ht => .pure (.list ht)
  | named h =>
    obtain ⟨-, -, -, htarget, htarget'⟩ := id h
    rw [type, type, htarget, htarget']
    exact (name_alike hb .type h).bind fun _ _ hr => .pure (.named hr)

theorem type?_alike {t t' : Option TypeRef}
    (h : Option.Rel (TypeRef.Alike (N.unbound exact)) t t') :
    EndAlike exact (b.type? t) (b'.type? t') (Option.Rel (TypeRef.Alike (N.bound exact))) := by
  cases h with
  | none => exact .pure .none
  | some ht => exact (type_alike hb ht).bind fun _ _ ht => .pure (.some ht)

theorem fields_alike : ∀ {fs fs' : List Field},
    List.Forall₂ (Field.Alike (N.unbound exact)) fs fs' →
    EndAlike exact (b.fields fs) (b'.fields fs') (List.Forall₂ (Field.Alike (N.bound exact)))
  | _, _, .nil => .pure .nil
  | _, _, .cons h hs => (type_alike hb h.type).bind fun _ _ ht =>
      (fields_alike hs).bind fun _ _ hs => .pure (.cons ⟨h.name, ht, h.pos⟩ hs)

theorem columns_alike : ∀ {cs cs' : List Column},
    List.Forall₂ (Column.Alike (N.unbound exact)) cs cs' →
    EndAlike exact (b.columns cs) (b'.columns cs') (List.Forall₂ (Column.Alike (N.bound exact)))
  | _, _, .nil => .pure .nil
  | _, _, .cons h hs => (type_alike hb h.type).bind fun _ _ ht =>
      (columns_alike hs).bind fun _ _ hs =>
        .pure (.cons ⟨h.name, ht, h.auto, h.nullable, h.default, h.pos⟩ hs)

end

/-! ## Expressions and statements -/

mutual

theorem expr_alike (hb : b.Alike N exact b') : ∀ {e e' : Expr}, e.Alike (N.unbound exact) e' →
    EndAlike exact (b.expr e) (b'.expr e') (Expr.Alike (N.bound exact))
  | _, _, .literal l => by
    rw [expr, expr]
    exact .pure (.literal l)
  | _, _, .name h => by
    rw [expr, expr]
    exact (name_alike hb .value h).bind fun _ _ hr => .pure (.name hr)
  | _, _, .member name h => by
    rw [expr, expr]
    exact (expr_alike hb h).bind fun _ _ he => .pure (.member name he)
  | _, _, .call h hs => by
    rw [expr, expr]
    exact (expr_alike hb h).bind fun _ _ he => (exprs_alike hb hs).bind fun _ _ hs =>
      .pure (.call he hs)
  | _, _, .native path hpos hs => by
    rw [expr, expr]
    exact (exprs_alike hb hs).bind fun _ _ hs => .pure (.native path hpos hs)
  | _, _, .unary op h => by
    rw [expr, expr]
    exact (expr_alike hb h).bind fun _ _ he => .pure (.unary op he)
  | _, _, .binary op h h' => by
    rw [expr, expr]
    exact (expr_alike hb h).bind fun _ _ he => (expr_alike hb h').bind fun _ _ he' =>
      .pure (.binary op he he')

theorem exprs_alike (hb : b.Alike N exact b') : ∀ {es es' : List Expr},
    List.Forall₂ (Expr.Alike (N.unbound exact)) es es' →
    EndAlike exact (b.exprs es) (b'.exprs es') (List.Forall₂ (Expr.Alike (N.bound exact)))
  | _, _, .nil => by
    rw [exprs, exprs]
    exact .pure .nil
  | _, _, .cons h hs => by
    rw [exprs, exprs]
    exact (expr_alike hb h).bind fun _ _ he => (exprs_alike hb hs).bind fun _ _ hs =>
      .pure (.cons he hs)

end

section

variable (hb : b.Alike N exact b')

include hb

theorem expr?_alike {e e' : Option Expr} (h : Option.Rel (Expr.Alike (N.unbound exact)) e e') :
    EndAlike exact (b.expr? e) (b'.expr? e') (Option.Rel (Expr.Alike (N.bound exact))) := by
  cases h with
  | none => exact .pure .none
  | some he => exact (expr_alike hb he).bind fun _ _ he => .pure (.some he)

theorem iter_alike {i i' : ForIter} (h : i.Alike (N.unbound exact) i') :
    EndAlike exact (b.iter i) (b'.iter i') (ForIter.Alike (N.bound exact)) := by
  cases h with
  | range h h' =>
    exact (expr_alike hb h).bind fun _ _ he => (expr_alike hb h').bind fun _ _ he' =>
      .pure (.range he he')
  | each h => exact (expr_alike hb h).bind fun _ _ he => .pure (.each he)

end

mutual

theorem stmt_alike (hb : b.Alike N exact b') : ∀ {s s' : Stmt}, s.Alike (N.unbound exact) s' →
    EndAlike exact (b.stmt s) (b'.stmt s') (Stmt.Alike (N.bound exact))
  | _, _, .declare name hpos htype hinit => by
    rw [stmt, stmt]
    exact (type?_alike hb htype).bind fun _ _ htype => (expr?_alike hb hinit).bind fun _ _ hinit =>
      .pure (.declare name hpos htype hinit)
  | _, _, .assign hpos h h' => by
    rw [stmt, stmt]
    exact (expr_alike hb h).bind fun _ _ he => (expr_alike hb h').bind fun _ _ he' =>
      .pure (.assign hpos he he')
  | _, _, .cond hpos h hyes hno => by
    rw [stmt, stmt]
    exact (expr_alike hb h).bind fun _ _ he => (stmts_alike hb hyes).bind fun _ _ hyes =>
      (stmts?_alike hb hno).bind fun _ _ hno => .pure (.cond hpos he hyes hno)
  | _, _, .loop hpos h hbody => by
    rw [stmt, stmt]
    exact (expr_alike hb h).bind fun _ _ he => (stmts_alike hb hbody).bind fun _ _ hbody =>
      .pure (.loop hpos he hbody)
  | _, _, .each var hpos h hbody => by
    rw [stmt, stmt]
    exact (iter_alike hb h).bind fun _ _ hi => (stmts_alike hb hbody).bind fun _ _ hbody =>
      .pure (.each var hpos hi hbody)
  | _, _, .ret hpos h => by
    rw [stmt, stmt]
    exact (expr?_alike hb h).bind fun _ _ he => .pure (.ret hpos he)
  | _, _, .leave hpos => by
    rw [stmt, stmt]
    exact .pure (.leave hpos)
  | _, _, .next hpos => by
    rw [stmt, stmt]
    exact .pure (.next hpos)
  | _, _, .expr hpos h => by
    rw [stmt, stmt]
    exact (expr_alike hb h).bind fun _ _ he => .pure (.expr hpos he)

theorem stmts_alike (hb : b.Alike N exact b') : ∀ {ss ss' : List Stmt},
    List.Forall₂ (Stmt.Alike (N.unbound exact)) ss ss' →
    EndAlike exact (b.stmts ss) (b'.stmts ss') (List.Forall₂ (Stmt.Alike (N.bound exact)))
  | _, _, .nil => by
    rw [stmts, stmts]
    exact .pure .nil
  | _, _, .cons h hs => by
    rw [stmts, stmts]
    exact (stmt_alike hb h).bind fun _ _ h => (stmts_alike hb hs).bind fun _ _ hs =>
      .pure (.cons h hs)

theorem stmts?_alike (hb : b.Alike N exact b') : ∀ {ss ss' : Option (List Stmt)},
    Option.Rel (List.Forall₂ (Stmt.Alike (N.unbound exact))) ss ss' →
    EndAlike exact (b.stmts? ss) (b'.stmts? ss')
      (Option.Rel (List.Forall₂ (Stmt.Alike (N.bound exact))))
  | _, _, .none => by
    rw [stmts?, stmts?]
    exact .pure .none
  | _, _, .some hs => by
    rw [stmts?, stmts?]
    exact (stmts_alike hb hs).bind fun _ _ hs => .pure (.some hs)

end

/-! ## Declarations -/

mutual

theorem markupNode_alike (hb : b.Alike N exact b') : ∀ {n n' : MarkupNode},
    NodeAlike (N.unbound exact) n n' →
    EndAlike exact (b.markupNode n) (b'.markupNode n') (NodeAlike (N.bound exact))
  | _, _, .element tag attrs h hs => by
    rw [markupNode, markupNode]
    exact (name?_alike hb .page h).bind fun _ _ hr => (markup_alike hb hs).bind fun _ _ hs =>
      .pure (.element tag attrs hr hs)
  | _, _, .text s => by
    rw [markupNode, markupNode]
    · exact .pure (.text s)
    all_goals exact nofun
  | _, _, .interpolation source => by
    rw [markupNode, markupNode]
    · exact .pure (.interpolation source)
    all_goals exact nofun

theorem markup_alike (hb : b.Alike N exact b') : ∀ {ns ns' : List MarkupNode},
    List.Forall₂ (NodeAlike (N.unbound exact)) ns ns' →
    EndAlike exact (b.markup ns) (b'.markup ns') (List.Forall₂ (NodeAlike (N.bound exact)))
  | _, _, .nil => by
    rw [markup, markup]
    exact .pure .nil
  | _, _, .cons h hs => by
    rw [markup, markup]
    exact (markupNode_alike hb h).bind fun _ _ h => (markup_alike hb hs).bind fun _ _ hs =>
      .pure (.cons h hs)

end

section

variable (hb : b.Alike N exact b')

include hb

theorem func_alike {f f' : Func} (h : f.Alike (N.unbound exact) f') :
    EndAlike exact (b.func f) (b'.func f') (Func.Alike (N.bound exact)) :=
  (fields_alike hb h.params).bind fun _ _ hparams =>
    (type?_alike hb h.returns).bind fun _ _ hreturns =>
      (stmts_alike hb h.body).bind fun _ _ hbody =>
        .pure ⟨h.header.bound, h.name, hparams, hreturns, hbody⟩

theorem queries_alike (mapper : String) : ∀ {qs qs' : List Query},
    List.Forall₂ (Query.Alike (N.unbound exact)) qs qs' →
    EndAlike exact (b.queries mapper qs) (b'.queries mapper qs')
      (List.Forall₂ (Query.Alike (N.bound exact)))
  | _, _, .nil => .pure .nil
  | q :: _, _, .cons h hs => by
    rw [queries, queries, ← h.name]
    have hinner := hb.within s!"query {mapper}.{q.name}"
    exact (fields_alike hinner h.params).bind fun _ _ hparams =>
      (type?_alike hinner h.returns).bind fun _ _ hreturns =>
        (queries_alike mapper hs).bind fun _ _ hs =>
          .pure (.cons ⟨h.header.bound, rfl, hparams, hreturns, h.sql, h.sqlPos, h.place⟩ hs)

theorem handlers_alike (controller : String) : ∀ {fs fs' : List Func},
    List.Forall₂ (Func.Alike (N.unbound exact)) fs fs' →
    EndAlike exact (b.handlers controller fs) (b'.handlers controller fs')
      (List.Forall₂ (Func.Alike (N.bound exact)))
  | _, _, .nil => .pure .nil
  | _, _, .cons h hs => by
    rw [handlers, handlers, ← h.name]
    exact (func_alike (hb.within _) h).bind fun _ _ hf =>
      (handlers_alike controller hs).bind fun _ _ hs => .pure (.cons hf hs)

theorem members_alike : ∀ {ms ms' : List ApiMember},
    List.Forall₂ (ApiMember.Alike (N.unbound exact)) ms ms' →
    EndAlike exact (b.members ms) (b'.members ms') (List.Forall₂ (ApiMember.Alike (N.bound exact)))
  | _, _, .nil => .pure .nil
  | _, _, .cons h hs => (name_alike hb .controller h.controller).bind fun _ _ hr =>
      (members_alike hs).bind fun _ _ hs => .pure (.cons ⟨hr, h.handler, h.pos⟩ hs)

end

/-- Declarations that are alike when domains and tables have been bound, and nothing else. -/
inductive DeclsBetween (N : Numbers) (exact : Prop) : Decl → Decl → Prop where
  | data {d d' : Decl} : d.isData = true → d.Alike (N.bound exact) d' → DeclsBetween N exact d d'
  | other {d d' : Decl} : d.isData = false → d.Alike (N.unbound exact) d' →
    DeclsBetween N exact d d'

section

variable (hb : b.Alike N exact b')

include hb

theorem dataDecl_alike {d d' : Decl} (h : d.Alike (N.unbound exact) d') :
    EndAlike exact (b.dataDecl d) (b'.dataDecl d') (DeclsBetween N exact) := by
  cases h with
  | domain h =>
    unfold dataDecl
    dsimp only
    rw [← h.name]
    exact (type_alike (hb.within _) h.type).bind fun _ _ ht =>
      .pure (.data rfl (.domain ⟨h.header.bound, rfl, ht⟩))
  | table h =>
    unfold dataDecl
    dsimp only
    rw [← h.name]
    refine (columns_alike (hb.within _) h.columns).bind fun _ _ hs => .pure (.data rfl (.table ?_))
    exact ⟨h.header.bound, rfl, hs, h.keys, h.indexes.imp fun _ _ hi =>
      ⟨hi.name, hi.columns, hi.unique, hi.pos⟩⟩
  | importFile h => exact .pure (.other rfl (.importFile h))
  | entity h => exact .pure (.other rfl (.entity h))
  | record h => exact .pure (.other rfl (.record h))
  | mapper h => exact .pure (.other rfl (.mapper h))
  | controller h => exact .pure (.other rfl (.controller h))
  | api h => exact .pure (.other rfl (.api h))
  | page h => exact .pure (.other rfl (.page h))
  | property h => exact .pure (.other rfl (.property h))
  | func h => exact .pure (.other rfl (.func h))

theorem otherDecl_alike {d d' : Decl} (h : DeclsBetween N exact d d') :
    EndAlike exact (b.otherDecl d) (b'.otherDecl d') (Decl.Alike (N.bound exact)) := by
  cases h with
  | data hdata h =>
    cases h with
    | domain h => exact .pure (.domain h)
    | table h => exact .pure (.table h)
    | _ => cases hdata
  | other hdata h =>
    cases h with
    | domain _ => cases hdata
    | table _ => cases hdata
    | importFile h => exact .pure (.importFile ⟨h.header.bound, h.written, h.resolved⟩)
    | @entity e _ h =>
      unfold otherDecl
      dsimp only
      rw [← h.name]
      have hinner := hb.within s!"entity {e.name}"
      exact (name?_alike hinner .table h.table).bind fun _ _ htable =>
        (fields_alike hinner h.fields).bind fun _ _ hfields =>
          .pure (.entity ⟨h.header.bound, rfl, htable, hfields⟩)
    | record h =>
      unfold otherDecl
      dsimp only
      rw [← h.name]
      exact (fields_alike (hb.within _) h.fields).bind fun _ _ hfields =>
        .pure (.record ⟨h.header.bound, rfl, hfields⟩)
    | mapper h =>
      unfold otherDecl
      dsimp only
      rw [← h.name]
      exact (queries_alike hb _ h.queries).bind fun _ _ hqueries =>
        .pure (.mapper ⟨h.header.bound, rfl, hqueries⟩)
    | controller h =>
      unfold otherDecl
      dsimp only
      rw [← h.name]
      exact (handlers_alike hb _ h.handlers).bind fun _ _ hhandlers =>
        .pure (.controller ⟨h.header.bound, rfl, hhandlers⟩)
    | api h =>
      unfold otherDecl
      dsimp only
      rw [← h.name]
      exact (members_alike (hb.within _) h.members).bind fun _ _ hmembers =>
        .pure (.api ⟨h.header.bound, rfl, hmembers⟩)
    | @page p _ h =>
      unfold otherDecl
      dsimp only
      rw [← h.name]
      have hinner := hb.within s!"page {p.name}"
      exact (name?_alike hinner .page h.parent).bind fun _ _ hparent =>
        (name?_alike hinner .page h.layout).bind fun _ _ hlayout =>
          (markup_alike hinner h.markup).bind fun _ _ hmarkup =>
            .pure (.page ⟨h.header.bound, rfl, hparent, hlayout, hmarkup⟩)
    | @property p _ h =>
      unfold otherDecl
      dsimp only
      rw [← h.name]
      have hinner := hb.within s!"property {p.name}"
      exact (type_alike hinner h.type).bind fun _ _ htype =>
        (expr?_alike hinner h.value).bind fun _ _ hvalue =>
          .pure (.property ⟨h.header.bound, rfl, htype, hvalue⟩)
    | func h =>
      unfold otherDecl
      dsimp only
      rw [← h.name]
      exact (func_alike (hb.within _) h).bind fun _ _ hf => .pure (.func hf)

end

theorem decls_alike {f f' : Decl → Bind Decl} {R S : Decl → Decl → Prop}
    (hf : ∀ d d', R d d' → EndAlike exact (f d) (f' d') S) : ∀ {ds ds' : List Decl},
    List.Forall₂ R ds ds' → EndAlike exact (decls f ds) (decls f' ds') (List.Forall₂ S)
  | _, _, .nil => .pure .nil
  | _, _, .cons h hs => (hf _ _ h).bind fun _ _ hd => (decls_alike hf hs).bind fun _ _ hds =>
      .pure (.cons hd hds)

/-- Declarations stay alike between the passes when more numbers belong together. -/
theorem DeclsBetween.mono {N' : Numbers} (hle : N.Le N') {d d' : Decl}
    (h : DeclsBetween N exact d d') : DeclsBetween N' exact d d' := by
  cases h with
  | data hdata h => exact .data hdata (h.mono hle.bound)
  | other hdata h => exact .other hdata (h.mono hle.unbound)

end Binder

end Scaffold.Source
