import Mathlib.Data.List.Forall2
import Scaffold.Proofs.Binding.Agreement
import Scaffold.Proofs.Completion

/-!
# Completing documents in two sessions

Documents that are alike are completed alike in sessions in step. The shapes of queries are made
from tables that belong together, and are numbered and declared in both sessions.

* `Shape.table?_alike`: a name in a query means tables that are alike.
* `Shape.pending_alike`: the shapes are alike, and so are the warnings.
* `Shape.declareAll_alike`: declaring them keeps the sessions in step.
* `complete_alike`: the documents are alike once their names are bound.
-/

namespace Scaffold.Source

open SymbolTable

namespace Shape

variable {N N' : Numbers} {exact : Prop} {env env' : Env} {q q' : Query}

/-! ## Tables -/

/-- Shapes are made in step: the names of two documents that are alike mean the same tables. -/
structure Env.Alike (N : Numbers) (exact : Prop) (env env' : Env) : Prop where
  numbers : N.OneToOne
  tables : env.symbols.TablesAlike N exact env'.symbols
  file : N.file env.document.file env'.document.file
  path : env.document.path = env'.document.path
  decls : List.Forall₂ (Binder.DeclsBetween N exact) env.document.decls env'.document.decls
  documents : ∀ {f i i'}, N.symbol f i i' → ∀ y, env.symbols.symbols[i]? = some y →
    Option.Rel (fun d d' => d.Alike N (N.bound exact) d') (env.imports.get? y.path)
      (env'.imports.get? y.path)

/-- The first value found in lists that are related member by member. -/
theorem relOption_findSome? {α β γ δ : Type} {R : α → β → Prop} {S : γ → δ → Prop}
    {f : α → Option γ} {g : β → Option δ} (hfg : ∀ a b, R a b → Option.Rel S (f a) (g b))
    {as : List α} {bs : List β} (h : List.Forall₂ R as bs) :
    Option.Rel S (as.findSome? f) (bs.findSome? g) := by
  induction h with
  | nil => exact .none
  | @cons a b _ _ hab _ ih =>
    rw [List.findSome?_cons, List.findSome?_cons]
    have hfirst := hfg a b hab
    generalize f a = x, g b = y at hfirst
    cases hfirst with
    | none => exact ih
    | some hxy => exact .some hxy

/-- The first member that passes a test that related members pass or fail together. -/
theorem relOption_find? {α β : Type} {R : α → β → Prop} {p : α → Bool} {q : β → Bool}
    (hpq : ∀ a b, R a b → p a = q b) {as : List α} {bs : List β} (h : List.Forall₂ R as bs) :
    Option.Rel R (as.find? p) (bs.find? q) := by
  induction h with
  | nil => exact .none
  | cons hab _ ih =>
    rw [List.find?_cons, List.find?_cons, hpq _ _ hab]
    split
    · exact .some hab
    · exact ih

/-- Values that may be missing, as lists. -/
theorem forall₂_toList {α β : Type} {R : α → β → Prop} : ∀ {a : Option α} {b : Option β},
    Option.Rel R a b → List.Forall₂ R a.toList b.toList
  | _, _, .none => .nil
  | _, _, .some hab => .cons hab .nil

/-- A test that related members pass or fail together. -/
theorem any_eq_of_forall₂ {α β : Type} {R : α → β → Prop} {f : α → Bool} {g : β → Bool}
    (hfg : ∀ a b, R a b → f a = g b) {as : List α} {bs : List β} (h : List.Forall₂ R as bs) :
    as.any f = bs.any g := by
  induction h with
  | nil => rfl
  | cons hab _ ih => rw [List.any_cons, List.any_cons, hfg _ _ hab, ih]

/-- Documents whose tables are alike have the same tables under numbers that belong together. -/
theorem document_table?_alike {d d' : Document} {R : Decl → Decl → Prop}
    (hR : ∀ {a a'}, R a a' → a.Alike (N.bound exact) a' ∨
      a.isData = false ∧ a.Alike (N.unbound exact) a')
    (hN : N.OneToOne) (h : List.Forall₂ R d.decls d'.decls) {i i' : NodeId} (hi : N.node i i') :
    Option.Rel (Table.Alike (N.bound exact)) (d.table? i) (d'.table? i') := by
  refine relOption_findSome? (fun a a' ha => ?_) h
  obtain ha | ⟨hdata, ha⟩ := hR ha
  · cases ha with
    | @table t t' ht =>
      have hiff : t.header.id = i ↔ t'.header.id = i' := hN.node ht.header.node hi
      dsimp only
      by_cases htable : t.header.id = i
      · rw [if_pos (beq_iff_eq.2 htable), if_pos (beq_iff_eq.2 (hiff.1 htable))]
        exact .some ht
      · rw [if_neg (mt beq_iff_eq.1 htable), if_neg (mt beq_iff_eq.1 (mt hiff.2 htable))]
        exact .none
    | _ => exact .none
  · cases ha with
    | table _ => cases hdata
    | _ => exact .none

theorem table?_alike (h : env.Alike N exact env') (hq : q.Alike (N.unbound exact) q')
    (name : String) :
    Option.Rel (Table.Alike (N.bound exact)) (table? env q name) (table? env' q' name) := by
  unfold table?
  have hresolve := h.tables.resolve h.numbers hq.place name
  generalize env.symbols.resolve q.scope name q.seq = r,
    env'.symbols.resolve q'.scope name q'.seq = r' at hresolve
  cases hresolve with
  | none => exact .none
  | @some i i' hi =>
    obtain ⟨f, hi⟩ := hi
    obtain ⟨y, y', hy, hy', hsymbols⟩ := h.tables.symbols hi
    simp only [Option.bind_eq_bind, Option.bind_some, hy, hy', ← hsymbols.kind]
    split
    · exact .none
    · rename_i htable
      have hkind : y.kind = .table := by simpa using htable
      have hnode := hsymbols.node (by simp [hkind])
      have hfile : y.file = env.document.file ↔ y'.file = env'.document.file :=
        h.numbers.file (hsymbols.file ▸ hsymbols.file') h.file
      by_cases hown : y.file = env.document.file
      · rw [if_pos (beq_iff_eq.2 hown), if_pos (beq_iff_eq.2 (hfile.1 hown))]
        refine document_table?_alike (fun ha => ?_) h.numbers h.decls hnode
        cases ha with
        | data _ ha => exact .inl ha
        | other hdata ha => exact .inr ⟨hdata, ha⟩
      · rw [if_neg (mt beq_iff_eq.1 hown), if_neg (mt beq_iff_eq.1 (mt hfile.2 hown)),
          ← hsymbols.path]
        have hdocument := h.documents hi y hy
        generalize env.imports.get? y.path = x, env'.imports.get? y.path = x' at hdocument
        cases hdocument with
        | none => exact .none
        | some hd => exact document_table?_alike .inl h.numbers hd.decls hnode

/-! ## Columns -/

/-- Fields that are alike, and the same warnings if `exact` holds. -/
structure Draft.Alike (N : Numbers) (exact : Prop) (d d' : Draft) : Prop where
  fields : List.Forall₂ (Field.Alike (N.bound exact)) d.fields d'.fields
  warnings : exact → d.warnings = d'.warnings

namespace Draft.Alike

variable {d d' : Draft} (h : Draft.Alike N exact d d')

include h

theorem add (name : String) {type type' : TypeRef} {pos pos' : Position}
    (htype : type.Alike (N.bound exact) type') (hpos : exact → pos = pos') :
    Draft.Alike N exact (d.add name type pos) (d'.add name type' pos') := by
  have hsame : d.fields.any (·.name == name) = d'.fields.any (·.name == name) :=
    any_eq_of_forall₂ (fun _ _ hf => by rw [hf.name]) h.fields
  unfold Draft.add
  rw [← hsame]
  split
  · exact h
  · exact ⟨forall₂_snoc h.fields ⟨rfl, htype, hpos⟩, h.warnings⟩

theorem warn {w w' : Diagnostic} (hw : exact → w = w') :
    Draft.Alike N exact { d with warnings := d.warnings ++ [w] }
      { d' with warnings := d'.warnings ++ [w'] } :=
  ⟨h.fields, fun hexact => by rw [h.warnings hexact, hw hexact]⟩

end Draft.Alike

/-- Tables read under one name. -/
def ReadAlike (N : Numbers) (exact : Prop) (s s' : ReadTable) : Prop :=
  s.1 = s'.1 ∧ Option.Rel (Table.Alike (N.bound exact)) s.2 s'.2

theorem unknown_alike (h : env.Alike N exact env') (hq : q.Alike (N.unbound exact) q')
    (mapper name : String) (hexact : exact) :
    unknown env mapper q name = unknown env' mapper q' name := by
  rw [unknown, unknown, h.path, hq.name, hq.sqlPos hexact]

/-- The tables that fit a qualifier. -/
theorem fits_alike {sources sources' : List ReadTable}
    (h : List.Forall₂ (ReadAlike N exact) sources sources') (qualifier : Option String) :
    List.Forall₂ (ReadAlike N exact) (sources.filter (·.fits qualifier))
      (sources'.filter (·.fits qualifier)) := by
  induction h with
  | nil => exact .nil
  | @cons s s' _ _ hs _ ih =>
    rw [List.filter_cons, List.filter_cons, ReadTable.fits, ReadTable.fits, ← hs.1]
    split
    · exact .cons hs ih
    · exact ih

/-- The column of a name. -/
theorem column_alike {L : Likeness} {cs cs' : List Column}
    (h : List.Forall₂ (Column.Alike L) cs cs') (name : String) :
    Option.Rel (Column.Alike L) (cs.find? (·.name == name)) (cs'.find? (·.name == name)) :=
  relOption_find? (fun _ _ hc => by rw [hc.name]) h

theorem addColumn_alike (h : env.Alike N exact env') (hq : q.Alike (N.unbound exact) q')
    (mapper : String) {sources sources' : List ReadTable}
    (hsources : List.Forall₂ (ReadAlike N exact) sources sources') {d d' : Draft}
    (hd : Draft.Alike N exact d d') (column : Sql.SelectColumn) :
    Draft.Alike N exact (addColumn env mapper q sources d column)
      (addColumn env' mapper q' sources' d' column) := by
  have hunknown := unknown_alike h hq mapper
  cases column with
  | star qualifier =>
    refine List.rel_foldl (fun d d' hd s s' hs => ?_) hd (fits_alike hsources qualifier)
    obtain ⟨source, table⟩ := s
    obtain ⟨source', table'⟩ := s'
    obtain ⟨rfl, htable⟩ := hs
    cases htable with
    | none => exact hd.warn (hunknown _)
    | some ht =>
      refine List.rel_foldl (fun d d' hd c c' hc => ?_) hd ht.columns
      rw [← hc.name]
      exact hd.add _ hc.type hq.sqlPos
  | column qualifier name renamed =>
    have hfound : Option.Rel (Column.Alike (N.bound exact))
        (((sources.filter (·.fits qualifier)).filterMap (·.2)).findSome?
          fun t => t.columns.find? (·.name == name))
        (((sources'.filter (·.fits qualifier)).filterMap (·.2)).findSome?
          fun t => t.columns.find? (·.name == name)) := by
      refine relOption_findSome? (R := Table.Alike (N.bound exact)) (fun t t' ht => ?_) ?_
      · exact column_alike ht.columns name
      · exact List.rel_filterMap (fun _ _ hs => hs.2) (fits_alike hsources qualifier)
    rw [addColumn, addColumn]
    generalize (((sources.filter (·.fits qualifier)).filterMap (·.2)).findSome?
      fun t => t.columns.find? (·.name == name)) = c,
      (((sources'.filter (·.fits qualifier)).filterMap (·.2)).findSome?
        fun t => t.columns.find? (·.name == name)) = c' at hfound
    cases hfound with
    | none => exact (hd.warn (hunknown _)).add _ (.primitive _) hq.sqlPos
    | some hc => exact hd.add _ hc.type hq.sqlPos
  | expr name function =>
    rw [addColumn, addColumn]
    split
    · exact hd.add _ (.primitive _) hq.sqlPos
    · exact (hd.warn (hunknown _)).add _ (.primitive _) hq.sqlPos

theorem columns_alike (h : env.Alike N exact env') (hq : q.Alike (N.unbound exact) q')
    (mapper : String) : Draft.Alike N exact (columns env mapper q) (columns env' mapper q') := by
  unfold columns
  rw [← hq.sql]
  split
  · exact ⟨.nil, fun _ => rfl⟩
  · rename_i list _
    have hsources : List.Forall₂ (ReadAlike N exact)
        (list.tables.map fun s => (s, table? env q s.name))
        (list.tables.map fun s => (s, table? env' q' s.name)) := by
      rw [List.forall₂_map_left_iff, List.forall₂_map_right_iff]
      exact List.forall₂_same.2 fun s _ => ⟨rfl, table?_alike h hq s.name⟩
    have hstart : Draft.Alike N exact {} {} := ⟨.nil, fun _ => rfl⟩
    exact List.rel_foldl
      (fun d d' hd c c' (hc : c = c') => hc ▸ addColumn_alike h hq mapper hsources hd c)
      hstart (List.forall₂_eq_eq_eq ▸ rfl)

/-! ## Shapes without numbers -/

/-- Shapes that are alike but for their numbers. -/
structure ShapesAlike (L : Likeness) (s s' : ResultShape) : Prop where
  name : s.name = s'.name
  mapper : s.mapper = s'.mapper
  query : s.query = s'.query
  columns : List.Forall₂ (Field.Alike L) s.columns s'.columns
  pos : L.pos s.pos s'.pos

theorem ShapesAlike.mono {L L' : Likeness} (hle : L.Le L') {s s' : ResultShape}
    (h : ShapesAlike L s s') : ShapesAlike L' s s' :=
  ⟨h.name, h.mapper, h.query, Field.Alike.monoAll hle h.columns, hle.pos h.pos⟩

/-- Shapes that are alike, and the same warnings if `exact` holds. -/
structure Pending.Alike (N : Numbers) (exact : Prop) (p p' : Pending) : Prop where
  shapes : List.Forall₂ (ShapesAlike (N.bound exact)) p.shapes p'.shapes
  warnings : exact → p.warnings = p'.warnings

theorem coreName?_alike {L : Likeness} : ∀ {t t' : TypeRef}, t.Alike L t' →
    Option.Rel L.ref t.coreName? t'.coreName?
  | _, _, .primitive _ => .none
  | _, _, .list h => by
    rw [TypeRef.coreName?, TypeRef.coreName?]
    exact coreName?_alike h
  | _, _, .named h => .some h

theorem addQuery_alike (h : env.Alike N exact env') (mapper : String) {p p' : Pending}
    (hp : Pending.Alike N exact p p') (hq : q.Alike (N.unbound exact) q') :
    Pending.Alike N exact (addQuery env mapper p q) (addQuery env' mapper p' q') := by
  have hreturns : Option.Rel (N.unbound exact).ref (q.returns.bind TypeRef.coreName?)
      (q'.returns.bind TypeRef.coreName?) := by
    have hreturns := hq.returns
    generalize q.returns = r, q'.returns = r' at hreturns
    cases hreturns with
    | none => exact .none
    | some ht => exact coreName?_alike ht
  unfold addQuery
  generalize q.returns.bind TypeRef.coreName? = r,
    q'.returns.bind TypeRef.coreName? = r' at hreturns
  cases hreturns with
  | none => exact hp
  | @some r r' hr =>
    dsimp only
    have hresolve : (env.symbols.resolve q.scope r.name q.seq).isSome
        = (env'.symbols.resolve q'.scope r'.name q'.seq).isSome := by
      have hresolve := h.tables.resolve h.numbers hq.place r.name
      rw [← hr.1]
      generalize env.symbols.resolve q.scope r.name q.seq = x,
        env'.symbols.resolve q'.scope r.name q'.seq = x' at hresolve
      cases hresolve <;> rfl
    have hshapes : p.shapes.any (·.name == r.name) = p'.shapes.any (·.name == r'.name) :=
      any_eq_of_forall₂ (fun _ _ hs => by rw [hs.name, hr.1]) hp.shapes
    rw [← hresolve, ← hshapes, ← hq.sql]
    split
    · exact hp
    · have hcolumns := columns_alike h hq mapper
      refine ⟨forall₂_snoc hp.shapes ⟨hr.1, rfl, hq.name, hcolumns.fields, hr.2.1⟩, ?_⟩
      exact fun hexact => by rw [hp.warnings hexact, hcolumns.warnings hexact]

theorem pending_alike (h : env.Alike N exact env') :
    Pending.Alike N exact (pending env) (pending env') := by
  have hstart : Pending.Alike N exact {} {} := ⟨.nil, fun _ => rfl⟩
  refine List.rel_foldl (fun p p' hp d d' hd => ?_) hstart h.decls
  cases hd with
  | data hdata hd =>
    cases hd with
    | mapper _ => cases hdata
    | _ => exact hp
  | other _ hd =>
    cases hd with
    | mapper hm =>
      dsimp only
      rw [← hm.name]
      refine List.rel_foldl (R := Query.Alike (N.unbound exact)) ?_ hp hm.queries
      exact fun p p' hp q q' hq => addQuery_alike h _ hp hq
    | _ => exact hp

/-! ## Declaring shapes -/

section

variable {before : Diagnostics} {d d' : Document}

/-- What declaring shapes for two documents relies on, besides sessions in step. -/
structure Declares (N : Numbers) (d d' : Document) (s s' : Session) : Prop where
  file : N.file d.file d'.file
  path : d.path = d'.path
  scope : N.scope d.file d.scope d'.scope
  isFile : s.symbols.IsFile d.scope
  reading : s.imports.get? d.path = none ∧ s'.imports.get? d.path = none

theorem declare_alike {s s' : Session} (h : s.InStep N exact before s')
    (hd : Declares N d d' s s') {shape shape' : ResultShape}
    (hshape : ShapesAlike (N.bound exact) shape shape') : ∃ N₁ : Numbers, N.AddsNoPlace N₁ ∧
      (declare d s shape).2.InStep N₁ exact before (declare d' s' shape').2 ∧
      Declares N₁ d d' (declare d s shape).2 (declare d' s' shape').2 ∧
      Option.Rel (ResultShape.Alike (N₁.bound exact)) (declare d s shape).1
        (declare d' s' shape').1 := by
  have hnext := h.takeNode
  have hle := N.le_addNode s.nextNode s'.nextNode
  have hlookup := h.tables.lookup hd.scope shape.name
  rw [declare_eq, declare_eq, ← hshape.name]
  generalize s.symbols.lookup d.scope shape.name = l,
    s'.symbols.lookup d'.scope shape.name = l' at hlookup
  cases hlookup with
  | some _ =>
    exact ⟨_, ⟨hle, id⟩, hnext,
      ⟨hle.file hd.file, hd.path, hle.scope hd.scope, hd.isFile, hd.reading⟩, .none⟩
  | none =>
    have hsymbols : SymbolsAlike (N.addNode s.nextNode s'.nextNode) exact d.file
        (symbol d s shape) (symbol d' s' shape') :=
      ⟨hshape.name, rfl, hle.file hd.file, rfl, hd.path, hshape.pos, fun _ => .inr ⟨rfl, rfl⟩⟩
    have hplain : ∀ z, s.symbols.scopes[d.scope]? = some z → z.kind ≠ .block := by
      intro z hz
      obtain ⟨sc, hsc, hk⟩ := hd.isFile
      cases hsc.symm.trans hz
      simp [hk]
    have hbind := hnext.bind (hle.scope hd.scope) hsymbols (.inl hplain) hd.reading
    have hle' := hle.trans (Numbers.le_addSymbol d.file s.symbols.symbols.size
      s'.symbols.symbols.size)
    refine ⟨_, ⟨hle', id⟩, hbind, ⟨hle'.file hd.file, hd.path, hle'.scope hd.scope, ?_, hd.reading⟩,
      .some ⟨.inr ⟨rfl, rfl⟩, rfl, hshape.mapper, hshape.query, ?_, hshape.pos⟩⟩
    · exact hd.isFile.grows (grows_bind _ _ _)
    · exact Field.Alike.monoAll hle'.bound hshape.columns

theorem declareAll_alike {shapes : List ResultShape} :
    ∀ {shapes' : List ResultShape} {N : Numbers} {s s' : Session}, s.InStep N exact before s' →
    Declares N d d' s s' → List.Forall₂ (ShapesAlike (N.bound exact)) shapes shapes' →
    ∃ N₁ : Numbers, N.AddsNoPlace N₁ ∧
      (declareAll d shapes s).2.InStep N₁ exact before (declareAll d' shapes' s').2 ∧
      List.Forall₂ (ResultShape.Alike (N₁.bound exact)) (declareAll d shapes s).1
        (declareAll d' shapes' s').1 := by
  induction shapes with
  | nil =>
    intro shapes' N s s' h hd hshapes
    cases hshapes
    exact ⟨N, .refl N, h, .nil⟩
  | cons shape rest ih =>
    intro shapes' N s s' h hd hshapes
    cases hshapes with
    | cons hshape hrest =>
      obtain ⟨N₁, hle, h₁, hd₁, hdeclared⟩ := declare_alike h hd hshape
      obtain ⟨N₂, hle₂, h₂, hshapes⟩ := ih h₁ hd₁ (hrest.imp fun _ _ hs => hs.mono hle.le.bound)
      have hfirst := forall₂_toList (relOption_mono (fun _ _ hs => hs.mono hle₂.le.bound) hdeclared)
      exact ⟨N₂, hle.trans hle₂, h₂, List.rel_append hfirst hshapes⟩

end

end Shape

/-! ## Completing -/

section

variable {N : Numbers} {exact : Prop} {before : Diagnostics} {d d' : Document} {s s' : Session}

/-- What a pass over the declarations reports is reported in both sessions. -/
theorem EndAlike.reported {α β : Type} {m : Bind α} {m' : Bind β} {V : α → β → Prop}
    (hm : EndAlike exact m m' V) (h : s.InStep N exact before s') :
    Session.InStep N exact before { s with diagnostics := (m.run s.diagnostics).2 }
      { s' with diagnostics := (m'.run s'.diagnostics).2 } ∧
      V (m.run s.diagnostics).1 (m'.run s'.diagnostics).1 := by
  obtain ⟨es, es', hrun, hrun', hes, hV⟩ := hm s.diagnostics s'.diagnostics
  rw [hrun, hrun']
  exact ⟨h.report hes, hV⟩

theorem firstPass_alike (h : s.InStep N exact before s')
    (hd : List.Forall₂ (Decl.Alike (N.unbound exact)) d.decls d'.decls) (hpath : d.path = d'.path) :
    Session.InStep N exact before { s with diagnostics := (firstPass d s).2 }
      { s' with diagnostics := (firstPass d' s').2 } ∧
      List.Forall₂ (Binder.DeclsBetween N exact) (firstPass d s).1 (firstPass d' s').1 := by
  have hb : Binder.Alike N exact ⟨s.symbols, d.path, ""⟩ ⟨s'.symbols, d'.path, ""⟩ :=
    ⟨h.numbers, h.tables, hpath, rfl⟩
  exact (Binder.decls_alike (R := Decl.Alike (N.unbound exact))
    (fun _ _ => Binder.dataDecl_alike hb) hd).reported h

theorem shaped_alike (h : s.InStep N exact before s') (hd : d.Alike N (N.unbound exact) d')
    (hdeclares : Shape.Declares N d d' s s') (hshapes : d.shapes = []) (hshapes' : d'.shapes = []) :
    ∃ N₁ : Numbers, N.AddsNoPlace N₁ ∧ (shaped d s).2.InStep N₁ exact before (shaped d' s').2 ∧
      List.Forall₂ (Binder.DeclsBetween N₁ exact) (firstPass d s).1 (firstPass d' s').1 ∧
      List.Forall₂ (ResultShape.Alike (N₁.bound exact)) (shaped d s).1.shapes
        (shaped d' s').1.shapes := by
  obtain ⟨hfirst, hdecls⟩ := firstPass_alike h hd.decls hd.path
  have henv : Shape.Env.Alike N exact ⟨{ d with decls := (firstPass d s).1 }, s.imports, s.symbols⟩
      ⟨{ d' with decls := (firstPass d' s').1 }, s'.imports, s'.symbols⟩ :=
    ⟨h.numbers, h.tables, hd.file, hd.path, hdecls, h.documents⟩
  have hpending := Shape.pending_alike henv
  have hbefore : Shape.Declares N { d with decls := (firstPass d s).1 }
      { d' with decls := (firstPass d' s').1 } s s' := { hdeclares with }
  obtain ⟨N₁, hle, hstep, hdeclared⟩ :=
    Shape.declareAll_alike (hfirst.report hpending.warnings) { hbefore with } hpending.shapes
  refine ⟨N₁, hle, hstep, hdecls.imp fun _ _ hd => hd.mono hle.le, ?_⟩
  have hnone : List.Forall₂ (ResultShape.Alike (N₁.bound exact)) d.shapes d'.shapes := by
    rw [hshapes, hshapes']
    exact .nil
  exact List.rel_append hnone hdeclared

theorem complete_alike (h : s.InStep N exact before s') (hd : d.Alike N (N.unbound exact) d')
    (hdeclares : Shape.Declares N d d' s s') (hshapes : d.shapes = []) (hshapes' : d'.shapes = []) :
    ∃ N₁ : Numbers, N.AddsNoPlace N₁ ∧ (complete d s).2.InStep N₁ exact before (complete d' s').2 ∧
      (complete d s).1.Alike N₁ (N₁.bound exact) (complete d' s').1 := by
  obtain ⟨N₁, hle, hstep, hdecls, hshaped⟩ := shaped_alike h hd hdeclares hshapes hshapes'
  have hb : Binder.Alike N₁ exact ⟨(shaped d s).2.symbols, d.path, ""⟩
      ⟨(shaped d' s').2.symbols, d'.path, ""⟩ := ⟨hstep.numbers, hstep.tables, hd.path, rfl⟩
  obtain ⟨hsecond, hbound⟩ := (Binder.decls_alike (R := Binder.DeclsBetween N₁ exact)
    (fun _ _ => Binder.otherDecl_alike hb) hdecls).reported hstep
  rw [complete_eq, complete_eq]
  exact ⟨N₁, hle, hsecond.closeChildren d.file d'.file,
    hle.le.file hd.file, hd.path, hd.origin, hle.le.scope hd.scope, hd.imports, hbound, hshaped⟩

end

end Scaffold.Source
