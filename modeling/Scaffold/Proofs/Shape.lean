import Mathlib.Data.List.Induction
import Mathlib.Data.List.Nodup
import Scaffold.Source.Shape

/-!
# What result shapes are made of

A shape takes its fields from the entries of a select list, one by one, and leaves out what has a
name that is there already. An entry whose type is not known is a string, with a warning; a star
stands for the columns of the tables that its qualifier fits, and for nothing at all if there are
none.

* `columns_accounts`: the fields and warnings of a select account for its list.
* `addColumn_silent`: a star that fits no table leaves no trace.
* `pending_gathered`: each undeclared name gets one shape, from the first query that returns it.
-/

namespace Scaffold.Source

/-- The queries of a declaration, each with the name of its mapper. -/
def Decl.queries : Decl → List (String × Query)
  | .mapper m => m.queries.map (m.name, ·)
  | _ => []

def Document.queries (d : Document) : List (String × Query) :=
  d.decls.flatMap Decl.queries

namespace Shape

/-! ## Drafts -/

namespace Draft

def names (d : Draft) : List String :=
  d.fields.map (·.name)

/-- The second draft has all that the first has. -/
structure Extends (d d' : Draft) : Prop where
  fields : ∀ f ∈ d.fields, f ∈ d'.fields
  warnings : ∀ w ∈ d.warnings, w ∈ d'.warnings

namespace Extends

variable {d d' d'' : Draft}

theorem refl (d : Draft) : d.Extends d :=
  ⟨fun _ => id, fun _ => id⟩

theorem trans (h : d.Extends d') (h' : d'.Extends d'') : d.Extends d'' :=
  ⟨fun f hf => h'.fields f (h.fields f hf), fun w hw => h'.warnings w (h.warnings w hw)⟩

theorem names (h : d.Extends d') {name : String} (hname : name ∈ d.names) : name ∈ d'.names := by
  obtain ⟨f, hf, rfl⟩ := List.mem_map.1 hname
  exact List.mem_map_of_mem (h.fields f hf)

theorem foldl {α : Type} {step : Draft → α → Draft} (hstep : ∀ d x, Extends d (step d x)) :
    ∀ (xs : List α) (d : Draft), d.Extends (xs.foldl step d)
  | [], d => .refl d
  | x :: xs, d => (hstep d x).trans (foldl hstep xs (step d x))

end Extends

/-- What a step does for its item, and what more fields and warnings leave as it is, holds at the end
for all items. -/
theorem foldl_all {α : Type} {step : Draft → α → Draft} {Q : α → Draft → Prop}
    (hstep : ∀ d x, Extends d (step d x)) (hdone : ∀ d x, Q x (step d x))
    (hkeep : ∀ d d' x, d.Extends d' → Q x d → Q x d') :
    ∀ (xs : List α) (d : Draft), ∀ x ∈ xs, Q x (xs.foldl step d)
  | y :: xs, d, x, hx => by
    obtain rfl | hx := List.mem_cons.1 hx
    · exact hkeep _ _ x (.foldl hstep xs _) (hdone d x)
    · exact foldl_all hstep hdone hkeep xs (step d y) x hx

variable (d : Draft) (name : String) (type : TypeRef) (pos : Position)

/-- A name that is there is not added again. -/
theorem add_cases : (name ∈ d.names ∧ d.add name type pos = d) ∨
    (name ∉ d.names ∧
      d.add name type pos = { d with fields := d.fields ++ [⟨name, type, pos⟩] }) := by
  have hany : d.fields.any (·.name == name) = true ↔ name ∈ d.names := by
    simp [names]
  unfold add
  split
  · rename_i h
    exact .inl ⟨hany.1 h, rfl⟩
  · rename_i h
    exact .inr ⟨fun hname => h (hany.2 hname), rfl⟩

theorem extends_add : d.Extends (d.add name type pos) := by
  obtain ⟨-, heq⟩ | ⟨-, heq⟩ := d.add_cases name type pos
  · rw [heq]
    exact .refl d
  · rw [heq]
    exact ⟨fun f => List.mem_append_left _, fun _ => id⟩

theorem mem_names_add : name ∈ (d.add name type pos).names := by
  obtain ⟨hname, heq⟩ | ⟨-, heq⟩ := d.add_cases name type pos
  · rwa [heq]
  · rw [heq]
    simp [names]

def warn (w : Diagnostic) : Draft :=
  { d with warnings := d.warnings ++ [w] }

theorem extends_warn (w : Diagnostic) : d.Extends (d.warn w) :=
  ⟨fun _ => id, fun _ => List.mem_append_left _⟩

theorem mem_warnings_warn (w : Diagnostic) : w ∈ (d.warn w).warnings :=
  List.mem_append_right _ (List.mem_singleton.2 rfl)

end Draft

/-! ## The entries of a select list -/

def readTables (env : Env) (q : Query) (list : Sql.SelectList) : List ReadTable :=
  list.tables.map fun s => (s, table? env q s.name)

/-- The declared column that a name in the select list means: the first one in the tables that the
qualifier fits. -/
def sourceColumn? (sources : List ReadTable) (qualifier : Option String) (name : String) :
    Option Column :=
  ((sources.filter (·.fits qualifier)).filterMap (·.2)).findSome? fun t =>
    t.columns.find? (·.name == name)

section

variable (env : Env) (mapper : String) (q : Query) (sources : List ReadTable)

/-- The field comes from this entry of the select list. -/
inductive ComesFrom (warnings : Diagnostics) : Sql.SelectColumn → Field → Prop where
  /-- It copies a column of a table that the star means. -/
  | star {qualifier : Option String} {s : ReadTable} {t : Table} {c : Column} : s ∈ sources →
    s.fits qualifier = true → s.2 = some t → c ∈ t.columns →
    ComesFrom warnings (.star qualifier) ⟨c.name, c.type, q.sqlPos⟩
  /-- It has the type of the column that the entry names. -/
  | column {qualifier : Option String} {name : String} {renamed : Option String} {c : Column} :
    sourceColumn? sources qualifier name = some c →
    ComesFrom warnings (.column qualifier name renamed) ⟨renamed.getD name, c.type, q.sqlPos⟩
  | unknownColumn {qualifier : Option String} {name : String} {renamed : Option String} :
    sourceColumn? sources qualifier name = none →
    unknown env mapper q (renamed.getD name) ∈ warnings →
    ComesFrom warnings (.column qualifier name renamed)
      ⟨renamed.getD name, .primitive .string, q.sqlPos⟩
  | count {name : String} :
    ComesFrom warnings (.expr name (some "count")) ⟨name, .primitive .bigint, q.sqlPos⟩
  | unknownExpr {name : String} {function : Option String} : function ≠ some "count" →
    unknown env mapper q name ∈ warnings →
    ComesFrom warnings (.expr name function) ⟨name, .primitive .string, q.sqlPos⟩

/-- A table that a star means has its columns among the fields; if it is not declared, there is a
warning. -/
def Heard (fields : List Field) (warnings : Diagnostics) (s : ReadTable) : Prop :=
  match s.2 with
  | some t => ∀ c ∈ t.columns, c.name ∈ fields.map (·.name)
  | none => unknown env mapper q s!"{s.1.name}.*" ∈ warnings

/-- The fields and warnings account for the entries of a select list. -/
structure Accounts (entries : List Sql.SelectColumn) (fields : List Field)
    (warnings : Diagnostics) : Prop where
  nodup : (fields.map (·.name)).Nodup
  named : ∀ c ∈ entries, ∀ name, c.outputName? = some name → name ∈ fields.map (·.name)
  stars : ∀ qualifier, .star qualifier ∈ entries → ∀ s ∈ sources, s.fits qualifier = true →
    Heard env mapper q fields warnings s
  origin : ∀ f ∈ fields, ∃ c ∈ entries, ComesFrom env mapper q sources warnings c f

end

section

variable {env : Env} {mapper : String} {q : Query} {sources : List ReadTable}

theorem ComesFrom.mono {ws ws' : Diagnostics} {c : Sql.SelectColumn} {f : Field}
    (h : ComesFrom env mapper q sources ws c f) (hws : ∀ w ∈ ws, w ∈ ws') :
    ComesFrom env mapper q sources ws' c f := by
  cases h with
  | star hs hfits ht hc => exact .star hs hfits ht hc
  | column hc => exact .column hc
  | unknownColumn hc hw => exact .unknownColumn hc (hws _ hw)
  | count => exact .count
  | unknownExpr hf hw => exact .unknownExpr hf (hws _ hw)

theorem Heard.extends {d d' : Draft} {s : ReadTable} (hd : d.Extends d')
    (h : Heard env mapper q d.fields d.warnings s) :
    Heard env mapper q d'.fields d'.warnings s := by
  unfold Heard at h ⊢
  split
  · rename_i t ht
    rw [ht] at h
    exact fun c hc => hd.names (h c hc)
  · rename_i ht
    rw [ht] at h
    exact hd.warnings _ h

theorem Accounts.mono {entries : List Sql.SelectColumn} {fields : List Field}
    {ws ws' : Diagnostics} (h : Accounts env mapper q sources entries fields ws)
    (hws : ∀ w ∈ ws, w ∈ ws') : Accounts env mapper q sources entries fields ws' where
  nodup := h.nodup
  named := h.named
  stars qualifier hc s hs hfits := by
    have hextends : Draft.Extends ⟨fields, ws⟩ ⟨fields, ws'⟩ := ⟨fun _ => id, hws⟩
    exact (h.stars qualifier hc s hs hfits).extends hextends
  origin f hf := by
    obtain ⟨c, hc, hfrom⟩ := h.origin f hf
    exact ⟨c, hc, hfrom.mono hws⟩

/-! ## Adding an entry -/

/-- The columns of one table that a star means are added, or there is a warning. -/
def addTable (env : Env) (mapper : String) (q : Query) (d : Draft) (s : ReadTable) : Draft :=
  match s.2 with
  | some t => t.columns.foldl (fun d c => d.add c.name c.type q.sqlPos) d
  | none => d.warn (unknown env mapper q s!"{s.1.name}.*")

theorem addColumn_star (d : Draft) (qualifier : Option String) :
    addColumn env mapper q sources d (.star qualifier)
      = (sources.filter (·.fits qualifier)).foldl (addTable env mapper q) d :=
  rfl

theorem addColumn_column (d : Draft) (qualifier : Option String) (name : String)
    (renamed : Option String) : addColumn env mapper q sources d (.column qualifier name renamed)
      = match sourceColumn? sources qualifier name with
        | some c => d.add (renamed.getD name) c.type q.sqlPos
        | none => (d.warn (unknown env mapper q (renamed.getD name))).add (renamed.getD name)
          (.primitive .string) q.sqlPos :=
  rfl

theorem addColumn_expr (d : Draft) (name : String) (function : Option String) :
    addColumn env mapper q sources d (.expr name function)
      = if function = some "count" then d.add name (.primitive .bigint) q.sqlPos
        else (d.warn (unknown env mapper q name)).add name (.primitive .string) q.sqlPos := by
  simp only [addColumn, Draft.warn, beq_iff_eq]

/-- A star whose qualifier fits no table leaves no trace. -/
theorem addColumn_silent {qualifier : Option String}
    (h : ∀ s ∈ sources, s.fits qualifier = false) (d : Draft) :
    addColumn env mapper q sources d (.star qualifier) = d := by
  have hnone : sources.filter (·.fits qualifier) = [] :=
    List.filter_eq_nil_iff.2 fun s hs => by simp [h s hs]
  rw [addColumn_star, hnone, List.foldl_nil]

theorem extends_addTable (d : Draft) (s : ReadTable) : d.Extends (addTable env mapper q d s) := by
  unfold addTable
  split
  · exact .foldl (fun d c => d.extends_add _ _ _) _ d
  · exact d.extends_warn _

theorem extends_addColumn (d : Draft) (c : Sql.SelectColumn) :
    d.Extends (addColumn env mapper q sources d c) := by
  cases c with
  | star qualifier =>
    rw [addColumn_star]
    exact .foldl extends_addTable _ d
  | column qualifier name renamed =>
    rw [addColumn_column]
    split
    · exact d.extends_add _ _ _
    · exact (d.extends_warn _).trans (Draft.extends_add _ _ _ _)
  | expr name function =>
    rw [addColumn_expr]
    split
    · exact d.extends_add _ _ _
    · exact (d.extends_warn _).trans (Draft.extends_add _ _ _ _)

theorem heard_addTable (d : Draft) (s : ReadTable) :
    Heard env mapper q (addTable env mapper q d s).fields (addTable env mapper q d s).warnings s := by
  unfold Heard addTable
  cases s.2 with
  | none => exact d.mem_warnings_warn _
  | some t =>
    exact Draft.foldl_all (Q := fun c d => c.name ∈ d.names) (fun d c => d.extends_add _ _ _)
      (fun d c => d.mem_names_add _ _ _) (fun _ _ _ hd h => hd.names h) t.columns d

/-- The name of an entry is that of a field. -/
theorem named_addColumn (d : Draft) {c : Sql.SelectColumn} {name : String}
    (h : c.outputName? = some name) : name ∈ (addColumn env mapper q sources d c).names := by
  cases c with
  | star qualifier => cases h
  | column qualifier column renamed =>
    cases h
    rw [addColumn_column]
    split <;> exact Draft.mem_names_add _ _ _ _
  | expr expr function =>
    cases h
    rw [addColumn_expr]
    split <;> exact Draft.mem_names_add _ _ _ _

/-- All tables that a star means are heard. -/
theorem heard_addColumn (d : Draft) {qualifier : Option String} {s : ReadTable} (hs : s ∈ sources)
    (hfits : s.fits qualifier = true) :
    Heard env mapper q (addColumn env mapper q sources d (.star qualifier)).fields
      (addColumn env mapper q sources d (.star qualifier)).warnings s := by
  rw [addColumn_star]
  exact Draft.foldl_all (Q := fun s d => Heard env mapper q d.fields d.warnings s)
    extends_addTable heard_addTable (fun _ _ _ => Heard.extends) _ d s (List.mem_filter.2 ⟨hs, hfits⟩)

/-- The draft has a field with the name of the entry, and a star is heard by all tables it means. -/
structure Answered (env : Env) (mapper : String) (q : Query) (sources : List ReadTable)
    (c : Sql.SelectColumn) (d : Draft) : Prop where
  name : ∀ name, c.outputName? = some name → name ∈ d.names
  star : ∀ qualifier, c = .star qualifier → ∀ s ∈ sources, s.fits qualifier = true →
    Heard env mapper q d.fields d.warnings s

theorem Answered.extends {c : Sql.SelectColumn} {d d' : Draft} (hd : d.Extends d')
    (h : Answered env mapper q sources c d) : Answered env mapper q sources c d' where
  name name hname := hd.names (h.name name hname)
  star qualifier hc s hs hfits := (h.star qualifier hc s hs hfits).extends hd

theorem answered_addColumn (d : Draft) (c : Sql.SelectColumn) :
    Answered env mapper q sources c (addColumn env mapper q sources d c) where
  name _ hname := named_addColumn d hname
  star _ hc s hs hfits := by
    subst hc
    exact heard_addColumn d hs hfits

/-- So far no name comes twice, and every field comes from one of the entries. -/
structure Sound (env : Env) (mapper : String) (q : Query) (sources : List ReadTable)
    (entries : List Sql.SelectColumn) (d : Draft) : Prop where
  nodup : d.names.Nodup
  origin : ∀ f ∈ d.fields, ∃ c ∈ entries, ComesFrom env mapper q sources d.warnings c f

namespace Sound

variable {entries : List Sql.SelectColumn} {d : Draft}

theorem warn (h : Sound env mapper q sources entries d) (w : Diagnostic) :
    Sound env mapper q sources entries (d.warn w) where
  nodup := h.nodup
  origin f hf := by
    obtain ⟨c, hc, hfrom⟩ := h.origin f hf
    exact ⟨c, hc, hfrom.mono fun _ => List.mem_append_left _⟩

theorem add (h : Sound env mapper q sources entries d) {c : Sql.SelectColumn} {name : String}
    {type : TypeRef} {pos : Position} (hc : c ∈ entries)
    (hfrom : ComesFrom env mapper q sources d.warnings c ⟨name, type, pos⟩) :
    Sound env mapper q sources entries (d.add name type pos) := by
  obtain ⟨-, heq⟩ | ⟨hnew, heq⟩ := d.add_cases name type pos
  · rwa [heq]
  · rw [heq]
    refine ⟨?_, fun f hf => ?_⟩
    · have hnodup := h.nodup
      simp only [Draft.names, List.map_append, List.map_singleton] at hnew hnodup ⊢
      exact List.Nodup.append hnodup (List.nodup_singleton _) (List.disjoint_singleton.2 hnew)
    · obtain hf | hf := List.mem_append.1 hf
      · exact h.origin f hf
      · rw [List.mem_singleton.1 hf]
        exact ⟨c, hc, hfrom⟩

/-- One case for each form of an entry; a star adds columns table by table. -/
theorem addColumn (h : Sound env mapper q sources entries d) {c : Sql.SelectColumn}
    (hc : c ∈ entries) : Sound env mapper q sources entries (addColumn env mapper q sources d c) := by
  cases c with
  | star qualifier =>
    rw [addColumn_star]
    refine List.foldlRecOn _ _ h fun d hd s hs => ?_
    obtain ⟨hsource, hfits⟩ := List.mem_filter.1 hs
    unfold addTable
    split
    · rename_i t ht
      exact List.foldlRecOn _ _ hd fun d hd column hcolumn =>
        hd.add hc (.star hsource hfits ht hcolumn)
    · exact hd.warn _
  | column qualifier name renamed =>
    rw [addColumn_column]
    split
    · rename_i column hcolumn
      exact h.add hc (.column hcolumn)
    · rename_i hnone
      exact (h.warn _).add hc (.unknownColumn hnone (d.mem_warnings_warn _))
  | expr name function =>
    rw [addColumn_expr]
    split
    · rename_i hcount
      subst hcount
      exact h.add hc .count
    · rename_i hother
      exact (h.warn _).add hc (.unknownExpr hother (d.mem_warnings_warn _))

end Sound

/-- The entries of the list are added one by one. -/
theorem columns_eq (env : Env) (mapper : String) {q : Query} {list : Sql.SelectList}
    (hlist : Sql.selectList? q.sql = some list) : columns env mapper q
      = list.columns.foldl (addColumn env mapper q (readTables env q list)) {} := by
  unfold columns
  rw [hlist]
  rfl

theorem columns_of_none (env : Env) (mapper : String) {q : Query}
    (hlist : Sql.selectList? q.sql = none) : columns env mapper q = {} := by
  unfold columns
  rw [hlist]

theorem columns_sound (env : Env) (mapper : String) {q : Query} {list : Sql.SelectList}
    (hlist : Sql.selectList? q.sql = some list) :
    Sound env mapper q (readTables env q list) list.columns (columns env mapper q) := by
  rw [columns_eq env mapper hlist]
  exact List.foldlRecOn _ _ ⟨.nil, nofun⟩ fun d hd c hc => hd.addColumn hc

/-- No name comes twice in what a select returns. -/
theorem columns_nodup (env : Env) (mapper : String) (q : Query) :
    ((columns env mapper q).fields.map (·.name)).Nodup := by
  cases hlist : Sql.selectList? q.sql with
  | none =>
    rw [columns_of_none env mapper hlist]
    exact .nil
  | some list => exact (columns_sound env mapper hlist).nodup

/-- The fields and warnings of a select account for its list. -/
theorem columns_accounts (env : Env) (mapper : String) {q : Query} {list : Sql.SelectList}
    (hlist : Sql.selectList? q.sql = some list) :
    Accounts env mapper q (readTables env q list) list.columns (columns env mapper q).fields
      (columns env mapper q).warnings := by
  have hsound := columns_sound env mapper hlist
  have hall : ∀ c ∈ list.columns, Answered env mapper q (readTables env q list) c
      (columns env mapper q) := by
    rw [columns_eq env mapper hlist]
    exact Draft.foldl_all extends_addColumn answered_addColumn (fun _ _ _ => Answered.extends) _ {}
  exact ⟨hsound.nodup, fun c hc => (hall c hc).name,
    fun qualifier hc => (hall _ hc).star qualifier rfl, hsound.origin⟩

end

/-! ## The shapes of a document -/

/-- The query is a select whose return type, the name `r`, is declared nowhere. -/
structure Undeclared (env : Env) (q : Query) (r : NameRef) : Prop where
  returns : q.returns.bind TypeRef.coreName? = some r
  unresolved : env.symbols.resolve q.scope r.name q.seq = none
  select : Sql.statementKind q.sql = .select

/-- The shape of a query that returns `r`, before it is numbered. -/
def ofQuery (env : Env) (mq : String × Query) (r : NameRef) : ResultShape :=
  { id := 0, name := r.name, mapper := mq.1, query := mq.2.name
    columns := (columns env mq.1 mq.2).fields, pos := r.pos }

theorem pending_eq (env : Env) :
    pending env = env.document.queries.foldl (fun p mq => addQuery env mq.1 p mq.2) {} := by
  unfold pending Document.queries
  rw [List.foldl_flatMap]
  congr 1
  funext p d
  cases d with
  | mapper m => rw [Decl.queries, List.foldl_map]
  | _ => rfl

/-- A query with an undeclared return type gets a shape, unless one of that name is there. -/
theorem addQuery_cases (env : Env) (p : Pending) (mq : String × Query) :
    (addQuery env mq.1 p mq.2 = p ∧
      ∀ r, Undeclared env mq.2 r → r.name ∈ p.shapes.map (·.name)) ∨
    ∃ r, Undeclared env mq.2 r ∧ r.name ∉ p.shapes.map (·.name) ∧
      addQuery env mq.1 p mq.2 = ⟨p.shapes ++ [ofQuery env mq r],
        p.warnings ++ (columns env mq.1 mq.2).warnings⟩ := by
  unfold addQuery
  split
  · rename_i hnone
    refine .inl ⟨rfl, fun r hr => ?_⟩
    rw [hr.returns] at hnone
    cases hnone
  · rename_i r hr
    dsimp only
    split
    · rename_i hskip
      refine .inl ⟨rfl, fun r' hr' => ?_⟩
      have heq : r' = r := Option.some.inj (hr'.returns.symm.trans hr)
      subst heq
      simpa [hr'.unresolved, hr'.select] using hskip
    · rename_i hasked
      simp only [Bool.or_eq_true, bne_iff_ne, ne_eq, not_or, not_not, Bool.not_eq_true,
        Option.isSome_eq_false_iff, Option.isNone_iff_eq_none] at hasked
      obtain ⟨⟨hnone, hnew⟩, hselect⟩ := hasked
      exact .inr ⟨r, ⟨hr, hnone, hselect⟩, by simpa using hnew, rfl⟩

/-- The query at place `i`, which returns `r`, has a shape of this name: its own, or that of an earlier
query. -/
def Served (env : Env) (qs : List (String × Query)) (p : Pending) (i : Nat) (r : NameRef) : Prop :=
  ∃ j ≤ i, ∃ mq₀ r₀, qs[j]? = some mq₀ ∧ Undeclared env mq₀.2 r₀ ∧ r₀.name = r.name ∧
    ofQuery env mq₀ r₀ ∈ p.shapes

/-- The shapes of the queries of a document: the names are distinct, each shape is that of a query,
and every query that asks for one is served. -/
structure Gathered (env : Env) (qs : List (String × Query)) (p : Pending) : Prop where
  nodup : (p.shapes.map (·.name)).Nodup
  made : ∀ shape ∈ p.shapes, ∃ mq ∈ qs, ∃ r, Undeclared env mq.2 r ∧ shape = ofQuery env mq r ∧
    ∀ w ∈ (columns env mq.1 mq.2).warnings, w ∈ p.warnings
  served : ∀ (i : Nat) (mq : String × Query) (r : NameRef), qs[i]? = some mq →
    Undeclared env mq.2 r → Served env qs p i r

section

variable {env : Env} {qs : List (String × Query)} {p p' : Pending} {mq : String × Query}

theorem Served.later {i : Nat} {r : NameRef} (h : Served env qs p i r)
    (hsub : ∀ shape ∈ p.shapes, shape ∈ p'.shapes) : Served env (qs ++ [mq]) p' i r := by
  obtain ⟨j, hj, mq₀, r₀, hget, hr₀, hname, hmem⟩ := h
  have hlt := (List.getElem?_eq_some_iff.1 hget).1
  exact ⟨j, hj, mq₀, r₀, (List.getElem?_append_left hlt).trans hget, hr₀, hname, hsub _ hmem⟩

/-- Of the queries with one more, the last stands at the end. -/
theorem getElem?_snoc {i : Nat} {x : String × Query} (h : (qs ++ [mq])[i]? = some x) :
    qs[i]? = some x ∨ i = qs.length ∧ x = mq := by
  rw [List.getElem?_append] at h
  split at h
  · exact .inl h
  · rename_i hlt
    have hi : i - qs.length = 0 := by
      have := (List.getElem?_eq_some_iff.1 h).1
      rw [List.length_singleton] at this
      omega
    rw [hi] at h
    exact .inr ⟨by omega, (Option.some.inj h).symm⟩

/-- One more query was looked at. -/
theorem Gathered.addQuery (h : Gathered env qs p) (mq : String × Query) :
    Gathered env (qs ++ [mq]) (addQuery env mq.1 p mq.2) := by
  obtain ⟨heq, hthere⟩ | ⟨r, hr, hnew, heq⟩ := addQuery_cases env p mq
  · rw [heq]
    refine ⟨h.nodup, fun shape hs => ?_, fun i mq' r hi hr => ?_⟩
    · obtain ⟨mq', hmq', hmade⟩ := h.made shape hs
      exact ⟨mq', List.mem_append_left _ hmq', hmade⟩
    · obtain hi | ⟨rfl, rfl⟩ := getElem?_snoc hi
      · exact (h.served i mq' r hi hr).later fun _ => id
      · obtain ⟨shape, hs, hname⟩ := List.mem_map.1 (hthere r hr)
        obtain ⟨mq₀, hmq₀, r₀, hr₀, rfl, -⟩ := h.made shape hs
        obtain ⟨j, hj⟩ := List.mem_iff_getElem?.1 hmq₀
        have hlt := (List.getElem?_eq_some_iff.1 hj).1
        exact ⟨j, Nat.le_of_lt hlt, mq₀, r₀, (List.getElem?_append_left hlt).trans hj, hr₀, hname,
          hs⟩
  · rw [heq]
    refine ⟨?_, fun shape hs => ?_, fun i mq' r' hi hr' => ?_⟩
    · rw [List.map_append, List.map_singleton]
      exact List.Nodup.append h.nodup (List.nodup_singleton _) (List.disjoint_singleton.2 hnew)
    · obtain hs | hs := List.mem_append.1 hs
      · obtain ⟨mq', hmq', r', hr', hshape, hws⟩ := h.made shape hs
        exact ⟨mq', List.mem_append_left _ hmq', r', hr', hshape,
          fun w hw => List.mem_append_left _ (hws w hw)⟩
      · exact ⟨mq, List.mem_append_right _ (List.mem_singleton.2 rfl), r, hr,
          List.mem_singleton.1 hs, fun w hw => List.mem_append_right _ hw⟩
    · obtain hi | ⟨rfl, rfl⟩ := getElem?_snoc hi
      · exact (h.served i mq' r' hi hr').later fun _ => List.mem_append_left _
      · have hsame : r' = r := Option.some.inj (hr'.returns.symm.trans hr.returns)
        exact ⟨qs.length, Nat.le_refl _, mq', r, by simp, hr, by rw [hsame],
          List.mem_append_right _ (List.mem_singleton.2 rfl)⟩

end

/-- Each undeclared name that a select returns gets one shape, from the first query that returns
it. -/
theorem pending_gathered (env : Env) : Gathered env env.document.queries (pending env) := by
  rw [pending_eq]
  induction env.document.queries using List.reverseRecOn with
  | nil => exact ⟨.nil, nofun, nofun⟩
  | append_singleton qs mq ih =>
    rw [List.foldl_append, List.foldl_cons, List.foldl_nil]
    exact ih.addQuery mq

end Shape

end Scaffold.Source
