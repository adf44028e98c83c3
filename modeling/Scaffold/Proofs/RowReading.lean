import Mathlib.Data.List.Basic
import Scaffold.Proofs.Lowering
import Scaffold.Target.Cpp
import Scaffold.Target.Go
import Scaffold.Target.Python
import Scaffold.Target.Rust

/-!
# Records read from result rows

Four generators write code that takes the values of a row by position. All of them count the fields
of the record; the database counts the columns of the select list.

* `Model.Operation.readers_match_iff`: when every field is assigned a column of its own name, for each
  of the four. Three of them ask that the names of the fields, in their order, are the first names of
  the columns. The scan of the fourth fails if there are other columns behind these.
-/

namespace Scaffold

/-! ## Result columns -/

namespace Model

/-- The name of a result column, counted from 0. -/
def Operation.columnName? (o : Operation) (i : Nat) : Option String := do
  (← (← Sql.selectList? o.sql).columns[i]?).outputName?

/-- The result columns have these names, and no star stands for some of them. -/
def Operation.HasColumns (o : Operation) (names : List String) : Prop :=
  (Sql.selectList? o.sql).map (·.columns.map (·.outputName?)) = some (names.map some)

theorem Operation.HasColumns.columnName? {o : Operation} {names : List String}
    (h : o.HasColumns names) (i : Nat) : o.columnName? i = names[i]? := by
  obtain ⟨select, hselect, hall⟩ := Option.map_eq_some_iff.1 h
  have hcolumn : (select.columns.map (·.outputName?))[i]? = (names.map some)[i]? := by rw [hall]
  rw [List.getElem?_map, List.getElem?_map] at hcolumn
  rw [Operation.columnName?, hselect]
  cases hc : select.columns[i]? <;> cases hn : names[i]? <;> simp_all

/-- A field and the position of the result column that it is assigned. -/
abbrev Reading : Type := Field × Nat

/-- The fields of a record with their own positions. -/
def DataType.readings (d : DataType) : List Reading :=
  d.fields.zipIdx

theorem map_fst_readings (d : DataType) : d.readings.map (·.1) = d.fields :=
  List.zipIdx_map_fst 0 d.fields

theorem map_readings {α : Type} (d : DataType) (f : Reading → α) :
    d.readings.map f = d.fields.mapIdx fun i field => f (field, i) := by
  rw [DataType.readings, List.mapIdx_eq_zipIdx_map]

/-- Every one of these fields is assigned a column of its own name. -/
def Operation.Matches (o : Operation) (rs : List Reading) : Prop :=
  ∀ r ∈ rs, o.columnName? r.2 = some r.1.name

/-- Every field gets a column of its name if the names of the fields are the first ones of the
columns, in their order. -/
theorem readings_match_iff (d : DataType) {o : Operation} {names : List String}
    (h : o.HasColumns names) : o.Matches d.readings ↔ d.fields.map (·.name) <+: names := by
  rw [List.prefix_iff_getElem?]
  simp only [Operation.Matches, DataType.readings, List.mem_zipIdx_iff_getElem?, List.length_map, List.getElem_map,
    h.columnName?]
  constructor
  · intro hcolumns i hi
    exact hcolumns (d.fields[i], i) (List.getElem?_eq_getElem hi)
  · rintro hnames ⟨field, i⟩ hr
    obtain ⟨hi, hfield⟩ := List.getElem?_eq_some_iff.1 hr
    exact hfield ▸ hnames i hi

end Model

/-! ## Places in code -/

namespace Code

theorem mem_nest {c : Code} {depth : Nat} {text : String} (h : .line depth text ∈ c) :
    .line (depth + 1) text ∈ c.nest :=
  List.mem_map.2 ⟨_, h, rfl⟩

theorem mem_braces {header : String} {body : Code} {depth : Nat} {text : String}
    (h : .line depth text ∈ body) : .line (depth + 1) text ∈ braces header body := by
  simp [braces, between, mem_nest h]

theorem mem_braces_header (header : String) (body : Code) :
    .line 0 (header ++ " \x7b") ∈ braces header body := by
  simp [braces, between, line]

theorem infix_nest {c c' : Code} (h : c <:+: c') : c.nest <:+: c'.nest :=
  h.map _

theorem infix_braces {header : String} {c body : Code} (h : c <:+: body) :
    c.nest <:+: braces header body :=
  (infix_nest h).trans ⟨line (header ++ " \x7b"), line "\x7d", rfl⟩

end Code

/-! ## Readers -/

/-- A type of records is a record or a list of them. -/
theorem Model.Ty.record_or_list {t : Ty} {name : String} {kind : DataKind}
    (h : t.element = .named name kind) : t = .named name kind ∨ t = .list (.named name kind) := by
  cases t with
  | primitive => cases h
  | list item => exact .inr (congrArg _ h)
  | named => exact .inl h

namespace Target

open Code Naming

variable {m : CodeModel} {o : Model.Operation} {t : Model.Ty} {name : String} {kind : Model.DataKind}
  {d : Model.DataType}

/-! ### FastAPI -/

/-- A record made from a row, each argument from its column. -/
def Python.rowRecord (name : String) (rs : List Model.Reading) : String :=
  s!"{pascal name}(" ++ Text.joinWith ", " (rs.map fun r => s!"{r.1.name}=row[{r.2}]") ++ ")"

/-- The method returns records that are made from rows in this way. -/
def Python.Reads (m : CodeModel) (o : Model.Operation) (t : Model.Ty) (name : String)
    (rs : List Model.Reading) : Prop :=
  .line 1 (if t.isList then s!"return [{rowRecord name rs} for row in cur.fetchall()]"
    else s!"return {rowRecord name rs} if row else None") ∈ operation m o

theorem Python.fromRow_eq (kind : Model.DataKind) (hd : m.dataType? name = some d) :
    fromRow m (.named name kind) = rowRecord name d.readings := by
  simp [fromRow, rowRecord, Model.map_readings, hd]

theorem Python.reads (ht : o.returns = some t) (hrecord : t.element = .named name kind)
    (hd : m.dataType? name = some d) : Reads m o t name d.readings := by
  have hline : ∀ {text}, text ∈ takeResult m (some t) → .line 1 text ∈ operation m o := by
    intro text h
    rw [← ht] at h
    exact List.mem_append_right _ (mem_nest (List.mem_append_right _ (List.mem_map_of_mem h)))
  apply hline
  rw [takeResult, ← fromRow_eq kind hd]
  obtain rfl | rfl := Model.Ty.record_or_list hrecord
  · exact List.mem_cons_of_mem _ List.mem_cons_self
  · exact List.mem_cons_self

/-! ### Gin -/

/-- The arguments of a scan, one for each of these fields. -/
def Go.scanArgs (target : String) (fields : List Model.Field) : String :=
  Text.joinWith ", " (fields.map fun f => s!"&{target}.{pascal f.name}")

/-- The method scans rows into these fields. -/
def Go.Scans (m : CodeModel) (owner : String) (o : Model.Operation) (t : Model.Ty)
    (fields : List Model.Field) : Prop :=
  if t.isList then
    .line 2 ("if err := rows.Scan(" ++ scanArgs "row" fields ++ "); err != nil" ++ " \x7b")
      ∈ operation m owner o
  else
    let binds := String.join (o.bindOrder.map (", " ++ ·))
    .line 1 (s!"err := m.db.QueryRow({sqlLiteral (Text.trim o.positionalSql)}{binds}).Scan("
      ++ scanArgs "result" fields ++ ")") ∈ operation m owner o

/-- What a scan of a row with so many columns assigns. It fails, and assigns nothing, unless it has an
argument for every column; then each argument takes the column in its place. -/
def Go.scan? (fields : List Model.Field) (columns : Nat) : Option (List Model.Reading) :=
  if fields.length = columns then some fields.zipIdx else none

theorem Go.scanTargets_eq (target : String) (kind : Model.DataKind)
    (hd : m.dataType? name = some d) :
    scanTargets m target (.named name kind) = scanArgs target d.fields := by
  simp [scanTargets, scanArgs, hd]

theorem Go.scans (owner : String) (ht : o.returns = some t) (hrecord : t.element = .named name kind)
    (hd : m.dataType? name = some d) : Scans m owner o t d.fields := by
  rw [Scans, ← scanTargets_eq _ kind hd, ← scanTargets_eq _ kind hd, operation, ht]
  obtain rfl | rfl := Model.Ty.record_or_list hrecord
  · refine mem_braces (List.mem_append_left _ (List.mem_append_left _ ?_))
    simp [lines, String.append_assoc]
  · -- The scan opens a block inside the loop over the rows.
    refine mem_braces (List.mem_append_left _ (List.mem_append_right _ (mem_braces ?_)))
    exact List.mem_append_left _ (List.mem_append_right _ (mem_braces_header _ _))

/-- A scan has to take all columns, so that the names are to be the same to the last one. -/
theorem Go.scan_matches_iff (d : Model.DataType) {names : List String} (h : o.HasColumns names) :
    (∃ rs, scan? d.fields names.length = some rs ∧ o.Matches rs) ↔ d.fields.map (·.name) = names := by
  have hlength : (d.fields.map (·.name)).length = d.fields.length := List.length_map _
  by_cases hall : d.fields.length = names.length
  · have hscan : scan? d.fields names.length = some d.readings := if_pos hall
    simp only [hscan, Option.some.injEq, exists_eq_left', Model.readings_match_iff d h]
    exact ⟨fun hprefix => hprefix.eq_of_length (hlength.trans hall), fun heq => heq ▸ List.prefix_rfl⟩
  · have hscan : scan? d.fields names.length = none := if_neg hall
    simp only [hscan, reduceCtorEq, false_and, exists_false, false_iff]
    exact fun heq => hall (heq ▸ hlength.symm)

/-! ### Axum -/

/-- A function that makes a record from a row, each field from its column. -/
def Rust.rowClosure (name : String) (rs : List Model.Reading) : String :=
  s!"|row| Ok({pascal name} \x7b "
    ++ Text.joinWith ", " (rs.map fun r => s!"{snake r.1.name}: row.get({r.2})?") ++ " \x7d)"

/-- The method makes the records that it returns by this function. -/
def Rust.Reads (m : CodeModel) (o : Model.Operation) (t : Model.Ty) (name : String)
    (rs : List Model.Reading) : Prop :=
  let binds := "params![" ++ Text.joinWith ", " o.bindOrder ++ "]"
  let sql := "\"" ++ escape (Text.trim o.positionalSql) ++ "\""
  .line 1 (if t.isList then s!"stmt.query_map({binds}, {rowClosure name rs})"
    else s!"conn.query_row({sql}, {binds}, " ++ s!"{rowClosure name rs})") ∈ operation m o

theorem Rust.rowReader_eq (kind : Model.DataKind) (hd : m.dataType? name = some d) :
    rowReader m (.named name kind) = rowClosure name d.readings := by
  simp [rowReader, rowClosure, Model.map_readings, hd]

theorem Rust.reads (ht : o.returns = some t) (hrecord : t.element = .named name kind)
    (hd : m.dataType? name = some d) : Reads m o t name d.readings := by
  rw [Reads, ← rowReader_eq kind hd, operation, ht]
  refine mem_braces (List.mem_append_right _ ?_)
  obtain rfl | rfl := Model.Ty.record_or_list hrecord
  · exact List.mem_append_left _ (by simp [line, Model.Ty.isList, String.append_assoc])
  · exact List.mem_append_left _ (List.mem_append_right _ (List.mem_singleton.2 rfl))

/-! ### Crow -/

/-- Assignments to the fields of a record, each from its column. -/
def Cpp.assignments (target : String) (rs : List Model.Reading) : Code :=
  lines (rs.map fun r => s!"{target}.{camel r.1.name} = {sqliteColumn r.2 r.1.type};")

/-- The method assigns the values of a row in this way. -/
def Cpp.Reads (m : CodeModel) (owner : String) (o : Model.Operation) (t : Model.Ty)
    (rs : List Model.Reading) : Prop :=
  (assignments (if t.isList then "row" else "result") rs).nest.nest <:+: operation m owner o

theorem Cpp.readFields_eq (target : String) (hd : m.dataType? name = some d) :
    readFields m target name = assignments target d.readings := by
  simp [readFields, assignments, Model.map_readings, hd]

theorem Cpp.reads (owner : String) (ht : o.returns = some t) (hrecord : t.element = .named name kind)
    (hd : m.dataType? name = some d) : Reads m owner o t d.readings := by
  have hrow : assignments (if t.isList then "row" else "result") d.readings <:+: readRow m t := by
    rw [← readFields_eq _ hd]
    obtain rfl | rfl := Model.Ty.record_or_list hrecord
    · exact List.infix_rfl
    · exact ⟨_, _, rfl⟩
  have hrun : (assignments (if t.isList then "row" else "result") d.readings).nest
      <:+: runStatement m o := by
    rw [runStatement, ht]
    exact (infix_braces hrow).trans ⟨_, _, rfl⟩
  refine infix_braces (hrun.trans (List.suffix_append _ _).isInfix)

end Target

/-! ## Matching columns -/

/-- The generators that read by position give every field of a record the column in its own place.
That is a column of the field's name, for all fields, exactly if the names of the fields are the first
names of the select list, in its order; for Gin, whose scan has to take all columns, if they are the
names of the select list. -/
theorem Model.Operation.readers_match_iff {m : CodeModel} {o : Operation} {t : Ty} {name : String}
    {kind : DataKind} {d : DataType} {names : List String}
    (ht : o.returns = some t) (hrecord : t.element = .named name kind)
    (hd : m.dataType? name = some d)
    (hnames : o.HasColumns names) :
    (∃ rs, rs.map (·.1) = d.fields ∧ Target.Python.Reads m o t name rs ∧
      (o.Matches rs ↔ d.fields.map (·.name) <+: names)) ∧
    (∀ owner, Target.Go.Scans m owner o t d.fields ∧
      ((∃ rs, Target.Go.scan? d.fields names.length = some rs ∧ o.Matches rs) ↔
        d.fields.map (·.name) = names)) ∧
    (∃ rs, rs.map (·.1) = d.fields ∧ Target.Rust.Reads m o t name rs ∧
      (o.Matches rs ↔ d.fields.map (·.name) <+: names)) ∧
    (∀ owner, ∃ rs, rs.map (·.1) = d.fields ∧ Target.Cpp.Reads m owner o t rs ∧
      (o.Matches rs ↔ d.fields.map (·.name) <+: names)) := by
  have hfields := map_fst_readings d
  have hmatch := readings_match_iff d hnames
  refine ⟨?fastApi, fun owner => ?gin, ?axum, fun owner => ?crow⟩
  case fastApi => exact ⟨d.readings, hfields, Target.Python.reads ht hrecord hd, hmatch⟩
  case gin => exact ⟨Target.Go.scans owner ht hrecord hd, Target.Go.scan_matches_iff d hnames⟩
  case axum => exact ⟨d.readings, hfields, Target.Rust.reads ht hrecord hd, hmatch⟩
  case crow => exact ⟨d.readings, hfields, Target.Cpp.reads owner ht hrecord hd, hmatch⟩

/-- All four read the columns of `plain` by their names. The select list of `repeated` has one more
column behind the fields of the record, and there Gin's scan does not. -/
theorem Model.Operation.readers_match_iff_repeated :
    let source := "table t \x7b id int; name text; key(id); \x7d "
      ++ "struct R \x7b id int; name text; \x7d mapper M \x7b "
      ++ "query plain() list<R> \x7b select a.id, upper(a.name) name from t a; \x7d "
      ++ "query repeated() R \x7b select a.id, upper(a.name) name, a.id from t a; \x7d \x7d"
    let s := ((Entry.text source ⟨"main.jssp"⟩).compile {} none).2
    let m := s.lower.1.toOption.getD {}
    let operations := m.mappers.flatMap (·.operations)
    s.diagnostics.hasErrors = false ∧ operations.map (·.name) = ["plain", "repeated"] ∧
      ∃ d ∈ m.dataType? "R", ∀ o ∈ operations, ∃ t ∈ o.returns, ∃ names, o.HasColumns names ∧
        (∃ rs, rs.map (·.1) = d.fields ∧ Target.Python.Reads m o t "R" rs ∧ o.Matches rs) ∧
        Target.Go.Scans m "M" o t d.fields ∧
        ((∃ rs, Target.Go.scan? d.fields names.length = some rs ∧ o.Matches rs) ↔ o.name = "plain") ∧
        (∃ rs, rs.map (·.1) = d.fields ∧ Target.Rust.Reads m o t "R" rs ∧ o.Matches rs) ∧
        ∃ rs, rs.map (·.1) = d.fields ∧ Target.Cpp.Reads m "M" o t rs ∧ o.Matches rs := by
  -- What follows the run is said of any session and code model, so that the run is computed once.
  suffices h : ∀ (s : Session) (m : CodeModel), (s.diagnostics.hasErrors = false ∧
      (m.mappers.flatMap (·.operations)).map (·.name) = ["plain", "repeated"] ∧
      ∃ d ∈ m.dataType? "R", d.fields.map (·.name) = ["id", "name"] ∧
        ∀ o ∈ m.mappers.flatMap (·.operations),
          o.returns.map (·.element) = some (.named "R" .record) ∧
          (Sql.selectList? o.sql).map (·.columns.map (·.outputName?))
            = some ((if o.name = "plain" then ["id", "name"] else ["id", "name", "id"]).map some)) →
      let operations := m.mappers.flatMap (·.operations)
      s.diagnostics.hasErrors = false ∧ operations.map (·.name) = ["plain", "repeated"] ∧
        ∃ d ∈ m.dataType? "R", ∀ o ∈ operations, ∃ t ∈ o.returns, ∃ names, o.HasColumns names ∧
          (∃ rs, rs.map (·.1) = d.fields ∧ Target.Python.Reads m o t "R" rs ∧ o.Matches rs) ∧
          Target.Go.Scans m "M" o t d.fields ∧
          ((∃ rs, Target.Go.scan? d.fields names.length = some rs ∧ o.Matches rs) ↔
            o.name = "plain") ∧
          (∃ rs, rs.map (·.1) = d.fields ∧ Target.Rust.Reads m o t "R" rs ∧ o.Matches rs) ∧
          ∃ rs, rs.map (·.1) = d.fields ∧ Target.Cpp.Reads m "M" o t rs ∧ o.Matches rs from
    h _ _ (by
      rw [Entry.compile_text (.append (.append (.append rfl rfl) rfl) rfl)]
      decide +kernel)
  rintro s m ⟨hclean, hoperations, d, hd, hfields, hall⟩
  refine ⟨hclean, hoperations, d, hd, fun o ho => ?_⟩
  obtain ⟨hreturns, hnames⟩ := hall o ho
  obtain ⟨t, ht, hrecord⟩ := Option.map_eq_some_iff.1 hreturns
  obtain ⟨python, go, rust, cpp⟩ := readers_match_iff ht hrecord hd hnames
  have hprefix : d.fields.map (·.name)
      <+: if o.name = "plain" then ["id", "name"] else ["id", "name", "id"] := by
    rw [hfields]
    split <;> decide
  have heq : d.fields.map (·.name)
      = (if o.name = "plain" then ["id", "name"] else ["id", "name", "id"]) ↔ o.name = "plain" := by
    rw [hfields]
    split <;> simp_all
  refine ⟨t, ht, _, hnames, ?_, (go "M").1, (go "M").2.trans heq, ?_, ?_⟩
  · exact python.imp fun rs h => ⟨h.1, h.2.1, h.2.2.2 hprefix⟩
  · exact rust.imp fun rs h => ⟨h.1, h.2.1, h.2.2.2 hprefix⟩
  · exact (cpp "M").imp fun rs h => ⟨h.1, h.2.1, h.2.2.2 hprefix⟩

/-- A record that lists the columns in another order than the select list is given the first column,
`id`, as its field `name`. -/
theorem Model.Operation.readers_mismatch :
    let source := "table t \x7b id int; name text; key(id); \x7d "
      ++ "struct R \x7b name text; id int; \x7d "
      ++ "mapper M \x7b query q() R \x7b select id, name from t; \x7d \x7d"
    let s := ((Entry.text source ⟨"main.jssp"⟩).compile {} none).2
    let m := s.lower.1.toOption.getD {}
    s.diagnostics.hasErrors = false ∧ ∃ o ∈ m.mappers.flatMap (·.operations),
      ∃ d ∈ m.dataType? "R", o.kind = .select ∧ o.returns = some (.named "R" .record) ∧
        (Sql.selectList? o.sql).map (·.columns.map (·.outputName?)) = some [some "id", some "name"] ∧
        (d.fields.map (·.name)).Perm ["id", "name"] ∧
        .line 1 "return R(name=row[0], id=row[1]) if row else None" ∈ Target.Python.operation m o ∧
        o.columnName? 0 = some "id" := by
  intro source
  rw [Entry.compile_text (.append (.append rfl rfl) rfl)]
  decide +kernel

end Scaffold
