import Scaffold.Proofs.Documents
import Scaffold.Proofs.Lowering.Contents
import Scaffold.Proofs.Parser.Formed
import Scaffold.Proofs.Shape

/-!
# The fields of data types

In a program that compiles without errors the columns of a table have distinct names, as have the
fields of an entity, of a record and of a result shape. The fields of an entity with a table are put
together from two of these lists when it is lowered, and then no check is left.

* `parseDocument_formed`: the declarations and shapes of a file without errors are well formed.
* `Entry.lower_formed`: where the fields, keys and indexes of the data types come from, and when the
  names of the fields are distinct.
-/

namespace Scaffold

open Source

/-! ## Documents -/

namespace Source

namespace Binder

variable (b : Binder)

theorem columns_names : ∀ (cs : List Column) (ds : Diagnostics),
    ((b.columns cs).run ds).1.map (·.name) = cs.map (·.name)
  | [], _ => rfl
  | c :: rest, _ => congrArg (c.name :: ·) (columns_names rest _)

theorem fields_names : ∀ (fs : List Field) (ds : Diagnostics),
    ((b.fields fs).run ds).1.map (·.name) = fs.map (·.name)
  | [], _ => rfl
  | f :: rest, _ => congrArg (f.name :: ·) (fields_names rest _)

theorem fields_nodup {fs : List Field} (h : (fs.map (·.name)).Nodup) (ds : Diagnostics) :
    (((b.fields fs).run ds).1.map (·.name)).Nodup := by
  rw [fields_names]
  exact h

theorem dataDecl_formed (x : Decl) (ds : Diagnostics) (h : x.Formed) :
    ((b.dataDecl x).run ds).1.Formed := by
  cases x with
  | table t =>
    show Keyed ((({ b with context := s!"table {t.name}" } : Binder).columns t.columns).run ds
      |>.1.map (·.name)) t.keys t.indexes
    rw [columns_names]
    exact h
  | _ => exact h

theorem otherDecl_formed (x : Decl) (ds : Diagnostics) (h : x.Formed) :
    ((b.otherDecl x).run ds).1.Formed := by
  cases x with
  | entity e => exact fields_nodup { b with context := s!"entity {e.name}" } h _
  | record r => exact fields_nodup { b with context := s!"struct {r.name}" } h _
  | _ => exact h

end Binder

/-- The declarations are well formed, and the columns of a shape have distinct names. -/
structure Document.Formed (d : Document) : Prop where
  decls : ∀ x ∈ d.decls, x.Formed
  shapes : ∀ shape ∈ d.shapes, (shape.columns.map (·.name)).Nodup

theorem complete_formed {d d' : Document} {s s' : Session} (hfile : s.symbols.IsFile d.scope)
    (hshapes : d.shapes = []) (hd : ∀ x ∈ d.decls, x.Formed) (h : complete d s = (d', s')) :
    d'.Formed := by
  obtain ⟨shapes, hshaped, -, -, hcolumns⟩ := shaped_ok (d := d) hfile
  rw [complete_eq] at h
  cases h
  refine ⟨?_, fun shape hs => ?_⟩
  · exact Binder.decls_inherit (Binder.otherDecl_formed _) _ _
      (Binder.decls_inherit (Binder.dataDecl_formed _) _ _ hd)
  · rw [hshaped, hshapes, List.nil_append] at hs
    obtain ⟨p, hp, heq⟩ := hcolumns shape hs
    obtain ⟨mq, -, r, -, rfl, -⟩ := (Shape.pending_gathered _).made p hp
    rw [heq]
    exact Shape.columns_nodup _ _ _

/-- What is parsed without an error is well formed. -/
theorem parseDocument_formed : Establishes Document.Formed := by
  intro tree depth text f s d s' h hclean
  obtain ⟨tokens, ds, final, -, hdecls, hcomplete⟩ := parseDocument_decls h
  have hload : (fileEnv tree (loadFile tree depth) f s).Loads := loadFile_keeps depth
  have hfile : (fileTable f s.symbols).IsFile s.symbols.scopes.size :=
    ⟨_, scopes_fileTable f s.symbols, rfl⟩
  have hroot : (fileStart tokens f s).scope (fileEnv tree (loadFile tree depth) f s)
      = s.symbols.scopes.size := rfl
  obtain ⟨ha, hformed⟩ := Parser.decls_formed hload hroot _ ds final
    ⟨.of_reads (.refl _), nofun⟩ hdecls
  have hfinal := hfile.grows ha.symbols
  obtain ⟨t, hcompletes⟩ := complete_ok hfinal hcomplete
  have hclean' : final.session.Clean :=
    Session.Clean.of_append (s := fileEnd final) hclean hcompletes.diagnostics
  exact complete_formed hfinal rfl (fun x hx => hformed x hx hclean') hcomplete

end Source

/-! ## Data types -/

namespace Lowering

variable {env : Env}

/-- The table of an entity. -/
def baseTable? (env : Env) (e : Entity) : Option Table := do
  let s ← target? env (← e.table)
  (← documentOf? env s).table? s.node

/-- The fields that a declaration has from a table. -/
def baseFields (env : Env) : Decl → List Model.Field
  | .table t => tableFields env t
  | .entity e => ((baseTable? env e).map (tableFields env)).getD []
  | _ => []

/-- The fields that are written in a declaration, except for columns. -/
def ownFields (env : Env) : Decl → List Model.Field
  | .entity e => lowerFields env e.fields
  | .record r => lowerFields env r.fields
  | _ => []

/-- What a data type is made from, with the fields that come from a table and its own. -/
inductive MadeOf (env : Env) (ds : List Document) :
    Model.DataType → List Model.Field → List Model.Field → Prop where
  | decl {d : Document} {x : Decl} {t : Model.DataType} : d ∈ ds → x ∈ d.decls →
    declType? env x = some t → MadeOf env ds t (baseFields env x) (ownFields env x)
  | shape {d : Document} {shape : ResultShape} : d ∈ ds → shape ∈ d.shapes →
    MadeOf env ds (lowerShape env shape) [] (lowerFields env shape.columns)

/-- The fields of a data type are those from a table, and then its own. Names are distinct in each of
the two; keys and indexes are names of the first, and those that are keys are marked. -/
structure Formed (t : Model.DataType) (base own : List Model.Field) : Prop where
  fields : t.fields = base ++ own
  distinctBase : (base.map (·.name)).Nodup
  distinctOwn : (own.map (·.name)).Nodup
  keys : ∀ k ∈ t.keys, k ∈ base.map (·.name)
  marked : ∀ f ∈ base, f.key = true ↔ f.name ∈ t.keys
  unmarked : ∀ f ∈ own, f.key = false
  indexes : ∀ i ∈ t.indexes, ∀ c ∈ i.columns, c ∈ base.map (·.name)

/-- The names of all fields are distinct exactly if no field has the name of a column. -/
theorem Formed.nodup_iff {t : Model.DataType} {base own : List Model.Field} (h : Formed t base own) :
    (t.fields.map (·.name)).Nodup ↔ ∀ f ∈ own, f.name ∉ base.map (·.name) := by
  rw [h.fields, List.map_append, List.nodup_append']
  simp only [h.distinctBase, h.distinctOwn, true_and, List.disjoint_right, List.forall_mem_map]

theorem lowerFields_names (env : Env) (fs : List Field) :
    (lowerFields env fs).map (·.name) = fs.map (·.name) := by
  rw [lowerFields, List.map_map]
  rfl

theorem lowerFields_unmarked (env : Env) (fs : List Field) :
    ∀ f ∈ lowerFields env fs, f.key = false := by
  intro f hf
  obtain ⟨f', -, rfl⟩ := List.mem_map.1 hf
  rfl

theorem tableFields_names (env : Env) (t : Table) :
    (tableFields env t).map (·.name) = t.columns.map (·.name) := by
  rw [tableFields, List.map_map]
  rfl

/-- The fields from a table that are keys there are marked. -/
theorem tableFields_marked (env : Env) (t : Table) :
    ∀ f ∈ tableFields env t, f.key = true ↔ f.name ∈ t.keys := by
  intro f hf
  obtain ⟨c, -, rfl⟩ := List.mem_map.1 hf
  exact List.contains_iff_mem

theorem baseTable?_formed (himports : env.imports.Holds Document.Formed) {e : Entity} {t : Table}
    (h : baseTable? env e = some t) : t.Formed := by
  obtain ⟨r, -, h⟩ := Option.bind_eq_some_iff.1 h
  obtain ⟨symbol, -, h⟩ := Option.bind_eq_some_iff.1 h
  obtain ⟨d, hd, h⟩ := Option.bind_eq_some_iff.1 h
  exact (himports symbol.path d hd).decls _ (Shape.table?_of_decls h)

/-- A type with fields of its own only. -/
theorem Formed.plain {t : Model.DataType} {fs : List Field} (hfs : (fs.map (·.name)).Nodup)
    (hfields : t.fields = lowerFields env fs) (hkeys : t.keys = []) (hindexes : t.indexes = []) :
    Formed t [] (lowerFields env fs) where
  fields := hfields
  distinctBase := .nil
  distinctOwn := (lowerFields_names env fs).symm ▸ hfs
  keys := hkeys ▸ nofun
  marked := nofun
  unmarked := lowerFields_unmarked env fs
  indexes := hindexes ▸ nofun

/-- A type with the columns of a table and then fields of its own. -/
theorem Formed.behind {t : Model.DataType} {table : Table} {fs : List Field} (htable : table.Formed)
    (hfs : (fs.map (·.name)).Nodup)
    (hfields : t.fields = tableFields env table ++ lowerFields env fs) (hkeys : t.keys = table.keys)
    (hindexes : ∀ i ∈ t.indexes, ∃ i' ∈ table.indexes, i.columns = i'.columns) :
    Formed t (tableFields env table) (lowerFields env fs) where
  fields := hfields
  distinctBase := (tableFields_names env table).symm ▸ htable.nodup
  distinctOwn := (lowerFields_names env fs).symm ▸ hfs
  keys := by
    rw [hkeys, tableFields_names]
    exact htable.keys
  marked := by
    rw [hkeys]
    exact tableFields_marked env table
  unmarked := lowerFields_unmarked env fs
  indexes i hi := by
    obtain ⟨i', hi', hcolumns⟩ := hindexes i hi
    rw [hcolumns, tableFields_names]
    exact htable.indexes i' hi'

/-- What a well-formed declaration becomes. -/
theorem declType?_formed (himports : env.imports.Holds Document.Formed) {x : Decl} (hx : x.Formed)
    {t : Model.DataType} (ht : declType? env x = some t) :
    Formed t (baseFields env x) (ownFields env x) := by
  cases x with
  | domain d =>
    cases ht
    exact ⟨rfl, .nil, .nil, nofun, nofun, nofun, nofun⟩
  | table table =>
    cases ht
    have hnone : (([] : List Field).map (·.name)).Nodup := .nil
    refine .behind hx hnone (List.append_nil _).symm rfl fun i hi => ?_
    obtain ⟨i', hi', rfl⟩ := List.mem_map.1 hi
    exact ⟨i', hi', rfl⟩
  | entity e =>
    cases ht
    have hfields : (lowerEntity env e).fields
        = ((baseTable? env e).map (tableFields env)).getD [] ++ lowerFields env e.fields := rfl
    have hkeys : (lowerEntity env e).keys = ((baseTable? env e).map (·.keys)).getD [] := rfl
    show Formed _ (((baseTable? env e).map (tableFields env)).getD []) (lowerFields env e.fields)
    cases hbase : baseTable? env e with
    | none =>
      rw [hbase] at hfields hkeys
      exact .plain hx hfields hkeys rfl
    | some table =>
      rw [hbase] at hfields hkeys
      exact .behind (baseTable?_formed himports hbase) hx hfields hkeys nofun
  | record r =>
    cases ht
    exact .plain hx rfl rfl rfl
  | _ => cases ht

theorem madeOf_formed (himports : env.imports.Holds Document.Formed) {ds : List Document}
    (hds : ∀ d ∈ ds, d.Formed) {t : Model.DataType} {base own : List Model.Field}
    (h : MadeOf env ds t base own) : Formed t base own := by
  cases h with
  | decl hd hx ht => exact declType?_formed himports ((hds _ hd).decls _ hx) ht
  | shape hd hs => exact .plain ((hds _ hd).shapes _ hs) rfl rfl rfl

/-- Only an entity is made from a table and from fields of its own. -/
theorem MadeOf.kind {ds : List Document} {t : Model.DataType} {base own : List Model.Field}
    (h : MadeOf env ds t base own) (ht : t.kind ≠ .entity) : base = [] ∨ own = [] := by
  cases h with
  | @decl d x t hd hx hdecl =>
    cases x with
    | entity e =>
      cases hdecl
      exact absurd rfl ht
    | record r => exact .inl rfl
    | _ => exact .inr rfl
  | shape => exact .inl rfl

/-- Every data type of the documents is made of a declaration or a shape. -/
theorem exists_madeOf {ds : List Document} {t : Model.DataType}
    (h : t ∈ ds.flatMap (documentTypes env)) : ∃ base own, MadeOf env ds t base own := by
  obtain ⟨d, hd, ht⟩ := List.mem_flatMap.1 h
  obtain ht | ht := List.mem_append.1 ht
  · obtain ⟨x, hx, hdecl⟩ := List.mem_filterMap.1 ht
    exact ⟨_, _, .decl hd hx hdecl⟩
  · obtain ⟨shape, hs, rfl⟩ := List.mem_map.1 ht
    exact ⟨_, _, .shape hd hs⟩

end Lowering

/-! ## Programs -/

namespace Entry

variable {e : Entry} {tree : FileTree} {platform : Option Platform} {d : Document} {s s' : Session}
  {model : CodeModel}

/-- In the code model of a program without errors, the fields of every data type are the columns of a
table and then fields of its own. Both have distinct names, keys and indexes consist of columns of the
table, and the columns that are keys are the fields that are marked. The names of all fields together
are distinct exactly if no field has the name of a column, and so unless the type is an entity. -/
theorem lower_formed (h : e.compile tree platform = (.ok d, s))
    (hclean : s.diagnostics.hasErrors = false) (hlower : s.lower = (.ok model, s')) :
    ∀ t ∈ model.dataTypes, ∃ base own, Lowering.MadeOf s.loweringEnv s.projectDocuments t base own ∧
      Lowering.Formed t base own ∧
      ((t.fields.map (·.name)).Nodup ↔ ∀ f ∈ own, f.name ∉ base.map (·.name)) ∧
      (t.kind ≠ .entity → (t.fields.map (·.name)).Nodup) := by
  have himports : s.imports.Holds Document.Formed := compile_holds parseDocument_formed h hclean
  have hdocs : ∀ d ∈ s.projectDocuments, d.Formed := by
    intro d' hd'
    obtain ⟨p, -, hp⟩ := List.mem_filterMap.1 (List.mem_filter.1 hd').1
    exact himports p d' hp
  intro t ht
  rw [((compile_worked h).lower_model hlower).1, Lowering.documentsModel_dataTypes] at ht
  obtain ⟨base, own, hmade⟩ := Lowering.exists_madeOf ht
  have hformed : Lowering.Formed t base own := Lowering.madeOf_formed himports hdocs hmade
  refine ⟨base, own, hmade, hformed, hformed.nodup_iff, fun hkind => hformed.nodup_iff.2 ?_⟩
  obtain rfl | rfl := hmade.kind hkind
  · exact fun _ _ => List.not_mem_nil
  · exact nofun

theorem lower_formed_person :
    let e : Entry := .text "table person \x7b id int auto; name text; key(id); unique by(name, id); \x7d
entity Person : person \x7b tags list<text>; \x7d
struct Page \x7b rows list<Person>; \x7d
mapper M \x7b query all() list<Row> \x7b select name, id from person \x7d \x7d" ⟨"main.jssp"⟩
    ∃ d s model s', e.compile {} none = (.ok d, s) ∧ s.diagnostics.hasErrors = false ∧
      s.lower = (.ok model, s') ∧
      model.dataTypes.map (fun t => (t.name, t.fields.map (·.name), t.keys)) =
        [("person", ["id", "name"], ["id"]), ("Person", ["id", "name", "tags"], ["id"]),
          ("Page", ["rows"], []), ("Row", ["name", "id"], [])] ∧
      ∀ t ∈ model.dataTypes, ∃ base own,
        Lowering.MadeOf s.loweringEnv s.projectDocuments t base own ∧ Lowering.Formed t base own ∧
        ((t.fields.map (·.name)).Nodup ↔ ∀ f ∈ own, f.name ∉ base.map (·.name)) ∧
        (t.kind ≠ .entity → (t.fields.map (·.name)).Nodup) := by
  intro e
  have hfacts : (e.compile {} none).1.isOk = true ∧
      (e.compile {} none).2.diagnostics.hasErrors = false ∧
      (e.compile {} none).2.lower.1.toOption.map
        (·.dataTypes.map fun t => (t.name, t.fields.map (·.name), t.keys)) =
        some [("person", ["id", "name"], ["id"]), ("Person", ["id", "name", "tags"], ["id"]),
          ("Page", ["rows"], []), ("Row", ["name", "id"], [])] := by
    set_option maxRecDepth 2000 in
    rw [show e.compile {} none = _ from compile_text rfl _]
    decide +kernel
  obtain ⟨hok, hclean, htypes⟩ := hfacts
  obtain ⟨d, hd⟩ := exists_of_isOk hok
  rcases hlower : (e.compile {} none).2.lower with ⟨_ | model, s'⟩
  · rw [hlower] at htypes
    cases htypes
  · rw [hlower] at htypes
    exact ⟨d, _, model, s', hd, hclean, hlower, Option.some.inj htypes,
      lower_formed hd hclean hlower⟩

/-- An entity has two fields of one name, and no problem is reported. -/
theorem lower_repeats_column :
    let r := Entry.compile {} none
      (.text "table t \x7b id int; key(id); \x7d entity E : t \x7b id text; \x7d" ⟨"main.jssp"⟩)
    r.1.isOk = true ∧ r.2.diagnostics.isEmpty = true ∧
      r.2.lower.1.toOption.map (·.dataTypes.map fun t => (t.name, t.fields.map (·.name))) =
        some [("t", ["id"]), ("E", ["id", "id"])] ∧
      r.2.lower.2.diagnostics.isEmpty = true := by
  rw [compile_text rfl]
  decide +kernel

end Entry

end Scaffold
