import Scaffold.Session
import Scaffold.Sql.Select

/-!
Result shapes: the record that a select returns, made up when the query names a return type that is
declared nowhere. Its fields are the columns of the select list, with the types of the table columns
they come from.

| here | in the program |
| --- | --- |
| `coreName?` | `named_return` |
| `synthesize` | `synthesize_shapes` |
| `columns` | `shape_columns` |
| `table` | `table` |
-/

namespace Scaffold.Source

namespace TypeRef

/-- The name at the core of a type. -/
def coreName? : TypeRef → Option NameRef
  | .primitive _ => none
  | .list item => item.coreName?
  | .named r => some r

end TypeRef

namespace Shape

/-- What a shape is made from. -/
structure Env where
  document : Document
  imports : ImportTable
  symbols : SymbolTable

/-- The table that a name in a query's SQL means. -/
def table? (env : Env) (q : Query) (name : String) : Option Table := do
  let id ← env.symbols.resolve q.scope name q.seq
  let symbol ← env.symbols.symbols[id]?
  if symbol.kind != .table then none
  else if symbol.file == env.document.file then env.document.table? symbol.node
  else (← env.imports.get? symbol.path).table? symbol.node

/-- Fields and warnings gathered so far. -/
structure Draft where
  fields : List Field := []
  warnings : Diagnostics := []

/-- Adds a field unless one of its name is there. -/
def Draft.add (d : Draft) (name : String) (type : TypeRef) (pos : Position) : Draft :=
  if d.fields.any (·.name == name) then d
  else { d with fields := d.fields ++ [⟨name, type, pos⟩] }

/-- A table that a select reads, with its declaration if there is one. -/
abbrev ReadTable := Sql.TableSource × Option Table

/-- The qualifier, if there is one, means this table. -/
def ReadTable.fits (s : ReadTable) (qualifier : Option String) : Bool :=
  qualifier.all s.1.matchesName

/-- Warns that the type of a column is not known. -/
def unknown (env : Env) (mapper : String) (q : Query) (name : String) : Diagnostic :=
  (Diagnostic.warning .unknownColumn
    s!"cannot determine the type of '{name}' in query {mapper}.{q.name}; using string").located
    env.document.path q.sqlPos

/-- Adds the fields of one entry of a select list. -/
def addColumn (env : Env) (mapper : String) (q : Query) (sources : List ReadTable) (d : Draft) :
    Sql.SelectColumn → Draft
  | .star qualifier =>
    (sources.filter (·.fits qualifier)).foldl (fun d s =>
      match s.2 with
      | some t => t.columns.foldl (fun d c => d.add c.name c.type q.sqlPos) d
      | none => { d with warnings := d.warnings ++ [unknown env mapper q s!"{s.1.name}.*"] }) d
  | .column qualifier name renamed =>
    let output := renamed.getD name
    let tables := (sources.filter (·.fits qualifier)).filterMap (·.2)
    match tables.findSome? fun t => t.columns.find? (·.name == name) with
    | some c => d.add output c.type q.sqlPos
    | none =>
      { d with warnings := d.warnings ++ [unknown env mapper q output] }.add output
        (.primitive .string) q.sqlPos
  | .expr name function =>
    if function == some "count" then d.add name (.primitive .bigint) q.sqlPos
    else
      { d with warnings := d.warnings ++ [unknown env mapper q name] }.add name
        (.primitive .string) q.sqlPos

/-- The fields that a select returns, and what is not known of them. -/
def columns (env : Env) (mapper : String) (q : Query) : Draft :=
  match Sql.selectList? q.sql with
  | none => {}
  | some list =>
    let sources : List ReadTable := list.tables.map fun s => (s, table? env q s.name)
    list.columns.foldl (addColumn env mapper q sources) {}

/-- Shapes and warnings gathered so far; the shapes have no numbers yet. -/
structure Pending where
  shapes : List ResultShape := []
  warnings : Diagnostics := []

/-- Adds the shape of a query, if it is a select whose return type is not declared. -/
def addQuery (env : Env) (mapper : String) (p : Pending) (q : Query) : Pending :=
  match q.returns.bind TypeRef.coreName? with
  | none => p
  | some r =>
    let declared := (env.symbols.resolve q.scope r.name q.seq).isSome
      || p.shapes.any (·.name == r.name)
    if declared || Sql.statementKind q.sql != .select then p
    else
      let draft := columns env mapper q
      { shapes := p.shapes ++ [⟨0, r.name, mapper, q.name, draft.fields, r.pos⟩]
        warnings := p.warnings ++ draft.warnings }

/-- The shapes of all queries of a document. -/
def pending (env : Env) : Pending :=
  env.document.decls.foldl (fun p d =>
    match d with
    | .mapper m => m.queries.foldl (addQuery env m.name) p
    | _ => p) {}

/-- Numbers a shape and declares it in the file's scope. -/
def declare (d : Document) (s : Session) (shape : ResultShape) : Option ResultShape × Session :=
  let (id, s) := s.takeNode
  let shape := { shape with id }
  let symbol : Symbol :=
    { name := shape.name, kind := .shape, file := d.file, path := d.path, pos := shape.pos, seq := 0,
      scope := d.scope, node := id }
  match s.symbols.declare d.scope symbol with
  | (.ok _, symbols) => (some shape, { s with symbols })
  | (.error _, _) => (none, s)

/-- Declares shapes in order. -/
def declareAll (d : Document) : List ResultShape → Session → List ResultShape × Session
  | [], s => ([], s)
  | shape :: rest, s =>
    let (declared, s) := declare d s shape
    let (shapes, s) := declareAll d rest s
    (declared.toList ++ shapes, s)

/-- The document with its shapes. -/
def synthesize (d : Document) (s : Session) : Document × Session :=
  let p := pending ⟨d, s.imports, s.symbols⟩
  let s := { s with diagnostics := s.diagnostics ++ p.warnings }
  let (shapes, s) := declareAll d p.shapes s
  ({ d with shapes := d.shapes ++ shapes }, s)

end Shape

end Scaffold.Source
