import Scaffold.HttpMethod
import Scaffold.Markup.Parser
import Scaffold.Source.Parser.Term

/-!
Parsers for declarations. A name is declared as soon as it is read, before the body, so that what
follows can refer to it. Declarations for other platforms are read and left out.

| here | in the program |
| --- | --- |
| `annotations`, `header` | `parse_annotations` and the start of `parse_declaration` |
| `importDecl`, `domainDecl` | `parse_import`, `parse_domain` |
| `tableDecl`, `column` | `parse_table`, `parse_column` |
| `entityDecl`, `recordDecl`, `fields` | `parse_entity`, `parse_struct`, `parse_fields` |
| `queryDecl`, `mapperDecl` | `parse_query`, `parse_mapper` |
| `checkHandler`, `controllerDecl` | `validate_handler`, `parse_controller` |
| `apiDecl`, `propertyDecl` | `parse_api`, `parse_property` |
| `funcDecl`, `params` | `parse_func`, `parse_params` |
| `pageDecl`, `attachComponents` | `parse_page`, `attach_components` |
| `decl`, `decls` | `parse_declaration`, `parse` |
-/

namespace Scaffold.Source.Parser

/-- The annotation blocks in front of a declaration, as one. -/
def annotations : Parser AnnotationBlock := do
  annotationsFuel ((← remaining) + 1) {}
where
  annotationsFuel : (fuel : Nat) → AnnotationBlock → Parser AnnotationBlock
    | 0, b => pure b
    | fuel + 1, b => do
      match (← peek).kind with
      | .annotations pairs =>
        advance
        annotationsFuel fuel (b.merge (AnnotationBlock.ofPairs pairs))
      | _ => return b

/-- The annotations, number and position of a declaration, and whether it takes part. -/
def header : Parser (Header × Bool) := do
  let block ← annotations
  let active := (← state).session.isActive block
  let id ← takeNode
  return (⟨id, (← peek).pos, block⟩, active)

/-- An import: the file is found and parsed here and now. -/
def importDecl (h : Header) : Parser Import := do
  let _ ← expectKeyword .importKw
  let written ← quoted
  expectPunct .semicolon
  let seq ← takeSeq
  let e ← env
  match e.source.locate e.tree written with
  | none => fail (.fault e.source.path h.pos (.importNotFound written))
  | some found =>
    match ← session (e.load found) with
    | .error err => fail err
    | .ok document =>
      session fun s => ((), { s with symbols := s.symbols.addImport e.root document.scope seq })
      change fun s => { s with imports := s.imports ++ [document.path] }
      return ⟨h, written, document.path⟩

/-! ## Data -/

/-- A domain: a name and a type. -/
def domainDecl (h : Header) (active : Bool) : Parser Domain := do
  let _ ← expectKeyword .domainKw
  let (name, pos) ← ident
  declare name .domain pos h.id active
  let type ← typeRef
  expectPunct .semicolon
  return ⟨h, name, type⟩

/-- What may follow the type of a column, in any order and number. -/
def columnFuel : (fuel : Nat) → Column → Parser Column
  | 0, _ => expected "column modifier or ';'"
  | fuel + 1, c => do
    if ← skipPunct .semicolon then return c
    else if ← isIdent "auto" then
      advance
      columnFuel fuel { c with auto := true }
    else if ← isKeyword .nullKw then
      advance
      columnFuel fuel { c with nullable := true }
    else if ← isIdent "not" then
      advance
      let _ ← expectKeyword .nullKw
      columnFuel fuel { c with nullable := false }
    else if ← isIdent "default" then
      advance
      let value ← literal
      columnFuel fuel { c with default := some value }
    else expected "column modifier or ';'"

/-- A column. -/
def column : Parser Column := do
  let (name, pos) ← ident
  let type ← typeRef
  columnFuel ((← remaining) + 1) { name, type, pos }

/-- What a table has so far. -/
structure TableBody where
  columns : List Column := []
  keys : List String := []
  indexes : List Index := []

def TableBody.hasColumn (b : TableBody) (name : String) : Bool :=
  b.columns.any (·.name == name)

/-- The key columns of a table, which must be declared before. -/
def keyItem (table : String) (b : TableBody) : Parser TableBody := do
  let pos := (← peek).pos
  advance
  let names ← nameList
  for name in names do
    if !b.hasColumn name then
      invalid pos s!"table {table}" s!"key column '{name}' is not declared"
  expectPunct .semicolon
  return { b with keys := b.keys ++ names }

/-- An index of a table, whose columns must be declared before. -/
def indexItem (table : String) (b : TableBody) : Parser TableBody := do
  let unique ← isIdent "unique"
  let pos := (← peek).pos
  advance
  let (name, _) ← ident
  let columns ← nameList
  for col in columns do
    if !b.hasColumn col then
      invalid pos s!"table {table}" s!"index '{name}' uses undeclared column '{col}'"
  expectPunct .semicolon
  return { b with indexes := b.indexes ++ [⟨name, columns, unique, pos⟩] }

/-- A column of a table; a second one of the same name is dropped. -/
def columnItem (table : String) (b : TableBody) : Parser TableBody := do
  let c ← column
  if b.hasColumn c.name then
    invalid c.pos s!"table {table}" s!"duplicate column '{c.name}'"
    return b
  else return { b with columns := b.columns ++ [c] }

/-- A key, an index or a column. -/
def tableItem (table : String) (b : TableBody) : Parser TableBody := do
  let second ← peekKind 1
  let third ← peekKind 2
  let secondIsName :=
    match second with
    | .ident _ => true
    | _ => false
  if (← isIdent "key") && second == .punct .parenOpen then keyItem table b
  else if ((← isIdent "index") || (← isIdent "unique")) && secondIsName
      && third == .punct .parenOpen then
    indexItem table b
  else columnItem table b

/-- A table. -/
def tableDecl (h : Header) (active : Bool) : Parser Table := do
  let _ ← expectKeyword .tableKw
  let (name, pos) ← ident
  declare name .table pos h.id active
  expectPunct .braceOpen
  let b ← untilClose .braceClose (tableItem name) {}
  expectPunct .braceClose
  if b.columns.isEmpty then invalid pos s!"table {name}" "a table needs at least one column"
  return ⟨h, name, b.columns, b.keys, b.indexes⟩

/-- Fields in braces; a second one of the same name is dropped. -/
def fields (owner : String) : Parser (List Field) := do
  expectPunct .braceOpen
  let fields ← untilClose .braceClose step []
  expectPunct .braceClose
  return fields
where
  step (fields : List Field) : Parser (List Field) := do
    let (name, pos) ← ident
    let type ← typeRef
    expectPunct .semicolon
    if fields.any (·.name == name) then
      invalid pos owner s!"duplicate field '{name}'"
      return fields
    else return fields ++ [⟨name, type, pos⟩]

/-- An entity: perhaps with a table, perhaps with fields of its own. -/
def entityDecl (h : Header) (active : Bool) : Parser Entity := do
  let _ ← expectKeyword .entityKw
  let (name, pos) ← ident
  declare name .entity pos h.id active
  let table ←
    if ← skipPunct .colon then do
      let (table, tablePos) ← ident
      pure (some (← nameRef table tablePos))
    else pure none
  if ← isPunct .braceOpen then return ⟨h, name, table, ← fields s!"entity {name}"⟩
  else
    expectPunct .semicolon
    return ⟨h, name, table, []⟩

/-- A record. -/
def recordDecl (h : Header) (active : Bool) : Parser Record := do
  let _ ← expectKeyword .structKw
  let (name, pos) ← ident
  declare name .record pos h.id active
  return ⟨h, name, ← fields s!"struct {name}"⟩

/-! ## Functions and queries -/

/-- Parameters in parentheses, declared in the current scope; a second one of the same name is
dropped. -/
def params (owner : String) (node : NodeId) : Parser (List Field) := do
  expectPunct .parenOpen
  let params ← commaList .parenClose step []
  expectPunct .parenClose
  return params
where
  step (params : List Field) : Parser (List Field) := do
    let (name, pos) ← ident
    let type ← typeRef
    if params.any (·.name == name) then
      invalid pos owner s!"duplicate parameter '{name}'"
      return params
    else
      declare name .param pos node
      return params ++ [⟨name, type, pos⟩]

/-- A function, or a handler of a controller. -/
def funcDecl (h : Header) (active : Bool) (kind : SymbolKind) : Parser Func := do
  let _ ← expectKeyword .funcKw
  let (name, pos) ← ident
  declare name kind pos h.id active
  change fun s => { s with owner := h.id }
  let (_, params, returns, body) ← inScope .declaration do
    let params ← params s!"function {name}" h.id
    let returns ← if ← isPunct .braceOpen then pure none else do pure (some (← typeRef))
    return (params, returns, ← block)
  return ⟨h, name, params, returns, body⟩

/-- A query: its parameters have a scope of their own, and its body is SQL text. -/
def queryDecl (h : Header) (active : Bool) : Parser Query := do
  let _ ← expectKeyword .queryKw
  let (name, pos) ← ident
  declare name .query pos h.id active
  let seq ← takeSeq
  let (scope, params, returns) ← inScope .declaration do
    let params ← params s!"query {name}" h.id
    match (← peek).kind with
    | .raw _ => return (params, none)
    | _ => return (params, some (← typeRef))
  let t ← peek
  match t.kind with
  | .raw sql =>
    advance
    return ⟨h, name, params, returns, sql, t.pos, scope, seq⟩
  | _ => expected "query body"

/-- The members of a declaration in braces, in a scope of their own; those for other platforms are
left out. -/
def members {α : Type} (active : Bool) (member : Header → Bool → Parser α) : Parser (List α) := do
  expectPunct .braceOpen
  let (_, items) ← inScope .declaration do
    let items ← untilClose .braceClose step []
    expectPunct .braceClose
    return items
  return items
where
  step (items : List α) : Parser (List α) := do
    let (h, memberActive) ← header
    let active := active && memberActive
    let item ← member h active
    return if active then items ++ [item] else items

/-- A mapper. -/
def mapperDecl (h : Header) (active : Bool) : Parser Mapper := do
  let _ ← expectKeyword .mapperKw
  let (name, pos) ← ident
  declare name .mapper pos h.id active
  return ⟨h, name, ← members active queryDecl⟩

/-- Checks the annotations of a handler: a known method, a route, and a body that is a parameter. -/
def checkHandler (controller : String) (f : Func) : Parser Unit := do
  let declaration := s!"handler {controller}.{f.name}"
  let notes := f.header.annotations
  match notes.text? "method" with
  | none => invalid f.header.pos declaration "missing 'method' annotation"
  | some method =>
    if (HttpMethod.ofText? method).isNone then
      invalid f.header.pos declaration s!"unknown HTTP method '{method}'"
  if (notes.get? "route").isNone then
    invalid f.header.pos declaration "missing 'route' annotation"
  match notes.text? "body" with
  | none => pure ()
  | some body =>
    if !f.params.any (·.name == body) then
      invalid f.header.pos declaration s!"body parameter '{body}' is not declared"

/-- A controller. -/
def controllerDecl (h : Header) (active : Bool) : Parser Controller := do
  let _ ← expectKeyword .controllerKw
  let (name, pos) ← ident
  declare name .controller pos h.id active
  let handlers ← members active fun h active => do
    let f ← funcDecl h active .handler
    if active then checkHandler name f
    return f
  return ⟨h, name, handlers⟩

/-- A client: controllers, or single handlers of them. -/
def apiDecl (h : Header) (active : Bool) : Parser Api := do
  let _ ← expectKeyword .apiKw
  let (name, pos) ← ident
  declare name .api pos h.id active
  expectPunct .braceOpen
  let members ← untilClose .braceClose step []
  expectPunct .braceClose
  return ⟨h, name, members⟩
where
  step (members : List ApiMember) : Parser (List ApiMember) := do
    let (controller, pos) ← ident
    let handler ← if ← skipPunct .dot then do pure (some (← ident).1) else pure none
    expectPunct .semicolon
    return members ++ [⟨← nameRef controller pos, handler, pos⟩]

/-! ## Pages and properties -/

mutual

/-- A node whose capitalized tag, and those of its children, refer to pages. -/
def attachComponent (pos : Position) : MarkupNode → Parser MarkupNode
  | .element tag attrs _ children => do
    let component ← if isComponentTag tag then do pure (some (← nameRef tag pos)) else pure none
    return .element tag attrs component (← attachComponents pos children)
  | node => pure node

/-- Nodes whose capitalized tags refer to pages. -/
def attachComponents (pos : Position) : List MarkupNode → Parser (List MarkupNode)
  | [] => pure []
  | node :: rest => do
    let node ← attachComponent pos node
    return node :: (← attachComponents pos rest)

end

/-- A page. Markup that cannot be read is reported and leaves the page empty. -/
def pageDecl (h : Header) (active : Bool) : Parser Page := do
  let _ ← expectKeyword .htmlKw
  let (name, pos) ← ident
  declare name .page pos h.id active
  let parent ←
    if ← skipPunct .colon then do
      let (parent, parentPos) ← ident
      pure (some (← nameRef parent parentPos))
    else pure none
  let layout ←
    match h.annotations.text? "layout" with
    | some layout => do pure (some (← nameRef layout h.pos))
    | none => pure none
  let t ← peek
  match t.kind with
  | .raw text =>
    advance
    let markup ←
      match Markup.parse text with
      | .ok nodes => pure nodes
      | .error e => do
        invalid t.pos s!"page {name}" s!"{e.message} (at offset {e.offset})"
        pure []
    return ⟨h, name, parent, layout, ← attachComponents t.pos markup⟩
  | _ => expected "page markup"

/-- A property: a name, a type and perhaps a value. -/
def propertyDecl (h : Header) (active : Bool) : Parser Property := do
  let _ ← expectKeyword .propertyKw
  let (name, pos) ← ident
  declare name .property pos h.id active
  let type ← typeRef
  let value ← if ← skipPunct .assign then do pure (some (← expr)) else pure none
  expectPunct .semicolon
  return ⟨h, name, type, value⟩

/-! ## Files -/

/-- A top-level declaration, or nothing if it is for other platforms. -/
def decl : Parser (Option Decl) := do
  let (h, active) ← header
  let d ←
    match (← peek).kind with
    | .keyword .importKw => do pure (Decl.importFile (← importDecl h))
    | .keyword .domainKw => do pure (Decl.domain (← domainDecl h active))
    | .keyword .tableKw => do pure (Decl.table (← tableDecl h active))
    | .keyword .entityKw => do pure (Decl.entity (← entityDecl h active))
    | .keyword .structKw => do pure (Decl.record (← recordDecl h active))
    | .keyword .mapperKw => do pure (Decl.mapper (← mapperDecl h active))
    | .keyword .controllerKw => do pure (Decl.controller (← controllerDecl h active))
    | .keyword .apiKw => do pure (Decl.api (← apiDecl h active))
    | .keyword .htmlKw => do pure (Decl.page (← pageDecl h active))
    | .keyword .propertyKw => do pure (Decl.property (← propertyDecl h active))
    | .keyword .funcKw => do pure (Decl.func (← funcDecl h active .func))
    | _ => expected "a declaration"
  return if active then some d else none

/-- The declarations of a file; semicolons may stand between them. -/
def decls : Parser (List Decl) := do
  untilFuel atEnd step ((← remaining) + 1) []
where
  step (ds : List Decl) : Parser (List Decl) := do
    if ← skipPunct .semicolon then return ds
    else return ds ++ (← decl).toList

end Scaffold.Source.Parser
