import Scaffold.Dialect
import Scaffold.Project
import Scaffold.Url

/-!
Go: a program with structures and requests, and a Gin server with SQL mappers.

| here | in the program |
| --- | --- |
| `moduleFile` | `go_mod` |
| `modelsFile` | `models` |
| `mainFile` | `program` |
| `urlExpr` | `sprintf_url` |
| `readText?` | `parse_text` |
| `mappersFile`, `controllersFile` | `mappers`, `controllers` |
| `pattern` | `gin_pattern` |
-/

namespace Scaffold.Target.Go

open Code Naming

def indentUnit : String := "\t"

/-- Scalar types. -/
def primitive : Primitive → String
  | .int => "int"
  | .bigint => "int64"
  | .float => "float32"
  | .double | .decimal => "float64"
  | .bool => "bool"
  | .string | .text | .char _ | .varchar _ | .date | .datetime => "string"
  | .void => ""
  | .any => "any"

def typeName : Model.Ty → String :=
  Model.Ty.spell primitive ("[]" ++ ·) pascal

/-- A variable. -/
def declare (name : String) : Option Model.Ty → Option String → String
  | some t, some init => s!"var {name} {typeName t} = {init}"
  | some t, none => s!"var {name} {typeName t}"
  | none, some init => s!"{name} := {init}"
  | none, none => s!"var {name} any"

/-- Go. -/
def dialect : Dialect where
  typeName := typeName
  print args := "fmt.Println(" ++ Text.joinWith ", " args ++ ")"
  declare := declare
  forRange var first last := s!"for {var} := {first}; {var} < {last}; {var}++ \x7b"
  forEach var items := s!"for _, {var} := range {items} \x7b"
  null := "nil"
  name name kind := if kind == .dataAccess then "c." ++ camel name else name
  terminator := ""
  ifOpen test := s!"if {test} \x7b"
  elseIfOpen test := s!"\x7d else if {test} \x7b"
  whileOpen test := s!"for {test} \x7b"

def paramList (params : List Model.Parameter) : String :=
  Text.joinWith ", " (params.map fun p => s!"{p.name} {typeName p.type}")

def bindingList (bindings : List Model.Binding) : String :=
  Text.joinWith ", " (bindings.map fun b => s!"{b.name} {typeName b.type}")

def returns (t : Option Model.Ty) : String :=
  (t.map fun t => " " ++ typeName t).getD ""

/-- The module file. A dependency may name its version after an at sign. -/
def moduleFile (p : Project) (requires : List (String × String)) : GeneratedFile :=
  let extra := p.options.dependencies.map fun d => (Text.splitFirst '@' d).getD (d, "latest")
  let all := requires ++ extra
  let code := line s!"module {p.module}" ++ blank
    ++ line ("go " ++ p.options.languageVersion.getD "1.22")
    ++ (if all.isEmpty then []
      else blank ++ between "require (" (lines (all.map fun (m, v) => s!"{m} {v}")) ")")
  code.file "go.mod" indentUnit

/-- The start of a file with the packages it imports. -/
def fileHead (packages : List String) : Code :=
  line "package main" ++ blank
    ++ match packages with
      | [] => []
      | [one] => line s!"import \"{one}\"" ++ blank
      | many => between "import (" (lines (many.map fun p => s!"\"{p}\"")) ")" ++ blank

def needed (packages : List (Bool × String)) : List String :=
  packages.filterMap fun (isNeeded, package) => if isNeeded then some package else none

/-- The type of a field; one that may be missing is a pointer. -/
def fieldType (f : Model.Field) : String :=
  if f.nullable && !f.type.isList then "*" ++ typeName f.type else typeName f.type

/-- A structure. -/
def record (r : Model.DataType) : Code :=
  let name := pascal r.name
  lines (r.table.map fun t => s!"// {name} is a row of table {t}.").toList
    ++ braces s!"type {name} struct"
      (lines (r.fields.map fun f =>
        s!"{pascal f.name} {fieldType f} `json:\"{camel f.name}\"`"))
    ++ blank

def modelsFile (m : CodeModel) : GeneratedFile :=
  (fileHead [] ++ concat (m.records.map record)).file "src/models.go" indentUnit

/-- Constants, functions and the start of the program. A server sets itself up after that. -/
def mainFile (m : CodeModel) (setup : Option Code) : GeneratedFile :=
  let isServer := setup.isSome
  let prints := m.procedures.any fun p => Model.prints p.body
  let code :=
    fileHead (needed
      [(isServer, "database/sql"), (prints, "fmt"), (isServer, "github.com/gin-gonic/gin"),
        (isServer, "log")])
    ++ (if isServer then line "import _ \"github.com/mattn/go-sqlite3\"" ++ blank else [])
    ++ lines (m.constants.map fun c =>
      s!"var {c.name} {typeName c.type}" ++ (c.value.map fun e => " = " ++ dialect.expr e).getD "")
    ++ spaced ((m.procedures.filter (!·.isEntry)).map fun p =>
      braces s!"func {p.name}({paramList p.params}){returns p.returns}" (dialect.block p.body))
    ++ blank
    ++ braces "func main()" (dialect.entryBlock m ++ setup.getD [])
  code.file "src/main.go" indentUnit

def onError (body : List String) : Code :=
  braces "if err != nil" (lines body)

/-! ## Client -/

/-- The address of a request as a formatted text. -/
def urlExpr (c : Model.ClientCall) : String :=
  let parts := Url.parts (Url.template c.path c.bindings)
  let format := String.join (parts.map fun
    | .text s => Text.replaceChar '%' "%%" (escape s)
    | .param _ => "%v")
  let args := parts.filterMap fun
    | .text _ => none
    | .param name => some name
  s!"fmt.Sprintf(\"%s{format}\", " ++ Text.joinWith ", " ("a.BaseURL" :: args) ++ ")"

/-- A method that makes a request. -/
def clientCall (owner : String) (c : Model.ClientCall) : Code :=
  let method := pascal c.name
  let zero := if c.returns.isSome then "result, " else ""
  let signature := (c.returns.map fun t => s!"({typeName t}, error)").getD "error"
  let failed := onError [s!"return {zero}err"]
  let request (payload : String) :=
    line s!"req, err := http.NewRequest(\"{c.method.upper}\", {urlExpr c}, {payload})"
  lines (c.comment.map fun t => s!"// {method} {t}").toList
    ++ braces s!"func (a *{owner}) {method}({bindingList c.bindings}) {signature}"
      (lines (c.returns.map fun t => s!"var result {typeName t}").toList
        ++ (match Url.bodyBinding? c.bindings with
          | some b =>
            line s!"payload, err := json.Marshal({b.name})" ++ failed
              ++ request "bytes.NewReader(payload)"
          | none => request "nil")
        ++ failed
        ++ lines
          ["req.Header.Set(\"Content-Type\", \"application/json\")",
            "resp, err := a.Client.Do(req)"]
        ++ failed
        ++ line "defer resp.Body.Close()"
        ++ braces "if resp.StatusCode >= 400"
          (line s!"return {zero}fmt.Errorf(\"{c.name} failed: %s\", resp.Status)")
        ++ (if c.returns.isSome then
            lines ["err = json.NewDecoder(resp.Body).Decode(&result)", "return result, err"]
          else line "return nil"))

/-- A type with a method for each request. -/
def clientFile (c : Model.ClientApi) : GeneratedFile :=
  let name := pascal c.name
  let sendsBody := c.calls.any fun call => (Url.bodyBinding? call.bindings).isSome
  let code :=
    fileHead (needed
      [(sendsBody, "bytes"), (true, "encoding/json"), (true, "fmt"), (true, "net/http")])
    ++ braces s!"type {name} struct" (lines ["BaseURL string", "Client  *http.Client"]) ++ blank
    ++ braces s!"func New{name}() *{name}"
      (line (s!"return &{name}\x7bBaseURL: \"{escape c.baseUrl}\", "
        ++ "Client: http.DefaultClient\x7d"))
    ++ spaced (c.calls.map (clientCall name))
  code.file s!"src/{snake c.name}.go" indentUnit

def client (m : CodeModel) (p : Project) : List GeneratedFile :=
  [moduleFile p [], modelsFile m] ++ m.clients.map clientFile ++ [mainFile m none]

/-! ## Gin -/

/-- Reads a value of the type from text; texts need no reading. -/
def readText? (name raw : String) : Model.Ty → Option (List String)
  | .primitive .int => some [s!"{name}, _ := strconv.Atoi({raw})"]
  | .primitive .bigint => some [s!"{name}, _ := strconv.ParseInt({raw}, 10, 64)"]
  | .primitive .double | .primitive .decimal =>
    some [s!"{name}, _ := strconv.ParseFloat({raw}, 64)"]
  | .primitive .float =>
    some
      [s!"{name}Raw, _ := strconv.ParseFloat({raw}, 32)", s!"{name} := float32({name}Raw)"]
  | .primitive .bool => some [s!"{name}, _ := strconv.ParseBool({raw})"]
  | _ => none

/-- Where the columns of a row are read to. -/
def scanTargets (m : CodeModel) (target : String) : Model.Ty → String
  | .named name _ =>
    let fields := ((m.dataType? name).map (·.fields)).getD []
    Text.joinWith ", " (fields.map fun f => s!"&{target}.{pascal f.name}")
  | _ => "&" ++ target

/-- A statement as a literal: between backticks, unless it holds one. -/
def sqlLiteral (sql : String) : String :=
  if Text.holds "`" sql then "\"" ++ escape sql ++ "\"" else "`" ++ sql ++ "`"

/-- A mapper method. -/
def operation (m : CodeModel) (owner : String) (o : Model.Operation) : Code :=
  let args := String.join (o.bindOrder.map (", " ++ ·))
  let sql := sqlLiteral (Text.trim o.positionalSql)
  let head (result : String) := s!"func (m *{owner}) {o.name}({paramList o.params}) {result}"
  let report := s!"log.Printf(\"{o.name}: %v\", err)"
  match o.returns with
  | some t =>
    let item := t.element
    if t.isList then
      braces (head s!"[]{typeName item}")
        (lines [s!"var result []{typeName item}", s!"rows, err := m.db.Query({sql}{args})"]
          ++ onError [report, "return result"]
          ++ line "defer rows.Close()"
          ++ braces "for rows.Next()"
            (line s!"var row {typeName item}"
              ++ braces ("if err := rows.Scan(" ++ scanTargets m "row" item ++ "); err != nil")
                (lines [report, "continue"])
              ++ line "result = append(result, row)")
          ++ line "return result")
    else
      braces (head (typeName t))
        (lines
            [s!"var result {typeName t}",
              s!"err := m.db.QueryRow({sql}{args}).Scan(" ++ scanTargets m "result" t ++ ")"]
          ++ braces "if err != nil && err != sql.ErrNoRows" (line report)
          ++ line "return result")
  | none =>
    braces (head "int64")
      (line s!"res, err := m.db.Exec({sql}{args})"
        ++ onError [report, "return 0"]
        ++ lines ["n, _ := res.RowsAffected()", "return n"])

/-- A mapper type. -/
def mapper (m : CodeModel) (a : Model.DataAccess) : Code :=
  let name := pascal a.name
  braces s!"type {name} struct" (line "db *sql.DB") ++ blank
    ++ braces s!"func New{name}(db *sql.DB) *{name}" (line s!"return &{name}\x7bdb: db\x7d")
    ++ spaced (a.operations.map (operation m name)) ++ blank

/-- The file of mappers. -/
def mappersFile (m : CodeModel) : GeneratedFile :=
  (fileHead ["database/sql", "log"] ++ concat (m.mappers.map (mapper m))).file "src/mappers.go"
    indentUnit

/-- The pattern of a route. -/
def pattern (path : String) : String :=
  String.join ((Url.parts path).map fun
    | .text s => s
    | .param name => ":" ++ name)

/-- Reads a parameter of a request. -/
def readBinding (b : Model.Binding) : Code :=
  let read (raw : String) := lines ((readText? b.name raw b.type).getD [s!"{b.name} := {raw}"])
  match b.source with
  | .path => read s!"ctx.Param(\"{b.name}\")"
  | .query => read s!"ctx.Query(\"{b.name}\")"
  | .body =>
    line s!"var {b.name} {typeName b.type}"
      ++ braces s!"if err := ctx.ShouldBindJSON(&{b.name}); err != nil"
        (lines
          ["ctx.JSON(http.StatusBadRequest, gin.H\x7b\"error\": err.Error()\x7d)", "return"])

/-- Registers a route. -/
def registerRoute (r : Model.Route) : Code :=
  let call := s!"c.{r.handler}(" ++ Text.joinWith ", " (r.bindings.map (·.name)) ++ ")"
  between s!"r.{r.method.upper}(\"{pattern r.path}\", func(ctx *gin.Context) \x7b"
    (concat (r.bindings.map readBinding)
      ++ (if r.returns.isSome then line s!"ctx.JSON(http.StatusOK, {call})"
        else lines [call, "ctx.Status(http.StatusNoContent)"]))
    "\x7d)"

/-- A handler method. -/
def route (owner : String) (r : Model.Route) : Code :=
  lines (r.comment.map fun t => s!"// {r.handler} {t}").toList
    ++ braces s!"func (c *{owner}) {r.handler}({bindingList r.bindings}){returns r.returns}"
      (dialect.block r.body)

/-- A controller type; the mappers it uses are its fields. -/
def controller (s : Model.Service) : Code :=
  let name := pascal s.name
  lines (s.comment.map fun t => s!"// {name} {t}").toList
    ++ braces s!"type {name} struct"
      (lines (s.mappersUsed.map fun m => s!"{camel m} *{pascal m}"))
    ++ blank
    ++ braces s!"func (c *{name}) Register(r *gin.Engine)" (concat (s.routes.map registerRoute))
    ++ spaced (s.routes.map (route name)) ++ blank

/-- The file of controllers. -/
def controllersFile (m : CodeModel) : GeneratedFile :=
  let routes := m.services.flatMap (·.routes)
  let readsNumbers := routes.any fun r => r.bindings.any fun b =>
    b.source != .body && (readText? "" "" b.type).isSome
  let prints := routes.any fun r => Model.prints r.body
  let head := fileHead (needed
    [(prints, "fmt"), (true, "github.com/gin-gonic/gin"), (true, "net/http"),
      (readsNumbers, "strconv")])
  (head ++ concat (m.services.map controller)).file "src/controllers.go" indentUnit

/-- Opens the database, registers all controllers and runs the server. -/
def serverSetup (m : CodeModel) : Code :=
  line "db, err := sql.Open(\"sqlite3\", \"app.db\")" ++ onError ["log.Fatal(err)"]
    ++ lines ["defer db.Close()", "r := gin.Default()"]
    ++ lines (m.services.map fun s =>
      let fields := s.mappersUsed.map fun a => s!"{camel a}: New{pascal a}(db)"
      s!"(&{pascal s.name}\x7b" ++ Text.joinWith ", " fields ++ "\x7d).Register(r)")
    ++ line "log.Fatal(r.Run(\":8080\"))"

/-- A Gin server. -/
def gin (m : CodeModel) (p : Project) : List GeneratedFile :=
  [moduleFile p
      [("github.com/gin-gonic/gin", "v1.10.0"), ("github.com/mattn/go-sqlite3", "v1.14.22")],
    modelsFile m, mappersFile m, controllersFile m, mainFile m (some (serverSetup m))]

end Scaffold.Target.Go
