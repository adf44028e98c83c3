import Scaffold.Dialect
import Scaffold.Project
import Scaffold.Target.Java
import Scaffold.Url

/-!
JavaScript, or TypeScript when `typed`: a program with requests, and an Express server with SQLite
mappers. Web frontends share the typed half.

| here | in the program |
| --- | --- |
| `ofType` | `annotate` |
| `urlExpr` | `template_url` |
| `packageFile`, `compilerSettings` | `package_json`, `tsconfig` |
| `bindingValue` | `convert` |
| `pattern` | `express_pattern` |
-/

namespace Scaffold.Target.JavaScript

open Code Naming

def indentUnit : String := "  "

/-- Scalar types. -/
def primitive : Primitive → String
  | .int | .bigint | .float | .double | .decimal => "number"
  | .bool => "boolean"
  | .void => "void"
  | .any => "any"
  | .string | .text | .char _ | .varchar _ | .date | .datetime => "string"

def typeName : Model.Ty → String :=
  Model.Ty.spell primitive (· ++ "[]") pascal

/-- The type that follows a name, where types are written. -/
def ofType (typed : Bool) (t : Model.Ty) : String :=
  if typed then ": " ++ typeName t else ""

def declare (typed : Bool) (name : String) (t : Option Model.Ty) (init : Option String) : String :=
  "let " ++ name ++ (t.map (ofType typed)).getD "" ++ (init.map (" = " ++ ·)).getD ""

/-- Operators; equality compares types too. -/
def binarySign : BinaryOp → String
  | .eq => "==="
  | .notEq => "!=="
  | op => op.sign

/-- JavaScript or TypeScript. -/
def dialect (typed : Bool) : Dialect where
  typeName := typeName
  print args := "console.log(" ++ Text.joinWith ", " args ++ ")"
  declare := declare typed
  forRange var first last := s!"for (let {var} = {first}; {var} < {last}; {var}++) \x7b"
  forEach var items := s!"for (const {var} of {items}) \x7b"
  binarySign := binarySign
  name name kind := if kind == .dataAccess then camel name else name

def paramList (typed : Bool) (params : List Model.Parameter) : String :=
  Text.joinWith ", " (params.map fun p => p.name ++ ofType typed p.type)

def bindingList (typed : Bool) (bindings : List Model.Binding) : String :=
  Text.joinWith ", " (bindings.map fun b => b.name ++ ofType typed b.type)

def returns (typed : Bool) (t : Option Model.Ty) : String :=
  if typed then ": " ++ (t.map typeName).getD "void" else ""

/-- The return type of a function that others wait for. -/
def promises (typed : Bool) (t : Option Model.Ty) : String :=
  if typed then ": Promise<" ++ (t.map typeName).getD "void" ++ ">" else ""

def docComment (comment : Option String) : Code :=
  lines (comment.map fun t => s!"/** {t} */").toList

def importNames (names : List String) (file : String) : Code :=
  line ("import \x7b " ++ Text.joinWith ", " names ++ s!" \x7d from \"{file}\";")

/-- Interfaces for records, or comments that describe them. -/
def models (typed : Bool) (m : CodeModel) : Code :=
  if typed then
    Java.separated (m.records.map fun r =>
      braces s!"export interface {pascal r.name}"
        (lines (r.fields.map fun f =>
          f.name ++ (if f.nullable || f.auto then "?" else "") ++ s!": {typeName f.type};")))
  else
    Java.separated (m.records.map fun r =>
      line "/**" ++ line s!" * @typedef \x7bobject\x7d {pascal r.name}"
        ++ lines (r.fields.map fun f => s!" * @property \x7b{typeName f.type}\x7d {f.name}")
        ++ line " */")
    ++ blank ++ line "export \x7b\x7d;"

/-! ## Client -/

/-- The address of a request as a template text. -/
def urlExpr (c : Model.ClientCall) : String :=
  "`$\x7bthis.baseUrl\x7d"
    ++ String.join ((Url.parts (Url.template c.path c.bindings)).map fun
      | .text s => Text.replace "$\x7b" "\\$\x7b" (Text.replace "`" "\\`" s)
      | .param name => "$" ++ Url.braced s!"encodeURIComponent({name})")
    ++ "`"

/-- A method that makes a request. -/
def clientCall (typed : Bool) (c : Model.ClientCall) : Code :=
  let body := (Url.bodyBinding? c.bindings).map fun b => s!"body: JSON.stringify({b.name})"
  let options :=
    [s!"method: \"{c.method.upper}\"",
      "headers: \x7b \"Content-Type\": \"application/json\" \x7d"]
    ++ body.toList
  docComment c.comment
    ++ braces s!"async {c.name}({bindingList typed c.bindings}){promises typed c.returns}"
      (line (s!"const response = await fetch({urlExpr c}, \x7b " ++ Text.joinWith ", " options
          ++ " \x7d);")
        ++ braces "if (!response.ok)"
          (line s!"throw new Error(`{c.name} failed: $\x7bresponse.status\x7d`);")
        ++ (if c.returns.isSome then line "return response.json();" else []))

/-- The constructor of a class of requests. -/
def constructor (typed : Bool) (baseUrl : String) : Code :=
  if typed then
    line s!"constructor(private baseUrl: string = \"{escape baseUrl}\") \x7b\x7d"
  else
    braces s!"constructor(baseUrl = \"{escape baseUrl}\")" (line "this.baseUrl = baseUrl;")

/-- A class of requests. -/
def clientClass (typed : Bool) (c : Model.ClientApi) : Code :=
  let server := if typed then "baseUrl: string" else "baseUrl"
  braces s!"export class {pascal c.name}"
    (constructor typed c.baseUrl ++ blank
      ++ braces s!"setServer({server})" (line "this.baseUrl = baseUrl;")
      ++ spaced (c.calls.map (clientCall typed)))

/-- The classes of requests. -/
def clients (typed : Bool) (m : CodeModel) : Code :=
  let names := m.records.map fun r => pascal r.name
  (if typed && !names.isEmpty then
      line ("import type \x7b " ++ Text.joinWith ", " names ++ " \x7d from \"./models\";")
    else [])
    ++ spaced (m.clients.map (clientClass typed))

/-- Constants and functions, each after `mark`. -/
def functions (typed : Bool) (mark : String) (m : CodeModel) : Code :=
  let d := dialect typed
  lines (m.constants.map fun c =>
      s!"{mark}const {c.name}{ofType typed c.type} = " ++ d.valueOr "undefined" c.value ++ ";")
    ++ spaced (m.procedures.map fun p =>
      braces s!"{mark}function {p.name}({paramList typed p.params}){returns typed p.returns}"
        (d.block p.body))

/-! ## Package files -/

/-- An object of texts in a package file. -/
def packageSection (name : String) (entries : List (String × String)) (last : Bool) : Code :=
  between s!"\"{name}\": \x7b"
    (Java.commaLines (entries.map fun (k, v) => s!"\"{k}\": \"{v}\""))
    (if last then "\x7d" else "\x7d,")

/-- A dependency may name its version after its last at sign; the first character of a name may be
one too. -/
def dependency (s : String) : String × String :=
  match Text.splitLast '@' s with
  | some (name, version) => if name == "" then (s, "latest") else (name, version)
  | none => (s, "latest")

/-- The package file. -/
def packageFile (p : Project) (main : String)
    (scripts dependencies development : List (String × String)) : GeneratedFile :=
  let all := dependencies ++ p.options.dependencies.map dependency
  let code := between "\x7b"
    (lines
        [s!"\"name\": \"{p.module}\",",
          s!"\"version\": \"{p.version}\",",
          s!"\"description\": \"{escape p.description}\",",
          "\"type\": \"module\",",
          s!"\"main\": \"{main}\","]
      ++ packageSection "scripts" scripts false
      ++ packageSection "dependencies" all development.isEmpty
      ++ (if development.isEmpty then []
        else packageSection "devDependencies" development true))
    "\x7d"
  code.file "package.json" indentUnit

/-- The compiler settings of typed projects. -/
def compilerSettings : GeneratedFile :=
  let code := between "\x7b"
    (between "\"compilerOptions\": \x7b"
        (lines
          ["\"target\": \"ES2022\",",
            "\"module\": \"ESNext\",",
            "\"moduleResolution\": \"Bundler\",",
            "\"strict\": true,",
            "\"esModuleInterop\": true,",
            "\"skipLibCheck\": true,",
            "\"jsx\": \"react-jsx\",",
            "\"outDir\": \"dist\""])
        "\x7d,"
      ++ line "\"include\": [\"src\"]")
    "\x7d"
  code.file "tsconfig.json" indentUnit

/-- The package files of a program. -/
def packageFiles (typed : Bool) (p : Project) : List GeneratedFile :=
  if typed then
    [packageFile p "dist/main.js" [("build", "tsc"), ("start", "node dist/main.js")] []
        [("typescript", "^5.4.0"), ("@types/node", "^20.12.0")],
      compilerSettings]
  else [packageFile p "src/main.js" [("start", "node src/main.js")] [] []]

/-- A JavaScript or TypeScript program. -/
def client (typed : Bool) (m : CodeModel) (p : Project) : List GeneratedFile :=
  let extension := if typed then "ts" else "js"
  let main : Code :=
    (if m.clients.isEmpty then []
      else importNames (m.clients.map fun c => pascal c.name) "./api.js")
    ++ functions typed "" m
    ++ (if m.entry?.isSome then blank ++ line "main();" else [])
  packageFiles typed p
    ++ [(models typed m).file s!"src/models.{extension}" indentUnit]
    ++ (if m.clients.isEmpty then []
      else [(clients typed m).file s!"src/api.{extension}" indentUnit])
    ++ [main.file s!"src/main.{extension}" indentUnit]

/-! ## Express -/

/-- What a mapper method returns. -/
def result (o : Model.Operation) : String :=
  let args := Text.joinWith ", " o.bindOrder
  match o.returns with
  | some (.list (.named _ _)) => s!"return stmt.all({args});"
  | some (.list _) => s!"return stmt.pluck().all({args});"
  | some (.named _ _) => s!"return stmt.get({args});"
  | some _ => s!"return stmt.pluck().get({args});"
  | none => s!"return stmt.run({args}).changes;"

/-- A mapper method. -/
def operation (o : Model.Operation) : Code :=
  braces s!"{o.name}({paramList false o.params})"
    (lines
      [s!"const stmt = this.db.prepare(\"{escape (Text.trim o.positionalSql)}\");", result o])

/-- The mapper classes. -/
def mappers (m : CodeModel) : Code :=
  Java.separated (m.mappers.map fun a =>
    braces s!"export class {pascal a.name}"
      (braces "constructor(db)" (line "this.db = db;") ++ spaced (a.operations.map operation)))

/-- Reads a value of the type from text. -/
def fromText (raw : String) : Model.Ty → String
  | .primitive .int | .primitive .bigint | .primitive .float | .primitive .double
  | .primitive .decimal => s!"Number({raw})"
  | .primitive .bool => s!"{raw} === \"true\""
  | _ => raw

/-- The value of a parameter of a request. -/
def bindingValue (b : Model.Binding) : String :=
  match b.source with
  | .path => fromText s!"req.params.{b.name}" b.type
  | .query => fromText s!"req.query.{b.name}" b.type
  | .body => "req.body"

/-- The pattern of a route. -/
def pattern (path : String) : String :=
  String.join ((Url.parts path).map fun
    | .text s => s
    | .param name => ":" ++ name)

/-- Registers a route. -/
def registerRoute (r : Model.Route) : Code :=
  let call := s!"{r.handler}(" ++ Text.joinWith ", " (r.bindings.map (·.name)) ++ ")"
  between s!"router.{r.method.lower}(\"{pattern r.path}\", (req, res) => \x7b"
    (lines (r.bindings.map fun b => s!"const {b.name} = {bindingValue b};")
      ++ (if r.returns.isSome then line s!"res.json({call});"
        else lines [s!"{call};", "res.status(204).end();"]))
    "\x7d);"

/-- The routes of a service. -/
def router (s : Model.Service) : Code :=
  let used := s.mappersUsed
  line "import \x7b Router \x7d from \"express\";"
    ++ (if used.isEmpty then [] else importNames (used.map camel) "../db.js") ++ blank
    ++ docComment s.comment ++ line "export const router = Router();"
    ++ spaced (s.routes.map fun r =>
      braces s!"function {r.handler}({bindingList false r.bindings})"
        ((dialect false).block r.body))
    ++ spaced (s.routes.map registerRoute)

/-- Opens the database. -/
def database (m : CodeModel) : Code :=
  line "import Database from \"better-sqlite3\";"
    ++ (if m.mappers.isEmpty then []
      else importNames (m.mappers.map fun a => pascal a.name) "./mappers.js")
    ++ blank ++ line "export const db = new Database(\"app.db\");"
    ++ lines (m.mappers.map fun a => s!"export const {camel a.name} = new {pascal a.name}(db);")

/-- An Express server. -/
def express (m : CodeModel) (p : Project) : List GeneratedFile :=
  let main := line "import express from \"express\";"
    ++ concat (m.services.map fun s =>
      importNames [s!"router as {camel s.name}"] s!"./routes/{camel s.name}.js")
    ++ functions false "" m ++ blank
    ++ lines ["const app = express();", "app.use(express.json());"]
    ++ lines (m.services.map fun s => s!"app.use({camel s.name});")
    ++ (if m.entry?.isSome then line "main();" else [])
    ++ line "app.listen(3000, () => console.log(\"listening on 3000\"));"
  [packageFile p "src/main.js" [("start", "node src/main.js")]
      [("express", "^4.19.2"), ("better-sqlite3", "^10.0.0")] [],
    (models false m).file "src/models.js" indentUnit,
    (mappers m).file "src/mappers.js" indentUnit,
    (database m).file "src/db.js" indentUnit]
    ++ m.services.map (fun s => (router s).file s!"src/routes/{camel s.name}.js" indentUnit)
    ++ [main.file "src/main.js" indentUnit]

end Scaffold.Target.JavaScript
