import Scaffold.Dialect
import Scaffold.Project
import Scaffold.Url

/-!
C#: a console program with records and requests, and an ASP.NET Core server with Dapper mappers.

| here | in the program |
| --- | --- |
| `recordFile`, `constantsFile` | `record`, `constants` |
| `projectFile` | `csproj` |
| `urlExpr` | `client_url` |
| `mapperFile`, `routeMark`, `controllerFile` | `mapper`, `http_attribute`, `controller` |
-/

namespace Scaffold.Target.CSharp

open Code Naming

def indentUnit : String := "    "

/-- Scalar types. -/
def primitive : Primitive → String
  | .int => "int"
  | .bigint => "long"
  | .float => "float"
  | .double => "double"
  | .decimal => "decimal"
  | .bool => "bool"
  | .string | .text | .char _ | .varchar _ => "string"
  | .date => "DateOnly"
  | .datetime => "DateTime"
  | .void => "void"
  | .any => "object"

def typeName : Model.Ty → String :=
  Model.Ty.spell primitive (fun item => s!"List<{item}>") pascal

/-- Printing. -/
def print : List String → String
  | [] => "Console.WriteLine()"
  | [one] => s!"Console.WriteLine({one})"
  | args => "Console.WriteLine(string.Join(\" \", " ++ Text.joinWith ", " args ++ "))"

/-- A variable. -/
def declare (name : String) : Option Model.Ty → Option String → String
  | some t, some init => s!"{typeName t} {name} = {init}"
  | some t, none => s!"{typeName t} {name} = default"
  | none, some init => s!"var {name} = {init}"
  | none, none => s!"object {name} = null"

/-- A name; `functions` is the class of free functions, unless it is the current one. -/
def nameIn (functions : Option String) (name : String) : Model.NameKind → String
  | .constant => s!"Constants.{name}"
  | .procedure => (functions.map (· ++ "." ++ name)).getD name
  | .dataAccess => s!"_{camel name}"
  | _ => name

/-- C#, with free functions in the given class. -/
def dialect (functions : Option String) : Dialect where
  typeName := typeName
  print := print
  declare := declare
  forRange var first last := s!"for (var {var} = {first}; {var} < {last}; {var}++) \x7b"
  forEach var items := s!"foreach (var {var} in {items}) \x7b"
  name := nameIn functions

def namespaceDir (ns : String) : String :=
  "src/" ++ Text.replaceChar '.' "/" ns

/-- A documentation comment. -/
def docComment : Option String → Code
  | none => []
  | some text => line s!"/// <summary>{text}</summary>"

/-- A record. -/
def recordFile (ns : String) (r : Model.DataType) : Code :=
  line s!"namespace {ns}.Models;" ++ blank
    ++ docComment (r.table.map fun t => s!"Row of table {t}.")
    ++ ownBraces s!"public record {pascal r.name}"
      (lines (r.fields.map fun f =>
        s!"public {typeName f.type}" ++ (if f.nullable then "?" else "")
          ++ s!" {pascal f.name} \x7b get; init; \x7d"))

/-- The class of constants. -/
def constantsFile (ns : String) (d : Dialect) (m : CodeModel) : Code :=
  line s!"namespace {ns};" ++ blank
    ++ ownBraces "public static class Constants"
      (lines (m.constants.map fun c =>
        s!"public static readonly {typeName c.type} {c.name} = " ++ d.valueOr "default" c.value
          ++ ";"))

def typedParams (params : List (String × Model.Ty)) : String :=
  Text.joinWith ", " (params.map fun (name, t) => s!"{typeName t} {name}")

/-- Static methods for all functions but the one where the program starts. -/
def procedures (d : Dialect) (m : CodeModel) : Code :=
  spaced ((m.procedures.filter (!·.isEntry)).map fun p =>
    let params := typedParams (p.params.map fun p => (p.name, p.type))
    ownBraces (s!"public static " ++ d.typeOr "void" p.returns ++ s!" {p.name}({params})")
      (d.block p.body))

def packageReference (name version : String) : String :=
  s!"<PackageReference Include=\"{name}\" Version=\"{version}\" />"

/-- The project file. -/
def projectFile (p : Project) (sdk : String) (program : Bool) (packages : List (String × String)) :
    Code :=
  let extra := p.options.dependencies.map fun s => (Text.splitFirst ':' s).getD (s, "*")
  let all := packages ++ extra
  let items :=
    if all.isEmpty then []
    else between "<ItemGroup>" (lines (all.map fun (n, v) => packageReference n v)) "</ItemGroup>"
  between s!"<Project Sdk=\"{sdk}\">"
    (between "<PropertyGroup>"
      ((if program then line "<OutputType>Exe</OutputType>" else [])
        ++ lines
          ["<TargetFramework>" ++ p.options.languageVersion.getD "net8.0" ++ "</TargetFramework>",
            "<Nullable>enable</Nullable>",
            "<ImplicitUsings>enable</ImplicitUsings>",
            s!"<RootNamespace>{p.codeNamespace}</RootNamespace>",
            s!"<Version>{p.version}</Version>"])
      "</PropertyGroup>"
      ++ items)
    "</Project>"

/-- The address of a request as an interpolated text. -/
def urlExpr (template : String) : String :=
  let doubled (s : String) : String :=
    Text.mapEach (fun c => if c == '\x7b' || c == '\x7d' then c.toString ++ c.toString
      else c.toString) s
  "$\"\x7b_baseUrl\x7d" ++ String.join ((Url.parts template).map fun
    | .text s => doubled (escape s)
    | .param name => Url.braced name) ++ "\""

/-- A method that makes a request. -/
def clientCall (c : Model.ClientCall) : Code :=
  let params := typedParams (c.bindings.map fun b => (b.name, b.type))
  let returns := (c.returns.map fun t => s!"Task<{typeName t}>").getD "Task"
  let url := urlExpr (Url.template c.path c.bindings)
  docComment c.comment
    ++ ownBraces s!"public async {returns} {pascal c.name}Async({params})"
      (line (s!"using var request = new HttpRequestMessage(new HttpMethod(\"{c.method.upper}\"), "
          ++ url ++ ");")
        ++ lines ((Url.bodyBinding? c.bindings).map fun b =>
          s!"request.Content = JsonContent.Create({b.name});").toList
        ++ lines
          ["using var response = await _http.SendAsync(request);",
            "response.EnsureSuccessStatusCode();"]
        ++ lines (c.returns.map fun t =>
          s!"return (await response.Content.ReadFromJsonAsync<{typeName t}>())!;").toList)

/-- A class of requests. -/
def clientFile (ns : String) (c : Model.ClientApi) : Code :=
  let name := pascal c.name
  lines ["using System.Net.Http.Json;", s!"using {ns}.Models;"] ++ blank
    ++ line s!"namespace {ns}.Api;" ++ blank
    ++ ownBraces s!"public class {name}"
      (lines ["private readonly HttpClient _http = new();", "private string _baseUrl;"] ++ blank
        ++ ownBraces s!"public {name}(string baseUrl = \"{escape c.baseUrl}\")"
          (line "_baseUrl = baseUrl;")
        ++ blank ++ line "public void SetServer(string baseUrl) => _baseUrl = baseUrl;"
        ++ spaced (c.calls.map clientCall))

def recordFiles (root ns : String) (m : CodeModel) : List GeneratedFile :=
  m.records.map fun r => (recordFile ns r).file s!"{root}/Models/{pascal r.name}.cs" indentUnit

/-- A C# console program. -/
def client (m : CodeModel) (p : Project) : List GeneratedFile :=
  let ns := p.codeNamespace
  let root := namespaceDir ns
  let d := dialect none
  let program := lines [s!"using {ns}.Models;", s!"using {ns}.Api;"] ++ blank
    ++ line s!"namespace {ns};" ++ blank
    ++ ownBraces "public static class Program"
      (ownBraces "public static void Main(string[] args)" (d.entryBlock m) ++ procedures d m)
  [(projectFile p "Microsoft.NET.Sdk" true []).file s!"{root}/{ns}.csproj" "  "]
    ++ recordFiles root ns m
    ++ m.clients.map (fun c =>
      (clientFile ns c).file s!"{root}/Api/{pascal c.name}.cs" indentUnit)
    ++ [(constantsFile ns d m).file s!"{root}/Constants.cs" indentUnit,
      program.file s!"{root}/Program.cs" indentUnit]

/-! ## ASP.NET Core -/

/-- The return type of a mapper method and the expression it gives. -/
def operationBody (o : Model.Operation) : String × String :=
  let sql := Sql.withPlaceholders (fun name _ => s!"@{name}") o.sql
  let names := Text.joinWith ", " (o.params.map (·.name))
  let args := if o.params.isEmpty then "" else s!", new \x7b {names} \x7d"
  let call := "(\"" ++ escape (oneLine sql) ++ "\"" ++ args ++ ")"
  match o.returns with
  | some t =>
    if t.isList then (typeName t, s!"_db.Query<{typeName t.element}>{call}.ToList();")
    else if o.kind == .select then (typeName t, s!"_db.QueryFirstOrDefault<{typeName t}>{call}!;")
    else (typeName t, s!"_db.ExecuteScalar<{typeName t}>{call};")
  | none => ("int", s!"_db.Execute{call};")

/-- A mapper method. -/
def operation (o : Model.Operation) : Code :=
  let params := typedParams (o.params.map fun p => (p.name, p.type))
  let (returns, body) := operationBody o
  line s!"public {returns} {o.name}({params}) =>" ++ nest (line body)

/-- A mapper class. -/
def mapperFile (ns : String) (a : Model.DataAccess) : Code :=
  let name := pascal a.name
  lines ["using System.Data;", "using Dapper;", s!"using {ns}.Models;"] ++ blank
    ++ line s!"namespace {ns}.Mappers;" ++ blank
    ++ ownBraces s!"public class {name}"
      (line "private readonly IDbConnection _db;" ++ blank
        ++ ownBraces s!"public {name}(IDbConnection db)" (line "_db = db;")
        ++ spaced (a.operations.map operation))

/-- The mark of a method that answers requests. -/
def routeMark : HttpMethod → String
  | .get => "HttpGet"
  | .post => "HttpPost"
  | .put => "HttpPut"
  | .delete => "HttpDelete"
  | .patch => "HttpPatch"
  | .head => "HttpHead"
  | .options => "HttpOptions"

/-- The mark of a parameter, by where its value travels. -/
def bindingMark : Model.BindingSource → String
  | .path => "FromRoute"
  | .body => "FromBody"
  | .query => "FromQuery"

/-- A method that answers requests. -/
def route (d : Dialect) (r : Model.Route) : Code :=
  let params := Text.joinWith ", " (r.bindings.map fun b =>
    s!"[{bindingMark b.source}] {typeName b.type} {b.name}")
  let returns := (r.returns.map fun t => s!"ActionResult<{typeName t}>").getD "void"
  docComment r.comment
    ++ line s!"[{routeMark r.method}(\"{r.path}\")]"
    ++ ownBraces s!"public {returns} {pascal r.handler}({params})" (d.block r.body)

/-- A controller class; the mappers it uses are handed to it. -/
def controllerFile (ns : String) (d : Dialect) (s : Model.Service) : Code :=
  let name := pascal s.name
  let mappers := s.mappersUsed
  let params := Text.joinWith ", " (mappers.map fun m => s!"{pascal m} {camel m}")
  lines ["using Microsoft.AspNetCore.Mvc;", s!"using {ns}.Mappers;", s!"using {ns}.Models;"] ++ blank
    ++ line s!"namespace {ns}.Controllers;" ++ blank
    ++ docComment s.comment ++ line "[ApiController]"
    ++ ownBraces s!"public class {name} : ControllerBase"
      (lines (mappers.map fun m => s!"private readonly {pascal m} _{camel m};") ++ blank
        ++ ownBraces s!"public {name}({params})"
          (lines (mappers.map fun m => s!"_{camel m} = {camel m};"))
        ++ spaced (s.routes.map (route d)))

/-- The settings of the server. -/
def settingsFile : String :=
  "\x7b\n  \"ConnectionStrings\": \x7b\n    \"Default\": \"Data Source=app.db\"\n  \x7d,\n"
    ++ "  \"Logging\": \x7b\n    \"LogLevel\": \x7b\n      \"Default\": \"Information\"\n    \x7d\n"
    ++ "  \x7d\n\x7d\n"

/-- An ASP.NET Core server. -/
def aspNet (m : CodeModel) (p : Project) : List GeneratedFile :=
  let ns := p.codeNamespace
  let root := namespaceDir ns
  let d := dialect (some "Functions")
  let functions := line s!"using {ns}.Models;" ++ blank
    ++ line s!"namespace {ns};" ++ blank
    ++ ownBraces "public static class Functions"
      (ownBraces "public static void Run()" (d.entryBlock m) ++ procedures d m)
  let program := lines
      ["using System.Data;",
        "using Microsoft.Data.Sqlite;",
        s!"using {ns};",
        s!"using {ns}.Mappers;"]
    ++ blank
    ++ lines
      ["var builder = WebApplication.CreateBuilder(args);",
        "builder.Services.AddControllers();",
        "builder.Services.AddScoped<IDbConnection>(_ =>",
        indentUnit
          ++ "new SqliteConnection(builder.Configuration.GetConnectionString(\"Default\")));"]
    ++ lines (m.mappers.map fun a => s!"builder.Services.AddScoped<{pascal a.name}>();")
    ++ blank
    ++ lines
      ["var app = builder.Build();", "app.MapControllers();", "Functions.Run();", "app.Run();"]
  [(projectFile p "Microsoft.NET.Sdk.Web" false
      [("Dapper", "2.1.35"), ("Microsoft.Data.Sqlite", "8.0.6")]).file s!"{root}/{ns}.csproj" "  ",
    ⟨s!"{root}/appsettings.json", settingsFile⟩]
    ++ recordFiles root ns m
    ++ m.mappers.map (fun a =>
      (mapperFile ns a).file s!"{root}/Mappers/{pascal a.name}.cs" indentUnit)
    ++ m.services.map (fun s =>
      (controllerFile ns d s).file s!"{root}/Controllers/{pascal s.name}.cs" indentUnit)
    ++ [(constantsFile ns d m).file s!"{root}/Constants.cs" indentUnit,
      functions.file s!"{root}/Functions.cs" indentUnit,
      program.file s!"{root}/Program.cs" indentUnit]

end Scaffold.Target.CSharp
