import Scaffold.Dialect
import Scaffold.Project
import Scaffold.Url

/-!
C++: a client library on cpr, and a Crow server with SQLite mappers.

| here | in the program |
| --- | --- |
| `paramList` | `params` |
| `cmakeFile` | `cmake` |
| `urlExpr` | `client_url` |
| `operationReturns` | `op_returns` |
| `bindLines` | `sqlite_bind` |
| `pattern`, `pathParam` | `crow_pattern`, `crow_path_param` |
| `mapperParams` | `controller_mappers` |
-/

namespace Scaffold.Target.Cpp

open Code Naming

def indentUnit : String := "    "

/-- Scalar types. -/
def primitive : Primitive → String
  | .int => "int"
  | .bigint => "long long"
  | .float => "float"
  | .double | .decimal => "double"
  | .bool => "bool"
  | .string | .text | .char _ | .varchar _ | .date | .datetime => "std::string"
  | .void => "void"
  | .any => "nlohmann::json"

def typeName : Model.Ty → String :=
  Model.Ty.spell primitive (fun item => s!"std::vector<{item}>") pascal

/-- The type of values that are texts. -/
def isText : Model.Ty → Bool
  | .primitive p => primitive p == "std::string"
  | _ => false

def returns (t : Option Model.Ty) : String :=
  (t.map typeName).getD "void"

/-- A parameter: numbers go by value, all else by constant reference. -/
def param (name : String) (t : Model.Ty) : String :=
  match t with
  | .primitive _ => if isText t then s!"const {typeName t}& {name}" else s!"{typeName t} {name}"
  | _ => s!"const {typeName t}& {name}"

def paramList (params : List Model.Parameter) : String :=
  Text.joinWith ", " (params.map fun p => param p.name p.type)

def bindingList (bindings : List Model.Binding) : String :=
  Text.joinWith ", " (bindings.map fun b => param b.name b.type)

/-- Printing. -/
def print : List String → String
  | [] => "std::cout << std::endl"
  | args => "std::cout << " ++ Text.joinWith " << \" \" << " args ++ " << std::endl"

/-- A variable. -/
def declare (name : String) : Option Model.Ty → Option String → String
  | some t, some init => s!"{typeName t} {name} = {init}"
  | some t, none => s!"{typeName t} {name}\x7b\x7d"
  | none, some init => s!"auto {name} = {init}"
  | none, none => s!"nlohmann::json {name}"

/-- A sum that starts with a literal text needs a string object, since character pointers do not
add. -/
def binary (op : BinaryOp) (lhs rhs : String) : String :=
  if op == .add && Text.startsWith "\"" lhs then s!"std::string({lhs}) + {rhs}"
  else s!"{lhs} {op.sign} {rhs}"

/-- C++. -/
def dialect : Dialect where
  typeName := typeName
  print := print
  declare := declare
  forRange var first last := s!"for (int {var} = {first}; {var} < {last}; ++{var}) \x7b"
  forEach var items := s!"for (const auto& {var} : {items}) \x7b"
  null := "nullptr"
  binary := binary
  name name kind := if kind == .dataAccess then camel name ++ "_" else name

def docComment (comment : Option String) : Code :=
  lines (comment.map ("/// " ++ ·)).toList

/-- Code in a namespace; it is not indented. -/
def inNamespace (name : String) (body : Code) : Code :=
  line s!"namespace {name} \x7b" ++ blank ++ body ++ blank ++ line s!"\x7d // namespace {name}"

/-- A class with public and private members. -/
def classOf (name : String) (shown hidden : Code) : Code :=
  line s!"class {name} \x7b" ++ nest (line "public:" ++ shown) ++ line "private:" ++ nest hidden
    ++ line "\x7d;"

/-- The headers of other records that a record needs. -/
def recordIncludes (r : Model.DataType) : Code :=
  lines (r.fields.filterMap fun f =>
    match f.type.element with
    | .named name _ => if name != r.name then some s!"#include \"{pascal name}.hpp\"" else none
    | _ => none)

/-- A structure with its mapping to JSON. -/
def recordHeader (space : String) (r : Model.DataType) : Code :=
  let name := pascal r.name
  let fields := Text.joinWith ", " (r.fields.map fun f => camel f.name)
  lines
      ["#pragma once", "#include <string>", "#include <vector>", "#include <nlohmann/json.hpp>"]
    ++ recordIncludes r ++ blank
    ++ inNamespace space
      (between s!"struct {name} \x7b"
          (lines (r.fields.map fun f => s!"{typeName f.type} {camel f.name}\x7b\x7d;")) "\x7d;"
        ++ (if r.fields.isEmpty then []
          else blank ++ line s!"NLOHMANN_DEFINE_TYPE_NON_INTRUSIVE({name}, {fields})"))

def procedureHead (p : Model.Procedure) : String :=
  s!"{returns p.returns} {p.name}({paramList p.params})"

/-- Constants, and all functions but the one where the program starts, declared before they are
defined. -/
def programItems (m : CodeModel) : Code :=
  let procedures := m.procedures.filter (!·.isEntry)
  lines (m.constants.map fun c =>
      s!"const {typeName c.type} {c.name} = " ++ dialect.valueOr "\x7b\x7d" c.value ++ ";")
    ++ (if m.constants.isEmpty && procedures.isEmpty then [] else blank)
    ++ lines (procedures.map fun p => procedureHead p ++ ";")
    ++ spaced (procedures.map fun p => braces (procedureHead p) (dialect.block p.body))

/-- The CMake project file. -/
def cmakeFile (p : Project) (packages sources libraries : List String) : GeneratedFile :=
  let standard := p.options.languageVersion.getD "17"
  let linked := Text.joinWith " " libraries
  let code :=
    lines
      ["cmake_minimum_required(VERSION 3.16)",
        s!"project({p.codeNamespace} VERSION {p.version} LANGUAGES CXX)"]
    ++ blank
    ++ lines [s!"set(CMAKE_CXX_STANDARD {standard})", "set(CMAKE_CXX_STANDARD_REQUIRED ON)"]
    ++ blank
    ++ lines (packages.map fun package => s!"find_package({package} REQUIRED)") ++ blank
    ++ between s!"add_executable({p.module}" (lines sources) ")"
    ++ lines
      [s!"target_include_directories({p.module} PRIVATE include)",
        s!"target_link_libraries({p.module} PRIVATE {linked})"]
  code.file "CMakeLists.txt" indentUnit

def umbrella (headers : List String) : Code :=
  line "#pragma once" ++ lines (headers.map fun h => s!"#include \"{h}.hpp\"")

/-! ## Client -/

/-- The address of a request as a sum of texts. -/
def urlExpr (c : Model.ClientCall) : String :=
  Text.joinWith " + " ("baseUrl_" :: (Url.parts (Url.template c.path c.bindings)).map fun
    | .text s => "\"" ++ escape s ++ "\""
    | .param name =>
      if (c.bindings.find? (·.name == name)).any fun b => isText b.type then name
      else s!"std::to_string({name})")

def callHead (owner : String) (c : Model.ClientCall) : String :=
  s!"{returns c.returns} {owner}{c.name}({bindingList c.bindings})"

/-- The header of a class of requests. -/
def clientHeader (space : String) (c : Model.ClientApi) : Code :=
  let name := pascal c.name
  lines
      ["#pragma once", "#include <string>", "#include <vector>",
        s!"#include \"{space}/dto/Dto.hpp\""]
    ++ blank
    ++ inNamespace s!"{space}::api"
      (classOf name
        (lines
            [s!"explicit {name}(std::string baseUrl = \"{escape c.baseUrl}\");",
              "void setServer(const std::string& baseUrl);"]
          ++ concat (c.calls.map fun call =>
            docComment call.comment ++ line (callHead "" call ++ ";")))
        (line "std::string baseUrl_;"))

/-- A method that makes a request. -/
def clientCall (name : String) (c : Model.ClientCall) : Code :=
  let body := (Url.bodyBinding? c.bindings).map fun b =>
    s!"cpr::Body\x7bnlohmann::json({b.name}).dump()\x7d"
  let args :=
    [s!"cpr::Url\x7b{urlExpr c}\x7d",
      "cpr::Header\x7b\x7b\"Content-Type\", \"application/json\"\x7d\x7d"]
    ++ body.toList
  braces (callHead s!"{name}::" c)
    (line (s!"auto response = cpr::{pascal c.method.lower}(" ++ Text.joinWith ", " args ++ ");")
      ++ braces "if (response.status_code >= 400)"
        (lines
          [s!"spdlog::error(\"{c.name} failed with status \x7b\x7d\", response.status_code);",
            s!"throw std::runtime_error(\"{c.name} failed: \" + "
              ++ "std::to_string(response.status_code));"])
      ++ lines (c.returns.map fun t =>
        s!"return nlohmann::json::parse(response.text).get<{typeName t}>();").toList)

/-- The source of a class of requests. -/
def clientSource (space : String) (c : Model.ClientApi) : Code :=
  let name := pascal c.name
  lines
      [s!"#include \"{space}/api/{name}.hpp\"", "#include <stdexcept>", "#include <cpr/cpr.h>",
        "#include <nlohmann/json.hpp>", "#include <spdlog/spdlog.h>"]
    ++ blank
    ++ inNamespace s!"{space}::api"
      (line s!"{name}::{name}(std::string baseUrl) : baseUrl_(std::move(baseUrl)) \x7b\x7d" ++ blank
        ++ braces s!"void {name}::setServer(const std::string& baseUrl)"
          (line "baseUrl_ = baseUrl;")
        ++ spaced (c.calls.map (clientCall name)))

/-- A C++ client library. -/
def client (m : CodeModel) (p : Project) : List GeneratedFile :=
  let space := p.codeNamespace
  let main := lines
      ["#include <iostream>", "#include <string>", "#include <vector>",
        s!"#include \"{space}/dto/Dto.hpp\""]
    ++ lines (m.clients.map fun c => s!"#include \"{space}/api/{pascal c.name}.hpp\"") ++ blank
    ++ line s!"using namespace {space}::dto;" ++ blank
    ++ programItems m ++ blank
    ++ braces "int main()" (dialect.entryBlock m ++ line "return 0;")
  m.records.map (fun r =>
      (recordHeader s!"{space}::dto" r).file s!"include/{space}/dto/{pascal r.name}.hpp" indentUnit)
    ++ [(umbrella (m.records.map fun r => pascal r.name)).file s!"include/{space}/dto/Dto.hpp"
        indentUnit]
    ++ m.clients.flatMap (fun c =>
      [(clientHeader space c).file s!"include/{space}/api/{pascal c.name}.hpp" indentUnit,
        (clientSource space c).file s!"src/api/{pascal c.name}.cpp" indentUnit])
    ++ [main.file "src/main.cpp" indentUnit,
      cmakeFile p ["cpr", "nlohmann_json", "spdlog"]
        ("src/main.cpp" :: m.clients.map fun c => s!"src/api/{pascal c.name}.cpp")
        ["cpr::cpr", "nlohmann_json::nlohmann_json", "spdlog::spdlog"]]

/-! ## Crow -/

/-- Hands a parameter to a prepared statement. -/
def sqliteBind (index : Nat) (name : String) (t : Model.Ty) : String :=
  match t with
  | .primitive .int | .primitive .bool => s!"sqlite3_bind_int(stmt, {index}, {name});"
  | .primitive .bigint => s!"sqlite3_bind_int64(stmt, {index}, {name});"
  | .primitive .float | .primitive .double | .primitive .decimal =>
    s!"sqlite3_bind_double(stmt, {index}, {name});"
  | _ =>
    let text := if isText t then name else s!"nlohmann::json({name}).dump()"
    s!"sqlite3_bind_text(stmt, {index}, {text}.c_str(), -1, SQLITE_TRANSIENT);"

/-- Reads a column of a row. -/
def sqliteColumn (index : Nat) (t : Model.Ty) : String :=
  match t with
  | .primitive .int => s!"sqlite3_column_int(stmt, {index})"
  | .primitive .bool => s!"sqlite3_column_int(stmt, {index}) != 0"
  | .primitive .bigint => s!"sqlite3_column_int64(stmt, {index})"
  | .primitive .float | .primitive .double | .primitive .decimal =>
    s!"sqlite3_column_double(stmt, {index})"
  | _ =>
    if isText t then s!"columnText(stmt, {index})"
    else s!"nlohmann::json::parse(columnText(stmt, {index}))"

/-- The return type of a mapper method. -/
def operationReturns (o : Model.Operation) : String :=
  match o.returns with
  | some t => typeName t
  | none => if o.kind == .select then "void" else "int"

def operationHead (owner : String) (o : Model.Operation) : String :=
  s!"{operationReturns o} {owner}{o.name}({paramList o.params})"

/-- The header of a mapper class. -/
def mapperHeader (space : String) (a : Model.DataAccess) : Code :=
  let name := pascal a.name
  lines
      ["#pragma once", "#include <string>", "#include <vector>", "#include <sqlite3.h>",
        s!"#include \"{space}/models/Models.hpp\""]
    ++ blank
    ++ inNamespace s!"{space}::repositories::mappers"
      (classOf name
        (line s!"explicit {name}(sqlite3* db);"
          ++ lines (a.operations.map fun o => operationHead "" o ++ ";"))
        (line "sqlite3* db_;"))

/-- Assigns each column of a row to its field. -/
def readFields (m : CodeModel) (target record : String) : Code :=
  let fields := ((m.dataType? record).map (·.fields)).getD []
  lines (fields.mapIdx fun i f => s!"{target}.{camel f.name} = {sqliteColumn i f.type};")

/-- Reads what a row says into the result. -/
def readRow (m : CodeModel) (t : Model.Ty) : Code :=
  match t.element, t.isList with
  | .named name _, true =>
    line s!"{pascal name} row\x7b\x7d;" ++ readFields m "row" name
      ++ line "result.push_back(row);"
  | .named name _, false => readFields m "result" name
  | scalar, true =>
    lines [s!"auto row = {sqliteColumn 0 scalar};", "result.push_back(row);"]
  | scalar, false => line s!"result = {sqliteColumn 0 scalar};"

/-- Runs a prepared statement. -/
def runStatement (m : CodeModel) (o : Model.Operation) : Code :=
  match o.returns with
  | some t =>
    let looping := if t.isList then "while" else "if"
    line s!"{typeName t} result\x7b\x7d;"
      ++ braces s!"{looping} (sqlite3_step(stmt) == SQLITE_ROW)" (readRow m t)
      ++ lines ["sqlite3_finalize(stmt);", "return result;"]
  | none =>
    braces "if (sqlite3_step(stmt) != SQLITE_DONE)"
        (line s!"spdlog::error(\"{o.name} failed: \x7b\x7d\", sqlite3_errmsg(db_));")
      ++ line "sqlite3_finalize(stmt);"
      ++ (if o.kind == .select then [] else line "return sqlite3_changes(db_);")

/-- The lines that hand over the parameters of a statement. -/
def bindLines (o : Model.Operation) : List String :=
  (o.bindOrder.mapIdx fun i name =>
    (o.params.find? (·.name == name)).map fun p => sqliteBind (i + 1) name p.type).reduceOption

/-- A mapper method. -/
def operation (m : CodeModel) (owner : String) (o : Model.Operation) : Code :=
  braces (operationHead s!"{owner}::" o)
    (lines
        [s!"const char* sql = \"{escape o.positionalSql}\";", "sqlite3_stmt* stmt = nullptr;"]
      ++ braces "if (sqlite3_prepare_v2(db_, sql, -1, &stmt, nullptr) != SQLITE_OK)"
        (lines
          ["spdlog::error(\"prepare failed: \x7b\x7d\", sqlite3_errmsg(db_));",
            "throw std::runtime_error(sqlite3_errmsg(db_));"])
      ++ lines (bindLines o) ++ runStatement m o)

/-- The source of a mapper class. -/
def mapperSource (space : String) (m : CodeModel) (a : Model.DataAccess) : Code :=
  let name := pascal a.name
  lines
      [s!"#include \"{space}/repositories/mappers/{name}.hpp\"", "#include <stdexcept>",
        "#include <spdlog/spdlog.h>"]
    ++ blank
    ++ inNamespace s!"{space}::repositories::mappers"
      (braces "static std::string columnText(sqlite3_stmt* stmt, int index)"
          (lines
            ["auto text = sqlite3_column_text(stmt, index);",
              "return text ? reinterpret_cast<const char*>(text) : std::string();"])
        ++ blank ++ line s!"{name}::{name}(sqlite3* db) : db_(db) \x7b\x7d"
        ++ spaced (a.operations.map (operation m name)))

/-- The kinds of path parameters that routes know. -/
inductive PathKind where
  | whole
  | fraction
  | text
  deriving DecidableEq

/-- The kind of a path parameter. -/
def pathKind : Model.Ty → PathKind
  | .primitive .int | .primitive .bigint => .whole
  | .primitive .float | .primitive .double | .primitive .decimal => .fraction
  | _ => .text

/-- The pattern of a route: placeholders become kinds. -/
def pattern (r : Model.Route) : String :=
  String.join ((Url.parts r.path).map fun
    | .text s => s
    | .param name =>
      match (r.bindings.find? (·.name == name)).map fun b => pathKind b.type with
      | some .whole => "<int>"
      | some .fraction => "<double>"
      | _ => "<string>")

/-- A path parameter of a handler. -/
def pathParam (b : Model.Binding) : String :=
  match pathKind b.type with
  | .whole => s!"long long {b.name}"
  | .fraction => s!"double {b.name}"
  | .text => s!"std::string {b.name}"

def mapperParams (mappers : List String) : String :=
  Text.joinWith ", " (mappers.map fun m => s!"{pascal m}& {camel m}")

def routeHead (owner : String) (r : Model.Route) : String :=
  s!"{returns r.returns} {owner}{r.handler}({bindingList r.bindings})"

/-- The header of a controller class. -/
def controllerHeader (space : String) (s : Model.Service) : Code :=
  let name := pascal s.name
  let mappers := s.mappersUsed
  lines ["#pragma once", "#include <crow.h>", s!"#include \"{space}/models/Models.hpp\""]
    ++ lines (mappers.map fun m => s!"#include \"{space}/repositories/mappers/{pascal m}.hpp\"")
    ++ blank
    ++ inNamespace s!"{space}::api"
      (line s!"using namespace {space}::repositories::mappers;" ++ blank
        ++ docComment s.comment
        ++ classOf name
          (lines
              [s!"explicit {name}({mapperParams mappers});",
                "void registerRoutes(crow::SimpleApp& app);"]
            ++ lines (s.routes.map fun r => routeHead "" r ++ ";"))
          (lines (mappers.map fun m => s!"{pascal m}& {camel m}_;")))

/-- Reads a parameter of a request that does not come from the path. -/
def readBinding (b : Model.Binding) : Option String :=
  match b.source with
  | .path => none
  | .body =>
    some s!"auto {b.name} = nlohmann::json::parse(req.body).get<{typeName b.type}>();"
  | .query =>
    let raw := s!"req.url_params.get(\"{b.name}\")"
    let value :=
      if isText b.type then s!"{raw} ? std::string({raw}) : std::string()"
      else s!"{raw} ? nlohmann::json::parse({raw}).get<{typeName b.type}>() "
        ++ s!": {typeName b.type}\x7b\x7d"
    some s!"auto {b.name} = {value};"

/-- Registers a route. -/
def registerRoute (r : Model.Route) : Code :=
  let params := "const crow::request& req"
    :: (r.bindings.filter (·.source == .path)).map pathParam
  let call := s!"{r.handler}(" ++ Text.joinWith ", " (r.bindings.map (·.name)) ++ ")"
  line s!"CROW_ROUTE(app, \"{pattern r}\").methods(crow::HTTPMethod::{pascal r.method.lower})"
    ++ between ("([this](" ++ Text.joinWith ", " params ++ ") \x7b")
      (lines (r.bindings.filterMap readBinding)
        ++ (if r.returns.isSome then
            line s!"return crow::response(nlohmann::json({call}).dump());"
          else lines [s!"{call};", "return crow::response(204);"]))
      "\x7d);"

/-- The constructor of a controller. -/
def constructor (name : String) (mappers : List String) : String :=
  if mappers.isEmpty then s!"{name}::{name}() \x7b\x7d"
  else
    let inits := Text.joinWith ", " (mappers.map fun m => s!"{camel m}_({camel m})")
    s!"{name}::{name}({mapperParams mappers}) : {inits} \x7b\x7d"

/-- The source of a controller class. -/
def controllerSource (space : String) (s : Model.Service) : Code :=
  let name := pascal s.name
  lines [s!"#include \"{space}/api/{name}.hpp\"", "#include <nlohmann/json.hpp>"] ++ blank
    ++ inNamespace s!"{space}::api"
      (line (constructor name s.mappersUsed) ++ blank
        ++ braces s!"void {name}::registerRoutes(crow::SimpleApp& app)"
          (concat (s.routes.map registerRoute))
        ++ spaced (s.routes.map fun r => braces (routeHead s!"{name}::" r) (dialect.block r.body)))

/-- The folder of a record: rows of a table, and what only travels. -/
def recordFolder (r : Model.DataType) : String :=
  match r.kind with
  | .table | .entity => "entity"
  | _ => "dto"

/-- Where a server starts. -/
def serverMain (space : String) (m : CodeModel) : Code :=
  lines
      ["#include <iostream>", "#include <crow.h>", "#include <sqlite3.h>",
        "#include <spdlog/spdlog.h>", s!"#include \"{space}/models/Models.hpp\""]
    ++ lines (m.mappers.map fun a =>
      s!"#include \"{space}/repositories/mappers/{pascal a.name}.hpp\"")
    ++ lines (m.services.map fun s => s!"#include \"{space}/api/{pascal s.name}.hpp\"") ++ blank
    ++ lines
      [s!"using namespace {space}::models;",
        s!"using namespace {space}::repositories::mappers;",
        s!"using namespace {space}::api;"]
    ++ blank ++ programItems m ++ blank
    ++ braces "int main()"
      (dialect.entryBlock m ++ line "sqlite3* db = nullptr;"
        ++ braces "if (sqlite3_open(\"app.db\", &db) != SQLITE_OK)"
          (lines
            ["spdlog::error(\"cannot open database: \x7b\x7d\", sqlite3_errmsg(db));",
              "return 1;"])
        ++ lines (m.mappers.map fun a => s!"{pascal a.name} {camel a.name}(db);")
        ++ line "crow::SimpleApp app;"
        ++ lines (m.services.flatMap fun s =>
          [s!"{pascal s.name} {camel s.name}(" ++ Text.joinWith ", " (s.mappersUsed.map camel)
              ++ ");",
            s!"{camel s.name}.registerRoutes(app);"])
        ++ lines
          ["app.port(8080).multithreaded().run();", "sqlite3_close(db);", "return 0;"])

/-- A Crow server. -/
def server (m : CodeModel) (p : Project) : List GeneratedFile :=
  let space := p.codeNamespace
  let mapperPath (a : Model.DataAccess) := s!"src/repositories/mappers/{pascal a.name}.cpp"
  let controllerPath (s : Model.Service) := s!"src/api/{pascal s.name}.cpp"
  let headers := m.records.map fun r => s!"{recordFolder r}/{pascal r.name}"
  m.records.map (fun r =>
      (recordHeader s!"{space}::models" r).file
        s!"include/{space}/models/{recordFolder r}/{pascal r.name}.hpp" indentUnit)
    ++ [(umbrella headers).file s!"include/{space}/models/Models.hpp" indentUnit]
    ++ m.mappers.flatMap (fun a =>
      [(mapperHeader space a).file s!"include/{space}/repositories/mappers/{pascal a.name}.hpp"
          indentUnit,
        (mapperSource space m a).file (mapperPath a) indentUnit])
    ++ m.services.flatMap (fun s =>
      [(controllerHeader space s).file s!"include/{space}/api/{pascal s.name}.hpp" indentUnit,
        (controllerSource space s).file (controllerPath s) indentUnit])
    ++ [(serverMain space m).file "src/main.cpp" indentUnit,
      cmakeFile p ["Crow", "SQLite3", "nlohmann_json", "spdlog"]
        ("src/main.cpp" :: (m.mappers.map mapperPath ++ m.services.map controllerPath))
        ["Crow::Crow", "SQLite::SQLite3", "nlohmann_json::nlohmann_json", "spdlog::spdlog"]]

end Scaffold.Target.Cpp
