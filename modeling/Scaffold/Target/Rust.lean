import Scaffold.Dialect
import Scaffold.Project
import Scaffold.Url

/-!
Rust: a program with structures and blocking requests, and an Axum server with SQLite mappers.

| here | in the program |
| --- | --- |
| `cargoFile` | `cargo_toml` |
| `modelsFile`, `programItems` | `models`, `items` |
| `urlExpr` | `format_url` |
| `mappersFile`, `routesFile` | `mappers`, `routes` |
| `pattern` | `axum_pattern` |
-/

namespace Scaffold.Target.Rust

open Code Naming

def indentUnit : String := "    "

/-- Scalar types. -/
def primitive : Primitive → String
  | .int => "i32"
  | .bigint => "i64"
  | .float => "f32"
  | .double | .decimal => "f64"
  | .bool => "bool"
  | .string | .text | .char _ | .varchar _ | .date | .datetime => "String"
  | .void => "()"
  | .any => "serde_json::Value"

def typeName : Model.Ty → String :=
  Model.Ty.spell primitive (fun item => s!"Vec<{item}>") pascal

def hole : String := "\x7b\x7d"

/-- Printing. -/
def print : List String → String
  | [] => "println!()"
  | args =>
    "println!(\"" ++ Text.joinWith " " (args.map fun _ => hole) ++ "\", " ++ Text.joinWith ", " args
      ++ ")"

/-- A variable. -/
def declare (name : String) : Option Model.Ty → Option String → String
  | some t, some init => s!"let mut {name}: {typeName t} = {init}"
  | some t, none => s!"let mut {name}: {typeName t} = Default::default()"
  | none, some init => s!"let mut {name} = {init}"
  | none, none => s!"let mut {name} = serde_json::Value::Null"

def isText (e : String) : Bool :=
  Text.endsWith ".to_string()" e || Text.startsWith "format!(" e

/-- A sum with a text is formatted. -/
def binary (op : BinaryOp) (lhs rhs : String) : String :=
  if op == .add && (isText lhs || isText rhs) then s!"format!(\"{hole}{hole}\", {lhs}, {rhs})"
  else s!"{lhs} {op.sign} {rhs}"

/-- A name: constants are functions, mappers are fields of the state. -/
def nameOf (name : String) : Model.NameKind → String
  | .constant => snake name ++ "()"
  | .dataAccess => "state." ++ snake name
  | _ => name

/-- Rust. -/
def dialect : Dialect where
  typeName := typeName
  print := print
  declare := declare
  forRange var first last := s!"for {var} in {first}..{last} \x7b"
  forEach var items := s!"for {var} in {items}.iter() \x7b"
  quote s := "\"" ++ escape s ++ "\".to_string()"
  null := "None"
  binary := binary
  name := nameOf
  ifOpen test := s!"if {test} \x7b"
  elseIfOpen test := s!"\x7d else if {test} \x7b"
  whileOpen test := s!"while {test} \x7b"

def paramList (first : List String) (params : List (String × Model.Ty)) : String :=
  Text.joinWith ", " (first ++ params.map fun (name, t) => s!"{name}: {typeName t}")

def typed (params : List Model.Parameter) : List (String × Model.Ty) :=
  params.map fun p => (p.name, p.type)

def bound (bindings : List Model.Binding) : List (String × Model.Ty) :=
  bindings.map fun b => (b.name, b.type)

def returns (t : Option Model.Ty) : String :=
  (t.map fun t => " -> " ++ typeName t).getD ""

def docComment (comment : Option String) : Code :=
  lines (comment.map ("/// " ++ ·)).toList

/-- The Cargo package file. A dependency may name its version after an at sign. -/
def cargoFile (p : Project) (dependencies : List String) : GeneratedFile :=
  let edition := p.options.languageVersion.getD "2021"
  let extra := p.options.dependencies.map fun d =>
    let (name, version) := (Text.splitFirst '@' d).getD (d, "*")
    s!"{name} = \"{version}\""
  let code :=
    lines
      ["[package]",
        s!"name = \"{p.module}\"",
        s!"version = \"{p.version}\"",
        s!"edition = \"{edition}\"",
        s!"description = \"{escape p.description}\""]
    ++ blank ++ line "[dependencies]" ++ lines (dependencies ++ extra)
  code.file "Cargo.toml" indentUnit

def fieldType (f : Model.Field) : String :=
  if f.nullable then s!"Option<{typeName f.type}>" else typeName f.type

/-- The file of structures. -/
def modelsFile (m : CodeModel) : GeneratedFile :=
  let code := line "use serde::\x7bDeserialize, Serialize\x7d;"
    ++ spaced (m.records.map fun r =>
      docComment (r.table.map fun t => s!"Row of table `{t}`.")
        ++ lines
          ["#[derive(Debug, Clone, Default, PartialEq, Serialize, Deserialize)]",
            "#[serde(rename_all = \"camelCase\")]"]
        ++ braces s!"pub struct {pascal r.name}"
          (lines (r.fields.map fun f => s!"pub {snake f.name}: {fieldType f},")))
  code.file "src/models.rs" indentUnit

/-- Constants as functions, and all functions but the one where the program starts. -/
def programItems (m : CodeModel) : Code :=
  spaced (m.constants.map fun c =>
      braces s!"pub fn {snake c.name}() -> {typeName c.type}"
        (line (dialect.valueOr "Default::default()" c.value)))
    ++ spaced ((m.procedures.filter (!·.isEntry)).map fun p =>
      braces s!"pub fn {p.name}({paramList [] (typed p.params)}){returns p.returns}"
        (dialect.block p.body))

def crateAttribute : Code :=
  line "#![allow(non_snake_case, unused_mut, dead_code)]" ++ blank

/-! ## Client -/

/-- The address of a request as a formatted text. -/
def urlExpr (c : Model.ClientCall) : String :=
  let parts := Url.parts (Url.template c.path c.bindings)
  let format := String.join (parts.map fun
    | .text s => Text.replaceChar '\x7d' "\x7d\x7d" (Text.replaceChar '\x7b' "\x7b\x7b" (escape s))
    | .param _ => hole)
  let args := parts.filterMap fun
    | .text _ => none
    | .param name => some name
  s!"format!(\"{hole}{format}\", " ++ Text.joinWith ", " ("self.base_url" :: args) ++ ")"

/-- A method that makes a request. -/
def clientCall (c : Model.ClientCall) : Code :=
  let result := (c.returns.map typeName).getD "()"
  let params := paramList ["&self"] (bound c.bindings)
  let body := (Url.bodyBinding? c.bindings).map fun b => s!".json(&{b.name})"
  docComment c.comment
    ++ braces s!"pub fn {c.name}({params}) -> Result<{result}, reqwest::Error>"
      (line "let response = self"
        ++ nest (lines
          ([".http", s!".request(reqwest::Method::{c.method.upper}, {urlExpr c})"] ++ body.toList
            ++ [".send()?", ".error_for_status()?;"]))
        ++ line (if c.returns.isSome then "response.json()" else "Ok(())"))

/-- A type with a method for each request. -/
def clientType (c : Model.ClientApi) : Code :=
  let name := pascal c.name
  braces s!"pub struct {name}"
      (lines ["base_url: String,", "http: reqwest::blocking::Client,"])
    ++ blank
    ++ braces s!"impl Default for {name}"
      (braces "fn default() -> Self" (line s!"Self::new(\"{escape c.baseUrl}\")"))
    ++ blank ++ line "#[allow(non_snake_case)]"
    ++ braces s!"impl {name}"
      (braces "pub fn new(base_url: impl Into<String>) -> Self"
          (braces "Self"
            (lines ["base_url: base_url.into(),", "http: reqwest::blocking::Client::new(),"]))
        ++ blank
        ++ braces "pub fn set_server(&mut self, base_url: impl Into<String>)"
          (line "self.base_url = base_url.into();")
        ++ spaced (c.calls.map clientCall))

/-- The file of requests, if there are any. -/
def apiFile (m : CodeModel) : List GeneratedFile :=
  if m.clients.isEmpty then []
  else
    let code := lines ["#[allow(unused_imports)]", "use crate::models::*;"]
      ++ spaced (m.clients.map fun c => ofText ((clientType c).render indentUnit))
    [code.file "src/api.rs" indentUnit]

/-- A Rust program. -/
def client (m : CodeModel) (p : Project) : List GeneratedFile :=
  let main := crateAttribute
    ++ (if m.clients.isEmpty then [] else line "mod api;")
    ++ line "mod models;" ++ blank
    ++ lines ["#[allow(unused_imports)]", "use models::*;"]
    ++ programItems m ++ blank
    ++ braces "fn main()" (dialect.entryBlock m)
  [cargoFile p
      ["reqwest = \x7b version = \"0.12\", features = [\"blocking\", \"json\"] \x7d",
        "serde = \x7b version = \"1\", features = [\"derive\"] \x7d",
        "serde_json = \"1\""],
    modelsFile m]
    ++ apiFile m ++ [main.file "src/main.rs" indentUnit]

/-! ## Axum -/

/-- A function that reads a row. -/
def rowReader (m : CodeModel) : Model.Ty → String
  | .named name _ =>
    let fields := ((m.dataType? name).map (·.fields)).getD []
    let values := fields.mapIdx fun i f => s!"{snake f.name}: row.get({i})?"
    s!"|row| Ok({pascal name} \x7b " ++ Text.joinWith ", " values ++ " \x7d)"
  | _ => "|row| row.get(0)"

def letElse (binding result : String) : Code :=
  between s!"let {binding} else \x7b" (line s!"return {result};") "\x7d;"

/-- A mapper method. -/
def operation (m : CodeModel) (o : Model.Operation) : Code :=
  let params := paramList [] (typed o.params)
  let binds := "params![" ++ Text.joinWith ", " o.bindOrder ++ "]"
  let sql := "\"" ++ escape (Text.trim o.positionalSql) ++ "\""
  let result := (o.returns.map typeName).getD "usize"
  braces s!"pub fn {o.name}(&self, {params}) -> {result}"
    (letElse "Ok(conn) = self.conn.lock()" "Default::default()"
      ++ match o.returns with
        | some t =>
          if t.isList then
            letElse s!"Ok(mut stmt) = conn.prepare({sql})" "Vec::new()"
              ++ line s!"stmt.query_map({binds}, {rowReader m t.element})"
              ++ nest (lines [".and_then(|rows| rows.collect())", ".unwrap_or_default()"])
          else
            line s!"conn.query_row({sql}, {binds}, {rowReader m t})"
              ++ nest (line ".unwrap_or_default()")
        | none => line s!"conn.execute({sql}, {binds}).unwrap_or_default()")

/-- A mapper type. -/
def mapper (m : CodeModel) (a : Model.DataAccess) : Code :=
  let name := pascal a.name
  line "#[derive(Clone)]"
    ++ braces s!"pub struct {name}" (line "conn: Arc<Mutex<Connection>>,") ++ blank
    ++ line "#[allow(non_snake_case)]"
    ++ braces s!"impl {name}"
      (braces "pub fn new(conn: Arc<Mutex<Connection>>) -> Self" (line "Self \x7b conn \x7d")
        ++ spaced (a.operations.map (operation m)))

/-- The file of mappers. -/
def mappersFile (m : CodeModel) : GeneratedFile :=
  let code := line "use std::sync::\x7bArc, Mutex\x7d;" ++ blank
    ++ line "use rusqlite::\x7bparams, Connection\x7d;" ++ blank
    ++ line "use crate::models::*;" ++ spaced (m.mappers.map (mapper m))
  code.file "src/mappers.rs" indentUnit

/-- The pattern of a route. -/
def pattern (path : String) : String :=
  String.join ((Url.parts path).map fun
    | .text s => s
    | .param name => ":" ++ name)

/-- What takes the path parameters out of a request. -/
def pathExtractor : List Model.Binding → List String
  | [] => []
  | [one] => [s!"Path({one.name}): Path<{typeName one.type}>"]
  | many =>
    let names := Text.joinWith ", " (many.map (·.name))
    let types := Text.joinWith ", " (many.map fun b => typeName b.type)
    [s!"Path(({names})): Path<({types})>"]

/-- The function that takes a request apart and calls the handler. -/
def routeHandler (r : Model.Route) : Code :=
  let path := r.bindings.filter (·.source == .path)
  let query := r.bindings.filter (·.source == .query)
  let body := (Url.bodyBinding? r.bindings).map fun b =>
    s!"Json({b.name}): Json<{typeName b.type}>"
  let extractors := "State(state): State<AppState>" :: (pathExtractor path
    ++ (if query.isEmpty then [] else ["Query(query): Query<HashMap<String, String>>"])
    ++ body.toList)
  let output := (r.returns.map fun t => s!" -> Json<{typeName t}>").getD ""
  let call := s!"{r.handler}(" ++ Text.joinWith ", " ("&state" :: r.bindings.map (·.name)) ++ ")"
  docComment r.comment
    ++ braces (s!"async fn {snake r.handler}_handler(" ++ Text.joinWith ", " extractors
        ++ s!"){output}")
      (lines (query.map fun b =>
          s!"let {b.name}: {typeName b.type} = query.get(\"{b.name}\")"
            ++ ".and_then(|v| v.parse().ok()).unwrap_or_default();")
        ++ line (if r.returns.isSome then s!"Json({call})" else s!"{call};"))

/-- The handler itself. -/
def routeBody (r : Model.Route) : Code :=
  let params := paramList ["state: &AppState"] (bound r.bindings)
  line "#[allow(non_snake_case, unused_mut)]"
    ++ braces s!"fn {r.handler}({params}){returns r.returns}" (dialect.block r.body)

/-- The routes of a service and what answers them. -/
def service (s : Model.Service) : Code :=
  docComment s.comment
    ++ braces s!"pub fn {snake s.name}() -> Router<AppState>"
      (line "Router::new()"
        ++ nest (lines (s.routes.map fun r =>
          s!".route(\"{pattern r.path}\", {r.method.lower}({snake r.handler}_handler))")))
    ++ spaced (s.routes.flatMap fun r => [routeHandler r, routeBody r])

/-- The file of routes. -/
def routesFile (m : CodeModel) : GeneratedFile :=
  let code := line "use std::collections::HashMap;" ++ blank
    ++ lines
      ["use axum::extract::\x7bPath, Query, State\x7d;",
        "use axum::routing::\x7bdelete, get, head, options, patch, post, put\x7d;",
        "use axum::\x7bJson, Router\x7d;"]
    ++ blank
    ++ lines ["use crate::models::*;", "use crate::AppState;"]
    ++ spaced (m.services.map service)
  code.file "src/routes.rs" indentUnit

/-- The start of a server with its state. -/
def serverMain (m : CodeModel) : GeneratedFile :=
  let code := crateAttribute
    ++ lines ["mod mappers;", "mod models;", "mod routes;"] ++ blank
    ++ line "use std::sync::\x7bArc, Mutex\x7d;" ++ blank
    ++ lines ["use axum::Router;", "#[allow(unused_imports)]", "use models::*;"] ++ blank
    ++ line "#[derive(Clone)]"
    ++ braces "pub struct AppState"
      (lines (m.mappers.map fun a => s!"pub {snake a.name}: mappers::{pascal a.name},"))
    ++ programItems m ++ blank
    ++ line "#[tokio::main]"
    ++ braces "async fn main()"
      (dialect.entryBlock m
        ++ lines
          ["let conn = rusqlite::Connection::open(\"app.db\").expect(\"open app.db\");",
            "let conn = Arc::new(Mutex::new(conn));"]
        ++ between "let state = AppState \x7b"
          (lines (m.mappers.map fun a =>
            s!"{snake a.name}: mappers::{pascal a.name}::new(conn.clone()),"))
          "\x7d;"
        ++ line "let app = Router::new()"
        ++ nest (lines ((m.services.map fun s => s!".merge(routes::{snake s.name}())")
          ++ [".with_state(state);"]))
        ++ lines
          ["let listener = tokio::net::TcpListener::bind(\"0.0.0.0:8080\")"
              ++ ".await.expect(\"bind\");",
            "axum::serve(listener, app).await.expect(\"serve\");"])
  code.file "src/main.rs" indentUnit

/-- An Axum server. -/
def axum (m : CodeModel) (p : Project) : List GeneratedFile :=
  [cargoFile p
      ["axum = \"0.7\"",
        "rusqlite = \x7b version = \"0.31\", features = [\"bundled\"] \x7d",
        "serde = \x7b version = \"1\", features = [\"derive\"] \x7d",
        "serde_json = \"1\"",
        "tokio = \x7b version = \"1\", features = [\"full\"] \x7d"],
    modelsFile m, mappersFile m, routesFile m, serverMain m]

end Scaffold.Target.Rust
