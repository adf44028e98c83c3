import Scaffold.Dialect
import Scaffold.Project
import Scaffold.Url

/-!
Python: a script with data classes and requests, and a FastAPI server with SQLite mappers.

| here | in the program |
| --- | --- |
| `dataClasses`, `checkedClasses` | `models` |
| `urlExpr` | `f_string_url` |
| `apiFile` | `api` |
| `fromRow` | `row_builder` |
| `mappersFile`, `routerFile` | `mappers`, `router` |
-/

namespace Scaffold.Target.Python

open Code Naming

def indentUnit : String := "    "

/-- Scalar types. -/
def primitive : Primitive → String
  | .int | .bigint => "int"
  | .float | .double | .decimal => "float"
  | .bool => "bool"
  | .void => "None"
  | .any => "Any"
  | .string | .text | .char _ | .varchar _ | .date | .datetime => "str"

def typeName : Model.Ty → String :=
  Model.Ty.spell primitive (fun item => s!"list[{item}]") pascal

/-- A variable. -/
def declare (name : String) (t : Option Model.Ty) (init : Option String) : String :=
  let value := init.getD "None"
  match t with
  | some t => s!"{name}: {typeName t} = {value}"
  | none => s!"{name} = {value}"

/-- Operators in words where the language has words. -/
def binarySign : BinaryOp → String
  | .and => "and"
  | .or => "or"
  | op => op.sign

/-- Python. -/
def dialect : Dialect where
  typeName := typeName
  print args := "print(" ++ Text.joinWith ", " args ++ ")"
  declare := declare
  forRange var first last := s!"for {var} in range({first}, {last}):"
  forEach var items := s!"for {var} in {items}:"
  null := "None"
  bool b := if b then "True" else "False"
  binarySign := binarySign
  unarySign
    | .not => "not "
    | .neg => "-"
  name name kind := if kind == .dataAccess then snake name else name
  terminator := ""
  ifOpen test := s!"if {test}:"
  elseIfOpen test := s!"elif {test}:"
  elseOpen := "else:"
  whileOpen test := s!"while {test}:"
  blockClose := ""
  emptyBlock := some "pass"

def suite (header : String) (body : Code) : Code :=
  line header ++ nest body

def paramList (first : List String) (params : List (String × Model.Ty)) : String :=
  Text.joinWith ", " (first ++ params.map fun (name, t) => s!"{name}: {typeName t}")

def typed (params : List Model.Parameter) : List (String × Model.Ty) :=
  params.map fun p => (p.name, p.type)

def returns (t : Option Model.Ty) : String :=
  (t.map typeName).getD "None"

def docText (text : Option String) : Code :=
  lines (text.map fun t => "\"\"\"" ++ t ++ "\"\"\"").toList

def fileHead : Code :=
  line "from __future__ import annotations" ++ blank

/-- The value of a field that is not given; `emptyList` makes an empty list. -/
def defaultValue (emptyList : String) : Model.Ty → Option String
  | .list _ => some emptyList
  | .primitive .int | .primitive .bigint => some "0"
  | .primitive .float | .primitive .double | .primitive .decimal => some "0.0"
  | .primitive .bool => some "False"
  | .primitive .any | .primitive .void | .named _ _ => none
  | .primitive _ => some "\"\""

/-- A field of a record class. -/
def field (emptyList : String) (f : Model.Field) : String :=
  match f.nullable, defaultValue emptyList f.type with
  | false, some value => s!"{f.name}: {typeName f.type} = {value}"
  | _, _ => s!"{f.name}: Optional[{typeName f.type}] = None"

/-- The body of a record class. -/
def recordBody (emptyList : String) (r : Model.DataType) : Code :=
  docText (r.table.map fun t => s!"Row of table {t}.")
    ++ (if r.fields.isEmpty then line "pass" else lines (r.fields.map (field emptyList)))

/-- Data classes. -/
def dataClasses (m : CodeModel) : Code :=
  fileHead
    ++ lines ["from dataclasses import dataclass, field", "from typing import Any, Optional"]
    ++ spaced (m.records.map fun r =>
      line "@dataclass"
        ++ suite s!"class {pascal r.name}:" (recordBody "field(default_factory=list)" r))

/-- Classes that check what is read into them. -/
def checkedClasses (m : CodeModel) : Code :=
  fileHead ++ line "from typing import Any, Optional" ++ blank
    ++ line "from pydantic import BaseModel"
    ++ spaced (m.records.map fun r =>
      suite s!"class {pascal r.name}(BaseModel):" (recordBody "[]" r))

/-- Constants and functions. -/
def functions (m : CodeModel) : Code :=
  lines (m.constants.map fun c =>
      s!"{c.name}: {typeName c.type} = {dialect.valueOr dialect.null c.value}")
    ++ spaced ((m.procedures.filter (!·.isEntry)).map fun p =>
      suite s!"def {p.name}({paramList [] (typed p.params)}) -> {returns p.returns}:"
        (dialect.block p.body))
    ++ blank
    ++ suite "def main() -> None:" (dialect.block ((m.entry?.map (·.body)).getD []))

def whenRun (calls : List String) : Code :=
  blank ++ suite "if __name__ == \"__main__\":" (lines calls)

def requirementsFile (packages : List String) (p : Project) : GeneratedFile :=
  ⟨"requirements.txt", Text.joinWith "\n" (packages ++ p.options.dependencies) ++ "\n"⟩

/-! ## Client -/

/-- The address of a request as a text with its parameters in place. -/
def urlExpr (c : Model.ClientCall) : String :=
  "f\"\x7bself.base_url\x7d"
    ++ String.join ((Url.parts (Url.template c.path c.bindings)).map fun
      | .text s =>
        Text.replaceChar '\x7d' "\x7d\x7d" (Text.replaceChar '\x7b' "\x7b\x7b" (escape s))
      | .param name => Url.braced name)
    ++ "\""

/-- The answer to a request as a value of the type. -/
def decode : Model.Ty → String
  | .list (.named name _) => s!"[{pascal name}(**item) for item in response.json()]"
  | .named name _ => s!"{pascal name}(**response.json())"
  | _ => "response.json()"

/-- What is sent with a request. -/
def payload (bindings : List Model.Binding) : String :=
  match Url.bodyBinding? bindings with
  | some b =>
    match b.type with
    | .named _ _ => s!", json=asdict({b.name})"
    | _ => s!", json={b.name}"
  | none => ""

/-- A method that makes a request. -/
def clientCall (c : Model.ClientCall) : Code :=
  let params := paramList ["self"] (c.bindings.map fun b => (b.name, b.type))
  suite s!"def {c.name}({params}) -> {returns c.returns}:"
    (docText c.comment
      ++ lines
        [s!"response = self.session.request(\"{c.method.upper}\", {urlExpr c}{payload c.bindings})",
          "response.raise_for_status()"]
      ++ lines (c.returns.map fun t => "return " ++ decode t).toList)

/-- A class of requests. -/
def clientClass (c : Model.ClientApi) : Code :=
  suite s!"class {pascal c.name}:"
    (suite s!"def __init__(self, base_url: str = \"{escape c.baseUrl}\") -> None:"
        (lines ["self.base_url = base_url", "self.session = requests.Session()"])
      ++ blank
      ++ suite "def set_server(self, base_url: str) -> None:" (line "self.base_url = base_url")
      ++ spaced (c.calls.map clientCall))

/-- The file of requests, if there are any. -/
def apiFile (m : CodeModel) : List GeneratedFile :=
  if m.clients.isEmpty then []
  else
    let code := fileHead ++ line "from dataclasses import asdict" ++ blank
      ++ line "import requests" ++ blank ++ line "from models import *"
      ++ spaced (m.clients.map clientClass)
    [code.file "src/api.py" indentUnit]

/-- A Python script. -/
def client (m : CodeModel) (p : Project) : List GeneratedFile :=
  let main := fileHead ++ line "from models import *"
    ++ (if m.clients.isEmpty then [] else line "from api import *") ++ blank
    ++ functions m ++ whenRun ["main()"]
  [requirementsFile ["requests>=2.31"] p, (dataClasses m).file "src/models.py" indentUnit]
    ++ apiFile m ++ [main.file "src/main.py" indentUnit]

/-! ## FastAPI -/

/-- A value made from a row. -/
def fromRow (m : CodeModel) : Model.Ty → String
  | .named name _ =>
    let fields := ((m.dataType? name).map (·.fields)).getD []
    let args := fields.mapIdx fun i f => s!"{f.name}=row[{i}]"
    s!"{pascal name}(" ++ Text.joinWith ", " args ++ ")"
  | _ => "row[0]"

/-- Values in a tuple. -/
def tuple : List String → String
  | [one] => s!"({one},)"
  | values => "(" ++ Text.joinWith ", " values ++ ")"

/-- What a mapper method does with the result of its statement. -/
def takeResult (m : CodeModel) : Option Model.Ty → List String
  | some t =>
    if t.isList then [s!"return [{fromRow m t.element} for row in cur.fetchall()]"]
    else ["row = cur.fetchone()", s!"return {fromRow m t} if row else None"]
  | none => ["self.conn.commit()", "return cur.rowcount"]

/-- A mapper method. -/
def operation (m : CodeModel) (o : Model.Operation) : Code :=
  let params := paramList ["self"] (typed o.params)
  let result := (o.returns.map typeName).getD "int"
  suite s!"def {o.name}({params}) -> {result}:"
    (line (s!"cur = self.conn.execute(\"{escape (Text.trim o.positionalSql)}\", "
        ++ tuple o.bindOrder ++ ")")
      ++ lines (takeResult m o.returns))

/-- The file of mappers. -/
def mappersFile (m : CodeModel) : GeneratedFile :=
  let code := fileHead ++ line "import sqlite3" ++ blank ++ line "from app.models import *"
    ++ spaced (m.mappers.map fun a =>
      suite s!"class {pascal a.name}:"
        (suite "def __init__(self, conn: sqlite3.Connection) -> None:" (line "self.conn = conn")
          ++ spaced (a.operations.map (operation m))))
  code.file "app/mappers.py" indentUnit

/-- The file that opens the database. -/
def databaseFile (m : CodeModel) : GeneratedFile :=
  let code := line "import sqlite3" ++ blank ++ line "from app.mappers import *" ++ blank
    ++ line "conn = sqlite3.connect(\"app.db\", check_same_thread=False)"
    ++ lines (m.mappers.map fun a => s!"{snake a.name} = {pascal a.name}(conn)")
  code.file "app/db.py" indentUnit

/-- A parameter of a handler. -/
def routeParam (b : Model.Binding) : String :=
  match b.source, b.type with
  | .body, .primitive _ => s!"{b.name}: {typeName b.type} = Body(...)"
  | .query, _ => s!"{b.name}: {typeName b.type} | None = None"
  | _, _ => s!"{b.name}: {typeName b.type}"

/-- A handler. -/
def route (r : Model.Route) : Code :=
  let params := Text.joinWith ", " (r.bindings.map routeParam)
  line s!"@router.{r.method.lower}(\"{r.path}\")"
    ++ suite s!"def {r.handler}({params}) -> {returns r.returns}:"
      (docText r.comment ++ dialect.block r.body)

/-- The file of a service. -/
def routerFile (s : Model.Service) : GeneratedFile :=
  let mappers := s.mappersUsed
  let code := fileHead ++ line "from fastapi import APIRouter, Body" ++ blank
    ++ line "from app.models import *"
    ++ (if mappers.isEmpty then []
      else line ("from app.db import " ++ Text.joinWith ", " (mappers.map snake)))
    ++ blank
    ++ lines (s.comment.map ("# " ++ ·)).toList
    ++ line "router = APIRouter()" ++ spaced (s.routes.map route)
  code.file s!"app/routers/{snake s.name}.py" indentUnit

/-- A FastAPI server. -/
def fastApi (m : CodeModel) (p : Project) : List GeneratedFile :=
  let main := fileHead ++ lines ["import uvicorn", "from fastapi import FastAPI"] ++ blank
    ++ line "from app.models import *"
    ++ lines (m.services.map fun s => s!"from app.routers import {snake s.name}") ++ blank
    ++ line s!"app = FastAPI(title=\"{escape p.name}\", version=\"{p.version}\")"
    ++ lines (m.services.map fun s => s!"app.include_router({snake s.name}.router)") ++ blank
    ++ functions m ++ whenRun ["main()", "uvicorn.run(app, host=\"0.0.0.0\", port=8000)"]
  [requirementsFile ["fastapi>=0.110", "uvicorn>=0.29", "pydantic>=2.6"] p,
    ⟨"app/__init__.py", ""⟩,
    (checkedClasses m).file "app/models.py" indentUnit,
    mappersFile m, databaseFile m,
    ⟨"app/routers/__init__.py", ""⟩]
    ++ m.services.map routerFile ++ [main.file "app/main.py" indentUnit]

end Scaffold.Target.Python
