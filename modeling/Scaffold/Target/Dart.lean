import Scaffold.Dialect
import Scaffold.Project
import Scaffold.Target.Java
import Scaffold.Url

/-!
Dart: a console program with classes and requests, and a Flutter application whose pages become
widgets.

| here | in the program |
| --- | --- |
| `escaped` | `dart_escape` |
| `packageFile` | `pubspec` |
| `modelsFile`, `urlExpr` | `models`, `dart_url` |
| `attrText` | `attr` |
-/

namespace Scaffold.Target.Dart

open Code Naming

def indentUnit : String := "  "

/-- How a character is written between single quotes; carriage returns are dropped. -/
def escapeChar : Char → String
  | '\\' => "\\\\"
  | '\'' => "\\'"
  | '$' => "\\$"
  | '\n' => "\\n"
  | '\r' => ""
  | c => c.toString

def escaped (s : String) : String :=
  Text.mapEach escapeChar s

/-- Scalar types. -/
def primitive : Primitive → String
  | .int | .bigint => "int"
  | .float | .double | .decimal => "double"
  | .bool => "bool"
  | .void => "void"
  | .any => "dynamic"
  | .string | .text | .char _ | .varchar _ | .date | .datetime => "String"

def typeName : Model.Ty → String :=
  Model.Ty.spell primitive (fun item => s!"List<{item}>") pascal

/-- Printing. -/
def print : List String → String
  | [one] => s!"print({one})"
  | args => "print([" ++ Text.joinWith ", " args ++ "].join(' '))"

/-- A variable. -/
def declare (name : String) : Option Model.Ty → Option String → String
  | some t, some init => s!"{typeName t} {name} = {init}"
  | some t, none => s!"{typeName t}? {name}"
  | none, some init => s!"var {name} = {init}"
  | none, none => s!"dynamic {name}"

/-- Dart. -/
def dialect : Dialect where
  typeName := typeName
  print := print
  declare := declare
  forRange var first last := s!"for (var {var} = {first}; {var} < {last}; {var}++) \x7b"
  forEach var items := s!"for (final {var} in {items}) \x7b"
  quote s := "'" ++ escaped s ++ "'"
  name name kind := if kind == .dataAccess || kind == .client then camel name else name

def returns (t : Option Model.Ty) : String :=
  (t.map typeName).getD "void"

def docComment (comment : Option String) : Code :=
  lines (comment.map ("/// " ++ ·)).toList

def packageName (p : Project) : String :=
  snake p.module

def entries (key : String) (body : Code) : Code :=
  line (key ++ ":") ++ nest body

/-- A dependency may name its version after a colon. -/
def dependency (s : String) : String :=
  match Text.splitFirst ':' s with
  | some (name, version) => s!"{Text.trim name}: {Text.trim version}"
  | none => s!"{s}: any"

/-- The package file. -/
def packageFile (p : Project) (flutter : Bool) : GeneratedFile :=
  let sdk := p.options.languageVersion.getD "3.3.0"
  let sdkOf (key : String) := if flutter then entries key (line "sdk: flutter") else []
  let code :=
    lines
      [s!"name: {packageName p}",
        s!"description: {p.description}",
        s!"version: {p.version}",
        "publish_to: 'none'"]
    ++ blank ++ entries "environment" (line s!"sdk: '>={sdk} <4.0.0'") ++ blank
    ++ entries "dependencies"
      (sdkOf "flutter" ++ line "http: ^1.2.1" ++ lines (p.options.dependencies.map dependency))
    ++ blank
    ++ entries "dev_dependencies"
      (sdkOf "flutter_test"
        ++ lines (if flutter then ["flutter_lints: ^3.0.0"] else ["lints: ^3.0.0", "test: ^1.24.0"]))
    ++ (if flutter then blank ++ entries "flutter" (line "uses-material-design: true") else [])
  code.file "pubspec.yaml" indentUnit

/-! ## Records and requests -/

def isOptional (f : Model.Field) : Bool :=
  f.nullable || f.auto

def optionalMark (optional : Bool) : String :=
  if optional then "?" else ""

/-- Reads a value of the type from decoded JSON. -/
def fromJson (value : String) (optional : Bool) : Model.Ty → String
  | .named name _ =>
    let decoded := s!"{pascal name}.fromJson({value} as Map<String, dynamic>)"
    if optional then s!"{value} == null ? null : {decoded}" else decoded
  | .list item =>
    let q := optionalMark optional
    let each := fromJson "e" false item
    s!"({value} as List<dynamic>{q}){q}.map((e) => {each}).toList()"
  | .primitive .float | .primitive .double | .primitive .decimal =>
    let q := optionalMark optional
    s!"({value} as num{q}){q}.toDouble()"
  | .primitive .any => value
  | .primitive p => s!"{value} as {primitive p}{optionalMark optional}"

/-- A value of the type as JSON can hold it. -/
def toJson (value : String) (optional : Bool) : Model.Ty → String
  | .named _ _ => s!"{value}{optionalMark optional}.toJson()"
  | .list (.named _ _) => s!"{value}{optionalMark optional}.map((e) => e.toJson()).toList()"
  | _ => value

/-- The constructor of a record class. -/
def recordConstructor (name : String) (fields : List Model.Field) : String :=
  let params := fields.map fun f =>
    if isOptional f then s!"this.{f.name}" else s!"required this.{f.name}"
  if params.isEmpty then s!"const {name}();"
  else s!"const {name}(\x7b" ++ Text.joinWith ", " params ++ "\x7d);"

/-- A record class. -/
def recordClass (r : Model.DataType) : Code :=
  let name := pascal r.name
  braces s!"class {name}"
    (line (recordConstructor name r.fields) ++ blank
      ++ lines (r.fields.map fun f =>
        s!"final {typeName f.type}{optionalMark (isOptional f)} {f.name};")
      ++ blank
      ++ between s!"factory {name}.fromJson(Map<String, dynamic> json) => {name}("
        (lines (r.fields.map fun f =>
          let value := s!"json['{f.name}']"
          s!"{f.name}: {fromJson value (isOptional f) f.type},"))
        ");"
      ++ blank
      ++ between "Map<String, dynamic> toJson() => \x7b"
        (lines (r.fields.map fun f => s!"'{f.name}': {toJson f.name (isOptional f) f.type},"))
        "\x7d;")

def modelsFile (m : CodeModel) : GeneratedFile :=
  (Java.separated (m.records.map recordClass)).file "lib/models.dart" indentUnit

/-- The address of a request as a text with its parameters in place. -/
def urlExpr (c : Model.ClientCall) : String :=
  "'$\x7bbaseUrl\x7d"
    ++ String.join ((Url.parts (Url.template c.path c.bindings)).map fun
      | .text s => escaped s
      | .param name => "$" ++ Url.braced name)
    ++ "'"

/-- A method that makes a request. -/
def clientCall (c : Model.ClientCall) : Code :=
  let params := Text.joinWith ", " (c.bindings.map fun b => s!"{typeName b.type} {b.name}")
  docComment c.comment
    ++ braces s!"Future<{returns c.returns}> {c.name}({params}) async"
      (lines
          [s!"final request = http.Request('{c.method.upper}', Uri.parse({urlExpr c}));",
            "request.headers['Content-Type'] = 'application/json';"]
        ++ lines ((Url.bodyBinding? c.bindings).map fun b =>
          s!"request.body = jsonEncode({toJson b.name false b.type});").toList
        ++ line "final response = await http.Response.fromStream(await _client.send(request));"
        ++ braces "if (response.statusCode >= 400)"
          (line (s!"throw http.ClientException('{c.name} failed: "
            ++ "$\x7bresponse.statusCode\x7d', request.url);"))
        ++ lines (c.returns.map fun t =>
          "return " ++ fromJson "jsonDecode(response.body)" false t ++ ";").toList)

/-- A class of requests. -/
def clientClass (c : Model.ClientApi) : Code :=
  let name := pascal c.name
  braces s!"class {name}"
    (line s!"{name}([this.baseUrl = '{escaped c.baseUrl}']);" ++ blank
      ++ lines ["String baseUrl;", "final http.Client _client = http.Client();"] ++ blank
      ++ braces "void setServer(String baseUrl)" (line "this.baseUrl = baseUrl;")
      ++ spaced (c.calls.map clientCall))

/-- The file of requests, if there are any. -/
def apiFile (m : CodeModel) : List GeneratedFile :=
  if m.clients.isEmpty then []
  else
    let code := line "import 'dart:convert';" ++ blank
      ++ line "import 'package:http/http.dart' as http;" ++ blank
      ++ line "import 'models.dart';" ++ spaced (m.clients.map clientClass)
    [code.file "lib/api.dart" indentUnit]

/-- A constant. -/
def constant (c : Model.Constant) : String :=
  s!"final {typeName c.type}{optionalMark c.value.isNone} {c.name} = "
    ++ dialect.valueOr dialect.null c.value ++ ";"

/-- A function. -/
def procedure (p : Model.Procedure) : Code :=
  let params := Text.joinWith ", " (p.params.map fun p => s!"{typeName p.type} {p.name}")
  braces s!"{returns p.returns} {p.name}({params})" (dialect.block p.body)

/-- An instance of every class of requests, constants and functions; `api` is where the classes
are. -/
def library (api : String) (m : CodeModel) : Code :=
  (if m.clients.isEmpty then []
    else line s!"import '{api}';" ++ blank
      ++ lines (m.clients.map fun c => s!"final {camel c.name} = {pascal c.name}();"))
    ++ lines (m.constants.map constant) ++ spaced (m.procedures.map procedure)

/-- A Dart program. -/
def client (m : CodeModel) (p : Project) : List GeneratedFile :=
  let package := packageName p
  [packageFile p false, modelsFile m] ++ apiFile m
    ++ [(library s!"package:{package}/api.dart" m).file s!"bin/{package}.dart" indentUnit]

/-! ## Flutter -/

def dataText (source : String) : String :=
  s!"$\x7bdata['{escaped source}'] ?? ''\x7d"

/-- The text of markup that is only text and interpolations, after what was read before; texts are
set apart by spaces. -/
def inlineTextFrom (out : String) : List Model.Markup → Option String
  | [] => some out
  | .text s :: rest => inlineTextFrom (out ++ (if out == "" then "" else " ") ++ escaped s) rest
  | .interpolation source :: rest => inlineTextFrom (out ++ dataText source) rest
  | .element .. :: _ => none

/-- The text of markup that is only text and interpolations. -/
def inlineText (children : List Model.Markup) : Option String :=
  inlineTextFrom "" children

/-- The value of an attribute, or `fallback` if it has none. -/
def attrText (attrs : List (String × Option String)) (name fallback : String) : String :=
  (((attrs.find? (·.1 == name)).bind (·.2)).map escaped).getD fallback

/-- The style of headings. -/
def textStyle : String → Option String
  | "h1" => some "headlineMedium"
  | "h2" => some "titleLarge"
  | "h3" | "h4" | "h5" | "h6" => some "titleMedium"
  | _ => none

/-- A text widget. -/
def textWidget (tag text : String) : String :=
  match textStyle tag with
  | some style => s!"Text('{text}', style: Theme.of(context).textTheme.{style}),"
  | none => s!"Text('{text}'),"

/-- The widget of an element that needs no children of its own. -/
def simpleWidget (tag : String) (attrs : List (String × Option String))
    (children : List Model.Markup) : Option String :=
  match tag, inlineText children with
  | "slot", _ => some "child ?? const SizedBox.shrink(),"
  | "hr", _ => some "const Divider(),"
  | "br", _ => some "const SizedBox(height: 8),"
  | "img", _ => some ("Image.network('" ++ attrText attrs "src" "" ++ "'),")
  | "input", _ =>
    some ("TextField(decoration: InputDecoration(hintText: '" ++ attrText attrs "placeholder" ""
      ++ "')),")
  | "button", some text =>
    some s!"ElevatedButton(onPressed: () \x7b\x7d, child: Text('{text}')),"
  | "a", some text =>
    some ("TextButton(onPressed: () => Navigator.pushNamed(context, '"
      ++ attrText attrs "href" "/" ++ s!"'), child: Text('{text}')),")
  | "li", some text => some s!"ListTile(title: Text('{text}')),"
  | tag, some text => if children.isEmpty then none else some (textWidget tag text)
  | _, none => none

/-- A column of widgets. -/
def column (children : Code) : Code :=
  line "crossAxisAlignment: CrossAxisAlignment.start,"
    ++ between "children: [" children "],"

mutual

/-- The widget of a piece of markup. -/
def widget : Model.Markup → Code
  | .text s => line s!"const Text('{escaped s}'),"
  | .interpolation source => line s!"Text('{dataText source}'),"
  | .element tag attrs component children =>
    if component then line s!"const {pascal tag}(),"
    else
      match simpleWidget tag attrs children with
      | some text => line text
      | none => between "Column(" (column (widgets children)) "),"

/-- The widgets of pieces of markup. -/
def widgets : List Model.Markup → Code
  | [] => []
  | node :: rest => widget node ++ widgets rest

end

/-- The pages that a page shows or is shown in, sorted by name. -/
def pageImports (m : CodeModel) (p : Model.Page) : List String :=
  let names := Model.Markup.components p.markup ++ p.parent.toList ++ p.layout.toList
  let sorted := (Text.distinct names).mergeSort (· ≤ ·)
  sorted.filter fun n => n != p.name && m.pages.any (·.name == n)

/-- The content of a page inside its parent, and that inside its layout. -/
def wrapped (p : Model.Page) : String :=
  (p.parent.toList ++ p.layout.toList).foldl (fun body w => s!"{pascal w}(child: {body})")
    "content"

/-- The file of a page. -/
def pageFile (m : CodeModel) (p : Model.Page) : GeneratedFile :=
  let name := pascal p.name
  let shown :=
    if p.route.isSome then
      between "return Scaffold("
        (lines
          [s!"appBar: AppBar(title: const Text('{escaped (p.title.getD p.name)}')),",
            s!"body: SingleChildScrollView(child: {wrapped p}),"])
        ");"
    else line s!"return {wrapped p};"
  let code := line "import 'package:flutter/material.dart';"
    ++ lines ((pageImports m p).map fun n => s!"import '{snake n}.dart';") ++ blank
    ++ braces s!"class {name} extends StatelessWidget"
      (line s!"const {name}(\x7bsuper.key, this.child, this.data = const \x7b\x7d\x7d);" ++ blank
        ++ lines ["final Widget? child;", "final Map<String, dynamic> data;"] ++ blank
        ++ line "@override"
        ++ braces "Widget build(BuildContext context)"
          (between "final content = Column(" (column (widgets p.markup)) ");" ++ shown))
  code.file s!"lib/pages/{snake p.name}.dart" indentUnit

/-- The pages of the application by route, or a placeholder. -/
def appRoutes (m : CodeModel) : Code :=
  let routed := m.pages.filterMap fun p => p.route.map fun r => (escaped r, pascal p.name)
  match routed with
  | [] => line "home: const Scaffold(body: Center(child: Text('Ready'))),"
  | (first, _) :: _ =>
    line s!"initialRoute: '{first}',"
      ++ between "routes: \x7b"
        (lines (routed.map fun (route, page) => s!"'{route}': (context) => const {page}(),"))
        "\x7d,"

/-- The application. -/
def appFile (m : CodeModel) (p : Project) (hasLibrary : Bool) : GeneratedFile :=
  let code := line "import 'package:flutter/material.dart';" ++ blank
    ++ (if hasLibrary then line "import 'functions.dart' as functions;" else [])
    ++ lines (m.pages.map fun p => s!"import 'pages/{snake p.name}.dart';") ++ blank
    ++ braces "void main()"
      ((if m.entry?.isSome then line "functions.main();" else [])
        ++ line "runApp(const App());")
    ++ blank
    ++ braces "class App extends StatelessWidget"
      (line "const App(\x7bsuper.key\x7d);" ++ blank ++ line "@override"
        ++ braces "Widget build(BuildContext context)"
          (between "return MaterialApp("
            (line s!"title: '{escaped p.label}'," ++ appRoutes m)
            ");"))
  code.file "lib/main.dart" indentUnit

/-- A Flutter application. -/
def flutter (m : CodeModel) (p : Project) : List GeneratedFile :=
  let hasLibrary := !m.procedures.isEmpty || !m.constants.isEmpty || !m.clients.isEmpty
  [packageFile p true, modelsFile m] ++ apiFile m ++ m.pages.map (pageFile m)
    ++ (if hasLibrary then [(library "api.dart" m).file "lib/functions.dart" indentUnit] else [])
    ++ [appFile m p hasLibrary]

end Scaffold.Target.Dart
