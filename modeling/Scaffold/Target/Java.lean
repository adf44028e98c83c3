import Scaffold.Dialect
import Scaffold.Project
import Scaffold.Url

/-!
Java: a client library with records and requests, and a Spring Boot server with MyBatis mappers.

| here | in the program |
| --- | --- |
| `dialect` | `var_decl`, `for_range`, `for_each`, `name` and `print` |
| `recordFile`, `constantsFile`, `procedures` | `java_record`, `java_constants`, `java_procedures` |
| `urlExpr`, `clientFile` | `java_url`, `java_client` |
| `pomFile` | `pom` |
| `statementMark`, `mapperFile` | `mybatis_annotation`, `spring_mapper` |
| `routeMark`, `controllerFile` | `spring_mapping`, `spring_controller` |
-/

namespace Scaffold.Target.Java

open Code Naming

def indentUnit : String := "    "

def constantsClass : String := "Constants"

/-- Scalar types; all of them can be null. -/
def primitive : Primitive → String
  | .int => "Integer"
  | .bigint => "Long"
  | .float => "Float"
  | .double => "Double"
  | .decimal => "java.math.BigDecimal"
  | .bool => "Boolean"
  | .string | .text | .char _ | .varchar _ => "String"
  | .date => "java.time.LocalDate"
  | .datetime => "java.time.LocalDateTime"
  | .void => "Void"
  | .any => "Object"

def typeName : Model.Ty → String :=
  Model.Ty.spell primitive (fun item => s!"List<{item}>") pascal

/-- Printing: several arguments become one text. -/
def print : List String → String
  | [] => "System.out.println()"
  | [one] => s!"System.out.println({one})"
  | first :: rest =>
    let tail := String.join (rest.map fun a => " + \" \" + " ++ a)
    s!"System.out.println(String.valueOf({first}){tail})"

/-- A variable. -/
def declare (name : String) : Option Model.Ty → Option String → String
  | some t, some init => s!"{typeName t} {name} = {init}"
  | some t, none => s!"{typeName t} {name} = null"
  | none, some init => s!"var {name} = {init}"
  | none, none => s!"Object {name} = null"

/-- A name; `functions` is the class of free functions, unless it is the current one. -/
def nameIn (functions : Option String) (name : String) : Model.NameKind → String
  | .constant => s!"{constantsClass}.{name}"
  | .procedure => (functions.map (· ++ "." ++ name)).getD name
  | .dataAccess | .service | .client => camel name
  | _ => name

/-- Java, with free functions in the given class. -/
def dialect (functions : Option String) : Dialect where
  typeName := typeName
  print := print
  declare := declare
  forRange var first last := s!"for (int {var} = {first}; {var} < {last}; {var}++) \x7b"
  forEach var items := s!"for (var {var} : {items}) \x7b"
  name := nameIn functions

def packageDir (root package : String) : String :=
  root ++ "/" ++ Text.replaceChar '.' "/" package

/-- Items one per line with commas between them. -/
def commaLines : List String → Code
  | [] => []
  | [last] => line last
  | item :: rest => line (item ++ ",") ++ commaLines rest

/-- A documentation comment. -/
def docComment : Option String → Code
  | none => []
  | some text => line s!"/** {text} */"

/-- A record class. -/
def recordFile (package : String) (r : Model.DataType) : Code :=
  line s!"package {package}.model;" ++ blank
    ++ line "import java.util.List;" ++ blank
    ++ docComment (r.table.map fun t => s!"Row of table {t}.")
    ++ between s!"public record {pascal r.name}("
        (commaLines (r.fields.map fun f => s!"{typeName f.type} {camel f.name}"))
        ") \x7b\x7d"

/-- The class of constants. -/
def constantsFile (package : String) (d : Dialect) (m : CodeModel) : Code :=
  line s!"package {package};" ++ blank
    ++ line "import java.util.List;" ++ blank
    ++ braces s!"public final class {constantsClass}"
        (line s!"private {constantsClass}() \x7b\x7d" ++ blank
          ++ lines (m.constants.map fun c =>
            s!"public static final {typeName c.type} {c.name} = {d.valueOr d.null c.value};"))

def typedParams (params : List (String × Model.Ty)) : String :=
  Text.joinWith ", " (params.map fun (name, t) => s!"{typeName t} {name}")

def returns (t : Option Model.Ty) : String :=
  (t.map typeName).getD "void"

/-- Static methods for all functions but the one where the program starts. -/
def procedures (d : Dialect) (m : CodeModel) : Code :=
  spaced ((m.procedures.filter (!·.isEntry)).map fun p =>
    let params := typedParams (p.params.map fun p => (p.name, p.type))
    braces s!"public static {returns p.returns} {p.name}({params})" (d.block p.body))

/-- The address of a request as a sum of texts. -/
def urlExpr (template : String) : String :=
  Text.joinWith " + " ("baseUrl" :: (Url.parts template).map fun
    | .text s => "\"" ++ escape s ++ "\""
    | .param name => name)

/-- What is sent with a request. -/
def publisher (bindings : List Model.Binding) : String :=
  match Url.bodyBinding? bindings with
  | some b => s!"HttpRequest.BodyPublishers.ofString(json.writeValueAsString({b.name}))"
  | none => "HttpRequest.BodyPublishers.noBody()"

/-- How the answer to a request is read. -/
def readAnswer : Option Model.Ty → Code
  | none => []
  | some t =>
    if t.isList then
      line s!"return json.readValue(response.body(), new TypeReference<{typeName t}>() \x7b\x7d);"
    else line s!"return json.readValue(response.body(), {typeName t}.class);"

/-- A method that makes a request. -/
def clientCall (c : Model.ClientCall) : Code :=
  let params := typedParams (c.bindings.map fun b => (b.name, b.type))
  let header :=
    s!"public {returns c.returns} {c.name}({params}) throws IOException, InterruptedException"
  let url := urlExpr (Url.template c.path c.bindings)
  docComment c.comment
    ++ braces header
      (line s!"HttpRequest request = HttpRequest.newBuilder(URI.create({url}))"
        ++ nest (lines
          [s!".method(\"{c.method.upper}\", {publisher c.bindings})",
            ".header(\"Content-Type\", \"application/json\")",
            ".build();"])
        ++ line
          "HttpResponse<String> response = http.send(request, HttpResponse.BodyHandlers.ofString());"
        ++ braces "if (response.statusCode() >= 400)"
          (line s!"throw new IOException(\"{c.name} failed: \" + response.statusCode());")
        ++ readAnswer c.returns)

/-- A class of requests. -/
def clientFile (package : String) (c : Model.ClientApi) : Code :=
  let name := pascal c.name
  line s!"package {package}.api;" ++ blank
    ++ lines
      ["import com.fasterxml.jackson.core.type.TypeReference;",
        "import com.fasterxml.jackson.databind.ObjectMapper;",
        "import java.io.IOException;",
        "import java.net.URI;",
        "import java.net.http.HttpClient;",
        "import java.net.http.HttpRequest;",
        "import java.net.http.HttpResponse;",
        "import java.util.List;",
        s!"import {package}.model.*;"]
    ++ blank
    ++ braces s!"public class {name}"
      (lines
          ["private final HttpClient http = HttpClient.newHttpClient();",
            "private final ObjectMapper json = new ObjectMapper();",
            "private String baseUrl;"]
        ++ blank
        ++ braces s!"public {name}()" (line s!"this(\"{escape c.baseUrl}\");") ++ blank
        ++ braces s!"public {name}(String baseUrl)" (line "this.baseUrl = baseUrl;")
        ++ spaced (c.calls.map clientCall))

/-- A library that a project uses, perhaps in a given version. -/
structure Dependency where
  group : String
  artifact : String
  version : Option String

/-- A dependency written as group, artifact and perhaps version, with colons between them. -/
def Dependency.ofText? (s : String) : Option Dependency :=
  match Text.split ':' s with
  | group :: artifact :: rest => some ⟨group, artifact, rest.head?⟩
  | _ => none

/-- A dependency of a Maven project. -/
def Dependency.code (d : Dependency) : Code :=
  between "<dependency>"
    (lines ([s!"<groupId>{d.group}</groupId>", s!"<artifactId>{d.artifact}</artifactId>"]
      ++ (d.version.map fun v => s!"<version>{v}</version>").toList))
    "</dependency>"

/-- The parent project of Spring Boot projects. -/
def springParent : Code :=
  between "<parent>"
    (lines
      ["<groupId>org.springframework.boot</groupId>",
        "<artifactId>spring-boot-starter-parent</artifactId>",
        "<version>3.2.5</version>"])
    "</parent>"

/-- The build plugin of Spring Boot projects. -/
def springPlugin : Code :=
  between "<build>"
    (between "<plugins>"
      (between "<plugin>"
        (lines
          ["<groupId>org.springframework.boot</groupId>",
            "<artifactId>spring-boot-maven-plugin</artifactId>"])
        "</plugin>")
      "</plugins>")
    "</build>"

/-- The Maven project file. -/
def pomFile (p : Project) (dependencies : List Dependency) (spring : Bool) : GeneratedFile :=
  let all := dependencies ++ p.options.dependencies.filterMap Dependency.ofText?
  let code := line "<?xml version=\"1.0\" encoding=\"UTF-8\"?>"
    ++ between "<project xmlns=\"http://maven.apache.org/POM/4.0.0\">"
      (line "<modelVersion>4.0.0</modelVersion>"
        ++ (if spring then springParent else [])
        ++ lines
          [s!"<groupId>{p.group}</groupId>",
            s!"<artifactId>{p.module}</artifactId>",
            s!"<version>{p.version}</version>",
            s!"<description>{p.description}</description>"]
        ++ between "<properties>"
          (line ("<maven.compiler.release>" ++ p.options.languageVersion.getD "17"
              ++ "</maven.compiler.release>")
            ++ line "<project.build.sourceEncoding>UTF-8</project.build.sourceEncoding>")
          "</properties>"
        ++ between "<dependencies>" (concat (all.map Dependency.code)) "</dependencies>"
        ++ (if spring then springPlugin else []))
      "</project>"
  code.file "pom.xml" "  "

/-- Record classes. -/
def recordFiles (root package : String) (m : CodeModel) : List GeneratedFile :=
  m.records.map fun r =>
    (recordFile package r).file s!"{root}/model/{pascal r.name}.java" indentUnit

/-- A Java client library. -/
def client (m : CodeModel) (p : Project) : List GeneratedFile :=
  let package := p.package
  let mainClass := p.mainClass
  let root := packageDir "src/main/java" package
  let d := dialect none
  let app := line s!"package {package};" ++ blank
    ++ lines
      ["import java.util.List;", s!"import {package}.model.*;", s!"import {package}.api.*;"]
    ++ blank
    ++ braces s!"public class {mainClass}"
      (braces "public static void main(String[] args)" (d.entryBlock m) ++ procedures d m)
  [pomFile p [⟨"com.fasterxml.jackson.core", "jackson-databind", some "2.17.1"⟩] false]
    ++ recordFiles root package m
    ++ m.clients.map (fun c =>
      (clientFile package c).file s!"{root}/api/{pascal c.name}.java" indentUnit)
    ++ [(constantsFile package d m).file s!"{root}/{constantsClass}.java" indentUnit,
      app.file s!"{root}/{mainClass}.java" indentUnit]

/-! ## Spring Boot -/

/-- The mapper's mark for a kind of statement. -/
def statementMark : Sql.StatementKind → String
  | .select => "Select"
  | .insert => "Insert"
  | .update => "Update"
  | .delete | .other => "Delete"

/-- The return type of a mapper method. -/
def operationReturns (o : Model.Operation) : String :=
  match o.returns with
  | some t => typeName t
  | none => if o.kind == .select then "Object" else "int"

/-- A mapper method with its statement. -/
def operation (o : Model.Operation) : Code :=
  let sql := Sql.withPlaceholders (fun name _ => "#" ++ Url.braced name) o.sql
  let params := o.params.map fun p => s!"@Param(\"{p.name}\") {typeName p.type} {p.name}"
  lines
    [s!"@{statementMark o.kind}(\"{escape (oneLine sql)}\")",
      s!"{operationReturns o} {o.name}(" ++ Text.joinWith ", " params ++ ");"]

/-- Pieces of code with blank lines between them. -/
def separated : List Code → Code
  | [] => []
  | first :: rest => first ++ spaced rest

/-- A mapper interface. -/
def mapperFile (package : String) (a : Model.DataAccess) : Code :=
  line s!"package {package}.mapper;" ++ blank
    ++ lines
      ["import java.util.List;",
        "import org.apache.ibatis.annotations.*;",
        s!"import {package}.model.*;"]
    ++ blank ++ line "@Mapper"
    ++ braces s!"public interface {pascal a.name}" (separated (a.operations.map operation))

/-- The mark of a method that answers requests. -/
def routeMark (r : Model.Route) : String :=
  match r.method with
  | .get => s!"@GetMapping(\"{r.path}\")"
  | .post => s!"@PostMapping(\"{r.path}\")"
  | .put => s!"@PutMapping(\"{r.path}\")"
  | .delete => s!"@DeleteMapping(\"{r.path}\")"
  | .patch => s!"@PatchMapping(\"{r.path}\")"
  | .head | .options =>
    s!"@RequestMapping(value = \"{r.path}\", method = RequestMethod.{r.method.upper})"

/-- The mark of a parameter, by where its value travels. -/
def bindingMark : Model.BindingSource → String
  | .path => "@PathVariable"
  | .body => "@RequestBody"
  | .query => "@RequestParam(required = false)"

/-- A method that answers requests. -/
def route (d : Dialect) (r : Model.Route) : Code :=
  let params := r.bindings.map fun b => s!"{bindingMark b.source} {typeName b.type} {b.name}"
  docComment r.comment ++ line (routeMark r)
    ++ braces (s!"public {returns r.returns} {r.handler}(" ++ Text.joinWith ", " params ++ ")")
      (d.block r.body)

/-- A controller class; the mappers it uses are handed to it. -/
def controllerFile (package : String) (d : Dialect) (s : Model.Service) : Code :=
  let name := pascal s.name
  let mappers := s.mappersUsed
  let params := Text.joinWith ", " (mappers.map fun m => s!"{pascal m} {camel m}")
  let constructor :=
    if mappers.isEmpty then []
    else blank ++ braces s!"public {name}({params})"
      (lines (mappers.map fun m => s!"this.{camel m} = {camel m};"))
  line s!"package {package}.controller;" ++ blank
    ++ lines
      ["import java.util.List;",
        "import org.springframework.web.bind.annotation.*;",
        s!"import {package}.mapper.*;",
        s!"import {package}.model.*;"]
    ++ blank ++ docComment s.comment ++ line "@RestController"
    ++ braces s!"public class {name}"
      (lines (mappers.map fun m => s!"private final {pascal m} {camel m};") ++ constructor
        ++ spaced (s.routes.map (route d)))

/-- The settings of a Spring Boot application. -/
def applicationSettings (p : Project) : String :=
  s!"server:\n  port: 8080\nspring:\n  application:\n    name: {p.module}\n  datasource:\n"
    ++ s!"    url: jdbc:mysql://localhost:3306/{camel p.label}\n    username: root\n"
    ++ "    password: \"\"\nmybatis:\n  configuration:\n    map-underscore-to-camel-case: true\n"

/-- A Spring Boot server. -/
def springBoot (m : CodeModel) (p : Project) : List GeneratedFile :=
  let package := p.package
  let mainClass := p.mainClass
  let root := packageDir "src/main/java" package
  let d := dialect (some "Functions")
  let functions := line s!"package {package};" ++ blank
    ++ lines ["import java.util.List;", s!"import {package}.model.*;"] ++ blank
    ++ braces "public final class Functions"
      (line "private Functions() \x7b\x7d" ++ blank
        ++ braces "public static void run()" (d.entryBlock m) ++ procedures d m)
  let app := line s!"package {package};" ++ blank
    ++ lines
      ["import org.springframework.boot.SpringApplication;",
        "import org.springframework.boot.autoconfigure.SpringBootApplication;"]
    ++ blank ++ line "@SpringBootApplication"
    ++ braces s!"public class {mainClass}"
      (braces "public static void main(String[] args)"
        (lines [s!"SpringApplication.run({mainClass}.class, args);", "Functions.run();"]))
  [pomFile p
      [⟨"org.springframework.boot", "spring-boot-starter-web", none⟩,
        ⟨"org.mybatis.spring.boot", "mybatis-spring-boot-starter", some "3.0.3"⟩,
        ⟨"com.mysql", "mysql-connector-j", none⟩]
      true,
    ⟨"src/main/resources/application.yml", applicationSettings p⟩]
    ++ recordFiles root package m
    ++ m.mappers.map (fun a =>
      (mapperFile package a).file s!"{root}/mapper/{pascal a.name}.java" indentUnit)
    ++ m.services.map (fun s =>
      (controllerFile package d s).file s!"{root}/controller/{pascal s.name}.java" indentUnit)
    ++ [(constantsFile package d m).file s!"{root}/{constantsClass}.java" indentUnit,
      functions.file s!"{root}/Functions.java" indentUnit,
      app.file s!"{root}/{mainClass}.java" indentUnit]

end Scaffold.Target.Java
