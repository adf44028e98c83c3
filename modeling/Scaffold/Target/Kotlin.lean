import Scaffold.Dialect
import Scaffold.Project
import Scaffold.Target.Java
import Scaffold.Url

/-!
Kotlin: a client library with data classes and requests.

| here | in the program |
| --- | --- |
| `typedParams` | `kotlin_params` |
| `urlExpr` | `kotlin_url` |
| `gradleFile`, `mainFile`, `clientFile` | `generate` |
-/

namespace Scaffold.Target.Kotlin

open Code Naming

def indentUnit : String := "    "

/-- Scalar types. -/
def primitive : Primitive → String
  | .int => "Int"
  | .bigint => "Long"
  | .float => "Float"
  | .double => "Double"
  | .decimal => "java.math.BigDecimal"
  | .bool => "Boolean"
  | .string | .text | .char _ | .varchar _ => "String"
  | .date => "java.time.LocalDate"
  | .datetime => "java.time.LocalDateTime"
  | .void => "Unit"
  | .any => "Any"

def typeName : Model.Ty → String :=
  Model.Ty.spell primitive (fun item => s!"List<{item}>") pascal

/-- Printing. -/
def print : List String → String
  | [one] => s!"println({one})"
  | args => "println(listOf(" ++ Text.joinWith ", " args ++ ").joinToString(\" \"))"

/-- A variable. -/
def declare (name : String) : Option Model.Ty → Option String → String
  | some t, some init => s!"var {name}: {typeName t} = {init}"
  | some t, none => s!"var {name}: {typeName t}? = null"
  | none, some init => s!"var {name} = {init}"
  | none, none => s!"var {name}: Any? = null"

/-- Kotlin. -/
def dialect : Dialect where
  typeName := typeName
  print := print
  declare := declare
  forRange var first last := s!"for ({var} in {first} until {last}) \x7b"
  forEach var items := s!"for ({var} in {items}) \x7b"
  terminator := ""

def typedParams (params : List (String × Model.Ty)) : String :=
  Text.joinWith ", " (params.map fun (name, t) => s!"{name}: {typeName t}")

/-- The address of a request as a text with its parameters in place. -/
def urlExpr (template : String) : String :=
  "\"$baseUrl" ++ String.join ((Url.parts template).map fun
    | .text s => Text.replaceChar '$' "\\$" (escape s)
    | .param name => "$" ++ Url.braced name) ++ "\""

/-- A data class. -/
def dataClass (r : Model.DataType) : Code :=
  between s!"data class {pascal r.name}("
    (Java.commaLines (r.fields.map fun f =>
      s!"val {camel f.name}: {typeName f.type}" ++ if f.nullable || f.auto then "? = null" else ""))
    ")"
    ++ blank

/-- A function that makes a request. -/
def clientCall (c : Model.ClientCall) : Code :=
  let params := typedParams (c.bindings.map fun b => (b.name, b.type))
  let returns := (c.returns.map typeName).getD "Unit"
  let url := urlExpr (Url.template c.path c.bindings)
  braces s!"fun {c.name}({params}): {returns}"
    (line s!"val request = HttpRequest.newBuilder(URI.create({url}))"
      ++ nest (lines
        [s!".method(\"{c.method.upper}\", {Java.publisher c.bindings})",
          ".header(\"Content-Type\", \"application/json\")",
          ".build()"])
      ++ lines
        ["val response = http.send(request, HttpResponse.BodyHandlers.ofString())",
          "check(response.statusCode() < 400) \x7b \"" ++ c.name
            ++ " failed: $\x7bresponse.statusCode()\x7d\" \x7d"]
      ++ (if c.returns.isSome then line "return json.readValue(response.body())" else []))

/-- A class of requests. -/
def clientFile (package : String) (c : Model.ClientApi) : Code :=
  line s!"package {package}" ++ blank
    ++ lines
      ["import com.fasterxml.jackson.module.kotlin.jacksonObjectMapper",
        "import com.fasterxml.jackson.module.kotlin.readValue",
        "import java.net.URI",
        "import java.net.http.HttpClient",
        "import java.net.http.HttpRequest",
        "import java.net.http.HttpResponse"]
    ++ blank
    ++ braces s!"class {pascal c.name}(private val baseUrl: String = \"{escape c.baseUrl}\")"
      (lines
          ["private val http = HttpClient.newHttpClient()",
            "private val json = jacksonObjectMapper()"]
        ++ spaced (c.calls.map clientCall))

/-- A free function. -/
def procedure (p : Model.Procedure) : Code :=
  let params := typedParams (p.params.map fun p => (p.name, p.type))
  let returns := (p.returns.map fun t => ": " ++ typeName t).getD ""
  braces s!"fun {p.name}({params}){returns}" (dialect.block p.body)

/-- Constants and free functions; a program that starts nowhere starts with nothing. -/
def mainFile (package : String) (m : CodeModel) : Code :=
  line s!"package {package}" ++ blank
    ++ lines (m.constants.map fun c =>
      s!"val {c.name}: {typeName c.type} = {dialect.valueOr dialect.null c.value}")
    ++ spaced (m.procedures.map procedure)
    ++ (if m.entry?.isNone then blank ++ line "fun main() \x7b\x7d" else [])

/-- The Gradle build file. -/
def gradleFile (p : Project) : String :=
  "plugins \x7b\n    kotlin(\"jvm\") version \"1.9.24\"\n    application\n\x7d\n\n"
    ++ s!"group = \"{p.group}\"\nversion = \"{p.version}\"\n\n"
    ++ "repositories \x7b\n    mavenCentral()\n\x7d\n\ndependencies \x7b\n"
    ++ "    implementation(\"com.fasterxml.jackson.module:jackson-module-kotlin:2.17.1\")\n\x7d\n\n"
    ++ s!"application \x7b\n    mainClass.set(\"{p.package}.MainKt\")\n\x7d\n"

/-- A Kotlin client library. -/
def client (m : CodeModel) (p : Project) : List GeneratedFile :=
  let package := p.package
  let root := Java.packageDir "src/main/kotlin" package
  let models := line s!"package {package}" ++ blank ++ concat (m.records.map dataClass)
  [⟨"build.gradle.kts", gradleFile p⟩,
    ⟨"settings.gradle.kts", s!"rootProject.name = \"{p.module}\"\n"⟩,
    models.file s!"{root}/Models.kt" indentUnit]
    ++ m.clients.map (fun c =>
      (clientFile package c).file s!"{root}/{pascal c.name}.kt" indentUnit)
    ++ [(mainFile package m).file s!"{root}/Main.kt" indentUnit]

end Scaffold.Target.Kotlin
