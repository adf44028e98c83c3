import Scaffold.CompileError

/-!
Target platforms, and what each of them can express.

| here | in the program |
| --- | --- |
| `Platform` | `PlatformKey` |
| `Platform.key`, `ofKey` | `as_str`, `from_str` |
| `Platform.group`, `supports` | `group`, `supports` |
| `language`, `framework` | `language`, `framework` |
-/

namespace Scaffold

/-- A platform that code is generated for. -/
inductive Platform where
  | cpp
  | cppServer
  | java
  | springBoot
  /-- Java with a package that the project's id decides. -/
  | coders
  | kotlin
  | cSharp
  | aspNet
  | go
  | gin
  | rust
  | axum
  | python
  | fastApi
  | javaScript
  | express
  | typeScript
  | dart
  | flutter
  | vueJs
  | react
  deriving DecidableEq, Inhabited

/-- What a construct is, as far as platforms differ. -/
inductive Category where
  | data
  | mapper
  | controller
  | api
  | page
  | func
  | property
  deriving DecidableEq, Inhabited

/-- The role of a platform. -/
inductive PlatformGroup where
  /-- Programs and client libraries. -/
  | client
  | server
  /-- Applications with pages. -/
  | frontend
  deriving DecidableEq, Inhabited

namespace Platform

/-- All platforms. -/
def all : List Platform :=
  [.cpp, .cppServer, .java, .springBoot, .coders, .kotlin, .cSharp, .aspNet, .go, .gin, .rust,
    .axum, .python, .fastApi, .javaScript, .express, .typeScript, .dart, .flutter, .vueJs, .react]

/-- The key of a platform. -/
def key : Platform → String
  | .cpp => "cpp"
  | .cppServer => "cppserver"
  | .java => "java"
  | .springBoot => "springboot"
  | .coders => "coders"
  | .kotlin => "kotlin"
  | .cSharp => "csharp"
  | .aspNet => "aspnet"
  | .go => "go"
  | .gin => "gin"
  | .rust => "rust"
  | .axum => "axum"
  | .python => "python"
  | .fastApi => "fastapi"
  | .javaScript => "javascript"
  | .express => "express"
  | .typeScript => "typescript"
  | .dart => "dart"
  | .flutter => "flutter"
  | .vueJs => "vuejs"
  | .react => "react"

/-- The platform with this key, in any case and with blanks around it. -/
def ofKey (name : String) : Except CompileError Platform :=
  let wanted := Text.trim name
  match all.find? fun p => Text.sameLetters p.key wanted with
  | some p => .ok p
  | none => .error (.platformUnsupported wanted "code generation")

/-- The role of a platform. -/
def group : Platform → PlatformGroup
  | .cppServer | .springBoot | .aspNet | .gin | .axum | .fastApi | .express => .server
  | .flutter | .vueJs | .react => .frontend
  | _ => .client

/-- A platform expresses data, functions and properties always, mappers and controllers on a
server, clients off a server, and pages in a frontend. -/
def supports (p : Platform) : Category → Bool
  | .data | .func | .property => true
  | .mapper | .controller => p.group == .server
  | .api => p.group != .server
  | .page => p.group == .frontend

/-- The language of the generated code. -/
def language : Platform → String
  | .cpp | .cppServer => "C++"
  | .java | .springBoot | .coders => "Java"
  | .kotlin => "Kotlin"
  | .cSharp | .aspNet => "C#"
  | .go | .gin => "Go"
  | .rust | .axum => "Rust"
  | .python | .fastApi => "Python"
  | .javaScript | .express => "JavaScript"
  | .typeScript | .vueJs | .react => "TypeScript"
  | .dart | .flutter => "Dart"

/-- The framework the generated code is built on, if any. -/
def framework? : Platform → Option String
  | .cppServer => some "Crow"
  | .springBoot => some "Spring Boot"
  | .aspNet => some "ASP.NET Core"
  | .gin => some "Gin"
  | .axum => some "Axum"
  | .fastApi => some "FastAPI"
  | .express => some "Express"
  | .flutter => some "Flutter"
  | .vueJs => some "Vue 3"
  | .react => some "React"
  | _ => none

end Platform

end Scaffold
