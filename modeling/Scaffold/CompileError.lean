import Scaffold.Diagnostic

/-!
Why compiling a source stops, or what it reports. Most causes are faults at a place of a source
file; the others concern a chain of imports, a platform or a file.

| here | in the program |
| --- | --- |
| `Fault` | the alternatives of `CompileError` that have a place |
| `FileError` | the causes of its alternative `Io` |
| `CompileError` | `CompileError` |
| `code`, `severity`, `message`, `toDiagnostic` | `code`, `severity`, `message`, `to_diagnostic` |
-/

namespace Scaffold

/-- Why the file system refuses an operation. -/
inductive FileError where
  | notFound
  | alreadyExists
  | notADirectory
  | isADirectory
  /-- A name, or a path as a whole, is longer than the system takes. -/
  | nameTooLong
  /-- A path holds the character that ends texts inside the system. -/
  | nulInPath
  deriving DecidableEq, Inhabited

namespace FileError

/-- The system's text for the refusal, with its number if the system was asked at all. -/
def message : FileError → String
  | .notFound => "No such file or directory (os error 2)"
  | .alreadyExists => "File exists (os error 17)"
  | .notADirectory => "Not a directory (os error 20)"
  | .isADirectory => "Is a directory (os error 21)"
  | .nameTooLong => "File name too long (os error 36)"
  | .nulInPath => "file name contained an unexpected NUL byte"

end FileError

/-- What can be wrong at a place of a source file. -/
inductive Fault where
  /-- Something else should stand here. -/
  | mismatch (expected found : String)
  /-- A declaration breaks a rule of its kind. -/
  | invalid (declaration reason : String)
  /-- An import names no file. -/
  | importNotFound (written : String)
  /-- A name is declared twice in one scope. -/
  | duplicateSymbol (name : String) (previous : Position)
  /-- A name refers to nothing. -/
  | unresolvedSymbol (name context : String)
  /-- A name refers to something of the wrong kind. -/
  | kindMismatch (name expected found : String)
  /-- A parameter is used that is not declared. -/
  | unboundParameter (declaration name : String)
  /-- A parameter is declared that is not used. -/
  | unusedParameter (declaration name : String)
  /-- Two handlers answer the same requests. -/
  | duplicateRoute (method path : String)
  deriving DecidableEq, Inhabited

namespace Fault

/-- What is wrong, without the place. -/
def message : Fault → String
  | .mismatch expected found => s!"expected {expected}, found {found}"
  | .invalid declaration reason => s!"invalid {declaration}: {reason}"
  | .importNotFound written => s!"cannot find import '{written}'"
  | .duplicateSymbol name previous =>
    s!"'{name}' is already declared in this scope (previous declaration at {previous.text})"
  | .unresolvedSymbol name context => s!"unresolved symbol '{name}' in {context}"
  | .kindMismatch name expected found => s!"'{name}' is a {found}, expected {expected}"
  | .unboundParameter declaration name =>
    s!"'{declaration}' references unbound parameter ':{name}'"
  | .unusedParameter declaration name => s!"parameter '{name}' of '{declaration}' is never used"
  | .duplicateRoute method path => s!"route {method} {path} is declared more than once"

/-- The code of a fault. -/
def code : Fault → DiagnosticCode
  | .mismatch .. => .malformed
  | .invalid .. => .validation
  | .importNotFound .. => .importNotFound
  | .duplicateSymbol .. => .duplicateSymbol
  | .unresolvedSymbol .. => .unresolvedSymbol
  | .kindMismatch .. => .kindMismatch
  | .unboundParameter .. => .unboundParameter
  | .unusedParameter .. => .unusedParameter
  | .duplicateRoute .. => .duplicateRoute

/-- An unused parameter is only worth a warning. -/
def severity : Fault → Severity
  | .unusedParameter .. => .warning
  | _ => .error

end Fault

/-- Why a source does not compile. -/
inductive CompileError where
  | fault (file : Path) (pos : Position) (fault : Fault)
  | importCycle (chain : List Path)
  | platformUnsupported (platform construct : String)
  | io (path : Path) (cause : FileError)
  | cancelled
  deriving DecidableEq, Inhabited

namespace CompileError

/-- The full text of an error, led by its place if it has one. -/
def message : CompileError → String
  | .fault file pos f => s!"{file.text}:{pos.text}: {f.message}"
  | .importCycle chain => "import cycle: " ++ Text.joinWith " -> " (chain.map (·.text))
  | .platformUnsupported platform construct => s!"platform '{platform}' does not support {construct}"
  | .io path cause => s!"{path.text}: {cause.message}"
  | .cancelled => "build cancelled"

/-- The code of an error. -/
def code : CompileError → DiagnosticCode
  | .fault _ _ f => f.code
  | .importCycle _ => .importCycle
  | .platformUnsupported .. => .platformUnsupported
  | .io .. => .io
  | .cancelled => .cancelled

/-- Unused parameters and unsupported constructs are reported but fail nothing. -/
def severity : CompileError → Severity
  | .fault _ _ f => f.severity
  | .platformUnsupported .. => .warning
  | _ => .error

/-- The error as a reported problem: the place moves out of the message. -/
def toDiagnostic (e : CompileError) : Diagnostic :=
  match e with
  | .fault file pos f =>
    { severity := e.severity, code := e.code, file := some file, pos := some pos,
      message := f.message }
  | .io path _ =>
    { severity := e.severity, code := e.code, file := some path, message := e.message }
  | _ => { severity := e.severity, code := e.code, message := e.message }

end CompileError

end Scaffold
