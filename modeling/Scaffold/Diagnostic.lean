import Scaffold.Path
import Scaffold.Position

/-!
Problems reported to the user. A diagnostic has a severity, a stable code, perhaps a place, and a
message; they are kept in the order in which they arose.

| here | in the program |
| --- | --- |
| `Severity`, `DiagnosticCode`, `Diagnostic` | `Severity`, `DiagnosticCode`, `Diagnostic` |
| `error`, `warning`, `located` | `error`, `warning`, `at` |
| `hasErrors`, `errorCount` | `has_errors`, `error_count` |
| `warningCount`, `hasCode` | `warning_count`, `contains` |
-/

namespace Scaffold

/-- How bad a problem is: a warning never fails a build. -/
inductive Severity where
  | warning
  | error
  deriving DecidableEq, Inhabited

namespace Severity

/-- The word for a severity. -/
def text : Severity → String
  | .warning => "warning"
  | .error => "error"

end Severity

/-- What kind of problem it is. -/
inductive DiagnosticCode where
  | malformed
  | validation
  | importCycle
  | importNotFound
  | duplicateSymbol
  | unresolvedSymbol
  | kindMismatch
  | unboundParameter
  | unusedParameter
  | unknownColumn
  | duplicateRoute
  | platformUnsupported
  | generationService
  | fileSkipped
  | io
  | config
  | buildFailed
  | cancelled
  deriving DecidableEq, Inhabited

namespace DiagnosticCode

/-- The stable short form of a code. -/
def text : DiagnosticCode → String
  | .malformed => "E0001"
  | .validation => "E0002"
  | .importCycle => "E0101"
  | .importNotFound => "E0102"
  | .duplicateSymbol => "E0201"
  | .unresolvedSymbol => "E0202"
  | .kindMismatch => "E0203"
  | .unboundParameter => "E0301"
  | .unusedParameter => "W0302"
  | .unknownColumn => "W0303"
  | .duplicateRoute => "E0304"
  | .platformUnsupported => "P0401"
  | .generationService => "E0501"
  | .fileSkipped => "W0601"
  | .io => "E0602"
  | .config => "E0603"
  | .buildFailed => "E0604"
  | .cancelled => "E0701"

end DiagnosticCode

/-- A reported problem. A position without a file does not occur. -/
structure Diagnostic where
  severity : Severity
  code : DiagnosticCode
  file : Option Path := none
  pos : Option Position := none
  message : String
  deriving Inhabited

namespace Diagnostic

def error (code : DiagnosticCode) (message : String) : Diagnostic :=
  { severity := .error, code, message }

def warning (code : DiagnosticCode) (message : String) : Diagnostic :=
  { severity := .warning, code, message }

/-- The same problem at a place. -/
def located (d : Diagnostic) (file : Path) (pos : Position) : Diagnostic :=
  { d with file := some file, pos := some pos }

def isError (d : Diagnostic) : Bool :=
  d.severity == .error

/-- One line for the user: severity, code, place and message. -/
def text (d : Diagnostic) : String :=
  let place :=
    match d.file, d.pos with
    | some file, some pos => s!" {file.text}:{pos.text}"
    | some file, none => s!" {file.text}"
    | none, _ => ""
  s!"{d.severity.text}[{d.code.text}]{place}: {d.message}"

end Diagnostic

/-- Problems in the order they arose. -/
abbrev Diagnostics := List Diagnostic

namespace Diagnostics

def hasErrors (ds : Diagnostics) : Bool :=
  ds.any Diagnostic.isError

def errorCount (ds : Diagnostics) : Nat :=
  ds.countP Diagnostic.isError

def warningCount (ds : Diagnostics) : Nat :=
  ds.length - errorCount ds

def hasCode (ds : Diagnostics) (code : DiagnosticCode) : Bool :=
  ds.any (·.code == code)

end Diagnostics

end Scaffold
