import Scaffold.Code
import Scaffold.Diagnostic
import Scaffold.Path

/-!
The files in a reply of the generation service. Each is a block of lines between a fence that names
its path and a closing fence; lines outside blocks do not count.

| here | in the program |
| --- | --- |
| `GenerationService` | `GenerationService` |
| `GenerationService.missing` | `UnavailableService` |
| `Path.isContained` | `contained` |
| `blocks`, `files` | `parse_file_blocks` |
-/

/-! ## The service

The generation service: something outside that answers prompts with text, or fails.
-/

namespace Scaffold

/-- A request to the generation service. -/
structure Prompt where
  /-- What the prompt is about, such as `data:user` or `manifest`. -/
  id : String
  system : String
  user : String
  deriving DecidableEq, Inhabited

/-- Why the generation service gives no usable answer. -/
inductive ServiceError where
  | unreachable (reason : String)
  | timeout (seconds : Nat)
  | status (code : Nat) (body : String)
  | malformed (reason : String)
  | unavailable (reason : String)
  deriving DecidableEq, Inhabited

namespace ServiceError

/-- The text of an error. -/
def message : ServiceError → String
  | .unreachable reason => s!"generation service unreachable: {reason}"
  | .timeout seconds => s!"generation service timed out after {seconds}s"
  | .status code body => s!"generation service answered {code}: {body}"
  | .malformed reason => s!"malformed generation-service response: {reason}"
  | .unavailable reason => s!"generation service unavailable: {reason}"

def toDiagnostic (e : ServiceError) : Diagnostic :=
  .error .generationService e.message

end ServiceError

abbrev GenerationService := Prompt → Except ServiceError String

def GenerationService.missing (reason : String) : GenerationService :=
  fun _ => .error (.unavailable reason)

/-! ## Replies -/

/-- The path is relative, not empty, and never leads upward. -/
def Path.isContained (p : Path) : Bool :=
  p.text != "" && p.parts.all fun
    | .name _ | .here => true
    | _ => false

namespace Reply

def fence : String := "```file:"

def isClosing (line : String) : Bool :=
  Text.dropEndWhile Text.isBlank line.toList == "```".toList

/-- The path that a line opens a block for. -/
def opening? (line : String) : Option String :=
  (Text.afterHeadChars fence.toList (line.toList.dropWhile Text.isBlank)).map fun rest =>
    String.ofList (Text.trimChars rest)

/-- The blocks in lines; `current` is the block that is open. -/
def blocks : (current : Option GeneratedFile) → List String →
    Except ServiceError (List GeneratedFile)
  | none, [] => .ok []
  | some file, [] => .error (.malformed s!"unterminated block for {file.path}")
  | some file, line :: rest =>
    if isClosing line then (blocks none rest).map (file :: ·)
    else blocks (some { file with contents := file.contents ++ line ++ "\n" }) rest
  | none, line :: rest =>
    match opening? line with
    | none => blocks none rest
    | some path =>
      if (Path.mk path).isContained then blocks (some ⟨path, ""⟩) rest
      else .error (.malformed s!"unsafe file path '{path}'")

/-- The files in a reply; there must be one. -/
def files (reply : String) : Except ServiceError (List GeneratedFile) := do
  match ← blocks none (Text.lines reply) with
  | [] => .error (.malformed "reply contains no file blocks")
  | files => .ok files

end Reply

end Scaffold
