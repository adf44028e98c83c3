import Scaffold.Text.Basic

/-!
The arguments of a command: long options (`--config`), letters that may be written together (`-vc`),
operands, and the mark `--` after which all arguments are operands. A value follows its option or is
attached to it (`-cx`, `-c=x`, `--config=x`), and never looks like an option itself. An option is
given once at most.
-/

namespace Scaffold.CommandLine

/-- One argument by its shape. -/
inductive Argument where
  | operand (text : String)
  /-- All that follows is operands. -/
  | separator
  | long (name : String) (value : Option String)
  | letters (cs : List Char)
  deriving DecidableEq, Inhabited

/-- A long option, with the value that an equals sign attaches to it. -/
def Argument.ofLong (text : String) : Argument :=
  match Text.splitFirst '=' text with
  | some (name, value) => .long name (some value)
  | none => .long text none

/-- The shape of an argument; a single dash is an operand. -/
def Argument.ofText (text : String) : Argument :=
  match text.toList with
  | ['-', '-'] => .separator
  | '-' :: '-' :: rest => .ofLong (String.ofList rest)
  | '-' :: c :: rest => .letters (c :: rest)
  | _ => .operand text

/-- What an option is for. -/
inductive Role where
  /-- It is given or not. -/
  | switch
  /-- It has a value; not all texts are accepted. -/
  | value (accepts : String → Bool)
  | help
  | version

/-- An option that a command knows. -/
structure Opt where
  letter : Option Char := none
  name : String
  role : Role

/-- What a command takes. -/
structure Grammar where
  options : List Opt
  /-- The number of operands; none of them may be empty. -/
  operands : Nat := 0

/-- Why the reading of arguments ends early. -/
inductive Stop where
  /-- The arguments cannot be used. -/
  | refused
  /-- The user asks what the command does, in short or at length. -/
  | help (atLength : Bool)
  /-- The user asks for the version. -/
  | version
  deriving DecidableEq, Inhabited

/-- The arguments that were read so far. -/
structure Given where
  /-- Options by their long names, with their values; that of a switch is empty. -/
  options : List (String × String) := []
  operands : List String := []
  deriving DecidableEq, Inhabited

namespace Given

/-- The switch was given. -/
def has (g : Given) (name : String) : Bool :=
  g.options.any (·.1 == name)

def value? (g : Given) (name : String) : Option String :=
  g.options.lookup name

/-- Adds an option, unless it was given before. -/
def add (g : Given) (name value : String) : Except Stop Given :=
  if g.has name then .error .refused
  else .ok { g with options := g.options ++ [(name, value)] }

/-- Adds an option with its value. -/
def addValue (g : Given) (o : Opt) (value : String) : Except Stop Given :=
  match o.role with
  | .value accepts => if accepts value then g.add o.name value else .error .refused
  | _ => .error .refused

/-- Adds an operand, if there is room for it. -/
def addOperand (grammar : Grammar) (g : Given) (text : String) : Except Stop Given :=
  if text != "" && decide (g.operands.length < grammar.operands) then
    .ok { g with operands := g.operands ++ [text] }
  else .error .refused

end Given

namespace Grammar

/-- Reads a long option. The option is also given back if its value is still to come. -/
def readLong (grammar : Grammar) (g : Given) (name : String) (value : Option String) :
    Except Stop (Given × Option Opt) :=
  match grammar.options.find? (·.name == name) with
  | none => .error .refused
  | some o =>
    match o.role, value with
    | .value _, none => .ok (g, some o)
    | .value _, some value => (g.addValue o value).map (·, none)
    | _, some _ => .error .refused
    | .switch, none => (g.add o.name "").map (·, none)
    | .help, none => .error (.help true)
    | .version, none => .error .version

/-- Reads letters. Those after a letter with a value are the value. -/
def readLetters (grammar : Grammar) : Given → List Char → Except Stop (Given × Option Opt)
  | g, [] => .ok (g, none)
  | g, c :: rest =>
    match grammar.options.find? (·.letter == some c) with
    | none => .error .refused
    | some o =>
      match o.role, rest with
      | .value _, [] => .ok (g, some o)
      | .value _, '=' :: value => (g.addValue o (String.ofList value)).map (·, none)
      | .value _, value => (g.addValue o (String.ofList value)).map (·, none)
      | .switch, rest => do
        let g ← g.add o.name ""
        readLetters grammar g rest
      | .help, _ => .error (.help false)
      | .version, _ => .error .version

/-- Reads an argument that is no operand. -/
def readOption (grammar : Grammar) (g : Given) : Argument → Except Stop (Given × Option Opt)
  | .long name value => grammar.readLong g name value
  | .letters cs => grammar.readLetters g cs
  | .separator | .operand _ => .error .refused

/-- Reads all arguments. `pending` is an option that waits for its value. -/
def readFrom (grammar : Grammar) : (pending : Option Opt) → List String → Given →
    Except Stop Given
  | none, [], g => .ok g
  | some _, [], _ => .error .refused
  | pending, text :: rest, g =>
    match pending, Argument.ofText text with
    | some o, .operand value => do
      let g ← g.addValue o value
      readFrom grammar none rest g
    | some _, _ => .error .refused
    | none, .operand operand => do
      let g ← g.addOperand grammar operand
      readFrom grammar none rest g
    | none, .separator => rest.foldlM (Given.addOperand grammar) g
    | none, a => do
      let (g, pending) ← grammar.readOption g a
      readFrom grammar pending rest g

def read (grammar : Grammar) (args : List String) : Except Stop Given :=
  grammar.readFrom none args {}

/-- Reads options up to the first operand, which names a command, and gives it with the arguments
after it. Options that stand before a command have no values. -/
def readCommand (grammar : Grammar) : List String → Given → Except Stop (String × List String)
  | [], _ => .error .refused
  | text :: rest, g =>
    match Argument.ofText text with
    | .operand name => .ok (name, rest)
    | a => do
      let (g, pending) ← grammar.readOption g a
      if pending.isSome then .error .refused else readCommand grammar rest g

end Grammar

end Scaffold.CommandLine
