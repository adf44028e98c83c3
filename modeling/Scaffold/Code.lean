import Scaffold.Text.Basic

/-!
Source text as lines with their nesting depth. Pieces of code are put together as lists; only at the
end does a writer turn depths into indentation.

| here | in the program |
| --- | --- |
| `CodeItem`, `CodeWriter` | `CodeWriter` and the calls made on it |
| `openBlock`, `closeBlock` | `open`, `close` |
| `line`, `lines`, `blank`, `indent`, `dedent` | `line`, `lines`, `blank`, `indent`, `dedent` |
| `out` | `finish` |
| `GeneratedFile` | `GeneratedFile` |
-/

namespace Scaffold

/-- A line of code, or a place where a blank line separates what stands around it. -/
inductive CodeItem where
  | line (depth : Nat) (text : String)
  | blank
  deriving DecidableEq, Inhabited

/-- A piece of code. -/
abbrev Code := List CodeItem

namespace Code

def line (text : String) : Code :=
  [.line 0 text]

def lines (texts : List String) : Code :=
  texts.map (.line 0)

def blank : Code :=
  [.blank]

/-- The code one level deeper. -/
def nest (c : Code) : Code :=
  c.map fun
    | .line depth text => .line (depth + 1) text
    | .blank => .blank

def between (first : String) (body : Code) (last : String) : Code :=
  line first ++ nest body ++ line last

/-- Deeper code in braces that open at the end of a header. -/
def braces (header : String) (body : Code) : Code :=
  between (header ++ " \x7b") body "\x7d"

/-- Deeper code in braces that have lines of their own. -/
def ownBraces (header : String) (body : Code) : Code :=
  line header ++ between "\x7b" body "\x7d"

def ofText (text : String) : Code :=
  lines (Text.lines text)

def concat (cs : List Code) : Code :=
  cs.flatten

def spaced (cs : List Code) : Code :=
  cs.flatMap (blank ++ ·)

end Code

/-- Writes lines at the current indentation. -/
structure CodeWriter where
  /-- The lines so far without their line ends, the newest first. -/
  written : List String := []
  depth : Nat := 0
  /-- One level of indentation. -/
  unit : String
  deriving Inhabited

namespace CodeWriter

def out (w : CodeWriter) : String :=
  Text.unlines w.written.reverse

/-- The text so far is empty or ends with two line ends. -/
def atGap (w : CodeWriter) : Bool :=
  match w.written with
  | [] => true
  | newest :: older => if newest == "" then !older.isEmpty else Text.endsWith "\n" newest

/-- Writes a line; an empty one carries no indentation. -/
def line (w : CodeWriter) (text : String) : CodeWriter :=
  let indented := if text == "" then "" else Text.repeated w.depth w.unit ++ text
  { w with written := indented :: w.written }

def lines (w : CodeWriter) (text : String) : CodeWriter :=
  (Text.lines text).foldl line w

/-- Writes a blank line, unless nothing or a blank line stands before. -/
def blank (w : CodeWriter) : CodeWriter :=
  if w.atGap then w else { w with written := "" :: w.written }

def indent (w : CodeWriter) : CodeWriter :=
  { w with depth := w.depth + 1 }

def dedent (w : CodeWriter) : CodeWriter :=
  { w with depth := w.depth - 1 }

def openBlock (w : CodeWriter) (header : String) : CodeWriter :=
  (w.line header).indent

def closeBlock (w : CodeWriter) (footer : String) : CodeWriter :=
  w.dedent.line footer

/-- Writes an item of code, deeper than the writer by the depth of the item. -/
def item (w : CodeWriter) : CodeItem → CodeWriter
  | .line depth text => { ({ w with depth := w.depth + depth }.line text) with depth := w.depth }
  | .blank => w.blank

end CodeWriter

/-- The text of a piece of code, each level indented by `unit`. -/
def Code.render (unit : String) (c : Code) : String :=
  (c.foldl CodeWriter.item { unit }).out

/-- A file of a generated project, relative to the output directory. -/
structure GeneratedFile where
  path : String
  contents : String
  deriving DecidableEq, Inhabited

def Code.file (c : Code) (path unit : String) : GeneratedFile :=
  ⟨path, c.render unit⟩

end Scaffold
