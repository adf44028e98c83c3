/-!
Places in a source text.
-/

namespace Scaffold

/-- A line and a column, both counted from one; columns count characters. -/
structure Position where
  line : Nat := 1
  col : Nat := 1
  deriving DecidableEq, Inhabited

namespace Position

def after (p : Position) (c : Char) : Position :=
  if c == '\n' then ⟨p.line + 1, 1⟩ else ⟨p.line, p.col + 1⟩

def afterAll (p : Position) (cs : List Char) : Position :=
  cs.foldl after p

def text (p : Position) : String :=
  s!"{p.line}:{p.col}"

end Position

end Scaffold
