import Scaffold.Position

/-!
Names written in a source, and the numbers by which files, scopes, symbols and declarations are
known.

| here | in the program |
| --- | --- |
| `NameRef` | `NameRef` |
| `NodeId`, `FileId`, `ScopeId`, `SymbolId` | `NodeId`, `FileId`, `ScopeId`, `SymbolId` |
-/

namespace Scaffold

/-- A source file, counted in the order of parsing. -/
abbrev FileId := Nat

/-- A scope, counted in the order of opening. -/
abbrev ScopeId := Nat

/-- A declared symbol, counted in the order of declaration. -/
abbrev SymbolId := Nat

/-- A declaration, counted in the order of parsing. -/
abbrev NodeId := Nat

/-- A name that refers to a declaration: where it stands, the scope it was written in, its place in
the order of the file, and the symbol it was found to mean. -/
structure NameRef where
  name : String
  pos : Position
  scope : ScopeId
  seq : Nat
  target : Option SymbolId := none
  deriving DecidableEq, Inhabited

end Scaffold
