import Mathlib.Data.List.Forall2
import Scaffold.Proofs.SymbolTable
import Scaffold.Source.Binding

/-!
# The names of a document, and how a program is read

`uses` lists every name of a piece of source that refers to something, with what its place accepts.

Bodies are read with the variables in sight: `Stmt.readings` walks over statements as a reader does,
gives each name together with the variables it sees, and brings a variable into sight when its
statement is completed. A variable is known by the number of its symbol; the numbers of a function
are counted on from its first parameter.
-/

namespace Scaffold

namespace Source

/-- A name in a source, and what its place accepts. -/
structure Use where
  expects : Expectation
  ref : NameRef

/-! ## Types and expressions -/

/-- The names in a type. -/
def TypeRef.uses : TypeRef → List Use
  | .primitive _ => []
  | .list item => item.uses
  | .named r => [⟨.type, r⟩]

mutual

/-- The names in an expression. -/
def Expr.uses : Expr → List Use
  | .literal _ => []
  | .name r => [⟨.value, r⟩]
  | .member object _ => object.uses
  | .call callee args => callee.uses ++ Expr.usesAll args
  | .native _ args _ => Expr.usesAll args
  | .unary _ e => e.uses
  | .binary _ lhs rhs => lhs.uses ++ rhs.uses

/-- The names in expressions. -/
def Expr.usesAll : List Expr → List Use
  | [] => []
  | e :: rest => e.uses ++ Expr.usesAll rest

end

/-- The names in what a loop runs over. -/
def ForIter.uses : ForIter → List Use
  | .range first last => first.uses ++ last.uses
  | .each items => items.uses

def Field.usesAll (fs : List Field) : List Use :=
  fs.flatMap (·.type.uses)

/-! ## Statements -/

/-- The variables in sight, innermost first, and the number of the next one. -/
structure Locals where
  names : List (String × SymbolId) := []
  next : SymbolId

namespace Locals

def declare (σ : Locals) (name : String) : Locals :=
  ⟨(name, σ.next) :: σ.names, σ.next + 1⟩

/-- Back outside a block: its variables are out of sight, their numbers stay taken. -/
def leave (σ inner : Locals) : Locals :=
  ⟨σ.names, inner.next⟩

/-- The names as they are read with these variables in sight. -/
def see (σ : Locals) (us : List Use) : List (Locals × Use) :=
  us.map (σ, ·)

end Locals

mutual

/-- The variables in sight after a statement. -/
def Stmt.after (σ : Locals) : Stmt → Locals
  | .declare name _ _ _ => σ.declare name
  | .cond _ yes no _ => σ.leave (Stmt.afterElse (σ.leave (Stmt.afterAll σ yes)) no)
  | .loop _ body _ => σ.leave (Stmt.afterAll σ body)
  | .each var _ body _ => σ.leave (Stmt.afterAll (σ.declare var) body)
  | .assign .. | .ret .. | .leave .. | .next .. | .expr .. => σ

/-- The variables in sight after statements. -/
def Stmt.afterAll (σ : Locals) : List Stmt → Locals
  | [] => σ
  | s :: rest => Stmt.afterAll (s.after σ) rest

/-- The variables in sight at the end of an `else`. -/
def Stmt.afterElse (σ : Locals) : Option (List Stmt) → Locals
  | none => σ
  | some body => Stmt.afterAll σ body

end

mutual

/-- The names in a statement, each with the variables in sight where it is read. The initial value
of a variable does not see it, nor does what a loop runs over see the variable of the loop. -/
def Stmt.readings (σ : Locals) : Stmt → List (Locals × Use)
  | .declare _ type init _ => σ.see (type.elim [] TypeRef.uses ++ init.elim [] Expr.uses)
  | .assign target value _ => σ.see (target.uses ++ value.uses)
  | .cond test yes no _ =>
    σ.see test.uses ++ Stmt.readingsAll σ yes
      ++ Stmt.readingsElse (σ.leave (Stmt.afterAll σ yes)) no
  | .loop test body _ => σ.see test.uses ++ Stmt.readingsAll σ body
  | .each var iter body _ => σ.see iter.uses ++ Stmt.readingsAll (σ.declare var) body
  | .ret value _ => σ.see (value.elim [] Expr.uses)
  | .leave _ => []
  | .next _ => []
  | .expr e _ => σ.see e.uses

/-- The names in statements, read one after the other. -/
def Stmt.readingsAll (σ : Locals) : List Stmt → List (Locals × Use)
  | [] => []
  | s :: rest => s.readings σ ++ Stmt.readingsAll (s.after σ) rest

/-- The names in an `else`. -/
def Stmt.readingsElse (σ : Locals) : Option (List Stmt) → List (Locals × Use)
  | none => []
  | some body => Stmt.readingsAll σ body

end

mutual

/-- The variables that a statement declares, in the order of completion. -/
def Stmt.vars : Stmt → List String
  | .declare name _ _ _ => [name]
  | .cond _ yes no _ => Stmt.varsAll yes ++ Stmt.varsElse no
  | .loop _ body _ => Stmt.varsAll body
  | .each var _ body _ => var :: Stmt.varsAll body
  | .assign .. | .ret .. | .leave .. | .next .. | .expr .. => []

/-- The variables that statements declare. -/
def Stmt.varsAll : List Stmt → List String
  | [] => []
  | s :: rest => s.vars ++ Stmt.varsAll rest

/-- The variables that an `else` declares. -/
def Stmt.varsElse : Option (List Stmt) → List String
  | none => []
  | some body => Stmt.varsAll body

end

def Stmt.usesAll (body : List Stmt) : List Use :=
  (Stmt.readingsAll ⟨[], 0⟩ body).map (·.2)

@[simp] theorem Locals.map_see (σ : Locals) (us : List Use) : (σ.see us).map (·.2) = us := by
  simp [Locals.see, Function.comp_def]

mutual

/-- Which names a statement has does not depend on the variables in sight. -/
theorem Stmt.map_readings : ∀ (σ σ' : Locals) (s : Stmt),
    (s.readings σ).map (·.2) = (s.readings σ').map (·.2)
  | σ, σ', .declare .. | σ, σ', .assign .. | σ, σ', .ret .. | σ, σ', .leave ..
  | σ, σ', .next .. | σ, σ', .expr .. => by
    simp [Stmt.readings]
  | σ, σ', .cond test yes no _ => by
    simp only [Stmt.readings, List.map_append, Locals.map_see]
    rw [Stmt.map_readingsAll σ σ' yes, Stmt.map_readingsElse _ (σ'.leave (Stmt.afterAll σ' yes)) no]
  | σ, σ', .loop test body _ => by
    simp only [Stmt.readings, List.map_append, Locals.map_see]
    rw [Stmt.map_readingsAll σ σ' body]
  | σ, σ', .each var iter body _ => by
    simp only [Stmt.readings, List.map_append, Locals.map_see]
    rw [Stmt.map_readingsAll _ (σ'.declare var) body]

theorem Stmt.map_readingsAll : ∀ (σ σ' : Locals) (ss : List Stmt),
    (Stmt.readingsAll σ ss).map (·.2) = (Stmt.readingsAll σ' ss).map (·.2)
  | _, _, [] => rfl
  | σ, σ', s :: rest => by
    simp only [Stmt.readingsAll, List.map_append]
    rw [Stmt.map_readings σ σ' s, Stmt.map_readingsAll _ (s.after σ') rest]

theorem Stmt.map_readingsElse : ∀ (σ σ' : Locals) (ss : Option (List Stmt)),
    (Stmt.readingsElse σ ss).map (·.2) = (Stmt.readingsElse σ' ss).map (·.2)
  | _, _, none => rfl
  | σ, σ', some body => by
    simp only [Stmt.readingsElse]
    exact Stmt.map_readingsAll σ σ' body

end

/-! ## Documents -/

mutual

/-- The pages that a piece of markup refers to. -/
def nodeUses : MarkupNode → List Use
  | .element _ _ component children => (component.map (⟨.page, ·⟩)).toList ++ markupUses children
  | .text _ => []
  | .interpolation _ => []

/-- The pages that markup refers to. -/
def markupUses : List MarkupNode → List Use
  | [] => []
  | node :: rest => nodeUses node ++ markupUses rest

end

def Func.uses (f : Func) : List Use :=
  Field.usesAll f.params ++ f.returns.elim [] TypeRef.uses ++ Stmt.usesAll f.body

def Query.uses (q : Query) : List Use :=
  Field.usesAll q.params ++ q.returns.elim [] TypeRef.uses

/-- The names in a declaration. -/
def Decl.uses : Decl → List Use
  | .importFile _ => []
  | .domain d => d.type.uses
  | .table t => t.columns.flatMap (·.type.uses)
  | .entity e => (e.table.map (⟨.table, ·⟩)).toList ++ Field.usesAll e.fields
  | .record r => Field.usesAll r.fields
  | .mapper m => m.queries.flatMap Query.uses
  | .controller c => c.handlers.flatMap Func.uses
  | .api a => a.members.map fun m => ⟨.controller, m.controller⟩
  | .page p =>
    (p.parent.map (⟨.page, ·⟩)).toList ++ (p.layout.map (⟨.page, ·⟩)).toList ++ markupUses p.markup
  | .property p => p.type.uses ++ p.value.elim [] Expr.uses
  | .func f => f.uses

def Document.uses (d : Document) : List Use :=
  d.decls.flatMap Decl.uses ++ d.shapes.flatMap fun s => Field.usesAll s.columns

/-- What a declaration declares in its file; an import declares nothing. -/
def Decl.declared? : Decl → Option Declared
  | .importFile _ => none
  | .domain d => some ⟨d.name, .domain, d.header.id⟩
  | .table t => some ⟨t.name, .table, t.header.id⟩
  | .entity e => some ⟨e.name, .entity, e.header.id⟩
  | .record r => some ⟨r.name, .record, r.header.id⟩
  | .mapper m => some ⟨m.name, .mapper, m.header.id⟩
  | .controller c => some ⟨c.name, .controller, c.header.id⟩
  | .api a => some ⟨a.name, .api, a.header.id⟩
  | .page p => some ⟨p.name, .page, p.header.id⟩
  | .property p => some ⟨p.name, .property, p.header.id⟩
  | .func f => some ⟨f.name, .func, f.header.id⟩

/-- What a document declares: its declarations, then its result shapes. -/
def Document.declared (d : Document) : List Declared :=
  d.decls.filterMap Decl.declared? ++ d.shapes.map fun s => ⟨s.name, .shape, s.id⟩

def Controller.declared (c : Controller) : List Declared :=
  c.handlers.map fun f => ⟨f.name, .handler, f.header.id⟩

/-- What a function declares: its parameters, then its variables. -/
def Func.declared (f : Func) : List Declared :=
  f.params.map (fun p => ⟨p.name, .param, f.header.id⟩)
    ++ (Stmt.varsAll f.body).map (⟨·, .local, f.header.id⟩)

end Source

end Scaffold
