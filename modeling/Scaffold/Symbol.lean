import Scaffold.Path
import Scaffold.Source.Name

/-!
Scopes and symbols. All scopes and symbols of a session live in one table and are known by number.
Names are bound when they are declared and looked up later, against the scope they were written in.

| here | in the program |
| --- | --- |
| `SymbolTable` | `SymbolContainer` |
| `addFile`, `addScope` | `register_file`, `new_scope` |
| `declare`, `addImport`, `setPrelude` | `declare`, `add_import`, `set_prelude` |
| `resolve`, `closeChildren` | `resolve`, `close_children` |
-/

namespace Scaffold

/-- What a scope belongs to. -/
inductive ScopeKind where
  /-- A whole file. -/
  | file
  /-- The members or parameters of a declaration. -/
  | declaration
  /-- A block of statements: a name is visible only after its declaration. -/
  | block
  deriving DecidableEq, Inhabited

/-- What a symbol stands for. -/
inductive SymbolKind where
  | domain
  | table
  | entity
  | record
  | mapper
  | query
  | controller
  | handler
  | api
  | page
  | property
  | func
  | param
  | local
  | shape
  deriving DecidableEq, Inhabited

namespace SymbolKind

/-- The word for a kind of symbol. -/
def text : SymbolKind → String
  | .domain => "domain"
  | .table => "table"
  | .entity => "entity"
  | .record => "struct"
  | .mapper => "mapper"
  | .query => "query"
  | .controller => "controller"
  | .handler => "handler"
  | .api => "api"
  | .page => "page"
  | .property => "property"
  | .func => "function"
  | .param => "parameter"
  | .local => "local variable"
  | .shape => "query result"

/-- All kinds of symbols. -/
def all : List SymbolKind :=
  [.domain, .table, .entity, .record, .mapper, .query, .controller, .handler, .api, .page,
    .property, .func, .param, .local, .shape]

def ofText? (word : String) : Option SymbolKind :=
  all.find? (·.text == word)

/-- Symbols of this kind may stand where a type is expected. -/
def isType : SymbolKind → Bool
  | .domain | .table | .entity | .record | .shape => true
  | _ => false

end SymbolKind

/-- A declared name. -/
structure Symbol where
  name : String
  kind : SymbolKind
  file : FileId
  path : Path
  pos : Position
  /-- Its place in the order of the file. -/
  seq : Nat
  scope : ScopeId
  /-- The declaration it belongs to. -/
  node : NodeId
  deriving Inhabited

/-- A file made visible to what is written after a place. -/
structure ScopeImport where
  seq : Nat
  scope : ScopeId
  deriving Inhabited

/-- A scope with the names bound in it. -/
structure Scope where
  kind : ScopeKind
  parent : Option ScopeId
  file : FileId
  bindings : List (String × SymbolId) := []
  imports : List ScopeImport := []
  closed : Bool := false
  deriving Inhabited

namespace Scope

def lookup (s : Scope) (name : String) : Option SymbolId :=
  s.bindings.lookup name

end Scope

/-- All files, scopes and symbols of a session. -/
structure SymbolTable where
  files : Array Path := #[]
  scopes : Array Scope := #[]
  symbols : Array Symbol := #[]
  prelude : Option ScopeId := none
  deriving Inhabited

namespace SymbolTable

def addFile (t : SymbolTable) (path : Path) : FileId × SymbolTable :=
  (t.files.size, { t with files := t.files.push path })

/-- Opens a scope. -/
def addScope (t : SymbolTable) (kind : ScopeKind) (parent : Option ScopeId) (file : FileId) :
    ScopeId × SymbolTable :=
  (t.scopes.size, { t with scopes := t.scopes.push { kind, parent, file } })

def lookup (t : SymbolTable) (scope : ScopeId) (name : String) : Option SymbolId :=
  t.scopes[scope]?.bind (·.lookup name)

/-- Binds a symbol in a scope. If the name is taken there, nothing changes and the answer is the
symbol that has it. -/
def declare (t : SymbolTable) (scope : ScopeId) (symbol : Symbol) :
    Except SymbolId SymbolId × SymbolTable :=
  match t.lookup scope symbol.name with
  | some previous => (.error previous, t)
  | none =>
    let id := t.symbols.size
    let bind (s : Scope) : Scope := { s with bindings := s.bindings ++ [(symbol.name, id)] }
    (.ok id,
      { t with
        scopes := t.scopes.modify scope bind
        symbols := t.symbols.push { symbol with scope } })

/-- Makes the names of a file scope visible in another one, for what is written after `seq`. -/
def addImport (t : SymbolTable) (scope imported : ScopeId) (seq : Nat) : SymbolTable :=
  let add (s : Scope) : Scope := { s with imports := s.imports ++ [⟨seq, imported⟩] }
  { t with scopes := t.scopes.modify scope add }

/-- Makes the names of a file scope visible everywhere, after all others. -/
def setPrelude (t : SymbolTable) (scope : ScopeId) : SymbolTable :=
  { t with prelude := some scope }

/-- The symbol that a name written at `seq` finds in one scope: bound there (in a block only if the
binding came before), or in a file imported before `seq`. -/
def resolveIn (t : SymbolTable) (s : Scope) (name : String) (seq : Nat) : Option SymbolId :=
  let visible (id : SymbolId) : Bool :=
    s.kind != .block || (t.symbols[id]?.any (·.seq < seq))
  match (s.lookup name).filter visible with
  | some id => some id
  | none =>
    if s.kind == .file then
      (s.imports.filter (·.seq < seq)).findSome? fun i => t.lookup i.scope name
    else none

/-- The symbol that a name finds in a scope or one of those around it. A scope lies inside earlier
ones only, so the number of scopes is enough fuel. -/
def resolveFrom (t : SymbolTable) (name : String) (seq : Nat) :
    (fuel : Nat) → Option ScopeId → Option SymbolId
  | 0, _ => none
  | _, none => none
  | fuel + 1, some id =>
    match t.scopes[id]? with
    | none => none
    | some s =>
      match t.resolveIn s name seq with
      | some found => some found
      | none => resolveFrom t name seq fuel s.parent

/-- What a name written at `seq` in `scope` means: the innermost binding around it, else the
prelude's. -/
def resolve (t : SymbolTable) (scope : ScopeId) (name : String) (seq : Nat) : Option SymbolId :=
  match t.resolveFrom name seq (t.scopes.size + 1) (some scope) with
  | some id => some id
  | none => t.prelude.bind (t.lookup · name)

/-- Closes all scopes of a file but its outermost one. -/
def closeChildren (t : SymbolTable) (file : FileId) : SymbolTable :=
  let close (s : Scope) : Scope :=
    if s.file == file && s.kind != .file then { s with closed := true } else s
  { t with scopes := t.scopes.map close }

end SymbolTable

end Scaffold
