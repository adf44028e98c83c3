import Mathlib.Data.List.Flatten
import Mathlib.Data.List.Nodup
import Scaffold.Proofs.Documents

/-!
# The data types of the code model

Lowering passes over what it has lowered before. It comes to lowering all of the documents that remain
(`Session.lower_eq`), which are those of the project, since no two declarations of a session have the
same number (`Session.Worked.loweredDocuments`).

Lowering takes up the data types of the documents in order, and nothing else of it touches them
(`allDocuments_adds`). They have the names, kinds and nodes of the declarations
(`documentTypes_denote`), so the data type of a name is that of the first declaration of the name
(`Session.dataType?_of_lower`). Whether this is the declaration that a name was bound to depends on
the documents before.
-/

namespace Scaffold

namespace SymbolTable

variable {t : SymbolTable} {scope : ScopeId} {ds : List Declared} {id : SymbolId} {symbol : Symbol}

/-- A symbol that is bound in a scope is one of its declarations, and the only one of its name. -/
theorem Declares.only (h : t.Declares (t.names scope) ds) (ht : t.WellFormed)
    (hb : (symbol.name, id) ∈ t.names scope) (hsymbol : t.symbols[id]? = some symbol) :
    symbol.declared ∈ ds ∧ ∀ x ∈ ds, x.name = symbol.name → x = symbol.declared := by
  have hstands : ∀ x, t.Stands (symbol.name, id) x → x = symbol.declared := by
    rintro x ⟨-, symbol', hsymbol', hx⟩
    cases hsymbol.symm.trans hsymbol'
    exact hx.symm
  refine ⟨?_, fun x hx hname => ?_⟩
  · obtain ⟨x, hx, hstand⟩ := forall₂_mem_right h.flip hb
    rw [← hstands x hstand]
    exact hx
  · obtain ⟨b, hbx, hstand⟩ := forall₂_mem_right h hx
    have hnodup : ((t.names scope).map (·.1)).Nodup := by
      cases hscope : t.scopes[scope]? with
      | none => simp [names, hscope]
      | some sc =>
        rw [names_of_scope hscope]
        exact ht.nodup hscope
    have heq : b = (symbol.name, id) :=
      List.inj_on_of_nodup_map hnodup hbx hb (hstand.1.trans hname)
    exact hstands x (heq ▸ hstand)

end SymbolTable

namespace Lowering

/-! ## What was lowered before -/

section

variable {α : Type} {number : α → NodeId} {seen : List NodeId}

/-- The items with a new number, which neither was seen nor stands further in front. -/
def unseen (number : α → NodeId) : (seen : List NodeId) → List α → List α
  | _, [] => []
  | seen, a :: rest =>
    if seen.contains (number a) then unseen number seen rest
    else a :: unseen number (seen ++ [number a]) rest

/-- Where all numbers differ, none was seen before. -/
theorem unseen_eq_self {as : List α} (h : (seen ++ as.map number).Nodup) :
    unseen number seen as = as := by
  induction as generalizing seen with
  | nil => rfl
  | cons a rest ih =>
    have hnew : number a ∉ seen := fun hseen =>
      (List.nodup_append'.1 h).2.2 hseen List.mem_cons_self
    rw [List.map_cons, List.append_cons] at h
    rw [unseen, if_neg (by simpa using hnew), ih h]

/-- The documents with what has a new number. -/
def unseenDocuments : (seen : List NodeId) → List Source.Document → List Source.Document
  | _, [] => []
  | seen, d :: rest =>
    let decls := unseen (·.header.id) seen d.decls
    let seen := seen ++ decls.map (·.header.id)
    let shapes := unseen (·.id) seen d.shapes
    { d with decls, shapes } :: unseenDocuments (seen ++ shapes.map (·.id)) rest

/-- The numbers of the declarations and shapes of a document, without those of members. -/
def ownNodes (d : Source.Document) : List NodeId :=
  d.decls.map (·.header.id) ++ d.shapes.map (·.id)

theorem ownNodes_sublist (d : Source.Document) : (ownNodes d).Sublist d.nodes := by
  have hdecl : ∀ x : Source.Decl, [x.header.id].Sublist x.nodes := fun x => by
    cases x <;> exact List.singleton_sublist.2 List.mem_cons_self
  have hdecls : (d.decls.map (·.header.id)).Sublist (d.decls.flatMap Source.Decl.nodes) := by
    rw [List.map_eq_flatMap]
    exact .flatMap_right _ fun x _ => hdecl x
  exact hdecls.append (.refl _)

theorem unseenDocuments_eq_self {ds : List Source.Document}
    (h : (seen ++ ds.flatMap ownNodes).Nodup) : unseenDocuments seen ds = ds := by
  induction ds generalizing seen with
  | nil => rfl
  | cons d rest ih =>
    rw [List.flatMap_cons, ownNodes, List.append_assoc, ← List.append_assoc seen,
      ← List.append_assoc] at h
    have hshapes := (List.sublist_append_left _ (rest.flatMap ownNodes)).nodup h
    have hdecls := (List.sublist_append_left _ (d.shapes.map (·.id))).nodup hshapes
    rw [unseenDocuments, unseen_eq_self hdecls, unseen_eq_self hshapes, ih h]

end

section

variable (env : Env)

/-- Lowers all declarations in order. -/
def allDecls (path : Path) : List Source.Decl → Lower Unit
  | [] => pure ()
  | d :: rest => do
    lowerDecl env path d
    allDecls path rest

/-- Lowers all result shapes in order. -/
def allShapes : List Source.ResultShape → Lower Unit
  | [] => pure ()
  | s :: rest => do
    if ← supported env .data s!"query result {s.name}" then addData (lowerShape env s)
    allShapes rest

/-- Lowers all documents in order. -/
def allDocuments : List Source.Document → Lower Unit
  | [] => pure ()
  | d :: rest => do
    allDecls env d.path d.decls
    allShapes env d.shapes
    allDocuments rest

theorem lowerDecls_eq (path : Path) (lowered : List NodeId) (ds : List Source.Decl) :
    lowerDecls env path lowered ds = (do
      let new := unseen (·.header.id) lowered ds
      allDecls env path new
      return lowered ++ new.map (·.header.id)) := by
  induction ds generalizing lowered with
  | nil => simp [lowerDecls, unseen, allDecls]
  | cons d rest ih =>
    rw [lowerDecls, unseen]
    split
    · exact ih lowered
    · simp [ih, allDecls]

theorem lowerShapes_eq (lowered : List NodeId) (shapes : List Source.ResultShape) :
    lowerShapes env lowered shapes = (do
      let new := unseen (·.id) lowered shapes
      allShapes env new
      return lowered ++ new.map (·.id)) := by
  induction shapes generalizing lowered with
  | nil => simp [lowerShapes, unseen, allShapes]
  | cons s rest ih =>
    rw [lowerShapes, unseen]
    split
    · exact ih lowered
    · simp only [ih, allShapes, bind_assoc]
      refine bind_congr fun b => ?_
      cases b <;> simp

/-- Lowering each number once is lowering all documents without what was lowered before. -/
theorem lowerDocuments_eq (lowered : List NodeId) (ds : List Source.Document) :
    lowerDocuments env lowered ds = allDocuments env (unseenDocuments lowered ds) := by
  induction ds generalizing lowered with
  | nil => rfl
  | cons d rest ih =>
    simp [lowerDocuments, unseenDocuments, allDocuments, lowerDecls_eq, lowerShapes_eq, ih]

end

/-! ## What steps add -/

theorem run_bind {α β : Type} (m : Lower α) (f : α → Lower β) (s : State) :
    (m >>= f).run s = match m.run s with
      | (.ok a, s') => (f a).run s'
      | (.error e, s') => (.error e, s') := by
  rw [ExceptT.run_bind]
  simp only [bind, StateT.bind]
  obtain ⟨result, s'⟩ := m.run s
  cases result <;> rfl

/-- A step that succeeds adds these data types; one that fails does so for more than a warning. -/
structure Adds {α : Type} (m : Lower α) (ts : List Model.DataType) : Prop where
  ok : ∀ s a s', m.run s = (.ok a, s') → s'.model.dataTypes = s.model.dataTypes ++ ts
  error : ∀ s e s', m.run s = (.error e, s') → e.severity = .error

namespace Adds

variable {α β : Type} {m : Lower α} {f : α → Lower β} {ts us : List Model.DataType}

theorem pure (a : α) : Adds (Pure.pure a) [] where
  ok s a' s' h := by
    cases h
    exact (List.append_nil _).symm
  error s e s' h := by cases h

theorem bind (hm : Adds m ts) (hf : ∀ a, Adds (f a) us) : Adds (m >>= f) (ts ++ us) where
  ok s b s' h := by
    rw [run_bind] at h
    split at h
    · rename_i a s₁ hrun
      rw [(hf a).ok _ _ _ h, hm.ok _ _ _ hrun, List.append_assoc]
    · cases h
  error s e s' h := by
    rw [run_bind] at h
    split at h
    · exact (hf _).error _ _ _ h
    · rename_i hrun
      cases h
      exact hm.error _ _ _ hrun

/-- Steps that add nothing, one after the other. -/
theorem still (hm : Adds m []) (hf : ∀ a, Adds (f a) us) : Adds (m >>= f) us :=
  hm.bind hf

/-- A step that fails has no end. -/
theorem throw {e : CompileError} (he : e.severity = .error) (f : α → Lower β) :
    Adds (throw e >>= f) ts where
  ok s b s' h := by cases h
  error s e' s' h := by
    cases h
    exact he

theorem get : Adds (get : Lower State) [] where
  ok s a s' h := by
    cases h
    exact (List.append_nil _).symm
  error s e s' h := by cases h

theorem modify {g : State → State} (h : ∀ s, (g s).model.dataTypes = s.model.dataTypes ++ ts) :
    Adds (modify g : Lower Unit) ts where
  ok s a s' hrun := by
    cases hrun
    exact h s
  error s e s' hrun := by cases hrun

theorem report (e : CompileError) : Adds (report e) [] :=
  modify fun _ => (List.append_nil _).symm

theorem forIn {g : α → β → Lower (ForInStep β)} (h : ∀ a b, Adds (g a b) []) :
    ∀ (as : List α) (b : β), Adds (forIn as b g) []
  | [], b => pure b
  | a :: as, b => by
    rw [List.forIn_cons]
    refine (h a b).still fun step => ?_
    cases step with
    | done b => exact pure b
    | yield b => exact forIn h as b

end Adds

section

variable (env : Env) (path : Path)

theorem lowerQuery_adds (mapper : String) (q : Source.Query) :
    Adds (lowerQuery env path mapper q) [] := by
  unfold lowerQuery
  dsimp only
  split
  · exact (Adds.report _).still fun _ => .pure _
  · refine (Adds.forIn (fun p _ => ?_) _ _).still fun _ => .pure _
    split
    · exact (Adds.report _).still fun _ => .pure _
    · exact .pure _

theorem lowerQueries_adds (mapper : String) : ∀ qs : List Source.Query,
    Adds (lowerQueries env path mapper qs) []
  | [] => .pure _
  | q :: rest => (lowerQuery_adds env path mapper q).still fun _ =>
    (lowerQueries_adds mapper rest).still fun _ => .pure _

theorem routeSpec_adds (c : Source.Controller) (f : Source.Func) :
    Adds (routeSpec env path c f) [] := by
  unfold routeSpec
  split
  · exact .pure _
  · dsimp only
    split
    · refine Adds.get.still fun _ => ?_
      split
      · refine Adds.still (Adds.modify ?_) fun _ => (Adds.report _).still fun _ => .pure _
        exact fun _ => (List.append_nil _).symm
      · exact .pure _
    · exact .pure _

theorem lowerHandlers_adds (c : Source.Controller) : ∀ fs : List Source.Func,
    Adds (lowerHandlers env path c fs) []
  | [] => .pure _
  | f :: rest => by
    refine (routeSpec_adds env path c f).still fun spec => ?_
    split
    · exact lowerHandlers_adds c rest
    · refine Adds.get.still fun _ => ?_
      split
      · exact .throw rfl _
      · refine Adds.still (Adds.modify ?_) fun _ => (lowerHandlers_adds c rest).still fun _ => .pure _
        exact fun _ => (List.append_nil _).symm

theorem lowerCalls_adds (c : Source.Controller) : ∀ fs : List Source.Func,
    Adds (lowerCalls env path c fs) []
  | [] => .pure _
  | f :: rest => by
    refine (routeSpec_adds env path c f).still fun spec => ?_
    split
    · exact lowerCalls_adds c rest
    · exact (lowerCalls_adds c rest).still fun _ => .pure _

theorem lowerMember_adds (api : String) (m : Source.ApiMember) :
    Adds (lowerMember env path api m) [] := by
  unfold lowerMember
  split
  · exact .pure _
  · split
    · exact lowerCalls_adds env _ _ _
    · split
      · exact lowerCalls_adds env _ _ _
      · exact (Adds.report _).still fun _ => .pure _

theorem lowerMembers_adds (api : String) : ∀ ms : List Source.ApiMember,
    Adds (lowerMembers env path api ms) []
  | [] => .pure _
  | m :: rest => (lowerMember_adds env path api m).still fun _ =>
    (lowerMembers_adds api rest).still fun _ => .pure _

theorem supported_adds (category : Category) (construct : String) :
    Adds (supported env category construct) [] := by
  unfold supported
  split
  · exact .pure _
  · split
    · exact .pure _
    · exact (Adds.report _).still fun _ => .pure _

/-- Every target expresses data. -/
theorem supported_data (construct : String) : supported env .data construct = Pure.pure true := by
  unfold supported
  split
  · rfl
  · rfl

end

/-! ## The data types of documents -/

/-- The data type that a declaration becomes. -/
def declType? (env : Env) : Source.Decl → Option Model.DataType
  | .domain d => some (lowerDomain env d)
  | .table t => some (lowerTable env t)
  | .entity e => some (lowerEntity env e)
  | .record r => some (lowerRecord env r)
  | _ => none

def documentTypes (env : Env) (d : Source.Document) : List Model.DataType :=
  d.decls.filterMap (declType? env) ++ d.shapes.map (lowerShape env)

section

variable (env : Env)

theorem addData_adds (t : Model.DataType) : Adds (addData t) [t] :=
  .modify fun _ => rfl

theorem extend_adds {f : CodeModel → CodeModel} (h : ∀ m, (f m).dataTypes = m.dataTypes) :
    Adds (extend f) [] :=
  .modify fun s => (h s.model).trans (List.append_nil _).symm

theorem addDecl_adds (path : Path) (d : Source.Decl) :
    Adds (addDecl env path d) (declType? env d).toList := by
  cases d with
  | importFile i => exact .pure _
  | domain d => exact addData_adds _
  | table t => exact addData_adds _
  | entity e => exact addData_adds _
  | record r => exact addData_adds _
  | mapper m =>
    refine Adds.still ?_ fun _ => extend_adds fun _ => rfl
    exact (lowerQueries_adds env path m.name m.queries).still fun _ => .pure _
  | controller c =>
    refine Adds.still ?_ fun _ => extend_adds fun _ => rfl
    exact (lowerHandlers_adds env path c c.handlers).still fun _ => .pure _
  | api a =>
    refine Adds.still ?_ fun _ => extend_adds fun _ => rfl
    exact (lowerMembers_adds env path a.name a.members).still fun _ => .pure _
  | page p =>
    rw [addDecl]
    exact extend_adds fun _ => rfl
  | property p =>
    rw [addDecl]
    exact extend_adds fun _ => rfl
  | func f =>
    rw [addDecl]
    exact extend_adds fun _ => rfl

theorem lowerDecl_adds (path : Path) (d : Source.Decl) :
    Adds (lowerDecl env path d) (declType? env d).toList := by
  have hdata : ∀ construct, Adds (do if ← supported env .data construct then addDecl env path d)
      (declType? env d).toList := fun construct => by
    rw [supported_data, pure_bind]
    exact addDecl_adds env path d
  have hother : declType? env d = none → ∀ category construct,
      Adds (do if ← supported env category construct then addDecl env path d)
        (declType? env d).toList := fun hnone category construct => by
    refine (supported_adds env category construct).still fun b => ?_
    cases b with
    | false =>
      rw [hnone]
      exact .pure _
    | true => exact addDecl_adds env path d
  cases d with
  | importFile i => exact .pure _
  | domain d => exact hdata _
  | table t => exact hdata _
  | entity e => exact hdata _
  | record r => exact hdata _
  | mapper m => exact hother rfl _ _
  | controller c => exact hother rfl _ _
  | api a => exact hother rfl _ _
  | page p => exact hother rfl _ _
  | property p => exact hother rfl _ _
  | func f => exact hother rfl _ _

theorem allDecls_adds (path : Path) : ∀ ds : List Source.Decl,
    Adds (allDecls env path ds) (ds.filterMap (declType? env))
  | [] => .pure _
  | d :: rest => by
    have h := (lowerDecl_adds env path d).bind fun _ => allDecls_adds path rest
    rw [List.filterMap_cons]
    cases ht : declType? env d with
    | none =>
      rw [ht] at h
      exact h
    | some t =>
      rw [ht] at h
      exact h

theorem allShapes_adds : ∀ shapes : List Source.ResultShape,
    Adds (allShapes env shapes) (shapes.map (lowerShape env))
  | [] => .pure _
  | shape :: rest => by
    rw [allShapes, supported_data, pure_bind]
    exact (addData_adds (lowerShape env shape)).bind fun _ => allShapes_adds rest

/-- Lowering takes up the data types of all documents in order. -/
theorem allDocuments_adds : ∀ ds : List Source.Document,
    Adds (allDocuments env ds) (ds.flatMap (documentTypes env))
  | [] => .pure _
  | d :: rest => by
    have h := (allDecls_adds env d.path d.decls).bind fun _ =>
      (allShapes_adds env d.shapes).bind fun _ => allDocuments_adds rest
    rw [← List.append_assoc] at h
    exact h

end

/-! ## Data types and declarations -/

/-- The kind of the data type that a declaration of this kind becomes. -/
def typeKind : SymbolKind → Model.DataKind
  | .domain => .domain
  | kind => dataKind kind

/-- The data type is that of the declaration. -/
structure Denotes (t : Model.DataType) (x : Declared) : Prop where
  name : t.name = x.name
  kind : t.kind = typeKind x.kind
  node : t.origin.node = x.node

end Lowering

namespace Session

def loweringEnv (s : Session) : Lowering.Env :=
  { symbols := s.symbols, imports := s.imports, platform := s.platform }

/-- The project's documents, as far as lowering does not pass them over. -/
def loweredDocuments (s : Session) : List Source.Document :=
  Lowering.unseenDocuments [] s.projectDocuments

/-- Lowering passes over nothing: no two declarations of a session have the same number. -/
theorem Worked.loweredDocuments {s : Session} (hs : s.Worked) :
    s.loweredDocuments = s.projectDocuments := by
  have hown : (s.projectDocuments.flatMap Lowering.ownNodes).Sublist
      (s.projectDocuments.flatMap Source.Document.nodes) :=
    .flatMap_right _ fun d _ => Lowering.ownNodes_sublist d
  have hproject : (s.projectDocuments.flatMap Source.Document.nodes).Sublist
      (s.imports.documents.flatMap Source.Document.nodes) := List.filter_sublist.flatMap _
  exact Lowering.unseenDocuments_eq_self
    (hs.numbered.2.nodup.sublist (hown.trans hproject))

theorem lower_eq (s : Session) :
    let r := (Lowering.allDocuments s.loweringEnv s.loweredDocuments).run
      { diagnostics := s.diagnostics }
    s.lower = (r.1.map fun _ => r.2.model, { s with diagnostics := r.2.diagnostics }) := by
  have hall := Lowering.lowerDocuments_eq s.loweringEnv [] s.projectDocuments
  dsimp only [loweredDocuments]
  rw [← hall]
  rfl

theorem Worked.lower_eq {s : Session} (hs : s.Worked) :
    let r := (Lowering.allDocuments s.loweringEnv s.projectDocuments).run
      { diagnostics := s.diagnostics }
    s.lower = (r.1.map fun _ => r.2.model, { s with diagnostics := r.2.diagnostics }) :=
  hs.loweredDocuments ▸ Session.lower_eq s

/-- Lowering stops for errors only. -/
theorem lower_severe {s : Session} {e : CompileError} (h : s.lower.1 = .error e) :
    e.severity = .error := by
  have hlower := s.lower_eq
  dsimp only at hlower
  rw [hlower] at h
  rcases hrun : (Lowering.allDocuments s.loweringEnv s.loweredDocuments).run
    { diagnostics := s.diagnostics } with ⟨e' | _, final⟩
  · rw [hrun] at h
    cases h
    exact (Lowering.allDocuments_adds _ _).error _ _ _ hrun
  · rw [hrun] at h
    cases h

end Session

end Scaffold
