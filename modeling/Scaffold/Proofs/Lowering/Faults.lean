import Scaffold.Proofs.Lowering.Routes

/-!
# Faults of routes

A handler whose path has a placeholder that is none of its parameters answers nothing. Lowering
looks at a handler for its controller and for every client that refers to it, and remembers by
number which handlers it has reported, so it reports each of them once.

* `Visit` is what lowering looks at, and `visitsOf` lists that for documents. A step that `Visits`
  some things looks at them until an address is taken twice, and reports nothing else about
  parameters.
* `foldl_visit`: of the handlers with one number only the first is reported.
* `Session.lower_route_faults`: what lowering reports about parameters, whatever the session did
  before, and that a handler it reports is in no service and in no client.
-/

namespace Scaffold

namespace Lowering

/-! ## Handlers that answer nothing -/

namespace Handler

variable {h : Handler} {name : String}

/-- The annotations of a handler give it a method and a path, and `name` is the first placeholder of
the path that is none of its parameters. -/
structure Lacks (h : Handler) (name : String) : Prop where
  named : ∃ text method, h.func.header.annotations.text? "method" = some text ∧
    HttpMethod.ofText? text = some method
  placed : ∃ route before after, h.func.header.annotations.text? "route" = some route ∧
    Url.placeholders (Url.join ((h.controller.header.annotations.text? "baseUrl").getD "") route)
      = before ++ name :: after ∧ ∀ n ∈ before, ∃ p ∈ h.func.params, p.name = n
  unbound : ∀ p ∈ h.func.params, p.name ≠ name

/-- The first placeholder of a handler's path that is none of its parameters. -/
def missing? (h : Handler) : Option String :=
  (handlerAddress? h.controller h.func).bind fun a =>
    (Url.placeholders a.2).find? fun name => !h.func.params.any (·.name == name)

theorem missing?_eq_some : h.missing? = some name ↔ h.Lacks name := by
  have hbound : ∀ names : List String,
      (names.find? fun name => !h.func.params.any (·.name == name)) = some name ↔
        (∃ before after, names = before ++ name :: after ∧
          ∀ n ∈ before, ∃ p ∈ h.func.params, p.name = n) ∧ ∀ p ∈ h.func.params, p.name ≠ name := by
    intro names
    simp only [List.find?_eq_some_iff_append, Bool.not_eq_true', List.any_eq_false, beq_iff_eq,
      Bool.not_not, List.any_eq_true]
    constructor
    · rintro ⟨hnone, before, after, rfl, hbefore⟩
      exact ⟨⟨before, after, rfl, hbefore⟩, hnone⟩
    · rintro ⟨⟨before, after, rfl, hbefore⟩, hnone⟩
      exact ⟨hnone, before, after, rfl, hbefore⟩
  rw [missing?, Option.bind_eq_some_iff]
  constructor
  · rintro ⟨⟨method, path⟩, ha, hname⟩
    obtain ⟨⟨text, htext, hmethod⟩, route, hroute, hpath⟩ := handlerAddress?_eq_some.1 ha
    dsimp only at hname
    rw [hpath, hbound] at hname
    obtain ⟨⟨before, after, hnames, hbefore⟩, hnone⟩ := hname
    exact ⟨⟨text, method, htext, hmethod⟩, ⟨route, before, after, hroute, hnames, hbefore⟩, hnone⟩
  · rintro ⟨⟨text, method, htext, hmethod⟩, ⟨route, before, after, hroute, hnames, hbefore⟩, hnone⟩
    have ha := (handlerAddress?_eq_some (c := h.controller)).2
      ⟨⟨text, htext, hmethod⟩, route, hroute, rfl⟩
    refine ⟨_, ha, ?_⟩
    dsimp only
    rw [hbound]
    exact ⟨⟨before, after, hnames, hbefore⟩, hnone⟩

/-- What is reported of a handler. -/
def unbound (h : Handler) (name : String) : CompileError :=
  .fault h.path h.func.header.pos
    (.unboundParameter s!"{h.controller.name}.{h.func.name}" name)

def id (h : Handler) : NodeId :=
  h.func.header.id

/-- A handler that lacks a parameter answers nothing. -/
theorem spec?_of_missing (env : Env) (hm : h.missing? = some name) :
    spec? env h.controller h.func = none := by
  unfold missing? at hm
  unfold spec?
  cases ha : handlerAddress? h.controller h.func with
  | none => rfl
  | some a =>
    rw [ha] at hm
    dsimp only [Option.bind_some] at hm ⊢
    rw [if_neg]
    rw [← find?_missing, hm]
    exact nofun

end Handler

/-! ## What lowering looks at -/

/-- A query of a mapper, with its file. -/
structure MapperQuery where
  path : Path
  mapper : String
  query : Source.Query

/-- What is reported of a query with a parameter that is not declared. -/
def MapperQuery.fault? (q : MapperQuery) : Option Diagnostic :=
  ((Sql.parameters q.query.sql).find? fun name => !q.query.params.any (·.name == name)).map
    fun name => (CompileError.fault q.path q.query.sqlPos
      (.unboundParameter s!"{q.mapper}.{q.query.name}" name)).toDiagnostic

/-- What lowering looks at. A handler of a controller then takes its address, if it has one. -/
inductive Visit where
  | query (q : MapperQuery)
  | handler (h : Handler)
  | take (h : Handler)

/-- The handlers that take their address. -/
def takersOf : List Visit → List Handler
  | [] => []
  | .take h :: rest => h :: takersOf rest
  | .query _ :: rest => takersOf rest
  | .handler _ :: rest => takersOf rest

theorem takersOf_append (vs vs' : List Visit) :
    takersOf (vs ++ vs') = takersOf vs ++ takersOf vs' := by
  induction vs with
  | nil => rfl
  | cons v rest ih =>
    cases v with
    | take h => exact congrArg (h :: ·) ih
    | query q => exact ih
    | handler h => exact ih

/-- What is looked at until an address is taken twice. -/
def untilRepeated (taken : List (HttpMethod × String)) : List Visit → List Visit
  | [] => []
  | .take h :: rest =>
    match h.address? with
    | none => .take h :: untilRepeated taken rest
    | some a =>
      if taken.contains a then [] else .take h :: untilRepeated (taken ++ [a]) rest
  | v :: rest => v :: untilRepeated taken rest

/-- The problem is that a parameter is not declared. -/
def isUnbound (d : Diagnostic) : Bool :=
  d.code == .unboundParameter

/-- What has been reported about parameters: of which handlers, and which problems. -/
structure Reported where
  ids : List NodeId
  problems : Diagnostics

/-- What a state has reported about parameters. -/
def State.unbound (s : State) : Reported :=
  ⟨s.reported, s.diagnostics.filter isUnbound⟩

/-- Looks at something. -/
def Reported.visit (r : Reported) : Visit → Reported
  | .query q => { r with problems := r.problems ++ q.fault?.toList }
  | .handler h =>
    match h.missing? with
    | none => r
    | some name =>
      if r.ids.contains h.id then r
      else ⟨r.ids ++ [h.id], r.problems ++ [(h.unbound name).toDiagnostic]⟩
  | .take _ => r

section

variable {taken : List (HttpMethod × String)} {vs vs' : List Visit}

/-- All is looked at if no address is taken twice. -/
theorem untilRepeated_append (h : repeated? taken (takersOf vs) = none) :
    untilRepeated taken (vs ++ vs') = vs ++ untilRepeated
      (taken ++ (takersOf vs).filterMap Handler.address?) vs' := by
  induction vs generalizing taken with
  | nil => rw [takersOf, List.filterMap_nil, List.append_nil, List.nil_append, List.nil_append]
  | cons v rest ih =>
    cases v with
    | query q => exact congrArg (Visit.query q :: ·) (ih h)
    | handler x => exact congrArg (Visit.handler x :: ·) (ih h)
    | take x =>
      rw [takersOf, repeated?] at h
      rw [List.cons_append, untilRepeated, takersOf, List.filterMap_cons]
      cases ha : x.address? with
      | none =>
        rw [ha] at h
        exact congrArg (Visit.take x :: ·) (ih h)
      | some a =>
        rw [ha] at h
        dsimp only at h ⊢
        split at h
        · cases h
        · rename_i hnew
          rw [if_neg hnew, ih h, List.append_assoc]
          rfl

theorem untilRepeated_of_none (h : repeated? taken (takersOf vs) = none) :
    untilRepeated taken vs = vs := by
  have hall : untilRepeated taken (vs ++ []) = vs ++ untilRepeated _ [] := untilRepeated_append h
  rwa [List.append_nil, untilRepeated, List.append_nil] at hall

/-- Nothing is looked at behind the first address that is taken twice. -/
theorem untilRepeated_append_of_some {found : Handler × (HttpMethod × String)}
    (h : repeated? taken (takersOf vs) = some found) :
    untilRepeated taken (vs ++ vs') = untilRepeated taken vs := by
  induction vs generalizing taken with
  | nil => cases h
  | cons v rest ih =>
    cases v with
    | query q => exact congrArg (Visit.query q :: ·) (ih h)
    | handler x => exact congrArg (Visit.handler x :: ·) (ih h)
    | take x =>
      rw [takersOf, repeated?] at h
      rw [List.cons_append, untilRepeated, untilRepeated]
      cases ha : x.address? with
      | none =>
        rw [ha] at h
        exact congrArg (Visit.take x :: ·) (ih h)
      | some a =>
        rw [ha] at h
        dsimp only at h ⊢
        split at h
        · rename_i htaken
          rw [if_pos htaken, if_pos htaken]
        · rename_i hnew
          rw [if_neg hnew, if_neg hnew, ih h]

theorem untilRepeated_prefix : untilRepeated taken vs <+: vs := by
  induction vs generalizing taken with
  | nil => exact List.prefix_refl _
  | cons v rest ih =>
    cases v with
    | query q => exact (List.prefix_cons_inj _).2 ih
    | handler h => exact (List.prefix_cons_inj _).2 ih
    | take h =>
      rw [untilRepeated]
      split
      · exact (List.prefix_cons_inj _).2 ih
      · split
        · exact List.nil_prefix
        · exact (List.prefix_cons_inj _).2 ih

end

theorem run_get_bind {β : Type} (f : State → Lower β) (s : State) :
    (get >>= f).run s = (f s).run s := rfl

/-- A step looks at these things, until an address is taken twice, and reports nothing else about
parameters. -/
structure Visits {α : Type} (m : Lower α) (vs : List Visit) : Prop where
  takes : Takes m (takersOf vs)
  grows : ∀ s, s.diagnostics <+: (m.run s).2.diagnostics
  reports : ∀ s, (m.run s).2.unbound
    = (untilRepeated s.routes vs).foldl Reported.visit s.unbound

namespace Visits

variable {α β : Type} {m : Lower α} {f : α → Lower β} {a : α} {vs vs' : List Visit}
  {added : CodeModel} {omitted : Diagnostics}

theorem pure (a : α) : Visits (Pure.pure a) [] :=
  ⟨.pure a, fun _ => List.prefix_refl _, fun _ => rfl⟩

/-- The model changes. -/
theorem extend (f : CodeModel → CodeModel) : Visits (extend f) [] :=
  ⟨.modify fun _ => rfl, fun _ => List.prefix_refl _, fun _ => rfl⟩

/-- Something else is reported. -/
theorem report {e : CompileError} (he : isUnbound e.toDiagnostic = false) :
    Visits (report e) [] := by
  refine ⟨.report e, fun s => List.prefix_append _ _, fun s => ?_⟩
  have hsame : (s.diagnostics ++ [e.toDiagnostic]).filter isUnbound
      = s.diagnostics.filter isUnbound := by
    rw [List.filter_append, List.filter_cons, he]
    exact List.append_nil _
  exact congrArg (Reported.mk s.reported) hsame

/-- What is looked at gives no reason for a report. -/
theorem quiet {v : Visit} (hm : Visits m []) (htake : ∀ h, v ≠ .take h)
    (hvisit : ∀ r : Reported, r.visit v = r) : Visits m [v] where
  takes := by
    cases v with
    | take h => exact absurd rfl (htake h)
    | query q => exact hm.takes
    | handler h => exact hm.takes
  grows := hm.grows
  reports s := by
    have hvisits : untilRepeated s.routes [v] = [v] := by
      cases v with
      | take h => exact absurd rfl (htake h)
      | query q => rfl
      | handler h => rfl
    rw [hvisits, List.foldl_cons, hvisit]
    exact hm.reports s

/-- The second step may rely on what the first one gives. -/
theorem bind' (hm : Visits m vs) (hf : ∀ s a s', m.run s = (.ok a, s') → Visits (f a) vs') :
    Visits (m >>= f) (vs ++ vs') where
  takes := by
    rw [takersOf_append]
    exact hm.takes.bind' fun s a s' hrun => (hf s a s' hrun).takes
  grows s := by
    have hfirst := hm.grows s
    rw [run_bind]
    rcases hrun : m.run s with ⟨e | a, s'⟩
    · rwa [hrun] at hfirst
    · rw [hrun] at hfirst
      exact hfirst.trans ((hf s a s' hrun).grows s')
  reports s := by
    have hfirst := hm.takes s
    have hreports := hm.reports s
    rw [run_bind]
    cases hrepeated : repeated? s.routes (takersOf vs) with
    | some found =>
      rw [hrepeated] at hfirst
      obtain ⟨s', hrun⟩ := hfirst
      rw [hrun] at hreports ⊢
      rw [untilRepeated_append_of_some hrepeated]
      exact hreports
    | none =>
      rw [hrepeated] at hfirst
      obtain ⟨a, s', hrun, hroutes⟩ := hfirst
      have hsecond := (hf s a s' hrun).reports s'
      rw [hrun, untilRepeated_of_none hrepeated] at hreports
      rw [hrun, untilRepeated_append hrepeated, List.foldl_append, ← hroutes, ← hreports]
      exact hsecond

theorem bind (hm : Visits m vs) (hf : ∀ a, Visits (f a) vs') : Visits (m >>= f) (vs ++ vs') :=
  hm.bind' fun _ a _ _ => hf a

/-- The value of the first step is known. -/
theorem value (hm : Visits m vs) (hvalue : Makes m a added omitted) (hf : Visits (f a) vs') :
    Visits (m >>= f) (vs ++ vs') :=
  hm.bind' fun s x s' hrun => by
    obtain ⟨rfl, -⟩ := hvalue s x s' hrun
    exact hf

/-- The first step looks at nothing. -/
theorem still (hm : Visits m []) (hf : ∀ a, Visits (f a) vs) : Visits (m >>= f) vs :=
  hm.bind hf

/-- The second step looks at nothing. -/
theorem thenStill (hm : Visits m vs) (hf : ∀ a, Visits (f a) []) : Visits (m >>= f) vs := by
  have h := hm.bind hf
  rwa [List.append_nil] at h

theorem forIn {g : α → β → Lower (ForInStep β)} (h : ∀ a b, Visits (g a b) []) :
    ∀ (as : List α) (b : β), Visits (forIn as b g) []
  | [], b => pure b
  | a :: as, b => by
    rw [List.forIn_cons]
    refine (h a b).still fun step => ?_
    cases step with
    | done b => exact pure b
    | yield b => exact forIn h as b

end Visits

section

variable (env : Env) (path : Path)

theorem lowerQuery_visits (mapper : String) (q : Source.Query) :
    Visits (lowerQuery env path mapper q) [.query ⟨path, mapper, q⟩] := by
  unfold lowerQuery
  dsimp only
  split
  · rename_i name hname
    refine Visits.thenStill ⟨.report _, fun s => List.prefix_append _ _, fun s => ?_⟩
      fun _ => .pure _
    rw [untilRepeated, untilRepeated, List.foldl_cons, List.foldl_nil, Reported.visit,
      MapperQuery.fault?, hname]
    · exact congrArg (Reported.mk s.reported) (List.filter_append _ _)
    all_goals nofun
  · rename_i hnone
    refine Visits.quiet ?_ nofun fun r => ?_
    · refine (Visits.forIn (fun p _ => ?_) _ _).still fun _ => .pure _
      split
      · exact (Visits.report rfl).still fun _ => .pure _
      · exact .pure _
    · rw [Reported.visit, MapperQuery.fault?, hnone]
      exact congrArg (Reported.mk r.ids) (List.append_nil _)

theorem lowerQueries_visits (mapper : String) : ∀ qs : List Source.Query,
    Visits (lowerQueries env path mapper qs) (qs.map fun q => .query ⟨path, mapper, q⟩)
  | [] => .pure _
  | q :: rest => (lowerQuery_visits env path mapper q).bind fun _ =>
    (lowerQueries_visits mapper rest).thenStill fun _ => .pure _

theorem routeSpec_visits (c : Source.Controller) (f : Source.Func) :
    Visits (routeSpec env path c f) [.handler ⟨path, c, f⟩] where
  takes := routeSpec_takes env path c f
  grows s := by
    unfold routeSpec
    split
    · exact List.prefix_refl _
    · dsimp only
      split
      · rw [run_get_bind]
        split
        · exact List.prefix_append _ _
        · exact List.prefix_refl _
      · exact List.prefix_refl _
  reports s := by
    have hvisit : (untilRepeated s.routes [.handler ⟨path, c, f⟩]).foldl Reported.visit s.unbound
        = s.unbound.visit (.handler ⟨path, c, f⟩) := rfl
    rw [hvisit, Reported.visit, Handler.missing?]
    unfold routeSpec
    cases handlerAddress? c f with
    | none => rfl
    | some a =>
      dsimp only [Option.bind_some]
      split
      · rename_i name hname
        rw [hname, run_get_bind]
        dsimp only
        by_cases hid : s.reported.contains f.header.id = true
        · have hid' : s.unbound.ids.contains (Handler.id ⟨path, c, f⟩) = true := hid
          rw [if_pos hid', hid]
          rfl
        · have hid' : ¬ s.unbound.ids.contains (Handler.id ⟨path, c, f⟩) = true := hid
          rw [if_neg hid', Bool.eq_false_iff.2 hid]
          exact congrArg (Reported.mk (s.reported ++ [f.header.id])) (List.filter_append _ _)
      · rename_i hnone
        rw [hnone]
        rfl

/-- A handler that answers nothing takes nothing. -/
theorem visits_skip {α : Type} {h : Handler} {vs : List Visit} {next : Lower α}
    (ha : h.address? = none) (hnext : Visits next vs) : Visits next (.take h :: vs) where
  takes := takes_skip ha hnext.takes
  grows := hnext.grows
  reports s := by
    rw [untilRepeated, ha]
    exact hnext.reports s

/-- A handler takes its address, unless it is taken. -/
theorem visits_take {α : Type} {h : Handler} {a : HttpMethod × String} {vs : List Visit}
    {next : Lower α} (ha : h.address? = some a) (hnext : Visits next vs) :
    Visits (do
      if (← get).routes.contains a then throw (h.duplicate a)
      modify fun s => { s with routes := s.routes ++ [a] }
      next) (.take h :: vs) where
  takes := takes_cons ha hnext.takes
  grows s := by
    rw [run_get_bind]
    split
    · exact List.prefix_refl _
    · exact hnext.grows { s with routes := s.routes ++ [a] }
  reports s := by
    rw [untilRepeated, ha]
    dsimp only
    rw [run_get_bind]
    by_cases hmem : s.routes.contains a = true
    · rw [if_pos hmem, if_pos hmem]
      rfl
    · rw [if_neg hmem, if_neg hmem]
      exact hnext.reports { s with routes := s.routes ++ [a] }

/-- What is looked at for a handler of a controller. -/
def routeVisits (path : Path) (c : Source.Controller) (f : Source.Func) : List Visit :=
  [.handler ⟨path, c, f⟩, .take ⟨path, c, f⟩]

theorem lowerHandlers_visits (c : Source.Controller) : ∀ fs : List Source.Func,
    Visits (lowerHandlers env path c fs) (fs.flatMap (routeVisits path c))
  | [] => .pure _
  | f :: rest => by
    refine (routeSpec_visits env path c f).value (routeSpec_makes env path c f) ?_
    have ha := Handler.address?_eq_spec env ⟨path, c, f⟩
    cases hspec : spec? env c f with
    | none =>
      rw [hspec] at ha
      exact visits_skip ha (lowerHandlers_visits c rest)
    | some spec =>
      rw [hspec] at ha
      exact visits_take ha ((lowerHandlers_visits c rest).thenStill fun _ => .pure _)

theorem lowerCalls_visits (c : Source.Controller) : ∀ fs : List Source.Func,
    Visits (lowerCalls env path c fs) (fs.map fun f => .handler ⟨path, c, f⟩)
  | [] => .pure _
  | f :: rest => by
    refine (routeSpec_visits env path c f).bind fun spec => ?_
    split
    · exact lowerCalls_visits c rest
    · exact (lowerCalls_visits c rest).thenStill fun _ => .pure _

/-- The handlers that a member of a client refers to. -/
def memberRefs (env : Env) (m : Source.ApiMember) : List Handler :=
  match memberController? env m with
  | none => []
  | some (d, c) => (memberHandlers m c).map (Handler.mk d.path c)

theorem lowerMember_visits (api : String) (m : Source.ApiMember) :
    Visits (lowerMember env path api m) ((memberRefs env m).map .handler) := by
  unfold lowerMember memberRefs memberHandlers
  cases memberController? env m with
  | none => exact .pure _
  | some found =>
    obtain ⟨d, c⟩ := found
    dsimp only
    rw [List.map_map]
    cases m.handler with
    | none => exact lowerCalls_visits env _ c _
    | some name =>
      dsimp only
      cases c.handlers.find? (·.name == name) with
      | some f => exact lowerCalls_visits env _ c [f]
      | none => exact (Visits.report rfl).still fun _ => .pure _

def refsOf (env : Env) (a : Source.Api) : List Handler :=
  a.members.flatMap (memberRefs env)

theorem lowerMembers_visits (api : String) : ∀ ms : List Source.ApiMember,
    Visits (lowerMembers env path api ms) ((ms.flatMap (memberRefs env)).map .handler)
  | [] => .pure _
  | m :: rest => by
    rw [List.flatMap_cons, List.map_append]
    exact (lowerMember_visits env path api m).bind fun _ =>
      (lowerMembers_visits api rest).thenStill fun _ => .pure _

theorem supported_visits (category : Category) (construct : String) :
    Visits (supported env category construct) [] := by
  unfold supported
  split
  · exact .pure _
  · split
    · exact .pure _
    · exact (Visits.report rfl).still fun _ => .pure _

/-! ## Documents -/

/-- What is looked at for a declaration that the target expresses. -/
def declVisits (env : Env) (path : Path) : Source.Decl → List Visit
  | .mapper m => m.queries.map fun q => .query ⟨path, m.name, q⟩
  | .controller c => c.handlers.flatMap (routeVisits path c)
  | .api a => (refsOf env a).map .handler
  | _ => []

def Env.visits (env : Env) (path : Path) (d : Source.Decl) : List Visit :=
  if (category? d).all env.expresses then declVisits env path d else []

def visitsOf (env : Env) (ds : List Source.Document) : List Visit :=
  ds.flatMap fun d => d.decls.flatMap (env.visits d.path)

theorem addDecl_visits (d : Source.Decl) :
    Visits (addDecl env path d) (declVisits env path d) := by
  cases d with
  | importFile i => exact .pure _
  | domain d =>
    rw [addDecl, addData]
    exact Visits.extend _
  | table t =>
    rw [addDecl, addData]
    exact Visits.extend _
  | entity e =>
    rw [addDecl, addData]
    exact Visits.extend _
  | record r =>
    rw [addDecl, addData]
    exact Visits.extend _
  | mapper m =>
    refine Visits.thenStill ?_ fun _ => Visits.extend _
    exact (lowerQueries_visits env path m.name m.queries).thenStill fun _ => .pure _
  | controller c =>
    refine Visits.thenStill ?_ fun _ => Visits.extend _
    exact (lowerHandlers_visits env path c c.handlers).thenStill fun _ => .pure _
  | api a =>
    refine Visits.thenStill ?_ fun _ => Visits.extend _
    exact (lowerMembers_visits env path a.name a.members).thenStill fun _ => .pure _
  | page p =>
    rw [addDecl]
    exact Visits.extend _
  | property p =>
    rw [addDecl]
    exact Visits.extend _
  | func f =>
    rw [addDecl]
    exact Visits.extend _

theorem lowerDecl_visits (d : Source.Decl) :
    Visits (lowerDecl env path d) (env.visits path d) := by
  unfold lowerDecl Env.visits
  cases hcategory : category? d with
  | none =>
    cases d with
    | importFile i => exact .pure _
    | _ => cases hcategory
  | some category =>
    dsimp only [Option.all_some]
    have hadd : Visits (if env.expresses category = true then addDecl env path d else Pure.pure ())
        (if env.expresses category = true then declVisits env path d else []) := by
      split
      · exact addDecl_visits env path d
      · exact .pure _
    exact (supported_visits env category _).value (supported_makes env category _) hadd

theorem allDecls_visits : ∀ ds : List Source.Decl,
    Visits (allDecls env path ds) (ds.flatMap (env.visits path))
  | [] => .pure _
  | d :: rest => (lowerDecl_visits env path d).bind fun _ => allDecls_visits rest

theorem allShapes_visits : ∀ shapes : List Source.ResultShape, Visits (allShapes env shapes) []
  | [] => .pure _
  | shape :: rest => by
    rw [allShapes, supported_data, pure_bind]
    exact Visits.still (.extend _) fun _ => allShapes_visits rest

/-- Lowering looks at the queries, handlers and addresses of all documents in order. -/
theorem allDocuments_visits : ∀ ds : List Source.Document,
    Visits (allDocuments env ds) (visitsOf env ds)
  | [] => .pure _
  | d :: rest => (allDecls_visits env d.path d.decls).bind fun _ =>
    (allShapes_visits env d.shapes).still fun _ => allDocuments_visits rest

end

/-! ## Once for each handler -/

/-- The fault of the query that is looked at. -/
def Visit.queryFault? : Visit → Option Diagnostic
  | .query q => q.fault?
  | _ => none

/-- Looking at these things reports the faults of the queries, and these handlers: for each number
of a faulty handler that was not reported before, the first handler with this number. -/
structure Once (vs : List Visit) (r r' : Reported) (faulty : List (Handler × String)) : Prop where
  ids : r'.ids = r.ids ++ faulty.map (·.1.id)
  nodup : (faulty.map (·.1.id)).Nodup
  sound : ∀ x ∈ faulty, .handler x.1 ∈ vs ∧ x.1.missing? = some x.2 ∧ x.1.id ∉ r.ids
  whole : ∀ h name, .handler h ∈ vs → h.missing? = some name → h.id ∈ r'.ids
  problems : r'.problems.Perm (r.problems ++ (vs.filterMap Visit.queryFault? ++
    faulty.map fun x => (x.1.unbound x.2).toDiagnostic))

section

variable {vs : List Visit} {r r' : Reported} {faulty : List (Handler × String)} {h : Handler}
  {name : String}

/-- Something is looked at in front of which no new handler is reported. -/
theorem Once.skip {v : Visit} (h : Once vs (r.visit v) r' faulty) (hids : (r.visit v).ids = r.ids)
    (hproblems : (r.visit v).problems = r.problems ++ v.queryFault?.toList)
    (hv : ∀ h name, v = .handler h → h.missing? = some name → h.id ∈ r.ids) :
    Once (v :: vs) r r' faulty where
  ids := by rw [h.ids, hids]
  nodup := h.nodup
  sound x hx := by
    obtain ⟨hmem, hname, hnew⟩ := h.sound x hx
    exact ⟨List.mem_cons_of_mem _ hmem, hname, hids ▸ hnew⟩
  whole x name hx hname := by
    obtain hx | hx := List.mem_cons.1 hx
    · rw [h.ids, hids]
      exact List.mem_append_left _ (hv x name hx.symm hname)
    · exact h.whole x name hx hname
  problems := by
    have hperm := h.problems
    rw [hproblems, List.append_assoc, ← List.append_assoc v.queryFault?.toList] at hperm
    rw [List.filterMap_cons]
    cases hfault : v.queryFault? with
    | none => rwa [hfault] at hperm
    | some d => rwa [hfault] at hperm

/-- A handler is looked at that lacks nothing or whose number has been reported. -/
theorem Once.known (hvisit : r.visit (.handler h) = r)
    (hknown : ∀ name, h.missing? = some name → h.id ∈ r.ids)
    (hrest : Once vs (r.visit (.handler h)) r' faulty) : Once (.handler h :: vs) r r' faulty := by
  refine hrest.skip (by rw [hvisit]) ?_ fun x name hx hname => ?_
  · rw [hvisit]
    exact (List.append_nil _).symm
  · cases hx
    exact hknown name hname

/-- A handler is reported. -/
theorem Once.fault (h : Handler) (hname : h.missing? = some name) (hnew : h.id ∉ r.ids)
    (hrest : Once vs ⟨r.ids ++ [h.id], r.problems ++ [(h.unbound name).toDiagnostic]⟩ r' faulty) :
    Once (.handler h :: vs) r r' ((h, name) :: faulty) where
  ids := by
    rw [hrest.ids, List.append_assoc]
    rfl
  nodup := by
    refine List.nodup_cons.2 ⟨fun hmem => ?_, hrest.nodup⟩
    obtain ⟨x, hx, hid⟩ := List.mem_map.1 hmem
    exact (hrest.sound x hx).2.2 (hid ▸ List.mem_append_right _ (List.mem_singleton_self _))
  sound x hx := by
    obtain rfl | hx := List.mem_cons.1 hx
    · exact ⟨List.mem_cons_self, hname, hnew⟩
    · obtain ⟨hmem, hname', hnew'⟩ := hrest.sound x hx
      exact ⟨List.mem_cons_of_mem _ hmem, hname', fun hin => hnew' (List.mem_append_left _ hin)⟩
  whole x name' hx hname' := by
    obtain hx | hx := List.mem_cons.1 hx
    · cases hx
      rw [hrest.ids]
      exact List.mem_append_left _ (List.mem_append_right _ (List.mem_singleton_self _))
    · exact hrest.whole x name' hx hname'
  problems := by
    refine hrest.problems.trans ?_
    rw [List.append_assoc, List.singleton_append, List.map_cons, List.filterMap_cons_none rfl]
    exact List.perm_middle.symm.append_left _

end

/-- Looking at things reports each faulty handler once. -/
theorem foldl_visit (vs : List Visit) (r : Reported) :
    ∃ faulty, Once vs r (vs.foldl Reported.visit r) faulty := by
  induction vs generalizing r with
  | nil => exact ⟨[], (List.append_nil _).symm, .nil, nofun, nofun, by simp⟩
  | cons v rest ih =>
    obtain ⟨faulty, hrest⟩ := ih (r.visit v)
    cases v with
    | take h => exact ⟨faulty, hrest.skip rfl (List.append_nil _).symm nofun⟩
    | query q => exact ⟨faulty, hrest.skip rfl rfl nofun⟩
    | handler h =>
      rw [List.foldl_cons]
      cases hmissing : h.missing? with
      | none =>
        have hvisit : r.visit (.handler h) = r := by rw [Reported.visit, hmissing]
        exact ⟨faulty, hrest.known hvisit fun name hname => nomatch hmissing.symm.trans hname⟩
      | some name =>
        by_cases hid : h.id ∈ r.ids
        · have hvisit : r.visit (.handler h) = r := by
            rw [Reported.visit, hmissing]
            exact if_pos (List.contains_iff_mem.2 hid)
          exact ⟨faulty, hrest.known hvisit fun _ _ => hid⟩
        · have hvisit : r.visit (.handler h)
              = ⟨r.ids ++ [h.id], r.problems ++ [(h.unbound name).toDiagnostic]⟩ := by
            rw [Reported.visit, hmissing]
            exact if_neg (mt List.contains_iff_mem.1 hid)
          rw [hvisit] at hrest ⊢
          exact ⟨(h, name) :: faulty, hrest.fault h hmissing hid⟩

/-! ## Which handlers are looked at -/

/-- The handlers that clients refer to, if the target expresses clients. -/
def Env.referred (env : Env) (ds : List Source.Document) : List Handler :=
  if env.expresses .api then ds.flatMap fun d => d.apis.flatMap (refsOf env) else []

section

variable {env : Env} {ds : List Source.Document} {h : Handler}

theorem mem_takers : h ∈ env.takers (handlersOf ds) ↔ env.expresses .controller = true ∧
    ∃ d ∈ ds, ∃ c, .controller c ∈ d.decls ∧ ∃ f ∈ c.handlers, h = ⟨d.path, c, f⟩ := by
  unfold Env.takers handlersOf
  cases env.expresses .controller with
  | false => simp
  | true => simp [Source.Document.mem_controllers, eq_comm]

theorem mem_referred : h ∈ env.referred ds ↔ env.expresses .api = true ∧
    ∃ d ∈ ds, ∃ a, .api a ∈ d.decls ∧ h ∈ refsOf env a := by
  unfold Env.referred
  cases env.expresses .api with
  | false => simp
  | true => simp [Source.Document.mem_apis]

theorem handler_mem_declVisits {path : Path} {x : Source.Decl} :
    .handler h ∈ env.visits path x ↔
      (env.expresses .controller = true ∧ ∃ c, x = .controller c ∧
        ∃ f ∈ c.handlers, h = ⟨path, c, f⟩) ∨
      (env.expresses .api = true ∧ ∃ a, x = .api a ∧ h ∈ refsOf env a) := by
  unfold Env.visits
  cases x with
  | controller c =>
    rw [category?, Option.all_some]
    cases env.expresses .controller with
    | false => simp
    | true => simp [declVisits, routeVisits]
  | api a =>
    rw [category?, Option.all_some]
    cases env.expresses .api with
    | false => simp
    | true => simp [declVisits]
  | mapper m =>
    rw [category?, Option.all_some]
    cases env.expresses .mapper with
    | false => simp
    | true => simp [declVisits]
  | _ => simp [declVisits]

/-- A handler is looked at if the target expresses controllers and it is one of theirs, or if the
target expresses clients and one of them refers to it. -/
theorem handler_mem_visitsOf :
    .handler h ∈ visitsOf env ds ↔ h ∈ env.takers (handlersOf ds) ∨ h ∈ env.referred ds := by
  rw [mem_takers, mem_referred]
  simp only [visitsOf, List.mem_flatMap, handler_mem_declVisits]
  constructor
  · rintro ⟨d, hd, x, hx, ⟨he, c, rfl, hf⟩ | ⟨he, a, rfl, ha⟩⟩
    · exact .inl ⟨he, d, hd, c, hx, hf⟩
    · exact .inr ⟨he, d, hd, a, hx, ha⟩
  · rintro (⟨he, d, hd, c, hx, hf⟩ | ⟨he, d, hd, a, hx, ha⟩)
    · exact ⟨d, hd, _, hx, .inl ⟨he, c, rfl, hf⟩⟩
    · exact ⟨d, hd, _, hx, .inr ⟨he, a, rfl, ha⟩⟩

end

/-- The handler stands in one of the documents. -/
def Handler.Stands (ds : List Source.Document) (h : Handler) : Prop :=
  ∃ d ∈ ds, h.path = d.path ∧ .controller h.controller ∈ d.decls ∧ h.func ∈ h.controller.handlers

/-- In documents whose numbers are distinct, a handler is known by its number. -/
theorem Handler.Stands.eq {ds : List Source.Document}
    (hnodup : (ds.flatMap Source.Document.nodes).Nodup) {h h' : Handler} (hs : h.Stands ds)
    (hs' : h'.Stands ds) (hid : h.id = h'.id) : h = h' := by
  obtain ⟨d, hd, hpath, hc, hf⟩ := hs
  obtain ⟨d', hd', hpath', hc', hf'⟩ := hs'
  have hdecl : ∀ {x : Handler}, x.func ∈ x.controller.handlers →
      x.id ∈ (Source.Decl.controller x.controller).nodes := fun hx =>
    List.mem_cons_of_mem _ (List.mem_map_of_mem (f := (·.header.id)) hx)
  have hdocument : ∀ {x : Handler} {d : Source.Document}, .controller x.controller ∈ d.decls →
      x.func ∈ x.controller.handlers → x.id ∈ d.nodes := fun hx hf =>
    List.mem_append_left _ (List.mem_flatMap.2 ⟨_, hx, hdecl hf⟩)
  obtain rfl : d = d' :=
    eq_of_nodup_flatMap hnodup hd hd' (hdocument hc hf) (hid ▸ hdocument hc' hf')
  have hdecls : (d.decls.flatMap Source.Decl.nodes).Nodup :=
    ((List.nodup_flatMap.1 hnodup).1 d hd).sublist (List.sublist_append_left _ _)
  have hcontroller : h.controller = h'.controller :=
    Source.Decl.controller.inj (eq_of_nodup_flatMap hdecls hc hc' (hdecl hf) (hid ▸ hdecl hf'))
  have hhandlers : (h.controller.handlers.map (·.header.id)).Nodup :=
    (List.nodup_cons.1 ((List.nodup_flatMap.1 hdecls).1 _ hc)).2
  have hfunc : h.func = h'.func :=
    List.inj_on_of_nodup_map hhandlers hf (hcontroller ▸ hf') hid
  cases h
  cases h'
  cases hcontroller
  cases hfunc
  cases hpath.trans hpath'.symm
  rfl

/-- What is looked at stands in a document. -/
theorem stands_of_mem_visitsOf {env : Env} {ds all : List Source.Document} (hds : ∀ d ∈ ds, d ∈ all)
    (hlisted : ∀ p d, env.imports.get? p = some d → d ∈ all) {h : Handler}
    (hh : .handler h ∈ visitsOf env ds) : h.Stands all := by
  rw [handler_mem_visitsOf, mem_takers, mem_referred] at hh
  obtain ⟨-, d, hd, c, hc, f, hf, rfl⟩ | ⟨-, d, hd, a, ha, hmem⟩ := hh
  · exact ⟨d, hds d hd, rfl, hc, hf⟩
  · obtain ⟨m, hm, hmem⟩ := List.mem_flatMap.1 hmem
    unfold memberRefs at hmem
    split at hmem
    · cases hmem
    · rename_i d' c hfound
      obtain ⟨f, hf, rfl⟩ := List.mem_map.1 hmem
      obtain ⟨⟨p, hget⟩, hc⟩ := memberController?_mem hfound
      exact ⟨d', hlisted _ _ hget, rfl, Source.Document.mem_controllers.1 hc,
        memberHandlers_subset m c f hf⟩

def Handler.route? (env : Env) (h : Handler) : Option Model.Route :=
  (spec? env h.controller h.func).map (routeOf env h.func)

def Handler.call? (env : Env) (h : Handler) : Option Model.ClientCall :=
  (spec? env h.controller h.func).map (callOf h.controller h.func)

/-- The routes of a model are those of the handlers of controllers. -/
theorem routes_documentsModel (env : Env) (ds : List Source.Document) :
    (documentsModel env ds).services.flatMap (·.routes)
      = (env.takers (handlersOf ds)).filterMap (Handler.route? env) := by
  rw [documentsModel_services, Env.takers]
  split
  · rw [handlersOf, List.filterMap_flatMap, List.flatMap_assoc]
    refine List.flatMap_congr fun d _ => ?_
    rw [List.flatMap_map, List.filterMap_flatMap]
    refine List.flatMap_congr fun c _ => ?_
    rw [List.filterMap_map]
    rfl
  · rfl

/-- The calls of a model are those of the handlers that clients refer to. -/
theorem calls_documentsModel (env : Env) (ds : List Source.Document) :
    (documentsModel env ds).clients.flatMap (·.calls)
      = (env.referred ds).filterMap (Handler.call? env) := by
  have hmember : ∀ m, memberCalls env m = (memberRefs env m).filterMap (Handler.call? env) := by
    intro m
    unfold memberCalls memberRefs
    cases memberController? env m with
    | none => rfl
    | some found =>
      dsimp only
      rw [List.filterMap_map]
      rfl
  rw [documentsModel_clients, Env.referred]
  split
  · rw [List.filterMap_flatMap, List.flatMap_assoc]
    refine List.flatMap_congr fun d _ => ?_
    rw [List.flatMap_map, List.filterMap_flatMap]
    refine List.flatMap_congr fun a _ => ?_
    rw [refsOf, List.filterMap_flatMap]
    exact List.flatMap_congr fun m _ => hmember m
  · rfl

end Lowering

namespace Session

open Lowering

/-- A handler that lowering looks at is known by its number. -/
theorem Worked.eq_of_visited {s : Session} (hs : s.Worked) {h h' : Handler}
    (hh : .handler h ∈ visitsOf s.loweringEnv s.projectDocuments)
    (hh' : .handler h' ∈ visitsOf s.loweringEnv s.projectDocuments) (hid : h.id = h'.id) : h = h' := by
  have hstands : ∀ {h : Handler}, .handler h ∈ visitsOf s.loweringEnv s.projectDocuments →
      h.Stands s.imports.documents := fun hh =>
    stands_of_mem_visitsOf (fun d hd => List.mem_of_mem_filter hd) (fun p d hd => hs.listed p d hd) hh
  exact (hstands hh).eq hs.numbered.2.nodup (hstands hh') hid

/-- Lowering that succeeds looks at everything. -/
theorem untilRepeated_of_lower {s s' : Session} {model : CodeModel} (hs : s.Worked)
    (h : s.lower = (.ok model, s')) :
    untilRepeated [] (visitsOf s.loweringEnv s.projectDocuments)
      = visitsOf s.loweringEnv s.projectDocuments := by
  let r := (allDocuments s.loweringEnv s.projectDocuments).run { diagnostics := s.diagnostics }
  have hlower : s.lower
      = (r.1.map fun _ => r.2.model, { s with diagnostics := r.2.diagnostics }) :=
    hs.lower_eq
  refine untilRepeated_of_none ?_
  have htakes := (allDocuments_visits s.loweringEnv s.projectDocuments).takes
    { diagnostics := s.diagnostics }
  split at htakes
  · assumption
  · obtain ⟨final, hrun⟩ := htakes
    have hfail : r = _ := hrun
    rw [hlower, hfail] at h
    cases h

/-- What lowering reports about parameters, whatever the session was used for before, are the
faults of the queries it looks at and one fault for each handler it looks at whose path has a
placeholder without a parameter, however often it looks at that handler. When lowering succeeds, it
has looked at the handlers of the controllers it lowers and at those the clients it lowers refer to,
and a handler with a fault is in no service and in no client. -/
theorem lower_route_faults {s : Session} (hs : s.Worked) :
    let env := s.loweringEnv
    let visits := untilRepeated [] (visitsOf env s.projectDocuments)
    ∃ more, ∃ faulty : List (Handler × String), s.lower.2.diagnostics = s.diagnostics ++ more ∧
      (more.filter (·.code == .unboundParameter)).Perm (visits.filterMap Visit.queryFault? ++
        faulty.map fun x => (x.1.unbound x.2).toDiagnostic) ∧
      (faulty.map (·.1.id)).Nodup ∧
      (∀ h name, (h, name) ∈ faulty ↔ .handler h ∈ visits ∧ h.Lacks name) ∧
      ∀ model s', s.lower = (.ok model, s') →
        (∀ h, .handler h ∈ visits ↔ h ∈ env.takers s.handlers ∨
          h ∈ env.referred s.projectDocuments) ∧
        model.services.flatMap (·.routes) = (env.takers s.handlers).filterMap (Handler.route? env) ∧
        model.clients.flatMap (·.calls)
          = (env.referred s.projectDocuments).filterMap (Handler.call? env) ∧
        ∀ x ∈ faulty, x.1.route? env = none ∧ x.1.call? env = none ∧
          ∀ service ∈ model.services, ∀ route ∈ service.routes, route.origin.node ≠ x.1.id := by
  intro env visits
  let start : State := { diagnostics := s.diagnostics }
  let r := (allDocuments env s.projectDocuments).run start
  have hlower : s.lower
      = (r.1.map fun _ => r.2.model, { s with diagnostics := r.2.diagnostics }) :=
    hs.lower_eq
  have hvisits := allDocuments_visits env s.projectDocuments
  obtain ⟨more, hmore⟩ := hvisits.grows start
  obtain ⟨faulty, honce⟩ := foldl_visit visits start.unbound
  have hreports : r.2.unbound = visits.foldl Reported.visit start.unbound := hvisits.reports start
  rw [← hreports] at honce
  have hin : ∀ {v}, v ∈ visits → v ∈ visitsOf env s.projectDocuments := fun hv =>
    untilRepeated_prefix.subset hv
  have hadded : s.lower.2.diagnostics = s.diagnostics ++ more :=
    (congrArg (·.2.diagnostics) hlower).trans hmore.symm
  refine ⟨more, faulty, hadded, ?_, honce.nodup, fun h name => ⟨fun hx => ?_, ?_⟩,
    fun model s' hok => ?_⟩
  · have hproblems := honce.problems
    have hfinal : r.2.unbound.problems
        = start.unbound.problems ++ more.filter (·.code == .unboundParameter) := by
      show r.2.diagnostics.filter isUnbound = _
      rw [← hmore, List.filter_append]
      rfl
    rw [hfinal] at hproblems
    exact (List.perm_append_left_iff _).1 hproblems
  · obtain ⟨hmem, hname, -⟩ := honce.sound _ hx
    exact ⟨hmem, Handler.missing?_eq_some.1 hname⟩
  · rintro ⟨hmem, hlacks⟩
    have hname := Handler.missing?_eq_some.2 hlacks
    have hid := honce.whole h name hmem hname
    rw [honce.ids] at hid
    obtain ⟨x, hx, heq⟩ := List.mem_map.1 hid
    obtain ⟨hmem', hname', -⟩ := honce.sound x hx
    obtain ⟨h', name'⟩ := x
    obtain rfl : h' = h := hs.eq_of_visited (hin hmem') (hin hmem) heq
    cases hname.symm.trans hname'
    exact hx
  · have hall : visits = visitsOf env s.projectDocuments := untilRepeated_of_lower hs hok
    obtain ⟨rfl, -⟩ := hs.lower_model hok
    have hroutes := routes_documentsModel env s.projectDocuments
    rw [hs.handlers]
    refine ⟨fun h => ?_, hroutes, calls_documentsModel env _, fun x hx => ?_⟩
    · rw [hall]
      exact handler_mem_visitsOf
    · obtain ⟨hmem, hname, -⟩ := honce.sound x hx
      have hspec := Handler.spec?_of_missing env hname
      have hroute : x.1.route? env = none := by rw [Handler.route?, hspec]; rfl
      have hcall : x.1.call? env = none := by rw [Handler.call?, hspec]; rfl
      refine ⟨hroute, hcall, fun service hservice route hin' hnode => ?_⟩
      have hmodel : route ∈ (env.takers (handlersOf s.projectDocuments)).filterMap
          (Handler.route? env) := by
        rw [← hroutes]
        exact List.mem_flatMap.2 ⟨service, hservice, hin'⟩
      obtain ⟨h, hh, hsome⟩ := List.mem_filterMap.1 hmodel
      obtain ⟨spec, -, rfl⟩ := Option.map_eq_some_iff.1 hsome
      obtain rfl : h = x.1 := hs.eq_of_visited (handler_mem_visitsOf.2 (.inl hh)) (hin hmem) hnode
      cases hroute.symm.trans hsome

/-- A controller with a handler that lacks a parameter, and a file whose two clients refer to that
handler three times. -/
def faultsTree : FileTree :=
  { entries := [(["b.jssp"], .file ("controller C \x7b " ++
        "[method=get, route='/x/\x7bid\x7d'] func f() int \x7b return 1; \x7d " ++
        "[method=get, route='/y'] func g() int \x7b return 1; \x7d \x7d")),
      (["a.jssp"], .file "import 'b.jssp'; api A \x7b C.f; C; \x7d api B \x7b C.f; \x7d")] }

/-- The session in which the file with the clients was compiled, for no target in particular. -/
def faultsSession : Session :=
  ((Call.file faultsTree ⟨"a.jssp"⟩ []).run {}).2

/-- The number and the problem of a handler that is looked at and lacks a parameter. -/
def handlerFault? : Visit → Option (NodeId × String)
  | .handler h => h.missing?.map fun name => (h.id, (h.unbound name).toDiagnostic.message)
  | _ => none

/-- The handler is looked at four times and reported once. -/
theorem lower_route_faults_clients : ∃ model s' id more, faultsSession.Worked ∧
    faultsSession.lower = (.ok model, s') ∧
    (untilRepeated [] (visitsOf faultsSession.loweringEnv faultsSession.projectDocuments)).filterMap
      handlerFault? = List.replicate 4 (id, "'C.f' references unbound parameter ':id'") ∧
    s'.diagnostics = faultsSession.diagnostics ++ more ∧
    (more.filter (·.code == .unboundParameter)).map (·.message)
      = ["'C.f' references unbound parameter ':id'"] ∧
    (model.services.flatMap (·.routes)).map (·.path) = ["/y"] ∧
    (model.clients.flatMap (·.calls)).map (·.path) = ["/y"] := by
  have hs : faultsSession.Worked := .afterCall (.new _) _
  have hfacts : ∃ id < faultsSession.nextNode, faultsSession.lower.1.isOk = true ∧
      (untilRepeated [] (visitsOf faultsSession.loweringEnv
        faultsSession.projectDocuments)).filterMap handlerFault?
          = List.replicate 4 (id, "'C.f' references unbound parameter ':id'") ∧
      ((untilRepeated [] (visitsOf faultsSession.loweringEnv
        faultsSession.projectDocuments)).filterMap Visit.queryFault?).isEmpty = true ∧
      ((faultsSession.loweringEnv.takers faultsSession.handlers).filterMap
        (Handler.route? faultsSession.loweringEnv)).map (·.path) = ["/y"] ∧
      ((faultsSession.loweringEnv.referred faultsSession.projectDocuments).filterMap
        (Handler.call? faultsSession.loweringEnv)).map (·.path) = ["/y"] := by
    rw [show faultsSession = afterCall (.file faultsTree ⟨"a.jssp"⟩ []) {} from rfl,
      afterCall_file faultsTree (.cons (.append (.append rfl rfl) rfl) (.cons rfl .nil))]
    decide +kernel
  -- From here on nothing is computed again.
  generalize faultsSession = s at *
  obtain ⟨id, -, hok, hvisits, hqueries, hroutes, hcalls⟩ := hfacts
  obtain ⟨model, hmodel⟩ := Entry.exists_of_isOk hok
  obtain ⟨more, faulty, hmore, hperm, hnodup, hfaulty, hlowered⟩ := lower_route_faults hs
  obtain ⟨-, hmodelRoutes, hmodelCalls, -⟩ := hlowered model _ hmodel
  rw [List.isEmpty_iff.1 hqueries, List.nil_append] at hperm
  -- Every handler that is reported has the one number, so there is just one.
  have hone : ∀ x ∈ faulty, x.1.id = id ∧
      (x.1.unbound x.2).toDiagnostic.message = "'C.f' references unbound parameter ':id'" := by
    intro x hx
    obtain ⟨hmem, hlacks⟩ := (hfaulty x.1 x.2).1 hx
    have hfault : handlerFault? (.handler x.1) = some (x.1.id, _) :=
      congrArg (Option.map _) (Handler.missing?_eq_some.2 hlacks)
    have hin := List.mem_filterMap.2 ⟨_, hmem, hfault⟩
    rw [hvisits] at hin
    exact Prod.mk.inj (List.eq_of_mem_replicate hin)
  have hsome : ∃ x, x ∈ faulty := by
    have hin : (id, "'C.f' references unbound parameter ':id'") ∈ List.replicate 4 _ :=
      List.mem_cons_self
    rw [← hvisits] at hin
    obtain ⟨v, hmem, hfault⟩ := List.mem_filterMap.1 hin
    cases v with
    | handler h =>
      obtain ⟨name, hname, -⟩ := Option.map_eq_some_iff.1 hfault
      exact ⟨(h, name), (hfaulty h name).2 ⟨hmem, Handler.missing?_eq_some.1 hname⟩⟩
    | query q => cases hfault
    | take h => cases hfault
  have hmessages : faulty.map (fun x => (x.1.unbound x.2).toDiagnostic.message)
      = ["'C.f' references unbound parameter ':id'"] := by
    cases faulty with
    | nil => cases hsome.choose_spec
    | cons x rest =>
      cases rest with
      | nil => exact congrArg (fun text => [text]) (hone x List.mem_cons_self).2
      | cons y rest =>
        have hx := (hone x List.mem_cons_self).1
        have hy := (hone y (List.mem_cons_of_mem _ List.mem_cons_self)).1
        refine absurd ?_ (List.nodup_cons.1 hnodup).1
        exact List.mem_map.2 ⟨y, List.mem_cons_self, hy.trans hx.symm⟩
  rw [← hmodelRoutes] at hroutes
  rw [← hmodelCalls] at hcalls
  refine ⟨model, _, id, more, hs, hmodel, hvisits, hmore, ?_, hroutes, hcalls⟩
  have hmapped := hperm.map (·.message)
  rw [List.map_map] at hmapped
  exact List.perm_singleton.1 (hmessages ▸ hmapped)

end Session

end Scaffold
