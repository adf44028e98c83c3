import Scaffold.Proofs.Lowering.Contents

/-!
# Which requests are taken

The handlers of all controllers are lowered in order, and each takes the requests that it answers.

* `Handler.Answers`: the annotations of a handler give it a method and a path.
* `Takes`: a step takes the addresses of some handlers, or fails at the first whose address is taken
  already (`repeated?`). `allDocuments_takes` puts the steps together.
* `Session.lower_routes`: no two routes of a model answer the same requests, and lowering fails for
  two handlers that do, and for nothing else.
-/

namespace Scaffold

namespace Lowering

/-- A handler with the controller and the file that it stands in. -/
structure Handler where
  path : Path
  controller : Source.Controller
  func : Source.Func

namespace Handler

variable {h x : Handler} {method : HttpMethod} {path : String}

/-- The annotations of a handler give it a method and a path, and every placeholder of the path is
one of its parameters. -/
structure Answers (h : Handler) (method : HttpMethod) (path : String) : Prop where
  named : ∃ text, h.func.header.annotations.text? "method" = some text ∧
    HttpMethod.ofText? text = some method
  placed : ∃ route, h.func.header.annotations.text? "route" = some route ∧
    path = Url.join ((h.controller.header.annotations.text? "baseUrl").getD "") route
  bound : ∀ name ∈ Url.placeholders path, ∃ p ∈ h.func.params, p.name = name

/-- The method and the path of the requests that a handler answers. -/
def address? (h : Handler) : Option (HttpMethod × String) :=
  (handlerAddress? h.controller h.func).filter fun a =>
    (Url.placeholders a.2).all fun name => h.func.params.any (·.name == name)

theorem handlerAddress?_eq_some {c : Source.Controller} {f : Source.Func} :
    handlerAddress? c f = some (method, path) ↔
      (∃ text, f.header.annotations.text? "method" = some text ∧
        HttpMethod.ofText? text = some method) ∧
      ∃ route, f.header.annotations.text? "route" = some route ∧
        path = Url.join ((c.header.annotations.text? "baseUrl").getD "") route := by
  rw [handlerAddress?]
  generalize f.header.annotations.text? "method" = name?
  generalize f.header.annotations.text? "route" = route?
  cases name? with
  | none => simp
  | some name => cases route? <;> cases hname : HttpMethod.ofText? name <;> simp [hname, eq_comm]

theorem address?_eq_some : h.address? = some (method, path) ↔ h.Answers method path := by
  have hbound :
      ((Url.placeholders path).all fun name => h.func.params.any (·.name == name)) = true ↔
        ∀ name ∈ Url.placeholders path, ∃ p ∈ h.func.params, p.name = name := by
    simp
  rw [address?, Option.filter_eq_some_iff, handlerAddress?_eq_some, hbound]
  exact ⟨fun ⟨⟨hm, hp⟩, hb⟩ => ⟨hm, hp, hb⟩, fun ⟨hm, hp, hb⟩ => ⟨⟨hm, hp⟩, hb⟩⟩

/-- A handler that answers something is lowered, whatever else is known. -/
theorem address?_eq_spec (env : Env) (h : Handler) :
    h.address? = (spec? env h.controller h.func).map fun spec => (spec.method, spec.path) := by
  unfold address? spec?
  cases handlerAddress? h.controller h.func with
  | none => rfl
  | some a =>
    dsimp only [Option.filter_some]
    split <;> rfl

/-- The requests that a handler answers are taken. -/
def duplicate (h : Handler) (address : HttpMethod × String) : CompileError :=
  .fault h.path h.func.header.pos (.duplicateRoute address.1.upper address.2)

end Handler

/-! ## The first handler that repeats another one -/

/-- The first handler whose address is taken, and this address. -/
def repeated? (taken : List (HttpMethod × String)) :
    List Handler → Option (Handler × (HttpMethod × String))
  | [] => none
  | h :: rest =>
    match h.address? with
    | none => repeated? taken rest
    | some a => if taken.contains a then some (h, a) else repeated? (taken ++ [a]) rest

section

variable {taken : List (HttpMethod × String)} {hs hs' : List Handler} {h : Handler}
  {a : HttpMethod × String}

theorem repeated?_append : repeated? taken (hs ++ hs') =
    (repeated? taken hs).or (repeated? (taken ++ hs.filterMap Handler.address?) hs') := by
  induction hs generalizing taken with
  | nil => simp [repeated?]
  | cons h rest ih =>
    rw [List.cons_append, repeated?, repeated?, List.filterMap_cons]
    cases h.address? with
    | none => exact ih
    | some a =>
      dsimp only
      split
      · rfl
      · rw [ih, List.append_assoc]
        rfl

/-- No handler repeats another one if all of them answer different requests. -/
theorem repeated?_eq_none : repeated? taken hs = none ↔
    (∀ a ∈ hs.filterMap Handler.address?, a ∉ taken) ∧ (hs.filterMap Handler.address?).Nodup := by
  induction hs generalizing taken with
  | nil => simp [repeated?]
  | cons h rest ih =>
    rw [repeated?, List.filterMap_cons]
    cases h.address? with
    | none => exact ih
    | some a =>
      by_cases ha : a ∈ taken
      · simp [ha]
      · simp only [List.contains_iff_mem, ha, if_false, ih, List.mem_append, List.mem_singleton,
          not_or, List.forall_mem_cons, List.nodup_cons, not_false_eq_true, true_and]
        constructor
        · rintro ⟨hout, hnodup⟩
          exact ⟨fun b hb => (hout b hb).1, fun hmem => (hout a hmem).2 rfl, hnodup⟩
        · rintro ⟨hout, hmem, hnodup⟩
          exact ⟨fun b hb => ⟨hout b hb, fun hba => hmem (hba ▸ hb)⟩, hnodup⟩

theorem nodup_filterMap_address? : (hs.filterMap Handler.address?).Nodup ↔
    hs.Pairwise fun h h' => ∀ method path, h.Answers method path → ¬ h'.Answers method path := by
  rw [List.Nodup, List.pairwise_filterMap]
  refine List.Pairwise.iff fun h h' => ?_
  constructor
  · intro hne method path ha ha'
    exact hne _ (Handler.address?_eq_some.2 ha) _ (Handler.address?_eq_some.2 ha') rfl
  · rintro hnone a ha _ ha' rfl
    exact hnone a.1 a.2 (Handler.address?_eq_some.1 ha) (Handler.address?_eq_some.1 ha')

/-- The handlers in front of the first that repeats another one answer different requests. -/
theorem repeated?_eq_some (hrepeated : repeated? taken hs = some (h, a)) :
    ∃ before after, hs = before ++ h :: after ∧ repeated? taken before = none ∧
      h.address? = some a ∧ a ∈ taken ++ before.filterMap Handler.address? := by
  induction hs generalizing taken with
  | nil => cases hrepeated
  | cons x rest ih =>
    rw [repeated?] at hrepeated
    cases hx : x.address? with
    | none =>
      rw [hx] at hrepeated
      obtain ⟨before, after, rfl, hnone, ha, hmem⟩ := ih hrepeated
      refine ⟨x :: before, after, rfl, ?_, ha, ?_⟩
      · rw [repeated?, hx]
        exact hnone
      · rwa [List.filterMap_cons, hx]
    | some b =>
      rw [hx] at hrepeated
      dsimp only at hrepeated
      split at hrepeated
      · rename_i hb
        cases hrepeated
        exact ⟨[], rest, rfl, rfl, hx, List.mem_append_left _ (List.contains_iff_mem.1 hb)⟩
      · rename_i hb
        obtain ⟨before, after, rfl, hnone, ha, hmem⟩ := ih hrepeated
        refine ⟨x :: before, after, rfl, ?_, ha, ?_⟩
        · rw [repeated?, hx]
          dsimp only
          rwa [if_neg hb]
        · rw [List.append_assoc] at hmem
          rwa [List.filterMap_cons, hx]

end

/-! ## Steps -/

/-- A step takes the addresses of these handlers, or fails at the first whose address is taken. -/
def Takes {α : Type} (m : Lower α) (hs : List Handler) : Prop :=
  ∀ s, match repeated? s.routes hs with
    | none => ∃ a s', m.run s = (.ok a, s') ∧
        s'.routes = s.routes ++ hs.filterMap Handler.address?
    | some (h, address) => ∃ s', m.run s = (.error (h.duplicate address), s')

namespace Takes

variable {α β : Type} {m : Lower α} {f : α → Lower β} {a : α} {hs hs' : List Handler}
  {added : CodeModel} {omitted : Diagnostics}

theorem none {m : Lower α} (h : ∀ s, ∃ a s', m.run s = (.ok a, s') ∧ s'.routes = s.routes) :
    Takes m [] := by
  intro s
  obtain ⟨a, s', hrun, hroutes⟩ := h s
  exact ⟨a, s', hrun, hroutes.trans (List.append_nil _).symm⟩

theorem pure (a : α) : Takes (Pure.pure a) [] :=
  none fun s => ⟨a, s, rfl, rfl⟩

theorem modify {g : State → State} (h : ∀ s, (g s).routes = s.routes) :
    Takes (modify g : Lower Unit) [] :=
  none fun s => ⟨(), g s, rfl, h s⟩

theorem report (e : CompileError) : Takes (report e) [] :=
  modify fun _ => rfl

/-- The second step may rely on what the first one gives. -/
theorem bind' (hm : Takes m hs) (hf : ∀ s a s', m.run s = (.ok a, s') → Takes (f a) hs') :
    Takes (m >>= f) (hs ++ hs') := by
  intro s
  have hfirst := hm s
  rw [repeated?_append, run_bind]
  cases hrepeated : repeated? s.routes hs with
  | some found =>
    rw [hrepeated] at hfirst
    obtain ⟨s', hrun⟩ := hfirst
    rw [hrun]
    exact ⟨s', rfl⟩
  | none =>
    rw [hrepeated] at hfirst
    obtain ⟨a, s', hrun, hroutes⟩ := hfirst
    have hsecond := hf s a s' hrun s'
    rw [Option.none_or, List.filterMap_append, ← List.append_assoc, ← hroutes, hrun]
    exact hsecond

theorem bind (hm : Takes m hs) (hf : ∀ a, Takes (f a) hs') : Takes (m >>= f) (hs ++ hs') :=
  hm.bind' fun _ a _ _ => hf a

/-- The first step takes nothing. -/
theorem still (hm : Takes m []) (hf : ∀ a, Takes (f a) hs) : Takes (m >>= f) hs :=
  hm.bind hf

/-- The first step takes nothing, and its value is known. -/
theorem value (hm : Takes m []) (hvalue : Makes m a added omitted) (hf : Takes (f a) hs) :
    Takes (m >>= f) hs :=
  hm.bind' fun s x s' hrun => by
    obtain ⟨rfl, -⟩ := hvalue s x s' hrun
    exact hf

/-- The second step takes nothing. -/
theorem thenStill (hm : Takes m hs) (hf : ∀ a, Takes (f a) []) : Takes (m >>= f) hs := by
  have h := hm.bind hf
  rwa [List.append_nil] at h

theorem get {f : State → Lower β} (h : ∀ s, Takes (f s) hs) : Takes (get >>= f) hs :=
  fun s => h s s

theorem forIn {g : α → β → Lower (ForInStep β)} (h : ∀ a b, Takes (g a b) []) :
    ∀ (as : List α) (b : β), Takes (forIn as b g) []
  | [], b => pure b
  | a :: as, b => by
    rw [List.forIn_cons]
    refine (h a b).still fun step => ?_
    cases step with
    | done b => exact pure b
    | yield b => exact forIn h as b

end Takes

section

variable (env : Env) (path : Path)

theorem lowerQuery_takes (mapper : String) (q : Source.Query) :
    Takes (lowerQuery env path mapper q) [] := by
  unfold lowerQuery
  dsimp only
  split
  · exact (Takes.report _).still fun _ => .pure _
  · refine (Takes.forIn (fun p _ => ?_) _ _).still fun _ => .pure _
    split
    · exact (Takes.report _).still fun _ => .pure _
    · exact .pure _

theorem lowerQueries_takes (mapper : String) : ∀ qs : List Source.Query,
    Takes (lowerQueries env path mapper qs) []
  | [] => .pure _
  | q :: rest => (lowerQuery_takes env path mapper q).still fun _ =>
    (lowerQueries_takes mapper rest).still fun _ => .pure _

theorem routeSpec_takes (c : Source.Controller) (f : Source.Func) :
    Takes (routeSpec env path c f) [] := by
  unfold routeSpec
  split
  · exact .pure _
  · dsimp only
    split
    · refine .get fun s => ?_
      split
      · refine Takes.still (.modify fun _ => rfl) fun _ => (Takes.report _).still fun _ => .pure _
      · exact .pure _
    · exact .pure _

/-- A handler that answers nothing takes nothing. -/
theorem takes_skip {α : Type} {h : Handler} {hs : List Handler} {next : Lower α}
    (ha : h.address? = none) (hnext : Takes next hs) : Takes next (h :: hs) := by
  intro s
  rw [repeated?, ha, List.filterMap_cons, ha]
  exact hnext s

/-- A handler takes its address, unless it is taken. -/
theorem takes_cons {α : Type} {h : Handler} {a : HttpMethod × String} {hs : List Handler}
    {next : Lower α} (ha : h.address? = some a) (hnext : Takes next hs) :
    Takes (do
      if (← get).routes.contains a then throw (h.duplicate a)
      modify fun s => { s with routes := s.routes ++ [a] }
      next) (h :: hs) := by
  intro s
  rw [repeated?, ha, List.filterMap_cons, ha]
  dsimp only
  have hrun : ∀ {β : Type} (f : State → Lower β), (get >>= f).run s = (f s).run s := fun _ => rfl
  rw [hrun]
  by_cases hmem : s.routes.contains a = true
  · rw [if_pos hmem, if_pos hmem]
    exact ⟨s, rfl⟩
  · rw [if_neg hmem, if_neg hmem]
    have hafter := hnext { s with routes := s.routes ++ [a] }
    rw [List.append_assoc] at hafter
    exact hafter

theorem lowerHandlers_takes (c : Source.Controller) : ∀ fs : List Source.Func,
    Takes (lowerHandlers env path c fs) (fs.map (Handler.mk path c))
  | [] => .pure _
  | f :: rest => by
    refine (routeSpec_takes env path c f).value (routeSpec_makes env path c f) ?_
    have ha := Handler.address?_eq_spec env ⟨path, c, f⟩
    cases hspec : spec? env c f with
    | none =>
      rw [hspec] at ha
      exact takes_skip ha (lowerHandlers_takes c rest)
    | some spec =>
      rw [hspec] at ha
      exact takes_cons ha ((lowerHandlers_takes c rest).thenStill fun _ => .pure _)

theorem lowerCalls_takes (c : Source.Controller) : ∀ fs : List Source.Func,
    Takes (lowerCalls env path c fs) []
  | [] => .pure _
  | f :: rest => by
    refine (routeSpec_takes env path c f).still fun spec => ?_
    split
    · exact lowerCalls_takes c rest
    · exact (lowerCalls_takes c rest).still fun _ => .pure _

theorem lowerMember_takes (api : String) (m : Source.ApiMember) :
    Takes (lowerMember env path api m) [] := by
  unfold lowerMember
  split
  · exact .pure _
  · split
    · exact lowerCalls_takes env _ _ _
    · split
      · exact lowerCalls_takes env _ _ _
      · exact (Takes.report _).still fun _ => .pure _

theorem lowerMembers_takes (api : String) : ∀ ms : List Source.ApiMember,
    Takes (lowerMembers env path api ms) []
  | [] => .pure _
  | m :: rest => (lowerMember_takes env path api m).still fun _ =>
    (lowerMembers_takes api rest).still fun _ => .pure _

theorem supported_takes (category : Category) (construct : String) :
    Takes (supported env category construct) [] := by
  unfold supported
  split
  · exact .pure _
  · split
    · exact .pure _
    · exact (Takes.report _).still fun _ => .pure _

/-! ## Documents -/

/-- The handlers that a declaration adds routes for. -/
def declHandlers (path : Path) : Source.Decl → List Handler
  | .controller c => c.handlers.map (Handler.mk path c)
  | _ => []

theorem addDecl_takes (d : Source.Decl) : Takes (addDecl env path d) (declHandlers path d) := by
  cases d with
  | importFile i => exact .pure _
  | domain d => exact .modify fun _ => rfl
  | table t => exact .modify fun _ => rfl
  | entity e => exact .modify fun _ => rfl
  | record r => exact .modify fun _ => rfl
  | mapper m =>
    refine Takes.still ?_ fun _ => .modify fun _ => rfl
    exact (lowerQueries_takes env path m.name m.queries).still fun _ => .pure _
  | controller c =>
    refine Takes.thenStill ?_ fun _ => .modify fun _ => rfl
    exact (lowerHandlers_takes env path c c.handlers).thenStill fun _ => .pure _
  | api a =>
    refine Takes.still ?_ fun _ => .modify fun _ => rfl
    exact (lowerMembers_takes env path a.name a.members).still fun _ => .pure _
  | page p => exact .modify fun _ => rfl
  | property p => exact .modify fun _ => rfl
  | func f => exact .modify fun _ => rfl

/-- Handlers take addresses if the target expresses controllers. -/
def Env.takers (env : Env) (hs : List Handler) : List Handler :=
  if env.expresses .controller then hs else []

theorem takers_nil : env.takers [] = [] :=
  ite_self []

theorem takers_append (hs hs' : List Handler) :
    env.takers (hs ++ hs') = env.takers hs ++ env.takers hs' := by
  unfold Env.takers
  split <;> rfl

theorem lowerDecl_takes (d : Source.Decl) :
    Takes (lowerDecl env path d) (env.takers (declHandlers path d)) := by
  have hother : declHandlers path d = [] → ∀ category construct,
      Takes (do if ← supported env category construct then addDecl env path d)
        (env.takers (declHandlers path d)) := by
    intro hnone category construct
    rw [hnone, takers_nil]
    refine (supported_takes env category construct).still fun b => ?_
    cases b with
    | false => exact .pure _
    | true => exact hnone ▸ addDecl_takes env path d
  cases d with
  | importFile i => exact takers_nil env ▸ Takes.pure ()
  | controller c =>
    refine (supported_takes env .controller _).value (supported_makes env .controller _) ?_
    unfold Env.takers
    cases env.expresses .controller with
    | false => exact .pure _
    | true => exact addDecl_takes env path (.controller c)
  | domain d => exact hother rfl _ _
  | table t => exact hother rfl _ _
  | entity e => exact hother rfl _ _
  | record r => exact hother rfl _ _
  | mapper m => exact hother rfl _ _
  | api a => exact hother rfl _ _
  | page p => exact hother rfl _ _
  | property p => exact hother rfl _ _
  | func f => exact hother rfl _ _

theorem allDecls_takes : ∀ ds : List Source.Decl,
    Takes (allDecls env path ds) (env.takers (ds.flatMap (declHandlers path)))
  | [] => takers_nil env ▸ Takes.pure ()
  | d :: rest => by
    rw [List.flatMap_cons, takers_append]
    exact (lowerDecl_takes env path d).bind fun _ => allDecls_takes rest

theorem allShapes_takes : ∀ shapes : List Source.ResultShape, Takes (allShapes env shapes) []
  | [] => .pure _
  | shape :: rest => by
    rw [allShapes, supported_data, pure_bind]
    exact Takes.still (.modify fun _ => rfl) fun _ => allShapes_takes rest

end

/-- The handlers of the controllers of documents, in the order in which they are lowered. -/
def handlersOf (ds : List Source.Document) : List Handler :=
  ds.flatMap fun d => d.controllers.flatMap fun c => c.handlers.map (Handler.mk d.path c)

theorem flatMap_declHandlers (d : Source.Document) : d.decls.flatMap (declHandlers d.path)
    = d.controllers.flatMap fun c => c.handlers.map (Handler.mk d.path c) := by
  unfold Source.Document.controllers
  induction d.decls with
  | nil => rfl
  | cons x rest ih =>
    rw [List.flatMap_cons, ih, List.filterMap_cons]
    cases x <;> rfl

section

variable (env : Env)

/-- Lowering takes the requests that the handlers of all documents answer. -/
theorem allDocuments_takes : ∀ ds : List Source.Document,
    Takes (allDocuments env ds) (env.takers (handlersOf ds))
  | [] => takers_nil env ▸ Takes.pure ()
  | d :: rest => by
    rw [handlersOf, List.flatMap_cons, takers_append, ← flatMap_declHandlers]
    exact (allDecls_takes env d.path d.decls).bind fun _ =>
      (allShapes_takes env d.shapes).still fun _ => allDocuments_takes rest

/-- The routes of a model answer the requests of the handlers. -/
theorem documentsModel_routes (ds : List Source.Document) :
    ((documentsModel env ds).services.flatMap (·.routes)).map (fun r => (r.method, r.path)) =
      (env.takers (handlersOf ds)).filterMap Handler.address? := by
  have hcontroller : ∀ (path : Path) (c : Source.Controller),
      (serviceOf env c).routes.map (fun r => (r.method, r.path))
        = (c.handlers.map (Handler.mk path c)).filterMap Handler.address? := by
    intro path c
    rw [serviceOf, routesOf, List.map_filterMap, List.filterMap_map]
    refine List.filterMap_congr fun f _ => ?_
    rw [Function.comp_apply, Handler.address?_eq_spec env, Option.map_map]
    rfl
  rw [documentsModel_services, Env.takers]
  split
  · rw [List.map_flatMap, handlersOf, List.filterMap_flatMap, List.flatMap_assoc]
    refine List.flatMap_congr fun d _ => ?_
    rw [List.flatMap_map, List.filterMap_flatMap]
    exact List.flatMap_congr fun c _ => hcontroller d.path c
  · rfl

end

end Lowering

namespace Session

open Lowering (Handler)

/-- The handlers of the controllers that lowering reads, in the order in which they are lowered. They
are all that the project's documents declare (`Worked.handlers`). -/
def handlers (s : Session) : List Handler :=
  Lowering.handlersOf s.loweredDocuments

theorem Worked.handlers {s : Session} (hs : s.Worked) :
    s.handlers = Lowering.handlersOf s.projectDocuments :=
  congrArg Lowering.handlersOf hs.loweredDocuments

/-- Lowering fails for the first handler that repeats another one, and for nothing else. -/
theorem lower_takes (s : Session) :
    match Lowering.repeated? [] (s.loweringEnv.takers s.handlers) with
    | none => ∃ model s', s.lower = (.ok model, s')
    | some (h, address) => ∃ s', s.lower = (.error (h.duplicate address), s') := by
  let r := (Lowering.allDocuments s.loweringEnv s.loweredDocuments).run
    { diagnostics := s.diagnostics }
  have hlower : s.lower =
      (r.1.map fun _ => r.2.model, { s with diagnostics := r.2.diagnostics }) :=
    s.lower_eq
  have htakes := Lowering.allDocuments_takes s.loweringEnv s.loweredDocuments
    { diagnostics := s.diagnostics }
  change match Lowering.repeated? [] (s.loweringEnv.takers s.handlers) with
    | none => ∃ a s', r = (.ok a, s') ∧ _
    | some (h, address) => ∃ s', r = (.error (h.duplicate address), s') at htakes
  split at htakes
  · obtain ⟨_, final, hrun, -⟩ := htakes
    exact ⟨_, _, hlower.trans (by rw [hrun]; rfl)⟩
  · obtain ⟨final, hrun⟩ := htakes
    exact ⟨_, hlower.trans (by rw [hrun]; rfl)⟩

/-- In every session: no two routes of a model answer the same requests. Lowering fails for two
handlers that do, if the target expresses controllers, and the one it names is the first that
repeats another one. It fails for nothing else. -/
theorem lower_routes (s : Session) :
    (∀ model s', s.lower = (.ok model, s') → (model.services.flatMap (·.routes)).Pairwise
      fun r r' => ¬ (r.method = r'.method ∧ r.path = r'.path)) ∧
    ((∃ file pos method path, s.lower.1 = .error (.fault file pos (.duplicateRoute method path))) ↔
      s.loweringEnv.expresses .controller = true ∧ ∃ h h', [h, h'].Sublist s.handlers ∧
        ∃ method path, h.Answers method path ∧ h'.Answers method path) ∧
    ∀ e, s.lower.1 = .error e → ∃ before h after method path,
      s.handlers = before ++ h :: after ∧ h.Answers method path ∧
      (∃ h' ∈ before, h'.Answers method path) ∧
      (before.Pairwise fun h h' =>
        ∀ method path, h.Answers method path → ¬ h'.Answers method path) ∧
      e = .fault h.path h.func.header.pos (.duplicateRoute method.upper path) := by
  have htakes := s.lower_takes
  split at htakes
  · rename_i hnone
    obtain ⟨model, s', hok⟩ := htakes
    have hdifferent := (Lowering.repeated?_eq_none.1 hnone).2
    have hfirst : s.lower.1 = .ok model := congrArg Prod.fst hok
    refine ⟨fun model s' hok => ?_, ⟨fun ⟨_, _, _, _, herror⟩ => ?_, ?_⟩, fun e herror => ?_⟩
    · obtain ⟨rfl, -⟩ := lower_model hok
      rw [handlers, ← Lowering.documentsModel_routes] at hdifferent
      exact (List.pairwise_map.1 hdifferent).imp fun hne hsame => hne (Prod.ext hsame.1 hsame.2)
    · exact nomatch hfirst.symm.trans herror
    · rintro ⟨hexpresses, h, h', hsub, method, path, ha, ha'⟩
      rw [Lowering.Env.takers, if_pos hexpresses, Lowering.nodup_filterMap_address?] at hdifferent
      have hpair := hdifferent.sublist hsub
      exact absurd ha' (List.rel_of_pairwise_cons hpair List.mem_cons_self method path ha)
    · exact nomatch hfirst.symm.trans herror
  · rename_i h address hsome
    obtain ⟨s', hfail⟩ := htakes
    have hfirst : s.lower.1 = .error (h.duplicate address) := congrArg Prod.fst hfail
    obtain ⟨before, after, hsplit, hbefore, ha, hmem⟩ := Lowering.repeated?_eq_some hsome
    obtain ⟨h', hh', ha'⟩ := List.mem_filterMap.1 hmem
    rw [Handler.address?_eq_some] at ha ha'
    have hexpresses : s.loweringEnv.expresses .controller = true := by
      by_contra hnot
      simp [Lowering.Env.takers, hnot] at hsplit
    rw [Lowering.Env.takers, if_pos hexpresses] at hsplit
    refine ⟨fun model s' hok => ?_, ⟨fun _ => ⟨hexpresses, h', h, ?_, _, _, ha', ha⟩, fun _ => ?_⟩,
      fun e herror => ⟨before, h, after, _, _, hsplit, ha, ⟨h', hh', ha'⟩, ?_, ?_⟩⟩
    · exact nomatch hok.symm.trans hfail
    · rw [hsplit]
      exact (List.singleton_sublist.2 hh').append (List.singleton_sublist.2 List.mem_cons_self)
    · exact ⟨_, _, _, _, hfirst⟩
    · exact Lowering.nodup_filterMap_address?.1 (Lowering.repeated?_eq_none.1 hbefore).2
    · exact Except.error.inj (herror.symm.trans hfirst)

end Session

end Scaffold
