import Scaffold.Proofs.Documents
import Scaffold.Proofs.Lowering.Contents
import Scaffold.Proofs.Parser.Apart.File

/-!
# Compiling for another target

Where no annotation says which platforms a declaration is for, the target has no part in compiling:
only the names of platforms are ever compared with it. So a client and a server that are made from
the same files are made from the same documents.

* `Entry.compile_onto`: the documents, symbols and problems of a compilation for one target are those
  of a compilation for any other.
* `Entry.calls_routed`: what a client calls, a server answers.
-/

namespace Scaffold

namespace Source

/-! ## Reading a file -/

/-- For another target the parser comes to the same end, if no platforms are named ahead. -/
structure Retargets {α : Type} (platform : Option Platform) (env : ParserEnv) (p : Parser α) :
    Prop where
  run : ∀ s, Unmarked s.rest → p env (s.onto platform) = ((p env s).1, (p env s).2.onto platform)
  suffix : ∀ s a s', p env s = (.ok a, s') → s'.rest <:+ s.rest

/-- For another target loading a file comes to the same end. -/
def Loader.Retargets (platform : Option Platform) (load : Loader) : Prop :=
  ∀ f s, load f (s.onto platform) = ((load f s).1, (load f s).2.onto platform)

section

variable {α β : Type} {platform : Option Platform} {env : ParserEnv} {p : Parser α}
  {f : α → Parser β}

theorem Apart.retargets {P Q : List Token → Prop} (h : Apart P p Q) : Retargets platform env p :=
  ⟨h.platform env platform, h.suffix env⟩

theorem Tame.retargets (h : Tame p) : Retargets platform env p :=
  (h []).retargets

theorem Whole.retargets (h : Whole p) : Retargets platform env p :=
  h.tame.retargets

namespace Retargets

theorem pure (a : α) : Retargets platform env (Pure.pure a : Parser α) :=
  (Tame.pure a).retargets

theorem bind (hp : Retargets platform env p) (hf : ∀ a, Retargets platform env (f a)) :
    Retargets platform env (p >>= f) where
  run s hs := by
    have hfirst := hp.run s hs
    rcases heq : p env s with ⟨e | a, s₁⟩
    · rw [heq] at hfirst
      rw [Parser.bind_failed heq, Parser.bind_failed hfirst]
    · rw [heq] at hfirst
      rw [Parser.bind_run heq, Parser.bind_run hfirst]
      exact (hf a).run s₁ (hs.suffix (hp.suffix s a s₁ heq))
  suffix s b s' h := by
    obtain ⟨a, s₁, h₁, h₂⟩ := Parser.bind_ok.1 h
    exact ((hf a).suffix s₁ b s' h₂).trans (hp.suffix s a s₁ h₁)

/-- A parser that reads no token. -/
theorem of_still (hrun : ∀ s, p env (s.onto platform) = ((p env s).1, (p env s).2.onto platform))
    (hrest : ∀ s, (p env s).2.rest = s.rest) : Retargets platform env p where
  run s _ := hrun s
  suffix s a s' h := by
    have hsame := hrest s
    rw [h] at hsame
    exact hsame ▸ List.suffix_refl _

/-- What follows depends on what the parser is given. -/
theorem given {f : ParserEnv → Parser β} (h : Retargets platform env (f env)) :
    Retargets platform env (Parser.env >>= f) :=
  ⟨h.run, h.suffix⟩

end Retargets

end

namespace Parser

variable {platform : Option Platform} {env : ParserEnv}

/-- An import statement has its file loaded. -/
theorem importDecl_retargets (hload : Loader.Retargets platform env.load) (h : Header) :
    Retargets platform env (importDecl h) := by
  refine .bind (expect_apart _).retargets fun _ => .bind quoted_level.tame.retargets fun written =>
    .bind (show Tame (expectPunct .semicolon) from expectPunct_tame trivial).retargets fun _ => .bind takeSeq_idle.tame.retargets fun seq =>
    .given ?_
  split
  · exact .of_still (fun _ => rfl) fun _ => rfl
  · rename_i found _
    refine .bind (.of_still (fun s => ?_) fun _ => rfl) fun r => ?_
    · show (Except.ok (env.load found (s.session.onto platform)).1,
        { s with session := (env.load found (s.session.onto platform)).2 }) = _
      rw [hload]
      rfl
    · split
      · exact .of_still (fun _ => rfl) fun _ => rfl
      · exact .bind (.of_still (fun _ => rfl) fun _ => rfl) fun _ =>
          .bind (.of_still (fun _ => rfl) fun _ => rfl) fun _ => .pure _

theorem decl_retargets (hload : Loader.Retargets platform env.load) :
    Retargets platform env decl := by
  rw [decl_eq]
  refine .bind header_level.tame.retargets fun hd => .bind peek_tame.retargets fun t =>
    .bind ?_ fun _ => .pure _
  by_cases hkind : t.kind = .keyword .importKw
  · rw [hkind]
    exact .bind (importDecl_retargets hload hd.1) fun _ => .pure _
  · exact (declOf_whole hd.1 hd.2 hkind).retargets

theorem untilFuel_retargets {β : Type} {stop : Parser Bool} {step : β → Parser β}
    (hstop : Retargets platform env stop) (hstep : ∀ b, Retargets platform env (step b)) :
    ∀ (fuel : Nat) (b : β), Retargets platform env (untilFuel stop step fuel b)
  | 0, b => .pure b
  | fuel + 1, b => by
    refine .bind hstop fun _ => ?_
    split
    · exact .pure b
    · exact .bind (hstep b) fun b' => untilFuel_retargets hstop hstep fuel b'

/-- A file is read the same for every target. -/
theorem decls_retargets (hload : Loader.Retargets platform env.load) :
    Retargets platform env decls := by
  refine .bind remaining_tame.retargets fun _ => untilFuel_retargets ?_ (fun ds => ?_) _ []
  · exact .bind peek_tame.retargets fun _ => .pure _
  · refine .bind (show Tame (skipPunct .semicolon) from skipPunct_tame trivial).retargets fun _ => ?_
    split
    · exact .pure _
    · exact .bind (decl_retargets hload) fun _ => .pure _

end Parser

/-! ## Documents -/

theorem Shape.declareAll_onto (platform : Option Platform) (d : Document) :
    ∀ (shapes : List ResultShape) (s : Session), declareAll d shapes (s.onto platform)
      = ((declareAll d shapes s).1, (declareAll d shapes s).2.onto platform)
  | [], _ => rfl
  | shape :: rest, s => by
    have hdeclare : declare d (s.onto platform) shape
        = ((declare d s shape).1, (declare d s shape).2.onto platform) := by
      unfold declare
      dsimp only [Session.takeNode, Session.onto]
      split <;> rfl
    unfold declareAll
    rw [hdeclare]
    dsimp only
    rw [declareAll_onto platform d rest]

theorem Shape.synthesize_onto (platform : Option Platform) (d : Document) (s : Session) :
    synthesize d (s.onto platform) = ((synthesize d s).1, (synthesize d s).2.onto platform) :=
  congrArg (fun r : List ResultShape × Session => ({ d with shapes := d.shapes ++ r.1 }, r.2))
    (declareAll_onto platform d (pending ⟨d, s.imports, s.symbols⟩).shapes
      { s with diagnostics := s.diagnostics ++ (pending ⟨d, s.imports, s.symbols⟩).warnings })

/-- Names are bound the same for every target. -/
theorem complete_onto (platform : Option Platform) (d : Document) (s : Session) :
    complete d (s.onto platform) = ((complete d s).1, (complete d s).2.onto platform) := by
  have hshapes : shaped d (s.onto platform) = ((shaped d s).1, (shaped d s).2.onto platform) :=
    Shape.synthesize_onto platform { d with decls := (firstPass d s).1 }
      { s with diagnostics := (firstPass d s).2 }
  have hsecond : secondPass d (s.onto platform) = secondPass d s := by
    unfold secondPass
    rw [hshapes]
    rfl
  rw [complete_eq, complete_eq, hshapes, hsecond]
  rfl

/-! ## Files and their imports -/

/-- No declaration of a text says which platforms it is for. -/
def IsUnmarked (text : String) : Prop :=
  ∀ tokens, tokenize text = .ok tokens → Unmarked tokens

instance (text : String) : Decidable (IsUnmarked text) :=
  inferInstanceAs (Decidable (∀ tokens, tokenize text = .ok tokens → Unmarked tokens))

section

variable {platform : Option Platform} {tree : FileTree} {load : Loader} {text : String}

theorem parseDocument_onto (hload : Loader.Retargets platform load) (htext : IsUnmarked text)
    (f : SourceFile) (s : Session) : parseDocument tree load text f (s.onto platform) =
      ((parseDocument tree load text f s).1, (parseDocument tree load text f s).2.onto platform) := by
  cases htokens : tokenize text with
  | error m =>
    unfold parseDocument
    rw [htokens]
  | ok tokens =>
    have hread := (@Parser.decls_retargets platform (fileEnv tree load f s) hload).run
      (fileStart tokens f s) (htext tokens htokens)
    rw [parseDocument_eq load f s htokens, parseDocument_eq load f _ htokens]
    dsimp only
    have hstart : Parser.decls (fileEnv tree load f (s.onto platform))
        (fileStart tokens f (s.onto platform)) = _ := hread
    rw [hstart]
    rcases Parser.decls (fileEnv tree load f s) (fileStart tokens f s) with ⟨e | decls, final⟩
    · rfl
    · dsimp only
      have hend : fileEnd (final.onto platform) = (fileEnd final).onto platform := rfl
      have hdocument : parsedDocument f (s.onto platform) (final.onto platform) decls
        = parsedDocument f s final decls := rfl
      rw [hend, hdocument, complete_onto]

theorem parseText_onto (hload : Loader.Retargets platform load) (htext : IsUnmarked text)
    (f : SourceFile) (s : Session) : parseText tree load text f (s.onto platform) =
      ((parseText tree load text f s).1, (parseText tree load text f s).2.onto platform) := by
  unfold parseText
  dsimp only
  have himports : (s.onto platform).imports = s.imports := rfl
  rw [himports]
  rcases s.imports.begin (tree.canonical f.path) with e | ⟨_ | d, imports⟩
  · rfl
  · have hbegun : ({ s.onto platform with imports } : Session)
        = ({ s with imports } : Session).onto platform := rfl
    dsimp only
    rw [hbegun, parseDocument_onto hload htext]
    rcases parseDocument tree load text _ { s with imports } with ⟨e | d, s₁⟩ <;> rfl
  · rfl

/-- Loading a file, with all that it imports, comes to the same end for every target. -/
theorem loadFile_onto (htexts : ∀ p text, tree.read p = .ok text → IsUnmarked text) :
    ∀ depth : Nat, Loader.Retargets platform (loadFile tree depth)
  | 0 => fun _ _ => rfl
  | depth + 1 => fun f s => by
    have hload := loadFile_onto htexts depth
    have hempty : IsUnmarked "" := by decide
    have himports : (s.onto platform).imports = s.imports := rfl
    simp only [loadFile, himports]
    cases s.imports.get? (tree.canonical f.path) with
    | some d => rfl
    | none =>
      dsimp only
      split
      · exact parseText_onto hload hempty f s
      · cases hread : tree.read f.path with
        | error cause => rfl
        | ok text => exact parseText_onto hload (htexts _ _ hread) f s

end

end Source

open Source

namespace Session

variable {platform : Option Platform} {tree : FileTree}

theorem loadPrelude_onto (htexts : ∀ p text, tree.read p = .ok text → IsUnmarked text)
    (roots : List Path) (s : Session) : (s.onto platform).loadPrelude tree roots =
      ((s.loadPrelude tree roots).1, (s.loadPrelude tree roots).2.onto platform) := by
  unfold loadPrelude load
  dsimp only
  split
  · rfl
  · rw [loadFile_onto htexts]
    rename_i f _
    rcases loadFile tree (importDepth tree) f s with ⟨e | d, s₁⟩ <;> rfl

end Session

namespace Entry

/-- No declaration of what is compiled, and of what it may import, says which platforms it is
for. -/
def Unmarked (tree : FileTree) (e : Entry) : Prop :=
  ∀ p text, e.Texts tree p text → IsUnmarked text

variable {tree : FileTree} {e : Entry}

/-- Without names of platforms, compiling for one target is compiling for any other. -/
theorem compile_onto (h : e.Unmarked tree) (platform platform' : Option Platform) :
    e.compile tree platform' =
      ((e.compile tree platform).1, (e.compile tree platform).2.onto platform') := by
  have htexts : ∀ p text, tree.read p = .ok text → IsUnmarked text :=
    fun p text hread => h _ text (.inl ⟨p, hread, rfl⟩)
  have hstart : ({ platform := platform' } : Session) = Session.onto platform' { platform } := rfl
  cases e with
  | file path roots =>
    simp only [compile, Session.compileFile, hstart, Session.loadPrelude_onto htexts]
    rcases Session.loadPrelude tree roots { platform } with ⟨e | u, s⟩
    · rfl
    · exact loadFile_onto htexts _ _ s
  | text contents name =>
    simp only [compile, Session.compileText, hstart]
    exact parseText_onto (loadFile_onto htexts _) (h _ contents (.inr ⟨name, rfl, rfl⟩)) _ _

end Entry

/-! ## Clients and servers -/

namespace Lowering

variable (env : Env) (platform : Option Platform)

/-- What a type means has nothing to do with the target. -/
theorem lowerType_onto (t : TypeRef) : lowerType { env with platform } t = lowerType env t := by
  have htypes : ∀ domain domain' : Symbol → Model.Ty, (∀ s, domain s = domain' s) →
      ∀ t : TypeRef, typeWith { env with platform } domain t = typeWith env domain' t := by
    intro domain domain' hdomain t
    induction t with
    | primitive p => rfl
    | list item ih => rw [typeWith, typeWith, ih]
    | named r =>
      have htarget : target? { env with platform } r = target? env r := rfl
      simp only [typeWith, htarget, hdomain]
  have hdomains : ∀ depth s, domainType { env with platform } depth s = domainType env depth s := by
    intro depth
    induction depth with
    | zero => exact fun _ => rfl
    | succ depth ih =>
      intro s
      have hdocument : documentOf? { env with platform } s = documentOf? env s := rfl
      simp only [domainType, hdocument, htypes _ _ ih]
  exact htypes _ _ (hdomains _) t

/-- What a handler answers has nothing to do with the target. -/
theorem spec?_onto (c : Controller) (f : Func) :
    spec? { env with platform } c f = spec? env c f := by
  have htype : lowerType { env with platform } = lowerType env := funext (lowerType_onto env platform)
  have hreturns : lowerReturns { env with platform } f.returns = lowerReturns env f.returns := by
    rw [lowerReturns, lowerReturns, htype]
  unfold spec?
  simp only [htype, hreturns]

/-- For each call of handlers, the service of their controller has a route that takes and gives the
same. -/
theorem callsOf_answered {c : Controller} {fs : List Func} (hfs : ∀ f ∈ fs, f ∈ c.handlers)
    {call : Model.ClientCall} (hcall : call ∈ callsOf env c fs) :
    call.service = c.name ∧ ∃ route ∈ (serviceOf { env with platform } c).routes,
      route.handler = call.name ∧ route.method = call.method ∧ route.path = call.path ∧
      route.bindings = call.bindings ∧ route.returns = call.returns := by
  obtain ⟨f, hf, hcall⟩ := List.mem_filterMap.1 hcall
  obtain ⟨spec, hspec, rfl⟩ := Option.map_eq_some_iff.1 hcall
  refine ⟨rfl, routeOf { env with platform } f spec, List.mem_filterMap.2 ⟨f, hfs f hf, ?_⟩, rfl, rfl,
    rfl, rfl, rfl⟩
  rw [spec?_onto, hspec, Option.map_some]

end Lowering

/-- No two services of a model have the same number. -/
theorem CodeModel.service_eq_of_node {m : CodeModel} (h : m.nodes.Nodup) {a b : Model.Service}
    (ha : a ∈ m.services) (hb : b ∈ m.services) (hnode : a.origin.node = b.origin.node) : a = b := by
  have hheads : ∀ services : List Model.Service, (services.map (·.origin.node)).Sublist
      (services.flatMap fun a => a.origin.node :: a.routes.map (·.origin.node)) := by
    intro services
    induction services with
    | nil => exact List.Sublist.slnil
    | cons a rest ih => exact (ih.trans (List.sublist_append_right _ _)).cons_cons _
  have hsub : (m.services.map (·.origin.node)).Sublist m.nodes := by
    refine (hheads m.services).trans ?_
    simp only [CodeModel.nodes, List.append_assoc]
    exact (List.sublist_append_left _ _).trans
      ((List.sublist_append_right _ _).trans (List.sublist_append_right _ _))
  exact List.inj_on_of_nodup_map (h.sublist hsub) ha hb hnode

namespace Entry

variable {tree : FileTree} {e : Entry} {client server : Platform} {d d' : Document}
  {s s' t t' : Session} {model model' : CodeModel}

open Lowering in
/-- A client and a server made from the same files, in which no declaration names platforms, agree:
each client of the model has the calls of its members, and where a member refers to a controller of
the project, the server has one service of this controller, with a route for each of these calls that
has the same name, method, path, bindings and return type. -/
theorem calls_routed (h : e.Unmarked tree) (hserver : server.group = .server)
    (hclient : e.compile tree (some client) = (.ok d, s)) (hmodel : s.lower = (.ok model, s'))
    (hcompile : e.compile tree (some server) = (.ok d', t)) (hmodel' : t.lower = (.ok model', t')) :
    ∀ a ∈ model.clients, ∃ home ∈ s.projectDocuments, ∃ api ∈ home.apis,
      a.name = api.name ∧ a.origin = originOf api.header ∧
      a.calls = api.members.flatMap (memberCalls s.loweringEnv) ∧
      ∀ m ∈ api.members, ∀ owner c, memberController? s.loweringEnv m = some (owner, c) →
        owner ∈ s.projectDocuments → ∃ service ∈ model'.services,
          service.name = c.name ∧ service.origin = originOf c.header ∧
          (∀ other ∈ model'.services, other.origin.node = c.header.id → other = service) ∧
          ∀ call ∈ memberCalls s.loweringEnv m, call.service = service.name ∧
            ∃ route ∈ service.routes, route.handler = call.name ∧ route.method = call.method ∧
              route.path = call.path ∧ route.bindings = call.bindings ∧
              route.returns = call.returns := by
  obtain ⟨-, rfl⟩ : Except.ok d' = Except.ok d ∧ t = s.onto (some server) := by
    have hsame := compile_onto h (some client) (some server)
    rw [hclient, hcompile] at hsame
    exact Prod.mk.inj hsame
  obtain ⟨-, -, hservices, -, -, -, -, -, -, hnodup, -⟩ :=
    Session.lower_contents (compile_worked hcompile) hmodel'
  have hexpresses : (s.onto (some server)).loweringEnv.expresses .controller = true := by
    show (server.group == .server) = true
    rw [hserver]
    rfl
  rw [if_pos hexpresses] at hservices
  obtain ⟨rfl, -⟩ := (compile_worked hclient).lower_model hmodel
  intro a ha
  rw [documentsModel_clients] at ha
  split at ha
  · obtain ⟨home, hhome, ha⟩ := List.mem_flatMap.1 ha
    obtain ⟨api, hapi, rfl⟩ := List.mem_map.1 ha
    refine ⟨home, hhome, api, hapi, rfl, rfl, rfl, fun m _ owner c hc howner => ?_⟩
    have hservice : serviceOf (s.onto (some server)).loweringEnv c ∈ model'.services := by
      rw [hservices]
      exact List.mem_flatMap.2 ⟨owner, howner, List.mem_map_of_mem (memberController?_mem hc).2⟩
    refine ⟨_, hservice, rfl, rfl, fun other hother hnode => ?_, fun call hcall => ?_⟩
    · exact CodeModel.service_eq_of_node hnodup hother hservice hnode
    · rw [memberCalls, hc] at hcall
      exact callsOf_answered s.loweringEnv (some server) (memberHandlers_subset m c) hcall
  · cases ha

/-- A file with a controller, and one with a client of it. -/
def servedTree : FileTree :=
  { entries := [(["api.jssp"], .file ("domain key bigint; controller Users \x7b " ++
        "[method=get, route='/\x7bid\x7d'] func one(id key, q string) key \x7b \x7d \x7d")),
      (["main.jssp"], .file "import 'api.jssp'; api Backend \x7b Users.one; \x7d")] }

def servedEntry : Entry := .file ⟨"main.jssp"⟩ []

theorem served_unmarked : servedEntry.Unmarked servedTree := by
  have hfiles : ∀ x ∈ servedTree.entries, ∀ text, x.2 = .file text → IsUnmarked text := by
    intro x hx text htext
    simp only [servedTree, List.mem_cons, List.not_mem_nil, or_false] at hx
    obtain rfl | rfl := hx <;> cases htext <;> decide +kernel
  rintro p text (⟨q, hread, -⟩ | ⟨name, hname, -⟩)
  · obtain ⟨r, -, hentry⟩ := FileTree.read_eq_ok_iff.1 hread
    unfold FileTree.entry? at hentry
    split at hentry
    · cases hentry
    · obtain ⟨before, after, hsplit, -⟩ := List.lookup_eq_some_iff.1 hentry
      exact hfiles (r, .file text) (by simp [hsplit]) text rfl
  · cases hname

/-- The member of a client refers to a controller of one of the project's documents. -/
def refersToProject (s : Session) (m : ApiMember) : Bool :=
  (Lowering.target? s.loweringEnv m.controller).any fun symbol =>
    s.imports.completed.contains symbol.path &&
      (s.imports.get? symbol.path).any fun d =>
        d.origin == .project && (d.controller? symbol.node).isSome

open Lowering in
theorem exists_of_refersToProject {m : ApiMember} (h : refersToProject s m = true) :
    ∃ owner c, memberController? s.loweringEnv m = some (owner, c) ∧ owner ∈ s.projectDocuments := by
  simp only [refersToProject, Option.any_eq_true, Bool.and_eq_true] at h
  obtain ⟨symbol, hsymbol, hpath, owner, howner, horigin, hc⟩ := h
  obtain ⟨c, hc⟩ := Option.isSome_iff_exists.1 hc
  refine ⟨owner, c, ?_, List.mem_filter.2 ⟨List.mem_filterMap.2 ⟨symbol.path, ?_, howner⟩, horigin⟩⟩
  · have hdocument : documentOf? s.loweringEnv symbol = some owner := howner
    simp [memberController?, hsymbol, hdocument, hc]
  · simpa using hpath

/-- The session of a build of the client's file. -/
def servedSession (platform : Platform) : Session :=
  (servedEntry.compile servedTree (some platform)).2

open Lowering in
/-- The client's call of a handler in another file is answered, with its domain replaced. -/
theorem calls_routed_import : ∃ model model' s' t', servedEntry.Unmarked servedTree ∧
    (servedSession .dart).lower = (.ok model, s') ∧ (servedSession .gin).lower = (.ok model', t') ∧
    model.clients.map (·.calls.map (·.name)) = [["one"]] ∧
    ∀ a ∈ model.clients, ∀ call ∈ a.calls, ∃ service ∈ model'.services, service.name = call.service ∧
      ∃ route ∈ service.routes, route.handler = "one" ∧ route.method = .get ∧
        route.path = "/\x7bid\x7d" ∧
        route.bindings = [⟨"id", .primitive .bigint, .path⟩, ⟨"q", .primitive .string, .query⟩] ∧
        route.returns = some (.primitive .bigint) := by
  have hsession : ∀ p, (servedEntry.compile servedTree (some p)).2 = servedSession p :=
    fun p => servedEntry.session_eq servedTree (some p)
  have hfacts : (servedEntry.compile servedTree (some .dart)).1.isOk = true ∧
      (servedEntry.compile servedTree (some .gin)).1.isOk = true ∧
      (servedSession .dart).lower.1.isOk = true ∧ (servedSession .gin).lower.1.isOk = true ∧
      ((servedSession .dart).lower.1.toOption.getD {}).clients.map (·.calls)
        = [[⟨"one", "Users", .get, "/\x7bid\x7d",
          [⟨"id", .primitive .bigint, .path⟩, ⟨"q", .primitive .string, .query⟩],
          some (.primitive .bigint), none⟩]] ∧
      ∀ home ∈ (servedSession .dart).projectDocuments, ∀ api ∈ home.apis,
        ∀ m ∈ api.members, refersToProject (servedSession .dart) m = true := by
    have hrun : ∀ p, servedEntry.compile servedTree p = _ :=
      fun p => compile_file servedTree (.cons (.append rfl rfl) (.cons rfl .nil)) _
    rw [← hsession, ← hsession, hrun, hrun]
    decide +kernel
  obtain ⟨hdart, hgin, hlower, hlower', hcalls, hmembers⟩ := hfacts
  obtain ⟨d, hdart⟩ := exists_of_isOk hdart
  obtain ⟨d', hgin⟩ := exists_of_isOk hgin
  rw [hsession] at hdart hgin
  obtain ⟨model, hlower⟩ := exists_of_isOk hlower
  obtain ⟨model', hlower'⟩ := exists_of_isOk hlower'
  have hrouted := calls_routed served_unmarked rfl hdart hlower hgin hlower'
  rw [hlower] at hcalls
  replace hcalls : model.clients.map (·.calls) = _ := hcalls
  refine ⟨model, model', _, _, served_unmarked, hlower, hlower', ?_, fun a ha call hcall => ?_⟩
  · have hnames := congrArg (List.map (List.map (·.name))) hcalls
    rwa [List.map_map] at hnames
  · obtain ⟨home, hhome, api, hapi, -, -, hflat, hanswered⟩ := hrouted a ha
    have hliteral : a.calls ∈ model.clients.map (·.calls) := List.mem_map_of_mem ha
    rw [hcalls, List.mem_singleton] at hliteral
    have hone := hcall
    rw [hliteral, List.mem_singleton] at hone
    rw [hflat] at hcall
    obtain ⟨m, hm, hcall⟩ := List.mem_flatMap.1 hcall
    obtain ⟨owner, c, hc, howner⟩ := exists_of_refersToProject (hmembers home hhome api hapi m hm)
    obtain ⟨service, hservice, -, -, -, hroutes⟩ := hanswered m hm owner c hc howner
    obtain ⟨hname, route, hroute, hsame⟩ := hroutes call hcall
    rw [hone] at hsame
    exact ⟨service, hservice, hname.symm, route, hroute, hsame⟩

end Entry

end Scaffold
