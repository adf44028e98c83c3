import Scaffold.Proofs.Retargeting
import Scaffold.Proofs.Url
import Scaffold.Proofs.Words

/-!
# Templates of requests

Every request of a code model, a route of a service or a call of a client, comes from a handler, and
each parameter of the handler travels in one place: in the path, in the query, or as the body.

* `Url.Divided`: what lowering knows of the path and the parameters of a request.
* `Session.lower_templates`: when the template of a request has exactly these parameters.
-/

namespace Scaffold

namespace Url

variable {path : String} {bindings : List Model.Binding}

instance (path : String) (query : List String) : Decidable (Consistent path query) :=
  decidable_of_iff
    ((∀ inner ∈ holes path,
        holeName inner ≠ [] ∧ Text.trimChars (holeName inner) = holeName inner) ∧
      ∀ rest ∈ unclosed? path, ∀ name ∈ query.head?, ':' ∈ rest ∧ holeName rest = name.toList)
    ⟨fun h => ⟨h.1, h.2⟩, fun h => ⟨h.named, h.closed⟩⟩

theorem bare_of_isName {name : String} (h : Lexer.isName name = true) : Bare name := by
  have hall : ∀ c ∈ name.toList, Lexer.isNameChar c = true := by
    unfold Lexer.isName at h
    split at h
    · cases h
    · rename_i c cs hcs
      simp only [Bool.and_eq_true] at h
      rw [hcs]
      exact List.forall_mem_cons.2 ⟨Lexer.isNameChar_of_isNameStart h.1.1, List.all_eq_true.1 h.1.2⟩
  refine ⟨fun hmem => ?_, fun hmem => ?_, fun hmem => ?_⟩ <;>
    exact absurd (hall _ hmem) (by decide)

/-- The parameters of a request and its path belong together: every placeholder is a parameter, and
where a parameter travels depends on its name; those that are placeholders travel in the path. -/
structure Divided (path : String) (bindings : List Model.Binding) : Prop where
  named : ∀ b ∈ bindings, Bare b.name
  bound : ∀ name ∈ placeholders path, ∃ b ∈ bindings, b.name = name
  placed : ∀ b ∈ bindings, b.source = .path ↔ b.name ∈ placeholders path
  alike : ∀ b ∈ bindings, ∀ b' ∈ bindings, b.name = b'.name → b.source = b'.source

theorem mem_queryNames {name : String} : name ∈ queryNames bindings ↔
    ∃ b ∈ bindings, b.source = .query ∧ b.name = name := by
  simp [queryNames, and_assoc]

namespace Divided

theorem bare (h : Divided path bindings) : ∀ name ∈ queryNames bindings, Bare name := by
  intro name hname
  obtain ⟨b, hb, -, rfl⟩ := mem_queryNames.1 hname
  exact h.named b hb

/-- The placeholders and the parameters of the query are all but the body. -/
theorem mem_iff (h : Divided path bindings) {b : Model.Binding} (hb : b ∈ bindings) :
    b.name ∈ placeholders path ++ queryNames bindings ↔ b.source ≠ .body := by
  have hquery : b.name ∈ queryNames bindings ↔ b.source = .query := by
    refine mem_queryNames.trans
      ⟨fun ⟨b', hb', hsource, hname⟩ => ?_, fun hsource => ⟨b, hb, hsource, rfl⟩⟩
    rw [h.alike b hb b' hb' hname.symm, hsource]
  rw [List.mem_append, hquery, ← h.placed b hb]
  cases b.source <;> simp

/-- Every one of them is a parameter. -/
theorem exists_of_mem (h : Divided path bindings) {name : String}
    (hname : name ∈ placeholders path ++ queryNames bindings) : ∃ b ∈ bindings, b.name = name := by
  obtain hname | hname := List.mem_append.1 hname
  · exact h.bound name hname
  · obtain ⟨b, hb, -, heq⟩ := mem_queryNames.1 hname
    exact ⟨b, hb, heq⟩

end Divided

end Url

namespace Lowering

variable {env : Env} {c : Source.Controller} {f : Source.Func} {spec : RouteSpec}

theorem bindingSource_eq_path {placeholders : List String} {body : Option String} {name : String} :
    bindingSource placeholders body name = .path ↔ name ∈ placeholders := by
  unfold bindingSource
  split
  · rename_i hmem
    exact iff_of_true rfl (List.contains_iff_mem.1 hmem)
  · rename_i hmem
    refine iff_of_false ?_ fun h => hmem (List.contains_iff_mem.2 h)
    split <;> nofun

/-- A handler whose parameters have words for names answers with path and parameters that belong
together. -/
theorem spec?_divided (hnamed : Source.Named f.params) (h : spec? env c f = some spec) :
    Url.Divided spec.path spec.bindings := by
  unfold spec? at h
  split at h
  · cases h
  · rename_i method path haddress
    split at h
    · rename_i hbound
      cases h
      refine ⟨?_, fun name hname => ?_, ?_, ?_⟩
      · rw [List.forall_mem_map]
        exact fun p hp => Url.bare_of_isName (hnamed p hp)
      · obtain ⟨p, hp, hpname⟩ := List.any_eq_true.1 (List.all_eq_true.1 hbound name hname)
        exact ⟨_, List.mem_map_of_mem hp, eq_of_beq hpname⟩
      · rw [List.forall_mem_map]
        exact fun p hp => bindingSource_eq_path
      · simp only [List.forall_mem_map]
        intro p hp p' hp' hname
        rw [hname]
    · cases h

end Lowering

/-- The paths and the parameters of all requests that the services of a model answer and its clients
make. -/
def CodeModel.requests (m : CodeModel) : List (String × List Model.Binding) :=
  (m.services.flatMap fun s => s.routes.map fun r => (r.path, r.bindings)) ++
    m.clients.flatMap fun a => a.calls.map fun call => (call.path, call.bindings)

namespace Session

variable {s s' : Session} {model : CodeModel}

/-- The handlers of a session's documents have words for the names of their parameters. -/
theorem Worked.named (hs : s.Worked) {p : Path} {d : Source.Document} {c : Source.Controller}
    {f : Source.Func} (hd : s.imports.get? p = some d) (hc : c ∈ d.controllers)
    (hf : f ∈ c.handlers) : Source.Named f.params := by
  obtain ⟨x, hx, hxc⟩ := List.mem_filterMap.1 hc
  have hnamed := hs.declares Source.inherited_named p d hd x hx
  cases x with
  | controller c' =>
    cases hxc
    exact hnamed f hf
  | _ => cases hxc

/-- The path and the parameters of every request belong together. -/
theorem lower_divided (hs : s.Worked) (h : s.lower = (.ok model, s')) :
    ∀ r ∈ model.requests, Url.Divided r.1 r.2 := by
  obtain ⟨rfl, -⟩ := hs.lower_model h
  intro r hr
  obtain hr | hr := List.mem_append.1 hr
  · rw [Lowering.documentsModel_services] at hr
    obtain ⟨service, hservice, hr⟩ := List.mem_flatMap.1 hr
    split at hservice
    · obtain ⟨d, hd, hservice⟩ := List.mem_flatMap.1 hservice
      obtain ⟨c, hc, rfl⟩ := List.mem_map.1 hservice
      obtain ⟨route, hroute, rfl⟩ := List.mem_map.1 hr
      obtain ⟨f, hf, hroute⟩ := List.mem_filterMap.1 hroute
      obtain ⟨spec, hspec, rfl⟩ := Option.map_eq_some_iff.1 hroute
      obtain ⟨p, -, hget⟩ := List.mem_filterMap.1 (List.mem_of_mem_filter hd)
      exact Lowering.spec?_divided (hs.named hget hc hf) hspec
    · cases hservice
  · rw [Lowering.documentsModel_clients] at hr
    obtain ⟨client, hclient, hr⟩ := List.mem_flatMap.1 hr
    split at hclient
    · obtain ⟨d, hd, hclient⟩ := List.mem_flatMap.1 hclient
      obtain ⟨a, ha, rfl⟩ := List.mem_map.1 hclient
      obtain ⟨call, hcall, rfl⟩ := List.mem_map.1 hr
      obtain ⟨m, hm, hcall⟩ := List.mem_flatMap.1 hcall
      unfold Lowering.memberCalls at hcall
      split at hcall
      · cases hcall
      · rename_i owner c hc
        obtain ⟨f, hf, hcall⟩ := List.mem_filterMap.1 hcall
        obtain ⟨spec, hspec, rfl⟩ := Option.map_eq_some_iff.1 hcall
        obtain ⟨⟨p, hget⟩, hc⟩ := Lowering.memberController?_mem hc
        have hf' := Lowering.memberHandlers_subset m c f hf
        exact Lowering.spec?_divided (hs.named hget hc hf') hspec
    · cases hclient

/-- Whatever a session was used for, when the code model is made: the parameters of the template of
any request, a route or a call, are the placeholders of its path and then the parameters of its
query exactly if the path is read in the same way everywhere. Then each of them is a parameter of
the request, and a parameter of the request is one of them unless it travels as the body. -/
theorem lower_templates (hs : s.Worked) (h : s.lower = (.ok model, s')) :
    ∀ r ∈ model.requests,
      let found := Url.params (Url.template r.1 r.2)
      let query := Url.queryNames r.2
      (found = Url.placeholders r.1 ++ query ↔ Url.Consistent r.1 query) ∧
      (Url.Consistent r.1 query → (∀ name ∈ found, ∃ b ∈ r.2, b.name = name) ∧
        ∀ b ∈ r.2, b.name ∈ found ↔ b.source ≠ .body) := by
  intro r hr found query
  have hdivided := lower_divided hs h r hr
  have hiff : found = Url.placeholders r.1 ++ query ↔ Url.Consistent r.1 query :=
    Url.params_template_iff hdivided.bare
  refine ⟨hiff, fun hconsistent => ?_⟩
  rw [hiff.2 hconsistent]
  exact ⟨fun name hname => hdivided.exists_of_mem hname, fun b hb => hdivided.mem_iff hb⟩

/-- The session of a text with a handler for this route, and a client of it. -/
def templateSession (route : String) : Session :=
  ((Call.text { entries := [] } ("controller C \x7b [method='post', body='note', route='" ++
    route ++ "'] func f(id int, note text, q text) \x7b \x7d \x7d api A \x7b C; \x7d")
      ⟨"a.jssp"⟩).run { platform := none }).2

theorem templateSession_eq (route : String) : templateSession route =
    Session.afterCall (.text { entries := [] } ("controller C \x7b [method='post', body='note', route='" ++
      route ++ "'] func f(id int, note text, q text) \x7b \x7d \x7d api A \x7b C; \x7d")
        ⟨"a.jssp"⟩) { platform := none } :=
  rfl

theorem templateSession_worked (route : String) : (templateSession route).Worked :=
  .call (.new _) _

/-- A placeholder with a pattern. -/
theorem lower_templates_pattern : ∃ model s', (templateSession "/users/\x7bid:int\x7d").Worked ∧
    (templateSession "/users/\x7bid:int\x7d").lower = (.ok model, s') ∧
    model.requests.map (fun r => Url.params (Url.template r.1 r.2))
      = [["id", "q"], ["id", "q"]] := by
  have hs := templateSession_worked "/users/\x7bid:int\x7d"
  have hfacts : (templateSession "/users/\x7bid:int\x7d").lower.1.isOk = true ∧
      (∀ r ∈ ((templateSession "/users/\x7bid:int\x7d").lower.1.toOption.getD {}).requests,
        Url.Consistent r.1 (Url.queryNames r.2)) ∧
      ((templateSession "/users/\x7bid:int\x7d").lower.1.toOption.getD {}).requests.map
        (fun r => Url.placeholders r.1 ++ Url.queryNames r.2) = [["id", "q"], ["id", "q"]] := by
    rw [templateSession_eq, Session.afterCall_text (.append (.append rfl rfl) rfl)]
    decide +kernel
  generalize templateSession "/users/\x7bid:int\x7d" = s at *
  obtain ⟨hok, hconsistent, hnames⟩ := hfacts
  obtain ⟨model, hmodel⟩ := Entry.exists_of_isOk hok
  rw [hmodel] at hconsistent hnames
  refine ⟨model, _, hs, hmodel, ?_⟩
  rw [← hnames]
  exact List.map_congr_left fun r hr => (lower_templates hs hmodel r hr).1.2 (hconsistent r hr)

/-- Blanks in the braces of a placeholder: its parameter travels in the path, but the template names
another one. -/
theorem lower_templates_blank : ∃ model s', (templateSession "/users/\x7b id \x7d").Worked ∧
    (templateSession "/users/\x7b id \x7d").lower = (.ok model, s') ∧ ∃ r ∈ model.requests,
      r.2.map (fun b => (b.name, b.source)) = [("id", .path), ("note", .body), ("q", .query)] ∧
      Url.params (Url.template r.1 r.2) = [" id ", "q"] ∧
      Url.placeholders r.1 ++ Url.queryNames r.2 = ["id", "q"] := by
  have hs := templateSession_worked "/users/\x7b id \x7d"
  have hfacts : (templateSession "/users/\x7b id \x7d").lower.1.isOk = true ∧
      ∃ r ∈ ((templateSession "/users/\x7b id \x7d").lower.1.toOption.getD {}).requests,
        r.2.map (fun b => (b.name, b.source)) = [("id", .path), ("note", .body), ("q", .query)] ∧
        Url.params (Url.template r.1 r.2) = [" id ", "q"] ∧
        Url.placeholders r.1 ++ Url.queryNames r.2 = ["id", "q"] := by
    rw [templateSession_eq, Session.afterCall_text (.append (.append rfl rfl) rfl)]
    decide +kernel
  generalize templateSession "/users/\x7b id \x7d" = s at *
  obtain ⟨hok, hrequest⟩ := hfacts
  obtain ⟨model, hmodel⟩ := Entry.exists_of_isOk hok
  rw [hmodel] at hrequest
  exact ⟨model, _, hs, hmodel, hrequest⟩

end Session

end Scaffold
