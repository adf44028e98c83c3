import Mathlib.Data.List.Nodup
import Scaffold.Lowering
import Scaffold.Proofs.Restoring

/-!
# The numbers of declarations

Declarations, their members and result shapes take their numbers from one counter of the session,
also those of files that turn out to be broken. What is finished keeps its numbers apart from all
others.

* `Spends`: the numbers that a part of a run gave out lie between the counter before and after, so
  the numbers of two parts, one after the other, are distinct (`Spends.trans`).
* `Tallies`: which numbers a parser has given out, whether it succeeds or fails.
* `Session.Worked.numbered`: in a session, no two finished declarations have the same number.
-/

namespace Scaffold

open Source

namespace Source

/-- The numbers of a declaration and its members. -/
def Decl.nodes : Decl → List NodeId
  | .mapper m => m.header.id :: m.queries.map (·.header.id)
  | .controller c => c.header.id :: c.handlers.map (·.header.id)
  | d => [d.header.id]

def Document.nodes (d : Document) : List NodeId :=
  d.decls.flatMap Decl.nodes ++ d.shapes.map (·.id)

end Source

namespace ImportTable

variable {t t' : ImportTable} {p : Path} {d : Source.Document}

theorem documents_begin (h : t.begin p = .ok (none, t')) : t'.documents = t.documents := by
  obtain ⟨-, hcompleted, -⟩ := begin_none h
  unfold documents
  rw [hcompleted]
  exact List.filterMap_congr fun q _ => get?_begin h q

/-- The document of a file that is finished is listed last. -/
theorem documents_finish (ht : t.Filled) (hp : t.isInProgress p = true) :
    (t.finish p d).documents = t.documents ++ [d] := by
  show (t.completed ++ [p]).filterMap (t.finish p d).get? = t.completed.filterMap t.get? ++ [d]
  rw [List.filterMap_append, List.filterMap_cons, get?_finish]
  refine congrArg (· ++ [d]) ?_
  refine List.filterMap_congr fun q hq => ?_
  obtain ⟨d', hd'⟩ := Option.isSome_iff_exists.1 (ht q hq)
  rw [hd', (get?_finish_of_isInProgress hp).2 (.inl hd')]

theorem documents_abandon (ht : t.Filled) : (t.abandon p).documents = t.documents := by
  refine List.filterMap_congr fun q hq => ?_
  obtain ⟨d', hd'⟩ := Option.isSome_iff_exists.1 (ht q hq)
  rw [hd', get?_abandon hd']

end ImportTable

/-- Parts without a common member are told apart by any member. -/
theorem eq_of_nodup_flatMap {α β : Type} {xs : List α} {f : α → List β} (h : (xs.flatMap f).Nodup)
    {x y : α} (hx : x ∈ xs) (hy : y ∈ xs) {b : β} (hbx : b ∈ f x) (hby : b ∈ f y) : x = y := by
  by_contra hne
  have : Std.Symm (Function.onFun List.Disjoint f) := ⟨fun _ _ h _ hx hy => h hy hx⟩
  exact (List.nodup_flatMap.1 h).2.forall hx hy hne hbx hby

theorem Source.Decl.id_mem_nodes (x : Decl) : x.header.id ∈ x.nodes := by
  cases x <;> exact List.mem_cons_self

/-! ## Giving out numbers -/

namespace Session

/-- Between the two sessions some documents were finished, and numbers were given to them and to
`ids`, to each its own. -/
structure Spends (ids : List NodeId) (s s' : Session) : Prop where
  imports : s.imports.Restored s'.imports
  le : s.nextNode ≤ s'.nextNode
  given : ∃ ds, s'.imports.documents = s.imports.documents ++ ds ∧
    (ids ++ ds.flatMap Document.nodes).Nodup ∧
    ∀ n ∈ ids ++ ds.flatMap Document.nodes, s.nextNode ≤ n ∧ n < s'.nextNode

namespace Spends

variable {ids ids' : List NodeId} {s s' s'' : Session}

/-- The files are the same, so nothing was finished. -/
theorem of_same (himports : s'.imports = s.imports) (hle : s.nextNode ≤ s'.nextNode)
    (hnodup : ids.Nodup) (hids : ∀ n ∈ ids, s.nextNode ≤ n ∧ n < s'.nextNode) : Spends ids s s' := by
  refine ⟨?_, hle, [], ?_, ?_, ?_⟩
  · rw [himports]
    exact .refl _
  · rw [himports, List.append_nil]
  · rwa [List.flatMap_nil, List.append_nil]
  · rwa [List.flatMap_nil, List.append_nil]

theorem refl (s : Session) : Spends [] s s :=
  of_same rfl (Nat.le_refl _) .nil nofun

/-- Numbers given out later are larger. -/
theorem trans (h : Spends ids s s') (h' : Spends ids' s' s'') : Spends (ids ++ ids') s s'' := by
  obtain ⟨ds, hds, hnodup, hbound⟩ := h.given
  obtain ⟨ds', hds', hnodup', hbound'⟩ := h'.given
  have hperm : (ids ++ ids' ++ (ds ++ ds').flatMap Document.nodes).Perm
      ((ids ++ ds.flatMap Document.nodes) ++ (ids' ++ ds'.flatMap Document.nodes)) := by
    rw [List.perm_iff_count]
    intro n
    simp only [List.flatMap_append, List.count_append]
    omega
  refine ⟨h.imports.trans h'.imports, Nat.le_trans h.le h'.le, ds ++ ds', ?_, ?_, fun n hn => ?_⟩
  · rw [hds', hds, List.append_assoc]
  · rw [hperm.nodup_iff]
    refine hnodup.append hnodup' fun n hn hn' => ?_
    exact Nat.lt_irrefl n (Nat.lt_of_lt_of_le (hbound n hn).2 (hbound' n hn').1)
  · obtain hn | hn := List.mem_append.1 (hperm.mem_iff.1 hn)
    · exact ⟨(hbound n hn).1, Nat.lt_of_lt_of_le (hbound n hn).2 h'.le⟩
    · exact ⟨Nat.le_trans h.le (hbound' n hn).1, (hbound' n hn).2⟩

/-- A number may be forgotten. -/
theorem sublist (h : Spends ids s s') (hsub : ids'.Sublist ids) : Spends ids' s s' := by
  obtain ⟨ds, hds, hnodup, hbound⟩ := h.given
  have hsub := hsub.append (List.Sublist.refl (ds.flatMap Document.nodes))
  exact ⟨h.imports, h.le, ds, hds, hnodup.sublist hsub, fun n hn => hbound n (hsub.subset hn)⟩

theorem forget (h : Spends ids s s') : Spends [] s s' :=
  h.sublist (List.nil_sublist _)

/-- Steps that leave the files alone give out nothing that is kept. -/
theorem still (h : Spends ids s s') (himports : s''.imports = s'.imports)
    (hle : s'.nextNode ≤ s''.nextNode) : Spends ids s s'' := by
  have hnone : Spends [] s' s'' := of_same himports hle .nil nofun
  have hall := h.trans hnone
  rwa [List.append_nil] at hall

end Spends

/-- Loading any file gives out numbers in order, whether it is loaded or not. -/
def SpendsAll (load : Loader) : Prop :=
  ∀ f s, s.imports.Marked → s.imports.Filled → Spends [] s (load f s).2

end Session

namespace Source

/-! ## Parsers -/

/-- Every value of the parser is like this. -/
def Answers {α : Type} (p : Parser α) (P : α → Prop) : Prop :=
  ∀ env s a s', p env s = (.ok a, s') → P a

namespace Answers

variable {α β : Type} {p : Parser α} {f : α → Parser β} {P : β → Prop}

theorem pure {b : β} (h : P b) : Answers (Pure.pure b) P := by
  intro env s a s' hp
  cases hp
  exact h

theorem bind (h : ∀ a, Answers (f a) P) : Answers (p >>= f) P := by
  intro env s b s' hp
  obtain ⟨a, s₁, -, hf⟩ := Parser.bind_ok.1 hp
  exact h a _ _ _ _ hf

theorem fail (e : CompileError) : Answers (Parser.fail e) P := by
  intro env s a s' hp
  cases hp

theorem expected (what : String) : Answers (Parser.expected what) P := by
  intro env s a s' hp
  cases hp

end Answers

/-- Where the numbers `ids` have been given out since the session `s₀`, the parser gives out more, so
that they are those of its value; if it fails, they are lost. -/
structure Tallies {α : Type} (env : ParserEnv) (s₀ : Session) (ids : List NodeId) (p : Parser α)
    (total : α → List NodeId) : Prop where
  ok : ∀ {s a s'}, s₀.Spends ids s.session → p env s = (.ok a, s') →
    s₀.Spends (total a) s'.session
  error : ∀ {s e s'}, s₀.Spends ids s.session → p env s = (.error e, s') → s₀.Spends [] s'.session

namespace Tallies

variable {α β : Type} {env : ParserEnv} {s₀ : Session} {ids : List NodeId} {p : Parser α}
  {f : α → Parser β} {total : α → List NodeId} {total' : β → List NodeId}

/-- A parser that keeps apart from other files gives out no number that is kept. -/
theorem tame (hp : Tame p) : Tallies env s₀ ids p fun _ => ids where
  ok {s a s'} hs h := by
    have hstill := (hp []).still env s
    rw [h] at hstill
    exact hs.still hstill.session.imports hstill.numbers
  error {s e s'} hs h := by
    have hstill := (hp []).still env s
    rw [h] at hstill
    exact (hs.still hstill.session.imports hstill.numbers).forget

theorem pure (a : α) (ha : (total a).Sublist ids) : Tallies env s₀ ids (Pure.pure a) total where
  ok hs h := by
    cases h
    exact hs.sublist ha
  error _ h := by cases h

theorem expected (what : String) : Tallies env s₀ ids (Parser.expected what) total where
  ok _ h := by cases h
  error hs h := by
    cases h
    exact hs.forget

/-- One parser after the other, where something is known of the first one's value. -/
theorem bind_of {P : α → Prop} (hp : Tallies env s₀ ids p total) (hP : Answers p P)
    (hf : ∀ a, P a → Tallies env s₀ (total a) (f a) total') :
    Tallies env s₀ ids (p >>= f) total' where
  ok hs h := by
    obtain ⟨a, s₁, h₁, h₂⟩ := Parser.bind_ok.1 h
    exact (hf a (hP _ _ _ _ h₁)).ok (hp.ok hs h₁) h₂
  error {s e s'} hs h := by
    rcases h₁ : p env s with ⟨e' | a, s₁⟩
    · rw [Parser.bind_failed h₁] at h
      cases h
      exact hp.error hs h₁
    · rw [Parser.bind_run h₁] at h
      exact (hf a (hP _ _ _ _ h₁)).error (hp.ok hs h₁) h

theorem bind (hp : Tallies env s₀ ids p total)
    (hf : ∀ a, Tallies env s₀ (total a) (f a) total') : Tallies env s₀ ids (p >>= f) total' :=
  hp.bind_of (P := fun _ => True) (fun _ _ _ _ _ => trivial) fun a _ => hf a

theorem step (hp : Tame p) (hf : ∀ a, Tallies env s₀ ids (f a) total') :
    Tallies env s₀ ids (p >>= f) total' :=
  (tame hp).bind hf

theorem untilFuel {stop : Parser Bool} {step : β → Parser β} (hstop : Tame stop)
    (hstep : ∀ b, Tallies env s₀ (total' b) (step b) total') :
    ∀ (fuel : Nat) (b : β), Tallies env s₀ (total' b) (Parser.untilFuel stop step fuel b) total'
  | 0, b => .pure b (List.Sublist.refl _)
  | fuel + 1, b => by
    refine .step hstop fun _ => ?_
    split
    · exact .pure b (List.Sublist.refl _)
    · exact .bind (hstep b) fun b' => untilFuel hstop hstep fuel b'

end Tallies

namespace Parser

/-! ## Declarations -/

section

variable (hd : Header) (active : Bool)

theorem importDecl_header : Answers (importDecl hd) (·.header = hd) := by
  refine .bind fun _ => .bind fun _ => .bind fun _ => .bind fun _ => .bind fun _ => ?_
  split
  · exact .fail _
  · refine .bind fun _ => ?_
    split
    · exact .fail _
    · exact .bind fun _ => .bind fun _ => .pure rfl

theorem domainDecl_header : Answers (domainDecl hd active) (·.header = hd) :=
  .bind fun _ => .bind fun _ => .bind fun _ => .bind fun _ => .bind fun _ => .pure rfl

theorem tableDecl_header : Answers (tableDecl hd active) (·.header = hd) := by
  refine .bind fun _ => .bind fun _ => .bind fun _ => .bind fun _ => .bind fun _ => .bind fun _ => ?_
  split
  · exact .bind fun _ => .pure rfl
  · exact .pure rfl

theorem entityDecl_header : Answers (entityDecl hd active) (·.header = hd) := by
  refine .bind fun _ => .bind fun _ => .bind fun _ => .bind fun _ => ?_
  extract_lets withTable
  have hwith : ∀ table, Answers (withTable table) (·.header = hd) := by
    intro table
    refine .bind fun _ => ?_
    split
    · exact .bind fun _ => .pure rfl
    · exact .bind fun _ => .pure rfl
  split
  · exact .bind fun _ => .bind fun _ => hwith _
  · exact hwith none

theorem recordDecl_header : Answers (recordDecl hd active) (·.header = hd) :=
  .bind fun _ => .bind fun _ => .bind fun _ => .bind fun _ => .pure rfl

theorem funcDecl_header (kind : SymbolKind) : Answers (funcDecl hd active kind) (·.header = hd) :=
  .bind fun _ => .bind fun _ => .bind fun _ => .bind fun _ => .bind fun _ => .pure rfl

theorem queryDecl_header : Answers (queryDecl hd active) (·.header = hd) := by
  refine .bind fun _ => .bind fun _ => .bind fun _ => .bind fun _ => .bind fun _ => .bind fun _ => ?_
  split
  · exact .bind fun _ => .pure rfl
  · exact .expected _

theorem apiDecl_header : Answers (apiDecl hd active) (·.header = hd) :=
  .bind fun _ => .bind fun _ => .bind fun _ => .bind fun _ => .bind fun _ => .bind fun _ => .pure rfl

theorem pageDecl_header : Answers (pageDecl hd active) (·.header = hd) := by
  refine .bind fun _ => .bind fun _ => .bind fun _ => .bind fun _ => ?_
  extract_lets withParent
  have hparent : ∀ parent, Answers (withParent parent) (·.header = hd) := by
    intro parent
    dsimp -zeta only [withParent]
    extract_lets withLayout
    have hlayout : ∀ layout, Answers (withLayout layout) (·.header = hd) := by
      intro layout
      refine .bind fun _ => ?_
      split
      · refine .bind fun _ => ?_
        extract_lets withMarkup
        have hmarkup : ∀ nodes, Answers (withMarkup nodes) (·.header = hd) := fun _ =>
          .bind fun _ => .pure rfl
        split
        · exact hmarkup _
        · exact .bind fun _ => hmarkup []
      · exact .expected _
    split
    · exact .bind fun _ => hlayout _
    · exact hlayout none
  split
  · exact .bind fun _ => .bind fun _ => hparent _
  · exact hparent none

theorem propertyDecl_header : Answers (propertyDecl hd active) (·.header = hd) := by
  refine .bind fun _ => .bind fun _ => .bind fun _ => .bind fun _ => .bind fun _ => ?_
  extract_lets withValue
  have hwith : ∀ value, Answers (withValue value) (·.header = hd) := fun _ =>
    .bind fun _ => .pure rfl
  split
  · exact .bind fun _ => hwith _
  · exact hwith none

end

section

variable {env : ParserEnv} {s₀ : Session} {ids : List NodeId}

/-- Every declaration and every member starts with a number of its own. -/
theorem header_tallies : Tallies env s₀ ids header fun h => ids ++ [h.1.id] where
  ok {s h s'} hs hrun := by
    rw [header_run] at hrun
    cases hrun
    refine hs.trans (.of_same rfl (Nat.le_succ _) (List.nodup_singleton _) fun n hn => ?_)
    rw [List.mem_singleton.1 hn]
    exact ⟨Nat.le_refl _, Nat.lt_succ_self _⟩
  error _ hrun := by
    rw [header_run] at hrun
    cases hrun

theorem inScope_tallies {α : Type} {p : Parser α} {total : α → List NodeId} (kind : ScopeKind)
    (hp : Tallies env s₀ ids p total) :
    Tallies env s₀ ids (inScope kind p) fun x => total x.2 := by
  have heq : ∀ s, inScope kind p env s = ((p env (s.enter env kind)).1.map
      (s.session.symbols.scopes.size, ·), (p env (s.enter env kind)).2.leave) := fun _ => rfl
  have henter : ∀ {s : ParserState}, s₀.Spends ids s.session →
      s₀.Spends ids (s.enter env kind).session := fun hs => hs.still rfl (Nat.le_refl _)
  refine ⟨fun {s x s'} hs h => ?_, fun {s e s'} hs h => ?_⟩
  · rw [heq] at h
    rcases hrun : p env (s.enter env kind) with ⟨e | a, s₁⟩
    · rw [hrun] at h
      cases h
    · rw [hrun] at h
      cases h
      exact (hp.ok (henter hs) hrun).still rfl (Nat.le_refl _)
  · rw [heq] at h
    rcases hrun : p env (s.enter env kind) with ⟨e | a, s₁⟩
    · rw [hrun] at h
      cases h
      exact (hp.error (henter hs) hrun).still rfl (Nat.le_refl _)
    · rw [hrun] at h
      cases h

/-- The members that are kept have their own numbers. -/
theorem members_tallies {α : Type} {active : Bool} {member : Header → Bool → Parser α}
    (node : α → NodeId) (hmember : ∀ h active, Tame (member h active))
    (hnode : ∀ h active, Answers (member h active) (node · = h.id)) :
    Tallies env s₀ ids (members active member) fun items => ids ++ items.map node := by
  let total (items : List α) : List NodeId := ids ++ items.map node
  have hstep : ∀ items, Tallies env s₀ (total items) (members.step active member items) total := by
    intro items
    refine .bind header_tallies fun h => ?_
    refine .bind_of (.tame (hmember h.1 (active && h.2))) (hnode _ _) fun item hitem => .pure _ ?_
    rw [← hitem]
    split
    · simp only [total, List.map_append, List.map_cons, List.map_nil, List.append_assoc]
      exact List.Sublist.refl _
    · exact List.sublist_append_left _ _
  have hloop : Tallies env s₀ ids (untilClose .braceClose (members.step active member) [])
      total := by
    refine .step remaining_tame fun n => ?_
    have hnil : total [] = ids := List.append_nil ids
    rw [← hnil]
    exact .untilFuel (.bind peek_tame fun _ => .pure _) hstep (n + 1) []
  have hclose : ∀ items, Tallies env s₀ (total items)
      (do expectPunct .braceClose; return items) total := fun items =>
    .step (expectPunct_tame trivial) fun _ => .pure items (List.Sublist.refl _)
  have hbody := hloop.bind hclose
  exact .step (expectPunct_tame trivial) fun _ => (inScope_tallies .declaration hbody).bind fun x =>
    .pure x.2 (List.Sublist.refl _)

theorem mapperDecl_tallies (hd : Header) (active : Bool) :
    Tallies env s₀ (ids ++ [hd.id]) (mapperDecl hd active) fun m => ids ++ (Decl.mapper m).nodes := by
  refine .step (expectKeyword_tame trivial) fun _ => .step ident_level.tame fun _ =>
    .step (declare_idle _ _ _ _ _).tame fun _ => ?_
  refine .bind (members_tallies (fun q => q.header.id)
    (fun h active => (queryDecl_whole h active).tame) fun h active _ _ _ _ hq =>
      congrArg Header.id (queryDecl_header h active _ _ _ _ hq)) fun qs => .pure _ ?_
  rw [List.append_assoc]
  exact List.Sublist.refl _

theorem controllerDecl_tallies (hd : Header) (active : Bool) :
    Tallies env s₀ (ids ++ [hd.id]) (controllerDecl hd active)
      fun c => ids ++ (Decl.controller c).nodes := by
  refine .step (expectKeyword_tame trivial) fun _ => .step ident_level.tame fun _ =>
    .step (declare_idle _ _ _ _ _).tame fun _ => ?_
  refine .bind (members_tallies (fun f => f.header.id) (fun h active => ?_)
    fun h active => ?_) fun fs => .pure _ ?_
  · exact (handlerDecl_whole h active _).tame
  · intro env s f s' hf
    obtain ⟨g, s₁, hg, hf⟩ := bind_ok.1 hf
    have hheader := funcDecl_header h active .handler _ _ _ _ hg
    split at hf
    · obtain ⟨_, s₂, -, hf⟩ := bind_ok.1 hf
      obtain ⟨rfl, -⟩ := pure_ok.1 hf
      exact congrArg Header.id hheader
    · obtain ⟨rfl, -⟩ := pure_ok.1 hf
      exact congrArg Header.id hheader
  · rw [List.append_assoc]
    exact List.Sublist.refl _

variable (hload : Session.SpendsAll env.load) (hmarked : s₀.imports.Marked)
  (hfilled : s₀.imports.Filled)
include hload hmarked hfilled

/-- An import gives out the numbers of the files it loads. -/
theorem importDecl_tallies (hd : Header) : Tallies env s₀ ids (importDecl hd) fun _ => ids := by
  have hrun : ∀ s, s₀.Spends ids s.session → s₀.Spends ids (importDecl hd env s).2.session := by
    intro s hs
    cases importDecl_meeting hd env s with
    | none hran _ =>
      rw [hran.run env.load]
      exact hs.still hran.still.session.imports hran.still.numbers
    | load s₁ written found value hrun hstill _ _ _ =>
      rw [hrun env.load]
      have hs₁ := hs.still hstill.session.imports hstill.numbers
      have hfile := hs₁.trans (hload found s₁.session (hs₁.imports.marked hmarked)
        (hs₁.imports.filled hfilled))
      rw [List.append_nil] at hfile
      unfold importing
      rcases hout : env.load found s₁.session with ⟨e | d, session⟩
      · rw [hout] at hfile
        exact hfile
      · rw [hout] at hfile
        exact hfile.still rfl (Nat.le_refl _)
  refine ⟨fun {s i s'} hs h => ?_, fun {s e s'} hs h => ?_⟩
  · have hend := hrun s hs
    rw [h] at hend
    exact hend
  · have hend := hrun s hs
    rw [h] at hend
    exact hend.forget

theorem declOf_tallies (hd : Header) (active : Bool) (kind : TokenKind) :
    Tallies env s₀ (ids ++ [hd.id]) (declOf hd active kind) fun d => ids ++ d.nodes := by
  -- A declaration without members has the number of its header.
  have hplain : ∀ {α : Type} {p : Parser α} {toDecl : α → Decl}, Whole p →
      Answers p (fun a => (toDecl a).nodes = [hd.id]) →
      Tallies env s₀ (ids ++ [hd.id]) (p >>= fun a => pure (toDecl a)) fun d => ids ++ d.nodes := by
    intro α p toDecl hwhole hnodes
    refine .bind_of (.tame hwhole.tame) hnodes fun a ha => ?_
    rw [← ha]
    exact .pure _ (List.Sublist.refl _)
  unfold declOf
  split
  · refine .bind_of (P := fun i => i.header = hd) (importDecl_tallies hload hmarked hfilled hd)
      (importDecl_header hd) fun i hi => ?_
    rw [← hi]
    exact .pure _ (List.Sublist.refl _)
  · exact hplain (domainDecl_whole hd active) fun _ _ _ _ h =>
      congrArg (fun x => [Header.id x]) (domainDecl_header hd active _ _ _ _ h)
  · exact hplain (tableDecl_whole hd active) fun _ _ _ _ h =>
      congrArg (fun x => [Header.id x]) (tableDecl_header hd active _ _ _ _ h)
  · exact hplain (entityDecl_whole hd active) fun _ _ _ _ h =>
      congrArg (fun x => [Header.id x]) (entityDecl_header hd active _ _ _ _ h)
  · exact hplain (recordDecl_whole hd active) fun _ _ _ _ h =>
      congrArg (fun x => [Header.id x]) (recordDecl_header hd active _ _ _ _ h)
  · exact .bind (mapperDecl_tallies hd active) fun m => .pure (Decl.mapper m) (List.Sublist.refl _)
  · exact .bind (controllerDecl_tallies hd active) fun c =>
      .pure (Decl.controller c) (List.Sublist.refl _)
  · exact hplain (apiDecl_whole hd active) fun _ _ _ _ h =>
      congrArg (fun x => [Header.id x]) (apiDecl_header hd active _ _ _ _ h)
  · exact hplain (pageDecl_whole hd active) fun _ _ _ _ h =>
      congrArg (fun x => [Header.id x]) (pageDecl_header hd active _ _ _ _ h)
  · exact hplain (propertyDecl_whole hd active) fun _ _ _ _ h =>
      congrArg (fun x => [Header.id x]) (propertyDecl_header hd active _ _ _ _ h)
  · exact hplain (funcDecl_whole hd active .func) fun _ _ _ _ h =>
      congrArg (fun x => [Header.id x]) (funcDecl_header hd active .func _ _ _ _ h)
  · exact .expected _

theorem decl_tallies : Tallies env s₀ ids decl fun o => ids ++ o.toList.flatMap Decl.nodes := by
  rw [decl_eq]
  refine .bind header_tallies fun hd => .step peek_tame fun t =>
    .bind (declOf_tallies hload hmarked hfilled hd.1 hd.2 t.kind) fun d => .pure _ ?_
  cases hd.2 with
  | false => simp
  | true => simp

theorem decls_tallies : Tallies env s₀ [] decls fun ds => ds.flatMap Decl.nodes := by
  refine .step remaining_tame fun n => ?_
  have hstep : ∀ ds : List Decl, Tallies env s₀ (ds.flatMap Decl.nodes) (decls.step ds)
      fun ds => ds.flatMap Decl.nodes := ?_
  · exact .untilFuel (.bind peek_tame fun _ => .pure _) hstep (n + 1) []
  intro ds
  refine .step (skipPunct_tame trivial) fun _ => ?_
  split
  · exact .pure _ (List.Sublist.refl _)
  · refine .bind (decl_tallies hload hmarked hfilled) fun o => .pure _ ?_
    rw [List.flatMap_append]

end

end Parser

/-! ## Documents -/

namespace Binder

theorem queries_nodes (b : Binder) (mapper : String) : ∀ (qs : List Query) (ds : Diagnostics),
    ((b.queries mapper qs).run ds).1.map (·.header.id) = qs.map (·.header.id)
  | [], _ => rfl
  | q :: rest, _ => congrArg (q.header.id :: ·) (queries_nodes b mapper rest _)

theorem handlers_nodes (b : Binder) (controller : String) : ∀ (fs : List Func) (ds : Diagnostics),
    ((b.handlers controller fs).run ds).1.map (·.header.id) = fs.map (·.header.id)
  | [], _ => rfl
  | f :: rest, _ => congrArg (f.header.id :: ·) (handlers_nodes b controller rest _)

theorem dataDecl_nodes (b : Binder) (d : Decl) (ds : Diagnostics) :
    ((b.dataDecl d).run ds).1.nodes = d.nodes := by
  cases d <;> rfl

theorem otherDecl_nodes (b : Binder) (d : Decl) (ds : Diagnostics) :
    ((b.otherDecl d).run ds).1.nodes = d.nodes := by
  cases d with
  | mapper m => exact congrArg (m.header.id :: ·) (queries_nodes b m.name m.queries ds)
  | controller c => exact congrArg (c.header.id :: ·) (handlers_nodes b c.name c.handlers ds)
  | _ => rfl

/-- Binding names changes no number. -/
theorem decls_nodes {bindDecl : Decl → Bind Decl}
    (h : ∀ d ds, ((bindDecl d).run ds).1.nodes = d.nodes) : ∀ (decls : List Decl) (ds : Diagnostics),
    ((Binder.decls bindDecl decls).run ds).1.flatMap Decl.nodes = decls.flatMap Decl.nodes
  | [], _ => rfl
  | d :: rest, ds => by
    show ((bindDecl d).run ds).1.nodes ++ ((Binder.decls bindDecl rest).run _).1.flatMap Decl.nodes
      = d.nodes ++ rest.flatMap Decl.nodes
    rw [h, decls_nodes h rest]

end Binder

namespace Shape

theorem declare_spends (d : Document) (s : Session) (shape : ResultShape) :
    s.Spends ((declare d s shape).1.toList.map (·.id)) (declare d s shape).2 := by
  rw [declare_symbol]
  split
  · refine .of_same rfl (Nat.le_succ _) (List.nodup_singleton _) fun n hn => ?_
    rw [List.mem_singleton.1 hn]
    exact ⟨Nat.le_refl _, Nat.lt_succ_self _⟩
  · exact .of_same rfl (Nat.le_succ _) .nil nofun

theorem declareAll_spends (d : Document) : ∀ (shapes : List ResultShape) (s : Session),
    s.Spends ((declareAll d shapes s).1.map (·.id)) (declareAll d shapes s).2
  | [], s => .refl s
  | shape :: rest, s => by
    have hall := (declare_spends d s shape).trans (declareAll_spends d rest (declare d s shape).2)
    rw [← List.map_append] at hall
    exact hall

end Shape

/-- A document that has been read is completed with shapes. -/
theorem complete_spends {d : Document} {s₀ s : Session} (hd : d.shapes = [])
    (hs : s₀.Spends (d.decls.flatMap Decl.nodes) s) :
    s₀.Spends (complete d s).1.nodes (complete d s).2 := by
  let p := Shape.pending ⟨{ d with decls := (firstPass d s).1 }, s.imports, s.symbols⟩
  have hshapes := Shape.declareAll_spends { d with decls := (firstPass d s).1 } p.shapes
    { s with diagnostics := (firstPass d s).2 ++ p.warnings }
  have hnodes : (complete d s).1.nodes = d.decls.flatMap Decl.nodes ++
      (Shape.declareAll { d with decls := (firstPass d s).1 } p.shapes
        { s with diagnostics := (firstPass d s).2 ++ p.warnings }).1.map (·.id) := by
    show ((secondPass d s).1.flatMap Decl.nodes) ++ (d.shapes ++ _).map (·.id) = _
    rw [hd, List.nil_append, secondPass, Binder.decls_nodes (Binder.otherDecl_nodes _), firstPass,
      Binder.decls_nodes (Binder.dataDecl_nodes _)]
    rfl
  rw [hnodes]
  have hmid : s₀.Spends (d.decls.flatMap Decl.nodes)
      { s with diagnostics := (firstPass d s).2 ++ p.warnings } := hs.still rfl (Nat.le_refl _)
  exact (hmid.trans hshapes).still rfl (Nat.le_refl _)

variable {tree : FileTree} {load : Loader} {text : String} {f : SourceFile} {s : Session}

/-- A file that is read gives out the numbers of its document and of the files it loads; if it is
broken, all its own are lost. -/
theorem parseDocument_spends (hload : Session.SpendsAll load) (hmarked : s.imports.Marked)
    (hfilled : s.imports.Filled) :
    match parseDocument tree load text f s with
    | (.ok d, s') => s.Spends d.nodes s'
    | (.error _, s') => s.Spends [] s' := by
  cases htokens : tokenize text with
  | error m =>
    unfold parseDocument
    rw [htokens]
    exact .refl s
  | ok tokens =>
    have hdecls : Tallies (fileEnv tree load f s) s [] Parser.decls fun ds => ds.flatMap Decl.nodes :=
      Parser.decls_tallies hload hmarked hfilled
    have hstart : s.Spends [] (fileStart tokens f s).session :=
      .of_same rfl (Nat.le_refl _) .nil nofun
    rw [parseDocument_eq load f s htokens]
    rcases hrun : Parser.decls (fileEnv tree load f s) (fileStart tokens f s) with ⟨e | ds, final⟩
    · exact (hdecls.error hstart hrun).still rfl (Nat.le_refl _)
    · exact complete_spends rfl ((hdecls.ok hstart hrun).still rfl (Nat.le_refl _))

theorem parseText_spends (hload : Session.SpendsAll load) (hmarked : s.imports.Marked)
    (hfilled : s.imports.Filled) : s.Spends [] (parseText tree load text f s).2 := by
  cases hmark : s.imports.isInProgress (tree.canonical f.path) with
  | true =>
    rw [parseText_inProgress hmark]
    exact .refl s
  | false =>
    cases hget : s.imports.get? (tree.canonical f.path) with
    | some d =>
      rw [parseText_finished hget]
      exact .refl s
    | none =>
      obtain ⟨imports, hbegin⟩ := ImportTable.begin_new (ImportTable.state?_of_none hget hmark)
      obtain ⟨-, hcompleted, -⟩ := ImportTable.begin_none hbegin
      have hfilled' : imports.Filled := fun q hq => by
        rw [hcompleted] at hq
        rw [ImportTable.get?_begin hbegin]
        exact hfilled q hq
      have hparse : match parseDocument tree load text { f with path := tree.canonical f.path }
          { s with imports } with
        | (.ok d, s') => Session.Spends d.nodes { s with imports } s'
        | (.error _, s') => Session.Spends [] { s with imports } s' :=
        parseDocument_spends hload (hmarked.begin hbegin) hfilled'
      rw [parseText_new hbegin]
      generalize tree.canonical f.path = key at hbegin hparse ⊢
      have hkey : imports.isInProgress key = true := by
        rw [ImportTable.isInProgress_begin hbegin, Path.same_iff.2 rfl, Bool.true_or]
      dsimp only
      generalize parseDocument tree load text { f with path := key } { s with imports } = r
        at hparse ⊢
      obtain ⟨e | d, s'⟩ := r
      · -- The file is given up, and what it imported stays.
        obtain ⟨ds, hds, hnodup, hbound⟩ := hparse.given
        refine ⟨ImportTable.restored_abandon hbegin hparse.imports, hparse.le, ds, ?_, hnodup, hbound⟩
        show (s'.imports.abandon key).documents = _
        rw [ImportTable.documents_abandon (hparse.imports.filled hfilled'), hds,
          ← ImportTable.documents_begin hbegin]
      · obtain ⟨ds, hds, hnodup, hbound⟩ := hparse.given
        have hperm : ((ds ++ [d]).flatMap Document.nodes).Perm
            (d.nodes ++ ds.flatMap Document.nodes) := by
          rw [List.flatMap_append, List.flatMap_cons, List.flatMap_nil, List.append_nil]
          exact List.perm_append_comm
        refine ⟨ImportTable.restored_finish hbegin hparse.imports, hparse.le, ds ++ [d], ?_, ?_,
          fun n hn => ?_⟩
        · show (s'.imports.finish key d).documents = _
          rw [ImportTable.documents_finish (hparse.imports.filled hfilled')
            ((hparse.imports.inProgress key).trans hkey), hds, List.append_assoc,
            ← ImportTable.documents_begin hbegin]
        · rw [List.nil_append, hperm.nodup_iff]
          exact hnodup
        · exact hbound n (hperm.mem_iff.1 hn)

theorem loadFile_spends (tree : FileTree) : ∀ n, Session.SpendsAll (loadFile tree n)
  | 0 => fun _ s _ _ => .refl s
  | n + 1 => fun f s hmarked hfilled => by
    rw [loadFile]
    cases s.imports.get? (tree.canonical f.path) with
    | some d => exact .refl s
    | none =>
      dsimp only
      split
      · exact parseText_spends (loadFile_spends tree n) hmarked hfilled
      · cases tree.read f.path with
        | error cause => exact .refl s
        | ok text => exact parseText_spends (loadFile_spends tree n) hmarked hfilled

end Source

/-! ## Sessions -/

theorem Call.run_spends (c : Call) {s : Session} (hs : s.Resting) : s.Spends [] (c.run s).2 := by
  cases c with
  | text tree source name =>
    exact parseText_spends (loadFile_spends tree _) hs.marked hs.filled
  | file tree entry roots =>
    show s.Spends [] (s.compileFile tree entry roots).2
    cases hprelude : SourceFile.searchRoots { path := ⟨""⟩, roots } tree "prelude.jssp" with
    | none =>
      rw [Session.compileFile_of_none hprelude]
      exact loadFile_spends tree _ _ s hs.marked hs.filled
    | some f =>
      rw [Session.compileFile_of_some hprelude]
      have hfirst : s.Spends [] (s.load tree f).2 := loadFile_spends tree _ f s hs.marked hs.filled
      dsimp only
      generalize s.load tree f = r at hfirst ⊢
      obtain ⟨e | d, s₁⟩ := r
      · exact hfirst
      · have hnext : s.Spends [] { s₁ with symbols := s₁.symbols.setPrelude d.scope } :=
          hfirst.still rfl (Nat.le_refl _)
        exact hnext.trans (loadFile_spends tree _ _ _ (hnext.imports.marked hs.marked)
          (hnext.imports.filled hs.filled))

namespace Session

/-- A session that was used: texts and files were compiled, whether they had errors or not, the code
model was made, and the session was cleared. -/
inductive Worked : Session → Prop where
  | new (platform : Option Platform) : Worked { platform }
  | call {s : Session} (h : Worked s) (c : Call) : Worked (c.run s).2
  | lower {s : Session} (h : Worked s) : Worked s.lower.2
  | reset {s : Session} (h : Worked s) : Worked s.reset

theorem Worked.afterCall {s : Session} (h : Worked s) (c : Call) : Worked (afterCall c s) :=
  .call h c

/-- The numbers in the documents are distinct, and were given out. -/
structure Numbered (s : Session) : Prop where
  nodup : (s.imports.documents.flatMap Document.nodes).Nodup
  given : ∀ n ∈ s.imports.documents.flatMap Document.nodes, n < s.nextNode

variable {s s' : Session}

theorem Numbered.spends (h : s.Numbered) (hspends : s.Spends [] s') : s'.Numbered := by
  obtain ⟨ds, hds, hnodup, hbound⟩ := hspends.given
  rw [List.nil_append] at hnodup hbound
  refine ⟨?_, fun n hn => ?_⟩
  · rw [hds, List.flatMap_append]
    refine h.nodup.append hnodup fun n hn hn' => ?_
    exact Nat.lt_irrefl n (Nat.lt_of_lt_of_le (h.given n hn) (hbound n hn').1)
  · rw [hds, List.flatMap_append] at hn
    obtain hn | hn := List.mem_append.1 hn
    · exact Nat.lt_of_lt_of_le (h.given n hn) hspends.le
    · exact (hbound n hn).2

theorem Worked.numbered (h : s.Worked) : s.Resting ∧ s.Numbered := by
  induction h with
  | new platform => exact ⟨⟨rfl, fun _ => rfl, nofun⟩, ⟨.nil, nofun⟩⟩
  | call _ c ih => exact ⟨ih.1.call c, ih.2.spends (c.run_spends ih.1)⟩
  | lower _ ih => exact ⟨⟨ih.1.chain, ih.1.inProgress, ih.1.filled⟩, ⟨ih.2.nodup, ih.2.given⟩⟩
  | reset _ ih => exact ⟨⟨rfl, fun _ => rfl, nofun⟩, ⟨.nil, nofun⟩⟩

theorem Worked.listed (h : s.Worked) : s.imports.Listed := by
  induction h with
  | new platform => exact fun p d hd => by cases hd
  | call h c ih => exact (c.run_spends h.numbered.1).imports.listed ih
  | lower _ ih => exact ih
  | reset _ ih => exact fun p d hd => by cases hd

end Session

end Scaffold
