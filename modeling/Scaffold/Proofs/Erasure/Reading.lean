import Scaffold.Proofs.Erasure.Abreast
import Scaffold.Proofs.Parser.Agreement.Decl
import Scaffold.Proofs.Parser.Decl

/-!
# Reading what is left

A parser reads all tokens of a file, and another one reads what is left of them. Round by round the
second does what the first does, or waits where the first reads what was left out.

* `Rounds`: the rounds of a loop, with the tokens that each of them passes.
* `Rounds.keep_up`: what one round keeps up, all of them do.
-/

namespace Scaffold.Source

/-! ## Tokens of the same kinds -/

/-- The tokens are of the same kinds, one by one. -/
def SameKinds (ts ts' : List Token) : Prop :=
  ts.map (·.kind) = ts'.map (·.kind)

namespace SameKinds

variable {ts ts' : List Token}

theorem refl (ts : List Token) : SameKinds ts ts :=
  rfl

theorem symm (h : SameKinds ts ts') : SameKinds ts' ts :=
  Eq.symm h

theorem length_eq (h : SameKinds ts ts') : ts.length = ts'.length := by
  have hlength := congrArg List.length h
  rwa [List.length_map, List.length_map] at hlength

theorem nextKind_eq (h : SameKinds ts ts') : nextKind ts = nextKind ts' := by
  cases ts <;> cases ts'
  · rfl
  · cases h
  · cases h
  · exact (List.cons.inj h).1

theorem tail (h : SameKinds ts ts') : SameKinds ts.tail ts'.tail := by
  have htail := congrArg List.tail h
  rwa [← List.map_tail, ← List.map_tail] at htail

/-- Parsers on such tokens agree. -/
theorem tokens {N₀ : Numbers} (h : SameKinds ts ts') : (Link.abreast N₀).Tokens ts ts' := by
  have hkinds : List.Forall₂ (· = ·) (ts.map (·.kind)) (ts'.map (·.kind)) := by
    rw [List.forall₂_eq_eq_eq]
    exact h
  exact (List.forall₂_map_right_iff.1 (List.forall₂_map_left_iff.1 hkinds)).imp fun _ _ ht =>
    ⟨ht, fun h => h.elim⟩

theorem of_tokens {N₀ : Numbers} (h : (Link.abreast N₀).Tokens ts ts') : SameKinds ts ts' := by
  have hkinds : List.Forall₂ (· = ·) (ts.map (·.kind)) (ts'.map (·.kind)) :=
    List.forall₂_map_left_iff.2 (List.forall₂_map_right_iff.2 (h.imp fun _ _ h => h.1))
  rwa [List.forall₂_eq_eq_eq] at hkinds

end SameKinds

/-! ## Rounds -/

section

variable {β : Type} (env : ParserEnv) (ends : TokenKind → Bool) (step : β → Parser β)

/-- The rounds of a loop, up to a token where it ends. Each of them passes the tokens of one
declaration. -/
inductive Rounds : β → ParserState → List (List Token) → β → ParserState → Prop where
  | nil {b : β} {s : ParserState} : ends (nextKind s.rest) = true → Rounds b s [] b s
  | cons {b b₁ b₂ : β} {s s₁ s₂ : ParserState} {c : List Token} {cs : List (List Token)} :
    ends (nextKind s.rest) = false → step b env s = (.ok b₁, s₁) → s.rest = c ++ s₁.rest →
    Scan.Leads {} c none → Rounds b₁ s₁ cs b₂ s₂ → Rounds b s (c :: cs) b₂ s₂

end

namespace Rounds

variable {β : Type} {env env' : ParserEnv} {stop : Parser Bool} {ends : TokenKind → Bool}
  {step : β → Parser β} {b b₁ : β} {s s₁ : ParserState} {cs : List (List Token)}

theorem ended (h : Rounds env ends step b s cs b₁ s₁) : ends (nextKind s₁.rest) = true := by
  induction h with
  | nil hend => exact hend
  | cons _ _ _ _ _ ih => exact ih

theorem rest (h : Rounds env ends step b s cs b₁ s₁) : s.rest = cs.flatten ++ s₁.rest := by
  induction h with
  | nil => rfl
  | cons _ _ hrest _ _ ih => rw [hrest, ih, List.flatten_cons, List.append_assoc]

theorem leads (h : Rounds env ends step b s cs b₁ s₁) : ∀ c ∈ cs, Scan.Leads {} c none := by
  induction h with
  | nil => exact nofun
  | cons _ _ _ hleads _ ih => exact List.forall_mem_cons.2 ⟨hleads, ih⟩

end Rounds

theorem nextKind_append {ts ts' : List Token} (h : ts ≠ []) : nextKind (ts ++ ts') = nextKind ts := by
  cases ts with
  | nil => exact absurd rfl h
  | cons t ts => rfl

/-- What is left starts as it did. -/
theorem LeavesOut.nextKind {keep : List Token → List Token} {c : List Token} (hkeep : LeavesOut keep)
    (h : keep c ≠ []) (ts ts' : List Token) :
    Source.nextKind (keep c ++ ts) = Source.nextKind (c ++ ts') := by
  have hc : c ≠ [] := by
    rintro rfl
    exact h (List.sublist_nil.1 (hkeep.sublist []))
  rw [nextKind_append h, nextKind_append hc, Source.nextKind, List.headD_eq_head?_getD, hkeep.head c h,
    ← List.headD_eq_head?_getD]
  rfl

/-- A declaration has a token at least. -/
theorem Scan.Leads.ne_nil {σ : Scan} {c : List Token} (h : σ.Leads c none) : c ≠ [] := by
  rintro rfl
  cases h

section

variable {β : Type} {env env' : ParserEnv} {stop : Parser Bool} {ends : TokenKind → Bool}
  {step : β → Parser β}
  (hstop : ∀ env s, stop env s = (.ok (ends (nextKind s.rest)), s))
include hstop

theorem untilFuel_run (fuel : Nat) (b : β) (env : ParserEnv) (s : ParserState) :
    Parser.untilFuel stop step (fuel + 1) b env s = if ends (nextKind s.rest) then (.ok b, s)
      else (step b >>= Parser.untilFuel stop step fuel) env s := by
  rw [Parser.untilFuel, Parser.bind_run (hstop env s)]
  split <;> rfl

/-- A loop with fuel enough goes round by round. -/
theorem untilFuel_rounds (hstep : ∀ b, Framed anything {} (step b) none) :
    ∀ (fuel : Nat) (b b₁ : β) (s s₁ : ParserState), s.rest.length < fuel →
      Parser.untilFuel stop step fuel b env s = (.ok b₁, s₁) →
      ∃ cs, Rounds env ends step b s cs b₁ s₁
  | 0, _, _, _, _, hfuel, _ => absurd hfuel (Nat.not_lt_zero _)
  | fuel + 1, b, b₂, s, s₂, hfuel, h => by
    rw [untilFuel_run hstop] at h
    split at h
    · rename_i hend
      cases h
      exact ⟨[], .nil hend⟩
    · rename_i hend
      obtain ⟨b₁, s₁, hround, hrest⟩ := Parser.bind_ok.1 h
      obtain ⟨c, hc, hcovers, -⟩ := hstep b env s b₁ s₁ trivial hround
      have hleads := hcovers.leads
      have hlt : s₁.rest.length < fuel := by
        have hlength := congrArg List.length hc
        rw [List.length_append] at hlength
        have := List.length_pos_iff.2 hleads.ne_nil
        omega
      obtain ⟨cs, hcs⟩ := untilFuel_rounds hstep fuel b₁ b₂ s₁ s₂ hlt hrest
      exact ⟨c :: cs, .cons (Bool.eq_false_iff.2 hend) hround hc hleads hcs⟩

/-- The second loop keeps up with the rounds of the first, with what is left of their tokens ahead, if
it does with every round: where nothing is left of one it does nothing, else it goes a round too. -/
theorem Rounds.keep_up {keep : List Token → List Token}
    {G : Numbers → β → ParserState → β → ParserState → Prop} {scope : ScopeId}
    (hkeep : LeavesOut keep)
    (hadvances : ∀ b s b₁ s₁, s.scope env = scope → step b env s = (.ok b₁, s₁) → Advances env s s₁)
    (hround : ∀ N b s b' s' b₁ s₁ c z, G N b s b' s' → s.scope env = scope →
      ends (nextKind s.rest) = false → step b env s = (.ok b₁, s₁) → s₁.session.Clean →
      s.rest = c ++ s₁.rest → z.length ≤ s₁.rest.length → SameKinds s'.rest (keep c ++ z) →
      (keep c = [] → G N b₁ s₁ b' s') ∧ (keep c ≠ [] → ∃ N₁ b₁' s₁', N.Le N₁ ∧
        step b' env' s' = (.ok b₁', s₁') ∧ G N₁ b₁ s₁ b₁' s₁' ∧ SameKinds s₁'.rest z))
    {b b₁ : β} {s s₁ : ParserState} {cs : List (List Token)}
    (h : Rounds env ends step b s cs b₁ s₁) : ∀ (fuel : Nat) (N : Numbers) (b' : β)
      (s' : ParserState) (z : List Token), G N b s b' s' → s.scope env = scope →
      s₁.session.Clean → s'.rest.length < fuel → z.length ≤ s₁.rest.length →
      nextKind z = nextKind s₁.rest → SameKinds s'.rest ((cs.map keep).flatten ++ z) →
      ∃ N₁ b₁' s₁', N.Le N₁ ∧ Parser.untilFuel stop step fuel b' env' s' = (.ok b₁', s₁') ∧
        G N₁ b₁ s₁ b₁' s₁' ∧ SameKinds s₁'.rest z := by
  have hclean : ∀ {b b₁ s s₁ cs}, Rounds env ends step b s cs b₁ s₁ → s.scope env = scope →
      s₁.session.Clean → s.session.Clean := by
    intro b b₁ s s₁ cs h
    induction h with
    | nil _ => exact fun _ => id
    | cons _ hstep _ _ _ ih =>
      intro hscope hclean
      have ha := hadvances _ _ _ _ hscope hstep
      exact ha.clean (ih (ha.scope.trans hscope) hclean)
  induction h with
  | @nil b s hend =>
    rintro (_ | fuel) N b' s' z hG - - hfuel - hnext hkinds
    · exact absurd hfuel (Nat.not_lt_zero _)
    · have hend' : ends (nextKind s'.rest) = true := by
        rw [hkinds.nextKind_eq]
        exact (congrArg ends hnext).trans hend
      exact ⟨N, b', s', .refl N, by rw [untilFuel_run hstop, if_pos hend'], hG, hkinds⟩
  | @cons b b₁ b₂ s s₁ s₂ c cs hend hstep hc hleads hrounds ih =>
    intro fuel N b' s' z hG hscope hclean₂ hfuel hlength hnext hkinds
    have hscope₁ := (hadvances _ _ _ _ hscope hstep).scope.trans hscope
    have hshort : ((cs.map keep).flatten ++ z).length ≤ s₁.rest.length := by
      have hcs := (flatten_map_sublist hkeep cs).length_le
      rw [hrounds.rest, List.length_append, List.length_append]
      omega
    rw [List.map_cons, List.flatten_cons, List.append_assoc] at hkinds
    obtain ⟨haside, hround⟩ := hround N b s b' s' b₁ s₁ c _ hG hscope hend hstep
      (hclean hrounds hscope₁ hclean₂) hc hshort hkinds
    by_cases hnone : keep c = []
    · rw [hnone, List.nil_append] at hkinds
      exact ih fuel N b' s' z (haside hnone) hscope₁ hclean₂ hfuel hlength hnext hkinds
    · obtain ⟨N₁, b₁', s₁', hle, hstep', hG₁, hkinds₁⟩ := hround hnone
      have hend' : ends (nextKind s'.rest) = false := by
        rw [hkinds.nextKind_eq, hkeep.nextKind hnone _ s₁.rest, ← hc, hend]
      have hlt : s₁'.rest.length < s'.rest.length := by
        rw [hkinds.length_eq, hkinds₁.length_eq, @List.length_append _ (keep c)]
        exact Nat.lt_add_of_pos_left (List.length_pos_iff.2 hnone)
      cases fuel with
      | zero => exact absurd hfuel (Nat.not_lt_zero _)
      | succ fuel =>
        obtain ⟨N₂, b₂', s₂', hle₂, hrest, hG₂, hkinds₂⟩ :=
          ih fuel N₁ b₁' s₁' z hG₁ hscope₁ hclean₂ (by omega) hlength hnext hkinds₁
        refine ⟨N₂, b₂', s₂', hle.trans hle₂, ?_, hG₂, hkinds₂⟩
        rw [untilFuel_run hstop, hend', if_neg Bool.false_ne_true, Parser.bind_run hstep', hrest]

end

/-! ## Headers -/

section

variable {b : AnnotationBlock} {ts ts' : List Token}

theorem takeAnnotations_append (h : (Parser.takeAnnotations b ts).2 ≠ []) :
    Parser.takeAnnotations b (ts ++ ts')
      = ((Parser.takeAnnotations b ts).1, (Parser.takeAnnotations b ts).2 ++ ts') := by
  fun_induction Parser.takeAnnotations b ts with
  | case1 b pairs pos ts ih => exact ih h
  | case2 b ts hplain =>
    cases ts with
    | nil => exact absurd rfl h
    | cons t ts =>
      obtain ⟨kind, pos⟩ := t
      cases kind with
      | annotations pairs => exact absurd rfl (hplain pairs pos ts)
      | _ => rfl

/-- What is taken are annotations. -/
theorem takeAnnotations_split (b : AnnotationBlock) (ts : List Token) :
    ∃ c, ts = c ++ (Parser.takeAnnotations b ts).2 ∧ ∀ t ∈ c, ∃ pairs, t.kind = .annotations pairs := by
  fun_induction Parser.takeAnnotations b ts with
  | case1 b pairs pos ts ih =>
    obtain ⟨c, hc, hall⟩ := ih
    refine ⟨⟨.annotations pairs, pos⟩ :: c, congrArg _ hc, List.forall_mem_cons.2 ⟨⟨pairs, rfl⟩, hall⟩⟩
  | case2 b ts => exact ⟨[], rfl, fun t ht => absurd ht List.not_mem_nil⟩

theorem SameKinds.takeAnnotations (h : SameKinds ts ts') :
    (Parser.takeAnnotations b ts).1 = (Parser.takeAnnotations b ts').1 ∧
      SameKinds (Parser.takeAnnotations b ts).2 (Parser.takeAnnotations b ts').2 := by
  induction ts generalizing b ts' with
  | nil =>
    cases ts' with
    | nil => exact ⟨rfl, .refl _⟩
    | cons t' ts' => cases h
  | cons t ts ih =>
    cases ts' with
    | nil => cases h
    | cons t' ts' =>
      obtain ⟨kind, pos⟩ := t
      obtain ⟨kind', pos'⟩ := t'
      obtain ⟨rfl, htail⟩ : kind = kind' ∧ SameKinds ts ts' := List.cons.inj h
      cases kind with
      | annotations pairs => exact ih htail
      | _ => exact ⟨rfl, h⟩

theorem SameKinds.leadingKind_eq (h : SameKinds ts ts') : leadingKind ts = leadingKind ts' :=
  h.takeAnnotations.2.nextKind_eq

/-- Behind its annotations the declaration has more tokens. -/
def Headed (c : List Token) : Prop :=
  (Parser.takeAnnotations {} c).2 ≠ []

theorem Headed.leadingKind_append (h : Headed ts) : leadingKind (ts ++ ts') = leadingKind ts := by
  rw [leadingKind, takeAnnotations_append h, leadingKind]
  cases hrest : (Parser.takeAnnotations {} ts).2 with
  | nil => exact absurd hrest h
  | cons t rest => rfl

end

namespace Parser

variable {env : ParserEnv} {s s₁ : ParserState}

/-- The annotations of a declaration are among its own tokens. -/
theorem header_active {c ts : List Token} {hd : Header × Bool} (h : header env s = (.ok hd, s₁))
    (hrest : s.rest = c ++ ts) (hc : Headed c) : isExcluded s.session.platform c = !hd.2 := by
  rw [header_run] at h
  cases h
  rw [hrest, takeAnnotations_append hc]
  rfl

/-- The reserved word that a declaration starts with. -/
def leadingWord : Decl → Keyword
  | .importFile _ => .importKw
  | .domain _ => .domainKw
  | .table _ => .tableKw
  | .entity _ => .entityKw
  | .record _ => .structKw
  | .mapper _ => .mapperKw
  | .controller _ => .controllerKw
  | .api _ => .apiKw
  | .page _ => .htmlKw
  | .property _ => .propertyKw
  | .func _ => .funcKw

theorem DeclStep.nextKind {hd : Header} {active : Bool} {d : Decl}
    (h : DeclStep env hd active s s₁ d) : nextKind s.rest = .keyword (leadingWord d) := by
  cases h
  all_goals
    rename_i h
    obtain ⟨_, _, hword, -⟩ := bind_ok.1 h
    exact (expect_ok hword).1

/-- A declaration of one of the kinds is read where its reserved word stands behind the
annotations. -/
theorem decl_of_step {hd : Header × Bool} {s₂ : ParserState} {d : Decl}
    (hheader : header env s = (.ok hd, s₁)) (h : DeclStep env hd.1 hd.2 s₁ s₂ d) :
    decl env s = (.ok (if hd.2 then some d else none), s₂) := by
  have hpeek : peek env s₁ = (.ok (s₁.rest.headD ⟨.eof, {}⟩), s₁) := rfl
  have hkind : (s₁.rest.headD ⟨.eof, {}⟩).kind = .keyword (leadingWord d) := h.nextKind
  unfold decl
  rw [bind_run hheader]
  dsimp only
  rw [bind_run hpeek, hkind]
  cases h
  all_goals
    rename_i h
    exact bind_ok.2 ⟨_, s₂, h, rfl⟩

theorem header_leading {hd : Header × Bool} (h : header env s = (.ok hd, s₁)) :
    nextKind s₁.rest = leadingKind s.rest := by
  rw [header_run] at h
  cases h
  rfl

/-- A declaration starts with a reserved word behind its annotations. -/
theorem decl_leading {o : Option Decl} (h : decl env s = (.ok o, s₁)) :
    ∃ k, leadingKind s.rest = .keyword k := by
  obtain ⟨hd, d, s₂, hheader, hd, -⟩ := decl_steps s s o s₁ rfl h
  exact ⟨_, (header_leading hheader).symm.trans hd.nextKind⟩

theorem decl_headed {o : Option Decl} {c : List Token} (h : decl env s = (.ok o, s₁))
    (hrest : s.rest = c ++ s₁.rest) : Headed c := by
  have hframed : Framed anything {} decl none := decl_framed
  obtain ⟨c', hrest', -, hagain⟩ := hframed env s o s₁ trivial h
  obtain rfl : c = c' := List.append_cancel_right (hrest.symm.trans hrest')
  obtain ⟨k, hk⟩ := decl_leading (hagain [] (Nat.zero_le _) nofun)
  intro hnil
  rw [List.append_nil, leadingKind, hnil] at hk
  cases hk

end Parser

/-! ## One step of both parsers -/

/-- Where the first parser passes some tokens, the second does so too, on tokens of the same kinds, and
what follows may be anything if the tokens come to an end. -/
theorem Framed.keep_up {α β : Type} {N₀ N : Numbers} {env env' : ParserEnv} {s s₁ s' : ParserState}
    {p : Parser α} {p' : Parser β} {V : Numbers → α → β → Prop} {τ : Option Scan} {a : α}
    {c z : List Token} (hp : Framed anything {} p τ) (hagree : Agrees (Link.abreast N₀) env env' N p p' V)
    (h : ParserState.Abreast N₀ N env s env' s') (hrun : p env s = (.ok a, s₁))
    (hrest : s.rest = c ++ s₁.rest) (hlength : z.length ≤ s₁.rest.length)
    (hnext : τ.isSome = true → z.take 1 = s₁.rest.take 1) (hkinds : SameKinds s'.rest (c ++ z)) :
    ∃ N₁ b s₁', N.Le N₁ ∧ p' env' s' = (.ok b, s₁') ∧ V N₁ a b ∧
      ParserState.Abreast N₀ N₁ env s₁ env' s₁' ∧ SameKinds s₁'.rest z := by
  obtain ⟨c', hrest', -, hagain⟩ := hp env s a s₁ trivial hrun
  obtain rfl : c = c' := List.append_cancel_right (hrest.symm.trans hrest')
  have hrun' := hagain z hlength hnext
  obtain ⟨N₁, hle, hends⟩ := hagree N { s with rest := c ++ z } s' (.refl N)
    ((Link.abreast N₀).tokens (c ++ z) s'.rest h) hkinds.symm.tokens
  rw [hrun'] at hends
  rcases hsecond : p' env' s' with ⟨e | b, s₁'⟩
  · rw [hsecond] at hends
    cases hends.values
  · rw [hsecond] at hends
    cases hends.values with
    | ok hV =>
      have hstates := (Link.abreast N₀).tokens s₁.rest s₁'.rest hends.states
      exact ⟨N₁, b, s₁', hle, rfl, hV, hstates, (SameKinds.of_tokens hends.tokens).symm⟩

namespace Parser

variable {N₀ N : Numbers} {env env' : ParserEnv} {s s₁ s' : ParserState} {o : Option Decl}
  {c z : List Token}

/-- A declaration other than an import has nothing to do with other files. -/
theorem DeclStep.apart {hd : Header} {active : Bool} {d : Decl}
    (h : DeclStep env hd active s s₁ d) (hword : leadingWord d ≠ .importKw) :
    Still s s₁ ∧ ∀ load, DeclStep { env with load } hd active s s₁ d := by
  have hkind : ∀ {α : Type} {p : Parser α} {a : α} {make : α → Decl}, Whole p →
      p env s = (.ok a, s₁) →
      (∀ env, p env s = (.ok a, s₁) → DeclStep env hd active s s₁ (make a)) →
      Still s s₁ ∧ ∀ load, DeclStep { env with load } hd active s s₁ (make a) := by
    intro α p a make hp hrun hstep
    have hran := (hp.tame []).ran hrun
    exact ⟨hran.still, fun load => hstep _ (hran.run load)⟩
  cases h with
  | importFile _ => exact absurd rfl hword
  | domain h => exact hkind (domainDecl_whole hd active) h fun _ => .domain
  | table h => exact hkind (tableDecl_whole hd active) h fun _ => .table
  | entity h => exact hkind (entityDecl_whole hd active) h fun _ => .entity
  | record h => exact hkind (recordDecl_whole hd active) h fun _ => .record
  | mapper h => exact hkind (mapperDecl_whole hd active) h fun _ => .mapper
  | controller h => exact hkind (controllerDecl_whole hd active) h fun _ => .controller
  | api h => exact hkind (apiDecl_whole hd active) h fun _ => .api
  | page h => exact hkind (pageDecl_whole hd active) h fun _ => .page
  | property h => exact hkind (propertyDecl_whole hd active) h fun _ => .property
  | func h => exact hkind (funcDecl_whole hd active .func) h fun _ => .func

theorem decl_apart (h : decl env s = (.ok o, s₁)) (hk : leadingKind s.rest ≠ .keyword .importKw) :
    Still s s₁ ∧ ∀ load, decl { env with load } s = (.ok o, s₁) := by
  obtain ⟨hd, d, s₂, hheader, hstep, rfl⟩ := decl_steps s s o s₁ rfl h
  have hran := (header_level.tame []).ran hheader
  obtain ⟨hstill, hload⟩ := hstep.apart fun hword => hk <| by
    rw [← header_leading hheader, hstep.nextKind, hword]
  exact ⟨hran.still.trans hstill, fun load => decl_of_step (hran.run load) (hload load)⟩

/-- A declaration that is not for the target leaves no name. -/
theorem decl_aside (hload : env.Loads) (hroot : s.scope env = env.root)
    (h : decl env s = (.ok none, s₁)) (hk : leadingKind s.rest ≠ .keyword .importKw) :
    ∃ us, Declaring env s [] us s₁ := by
  obtain ⟨active, d, hnone, hd⟩ | ⟨active, i, -, s₂, f, d, session, hd, -, rfl⟩ :=
    decl_ends hload hroot s none s₁ (.reads (.refl s)) h
  · cases active with
    | false => exact ⟨_, hd.declaring⟩
    | true => cases hnone
  · -- An import would have added to the imports of the file.
    have hstill := (decl_apart h hk).1.imports
    obtain ⟨more, hmore⟩ := (hd.run.advances hload).imports
    have hlength := congrArg List.length hstill
    simp only [ParserState.addImport, hmore, List.length_append, List.length_singleton] at hlength
    omega

/-- A declaration other than an import is read alike. -/
theorem decl_keeps_up (hlocate : ∀ written, env'.source.locate env'.tree written
      = env.source.locate env.tree written)
    (h : ParserState.Abreast N₀ N env s env' s') (hrun : decl env s = (.ok o, s₁))
    (hk : leadingKind s.rest ≠ .keyword .importKw) (hrest : s.rest = c ++ s₁.rest)
    (hlength : z.length ≤ s₁.rest.length) (hkinds : SameKinds s'.rest (c ++ z)) :
    ∃ N₁ o' s₁', N.Le N₁ ∧ decl env' s' = (.ok o', s₁') ∧
      Option.Rel (Decl.Alike (N₁.unbound False)) o o' ∧
      ParserState.Abreast N₀ N₁ env s₁ env' s₁' ∧ SameKinds s₁'.rest z := by
  have halone : ParserState.Abreast N₀ N { env with load := noFiles } s
      { env' with load := noFiles } s' := { h with inStep := { h.inStep with } }
  have hagrees : Agrees (Link.abreast N₀) { env with load := noFiles } { env' with load := noFiles } N
      decl decl fun w => Option.Rel (Decl.Alike ((Link.abreast N₀).likeness w)) := by
    refine decl_agrees (Link.abreast N₀) ?_ rfl rfl N
    exact hlocate
  obtain ⟨N₁, o', s₁', hle, hsecond, ho, hstates, hrest'⟩ := decl_framed.keep_up hagrees halone
    ((decl_apart hrun hk).2 noFiles) hrest hlength nofun hkinds
  have hk' : leadingKind s'.rest ≠ .keyword .importKw := by
    have hc := decl_headed hrun hrest
    rwa [hkinds.leadingKind_eq, hc.leadingKind_append, ← hc.leadingKind_append, ← hrest]
  exact ⟨N₁, o', s₁', hle, (decl_apart hsecond hk').2 env'.load, ho,
    { hstates with inStep := { hstates.inStep with } }, hrest'⟩

end Parser

end Scaffold.Source
