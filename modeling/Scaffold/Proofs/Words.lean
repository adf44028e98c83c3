import Scaffold.Proofs.Documents
import Scaffold.Proofs.Token.Tiling

/-!
# Names of parameters

A name among the tokens of a text is a word of the language: it starts with a letter or an
underscore, goes on with letters, digits and underscores, and is not reserved. The parser takes the
names of parameters from there, and binding keeps them.

* `tokenize_worded`: the names among the tokens of a text are words.
* `Finds p Q`: among such tokens, every value of the parser is like this.
* `inherited_named`: the parameters of every handler have words for names.
-/

namespace Scaffold

/-! ## Tokens -/

namespace Lexer

/-- A token of this kind is no name, or a word. -/
def IsWord (kind : TokenKind) : Prop :=
  ∀ name, kind = .ident name → isName name = true

theorem Lexeme.isWord {kind : TokenKind} {lexeme : List Char} (h : Lexeme kind lexeme) :
    IsWord kind := by
  rintro name rfl
  cases h with
  | ident hname => exact hname

end Lexer

namespace Source

/-- The names among the tokens are words. -/
def Worded (ts : List Token) : Prop :=
  ∀ t ∈ ts, Lexer.IsWord t.kind

theorem tokenize_worded {text : String} {ts : List Token} (h : tokenize text = .ok ts) :
    Worded ts := by
  obtain ⟨spots, htiling, rfl⟩ :=
    Lexer.tokens_tiling (Nat.lt_succ_self _) (List.nil_append text.toList) rfl h
  intro t ht
  obtain ⟨spot, hspot, rfl⟩ := List.mem_map.1 ht
  exact (htiling.lexeme_mem spot hspot).1.isWord

/-! ## Parsers -/

/-- Among tokens whose names are words, every value of the parser is like this. -/
def Finds {α : Type} (p : Parser α) (Q : α → Prop) : Prop :=
  ∀ env s a s', Worded s.rest → p env s = (.ok a, s') → Q a ∧ Worded s'.rest

namespace Finds

variable {α β : Type} {p : Parser α} {f : α → Parser β} {item : β → Parser β} {Q : α → Prop}
  {R : β → Prop}

/-- The tokens that a parser leaves are some of those it was given. -/
theorem apart {P P' : List Token → Prop} (hp : Apart P p P') : Finds p fun _ => True :=
  fun _ _ _ _ hs h => ⟨trivial, fun t ht => hs t ((hp.suffix _ _ _ _ h).subset ht)⟩

theorem tame (hp : Tame p) : Finds p fun _ => True :=
  apart (hp [])

/-- A parser that reads no token. -/
theorem unread (hp : ∀ env s, (p env s).2.rest = s.rest) : Finds p fun _ => True := by
  intro env s a s' hs h
  have hrest := hp env s
  rw [h] at hrest
  exact ⟨trivial, hrest ▸ hs⟩

theorem pure {a : α} (ha : Q a) : Finds (Pure.pure a) Q := by
  intro env s b s' hs h
  cases h
  exact ⟨ha, hs⟩

theorem fail (e : CompileError) : Finds (Parser.fail e) Q := by
  intro env s a s' _ h
  cases h

theorem expected (what : String) : Finds (Parser.expected what) Q := by
  intro env s a s' _ h
  cases h

theorem bind (hp : Finds p Q) (hf : ∀ a, Q a → Finds (f a) R) : Finds (p >>= f) R := by
  intro env s b s' hs h
  obtain ⟨a, s₁, h₁, h₂⟩ := Parser.bind_ok.1 h
  obtain ⟨ha, hs₁⟩ := hp _ _ _ _ hs h₁
  exact hf a ha _ _ _ _ hs₁ h₂

theorem step (hp : Tame p) (hf : ∀ a, Finds (f a) R) : Finds (p >>= f) R :=
  (tame hp).bind fun a _ => hf a

theorem untilFuel {stop : Parser Bool} (hstop : Tame stop) (hitem : ∀ b, R b → Finds (item b) R) :
    ∀ (fuel : Nat) (b : β), R b → Finds (Parser.untilFuel stop item fuel b) R
  | 0, _, hb => .pure hb
  | fuel + 1, b, hb => by
    refine .step hstop fun _ => ?_
    split
    · exact .pure hb
    · exact .bind (hitem b hb) (untilFuel hstop hitem fuel)

theorem untilClose {close : Punct} {b : β} (hitem : ∀ b, R b → Finds (item b) R) (hb : R b) :
    Finds (Parser.untilClose close item b) R :=
  .step Parser.remaining_tame fun n =>
    untilFuel (.bind Parser.peek_tame fun _ => .pure _) hitem (n + 1) b hb

theorem commaFuel {close : Punct} (hitem : ∀ b, R b → Finds (item b) R) :
    ∀ (fuel : Nat) (b : β), R b → Finds (Parser.commaFuel close item fuel b) R
  | 0, _, hb => .pure hb
  | fuel + 1, b, hb => by
    refine .step (Parser.isNext_tame _) fun _ => ?_
    split
    · exact .pure hb
    · refine .bind (hitem b hb) fun b' hb' => .step (Parser.skipPunct_tame trivial) fun _ => ?_
      split
      · exact commaFuel hitem fuel b' hb'
      · exact .pure hb'

theorem commaList {close : Punct} {b : β} (hitem : ∀ b, R b → Finds (item b) R) (hb : R b) :
    Finds (Parser.commaList close item b) R :=
  .step Parser.remaining_tame fun n => commaFuel hitem (n + 1) b hb

theorem inScope {kind : ScopeKind} (hp : Finds p Q) :
    Finds (Parser.inScope kind p) fun x => Q x.2 := by
  rintro env s ⟨id, a⟩ s' hs h
  obtain ⟨-, s₁, h₁, rfl⟩ := Parser.inScope_ok h
  obtain ⟨ha, hs₁⟩ := hp env (s.enter env kind) a s₁ hs h₁
  exact ⟨ha, hs₁⟩

end Finds

/-! ## Declarations -/

/-- The names of the parameters are words. -/
def Named (params : List Field) : Prop :=
  ∀ p ∈ params, Lexer.isName p.name = true

/-- The names of the parameters of handlers are words. -/
def Decl.Named : Decl → Prop
  | .controller c => ∀ f ∈ c.handlers, Source.Named f.params
  | _ => True

namespace Parser

theorem ident_finds : Finds ident fun x => Lexer.isName x.1 = true := by
  intro env s x s' hs h
  obtain ⟨t, s₁, h₁, h⟩ := bind_ok.1 h
  cases h₁
  cases hkind : (s.rest.headD ⟨.eof, {}⟩).kind with
  | ident name =>
    rw [hkind] at h
    cases h
    obtain ⟨pos, hcons⟩ := eq_cons_of_nextKind hkind nofun
    rw [hcons] at hs
    obtain ⟨hname, hrest⟩ := List.forall_mem_cons.1 hs
    exact ⟨hname name rfl, hrest⟩
  | _ =>
    rw [hkind] at h
    cases h

theorem expect_finds (kind : TokenKind) : Finds (expect kind) fun _ => True :=
  .apart (expect_apart kind)

theorem expectPunct_finds (p : Punct) : Finds (expectPunct p) fun _ => True :=
  .bind (expect_finds _) fun _ _ => .pure trivial

theorem params_finds (owner : String) (node : NodeId) : Finds (params owner node) Named := by
  refine .bind (expectPunct_finds _) fun _ _ => .bind (.commaList (fun ps hps => ?_) nofun)
    fun _ hps => .bind (expectPunct_finds _) fun _ _ => .pure hps
  refine .bind ident_finds fun x hx => .step typeRef_level.tame fun _ => ?_
  split
  · exact .step (invalid_idle _ _ _).tame fun _ => .pure hps
  · refine .step (declare_idle _ _ _ _ _).tame fun _ => .pure ?_
    exact List.forall_mem_append.2 ⟨hps, List.forall_mem_singleton.2 hx⟩

theorem funcDecl_finds (hd : Header) (active : Bool) (kind : SymbolKind) :
    Finds (funcDecl hd active kind) fun f => Named f.params := by
  refine .bind (expect_finds _) fun _ _ => .step ident_level.tame fun _ =>
    .step (declare_idle _ _ _ _ _).tame fun _ =>
    .step (own_idle _).tame fun _ => ?_
  refine .bind (.inScope (Q := fun x => Named x.1) ?_) fun _ hps => .pure hps
  refine .bind (params_finds _ _) fun _ hps => .step (isNext_tame _) fun _ => ?_
  split
  · exact .step (.pure _) fun _ => .step block_whole.tame fun _ => .pure hps
  · exact .step typeRef_level.tame fun _ => .step (.pure _) fun _ => .step block_whole.tame fun _ =>
      .pure hps

/-- The members that are kept are like all members. -/
theorem members_finds {α : Type} {active : Bool} {member : Header → Bool → Parser α} {Q : α → Prop}
    (hmember : ∀ h active, Finds (member h active) Q) :
    Finds (members active member) fun items => ∀ x ∈ items, Q x := by
  refine .bind (expectPunct_finds _) fun _ _ => ?_
  refine .bind (.inScope (Q := fun items => ∀ x ∈ items, Q x) ?_) fun _ hitems => .pure hitems
  refine .bind (.untilClose (fun items hitems => ?_) nofun) fun _ hitems =>
    .bind (expectPunct_finds _) fun _ _ => .pure hitems
  refine .step header_level.tame fun h => .bind (hmember h.1 (active && h.2)) fun item hitem => .pure ?_
  split
  · exact List.forall_mem_append.2 ⟨hitems, List.forall_mem_singleton.2 hitem⟩
  · exact hitems

theorem controllerDecl_finds (hd : Header) (active : Bool) :
    Finds (controllerDecl hd active) fun c => (Decl.controller c).Named := by
  refine .bind (expect_finds _) fun _ _ => .step ident_level.tame fun _ =>
    .step (declare_idle _ _ _ _ _).tame fun _ =>
    .bind (members_finds fun h active => ?_) fun _ hhandlers => .pure hhandlers
  refine .bind (funcDecl_finds h active .handler) fun f hf => ?_
  split
  · exact .step (checkHandler_idle _ _).tame fun _ => .pure hf
  · exact .pure hf

/-- An import reads tokens of its own file only. -/
theorem importDecl_finds (hd : Header) : Finds (importDecl hd) fun _ => True := by
  refine .bind (expect_finds _) fun _ _ => .step quoted_level.tame fun _ =>
    .bind (expectPunct_finds _) fun _ _ => .step takeSeq_idle.tame fun _ => ?_
  refine .bind (.unread fun _ _ => rfl) fun e _ => ?_
  split
  · exact .fail _
  · refine .bind (.unread fun _ _ => rfl) fun _ _ => ?_
    split
    · exact .fail _
    · exact .bind (.unread fun _ _ => rfl) fun _ _ => .bind (.unread fun _ _ => rfl) fun _ _ =>
        .pure trivial

/-- Only a controller has names that are asked for. -/
theorem declOf_finds (hd : Header) (active : Bool) (kind : TokenKind) :
    Finds (declOf hd active kind) Decl.Named := by
  unfold declOf
  split
  · exact .bind (importDecl_finds hd) fun i _ => .pure trivial
  · exact .step (domainDecl_whole hd active).tame fun d => .pure trivial
  · exact .step (tableDecl_whole hd active).tame fun t => .pure trivial
  · exact .step (entityDecl_whole hd active).tame fun e => .pure trivial
  · exact .step (recordDecl_whole hd active).tame fun r => .pure trivial
  · exact .step (mapperDecl_whole hd active).tame fun m => .pure trivial
  · exact .bind (controllerDecl_finds hd active) fun c hc => .pure hc
  · exact .step (apiDecl_whole hd active).tame fun a => .pure trivial
  · exact .step (pageDecl_whole hd active).tame fun p => .pure trivial
  · exact .step (propertyDecl_whole hd active).tame fun p => .pure trivial
  · exact .step (funcDecl_whole hd active .func).tame fun f => .pure trivial
  · exact .expected _

theorem decl_finds : Finds decl fun o => ∀ d ∈ o, d.Named := by
  rw [decl_eq]
  refine .step header_level.tame fun hd => .step peek_tame fun t =>
    .bind (declOf_finds hd.1 hd.2 t.kind) fun d hnamed => .pure ?_
  split
  · rintro _ ⟨⟩
    exact hnamed
  · exact nofun

theorem decls_finds : Finds decls fun ds => ∀ d ∈ ds, d.Named := by
  refine .step remaining_tame fun n => ?_
  refine .untilFuel (.bind peek_tame fun _ => .pure _) (fun ds hds => ?_)
    (n + 1) [] nofun
  refine .step (skipPunct_tame trivial) fun _ => ?_
  split
  · exact .pure hds
  · refine .bind decl_finds fun o ho => .pure ?_
    exact List.forall_mem_append.2 ⟨hds, fun d hd => ho d (Option.mem_toList.1 hd)⟩

end Parser

namespace Binder

/-- Binding a list of parameters changes none of their names. -/
theorem fields_named (b : Binder) : ∀ (fields : List Field) (ds : Diagnostics), Named fields →
    Named ((b.fields fields).run ds).1
  | [], _, _ => nofun
  | f :: rest, ds, h => by
    obtain ⟨hf, hrest⟩ := List.forall_mem_cons.1 h
    exact List.forall_mem_cons.2 ⟨hf, fields_named b rest _ hrest⟩

theorem handlers_named (b : Binder) (controller : String) : ∀ (fs : List Func) (ds : Diagnostics),
    (∀ f ∈ fs, Named f.params) → ∀ f ∈ ((b.handlers controller fs).run ds).1, Named f.params
  | [], _, _ => nofun
  | f :: rest, ds, h => by
    obtain ⟨hf, hrest⟩ := List.forall_mem_cons.1 h
    exact List.forall_mem_cons.2
      ⟨fields_named _ f.params ds hf, handlers_named b controller rest _ hrest⟩

end Binder

/-- The parameters of every handler have words for names. -/
theorem inherited_named : Inherited Decl.Named where
  parsed htokens hdecls := (Parser.decls_finds _ _ _ _ (tokenize_worded htokens) hdecls).1
  dataDecl b d ds h := by
    cases d <;> exact h
  otherDecl b d ds h := by
    cases d with
    | controller c => exact b.handlers_named c.name c.handlers ds h
    | _ => exact trivial

end Source

end Scaffold
