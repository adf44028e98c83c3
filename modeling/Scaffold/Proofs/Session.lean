import Scaffold.Proofs.Completion
import Scaffold.Proofs.Parser.File

/-!
# Sessions whose documents are bound

`Session.Sound tree texts s` says that every finished document of a session is what its text says:
it declares its declarations in its own scope, every name in it is bound, and the names in its bodies
are bound to what a reader finds who passes the names in sight along. `texts` gives the texts that a
path may stand for.

* `Session.Sound.grow`: documents stay sound while names come into scopes that are not theirs.
* `Run.sound`: so they do while a file is parsed.
-/

namespace Scaffold

/-- The names that a finished file declares. -/
def Session.namesAt (s : Session) (p : Path) : List (String × SymbolId) :=
  ((s.imports.get? p).map fun d => s.symbols.names d.scope).getD []

def Session.preludeNames (s : Session) : List (String × SymbolId) :=
  (s.symbols.prelude.map s.symbols.names).getD []

namespace Source

/-- Each name in the body of a function is bound to the first that is found among the variables and
parameters in sight where it is read, the members around the function, the declarations of the file,
those of the files imported before, and the prelude. -/
structure Lexical (s : Session) (scope : ScopeId) (before : List Path) (members : List Declared)
    (f : Func) : Prop where
  finished : ∀ p ∈ before, ∃ d, s.imports.get? p = some d
  readings : ∃ ms base, s.symbols.Declares ms members ∧ s.symbols.DeclaresFrom base f.declared ∧
    ∀ x ∈ Stmt.readingsAll (.ofParams base f.params) f.body, ∃ id, x.2.ref.target = some id ∧
      (x.1.names ++ ms ++ s.symbols.names scope ++ before.flatMap s.namesAt
        ++ s.preludeNames).lookup x.2.ref.name = some id

/-- The items of a document are those of a text. -/
def Written (tree : FileTree) (text : String) (d : Document) (items : List Item) : Prop :=
  ∃ depth tokens f s s', f.path = d.path ∧ f.origin = d.origin ∧ tokenize text = .ok tokens ∧
    Parser.items ⟨d.file, f, d.scope, tree, loadFile tree depth⟩ { rest := tokens, session := s }
      = (.ok items, s')

/-- A document is what a text says that its path stands for, and the names in its bodies are bound
as a reader finds them; the files imported before a declaration are those of the items before it. -/
structure ReadLexically (tree : FileTree) (texts : Path → String → Prop) (s : Session)
    (d : Document) (text : String) (items : List Item) : Prop where
  stands : texts d.path text
  written : Written tree text d items
  imports : d.imports = items.flatMap (·.imports)
  bodies : List.Forall₂ (fun x b => b.header = x.1.header ∧
    ∀ y ∈ b.bodies, Lexical s d.scope x.2 y.1 y.2) (Item.placed [] items) d.decls

/-- A finished document is what its text says. -/
structure DocSound (tree : FileTree) (texts : Path → String → Prop) (s : Session) (d : Document) :
    Prop where
  file : s.symbols.IsFile d.scope
  apart : d.scope ∉ s.stack
  declared : s.symbols.Declares (s.symbols.names d.scope) d.declared
  uses : ∀ u ∈ d.uses, Resolved s.symbols u
  written : ∃ text items, ReadLexically tree texts s d text items

end Source

open Source

/-- Every finished document is what its text says, and the prelude is one of them. -/
structure Session.Sound (tree : FileTree) (texts : Path → String → Prop) (s : Session) : Prop where
  docs : ∀ {p d}, s.imports.get? p = some d → DocSound tree texts s d
  prelude : ∀ {scope}, s.symbols.prelude = some scope → ∃ p, s.Opens p scope

namespace Session.Sound

variable {tree : FileTree} {texts : Path → String → Prop} {s s' : Session} {live : ScopeId → Prop}
  {q : Nat}

section

variable (h : s.Sound tree texts) (hg : s.symbols.Grows live q s'.symbols)
  (hkept : ∀ {p d}, s.imports.get? p = some d → s'.imports.get? p = some d)
  (hlive : ∀ {p d}, s.imports.get? p = some d → ¬ live d.scope)
include h hg hlive

theorem names_eq {p : Path} {d : Document} (hd : s.imports.get? p = some d) :
    s'.symbols.names d.scope = s.symbols.names d.scope :=
  hg.names_eq (h.docs hd).file.lt (hlive hd)

theorem preludeNames_eq : s'.preludeNames = s.preludeNames := by
  unfold Session.preludeNames
  rw [hg.prelude]
  cases hp : s.symbols.prelude with
  | none => rfl
  | some scope =>
    obtain ⟨p, d, hd, rfl⟩ := h.prelude hp
    simp only [Option.map_some, Option.getD_some]
    exact h.names_eq hg hlive hd

include hkept

theorem namesAt_eq {p : Path} {d : Document} (hd : s.imports.get? p = some d) :
    s'.namesAt p = s.namesAt p := by
  unfold Session.namesAt
  rw [hd, hkept hd]
  simp only [Option.map_some, Option.getD_some]
  exact h.names_eq hg hlive hd

theorem lexical {scope : ScopeId} (hfile : s.symbols.IsFile scope) (hown : ¬ live scope)
    {before : List Path} {members : List Declared} {f : Func}
    (hf : Lexical s scope before members f) : Lexical s' scope before members f := by
  obtain ⟨hfinished, ms, base, hms, hbase, hx⟩ := hf
  refine ⟨fun p hp => ?_, ms, base, hg.declares hms, hbase.grows hg, fun x hx' => ?_⟩
  · obtain ⟨d, hd⟩ := hfinished p hp
    exact ⟨d, hkept hd⟩
  · obtain ⟨id, htarget, hlookup⟩ := hx x hx'
    refine ⟨id, htarget, ?_⟩
    have hbefore : before.flatMap s'.namesAt = before.flatMap s.namesAt := by
      refine List.flatMap_congr fun p hp => ?_
      obtain ⟨d, hd⟩ := hfinished p hp
      exact h.namesAt_eq hg hkept hlive hd
    rw [hg.names_eq hfile.lt hown, hbefore, h.preludeNames_eq hg hlive]
    exact hlookup

theorem doc {d : Document} (hd : DocSound tree texts s d) (hown : ¬ live d.scope)
    (hstack : d.scope ∉ s'.stack) : DocSound tree texts s' d := by
  obtain ⟨hfile, -, hdeclared, huses, text, items, htext, hwritten, himports, hdecls⟩ := hd
  refine ⟨hfile.grows hg, hstack, ?_, fun u hu => (huses u hu).grows hg, text, items,
    htext, hwritten, himports, ?_⟩
  · rw [hg.names_eq hfile.lt hown]
    exact hg.declares hdeclared
  · exact hdecls.imp fun x b hb =>
      ⟨hb.1, fun y hy => h.lexical hg hkept hlive hfile hown (hb.2 y hy)⟩

/-- Documents stay sound while names come into scopes that are not theirs, and a new document may
join them. -/
theorem grow (hstack : ∀ c ∈ s'.stack, c ∈ s.stack ∨ s.symbols.scopes.size ≤ c)
    (hnew : ∀ {p d}, s'.imports.get? p = some d →
      s.imports.get? p = some d ∨ DocSound tree texts s' d) : s'.Sound tree texts where
  docs {p d} hd := by
    obtain hd | hd := hnew hd
    · refine h.doc hg hkept hlive (h.docs hd) (hlive hd) fun hc => ?_
      obtain hc | hc := hstack _ hc
      · exact (h.docs hd).apart hc
      · exact absurd (h.docs hd).file.lt (Nat.not_lt.2 hc)
    · exact hd
  prelude {scope} hp := by
    rw [hg.prelude] at hp
    obtain ⟨p, d, hd, hscope⟩ := h.prelude hp
    exact ⟨p, d, hkept hd, hscope⟩

end

/-- Nothing that is looked at changed. -/
theorem of_eq (h : s.Sound tree texts) (hsymbols : s'.symbols = s.symbols)
    (himports : s'.imports = s.imports) (hstack : s'.stack = s.stack) : s'.Sound tree texts := by
  have hg : s.symbols.Grows (fun _ => False) 0 s'.symbols := by
    rw [hsymbols]
    exact .same _
  exact h.grow hg (fun hd => himports ▸ hd) (fun _ => id) (fun c hc => .inl (hstack ▸ hc))
    fun hd => .inl (himports ▸ hd)

end Session.Sound

namespace Source

variable {tree : FileTree} {texts : Path → String → Prop} {env : ParserEnv} {s s' : ParserState}

/-- Loading a file leaves all documents sound, and adds sound ones. -/
def ParserEnv.LoadsSound (tree : FileTree) (texts : Path → String → Prop) (env : ParserEnv) : Prop :=
  ∀ f s d s', env.load f s = (.ok d, s') → s'.Clean → s.Standing → s.Sound tree texts →
    s'.Sound tree texts

theorem ParserState.scope_mem (h : env.root ∈ s.session.stack) : s.scope env ∈ s.session.stack := by
  unfold ParserState.scope
  cases hstack : s.session.stack with
  | nil =>
    rw [hstack] at h
    cases h
  | cons c rest => exact List.mem_cons_self

/-- Parsing a file leaves all documents sound. -/
theorem Run.sound (hload : env.Loads) (hsound : env.LoadsSound tree texts) (h : Run env s s')
    (hclean : s'.session.Clean) (hstand : Standing env s) (hroot : env.root ∈ s.session.stack)
    (hs : s.session.Sound tree texts) : s'.session.Sound tree texts := by
  induction h with
  | read h =>
    obtain ⟨more, hsession⟩ := h.session
    exact hs.of_eq h.symbols (by rw [hsession]) h.stack
  | own s node => exact hs
  | number s => exact hs.of_eq rfl rfl rfl
  | bind s symbol hseq hfree hkind =>
    refine hs.grow (SymbolTable.grows_bind s.session.symbols (s.scope env) symbol) id
      (fun hd hlive => ?_) (fun c hc => .inl hc) .inl
    exact (hs.docs hd).apart (hlive ▸ ParserState.scope_mem hroot)
  | inside hkind h ih =>
    rename_i s s' kind
    have hin : (s.enter env kind).session.Sound tree texts := by
      refine hs.grow (SymbolTable.grows_addScope _ _ _ _ (fun _ => False) 0) id (fun _ => id)
        (fun c hc => ?_) .inl
      obtain rfl | hc := List.mem_cons.1 hc
      · exact .inr (Nat.le_refl _)
      · exact .inl hc
    have hend := ih hclean (hstand.enter kind) (List.mem_cons_of_mem _ hroot) hin
    exact hend.grow (.same _) id (fun _ => id) (fun c hc => .inl (List.mem_of_mem_tail hc)) .inl
  | load h hscope =>
    rename_i s f d session
    have hloaded := hsound _ _ _ _ h hclean hstand.session hs
    have hstack := (hload _ _ _ _ h).1.stack
    refine hloaded.grow (SymbolTable.grows_addImport session.symbols env.root d.scope s.seq) id
      (fun hd hlive => ?_) (fun c hc => .inl hc) .inl
    exact (hloaded.docs hd).apart (hstack ▸ hlive ▸ hroot)
  | trans h h' ih ih' =>
    have ha := h.advances hload
    have ha' := h'.advances hload
    exact ih' hclean (h.standing hload hstand) (ha.stack ▸ hroot)
      (ih (ha'.clean hclean) hstand hroot hs)

end Source

end Scaffold
