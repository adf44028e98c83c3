import Scaffold.Lowering
import Scaffold.Proofs.Compilation

/-!
# What a compiled program means

A compilation starts from nothing, with a file or with a text; it may load a prelude first. When it
ends without an error, every name in every document is bound, and the names in bodies are bound to
what a reader finds.

* `Entry.compile_sound`: every document is what its text says.
-/

namespace Scaffold

namespace Session

variable {tree : FileTree} {texts : Path → String → Prop} {s s' : Session} {scope : ScopeId}

/-- The session with the names of a scope visible everywhere. -/
def withPrelude (s : Session) (scope : ScopeId) : Session :=
  { s with symbols := s.symbols.setPrelude scope }

theorem Standing.withPrelude (h : s.Standing) (scope : ScopeId) : (s.withPrelude scope).Standing :=
  ⟨⟨h.table.parent_lt, h.table.bound, h.table.nodup, h.table.inner⟩, h.stack, h.held⟩

/-- What is found without a prelude is found with one. -/
theorem Sound.withPrelude (h : s.Sound tree texts) (hnone : s.symbols.prelude = none) {p : Path}
    (hscope : s.Opens p scope) : (s.withPrelude scope).Sound tree texts where
  docs hd := by
    obtain ⟨hfile, hapart, hdeclared, huses, text, items, htext, hwritten, himports, hdecls⟩ :=
      h.docs hd
    refine ⟨hfile, hapart, hdeclared, huses, text, items, htext, hwritten, himports,
      hdecls.imp fun x b hb => ⟨hb.1, fun y hy => ?_⟩⟩
    obtain ⟨hfinished, ms, base, hms, hbase, hx⟩ := hb.2 y hy
    refine ⟨hfinished, ms, base, hms, hbase, fun x hx' => ?_⟩
    obtain ⟨id, htarget, hlookup⟩ := hx x hx'
    refine ⟨id, htarget, ?_⟩
    have hprelude : s.preludeNames = [] := by
      rw [Session.preludeNames, hnone]
      rfl
    rw [hprelude, List.append_nil] at hlookup
    exact List.lookup_append.trans (congrArg (Option.or · _) hlookup)
  prelude hp := by
    cases hp
    exact ⟨p, hscope⟩

/-- There is no prelude, or it is loaded. -/
theorem loadPrelude_ok {roots : List Path} (h : s.loadPrelude tree roots = (.ok (), s')) :
    s' = s ∨ ∃ f d s₁, Source.loadFile tree (importDepth tree) f s = (.ok d, s₁) ∧
      s' = s₁.withPrelude d.scope := by
  unfold loadPrelude at h
  dsimp only at h
  split at h
  · cases h
    exact .inl rfl
  · rename_i f _
    split at h
    · cases h
    · rename_i d s₁ hload
      cases h
      exact .inr ⟨f, d, s₁, hload, rfl⟩

/-- Loading the prelude leaves all documents sound. -/
theorem loadPrelude_sound {roots : List Path}
    (htexts : ∀ p text, tree.read p = .ok text → texts (tree.canonical p) text)
    (h : s.loadPrelude tree roots = (.ok (), s')) (hnone : s.symbols.prelude = none)
    (hclean : s'.Clean) (hs : s.Standing) (hdocs : s.Sound tree texts) :
    s'.Standing ∧ s'.Sound tree texts := by
  obtain rfl | ⟨f, d, s₁, hload, rfl⟩ := loadPrelude_ok h
  · exact ⟨hs, hdocs⟩
  · obtain ⟨hbefore, hheld⟩ := Source.loadFile_keeps _ f s d s₁ hload
    have hstand := hbefore.standing hs
    have hsound := Source.loadFile_sound htexts _ f s d s₁ hload hclean hs hdocs
    exact ⟨hstand.withPrelude d.scope,
      hsound.withPrelude (hbefore.symbols.prelude.trans hnone) ⟨d, hheld hs, rfl⟩⟩

end Session

/-- What is compiled: a file with the roots of its libraries, or a text under a name. -/
inductive Entry where
  | file (path : Path) (roots : List Path)
  | text (contents : String) (name : Path)

namespace Entry

/-- Compiles from nothing. -/
def compile (tree : FileTree) (platform : Option Platform) :
    Entry → Except CompileError Source.Document × Session
  | .file path roots => ({ platform } : Session).compileFile tree path roots
  | .text contents name => ({ platform } : Session).compileText tree contents name

/-- The session behind the compilation. -/
def session (tree : FileTree) (platform : Option Platform) (e : Entry) : Session :=
  (e.compile tree platform).2

theorem session_eq (tree : FileTree) (platform : Option Platform) (e : Entry) :
    (e.compile tree platform).2 = e.session tree platform :=
  rfl

/-- The texts that a path may stand for: that of a file of this path, or the text given. -/
def Texts (tree : FileTree) (e : Entry) (p : Path) (text : String) : Prop :=
  (∃ q, tree.read q = .ok text ∧ tree.canonical q = p) ∨
    ∃ name, e = .text text name ∧ tree.canonical name = p

section

variable {tree : FileTree} {platform : Option Platform} {e : Entry} {d : Source.Document}
  {s : Session}

theorem compile_text {text : String} {chars : List Char} (h : Text.HasChars text chars)
    (name : Path) :
    (Entry.text text name).compile tree platform =
      Source.parseWith tree
        (Source.parseTokens tree (Source.loadFile tree (Session.importDepth tree))
          (Lexer.tokens (chars.length + 1) none ⟨chars, {}⟩)) { path := name } { platform } :=
  Session.compileText_of_hasChars h tree name _

theorem compile_file (tree : FileTree) {chars : List (List Char)}
    (h : List.Forall₂ Text.HasChars tree.texts chars)
    (path : Path) :
    (Entry.file path []).compile tree platform =
      Source.loadKnown (tree.texts.zip chars) tree (Session.importDepth tree) { path } { platform } :=
  Session.compileFile_of_hasChars tree h path _

theorem exists_of_isOk {ε α σ : Type} {r : Except ε α × σ} (h : r.1.isOk = true) :
    ∃ a, r = (.ok a, r.2) := by
  obtain ⟨result, s⟩ := r
  cases result with
  | ok a => exact ⟨a, rfl⟩
  | error e => cases h

theorem fresh_standing : Session.Standing { platform } where
  table := by
    refine ⟨fun h => ?_, fun h => ?_, fun h => ?_, fun h => ?_⟩ <;> simp at h
  stack _ hc := nomatch hc
  held h := nomatch h

theorem fresh_sound {texts : Path → String → Prop} : Session.Sound tree texts { platform } where
  docs h := nomatch h
  prelude h := nomatch h

/-- Without errors, every document of a compilation is what its text says, and its result is one of
them. -/
theorem compile_sound (h : e.compile tree platform = (.ok d, s)) (hclean : s.Clean) :
    s.Standing ∧ s.imports.get? d.path = some d ∧ s.Sound tree (e.Texts tree) := by
  have htexts : ∀ p text, tree.read p = .ok text → e.Texts tree (tree.canonical p) text :=
    fun p _ hread => .inl ⟨p, hread, rfl⟩
  cases e with
  | file path roots =>
    simp only [compile, Session.compileFile] at h
    split at h
    · cases h
    · rename_i s₁ hprelude
      obtain ⟨hbefore, hheld⟩ := Source.loadFile_keeps _ _ _ _ _ h
      obtain ⟨more, hmore⟩ := hbefore.diagnostics
      obtain ⟨hstand, hsound⟩ := Session.loadPrelude_sound htexts hprelude rfl
        (hclean.of_append hbefore.diagnostics) fresh_standing fresh_sound
      exact ⟨hbefore.standing hstand, hheld hstand,
        Source.loadFile_sound htexts _ _ _ _ _ h hclean hstand hsound⟩
  | text contents name =>
    have h : Source.parseText tree (Source.loadFile tree (Session.importDepth tree)) contents
        { path := name } { platform } = (.ok d, s) := h
    obtain ⟨hbefore, hheld⟩ := Source.parseText_keeps (Source.loadFile_keeps _) h
    exact ⟨hbefore.standing fresh_standing, hheld fresh_standing,
      Source.parseText_sound (Source.loadFile_sound htexts _) (.inr ⟨name, rfl, rfl⟩) h hclean
        fresh_standing fresh_sound⟩

/-- In a compilation without errors every name of every document is bound to a symbol of that name
whose kind its place accepts, and this is the symbol that lowering finds. -/
theorem uses_bound (h : e.compile tree platform = (.ok d, s))
    (hclean : s.diagnostics.hasErrors = false) :
    ∀ d' ∈ s.imports.documents, ∀ u ∈ d'.uses, ∃ id symbol, u.ref.target = some id ∧
      s.symbols.symbols[id]? = some symbol ∧ symbol.name = u.ref.name ∧
      u.expects.accepts symbol.kind = true ∧
      Lowering.target? ⟨s.symbols, s.imports, s.platform⟩ u.ref = some symbol := by
  obtain ⟨-, -, hsound⟩ := compile_sound h hclean
  intro d' hd' u hu
  obtain ⟨p, -, hp⟩ := List.mem_filterMap.1 hd'
  obtain ⟨id, symbol, htarget, hsymbol, hname, hkind⟩ := (hsound.docs hp).uses u hu
  refine ⟨id, symbol, htarget, hsymbol, hname, hkind, ?_⟩
  rw [Lowering.target?, htarget, Option.bind_some, hsymbol]

theorem uses_bound_query :
    let e : Entry := .text "table t \x7b id int; key(id); \x7d entity E : t \x7b more list<E>; \x7d
mapper M \x7b query all() list<V> \x7b select id from t \x7d \x7d" ⟨"main.jssp"⟩
    let r := e.compile {} none
    (∃ d, r.1 = .ok d) ∧ r.2.diagnostics.hasErrors = false ∧
      r.2.imports.documents.map (·.uses.map (·.ref.name)) = [["t", "E", "V"]] ∧
      ∀ d' ∈ r.2.imports.documents, ∀ u ∈ d'.uses, ∃ id symbol, u.ref.target = some id ∧
        r.2.symbols.symbols[id]? = some symbol ∧ symbol.name = u.ref.name ∧
        u.expects.accepts symbol.kind = true ∧
        Lowering.target? ⟨r.2.symbols, r.2.imports, r.2.platform⟩ u.ref = some symbol := by
  intro e
  obtain ⟨hok, hclean, hnames⟩ : (e.compile {} none).1.isOk = true ∧
      (e.compile {} none).2.diagnostics.hasErrors = false ∧
      (e.compile {} none).2.imports.documents.map (·.uses.map (·.ref.name)) = [["t", "E", "V"]] := by
    rw [show e.compile {} none = _ from compile_text rfl _]
    decide +kernel
  obtain ⟨d, hd⟩ := exists_of_isOk hok
  exact ⟨⟨d, congrArg (·.1) hd⟩, hclean, hnames, uses_bound hd hclean⟩

/-- In a compilation without errors every name in a body is bound to what a reader finds who passes
the names in sight along: the innermost variable completed before it, else a parameter, else a member
of the controller, else a declaration or shape of the file, else a declaration of the first file
imported before the body, else one of the prelude. -/
theorem bodies_lexical (h : e.compile tree platform = (.ok d, s))
    (hclean : s.diagnostics.hasErrors = false) :
    s.imports.get? d.path = some d ∧
    (∀ scope, s.symbols.prelude = some scope → ∃ p, s.Opens p scope) ∧
    ∀ p d', s.imports.get? p = some d' →
      s.symbols.Declares (s.symbols.names d'.scope) d'.declared ∧
      ∃ text items, Source.ReadLexically tree (e.Texts tree) s d' text items := by
  obtain ⟨-, hd, hsound⟩ := compile_sound h hclean
  exact ⟨hd, fun scope => hsound.prelude, fun p d' hp =>
    ⟨(hsound.docs hp).declared, (hsound.docs hp).written⟩⟩

theorem bodies_lexical_shadowed :
    let e : Entry := .text "func f(x int) \x7b var y = x; if (y) \x7b var x = x; y = x; \x7d return x; \x7d"
      ⟨"main.jssp"⟩
    let r := e.compile {} none
    ∃ d, r.1 = .ok d ∧ r.2.diagnostics.hasErrors = false ∧
      d.uses.map (fun u => (u.ref.name, u.ref.target)) = [("x", some 1), ("y", some 2),
        ("x", some 1), ("y", some 2), ("x", some 3), ("x", some 1)] ∧
      r.2.imports.get? d.path = some d ∧
      (∀ scope, r.2.symbols.prelude = some scope → ∃ p, r.2.Opens p scope) ∧
      ∀ p d', r.2.imports.get? p = some d' →
        r.2.symbols.Declares (r.2.symbols.names d'.scope) d'.declared ∧
        ∃ text items, Source.ReadLexically {} (e.Texts {}) r.2 d' text items := by
  intro e
  obtain ⟨hok, hclean, huses⟩ : (e.compile {} none).1.isOk = true ∧
      (e.compile {} none).2.diagnostics.hasErrors = false ∧
      (e.compile {} none).1.toOption.map (·.uses.map fun u => (u.ref.name, u.ref.target))
        = some [("x", some 1), ("y", some 2), ("x", some 1), ("y", some 2), ("x", some 3),
          ("x", some 1)] := by
    rw [show e.compile {} none = _ from compile_text rfl _]
    decide +kernel
  obtain ⟨d, hd⟩ := exists_of_isOk hok
  rw [congrArg (·.1) hd] at huses
  exact ⟨d, congrArg (·.1) hd, hclean, Option.some.inj huses, bodies_lexical hd hclean⟩

end

end Entry

end Scaffold
