import Scaffold.Proofs.Compilation
import Scaffold.Proofs.Completion.Agreement
import Scaffold.Proofs.ImportOrder
import Scaffold.Proofs.Parser.Agreement.Decl
import Scaffold.Proofs.Parser.Agreement
import Scaffold.Proofs.Restoring

/-!
# What was compiled before does not matter

All files of a session are numbered together, and the remains of failed files stay in its tables. A
text without import statements comes out the same all the same: two sessions are in step from the
first token of the text to its last, whatever they held before.

* `parseDocument_alike`: a file without import statements, read in two sessions.
* `Session.compileText_reset`: a text is compiled as it would be in a fresh session.
-/

namespace Scaffold

namespace Source

variable {tree : FileTree} {load load' : Loader} {text : String} {f : SourceFile} {s s' : Session}
  {tokens : List Token}

/-- Two sessions in which a file is started: neither has a document for it, and there is no
prelude. -/
structure Started (f : SourceFile) (s s' : Session) : Prop where
  platform : s.platform = s'.platform
  prelude : s.symbols.prelude = none
  prelude' : s'.symbols.prelude = none
  reading : s.imports.get? f.path = none
  reading' : s'.imports.get? f.path = none

/-- The parsers of a file start in step. -/
theorem fileStart_inStep {exact : Prop} {before : Diagnostics} (tree : FileTree)
    (load load' : Loader) (tokens : List Token) (h : Started f s s')
    (hdiagnostics : exact → s'.diagnostics = before ++ s.diagnostics) :
    ∃ N : Numbers, ParserState.InStep N exact before (fileEnv tree load f s) (fileStart tokens f s)
        (fileEnv tree load' f s') (fileStart tokens f s') := by
  have hfile := (Session.InStep.start h.platform h.prelude h.prelude' hdiagnostics).addFile f.path
  have hscope := hfile.addScope (f := s.symbols.files.size) .file .none s.symbols.files.size
    s'.symbols.files.size (s.symbols.scopes.size :: s.stack) (s'.symbols.scopes.size :: s'.stack)
  refine ⟨_, hscope, .inr ⟨rfl, rfl⟩, rfl, .inr ⟨rfl, rfl, rfl⟩, ?_, .inr ⟨rfl, rfl, rfl⟩,
    fun h => h.elim, fun _ => rfl, rfl, h.reading, h.reading'⟩
  exact ⟨_, scopes_fileTable f s.symbols, rfl⟩

theorem parseDocument_alike {exact : Prop} {before : Diagnostics} (tree : FileTree)
    (load load' : Loader) (htext : importsOf text = []) (h : Started f s s')
    (hdiagnostics : exact → s'.diagnostics = before ++ s.diagnostics) :
    ∃ N : Numbers,
      (parseDocument tree load text f s).2.InStep N exact before
        (parseDocument tree load' text f s').2 ∧
      Outcomes exact (Document.Alike N (N.bound exact)) (parseDocument tree load text f s).1
        (parseDocument tree load' text f s').1 := by
  cases htokens : tokenize text with
  | error m =>
    unfold parseDocument
    rw [htokens]
    exact ⟨.none, .start h.platform h.prelude h.prelude' hdiagnostics, .error fun _ => rfl⟩
  | ok tokens =>
    have hstatements : importStatements false tokens = [] := by
      rw [importsOf, htokens] at htext
      exact htext
    have hread : ∀ (load : Loader) (s : Session),
        Parser.decls (fileEnv tree load f s) (fileStart tokens f s)
          = Parser.decls (fileEnv tree noFiles f s) (fileStart tokens f s) := fun _ _ =>
      Parser.decls_noFiles hstatements
    obtain ⟨N, hstart⟩ := fileStart_inStep tree noFiles noFiles tokens h hdiagnostics
    have hagree : Agrees (.sessions exact before) (fileEnv tree noFiles f s)
        (fileEnv tree noFiles f s') N Parser.decls Parser.decls
        fun N₁ => List.Forall₂ (Decl.Alike (N₁.unbound exact)) :=
      Parser.decls_agree _ (fun _ => rfl) rfl rfl
    obtain ⟨N₁, -, hends⟩ := hagree N (fileStart tokens f s) (fileStart tokens f s') (.refl N)
      hstart (List.forall₂_same.2 fun _ _ => ⟨rfl, fun _ => rfl⟩)
    rw [parseDocument_eq load f s htokens, parseDocument_eq load' f s' htokens, hread load,
      hread load']
    generalize Parser.decls (fileEnv tree noFiles f s) (fileStart tokens f s) = r,
      Parser.decls (fileEnv tree noFiles f s') (fileStart tokens f s') = r' at hends
    obtain ⟨r, final⟩ := r
    obtain ⟨r', final'⟩ := r'
    obtain ⟨hstates, -, -, -, hvalues⟩ := hends
    have hsession : (fileEnd final).InStep N₁ exact before (fileEnd final') :=
      { hstates.session with }
    cases hvalues with
    | error he => exact ⟨N₁, hsession, .error he⟩
    | ok hdecls =>
      have hd : (parsedDocument f s final _).Alike N₁ (N₁.unbound exact)
          (parsedDocument f s' final' _) :=
        ⟨hstates.file, rfl, rfl, hstates.root, hstates.imports, hdecls, .nil⟩
      obtain ⟨N₂, -, hstep, hdocument⟩ := complete_alike hsession hd
        ⟨hstates.file, rfl, hstates.root, hstates.isFile, hstates.reading⟩ rfl rfl
      exact ⟨N₂, hstep, .ok hdocument⟩

/-- Documents that differ in nothing but the numbers of files, scopes, symbols and declarations. -/
def Document.Renumbered (d d' : Document) : Prop :=
  ∃ N : Numbers, N.OneToOne ∧ (∀ {f q q'}, N.seq f q q' → q = q') ∧ d.Alike N (N.bound True) d'

/-- Putting a file away changes neither how it came out nor what was found wrong. -/
theorem parseText_begun (load : Loader) (text : String) {imports : ImportTable}
    (h : s.imports.begin (tree.canonical f.path) = .ok (none, imports)) :
    let r := parseDocument tree load text { f with path := tree.canonical f.path }
      { s with imports }
    (parseText tree load text f s).1 = r.1 ∧
      (parseText tree load text f s).2.diagnostics = r.2.diagnostics := by
  rw [parseText_new h]
  dsimp only
  rcases parseDocument tree load text _ _ with ⟨e | d, s'⟩ <;> exact ⟨rfl, rfl⟩

/-- A file that is started has no document yet. -/
theorem begin_unread {t t' : ImportTable} {p : Path} (h : t.begin p = .ok (none, t')) :
    t'.get? p = none := by
  rw [ImportTable.get?_begin h, ImportTable.get?, (ImportTable.begin_none h).1]

end Source

open Source

/-- A text without import statements that was not compiled before comes out as in a fresh session:
with the same error, or with a document that differs in numbers only; and the same problems are
found. -/
theorem Session.compileText_reset (tree : FileTree) {text : String} {name : Path} {s : Session}
    (htext : importsOf text = []) (hnew : s.imports.state? (tree.canonical name) = none)
    (hprelude : s.symbols.prelude = none) :
    Outcomes True Document.Renumbered (s.reset.compileText tree text name).1
        (s.compileText tree text name).1 ∧
      (s.compileText tree text name).2.diagnostics
        = s.diagnostics ++ (s.reset.compileText tree text name).2.diagnostics := by
  obtain ⟨imports, hbegin⟩ := ImportTable.begin_new hnew
  obtain ⟨imports₀, hbegin₀⟩ : ∃ t, s.reset.imports.begin (tree.canonical name) = .ok (none, t) :=
    ImportTable.begin_new rfl
  have hstarted : Started { path := tree.canonical name } { s.reset with imports := imports₀ }
      { s with imports } := ⟨rfl, rfl, hprelude, begin_unread hbegin₀, begin_unread hbegin⟩
  have hdiagnostics : True → s.diagnostics = s.diagnostics ++ s.reset.diagnostics := fun _ =>
    (List.append_nil _).symm
  let load := loadFile tree (importDepth tree)
  obtain ⟨N, hstep, hvalues⟩ := parseDocument_alike tree load load htext hstarted hdiagnostics
  obtain ⟨hresult, hproblems⟩ := parseText_begun (f := { path := name }) load text hbegin
  obtain ⟨hresult₀, hproblems₀⟩ := parseText_begun (f := { path := name }) load text hbegin₀
  rw [compileText, compileText, hresult, hresult₀, hproblems, hproblems₀]
  exact ⟨hvalues.imp fun _ _ hd => ⟨N, hstep.numbers, hstep.seq trivial, hd⟩,
    hstep.diagnostics trivial⟩

/-- The session after two calls: one for a file with a name for a type, and one that breaks off after
the name of a record. -/
def usedSession : Session :=
  ((Call.text {} "struct B" ⟨"b.jssp"⟩).run
    ((Call.text {} "domain Id int;" ⟨"a.jssp"⟩).run {}).2).2

/-- A record that uses the name of the earlier file, and its own. -/
def lateText : String := "struct Late { owner Id; twin Late; }"

/-- What the earlier file declares means nothing in the later one, and is reported both times. -/
theorem Session.compileText_reset_used :
    (usedSession.Reached ∧ usedSession.diagnostics = [] ∧
      (usedSession.compileText {} lateText ⟨"late.jssp"⟩).1.isOk = true) ∧
    Outcomes True Document.Renumbered (usedSession.reset.compileText {} lateText ⟨"late.jssp"⟩).1
      (usedSession.compileText {} lateText ⟨"late.jssp"⟩).1 ∧
    (usedSession.compileText {} lateText ⟨"late.jssp"⟩).2.diagnostics
      = (usedSession.reset.compileText {} lateText ⟨"late.jssp"⟩).2.diagnostics ∧
    (usedSession.compileText {} lateText ⟨"late.jssp"⟩).2.diagnostics.length = 1 := by
  have hreached : usedSession.Reached := .call (.call (.new none) _) _
  have htext : importsOf lateText = [] := by decide +kernel
  obtain ⟨hnew, hprelude, hdiagnostics, hok, hproblem⟩ :
      (usedSession.imports.state? ((({} : FileTree)).canonical ⟨"late.jssp"⟩)).isNone = true ∧
      usedSession.symbols.prelude = none ∧ usedSession.diagnostics = [] ∧
      (usedSession.compileText {} lateText ⟨"late.jssp"⟩).1.isOk = true ∧
      (usedSession.compileText {} lateText ⟨"late.jssp"⟩).2.diagnostics.length = 1 := by
    decide +kernel
  obtain ⟨hresult, hproblems⟩ :=
    compileText_reset {} htext (Option.isNone_iff_eq_none.1 hnew) hprelude
  rw [hdiagnostics, List.nil_append] at hproblems
  exact ⟨⟨hreached, hdiagnostics, hok⟩, hresult, hproblems, hproblem⟩

end Scaffold
