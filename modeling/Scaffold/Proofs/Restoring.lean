import Scaffold.Proofs.Loading

/-!
# Sessions after an error

A call compiles a text or a file. Errors arise at any token, inside nested scopes and several imports
deep, and each level takes back what it began, so a session can go on after an error.

* `Restores`: what a step from one session to another leaves as it was, and what it leaves behind
  when it fails. Parsing a text has it if loading its imports has it (`parseText_restores`), and so
  loading has it at every depth (`loadFile_restores`).
* `run_restores`: a call from any session that calls have led to.
-/

namespace Scaffold

open Source

/-- The files in which an error was found. -/
def CompileError.files : CompileError → List Path
  | .fault file _ _ => [file]
  | .importCycle chain => chain
  | _ => []

namespace ImportTable

variable {t t' : ImportTable} {p q : Path} {d : Source.Document}

theorem isInProgress_of_parsed (h : t.state? p = some (.parsed d)) : t.isInProgress p = false := by
  unfold isInProgress
  rw [h]

theorem isInProgress_of_new (h : t.state? p = none) : t.isInProgress p = false := by
  unfold isInProgress
  rw [h]

/-- Giving up on a file that is being parsed takes its mark away, and no other. -/
theorem state?_abandon (hp : t.isInProgress p = true) (q : Path) :
    (t.abandon p).state? q = if p.same q then none else t.state? q := by
  unfold abandon
  rw [if_pos hp]
  show (((t.entries.filter fun x => !x.1.same p).find? (·.1.same q)).map (·.2)) = _
  rw [List.find?_filter]
  by_cases hq : p.same q = true
  · rw [if_pos hq, List.find?_eq_none.2]
    · rfl
    · intro x _
      have hsame : x.1.same q = x.1.same p := by
        rw [Path.same, Path.same, Path.same_iff.1 hq]
      rw [hsame]
      cases x.1.same p <;> simp
  · rw [if_neg hq]
    unfold state?
    congr 2
    funext x
    cases hx : x.1.same q with
    | false => simp
    | true =>
      have hne : x.1.same p = false := by
        rw [Bool.eq_false_iff]
        intro hx'
        exact hq (Path.same_iff.2 ((Path.same_iff.1 hx').symm.trans (Path.same_iff.1 hx)))
      simp [hne]

/-- Every file that counts as finished has its document. -/
def Filled (t : ImportTable) : Prop :=
  ∀ p ∈ t.completed, (t.get? p).isSome = true

/-- Every document there is belongs to a finished file. -/
def Listed (t : ImportTable) : Prop :=
  ∀ p d, t.get? p = some d → d ∈ t.documents

/-- Every file on the chain is being parsed. -/
def Marked (t : ImportTable) : Prop :=
  ∀ p ∈ t.chain, t.isInProgress p = true

/-- The table is at the same place of the same chain, and has kept its documents. -/
structure Restored (t t' : ImportTable) : Prop where
  chain : t'.chain = t.chain
  inProgress : ∀ p, t'.isInProgress p = t.isInProgress p
  documents : ∀ {p d}, t.get? p = some d → t'.get? p = some d
  completed : t.completed <+: t'.completed
  filled : t.Filled → t'.Filled
  listed : t.Listed → t'.Listed

namespace Restored

theorem refl (t : ImportTable) : Restored t t :=
  ⟨rfl, fun _ => rfl, id, List.prefix_refl _, id, id⟩

theorem trans {t'' : ImportTable} (h : Restored t t') (h' : Restored t' t'') : Restored t t'' where
  chain := h'.chain.trans h.chain
  inProgress p := (h'.inProgress p).trans (h.inProgress p)
  documents hd := h'.documents (h.documents hd)
  completed := h.completed.trans h'.completed
  filled ht := h'.filled (h.filled ht)
  listed ht := h'.listed (h.listed ht)

theorem marked (h : Restored t t') (ht : t.Marked) : t'.Marked := by
  intro p hp
  rw [h.chain] at hp
  rw [h.inProgress]
  exact ht p hp

/-- The documents there were are listed first. -/
theorem prefix_documents (h : Restored t t') (ht : t.Filled) : t.documents <+: t'.documents := by
  have hsame : t.documents = t.completed.filterMap t'.get? := by
    refine List.filterMap_congr fun p hp => ?_
    obtain ⟨d, hd⟩ := Option.isSome_iff_exists.1 (ht p hp)
    rw [hd, h.documents hd]
  rw [hsame]
  exact h.completed.filterMap _

end Restored

section

variable {t₁ t₂ : ImportTable}

theorem Marked.begin (ht : t.Marked) (h : t.begin p = .ok (none, t₁)) : t₁.Marked := by
  obtain ⟨-, -, hstate⟩ := begin_none h
  intro q hq
  rw [chain_begin h] at hq
  rw [isInProgress_iff, hstate]
  split
  · rfl
  · rename_i hne
    obtain hq | hq := List.mem_append.1 hq
    · exact isInProgress_iff.1 (ht q hq)
    · rw [List.mem_singleton.1 hq] at hne
      exact absurd (Path.same_iff.2 rfl) hne

theorem isInProgress_begin (h : t.begin p = .ok (none, t₁)) (q : Path) :
    t₁.isInProgress q = (p.same q || t.isInProgress q) := by
  obtain ⟨-, -, hstate⟩ := begin_none h
  unfold isInProgress
  rw [hstate]
  cases p.same q <;> rfl

/-- A file is started, others come and go, and the file loses its mark. -/
theorem restored_of_closed {t₃ : ImportTable} (more : List Path)
    (h : t.begin p = .ok (none, t₁)) (h' : Restored t₁ t₂)
    (hchain : t₃.chain = cutChain p t₂.chain) (hclosed : t₃.isInProgress p = false)
    (hother : ∀ q, p.same q = false → t₃.state? q = t₂.state? q)
    (hcompleted : t₃.completed = t₂.completed ++ more)
    (hmore : ∀ q ∈ more, (t₃.get? q).isSome = true) (hown : (t₃.get? p).isSome = true → p ∈ more) :
    Restored t t₃ := by
  obtain ⟨hnew, hcompleted₁, -⟩ := begin_none h
  -- The file has no document before it is closed, so the others are kept.
  have hkept : ∀ {q d}, t₂.get? q = some d → t₃.get? q = some d := by
    intro q d hd
    rw [get?_eq_some_iff] at hd ⊢
    rw [hother q, hd]
    rw [Bool.eq_false_iff]
    intro hq
    have hmark : t₂.isInProgress q = true := by
      rw [h'.inProgress, isInProgress_begin h, hq, Bool.true_or]
    rw [isInProgress_of_parsed hd] at hmark
    cases hmark
  refine ⟨?_, fun q => ?_, fun hd => ?_, ?_, fun ht q hq => ?_, fun ht q d hd => ?_⟩
  · rw [hchain, h'.chain, chain_begin h, cutChain_concat]
  · cases hq : p.same q with
    | true =>
      rw [isInProgress_of_new ((state?_congr hq).symm.trans hnew), ← hclosed]
      unfold isInProgress
      rw [state?_congr hq]
    | false =>
      have hsame : t₃.isInProgress q = t₂.isInProgress q := by
        unfold isInProgress
        rw [hother q hq]
      rw [hsame, h'.inProgress, isInProgress_begin h, hq, Bool.false_or]
  · rw [← get?_begin h] at hd
    exact hkept (h'.documents hd)
  · rw [hcompleted, ← hcompleted₁]
    exact h'.completed.trans (List.prefix_append _ _)
  · have ht₂ : t₂.Filled := by
      refine h'.filled fun r hr => ?_
      rw [get?_begin h]
      rw [hcompleted₁] at hr
      exact ht r hr
    rw [hcompleted] at hq
    obtain hq | hq := List.mem_append.1 hq
    · obtain ⟨d, hd⟩ := Option.isSome_iff_exists.1 (ht₂ q hq)
      rw [hkept hd, Option.isSome_some]
    · exact hmore q hq
  · rw [documents, hcompleted, List.filterMap_append, List.mem_append]
    cases hq : p.same q with
    | true =>
      have hp : t₃.get? p = some d := by rwa [get?, state?_congr hq]
      exact .inr (List.mem_filterMap.2 ⟨p, hown (by rw [hp, Option.isSome_some]), hp⟩)
    | false =>
      have ht₂ : t₂.Listed := by
        refine h'.listed fun r d hr => ?_
        rw [documents, hcompleted₁]
        rw [get?_begin h] at hr
        obtain ⟨x, hx, hd⟩ := List.mem_filterMap.1 (ht r d hr)
        exact List.mem_filterMap.2 ⟨x, hx, by rw [get?_begin h, hd]⟩
      rw [get?, hother q hq] at hd
      obtain ⟨x, hx, hd⟩ := List.mem_filterMap.1 (ht₂ q d hd)
      exact .inl (List.mem_filterMap.2 ⟨x, hx, hkept hd⟩)

theorem restored_finish (h : t.begin p = .ok (none, t₁)) (h' : Restored t₁ t₂) :
    Restored t (t₂.finish p d) := by
  refine restored_of_closed [p] h h' rfl ?_ (fun q hq => ?_) rfl (fun q hq => ?_)
    fun _ => List.mem_singleton_self p
  · exact isInProgress_of_parsed (get?_eq_some_iff.1 (get?_finish p d))
  · rw [state?_finish, hq, if_neg Bool.false_ne_true]
  · rw [List.mem_singleton.1 hq, get?_finish, Option.isSome_some]

theorem restored_abandon (h : t.begin p = .ok (none, t₁)) (h' : Restored t₁ t₂) :
    Restored t (t₂.abandon p) := by
  have hmark : t₂.isInProgress p = true := by
    rw [h'.inProgress, isInProgress_begin h, Path.same_iff.2 rfl, Bool.true_or]
  have hnone : (t₂.abandon p).state? p = none := by
    rw [state?_abandon hmark, if_pos (Path.same_iff.2 rfl)]
  refine restored_of_closed [] h h' rfl ?_ (fun q hq => ?_) (List.append_nil _).symm nofun
    fun hown => ?_
  · exact isInProgress_of_new hnone
  · rw [state?_abandon hmark, hq, if_neg Bool.false_ne_true]
  · rw [get?, hnone] at hown
    cases hown

end

end ImportTable

namespace Source

/-! ## Completing a document -/

theorem Shape.stack_declare (d : Document) (s : Session) (shape : ResultShape) :
    (Shape.declare d s shape).2.stack = s.stack := by
  rw [Shape.declare_symbol]
  split <;> rfl

theorem Shape.stack_declareAll (d : Document) : ∀ (shapes : List ResultShape) (s : Session),
    (Shape.declareAll d shapes s).2.stack = s.stack
  | [], _ => rfl
  | shape :: rest, s =>
    (stack_declareAll d rest (declare d s shape).2).trans (stack_declare d s shape)

theorem stack_complete (d : Document) (s : Session) : (complete d s).2.stack = s.stack :=
  Shape.stack_declareAll { d with decls := (firstPass d s).1 }
    (Shape.pending ⟨{ d with decls := (firstPass d s).1 }, s.imports, s.symbols⟩).shapes
    { s with diagnostics := (firstPass d s).2 ++
      (Shape.pending ⟨{ d with decls := (firstPass d s).1 }, s.imports, s.symbols⟩).warnings }

/-! ## Loading -/

/-- What a step from a session leaves as it was. If it fails, then with an error that fails a build,
and with no entry for the files of the error that it began itself. -/
structure Restores {α : Type} (s : Session) (r : Except CompileError α × Session) : Prop where
  stack : r.2.stack = s.stack
  imports : s.imports.Restored r.2.imports
  severe : ∀ e, r.1 = .error e → e.severity = .error
  failed : ∀ e, r.1 = .error e → ∀ p ∈ e.files,
    s.imports.isInProgress p = true ∨ r.2.imports.state? p = none

/-- Loading a file restores the session, and the file has its document then, or no entry if it was
not begun before. -/
structure Settles (key : Path) (s : Session) (r : Except CompileError Document × Session) : Prop
    extends Restores s r where
  finished : ∀ d, r.1 = .ok d → r.2.imports.get? key = some d
  abandoned : ∀ e, r.1 = .error e →
    s.imports.isInProgress key = true ∨ r.2.imports.state? key = none

/-- Loading any file restores any session. -/
def RestoresAll (load : Loader) : Prop :=
  ∀ f s, s.imports.Marked → Restores s (load f s)

section

variable {α β : Type} {s s' : Session} {e : CompileError}

namespace Restores

theorem of_ok (a : α) (hstack : s'.stack = s.stack) (himports : s.imports.Restored s'.imports) :
    Restores s (.ok a, s') :=
  ⟨hstack, himports, nofun, nofun⟩

theorem of_error (hstack : s'.stack = s.stack) (himports : s.imports.Restored s'.imports)
    (hsevere : e.severity = .error)
    (hfiles : ∀ p ∈ e.files, s.imports.isInProgress p = true ∨ s'.imports.state? p = none) :
    Restores s ((.error e : Except CompileError α), s') := by
  refine ⟨hstack, himports, fun e' he => ?_, fun e' he => ?_⟩
  · cases he
    exact hsevere
  · cases he
    exact hfiles

/-- An error in the files that are being parsed, before anything was done. -/
theorem of_fault (hsevere : e.severity = .error)
    (hfiles : ∀ p ∈ e.files, s.imports.isInProgress p = true) :
    Restores s ((.error e : Except CompileError α), s) :=
  .of_error rfl (.refl _) hsevere fun p hp => .inl (hfiles p hp)

theorem trans {a : α} {r : Except CompileError β × Session} (h : Restores s (.ok a, s'))
    (h' : Restores s' r) : Restores s r where
  stack := h'.stack.trans h.stack
  imports := h.imports.trans h'.imports
  severe := h'.severe
  failed e he p hp := by
    rw [← h.imports.inProgress p]
    exact h'.failed e he p hp

end Restores

end

variable {tree : FileTree} {load : Loader} {text : String} {f : SourceFile} {s : Session} {n : Nat}

/-- The imports of a file are loaded one by one, each in a session that is as it was when the file
was started. -/
theorem loading_of_restoresAll (tree : FileTree) (hload : RestoresAll load) (hs : s.imports.Marked)
    (hmark : s.imports.isInProgress f.path = true) (s₀ : Session) :
    Parser.Loading (fileEnv tree load f s₀) load (fun _ _ s' => Restores s (.ok (), s'))
      fun e s' => Restores s ((.error e : Except CompileError Unit), s') where
  still h hstack hsame :=
    .of_ok () (hstack.trans h.stack) (by rw [hsame.imports]; exact h.imports)
  fault h he := by
    obtain ⟨pos, fault, rfl, hsevere⟩ := he
    refine .of_error h.stack h.imports hsevere fun p hp => ?_
    rw [List.mem_singleton.1 hp]
    exact .inl hmark
  same _ _ := rfl
  ok {w ws ps s₁ g d s'} h _ hrun := by
    have hstep := h.trans (hload g s₁ (h.imports.marked hs))
    rw [show load g s₁ = (.ok d, s') from hrun] at hstep
    exact .of_ok () hstep.stack hstep.imports
  error {w ws ps s₁ g e s'} h _ hrun := by
    have hstep := h.trans (hload g s₁ (h.imports.marked hs))
    rw [show load g s₁ = (.error e, s') from hrun] at hstep
    exact .of_error hstep.stack hstep.imports (hstep.severe e rfl) (hstep.failed e rfl)

/-- A file that has its mark is read to its end or to an error. -/
theorem parseDocument_restores (tree : FileTree) (text : String) (hload : RestoresAll load)
    (hs : s.imports.Marked)
    (hmark : s.imports.isInProgress f.path = true) :
    Restores s (parseDocument tree load text f s) := by
  cases htokens : tokenize text with
  | error m =>
    unfold parseDocument
    rw [htokens]
    refine .of_fault rfl fun p hp => ?_
    rw [List.mem_singleton.1 hp]
    exact hmark
  | ok tokens =>
    have hloading := loading_of_restoresAll (s := (fileStart tokens f s).session) tree hload hs
      hmark s
    obtain ⟨-, hok, herror⟩ := Parser.decls_comes (s := fileStart tokens f s) hloading
      (.of_ok () rfl (.refl _))
    rw [parseDocument_eq load f s htokens]
    -- The scope of the file is the innermost one again, and is closed.
    have hclosed : ∀ {r : Except CompileError Unit} {final : ParserState},
        Restores (fileStart tokens f s).session (r, final.session) →
        final.session.stack.tail = s.stack := fun h => congrArg List.tail h.stack
    rcases hdecls : Parser.decls (fileEnv tree load f s) (fileStart tokens f s) with ⟨e | ds, final⟩
    · rw [hdecls] at herror
      have hend := herror e rfl
      exact .of_error (hclosed hend) hend.imports (hend.severe e rfl) (hend.failed e rfl)
    · rw [hdecls] at hok
      have hend := hok ds rfl
      refine .of_ok _ ((stack_complete _ _).trans (hclosed hend)) ?_
      rw [(sameFiles_complete _ _).imports]
      exact hend.imports

theorem parseText_finished {d : Document} (h : s.imports.get? (tree.canonical f.path) = some d) :
    parseText tree load text f s = (.ok d, s) := by
  unfold parseText ImportTable.begin
  dsimp only
  rw [ImportTable.get?_eq_some_iff.1 h]

theorem parseText_new {imports : ImportTable}
    (h : s.imports.begin (tree.canonical f.path) = .ok (none, imports)) :
    parseText tree load text f s =
      let key := tree.canonical f.path
      let r := parseDocument tree load text { f with path := key } { s with imports }
      match r.1 with
      | .error e => (.error e, { r.2 with imports := r.2.imports.abandon key })
      | .ok d => (.ok d, { r.2 with imports := r.2.imports.finish key d }) := by
  unfold parseText
  dsimp only
  rw [h]
  dsimp only
  rcases parseDocument tree load text { f with path := tree.canonical f.path }
    { s with imports } with ⟨e | d, s'⟩ <;> rfl

theorem finished_settles {key : Path} {d : Document} (h : s.imports.get? key = some d) :
    Settles key s (.ok d, s) := by
  refine ⟨.of_ok d rfl (.refl _), fun d' hd => ?_, nofun⟩
  cases hd
  exact h

theorem cycle_settles {key : Path} (hs : s.imports.Marked) (hmark : s.imports.isInProgress key = true) :
    Settles key s (.error (.importCycle (s.imports.cycle key)), s) := by
  refine ⟨.of_fault rfl fun p hp => ?_, nofun, fun _ _ => .inl hmark⟩
  obtain hp | hp := List.mem_append.1 (show p ∈ s.imports.cycle key from hp)
  · refine hs p ?_
    split at hp
    · exact hp
    · exact (List.dropWhile_sublist _).subset hp
  · rw [List.mem_singleton.1 hp]
    exact hmark

/-- A file that is started is finished or given up. -/
theorem begun_settles (hload : RestoresAll load) (hs : s.imports.Marked) {imports : ImportTable}
    (hbegin : s.imports.begin (tree.canonical f.path) = .ok (none, imports)) :
    Settles (tree.canonical f.path) s (parseText tree load text f s) := by
  rw [parseText_new hbegin]
  generalize tree.canonical f.path = key at hbegin ⊢
  have hmarked : ∀ p, imports.isInProgress p = (key.same p || s.imports.isInProgress p) :=
    ImportTable.isInProgress_begin hbegin
  have hkey : imports.isInProgress key = true := by
    rw [hmarked, Path.same_iff.2 rfl, Bool.true_or]
  have hparse := parseDocument_restores (f := { f with path := key }) (s := { s with imports }) tree
    text hload (hs.begin hbegin) hkey
  dsimp only
  rcases hdoc : parseDocument tree load text { f with path := key } { s with imports }
    with ⟨e | d, s'⟩
  · rw [hdoc] at hparse
    have habandoned : ∀ p, key.same p = true ∨ s'.imports.state? p = none →
        (s'.imports.abandon key).state? p = none := by
      intro p hp
      rw [ImportTable.state?_abandon ((hparse.imports.inProgress key).trans hkey)]
      obtain hp | hp := hp
      · rw [if_pos hp]
      · rw [hp, ite_self]
    refine ⟨.of_error hparse.stack (ImportTable.restored_abandon hbegin hparse.imports)
      (hparse.severe e rfl) fun p hp => ?_, nofun, fun _ _ =>
      .inr (habandoned key (.inl (Path.same_iff.2 rfl)))⟩
    -- The files that were being parsed are this one and those from before.
    obtain hfile | hfile := hparse.failed e rfl p hp
    · have hfile : imports.isInProgress p = true := hfile
      rw [hmarked, Bool.or_eq_true] at hfile
      exact hfile.symm.imp id fun h => habandoned p (.inl h)
    · exact .inr (habandoned p (.inr hfile))
  · rw [hdoc] at hparse
    refine ⟨.of_ok d hparse.stack (ImportTable.restored_finish hbegin hparse.imports),
      fun d' hd => ?_, nofun⟩
    cases hd
    exact ImportTable.get?_finish key d

/-- Whatever a text is and whatever it imports. -/
theorem parseText_settles (tree : FileTree) (text : String) (f : SourceFile)
    (hload : RestoresAll load) (hs : s.imports.Marked) :
    Settles (tree.canonical f.path) s (parseText tree load text f s) := by
  cases hmark : s.imports.isInProgress (tree.canonical f.path) with
  | true =>
    rw [parseText_inProgress hmark]
    exact cycle_settles hs hmark
  | false =>
    cases hget : s.imports.get? (tree.canonical f.path) with
    | some d =>
      rw [parseText_finished hget]
      exact finished_settles hget
    | none =>
      obtain ⟨imports, hbegin⟩ := ImportTable.begin_new (ImportTable.state?_of_none hget hmark)
      exact begun_settles hload hs hbegin

theorem loadFile_settles (hload : RestoresAll (loadFile tree n)) (hs : s.imports.Marked) :
    Settles (tree.canonical f.path) s (loadFile tree (n + 1) f s) := by
  rw [loadFile]
  cases hget : s.imports.get? (tree.canonical f.path) with
  | some d => exact finished_settles hget
  | none =>
    dsimp only
    split
    · exact parseText_settles tree _ f hload hs
    · rename_i hmark
      cases hread : tree.read f.path with
      | error cause =>
        exact ⟨.of_fault rfl fun _ hp => (by cases hp), fun _ hd => (by cases hd), fun _ _ =>
          .inr (ImportTable.state?_of_none hget (Bool.eq_false_iff.2 hmark))⟩
      | ok text => exact parseText_settles tree _ f hload hs

theorem loadFile_restores (tree : FileTree) : ∀ n, RestoresAll (loadFile tree n)
  | 0 => fun _ _ _ => .of_fault rfl nofun
  | n + 1 => fun _ _ hs => (loadFile_settles (loadFile_restores tree n) hs).toRestores

end Source

namespace Session

/-! ## Calls -/

variable {s : Session} {tree : FileTree} {f : SourceFile}

theorem load_settles (tree : FileTree) (f : SourceFile) (hs : s.imports.Marked) :
    Settles (tree.canonical f.path) s (s.load tree f) :=
  loadFile_settles (loadFile_restores tree (tree.entries.length + 1)) hs

/-- What loading some files, one after the other, comes to: all of them are finished, or those before
one that has no entry. -/
structure Came (files : List Path) (s : Session) (r : Except CompileError Document × Session) :
    Prop extends Restores s r where
  abandoned : ∀ e, r.1 = .error e → ∃ before p after, files = before ++ p :: after ∧
    (∀ q ∈ before, (r.2.imports.get? q).isSome = true) ∧
    (s.imports.isInProgress p = true ∨ r.2.imports.state? p = none)

theorem came_of_settles {key : Path} {r : Except CompileError Document × Session} (h : Settles key s r) :
    Came [key] s r :=
  ⟨h.toRestores, fun e he => ⟨[], key, [], rfl, nofun, h.abandoned e he⟩⟩

theorem compileFile_of_none {entry : Path} {roots : List Path}
    (h : SourceFile.searchRoots { path := ⟨""⟩, roots } tree "prelude.jssp" = none) :
    s.compileFile tree entry roots = s.load tree { path := entry, roots } := by
  unfold compileFile loadPrelude
  dsimp only
  rw [h]

theorem compileFile_of_some {entry : Path} {roots : List Path}
    (h : SourceFile.searchRoots { path := ⟨""⟩, roots } tree "prelude.jssp" = some f) :
    s.compileFile tree entry roots =
      let r := s.load tree f
      match r.1 with
      | .error e => (.error e, r.2)
      | .ok d => Session.load tree { path := entry, roots }
          { r.2 with symbols := r.2.symbols.setPrelude d.scope } := by
  unfold compileFile loadPrelude
  dsimp only
  rw [h]
  dsimp only
  rcases s.load tree f with ⟨e | d, s₁⟩ <;> rfl

theorem compileFile_came (hs : s.imports.Marked) (entry : Path) (roots : List Path) :
    Came (starts tree entry roots) s (s.compileFile tree entry roots) := by
  unfold starts
  cases hprelude : SourceFile.searchRoots { path := ⟨""⟩, roots } tree "prelude.jssp" with
  | none =>
    rw [compileFile_of_none hprelude]
    exact came_of_settles (load_settles tree { path := entry, roots } hs)
  | some f =>
    rw [compileFile_of_some hprelude]
    have hfirst := load_settles tree f hs
    rcases hload : s.load tree f with ⟨e | d, s₁⟩
    · rw [hload] at hfirst
      exact ⟨.of_error hfirst.stack hfirst.imports (hfirst.severe e rfl) (hfirst.failed e rfl),
        fun _ _ => ⟨[], tree.canonical f.path, [tree.canonical entry], rfl, nofun,
          hfirst.abandoned e rfl⟩⟩
    · rw [hload] at hfirst
      have hnext : Restores s (.ok (), { s₁ with symbols := s₁.symbols.setPrelude d.scope }) :=
        .of_ok () hfirst.stack hfirst.imports
      have hsecond := load_settles tree { path := entry, roots }
        (hnext.imports.marked hs)
      refine ⟨hnext.trans hsecond.toRestores, fun e he => ?_⟩
      refine ⟨[tree.canonical f.path], tree.canonical entry, [], rfl, fun q hq => ?_, ?_⟩
      · rw [List.mem_singleton.1 hq]
        exact Option.isSome_of_eq_some (hsecond.imports.documents (hfirst.finished d rfl))
      · rw [← hnext.imports.inProgress]
        exact hsecond.abandoned e he

end Session

/-- What a session is asked to compile, and the files there are then. -/
inductive Call where
  | text (tree : FileTree) (source : String) (name : Path)
  | file (tree : FileTree) (entry : Path) (roots : List Path)

namespace Call

/-- What a call does to a session. -/
def run (c : Call) (s : Session) : Except CompileError Document × Session :=
  match c with
  | .text tree source name => s.compileText tree source name
  | .file tree entry roots => s.compileFile tree entry roots

/-- The files that a call is about, in the order in which they are loaded. -/
def files : Call → List Path
  | .text tree _ name => [tree.canonical name]
  | .file tree entry roots => Session.starts tree entry roots

theorem run_came (c : Call) {s : Session} (hs : s.imports.Marked) :
    Session.Came c.files s (c.run s) := by
  cases c with
  | text tree source name =>
    have hsettles := parseText_settles tree source { path := name }
      (loadFile_restores tree (Session.importDepth tree)) hs
    exact Session.came_of_settles hsettles
  | file tree entry roots => exact Session.compileFile_came hs entry roots

end Call

namespace Session

/-- The session behind a call. A closed session that is defined as the outcome of a call unfolds to this
without being computed. -/
def afterCall (c : Call) (s : Session) : Session :=
  (c.run s).2

/-- The session behind a call that compiles a text, from the characters of the text. -/
theorem afterCall_text {text : String} {chars : List Char} (h : Text.HasChars text chars)
    (tree : FileTree) (name : Path) (s : Session) :
    afterCall (.text tree text name) s =
      (parseWith tree (parseTokens tree (loadFile tree (importDepth tree))
        (Lexer.tokens (chars.length + 1) none ⟨chars, {}⟩)) { path := name } s).2 :=
  congrArg Prod.snd (compileText_of_hasChars h tree name s)

/-- The session behind a call that compiles a file, from the characters of the files. -/
theorem afterCall_file (tree : FileTree) {chars : List (List Char)}
    (h : List.Forall₂ Text.HasChars tree.texts chars) (entry : Path) (s : Session) :
    afterCall (.file tree entry []) s =
      (loadKnown (tree.texts.zip chars) tree (importDepth tree) { path := entry } s).2 :=
  congrArg Prod.snd (compileFile_of_hasChars tree h entry s)

/-- A session that calls have led to. -/
inductive Reached : Session → Prop where
  | new (platform : Option Platform) : Reached { platform }
  | call {s : Session} (h : Reached s) (c : Call) : Reached (c.run s).2

theorem Reached.afterCall {s : Session} (h : Reached s) (c : Call) : Reached (afterCall c s) :=
  .call h c

/-- Between calls nothing is open. -/
structure Resting (s : Session) : Prop where
  chain : s.imports.chain = []
  inProgress : ∀ p, s.imports.isInProgress p = false
  filled : s.imports.Filled

variable {s : Session}

theorem Resting.marked (h : s.Resting) : s.imports.Marked := by
  intro p hp
  rw [h.chain] at hp
  cases hp

theorem Resting.call (h : s.Resting) (c : Call) : (c.run s).2.Resting := by
  have hrun := c.run_came h.marked
  exact ⟨hrun.imports.chain.trans h.chain,
    fun p => (hrun.imports.inProgress p).trans (h.inProgress p), hrun.imports.filled h.filled⟩

theorem Reached.resting (h : s.Reached) : s.Resting := by
  induction h with
  | new platform => exact ⟨rfl, fun _ => rfl, nofun⟩
  | call _ c ih => exact ih.call c

/-- Whatever calls came before, and whatever a call is given: the scopes that are open, the chain of
imports and the documents listed are as before the call, but for documents that are added at the end,
and no file is left in the middle. If the call fails, then with a file that it was about, where those
before it are finished: the table has no entry for that file, nor for those where the error was found,
and so it starts them from their beginning. -/
theorem run_restores (h : s.Reached) (c : Call) :
    let r := c.run s
    r.2.stack = s.stack ∧ r.2.imports.chain = s.imports.chain ∧
    (∀ p, r.2.imports.isInProgress p = false) ∧
    s.imports.documents <+: r.2.imports.documents ∧
    ∀ e, r.1 = .error e →
      (∃ before p after, c.files = before ++ p :: after ∧
        (∀ q ∈ before, (r.2.imports.get? q).isSome = true) ∧ r.2.imports.state? p = none ∧
        ∃ t, r.2.imports.begin p = .ok (none, t)) ∧
      ∀ p ∈ e.files, r.2.imports.state? p = none ∧ ∃ t, r.2.imports.begin p = .ok (none, t) := by
  intro r
  have hrest := h.resting
  have hrun := c.run_came hrest.marked
  have hnew : ∀ {p}, s.imports.isInProgress p = true ∨ r.2.imports.state? p = none →
      r.2.imports.state? p = none ∧ ∃ t, r.2.imports.begin p = .ok (none, t) := by
    intro p hp
    rw [hrest.inProgress p] at hp
    have hp := hp.resolve_left Bool.false_ne_true
    exact ⟨hp, ImportTable.begin_new hp⟩
  refine ⟨hrun.stack, hrun.imports.chain, (hrest.call c).inProgress, hrun.imports.prefix_documents hrest.filled,
    fun e he => ⟨?_, fun p hp => hnew (hrun.failed e he p hp)⟩⟩
  obtain ⟨before, p, after, hfiles, hbefore, hp⟩ := hrun.abandoned e he
  exact ⟨before, p, after, hfiles, hbefore, hnew hp⟩

/-- A file whose last import breaks off inside a loop. -/
def brokenTree : FileTree :=
  { entries := [(["w"], .directory),
      (["w", "base.jssp"], .file "domain Id int;"),
      (["w", "extra.jssp"], .file "import 'base.jssp'; domain Name string;"),
      (["w", "broken.jssp"], .file "func f() { while (true) { x = ; } }"),
      (["w", "main.jssp"], .file "import 'extra.jssp'; import 'broken.jssp';")]
    current := ["w"] }

/-- The session after a first call, which compiles one of the files. -/
def brokenStart : Session :=
  ((Call.file brokenTree ⟨"base.jssp"⟩ []).run {}).2

def brokenEnd : Except CompileError Document × Session :=
  (Call.file brokenTree ⟨"main.jssp"⟩ []).run brokenStart

/-- The file that was finished before the error is added, and those with the error are unknown. -/
theorem run_restores_broken :
    (brokenStart.Reached ∧ brokenEnd.1.map (fun _ => ()) =
      .error (.fault ⟨"/w/broken.jssp"⟩ ⟨1, 31⟩ (.mismatch "an expression" "';'")) ∧
      brokenEnd.2.imports.documents.map (·.path.text) = ["/w/base.jssp", "/w/extra.jssp"]) ∧
    brokenEnd.2.stack = brokenStart.stack ∧
      brokenStart.imports.documents <+: brokenEnd.2.imports.documents ∧
      brokenEnd.2.imports.state? ⟨"/w/main.jssp"⟩ = none ∧
      brokenEnd.2.imports.state? ⟨"/w/broken.jssp"⟩ = none := by
  have hs : brokenStart.Reached := .afterCall (.new none) _
  have hfiles : (Call.file brokenTree ⟨"main.jssp"⟩ []).files = [⟨"/w/main.jssp"⟩] := by
    decide +kernel
  obtain ⟨herror, hlisted⟩ : brokenEnd.1.map (fun _ => ()) =
        .error (.fault ⟨"/w/broken.jssp"⟩ ⟨1, 31⟩ (.mismatch "an expression" "';'")) ∧
      brokenEnd.2.imports.documents.map (·.path.text) = ["/w/base.jssp", "/w/extra.jssp"] := by
    decide +kernel
  have hrun := run_restores hs (.file brokenTree ⟨"main.jssp"⟩ [])
  rw [← brokenEnd, hfiles] at hrun
  -- From here on nothing is computed again.
  generalize brokenStart = s, brokenEnd = r at *
  obtain ⟨hstack, -, -, hdocuments, hfailed⟩ := hrun
  obtain ⟨e | d, s'⟩ := r
  · cases herror
    obtain ⟨⟨before, p, after, hsplit, -, hnew, -⟩, hblamed⟩ := hfailed _ rfl
    have hp : p = ⟨"/w/main.jssp"⟩ := by
      have hmem : p ∈ before ++ p :: after := by simp
      rw [← hsplit] at hmem
      exact List.mem_singleton.1 hmem
    refine ⟨⟨hs, rfl, hlisted⟩, hstack, hdocuments, hp ▸ hnew, (hblamed _ (.head _)).1⟩
  · cases herror

end Session

end Scaffold
