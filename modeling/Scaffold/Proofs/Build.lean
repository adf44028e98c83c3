import Scaffold.Build
import Scaffold.Proofs.Lowering
import Scaffold.Proofs.Output.Step
import Scaffold.Proofs.Restoring

/-!
# How builds go

A build goes from stage to stage and stops at the first error. Errors come about on two ways: they
are collected while a stage goes on, or they end it. Whatever ends a stage is an error and not a mere
warning, so a build that fails says why, and no build with errors gets to writing.

* `Leads`: what a part of a build comes to from a state, with a rule for one part after the other.
* `stages_leads`: the parts of a build put together.
* `run_clean`: the report and the files of a build.
-/

namespace Scaffold

/-- The error makes a build fail visibly. -/
def BuildError.IsSevere (e : BuildError) : Prop :=
  e.toDiagnostic.isError = true

theorem CompileError.isSevere {e : CompileError} (h : e.severity = .error) :
    (BuildError.compile e).IsSevere := by
  unfold BuildError.IsSevere BuildError.toDiagnostic CompileError.toDiagnostic Diagnostic.isError
  cases e <;> exact beq_iff_eq.2 h

/-! ## What writing reports -/

namespace Output

variable {o : Output} {listed : List String} {file : GeneratedFile} {w w' : Writing} {e : BuildError}

theorem place_severe {target : Path} {contents : String}
    (h : w.place target contents = (.error e, w')) : e.IsSevere := by
  rw [Writing.place_eq] at h
  split at h
  · cases h
    rfl
  · split at h
    · cases h
    · split at h
      · cases h
        rfl
      · cases h

theorem writeFile_severe (h : o.writeFile listed file w = (.error e, w')) : e.IsSevere := by
  cases htakes : o.takes listed w.tree file with
  | false =>
    rw [writeFile_of_not_takes htakes] at h
    cases h
  | true =>
    rw [writeFile_of_takes htakes] at h
    split at h
    · rename_i hplace
      cases h
      exact place_severe hplace
    · cases h

theorem writeFile_warns (h : o.writeFile listed file w = (.ok (), w'))
    (hw : Diagnostics.hasErrors w.report.diagnostics = false) :
    Diagnostics.hasErrors w'.report.diagnostics = false := by
  obtain ⟨-, rfl⟩ | ⟨-, w₁, hplace, rfl⟩ := writeFile_ok h
  · have hwarning : (Diagnostic.warning .fileSkipped (o.reason file)).isError = false := rfl
    show (w.report.diagnostics ++ [_]).any Diagnostic.isError = false
    rw [List.any_append, List.any_cons, hwarning]
    simpa [Diagnostics.hasErrors] using hw
  · have hsame := w.place_snd (o.root.join file.path) file.contents
    rw [hplace] at hsame
    rw [show w₁ = _ from hsame]
    exact hw

theorem writeFiles_reports (o : Output) (listed : List String) (files : List GeneratedFile)
    (w : Writing) (hw : Diagnostics.hasErrors w.report.diagnostics = false) :
    (∀ e, (o.writeFiles listed files w).1 = .error e → e.IsSevere) ∧
      ((o.writeFiles listed files w).1 = .ok () →
        Diagnostics.hasErrors (o.writeFiles listed files w).2.report.diagnostics = false) := by
  induction files generalizing w with
  | nil => exact ⟨fun _ he => (by cases he), fun _ => hw⟩
  | cons file rest ih =>
    rw [writeFiles]
    rcases hfile : o.writeFile listed file w with ⟨e | ⟨⟩, w₁⟩
    · refine ⟨fun e' he => ?_, fun hok => (by cases hok)⟩
      cases he
      exact writeFile_severe hfile
    · exact ih w₁ (writeFile_warns hfile hw)

theorem save_severe {m : Manifest} {t t' : FileTree} {out : Path}
    (h : m.save t out = (.error e, t')) : e.IsSevere := by
  unfold Manifest.save at h
  dsimp only at h
  split at h
  · cases h
    rfl
  · split at h
    · cases h
      rfl
    · cases h

/-- Files are refused with warnings, and what ends writing is an error. -/
theorem write_reports (o : Output) (files : List GeneratedFile) (t : FileTree) :
    (∀ e, (o.write files t).1 = .error e → e.IsSevere) ∧
      ∀ w, (o.write files t).1 = .ok w → Diagnostics.hasErrors w.diagnostics = false := by
  obtain ⟨hsevere, hwarns⟩ := writeFiles_reports o (Manifest.load (o.opened t) o.root).files files
    (o.start t) rfl
  obtain ⟨e, -, h⟩ | ⟨-, ⟨e, he, h⟩ | ⟨hok, ⟨e, he, h⟩ | ⟨-, h⟩⟩⟩ := write_steps o files t
  · rw [h]
    refine ⟨fun e' he => ?_, nofun⟩
    cases he
    rfl
  · rw [h]
    refine ⟨fun e' he' => ?_, nofun⟩
    cases he'
    exact hsevere e he
  · rw [h]
    refine ⟨fun e' he' => ?_, nofun⟩
    cases he'
    exact save_severe (Prod.ext he rfl)
  · rw [h]
    refine ⟨fun e he => ?_, fun w hw => ?_⟩
    · cases he
    · cases hw
      exact hwarns hok

end Output

/-! ## Parts of a build -/

/-- What is known of a build so far, and the files. -/
abbrev BuildState := BuildReport × FileTree

theorem BuildM.run_bind {α β : Type} (m : BuildM α) (f : α → BuildM β) (x : BuildState) :
    (m >>= f).run.run x = match m.run.run x with
      | (.ok a, y) => (f a).run.run y
      | (.error e, y) => (.error e, y) := by
  rw [ExceptT.run_bind]
  simp only [bind, StateT.bind, StateT.run]
  obtain ⟨result, y⟩ := m.run x
  cases result <;> rfl

/-- What a part of a build comes to from a state: it ends well, or with an error. -/
def Leads {α : Type} (m : BuildM α) (x : BuildState) (good : α → BuildState → Prop)
    (bad : BuildError → BuildState → Prop) : Prop :=
  match m.run.run x with
  | (.ok a, y) => good a y
  | (.error e, y) => bad e y

namespace Leads

variable {α β : Type} {m : BuildM α} {f : α → BuildM β} {x y : BuildState}
  {good : α → BuildState → Prop} {good' : β → BuildState → Prop}
  {bad : BuildError → BuildState → Prop}

theorem of_ok {a : α} (h : m.run.run x = (.ok a, y)) (hy : good a y) : Leads m x good bad := by
  unfold Leads
  rw [h]
  exact hy

theorem of_error {e : BuildError} (h : m.run.run x = (.error e, y)) (hy : bad e y) :
    Leads m x good bad := by
  unfold Leads
  rw [h]
  exact hy

/-- A part of a build comes to a state from which the rest comes to its end. -/
theorem bind (h : Leads m x (fun a y => Leads (f a) y good' bad) bad) :
    Leads (m >>= f) x good' bad := by
  unfold Leads at h ⊢
  rw [BuildM.run_bind]
  split at h
  · exact h
  · exact h

end Leads

namespace BuildM

variable {α : Type} {r : BuildReport} {tree : FileTree} {good : Unit → BuildState → Prop}
  {bad : BuildError → BuildState → Prop}

theorem get_leads {good : BuildState → BuildState → Prop} {x : BuildState} (h : good x x) :
    Leads (get : BuildM BuildState) x good bad :=
  .of_ok rfl h

theorem modifyReport_leads {f : BuildReport → BuildReport} (h : good () (f r, tree)) :
    Leads (modifyReport f) (r, tree) good bad :=
  .of_ok rfl h

theorem advance_leads {cancelled : BuildStage → Bool} {stage : BuildStage}
    (hstop : cancelled stage = true → bad .cancelled (r, tree))
    (hgo : cancelled stage = false → good () (r.enter stage, tree)) :
    Leads (advance cancelled stage) (r, tree) good bad := by
  unfold advance
  cases h : cancelled stage with
  | true => exact .of_error rfl (hstop h)
  | false => exact .of_ok rfl (hgo h)

theorem stopOnErrors_leads
    (hstop : ∀ n, Diagnostics.hasErrors r.diagnostics = true → bad (.failed n) (r, tree))
    (hgo : Diagnostics.hasErrors r.diagnostics = false → good () (r, tree)) :
    Leads stopOnErrors (r, tree) good bad := by
  unfold stopOnErrors
  refine .bind (get_leads ?_)
  dsimp only
  split
  · rename_i h
    exact .of_error rfl (hstop _ h)
  · rename_i h
    exact .of_ok rfl (hgo (Bool.eq_false_iff.2 h))

theorem settle_leads {result : Except CompileError α × Session}
    {good : α × Session → BuildState → Prop}
    (hstop : ∀ e, result.1 = .error e →
      bad (.compile e) ({ r with diagnostics := result.2.diagnostics }, tree))
    (hgo : ∀ a, result.1 = .ok a →
      good (a, result.2) ({ r with diagnostics := result.2.diagnostics }, tree)) :
    Leads (settle result) (r, tree) good bad := by
  unfold settle
  obtain ⟨e | a, s⟩ := result
  · exact .of_error rfl (hstop e rfl)
  · exact .of_ok rfl (hgo a rfl)

/-- The service is asked, and there is none or it fails. -/
def Unanswered (r : BuildRequest) (service : Option GenerationService) (m : CodeModel) : Prop :=
  r.engine = .service ∧ ∀ s, service = some s → (m.request r.platform r.project s).isOk = false

theorem makeFiles_leads {request : BuildRequest} {service : Option GenerationService} {m : CodeModel}
    {good : List GeneratedFile → BuildState → Prop}
    (hstop : ∀ e asked, e.IsSevere → Unanswered request service m →
      bad e ({ r with asked }, tree))
    (hgo : ∀ files asked, ¬ Unanswered request service m → good files ({ r with asked }, tree)) :
    Leads (makeFiles request service m) (r, tree) good bad := by
  unfold makeFiles
  split
  · rename_i hengine
    exact .of_ok rfl (hgo _ r.asked fun h => by cases hengine.symm.trans h.1)
  · rename_i hengine
    exact .of_error rfl (hstop _ r.asked rfl ⟨hengine, nofun⟩)
  · rename_i s hengine
    dsimp only
    refine .bind (modifyReport_leads ?_)
    split
    · rename_i files hrequest
      refine .of_ok rfl (hgo _ _ fun h => ?_)
      have hfailed := h.2 s rfl
      rw [hrequest] at hfailed
      cases hfailed
    · rename_i e hrequest
      refine .of_error rfl (hstop _ _ rfl ⟨hengine, fun s' hs => ?_⟩)
      cases hs
      rw [hrequest]
      rfl

theorem writeOut_leads {o : Output} {files : List GeneratedFile}
    (hstop : ∀ e tree', e.IsSevere → bad e (r, tree'))
    (hgo : ∀ (w : WriteReport) tree', Diagnostics.hasErrors w.diagnostics = false →
      good () ({ r with
        diagnostics := r.diagnostics ++ w.diagnostics
        generated := w.written
        skipped := w.skipped }, tree')) :
    Leads (writeOut o files) (r, tree) good bad := by
  obtain ⟨hsevere, hwarns⟩ := o.write_reports files tree
  unfold writeOut
  refine .bind (get_leads ?_)
  dsimp only
  split
  · rename_i e tree' hwrite
    rw [hwrite] at hsevere
    exact .of_error rfl (hstop e tree' (hsevere e rfl))
  · rename_i w tree' hwrite
    rw [hwrite] at hwarns
    exact .of_ok rfl (hgo w tree' (hwarns w rfl))

end BuildM

/-! ## Whole builds -/

namespace BuildRequest

/-- What compiling the entry of a build comes to. -/
def compiled (r : BuildRequest) (tree : FileTree) : Except CompileError Source.Document × Session :=
  Session.compileFile tree r.entry r.builtinRoots { platform := some r.platform }

/-- Why a build does not get to writing: an error ends parsing, or is there when names are resolved; one
ends lowering, or is there after it; the files cannot be made; or the build is cancelled. -/
inductive Stops (r : BuildRequest) (service : Option GenerationService)
    (cancelled : BuildStage → Bool) (tree : FileTree) : Prop where
  | parsing (h : (r.compiled tree).1.isOk = false)
  | resolving (h : Diagnostics.hasErrors (r.compiled tree).2.diagnostics = true)
  | lowering (h : (r.compiled tree).2.lower.1.isOk = false ∨
      Diagnostics.hasErrors (r.compiled tree).2.lower.2.diagnostics = true)
  | generating (m : CodeModel) (hm : (r.compiled tree).2.lower.1 = .ok m)
      (h : BuildM.Unanswered r service m)
  | cancelled (stage : BuildStage)
      (hstage : stage ∈ [.parsing, .resolving, .lowering, .generating, .writing])
      (h : cancelled stage = true)

theorem compiled_severe {r : BuildRequest} {tree : FileTree} {e : CompileError}
    (h : (r.compiled tree).1 = .error e) : e.severity = .error :=
  (Session.compileFile_came (s := { platform := some r.platform }) nofun r.entry
    r.builtinRoots).severe e h

/-- A build that has entered these stages and has done nothing to the files. -/
structure Untouched (tree : FileTree) (entered : List BuildStage) (x : BuildState) : Prop where
  stage : (.idle :: entered).getLast? = some x.1.stage
  entered : x.1.entered = entered
  generated : x.1.generated = []
  skipped : x.1.skipped = []
  tree : x.2 = tree

/-- How a build fails: before writing, with the files as they were, or when nothing stops it any more
and the file system refuses. -/
def FailsWith (r : BuildRequest) (service : Option GenerationService) (cancelled : BuildStage → Bool)
    (tree : FileTree) (e : BuildError) (x : BuildState) : Prop :=
  e.IsSevere ∧
    ((∃ entered, entered <+: [.parsing, .resolving, .lowering, .generating] ∧
        Untouched tree entered x ∧ r.Stops service cancelled tree) ∨
      ∃ tree', Untouched tree' [.parsing, .resolving, .lowering, .generating, .writing] x ∧
        ¬ r.Stops service cancelled tree)

/-- How a build ends well. -/
structure Succeeds (r : BuildRequest) (service : Option GenerationService)
    (cancelled : BuildStage → Bool) (tree : FileTree) (x : BuildState) : Prop where
  entered : x.1.entered = [.parsing, .resolving, .lowering, .generating, .writing, .done]
  stage : x.1.stage = .done
  noErrors : Diagnostics.hasErrors x.1.diagnostics = false
  goes : ¬ r.Stops service cancelled tree

theorem stages_leads (r : BuildRequest) (service : Option GenerationService)
    (cancelled : BuildStage → Bool) (tree : FileTree) :
    Leads (BuildM.stages r service cancelled) ({}, tree)
      (fun _ => r.Succeeds service cancelled tree) (r.FailsWith service cancelled tree) := by
  have hstop : ∀ {e x} entered, e.IsSevere → Untouched tree entered x →
      entered <+: [.parsing, .resolving, .lowering, .generating] → r.Stops service cancelled tree →
      r.FailsWith service cancelled tree e x :=
    fun entered he hx hentered h => ⟨he, .inl ⟨entered, hentered, hx, h⟩⟩
  unfold BuildM.stages
  refine .bind (BuildM.advance_leads (fun h => ?_) fun hparsing => ?_)
  · exact hstop [] rfl ⟨rfl, rfl, rfl, rfl, rfl⟩ (by decide) (.cancelled .parsing (by decide) h)
  refine .bind (BuildM.get_leads (.bind (BuildM.settle_leads (fun e h => ?_) fun d hcompiled => ?_)))
  · exact hstop [.parsing] (CompileError.isSevere (compiled_severe h)) ⟨rfl, rfl, rfl, rfl, rfl⟩
      (by decide) (.parsing (by rw [compiled, h]; rfl))
  refine .bind (BuildM.advance_leads (fun h => ?_) fun hresolving => ?_)
  · exact hstop [.parsing] rfl ⟨rfl, rfl, rfl, rfl, rfl⟩ (by decide)
      (.cancelled .resolving (by decide) h)
  refine .bind (BuildM.stopOnErrors_leads (fun n h => ?_) fun hresolved => ?_)
  · exact hstop [.parsing, .resolving] rfl ⟨rfl, rfl, rfl, rfl, rfl⟩ (by decide) (.resolving h)
  refine .bind (BuildM.advance_leads (fun h => ?_) fun hlowering => ?_)
  · exact hstop [.parsing, .resolving] rfl ⟨rfl, rfl, rfl, rfl, rfl⟩ (by decide)
      (.cancelled .lowering (by decide) h)
  refine .bind (BuildM.settle_leads (fun e h => ?_) fun m hm => ?_)
  · exact hstop [.parsing, .resolving, .lowering] (CompileError.isSevere (Session.lower_severe h))
      ⟨rfl, rfl, rfl, rfl, rfl⟩ (by decide) (.lowering (.inl (by rw [compiled, h]; rfl)))
  refine .bind (BuildM.stopOnErrors_leads (fun n h => ?_) fun hlowered => ?_)
  · exact hstop [.parsing, .resolving, .lowering] rfl ⟨rfl, rfl, rfl, rfl, rfl⟩ (by decide)
      (.lowering (.inr h))
  refine .bind (BuildM.advance_leads (fun h => ?_) fun hgenerating => ?_)
  · exact hstop [.parsing, .resolving, .lowering] rfl ⟨rfl, rfl, rfl, rfl, rfl⟩ (by decide)
      (.cancelled .generating (by decide) h)
  refine .bind (BuildM.makeFiles_leads (fun e asked he h => ?_) fun files asked hmade => ?_)
  · exact hstop [.parsing, .resolving, .lowering, .generating] he ⟨rfl, rfl, rfl, rfl, rfl⟩
      (by decide) (.generating m hm h)
  refine .bind (BuildM.advance_leads (fun h => ?_) fun hwriting => ?_)
  · exact hstop [.parsing, .resolving, .lowering, .generating] rfl ⟨rfl, rfl, rfl, rfl, rfl⟩
      (by decide) (.cancelled .writing (by decide) h)
  have hgoes : ¬ r.Stops service cancelled tree := by
    have hcompiled : (r.compiled tree).1 = .ok d := hcompiled
    have hm : (r.compiled tree).2.lower.1 = .ok m := hm
    have hresolved : Diagnostics.hasErrors (r.compiled tree).2.diagnostics = false := hresolved
    have hlowered : Diagnostics.hasErrors (r.compiled tree).2.lower.2.diagnostics = false := hlowered
    rintro (h | h | h | ⟨m', hm', h⟩ | ⟨stage, hstage, h⟩)
    · rw [hcompiled] at h
      cases h
    · rw [hresolved] at h
      cases h
    · rw [hm, hlowered] at h
      obtain h | h := h <;> cases h
    · rw [hm] at hm'
      cases hm'
      exact hmade h
    · simp only [List.mem_cons, List.not_mem_nil, or_false] at hstage
      obtain rfl | rfl | rfl | rfl | rfl := hstage
      · cases h.symm.trans hparsing
      · cases h.symm.trans hresolving
      · cases h.symm.trans hlowering
      · cases h.symm.trans hgenerating
      · cases h.symm.trans hwriting
  refine .bind (BuildM.writeOut_leads (fun e tree' he => ?_) fun w tree' hw => ?_)
  · exact ⟨he, .inr ⟨tree', ⟨rfl, rfl, rfl, rfl, rfl⟩, hgoes⟩⟩
  · refine BuildM.modifyReport_leads ⟨rfl, rfl, ?_, hgoes⟩
    show (_ ++ _ : Diagnostics).any Diagnostic.isError = false
    rw [List.any_append]
    exact Bool.or_eq_false_iff.2 ⟨hlowered, hw⟩

end BuildRequest

/-- From every stage up to writing a build may fail. -/
theorem BuildStage.isChain_failed {stages : List BuildStage}
    (h : stages <+: [.idle, .parsing, .resolving, .lowering, .generating, .writing]) :
    (stages ++ [BuildStage.failed]).IsChain fun s t => s.canEnter t = true := by
  have hforward : [BuildStage.idle, .parsing, .resolving, .lowering, .generating, .writing].IsChain
      fun s t => s.canEnter t = true := by decide
  have hfail : ∀ s ∈ [BuildStage.idle, .parsing, .resolving, .lowering, .generating, .writing],
      s.canEnter .failed = true := by decide
  have hstages := List.IsChain.prefix hforward h
  refine List.isChain_append.2 ⟨hstages, List.isChain_singleton _, fun s hs t ht => ?_⟩
  cases ht
  exact hfail s (h.subset (List.mem_of_getLast? hs))

/-- A build ends done or failed, and done exactly if its report has no error. Whatever stops it before
writing, be it an error or that it is cancelled, leaves the files as they were and nothing reported as
generated or skipped; if nothing stops it, it gets to writing. It enters the stages in their order, up
to one of them, and may fail then. -/
theorem BuildRequest.run_clean (r : BuildRequest) (service : Option GenerationService)
    (cancelled : BuildStage → Bool) (tree : FileTree) :
    let out := r.run service cancelled tree
    let passed := BuildStage.idle :: out.1.entered
    (out.1.stage = .done ∨ out.1.stage = .failed) ∧
    (out.1.stage = .done ↔ Diagnostics.hasErrors out.1.diagnostics = false) ∧
    (r.Stops service cancelled tree →
      out.2 = tree ∧ out.1.generated = [] ∧ out.1.skipped = []) ∧
    (.writing ∈ out.1.entered ↔ ¬ r.Stops service cancelled tree) ∧
    passed.getLast? = some out.1.stage ∧
    (∃ stages, stages <+: [.idle, .parsing, .resolving, .lowering, .generating, .writing, .done] ∧
      (passed = stages ∨ passed = stages ++ [.failed])) ∧
    passed.IsChain fun s t => s.canEnter t = true := by
  intro out passed
  have hleads := r.stages_leads service cancelled tree
  have hpassed : passed = .idle :: out.1.entered := rfl
  unfold Leads at hleads
  rw [hpassed]
  rcases hrun : (BuildM.stages r service cancelled).run.run ({}, tree) with ⟨e | ⟨⟩, report, tree'⟩
  · have hout : out = (report.fail e, tree') := by
      show r.run service cancelled tree = _
      unfold BuildRequest.run
      rw [hrun]
    rw [hrun] at hleads
    clear_value out
    subst hout
    obtain ⟨hsevere, hends⟩ := hleads
    have herrors : Diagnostics.hasErrors (report.diagnostics ++ [e.toDiagnostic]) = true := by
      rw [Diagnostics.hasErrors, List.any_append, Bool.or_eq_true]
      exact .inr (List.any_eq_true.2 ⟨_, List.mem_singleton_self _, hsevere⟩)
    have hentered : .idle :: report.entered <+:
        [.idle, .parsing, .resolving, .lowering, .generating, .writing] := by
      obtain ⟨entered, hentered, hx, -⟩ | ⟨_, hx, -⟩ := hends
      · rw [show report.entered = entered from hx.entered]
        exact (List.prefix_cons_inj _).2 (hentered.trans (by decide))
      · have hall : report.entered = _ := hx.entered
        exact hall ▸ List.prefix_refl _
    refine ⟨.inr rfl, ?_, ?_, ?_, ?_, ⟨_, hentered.trans (by decide), .inr rfl⟩,
      BuildStage.isChain_failed hentered⟩
    · refine iff_of_false (fun h => by cases h) fun h => ?_
      cases herrors.symm.trans h
    · intro hstops
      obtain ⟨entered, -, hx, -⟩ | ⟨_, -, hgoes⟩ := hends
      · exact ⟨hx.tree, hx.generated, hx.skipped⟩
      · exact absurd hstops hgoes
    · show .writing ∈ report.entered ++ [.failed] ↔ _
      obtain ⟨entered, hentered, hx, hstops⟩ | ⟨_, hx, hgoes⟩ := hends
      · refine iff_of_false (fun h => ?_) (not_not_intro hstops)
        rw [show report.entered = entered from hx.entered] at h
        obtain h | h := List.mem_append.1 h
        · exact absurd (hentered.subset h) (by decide)
        · exact absurd h (by decide)
      · refine iff_of_true ?_ hgoes
        rw [show report.entered = _ from hx.entered]
        decide
    · show (BuildStage.idle :: report.entered ++ [BuildStage.failed]).getLast? = some .failed
      exact List.getLast?_concat
  · have hout : out = (report, tree') := by
      show r.run service cancelled tree = _
      unfold BuildRequest.run
      rw [hrun]
    rw [hrun] at hleads
    clear_value out
    subst hout
    obtain ⟨hentered, hstage, hnone, hgoes⟩ := hleads
    dsimp only at hentered hstage hnone ⊢
    rw [hentered, hstage, hnone]
    refine ⟨.inl rfl, iff_of_true rfl rfl, fun h => absurd h hgoes, iff_of_true (by decide) hgoes,
      rfl, ⟨_, List.prefix_refl _, .inl rfl⟩, by decide⟩

end Scaffold
