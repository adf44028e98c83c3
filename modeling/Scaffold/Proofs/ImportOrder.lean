import Mathlib.Data.List.Chain
import Mathlib.Logic.Relation
import Scaffold.Proofs.FileTree.Canonical
import Scaffold.Proofs.Parser.Apart.File

/-!
# The order in which files are finished

One file imports another by a statement of its text, whatever a session makes of it (`Imports`). While
files are loaded, the table of documents and the list of files that were started obey two invariants:

* `Ordered`: finished documents stand after all they import. It holds after an error, too.
* `Loaded`: while all goes well, the files that were started are finished or on the chain, and each
  file on the chain imports the next one.

Importing a file that is on the chain closes a cycle of import statements (`closesCycle_cycle`).
-/

namespace Scaffold

open Source

/-- What the import statements of a text name, in order. A text that is not made of tokens has
none. -/
def importsOf (text : String) : List String :=
  match tokenize text with
  | .ok tokens => importStatements false tokens
  | .error _ => []

/-- The canonical path of the file that an import means when it is written in the file `p`. -/
def target? (tree : FileTree) (roots : List Path) (p : Path) (written : String) : Option Path :=
  (({ path := p, roots } : SourceFile).locate tree written).map fun f => tree.canonical f.path

/-- The file `p` has an import statement that means the file `q`. -/
def Imports (tree : FileTree) (roots : List Path) (p q : Path) : Prop :=
  ∃ text written, tree.FileAt p text ∧ written ∈ importsOf text ∧
    target? tree roots p written = some q

/-- A cycle of import statements, from a file to itself with no other file twice. -/
structure ClosesCycle (tree : FileTree) (roots : List Path) (chain : List Path) : Prop where
  length : 2 ≤ chain.length
  ends : chain.head? = chain.getLast?
  distinct : chain.dropLast.Pairwise fun p q => p.same q = false
  imports : chain.IsChain (Imports tree roots)

section

variable {tree : FileTree} {roots : List Path} {p q : Path}

/-! ## Where imports lead -/

namespace SourceFile

variable {f g : SourceFile} {written : String}

theorem searchRoots_some (h : f.searchRoots tree written = some g) :
    g.roots = f.roots ∧ tree.isFile g.path = true := by
  obtain ⟨p, hp, rfl⟩ := Option.map_eq_some_iff.1 h
  exact ⟨rfl, List.find?_some hp⟩

theorem locate_some (h : f.locate tree written = some g) :
    g.roots = f.roots ∧ tree.isFile g.path = true := by
  unfold locate at h
  split at h
  · exact searchRoots_some h
  · dsimp only at h
    split at h
    · rename_i hfile
      cases h
      exact ⟨rfl, hfile⟩
    · exact searchRoots_some h

/-- Whether a file is of the project or of a library has no effect on where its imports lead. -/
theorem target?_of_locate (h : f.locate tree written = some g) :
    target? tree f.roots f.path written = some (tree.canonical g.path) := by
  unfold target?
  unfold locate at h ⊢
  split at h
  · obtain ⟨p, hp, rfl⟩ := Option.map_eq_some_iff.1 h
    simp only [searchRoots, hp]
    rfl
  · dsimp only at h ⊢
    split at h
    · rename_i hfile
      cases h
      simp [hfile]
    · rename_i hfile
      obtain ⟨p, hp, rfl⟩ := Option.map_eq_some_iff.1 h
      simp [hfile, searchRoots, hp]

end SourceFile

theorem FileTree.fileAt_of_isFile (hcurrent : ∀ x ∈ tree.current, Path.IsName x)
    (h : tree.isFile p = true) : ∃ text, tree.FileAt (tree.canonical p) text := by
  obtain ⟨r, text, hr, hfile⟩ := FileTree.isFile_iff.1 h
  exact ⟨text, FileTree.fileAt_of_read hcurrent (FileTree.read_eq_ok_iff.2 ⟨r, hr, hfile⟩)⟩

theorem Imports.fileAt (hcurrent : ∀ x ∈ tree.current, Path.IsName x)
    (h : Imports tree roots p q) : ∃ text, tree.FileAt q text := by
  obtain ⟨text, written, -, -, htarget⟩ := h
  obtain ⟨f, hf, rfl⟩ := Option.map_eq_some_iff.1 htarget
  exact FileTree.fileAt_of_isFile hcurrent (SourceFile.locate_some hf).2

/-! ## The invariants -/

/-- The paths are canonical paths of files, none twice. -/
structure DistinctFiles (tree : FileTree) (ps : List Path) : Prop where
  nodup : ps.Nodup
  files : ∀ p ∈ ps, ∃ text, tree.FileAt p text

theorem DistinctFiles.pairwise {ps : List Path} (h : DistinctFiles tree ps) :
    ps.Pairwise fun p q => p.same q = false := by
  refine h.nodup.imp_of_mem fun {p q} hp hq hne => ?_
  rw [Bool.eq_false_iff]
  intro hsame
  obtain ⟨_, hfile⟩ := h.files p hp
  obtain ⟨_, hfile'⟩ := h.files q hq
  exact hne (hfile.eq_of_same hfile' hsame)

theorem DistinctFiles.sublist {ps qs : List Path} (h : DistinctFiles tree ps) (hsub : qs.Sublist ps) :
    DistinctFiles tree qs :=
  ⟨h.nodup.sublist hsub, fun p hp => h.files p (hsub.subset hp)⟩

theorem DistinctFiles.snoc {ps : List Path} (h : DistinctFiles tree ps) (hp : p ∉ ps)
    (hfile : ∃ text, tree.FileAt p text) : DistinctFiles tree (ps ++ [p]) where
  nodup := by
    rw [List.nodup_append]
    exact ⟨h.nodup, List.nodup_singleton p, fun a ha b hb hab => hp (by simp_all)⟩
  files q hq := by
    obtain hq | hq := List.mem_append.1 hq
    · exact h.files q hq
    · rw [List.mem_singleton.1 hq]
      exact hfile

/-- Every finished document stands after all that its file imports. `files` are the files that were
started. -/
structure Ordered (tree : FileTree) (roots : List Path) (t : ImportTable) (files : List Path) :
    Prop where
  started : DistinctFiles tree files
  finished : DistinctFiles tree t.completed
  document : ∀ p ∈ t.completed, ∃ d, t.get? p = some d ∧ d.path = p ∧
    ∀ q, q ∈ d.imports ↔ Imports tree roots p q
  earlier : ∀ before p after, t.completed = before ++ p :: after →
    ∀ q, Imports tree roots p q → q ∈ before

/-- All went well so far: each file that was started is finished or on the chain of imports. -/
structure Loaded (tree : FileTree) (roots : List Path) (t : ImportTable) (files : List Path) :
    Prop extends Ordered tree roots t files where
  chain : DistinctFiles tree t.chain
  linked : t.chain.IsChain (Imports tree roots)
  marked : ∀ p ∈ t.chain, t.isInProgress p = true
  inProgress : ∀ p, t.isInProgress p = true → ∃ q ∈ t.chain, q.same p = true
  documents : ∀ p d, t.get? p = some d → d.path ∈ t.completed ∧ d.path.same p = true
  known : ∀ p ∈ files, p ∈ t.chain ∨ p ∈ t.completed

variable {t t' : ImportTable} {files : List Path} {d : Document}

theorem Ordered.fresh : Ordered tree roots {} [] where
  started := ⟨.nil, nofun⟩
  finished := ⟨.nil, nofun⟩
  document := nofun
  earlier before p after h := by simp at h

theorem Loaded.fresh : Loaded tree roots {} [] where
  toOrdered := .fresh
  chain := ⟨.nil, nofun⟩
  linked := .nil
  marked := nofun
  inProgress _ h := by cases h
  documents _ _ h := by cases h
  known := nofun

/-- The documents that are listed are those of the finished files. -/
theorem Ordered.paths (h : Ordered tree roots t files) :
    t.documents.map (·.path) = t.completed := by
  have hpaths : ∀ ps : List Path, (∀ p ∈ ps, ∃ d, t.get? p = some d ∧ d.path = p) →
      (ps.filterMap t.get?).map (·.path) = ps := by
    intro ps hps
    induction ps with
    | nil => rfl
    | cons p rest ih =>
      obtain ⟨d, hd, hpath⟩ := hps p List.mem_cons_self
      rw [List.filterMap_cons, hd]
      simp [hpath, ih fun q hq => hps q (List.mem_cons_of_mem _ hq)]
  refine hpaths _ fun p hp => ?_
  obtain ⟨d, hd, hpath, -⟩ := h.document p hp
  exact ⟨d, hd, hpath⟩

/-- A document that is listed stands after the documents of all that its file imports. -/
theorem Ordered.documents_earlier (h : Ordered tree roots t files) {before after : List Document}
    (hsplit : t.documents = before ++ d :: after) :
    (∀ q, q ∈ d.imports ↔ Imports tree roots d.path q) ∧ ∀ q ∈ d.imports, ∃ d' ∈ before, d'.path = q := by
  have himports : ∀ q, q ∈ d.imports ↔ Imports tree roots d.path q := by
    have hmem : d ∈ t.documents := by simp [hsplit]
    obtain ⟨p, hp, hget⟩ := List.mem_filterMap.1 hmem
    obtain ⟨d', hget', hpath, himports⟩ := h.document p hp
    rw [hget] at hget'
    cases hget'
    rw [hpath]
    exact himports
  refine ⟨himports, fun q hq => ?_⟩
  have hcompleted : t.completed = before.map (·.path) ++ d.path :: after.map (·.path) := by
    rw [← h.paths, hsplit, List.map_append, List.map_cons]
  exact List.mem_map.1 (h.earlier _ _ _ hcompleted q ((himports q).1 hq))

/-! ## No cycle among finished files -/

theorem Ordered.mem_of_imports (h : Ordered tree roots t files) (hp : p ∈ t.completed)
    (hq : Imports tree roots p q) : q ∈ t.completed := by
  obtain ⟨before, after, hsplit⟩ := List.append_of_mem hp
  rw [hsplit]
  exact List.mem_append_left _ (h.earlier before p after hsplit q hq)

theorem Ordered.mem_of_reach (h : Ordered tree roots t files) (hp : p ∈ t.completed)
    (hq : Relation.ReflTransGen (Imports tree roots) p q) : q ∈ t.completed := by
  induction hq with
  | refl => exact hp
  | tail _ hstep ih => exact h.mem_of_imports ih hstep

/-- All that a finished file leads to stands before it. -/
theorem Ordered.earlier_of_reach (h : Ordered tree roots t files) {before after : List Path}
    (hsplit : t.completed = before ++ p :: after)
    (hq : Relation.TransGen (Imports tree roots) p q) : q ∈ before := by
  induction hq with
  | single hstep => exact h.earlier before p after hsplit _ hstep
  | @tail b c _ hstep ih =>
    obtain ⟨first, second, hbefore⟩ := List.append_of_mem ih
    have hsplit' : t.completed = first ++ b :: (second ++ p :: after) := by simp [hsplit, hbefore]
    rw [hbefore]
    exact List.mem_append_left _ (h.earlier first b _ hsplit' c hstep)

theorem Ordered.no_cycle (h : Ordered tree roots t files) (hp : p ∈ t.completed) :
    ¬ Relation.TransGen (Imports tree roots) p p := by
  intro hcycle
  obtain ⟨before, after, hsplit⟩ := List.append_of_mem hp
  have hmem := h.earlier_of_reach hsplit hcycle
  have hnodup := h.finished.nodup
  rw [hsplit, List.nodup_append] at hnodup
  exact hnodup.2.2 p hmem p List.mem_cons_self rfl

/-! ## Starting, finishing and giving up on a file -/

namespace ImportTable

theorem state?_of_none (h : t.get? p = none) (h' : t.isInProgress p = false) :
    t.state? p = none := by
  cases hstate : t.state? p with
  | none => rfl
  | some state =>
    cases state with
    | inProgress => rw [isInProgress_iff.2 hstate] at h'; cases h'
    | parsed d => rw [get?_eq_some_iff.2 hstate] at h; cases h

theorem begin_new (h : t.state? p = none) : ∃ t', t.begin p = .ok (none, t') := by
  unfold begin
  rw [h]
  exact ⟨_, rfl⟩

theorem begin_inProgress (h : t.isInProgress p = true) :
    t.begin p = .error (.importCycle (t.cycle p)) := by
  unfold begin
  rw [isInProgress_iff.1 h]

theorem chain_begin (h : t.begin p = .ok (none, t')) : t'.chain = t.chain ++ [p] := by
  unfold begin at h
  split at h
  · cases h
  · cases h
  · cases h
    rfl

theorem cutChain_concat (chain : List Path) (p : Path) : cutChain p (chain ++ [p]) = chain := by
  have hsame : p.same p = true := Path.same_iff.2 rfl
  simp [cutChain, hsame]

/-- Giving up on a file that is being parsed leaves the documents as they are. -/
theorem get?_abandon (hq : t.get? q = some d) : (t.abandon p).get? q = some d := by
  rw [get?_eq_some_iff] at hq ⊢
  unfold abandon
  split
  · rename_i hp
    have hne : ∀ x : Path × ImportState, x.1.same q = true → x.1.same p = false := by
      intro x hx
      rw [Bool.eq_false_iff]
      intro hx'
      rw [isInProgress_iff, ← state?_congr hx', state?_congr hx, hq] at hp
      cases hp
    have hfind : (t.entries.filter fun x => !x.1.same p).find? (·.1.same q)
        = t.entries.find? (·.1.same q) := by
      rw [List.find?_filter]
      congr 1
      funext x
      by_cases hx : x.1.same q = true
      · simp [hx, hne x hx]
      · simp [hx]
    rw [state?, hfind]
    exact hq
  · exact hq

end ImportTable

/-- The invariant is about the finished documents only. -/
theorem Ordered.congr (h : Ordered tree roots t files) (hcompleted : t'.completed = t.completed)
    (hget : ∀ p d, t.get? p = some d → t'.get? p = some d) : Ordered tree roots t' files where
  started := h.started
  finished := hcompleted ▸ h.finished
  document p hp := by
    obtain ⟨d, hd, hrest⟩ := h.document p (hcompleted ▸ hp)
    exact ⟨d, hget p d hd, hrest⟩
  earlier before p after heq := h.earlier before p after (hcompleted ▸ heq)

theorem Ordered.begin (h : Ordered tree roots t files) (hbegin : t.begin p = .ok (none, t')) :
    Ordered tree roots t' files :=
  h.congr (ImportTable.begin_none hbegin).2.1 fun q d hq => by
    rwa [ImportTable.get?_begin hbegin]

theorem Ordered.abandon (h : Ordered tree roots t files) (p : Path) :
    Ordered tree roots (t.abandon p) files :=
  h.congr rfl fun _ _ => ImportTable.get?_abandon

namespace Loaded

/-- A file that is started is new, and stands at the end of the chain. -/
theorem begin (h : Loaded tree roots t files) {text : String} (hfile : tree.FileAt p text)
    (hbegin : t.begin p = .ok (none, t')) (hlast : ∀ q ∈ t.chain.getLast?, Imports tree roots q p) :
    Loaded tree roots t' (files ++ [p]) := by
  obtain ⟨hnew, hcompleted, hstate⟩ := ImportTable.begin_none hbegin
  have hchain := ImportTable.chain_begin hbegin
  have hget := ImportTable.get?_begin hbegin
  have hnotChain : p ∉ t.chain := by
    intro hp
    have := ImportTable.isInProgress_iff.1 (h.marked p hp)
    rw [hnew] at this
    cases this
  have hnotDone : p ∉ t.completed := by
    intro hp
    obtain ⟨d, hd, -⟩ := h.document p hp
    rw [ImportTable.get?_eq_some_iff, hnew] at hd
    cases hd
  have hnotStarted : p ∉ files := fun hp => (h.known p hp).elim hnotChain hnotDone
  have hordered := h.toOrdered.begin hbegin
  refine ⟨⟨h.started.snoc hnotStarted ⟨text, hfile⟩, hordered.finished, hordered.document,
    hordered.earlier⟩, ?_, ?_, ?_, ?_, ?_, ?_⟩
  · rw [hchain]
    exact h.chain.snoc hnotChain ⟨text, hfile⟩
  · rw [hchain]
    refine h.linked.append (.singleton p) fun q hq r hr => ?_
    cases hr
    exact hlast q hq
  · intro q hq
    rw [hchain, List.mem_append, List.mem_singleton] at hq
    rw [ImportTable.isInProgress_iff, hstate]
    obtain hq | rfl := hq
    · split
      · rfl
      · exact ImportTable.isInProgress_iff.1 (h.marked q hq)
    · rw [if_pos (Path.same_iff.2 rfl)]
  · intro q hq
    rw [ImportTable.isInProgress_iff, hstate] at hq
    rw [hchain]
    split at hq
    · rename_i hsame
      exact ⟨p, by simp, hsame⟩
    · obtain ⟨r, hr, hsame⟩ := h.inProgress q (ImportTable.isInProgress_iff.2 hq)
      exact ⟨r, List.mem_append_left _ hr, hsame⟩
  · intro q d hd
    rw [hget] at hd
    rw [hcompleted]
    exact h.documents q d hd
  · intro q hq
    rw [hchain, hcompleted]
    obtain hq | hq := List.mem_append.1 hq
    · exact (h.known q hq).imp_left (List.mem_append_left _)
    · exact .inl (List.mem_append_right _ hq)

/-- A file is finished when all it imports is. -/
theorem finish (h : Loaded tree roots t files) {chain : List Path} (hchain : t.chain = chain ++ [p])
    (hpath : d.path = p) (himports : ∀ q, q ∈ d.imports ↔ Imports tree roots p q)
    (hdone : ∀ q ∈ d.imports, q ∈ t.completed) : Loaded tree roots (t.finish p d) files := by
  have hmem : p ∈ t.chain := by simp [hchain]
  have hmark := ImportTable.isInProgress_iff.1 (h.marked p hmem)
  obtain ⟨text, hfile⟩ := h.chain.files p hmem
  have hcut : (t.finish p d).chain = chain := by
    show ImportTable.cutChain p t.chain = chain
    rw [hchain, ImportTable.cutChain_concat]
  have hcompleted : (t.finish p d).completed = t.completed ++ [p] := rfl
  have hstate : ∀ q, (t.finish p d).state? q = if p.same q then some (.parsed d) else t.state? q :=
    ImportTable.state?_finish p d
  have hnot : p ∉ t.completed := by
    intro hp
    obtain ⟨d', hd', -⟩ := h.document p hp
    rw [ImportTable.get?_eq_some_iff, hmark] at hd'
    cases hd'
  -- The other files on the chain are not this one.
  have hother : ∀ q ∈ chain, p.same q = false := by
    intro q hq
    rw [Bool.eq_false_iff]
    intro hsame
    obtain ⟨_, hfile'⟩ := h.chain.files q (by simp [hchain, hq])
    obtain rfl := hfile.eq_of_same hfile' hsame
    have hnodup := h.chain.nodup
    rw [hchain, List.nodup_append] at hnodup
    exact hnodup.2.2 p hq p (by simp) rfl
  refine ⟨⟨h.started, ?_, ?_, ?_⟩, ?_, ?_, ?_, ?_, ?_, ?_⟩
  · exact h.finished.snoc hnot ⟨text, hfile⟩
  · intro q hq
    rw [hcompleted, List.mem_append, List.mem_singleton] at hq
    obtain hq | rfl := hq
    · obtain ⟨d', hd', hrest⟩ := h.document q hq
      exact ⟨d', (ImportTable.get?_finish_of_isInProgress (h.marked p hmem)).2 (.inl hd'), hrest⟩
    · exact ⟨d, ImportTable.get?_finish _ d, hpath, himports⟩
  · intro before q after heq r hr
    rw [hcompleted] at heq
    rcases List.eq_nil_or_concat after with rfl | ⟨after', x, rfl⟩
    · obtain ⟨hbefore, hlast⟩ := List.append_inj' heq rfl
      cases hlast
      rw [← hbefore]
      exact hdone r ((himports r).2 hr)
    · have heq' : t.completed ++ [p] = (before ++ q :: after') ++ [x] := by simpa using heq
      exact h.earlier before q after' (List.append_inj' heq' rfl).1 r hr
  · rw [hcut]
    exact h.chain.sublist (hchain ▸ List.sublist_append_left chain [p])
  · rw [hcut]
    have hlinked := h.linked
    rw [hchain, List.isChain_append] at hlinked
    exact hlinked.1
  · rw [hcut]
    intro q hq
    rw [ImportTable.isInProgress_iff, hstate, hother q hq]
    exact ImportTable.isInProgress_iff.1 (h.marked q (by simp [hchain, hq]))
  · rw [hcut]
    intro q hq
    rw [ImportTable.isInProgress_iff, hstate] at hq
    split at hq
    · cases hq
    · rename_i hne
      obtain ⟨r, hr, hsame⟩ := h.inProgress q (ImportTable.isInProgress_iff.2 hq)
      rw [hchain, List.mem_append, List.mem_singleton] at hr
      obtain hr | rfl := hr
      · exact ⟨r, hr, hsame⟩
      · exact absurd hsame hne
  · intro q d' hd'
    rw [hcompleted]
    obtain hd' | ⟨hsame, rfl⟩ :=
      (ImportTable.get?_finish_of_isInProgress (h.marked p hmem)).1 hd'
    · obtain ⟨hin, hsame⟩ := h.documents q d' hd'
      exact ⟨List.mem_append_left _ hin, hsame⟩
    · exact ⟨by simp [hpath], hpath ▸ hsame⟩
  · intro q hq
    rw [hcut, hcompleted]
    obtain hq | hq := h.known q hq
    · rw [hchain, List.mem_append] at hq
      exact hq.imp_right (List.mem_append_right _)
    · exact .inr (List.mem_append_left _ hq)

/-- Importing a file that is on the chain closes a cycle. -/
theorem closesCycle (h : Loaded tree roots t files) {text : String} (hfile : tree.FileAt p text)
    (hin : t.isInProgress p = true) (hlast : ∀ q ∈ t.chain.getLast?, Imports tree roots q p) :
    ClosesCycle tree roots (t.cycle p) := by
  obtain ⟨q, hq, hsame⟩ := h.inProgress p hin
  obtain ⟨_, hfile'⟩ := h.chain.files q hq
  obtain rfl := hfile'.eq_of_same hfile hsame
  obtain ⟨before, after, hchain, hnot⟩ := List.eq_append_cons_of_mem hq
  have hdrop : t.chain.dropWhile (!·.same q) = q :: after := by
    rw [hchain, List.dropWhile_append_of_pos, List.dropWhile_cons_of_neg]
    · simp [hsame]
    · intro r hr
      obtain ⟨_, hfile''⟩ := h.chain.files r (by simp [hchain, hr])
      rw [Bool.not_eq_true', Bool.eq_false_iff]
      intro hsame'
      exact hnot (hfile''.eq_of_same hfile hsame' ▸ hr)
  have hcycle : t.cycle q = (q :: after) ++ [q] := by simp [ImportTable.cycle, hdrop]
  have hsuffix : (q :: after) <:+ t.chain := ⟨before, hchain.symm⟩
  rw [hcycle]
  refine ⟨by simp, ?_, ?_, ?_⟩
  · rw [List.getLast?_concat]
    rfl
  · rw [List.dropLast_concat]
    exact h.chain.pairwise.sublist hsuffix.sublist
  · refine (h.linked.suffix hsuffix).append (.singleton q) fun r hr r' hr' => ?_
    cases hr'
    refine hlast r ?_
    rw [hchain, List.getLast?_append]
    simpa using hr

end Loaded

end

end Scaffold
