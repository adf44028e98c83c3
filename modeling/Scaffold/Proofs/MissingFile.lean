import Scaffold.Command
import Scaffold.Proofs.Documents
import Scaffold.Proofs.Path.Course

/-!
# Files that are not there

A path under which nothing stands is known by its text alone. Documents are filed under such paths when
a text is compiled, and directories of projects that are yet to be made are compared by them.

* `ImportTable.Filed`: a document is filed under its own path, in all sessions.
* `distinctOutPaths_iff`: the requests that are accepted write into directories with distinct paths.
* `FileTree.canonical_same_iff`: which paths are taken for each other, what this says about the places
  they lead to, and what comes of it for sessions and requests.
-/

namespace Scaffold

open Source

/-! ## Documents and their paths -/

/-- Every document is found under its own path. -/
def ImportTable.Filed (t : ImportTable) : Prop :=
  ∀ p d, t.get? p = some d → d.path.same p = true

theorem Source.yields_filed : Yields fun p d => d.path.same p = true := by
  intro tree load text f s d s' h p hp
  obtain ⟨tokens, decls, final, -, -, hcomplete⟩ := parseDocument_decls h
  have hpath : f.path = d.path := congrArg (·.1.path) hcomplete
  rwa [← hpath]

namespace Session

variable {s : Session} {tree : FileTree} {text text' : String} {p q : Path} {d : Document}

theorem Reached.filed (h : s.Reached) : s.imports.Filed := by
  induction h with
  | new platform => exact nofun
  | call _ c ih => exact c.run_files yields_filed ih

def after (s : Session) (calls : List Call) : Session :=
  calls.foldl (fun s c => (c.run s).2) s

/-- Calls leave the documents as they are. -/
theorem Reached.after (h : s.Reached) (calls : List Call) :
    (s.after calls).Reached ∧
      ∀ p d, s.imports.get? p = some d → (s.after calls).imports.get? p = some d := by
  induction calls generalizing s with
  | nil => exact ⟨h, fun _ _ => id⟩
  | cons c rest ih =>
    obtain ⟨hreached, hkept⟩ := ih (h.call c)
    exact ⟨hreached, fun p d hd => hkept p d ((c.run_came h.resting.marked).imports.documents hd)⟩

/-- A text is answered with a document that is filed under the name that it was given. -/
theorem Reached.get?_of_compileText (h : s.Reached)
    (hok : (s.compileText tree text p).1 = .ok d) :
    (s.compileText tree text p).2.imports.get? (tree.canonical p) = some d ∧
      d.path.same (tree.canonical p) = true := by
  have hfinished := (parseText_settles tree text { path := p }
    (loadFile_restores tree (importDepth tree)) h.resting.marked).finished d hok
  exact ⟨hfinished, (h.call (.text tree text p)).filed _ _ hfinished⟩

/-- A later text is answered with the document of an earlier one exactly if their names have the same
canonical path, whatever was compiled in between. -/
theorem Reached.compileText_eq_iff (h : s.Reached) (hok : (s.compileText tree text p).1 = .ok d)
    (calls : List Call) : let s' := (s.compileText tree text p).2.after calls
    (s'.compileText tree text' q).1 = .ok d ↔
      (tree.canonical p).same (tree.canonical q) = true := by
  intro s'
  obtain ⟨hget, hpath⟩ := h.get?_of_compileText hok
  obtain ⟨hreached, hkept⟩ : s'.Reached ∧
      ∀ q d, (s.compileText tree text p).2.imports.get? q = some d → s'.imports.get? q = some d :=
    Reached.after (h.call (.text tree text p)) calls
  -- What was compiled no longer matters.
  clear_value s'
  constructor
  · intro hagain
    have hpath' := (hreached.get?_of_compileText hagain).2
    rw [Path.same_iff] at hpath hpath' ⊢
    rw [← hpath, hpath']
  · intro hsame
    have hget' : s'.imports.get? (tree.canonical p) = some d := hkept _ _ hget
    rw [ImportTable.get?_eq_some_iff, ImportTable.state?_congr hsame,
      ← ImportTable.get?_eq_some_iff] at hget'
    rw [compileText, parseText_finished (f := { path := q }) hget']

end Session

/-! ## Requests -/

/-- Requests are accepted exactly if no two of them, and none of them and one that was seen before,
have the same directory. -/
theorem distinctOutPaths_iff (tree : FileTree) (seen : List (Path × String))
    (rs : List BuildRequest) : distinctOutPaths tree seen rs = .ok () ↔
      (∀ r ∈ rs, ∀ x ∈ seen, x.1.same (tree.canonical r.project.outPath) = false) ∧
      rs.Pairwise fun r r' =>
        (tree.canonical r.project.outPath).same (tree.canonical r'.project.outPath) = false := by
  induction rs generalizing seen with
  | nil => simp [distinctOutPaths]
  | cons r rest ih =>
    rw [distinctOutPaths]
    rw [List.forall_mem_cons, List.pairwise_cons]
    dsimp only
    generalize tree.canonical r.project.outPath = path
    cases hfind : seen.find? fun (x : Path × String) => x.1.same path with
    | some x =>
      have hsame : x.1.same path = true := by simpa using List.find?_some hfind
      have hapart : ¬ ∀ x ∈ seen, x.1.same path = false := fun h =>
        Bool.false_ne_true ((h x (List.mem_of_find?_eq_some hfind)).symm.trans hsame)
      exact ⟨nofun, fun h => absurd h.1.1 hapart⟩
    | none =>
      have hapart : ∀ x ∈ seen, x.1.same path = false := by simpa using hfind
      dsimp only
      rw [ih]
      simp only [List.forall_mem_cons]
      constructor
      · rintro ⟨hrest, hpairs⟩
        exact ⟨⟨hapart, fun r' hr' => (hrest r' hr').2⟩, fun r' hr' => (hrest r' hr').1, hpairs⟩
      · rintro ⟨⟨-, hrest⟩, hfirst, hpairs⟩
        exact ⟨fun r' hr' => ⟨hfirst r' hr', hrest r' hr'⟩, hpairs⟩

/-- The requests for the projects of a configuration were compared. -/
theorem Config.requests_apart {c : Config} {o : BuildOptions} {tree : FileTree} {machine : Machine}
    {rs : List BuildRequest} (h : c.requests o tree machine = .ok rs) :
    rs.Pairwise fun r r' =>
      (tree.canonical r.project.outPath).same (tree.canonical r'.project.outPath) = false := by
  have hcompared : ∀ rs' : List BuildRequest,
      (do distinctOutPaths tree [] rs'; return rs' : Except ConfigError _) = .ok rs →
      rs.Pairwise fun r r' => (tree.canonical r.project.outPath).same
        (tree.canonical r'.project.outPath) = false := by
    intro rs' hrun
    cases hpaths : distinctOutPaths tree [] rs' with
    | error e =>
      rw [hpaths] at hrun
      cases hrun
    | ok u =>
      rw [hpaths] at hrun
      cases hrun
      exact ((distinctOutPaths_iff tree [] rs).1 hpaths).2
  unfold Config.requests at h
  cases hselected : o.project with
  | none =>
    rw [hselected] at h
    exact hcompared _ h
  | some id =>
    rw [hselected] at h
    replace h : (c.project id >>= fun p => c.request o tree machine p >>= fun r => do
      distinctOutPaths tree [] [r]; return [r]) = Except.ok rs := h
    cases hproject : c.project id with
    | error e =>
      rw [hproject] at h
      cases h
    | ok p =>
      rw [hproject] at h
      replace h : (c.request o tree machine p >>= fun r => do
        distinctOutPaths tree [] [r]; return [r]) = Except.ok rs := h
      cases hrequest : c.request o tree machine p with
      | error e =>
        rw [hrequest] at h
        cases h
      | ok r =>
        rw [hrequest] at h
        exact hcompared [r] h

/-! ## Paths that are taken for each other -/

namespace FileTree

open Scaffold.Path (Course)

variable {t : FileTree} {p q : Path}

/-- Where nothing stands, the text decides. -/
theorem canonical_of_not_pathExists (h : t.pathExists p = false) : t.canonical p = p.normalize := by
  unfold canonical
  cases hplace : t.place p with
  | error e => rfl
  | ok place =>
    cases hentry : t.entry? place with
    | none => exact if_neg (by simp [hentry])
    | some e =>
      rw [pathExists_iff.2 ⟨place, e, hplace, hentry⟩] at h
      cases h

theorem same_canonical (hp : t.pathExists p = false) (hq : t.pathExists q = false) :
    (t.canonical p).same (t.canonical q) = true ↔ p.isAbsolute = q.isAbsolute ∧
      p.course.up % 2 = q.course.up % 2 ∧ p.course.down = q.course.down := by
  rw [canonical_of_not_pathExists hp, canonical_of_not_pathExists hq, Path.same_iff,
    Path.parts_normalize, Path.parts_normalize, Course.normal_inj]

/-- Paths that start alike and lead equally far up are taken for each other exactly if they lead to
the same place. -/
theorem same_canonical_of_up (hp : t.pathExists p = false) (hq : t.pathExists q = false)
    (habsolute : p.isAbsolute = q.isAbsolute) (hup : p.course.up = q.course.up) :
    (t.canonical p).same (t.canonical q) = true ↔
      p.placeFrom t.current = q.placeFrom t.current := by
  rw [same_canonical hp hq, Path.placeFrom_eq, Path.placeFrom_eq, Course.leadsTo, Course.leadsTo,
    habsolute, hup, List.append_cancel_left_eq]
  simp

/-- Where something stands, the place decides. -/
theorem same_canonical_of_placeFrom (hp : t.pathExists p = true) (hq : t.pathExists q = true)
    (hplace : p.placeFrom t.current = q.placeFrom t.current) :
    (t.canonical p).same (t.canonical q) = true := by
  obtain ⟨r, e, hr, he⟩ := pathExists_iff.1 hp
  obtain ⟨r', e', hr', he'⟩ := pathExists_iff.1 hq
  have heq : r = r' := by rw [place_eq hr, place_eq hr', hplace]
  subst heq
  simp only [canonical, hr, hr', he, Option.isSome_some, if_true, Path.same_iff]

/-- Levels that lead above the root lead nowhere. -/
theorem take_up_eq_iff (place : List String) (up up' : Nat) :
    place.take (place.length - up) = place.take (place.length - up') ↔
      min up place.length = min up' place.length := by
  rw [List.take_eq_take_iff]
  omega

/-- Two paths under which nothing stands are taken for each other exactly if both or neither start at
the root, they end with the same names, and the numbers of levels that they lead above their start are
both even or both odd. If they start alike and lead equally far up, this says that they lead to the
same place. Otherwise it need not: paths that are taken for each other lead to the same place exactly
if they start at the root, or lead equally far up, as far as there are levels.

In every session, a text under one of these names is answered with the document of a text under the
other exactly if the names are taken for each other. And whenever requests are accepted, no two of them
write to the same place, if both places are there, or if neither is and the paths start alike and lead
equally far up. -/
theorem canonical_same_iff (hp : t.pathExists p = false) (hq : t.pathExists q = false) :
    let taken := (t.canonical p).same (t.canonical q) = true
    (taken ↔ p.isAbsolute = q.isAbsolute ∧ p.course.up % 2 = q.course.up % 2 ∧
      p.course.down = q.course.down) ∧
    (p.isAbsolute = q.isAbsolute → p.course.up = q.course.up →
      (taken ↔ p.placeFrom t.current = q.placeFrom t.current)) ∧
    (taken → (p.placeFrom t.current = q.placeFrom t.current ↔
      p.isAbsolute = true ∨
        min p.course.up t.current.length = min q.course.up t.current.length)) ∧
    (∀ (s : Session) (text text' : String) (d : Document) (calls : List Call), s.Reached →
      (s.compileText t text p).1 = .ok d →
      ((((s.compileText t text p).2.after calls).compileText t text' q).1 = .ok d ↔ taken)) ∧
    ∀ (c : Config) (o : BuildOptions) (machine : Machine) (rs : List BuildRequest),
      c.requests o t machine = .ok rs → rs.Pairwise fun r r' =>
        let out := r.project.outPath
        let out' := r'.project.outPath
        (t.pathExists out = true ∧ t.pathExists out' = true ∨
          t.pathExists out = false ∧ t.pathExists out' = false ∧ out.isAbsolute = out'.isAbsolute ∧
            out.course.up = out'.course.up) →
        out.placeFrom t.current ≠ out'.placeFrom t.current := by
  intro taken
  refine ⟨same_canonical hp hq, same_canonical_of_up hp hq, fun htaken => ?_,
    fun s text text' d calls hs hok => hs.compileText_eq_iff hok calls, fun c o machine rs hrs => ?_⟩
  · obtain ⟨habsolute, -, hdown⟩ := (same_canonical hp hq).1 htaken
    rw [Path.placeFrom_eq, Path.placeFrom_eq, Course.leadsTo, Course.leadsTo, hdown, ← habsolute,
      List.append_cancel_right_eq, take_up_eq_iff]
    cases p.isAbsolute <;> simp
  · refine (Config.requests_apart hrs).imp fun {r r'} hapart hknown hplace => ?_
    obtain ⟨hout, hout'⟩ | ⟨hout, hout', habsolute, hup⟩ := hknown
    · rw [same_canonical_of_placeFrom hout hout' hplace] at hapart
      cases hapart
    · rw [(same_canonical_of_up hout hout' habsolute hup).2 hplace] at hapart
      cases hapart

/-- A tree with one directory, which paths start from. -/
def bareTree : FileTree :=
  { entries := [(["w"], .directory)], current := ["w"] }

/-- Two spellings of one name: the document of the first answers for the second. -/
theorem canonical_same_iff_spellings :
    let p : Path := ⟨"lib/../src/./a.jssp"⟩
    let q : Path := ⟨"src/b/../a.jssp"⟩
    let first := ({} : Session).compileText bareTree "struct A \x7b x int; \x7d" p
    (bareTree.pathExists p = false ∧ bareTree.pathExists q = false ∧
      p.isAbsolute = q.isAbsolute ∧ p.course.up = q.course.up) ∧
    (bareTree.canonical p).same (bareTree.canonical q) = true ∧
    p.placeFrom bareTree.current = q.placeFrom bareTree.current ∧
    ∃ d, first.1 = .ok d ∧ (first.2.compileText bareTree "struct B \x7b x int; \x7d" q).1 = .ok d := by
  intro p q first
  have hp : bareTree.pathExists p = false := by decide +kernel
  have hq : bareTree.pathExists q = false := by decide +kernel
  have habsolute : p.isAbsolute = q.isAbsolute := by decide +kernel
  have hup : p.course.up = q.course.up := by decide +kernel
  have hplace : p.placeFrom bareTree.current = q.placeFrom bareTree.current := by decide +kernel
  have hok : first.1.isOk = true := by decide +kernel
  obtain ⟨-, hsame, -, hanswers, -⟩ := canonical_same_iff hp hq
  obtain ⟨d, hfirst⟩ := Entry.exists_of_isOk hok
  have htaken := (hsame habsolute hup).2 hplace
  have hd : first.1 = .ok d := congrArg Prod.fst hfirst
  exact ⟨⟨hp, hq, habsolute, hup⟩, htaken, hplace, d, hd,
    (hanswers {} _ _ d [] (.new none) hd).2 htaken⟩

/-- A step up that cannot be resolved takes back the one before: a text two levels up and one right
here are taken for each other, and the second is answered with the document of the first. And a
relative path is never taken for an absolute one: two projects that write to the same place are
accepted. -/
theorem canonical_same_not_placeFrom :
    let p : Path := ⟨"../../a.jssp"⟩
    let q : Path := ⟨"a.jssp"⟩
    let first := ({} : Session).compileText bareTree "struct A \x7b x int; \x7d" p
    let projects : List Project := ["out", "/w/out"].map fun out =>
      { id := out, name := out, platform := "java", outPath := ⟨out⟩ }
    let requests := ({ entry := some q, projects } : Config).requests { config := q } bareTree {}
    (bareTree.pathExists p = false ∧ bareTree.pathExists q = false ∧
      (bareTree.canonical p).same (bareTree.canonical q) = true ∧
      p.placeFrom bareTree.current ≠ q.placeFrom bareTree.current ∧
      (first.2.compileText bareTree "struct B \x7b x int; \x7d" q).1.map (·.decls.map (·.name?))
        = .ok [some "A"]) ∧
    (∀ r ∈ projects, bareTree.pathExists r.outPath = false) ∧
    requests.map (·.map (·.project.outPath.placeFrom bareTree.current))
      = .ok [["w", "out"], ["w", "out"]] := by
  decide +kernel

end FileTree

end Scaffold
