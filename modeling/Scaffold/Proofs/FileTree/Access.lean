import Scaffold.Proofs.FileTree

/-!
# What stays within reach

`FileTree.Changes` takes nothing away, so a path that leads somewhere goes on leading there. What was
done to a tree is therefore done already when it is done again:

* `makeDirectories_of_isDirectory`: making a directory that is there changes nothing.
* `set_set`, `set_eq_self`: only the last text of a place counts, and the text it has may be written
  again.
-/

namespace Scaffold.FileTree

variable {t t' : FileTree} {inside may : List String → Prop} {p : Path} {r : List String}
  {e : FileEntry} {text : String}

/-! ## Looking up -/

theorem find_eq_ok_iff : t.find p = .ok e ↔ ∃ r, t.place p = .ok r ∧ t.entry? r = some e := by
  cases hp : t.place p with
  | error err => simp [find, hp, bind, Except.bind]
  | ok r =>
    cases he : t.entry? r with
    | none => simp [find, hp, he, bind, Except.bind]
    | some e' => simp [find, hp, he, bind, Except.bind]

theorem isFile_iff :
    t.isFile p = true ↔ ∃ r text, t.place p = .ok r ∧ t.entry? r = some (.file text) := by
  unfold isFile
  constructor
  · intro h
    split at h
    · rename_i text hfind
      obtain ⟨r, hr, he⟩ := find_eq_ok_iff.1 hfind
      exact ⟨r, text, hr, he⟩
    · cases h
  · rintro ⟨r, text, hr, he⟩
    rw [find_eq_ok_iff.2 ⟨r, hr, he⟩]

theorem isDirectory_iff :
    t.isDirectory p = true ↔ ∃ r, t.place p = .ok r ∧ t.entry? r = some .directory := by
  unfold isDirectory
  constructor
  · intro h
    split at h
    · rename_i hfind
      exact find_eq_ok_iff.1 hfind
    · cases h
  · rintro h
    rw [find_eq_ok_iff.2 h]

theorem pathExists_iff :
    t.pathExists p = true ↔ ∃ r e, t.place p = .ok r ∧ t.entry? r = some e := by
  unfold pathExists
  constructor
  · intro h
    cases hfind : t.find p with
    | error err =>
      rw [hfind] at h
      cases h
    | ok e =>
      obtain ⟨r, hr, he⟩ := find_eq_ok_iff.1 hfind
      exact ⟨r, e, hr, he⟩
  · rintro ⟨r, e, hr, he⟩
    rw [find_eq_ok_iff.2 ⟨r, hr, he⟩]
    rfl

theorem read_eq_ok_iff :
    t.read p = .ok text ↔ ∃ r, t.place p = .ok r ∧ t.entry? r = some (.file text) := by
  constructor
  · intro h
    cases hfind : t.find p with
    | error err => simp [read, hfind, bind, Except.bind] at h
    | ok e =>
      cases e with
      | directory => simp [read, hfind, bind, Except.bind] at h
      | file text' =>
        have htext : text' = text := by simpa [read, hfind, bind, Except.bind] using h
        exact htext ▸ find_eq_ok_iff.1 hfind
  · rintro h
    simp [read, find_eq_ok_iff.2 h, bind, Except.bind]

/-! ## Later trees -/

theorem place_mono (hc : Changes inside may t t') (h : t.place p = .ok r) : t'.place p = .ok r := by
  refine place_of_walk h ?_
  have hstart : t'.start p = t.start p := by simp [start, hc.current]
  rw [hstart]
  exact walk_mono (fun _ hd => hc.directory_kept hd) (walk_of_place h)

theorem Changes.file_kept (hc : Changes inside may t t') {place : List String}
    (h : t.entry? place = some (.file text)) : ∃ text', t'.entry? place = some (.file text') := by
  have hplace := hc.entry place
  rw [h] at hplace
  generalize t'.entry? place = e at hplace
  cases hplace with
  | same => exact ⟨text, rfl⟩
  | replaced _ new => exact ⟨new, rfl⟩

/-- A place that may not change keeps what stands there. -/
theorem Changes.entry_eq (hc : Changes inside may t t') {place : List String}
    (hin : ¬ inside place) (h : t.entry? place = some e) : t'.entry? place = some e := by
  have hplace := hc.entry place
  rw [h] at hplace
  generalize t'.entry? place = e' at hplace
  cases hplace with
  | same => rfl
  | replaced _ _ hin' => exact absurd hin' hin

theorem isFile_mono (hc : Changes inside may t t') (h : t.isFile p = true) :
    t'.isFile p = true := by
  obtain ⟨r, text, hr, he⟩ := isFile_iff.1 h
  obtain ⟨text', he'⟩ := hc.file_kept he
  exact isFile_iff.2 ⟨r, text', place_mono hc hr, he'⟩

theorem isDirectory_mono (hc : Changes inside may t t') (h : t.isDirectory p = true) :
    t'.isDirectory p = true := by
  obtain ⟨r, hr, he⟩ := isDirectory_iff.1 h
  exact isDirectory_iff.2 ⟨r, place_mono hc hr, hc.directory_kept he⟩

theorem pathExists_mono (hc : Changes inside may t t') (h : t.pathExists p = true) :
    t'.pathExists p = true := by
  obtain ⟨r, e, hr, he⟩ := pathExists_iff.1 h
  cases e with
  | directory => exact pathExists_iff.2 ⟨r, _, place_mono hc hr, hc.directory_kept he⟩
  | file text =>
    obtain ⟨text', he'⟩ := hc.file_kept he
    exact pathExists_iff.2 ⟨r, _, place_mono hc hr, he'⟩

/-! ## Paths that no tree takes -/

/-- A path that the system refuses before it looks at any tree. -/
def Refused (p : Path) : Prop :=
  p.text = "" ∨ '\x00' ∈ p.text.toList ∨ maxPath ≤ p.text.utf8ByteSize

theorem place_of_not_refused (h : ¬ Refused p) : t.place p = t.walk (t.start p) p.pieces := by
  simp only [Refused, not_or] at h
  obtain ⟨hempty, hnul, hlong⟩ := h
  unfold place
  rw [if_neg (by simpa using hempty), if_neg (by simpa using hnul), if_neg hlong]
  rfl

theorem not_refused_of_place (h : t.place p = .ok r) : ¬ Refused p := by
  rintro (hempty | hnul | hlong)
  · simp [place, hempty] at h
  · simp only [place] at h
    split at h
    · cases h
    · rw [if_pos (by simpa using hnul)] at h
      cases h
  · simp only [place] at h
    split at h
    · cases h
    · split at h
      · cases h
      · cases h

/-- The beginning of a path that is not refused is not refused either, unless it is empty. -/
theorem not_refused_of_append {p q : Path} {rest : String} (h : q.text = p.text ++ rest)
    (hq : ¬ Refused q) (hp : p.text ≠ "") : ¬ Refused p := by
  simp only [Refused, not_or] at hq ⊢
  obtain ⟨-, hnul, hlong⟩ := hq
  rw [h] at hnul hlong
  refine ⟨hp, fun hmem => hnul (by simp [hmem]), ?_⟩
  rw [String.utf8ByteSize_append] at hlong
  omega

/-! ## Directories that are there -/

/-- Slashes at the end of a path do not change where it leads. -/
theorem placeFrom_withoutSlashes (p : Path) (current : List String) :
    (withoutSlashes p).placeFrom current = p.placeFrom current := by
  obtain ⟨k, hk⟩ := withoutSlashes_pieces p
  have hidle : ∀ (k : Nat) (s : List String), (List.replicate k "").foldl step s = s := by
    intro k
    induction k with
    | zero => intro s; rfl
    | succ k ih => intro s; rw [List.replicate_succ, List.foldl_cons, Path.step_empty, ih]
  rw [Path.placeFrom, Path.placeFrom, isAbsolute_withoutSlashes, hk, List.foldl_append, hidle]

theorem ensureDirectory_of_isDirectory (h : t.isDirectory p = true) :
    t.ensureDirectory p = (.ok (), t) := by
  obtain ⟨r, hr, he⟩ := isDirectory_iff.1 h
  unfold ensureDirectory
  split
  · rename_i t₁ hmade
    obtain ⟨r', hr', hnone, -⟩ := makeDirectory_eq hmade
    rw [place_eq hr', placeFrom_withoutSlashes, ← place_eq hr, he] at hnone
    cases hnone
  · rw [if_pos h]

/-- Making a directory that is there changes nothing. -/
theorem makeDirectories_of_isDirectory (h : t.isDirectory p = true) :
    t.makeDirectories p = (.ok (), t) := by
  rw [makeDirectories, makeDirectoriesFrom, ensureDirectory_of_isDirectory h]
  simp [isMissing]

theorem isDirectory_of_ensureDirectory (hp : ¬ Refused p)
    (h : (t.ensureDirectory p).1 = .ok ()) : (t.ensureDirectory p).2.isDirectory p = true := by
  unfold ensureDirectory at h ⊢
  split
  · rename_i t₁ hmade
    obtain ⟨r, hr, hnone, rfl⟩ := makeDirectory_eq hmade
    have hne : r ≠ [] := by
      rintro rfl
      cases hnone
    have hset : FileTree.entry? (t.set r .directory) r = some .directory := by rw [entry?_set _ hne, if_pos rfl]
    obtain ⟨k, hk⟩ := withoutSlashes_pieces p
    have hstart : t.start (withoutSlashes p) = t.start p := by
      simp [start, isAbsolute_withoutSlashes]
    have hwalk : (t.set r .directory).walk (t.start p) (withoutSlashes p).pieces = .ok r := by
      refine walk_mono (fun q hq => ?_) (hstart ▸ walk_of_place hr)
      rw [entry?_set _ hne]
      split
      · rfl
      · exact hq
    refine isDirectory_iff.2 ⟨r, ?_, hset⟩
    rw [place_of_not_refused hp, hk, walk_append]
    exact (congrArg (Except.bind · _) hwalk).trans (walk_replicate_empty hset k)
  · rename_i hfail
    simp only [hfail] at h
    split at h
    · assumption
    · cases h

/-- A directory that was made is there. -/
theorem isDirectory_of_makeDirectories (hp : ¬ Refused p)
    (h : (t.makeDirectories p).1 = .ok ()) : (t.makeDirectories p).2.isDirectory p = true := by
  have hempty : ¬ (p.text == "") = true := fun hempty => hp (.inl (by simpa using hempty))
  rw [makeDirectories, makeDirectoriesFrom, if_neg hempty] at h ⊢
  dsimp only at h ⊢
  split at h
  · rename_i hmissing
    rw [if_pos hmissing]
    split at h
    · rw [h] at hmissing
      cases hmissing
    · split at h
      · cases h
      · exact isDirectory_of_ensureDirectory hp h
  · rename_i hmissing
    rw [if_neg hmissing]
    exact isDirectory_of_ensureDirectory hp h

/-! ## Writing twice -/

theorem setEntry_setEntry (place : List String) (e e' : FileEntry)
    (es : List (List String × FileEntry)) :
    setEntry place e' (setEntry place e es) = setEntry place e' es := by
  induction es with
  | nil => simp [setEntry]
  | cons x rest ih =>
    by_cases hx : x.1 = place
    · simp [setEntry, hx]
    · simp [setEntry, hx, ih]

theorem set_set (t : FileTree) (place : List String) (e e' : FileEntry) :
    (t.set place e).set place e' = t.set place e' := by
  simp [set, setEntry_setEntry]

theorem setEntry_eq_self {place : List String} {es : List (List String × FileEntry)}
    (h : es.lookup place = some e) : setEntry place e es = es := by
  induction es with
  | nil => cases h
  | cons x rest ih =>
    obtain ⟨q, f⟩ := x
    by_cases hq : q = place
    · subst hq
      simp at h
      simp [setEntry, h]
    · rw [List.lookup_cons, beq_false_of_ne (Ne.symm hq)] at h
      simp [setEntry, hq, ih h]

/-- Writing the text that a place has changes nothing. -/
theorem set_eq_self {place : List String} (hp : place ≠ []) (h : t.entry? place = some e) :
    t.set place e = t := by
  rw [entry?_of_ne_nil _ hp] at h
  simp [set, setEntry_eq_self h]

theorem write_of_place (h : t.place p = .ok r) (hdir : t.entry? r ≠ some .directory)
    (hslash : Text.endsWith "/" p.text = false) (text : String) :
    t.write p text = .ok (t.set r (.file text)) := by
  rw [write, withoutSlashes_of_not_endsWith hslash, h]
  simp only [bind, Except.bind, hslash, Bool.false_eq_true, if_false]

theorem endsWith_of_write (h : t.write p text = .ok t') : Text.endsWith "/" p.text = false := by
  simp only [write, bind, Except.bind] at h
  split at h
  · cases h
  · split at h
    · cases h
    · split at h
      · cases h
      · rename_i hslash
        simpa using hslash

/-- A path that ends with a slash leads to a directory. -/
theorem endsWith_of_file (h : t.place p = .ok r) (hr : t.entry? r = some (.file text)) :
    Text.endsWith "/" p.text = false := by
  cases hslash : Text.endsWith "/" p.text with
  | false => rfl
  | true =>
    obtain ⟨a, ha⟩ : ∃ a : String, p.text = a ++ "/" := by
      refine Path.eq_append_slash ?_
      cases hrev : p.text.toList.reverse with
      | nil => simp [Text.endsWith, Text.beforeTail, Text.afterHeadChars, hrev] at hslash
      | cons c cs =>
        rw [← List.head?_reverse, hrev]
        by_cases hc : '/' = c
        · simp [← hc]
        · simp [Text.endsWith, Text.beforeTail, Text.afterHeadChars, hrev, hc] at hslash
    have hpieces : p.pieces = (Path.mk a).pieces ++ [""] := by
      have := Path.pieces_append_slash a ""
      rw [String.append_empty, Path.pieces_empty] at this
      rw [← this, ← ha]
    have hw := walk_of_place h
    rw [hpieces, walk_append] at hw
    cases hs : t.walk (t.start p) (Path.mk a).pieces with
    | error err =>
      rw [hs] at hw
      cases hw
    | ok s =>
      rw [hs] at hw
      obtain ⟨hdir, -, hw⟩ := walk_cons hw
      have hsr : s = r := by simpa [walk] using hw
      rw [hsr, hr] at hdir
      cases hdir

end Scaffold.FileTree
