import Scaffold.Proofs.Path

/-!
# What an operation on a tree may change

A tree is well formed when everything in it stands in a directory. `FileTree.Changes inside may t t'`
says how little `t'` differs from `t`: directories may appear anywhere, files may appear at `inside`
places, and a file that was there may get another text only at a place that is also a `may` place;
nothing goes away and no file turns into a directory or the other way round. The relation is
reflexive and transitive, so a run of operations is bounded by what each of them may do.

* `makeDirectories_adds`: making directories adds directories and no files, also when it fails
  halfway.
* `write_changes`: writing a file changes the place its path leads to, and only a file there.
-/

namespace Scaffold.FileTree

variable {t t' t'' : FileTree}

/-! ## Entries -/

/-- Everything in the tree stands in a directory of the tree. -/
def WellFormed (t : FileTree) : Prop :=
  ∀ x ∈ t.entries, x.1 ≠ [] → t.entry? x.1.dropLast = some .directory

instance (t : FileTree) : Decidable t.WellFormed :=
  inferInstanceAs (Decidable (∀ x ∈ t.entries, x.1 ≠ [] → t.entry? x.1.dropLast = some .directory))

@[simp] theorem entry?_nil (t : FileTree) : t.entry? [] = some .directory := rfl

theorem entry?_of_ne_nil (t : FileTree) {place : List String} (h : place ≠ []) :
    t.entry? place = t.entries.lookup place := by
  simp [ entry?, h]

theorem lookup_setEntry (place q : List String) (e : FileEntry)
    (es : List (List String × FileEntry)) :
    (setEntry place e es).lookup q = if q = place then some e else es.lookup q := by
  induction es with
  | nil =>
    by_cases h : q = place
    · simp [setEntry, h]
    · simp [setEntry, List.lookup_cons, h, beq_false_of_ne h]
  | cons x rest ih =>
    obtain ⟨p, f⟩ := x
    by_cases hp : p = place
    · subst hp
      by_cases h : q = p
      · simp [setEntry, h]
      · simp [setEntry, List.lookup_cons, h, beq_false_of_ne h]
    · simp only [setEntry, beq_iff_eq, hp, if_false, List.lookup_cons, ih]
      by_cases h : q = p
      · subst h; simp [hp]
      · simp [beq_false_of_ne h]

theorem entry?_set (t : FileTree) {place : List String} (hp : place ≠ []) (e : FileEntry)
    (q : List String) : FileTree.entry? (t.set place e) q = if q = place then some e else t.entry? q := by
  by_cases hq : q = []
  · subst hq
    rw [entry?_nil, entry?_nil, if_neg (Ne.symm hp)]
  · rw [entry?_of_ne_nil _ hq, entry?_of_ne_nil _ hq]
    exact lookup_setEntry place q e t.entries

theorem wellFormed_iff : t.WellFormed ↔ ∀ place e, place ≠ [] → t.entry? place = some e →
    t.entry? place.dropLast = some .directory := by
  constructor
  · intro h place e hp he
    rw [entry?_of_ne_nil _ hp] at he
    obtain ⟨l₁, l₂, hl, -⟩ := List.lookup_eq_some_iff.1 he
    exact h (place, e) (by simp [hl]) hp
  · intro h x hx hp
    have hs : (t.entries.lookup x.1).isSome := List.lookup_isSome_iff.2 ⟨x, hx, by simp⟩
    obtain ⟨e, he⟩ := Option.isSome_iff_exists.1 hs
    exact h x.1 e hp (by rw [entry?_of_ne_nil _ hp, he])

/-- Whatever something stands in, however far above, is a directory. -/
theorem WellFormed.above (ht : t.WellFormed) {a b : List String} {e : FileEntry}
    (h : t.entry? (a ++ b) = some e) (hb : b ≠ []) : t.entry? a = some .directory := by
  obtain ⟨n, hn⟩ : ∃ n, b.length = n := ⟨_, rfl⟩
  induction n generalizing b e with
  | zero => exact absurd (List.length_eq_zero_iff.1 hn) hb
  | succ n ih =>
    have hdrop := wellFormed_iff.1 ht _ _ (by simp [hb]) h
    rw [List.dropLast_append_of_ne_nil hb] at hdrop
    by_cases hb' : b.dropLast = []
    · rwa [hb', List.append_nil] at hdrop
    · exact ih hdrop hb' (by simp [hn])

/-! ## Following a path -/

theorem walk_eq {s r ps : List String} (h : t.walk s ps = .ok r) : r = ps.foldl step s := by
  induction ps generalizing s with
  | nil => simpa [walk] using h.symm
  | cons p ps ih =>
    simp only [walk] at h
    split at h
    · cases h
    · cases h
    · split at h
      · cases h
      · exact ih h

/-- The place that following a path starts from. -/
def start (t : FileTree) (p : Path) : List String :=
  if p.isAbsolute then [] else t.current

theorem walk_of_place {p : Path} {r : List String} (h : t.place p = .ok r) :
    t.walk (t.start p) p.pieces = .ok r := by
  unfold place at h
  split at h
  · cases h
  · split at h
    · cases h
    · split at h
      · cases h
      · exact h

/-- Whether a path can be followed is decided by its pieces; the path as a whole is refused or not
in every tree alike. -/
theorem place_of_walk {p : Path} {r r' : List String} (h : t.place p = .ok r)
    (hw : t'.walk (t'.start p) p.pieces = .ok r') : t'.place p = .ok r' := by
  unfold place at h ⊢
  split at h
  · cases h
  · split at h
    · cases h
    · split at h
      · cases h
      · rename_i h₁ h₂ h₃
        rw [if_neg h₁, if_neg h₂, if_neg h₃]
        exact hw

/-- A path that can be followed leads where its text says. -/
theorem place_eq {p : Path} {r : List String} (h : t.place p = .ok r) :
    r = p.placeFrom t.current :=
  walk_eq (walk_of_place h)

theorem walk_cons {s : List String} {p : String} {ps r : List String}
    (h : t.walk s (p :: ps) = .ok r) :
    t.entry? s = some .directory ∧ ¬ maxName < p.utf8ByteSize ∧ t.walk (step s p) ps = .ok r := by
  simp only [walk] at h
  split at h
  · cases h
  · cases h
  · rename_i hs
    split at h
    · cases h
    · rename_i hp; exact ⟨hs, hp, h⟩

theorem walk_append (t : FileTree) (s ps qs : List String) :
    t.walk s (ps ++ qs) = (t.walk s ps).bind (t.walk · qs) := by
  induction ps generalizing s with
  | nil => rfl
  | cons p ps ih =>
    simp only [List.cons_append, walk, ih]
    split
    · rfl
    · rfl
    · split <;> rfl

/-- A path that leads to a place where nothing stands leads through the directory above it. -/
theorem walk_parent (ht : t.WellFormed) {s ps r : List String} (h : t.walk s ps = .ok r)
    (hps : ps ≠ []) (hr : t.entry? r = none) : t.entry? r.dropLast = some .directory := by
  induction ps generalizing s with
  | nil => exact absurd rfl hps
  | cons p ps ih =>
    obtain ⟨hs, -, h⟩ := walk_cons h
    by_cases hne : ps = []
    · subst hne
      have hr' : r = step s p := walk_eq h
      subst hr'
      unfold step at hr ⊢
      split
      · rename_i hidle
        rw [if_pos hidle, hs] at hr
        cases hr
      · rename_i hidle
        rw [if_neg hidle] at hr
        split
        · rename_i hup
          rw [if_pos hup] at hr
          -- Going up from a directory arrives at a directory, not at an empty place.
          by_cases hsn : s = []
          · subst hsn; cases hr
          · rw [wellFormed_iff.1 ht _ _ hsn hs] at hr
            cases hr
        · simpa using hs
    · exact ih h hne

/-- Directories that are still there can still be walked through. -/
theorem walk_mono (hdir : ∀ place, t.entry? place = some .directory →
    t'.entry? place = some .directory) {s ps r : List String} (h : t.walk s ps = .ok r) :
    t'.walk s ps = .ok r := by
  induction ps generalizing s with
  | nil => simpa [walk] using h
  | cons p ps ih =>
    obtain ⟨hs, hp, h⟩ := walk_cons h
    simp only [walk, hdir s hs, if_neg hp]
    exact ih h

theorem step_of_descends (s : List String) {p : String} (hp : Path.Descends p) :
    s <+: step s p := by
  have := Path.foldl_step_of_descends [p] s (by simpa using hp)
  rw [List.foldl_cons, List.foldl_nil] at this
  exact ⟨_, this.symm⟩

/-- If a path without upward steps leads to a file in one tree, then in any well-formed tree that
has a file there too, the same path leads there. -/
theorem walk_of_file (ht : t.WellFormed) {s ps r : List String} (hps : ∀ x ∈ ps, Path.Descends x)
    (h : t'.walk s ps = .ok r) {a b : String} (hr' : t'.entry? r = some (.file a))
    (hr : t.entry? r = some (.file b)) : t.walk s ps = .ok r := by
  induction ps generalizing s with
  | nil => simpa [walk] using h
  | cons p ps ih =>
    obtain ⟨hs, hp, h⟩ := walk_cons h
    have hrest : ∀ x ∈ ps, Path.Descends x := fun x hx => hps x (by simp [hx])
    have hpre : s <+: r := by
      have hr := walk_eq h
      rw [Path.foldl_step_of_descends _ _ hrest] at hr
      exact (step_of_descends s (hps p (by simp))).trans ⟨_, hr.symm⟩
    obtain ⟨u, rfl⟩ := hpre
    have hu : u ≠ [] := by
      rintro rfl
      rw [List.append_nil, hs] at hr'
      cases hr'
    simp only [walk, ht.above hr hu, if_neg hp]
    exact ih hrest h

/-! ## Bounded change -/

/-- How an entry may change: not at all, or by a directory where nothing stood, or `inside` by a
file where nothing stood, or where `may` also holds by another text of a file. -/
inductive EntryChange (inside may : Prop) : Option FileEntry → Option FileEntry → Prop where
  | same (e : Option FileEntry) : EntryChange inside may e e
  | directory : EntryChange inside may none (some .directory)
  | created (text : String) : inside → EntryChange inside may none (some (.file text))
  | replaced (old new : String) : inside → may →
    EntryChange inside may (some (.file old)) (some (.file new))

theorem EntryChange.trans {inside may : Prop} {a b c : Option FileEntry}
    (h₁ : EntryChange inside may a b) (h₂ : EntryChange inside may b c) :
    EntryChange inside may a c := by
  cases h₁ with
  | same => exact h₂
  | directory => cases h₂; exact .directory
  | created text hi =>
    cases h₂ with
    | same => exact .created text hi
    | replaced _ new => exact .created new hi
  | replaced old new hi hm =>
    cases h₂ with
    | same => exact .replaced old new hi hm
    | replaced _ new' => exact .replaced old new' hi hm

theorem EntryChange.mono {inside may inside' may' : Prop} (hi : inside → inside')
    (hm : may → may') {a b : Option FileEntry} (h : EntryChange inside may a b) :
    EntryChange inside' may' a b := by
  cases h with
  | same => exact .same _
  | directory => exact .directory
  | created text h => exact .created text (hi h)
  | replaced old new h h' => exact .replaced old new (hi h) (hm h')

/-- The second tree differs from the first only as `EntryChange` allows at each place. -/
structure Changes (inside may : List String → Prop) (t t' : FileTree) : Prop where
  current : t'.current = t.current
  wellFormed : t.WellFormed → t'.WellFormed
  entry : ∀ place, EntryChange (inside place) (may place) (t.entry? place) (t'.entry? place)

namespace Changes

variable {inside may : List String → Prop}

theorem refl (t : FileTree) : Changes inside may t t :=
  ⟨rfl, id, fun _ => .same _⟩

theorem trans (h₁ : Changes inside may t t') (h₂ : Changes inside may t' t'') :
    Changes inside may t t'' :=
  ⟨h₂.current.trans h₁.current, fun h => h₂.wellFormed (h₁.wellFormed h),
    fun place => (h₁.entry place).trans (h₂.entry place)⟩

theorem mono {inside' may' : List String → Prop} (hi : ∀ place, inside place → inside' place)
    (hm : ∀ place, may place → may' place) (h : Changes inside may t t') :
    Changes inside' may' t t' :=
  ⟨h.current, h.wellFormed, fun place => (h.entry place).mono (hi place) (hm place)⟩

theorem directory_kept (h : Changes inside may t t') {place : List String}
    (hd : t.entry? place = some .directory) : t'.entry? place = some .directory := by
  have := h.entry place
  rw [hd] at this
  generalize t'.entry? place = e at this ⊢
  cases this
  rfl

/-- Setting a place under a directory, where nothing stood or where a file gets another text. -/
theorem set {place : List String} (hp : place ≠ []) {e : FileEntry}
    (habove : t.entry? place.dropLast = some .directory)
    (hdir : t.entry? place ≠ some .directory)
    (hc : EntryChange (inside place) (may place) (t.entry? place) (some e)) :
    Changes inside may t (t.set place e) where
  current := rfl
  wellFormed ht := by
    refine wellFormed_iff.2 fun q f hq hf => ?_
    rw [entry?_set _ hp] at hf ⊢
    have hparent : t.entry? q.dropLast = some .directory := by
      split at hf
      · rename_i h; rwa [h]
      · exact wellFormed_iff.1 ht q f hq hf
    rw [if_neg (by rintro h; rw [h] at hparent; exact hdir hparent)]
    exact hparent
  entry q := by
    rw [entry?_set _ hp]
    split
    · rename_i h; rwa [h]
    · exact .same _

end Changes

/-- The second tree has more directories than the first and is the same otherwise. -/
abbrev AddsDirectories (t t' : FileTree) : Prop :=
  Changes (fun _ => False) (fun _ => False) t t'

theorem AddsDirectories.changes {inside may : List String → Prop} (h : AddsDirectories t t') :
    Changes inside may t t' :=
  h.mono (fun _ => False.elim) (fun _ => False.elim)

theorem AddsDirectories.file_before (h : AddsDirectories t t') {place : List String}
    {text : String} (hf : t'.entry? place = some (.file text)) :
    t.entry? place = some (.file text) := by
  have hc := h.entry place
  rw [hf] at hc
  generalize t.entry? place = e at hc ⊢
  cases hc with
  | same => rfl
  | created _ hf => exact hf.elim
  | replaced _ _ hf => exact hf.elim

/-! ## Slashes at the end of a path -/

theorem withoutSlashes_text (p : Path) :
    ∃ k, p.text = (withoutSlashes p).text ++ String.ofList (List.replicate k '/') := by
  unfold withoutSlashes
  split
  · exact ⟨0, by simp⟩
  · generalize hw : p.text.toList.reverse.takeWhile (· == '/') = tail
    have htail : ∀ c ∈ tail, c = '/' := by
      intro c hc
      have := List.all_eq_true.1 List.all_takeWhile c (hw ▸ hc)
      simpa using this
    refine ⟨tail.length, String.ext ?_⟩
    have hrep : List.replicate tail.length '/' = tail := (List.eq_replicate_iff.2 ⟨rfl, htail⟩).symm
    have hsplit := List.takeWhile_append_dropWhile (p := (· == '/')) (l := p.text.toList.reverse)
    rw [hw] at hsplit
    have hlist : p.text.toList = (p.text.toList.reverse.dropWhile (· == '/')).reverse ++ tail.reverse := by
      rw [← List.reverse_append, hsplit, List.reverse_reverse]
    have hrev : tail.reverse = tail := by rw [← hrep, List.reverse_replicate]
    rw [hrev] at hlist
    simpa [Text.trimEndOf, Text.dropEndWhile, hrep] using hlist

theorem pieces_append_slashes (a : String) (k : Nat) :
    (Path.mk (a ++ String.ofList (List.replicate k '/'))).pieces
      = (Path.mk a).pieces ++ List.replicate k "" := by
  induction k with
  | zero => simp
  | succ k ih =>
    have h : a ++ String.ofList (List.replicate (k + 1) '/')
        = (a ++ String.ofList (List.replicate k '/')) ++ "/" ++ "" :=
      String.ext (by simp [List.replicate_succ'])
    rw [h, Path.pieces_append_slash, ih, List.append_assoc, Path.pieces_empty,
      ← List.replicate_succ']

theorem withoutSlashes_pieces (p : Path) :
    ∃ k, p.pieces = (withoutSlashes p).pieces ++ List.replicate k "" := by
  obtain ⟨k, hk⟩ := withoutSlashes_text p
  exact ⟨k, by rw [← pieces_append_slashes, ← hk]⟩

theorem isAbsolute_withoutSlashes (p : Path) : (withoutSlashes p).isAbsolute = p.isAbsolute := by
  obtain ⟨k, hk⟩ := withoutSlashes_text p
  by_cases he : (withoutSlashes p).text = ""
  · unfold withoutSlashes at he ⊢
    split
    · rfl
    · rename_i h
      simp only [h] at he
      exact absurd (by simpa using he) h
  · obtain ⟨c, cs, hc⟩ := List.exists_cons_of_ne_nil (l := (withoutSlashes p).text.toList)
      (by simpa using he)
    simp [Path.isAbsolute, hk, hc]

theorem withoutSlashes_of_not_endsWith {p : Path} (h : Text.endsWith "/" p.text = false) :
    withoutSlashes p = p := by
  have hdrop : p.text.toList.reverse.dropWhile (· == '/') = p.text.toList.reverse := by
    cases hr : p.text.toList.reverse with
    | nil => rfl
    | cons c cs =>
      have hc : c ≠ '/' := by
        rintro rfl
        simp [Text.endsWith, Text.beforeTail, Text.afterHeadChars, hr] at h
      simp [hc]
  unfold withoutSlashes
  split
  · rfl
  · simp [Text.trimEndOf, Text.dropEndWhile, hdrop]

/-! ## Directories -/

theorem makeDirectory_eq {p : Path} (h : t.makeDirectory p = .ok t') :
    ∃ place, t.place (withoutSlashes p) = .ok place ∧ t.entry? place = none ∧
      t' = t.set place .directory := by
  simp only [makeDirectory, bind, Except.bind] at h
  split at h
  · cases h
  · rename_i place hplace
    split at h
    · cases h
    · rename_i hnone
      exact ⟨place, hplace, hnone, by cases h; rfl⟩

theorem makeDirectory_adds (ht : t.WellFormed) {p : Path} (h : t.makeDirectory p = .ok t') :
    AddsDirectories t t' := by
  obtain ⟨place, hplace, hnone, rfl⟩ := makeDirectory_eq h
  have hp : place ≠ [] := by rintro rfl; cases hnone
  have habove := walk_parent ht (walk_of_place hplace) (Path.pieces_ne_nil _) hnone
  exact Changes.set hp habove (by rw [hnone]; simp) (by rw [hnone]; exact .directory)

theorem ensureDirectory_adds (ht : t.WellFormed) (p : Path) :
    AddsDirectories t (t.ensureDirectory p).2 := by
  unfold ensureDirectory
  split
  · rename_i h; exact makeDirectory_adds ht h
  · exact .refl t

theorem makeDirectoriesFrom_adds (fuel : Nat) (ht : t.WellFormed) (p : Path) :
    AddsDirectories t (makeDirectoriesFrom fuel t p).2 := by
  induction fuel generalizing t p with
  | zero => exact .refl t
  | succ fuel ih =>
    rw [makeDirectoriesFrom]
    dsimp only
    have hfirst := ensureDirectory_adds ht p
    split
    · exact .refl t
    · split
      · split
        · exact hfirst
        · rename_i parent _
          have habove := hfirst.trans (ih (hfirst.wellFormed ht) parent)
          split
          · rename_i heq; rw [heq] at habove; exact habove
          · rename_i heq
            rw [heq] at habove
            exact habove.trans (ensureDirectory_adds (habove.wellFormed ht) p)
      · exact hfirst

/-- Making directories makes directories and nothing else, also when it fails halfway. -/
theorem makeDirectories_adds (ht : t.WellFormed) (p : Path) :
    AddsDirectories t (t.makeDirectories p).2 :=
  makeDirectoriesFrom_adds _ ht p

/-- Idle pieces at the end of a path need a directory and stay in it. -/
theorem walk_replicate_empty {place : List String} (h : t.entry? place = some .directory) (k : Nat) :
    t.walk place (List.replicate k "") = .ok place := by
  induction k with
  | zero => rfl
  | succ k ih =>
    have hlen : ¬ maxName < "".utf8ByteSize := by decide
    rw [List.replicate_succ, walk, h]
    simp only [if_neg hlen, Path.step_empty]
    exact ih

/-- A directory that was made, or was there already, can be walked to. -/
theorem walk_of_ensureDirectory {p : Path} (h : (t.ensureDirectory p).1 = .ok ()) :
    ∃ place, (t.ensureDirectory p).2.walk (t.start p) p.pieces = .ok place := by
  unfold ensureDirectory at h ⊢
  split
  · rename_i t₁ hmade
    obtain ⟨place, hplace, hnone, rfl⟩ := makeDirectory_eq hmade
    have hp : place ≠ [] := by rintro rfl; cases hnone
    obtain ⟨k, hk⟩ := withoutSlashes_pieces p
    have hstart : t.start (withoutSlashes p) = t.start p := by
      simp [start, isAbsolute_withoutSlashes]
    have hthere : (t.set place .directory).walk (t.start p) (withoutSlashes p).pieces = .ok place := by
      refine walk_mono (fun q hq => ?_) (hstart ▸ walk_of_place hplace)
      rw [entry?_set _ hp]
      split
      · rfl
      · exact hq
    refine ⟨place, ?_⟩
    rw [hk, walk_append, hthere]
    exact walk_replicate_empty (by rw [entry?_set _ hp, if_pos rfl]) k
  · rename_i hfail
    simp only [hfail] at h
    split at h
    · rename_i hdir
      simp only [isDirectory, find, bind, Except.bind] at hdir
      cases hplace : t.place p with
      | error e => simp [hplace] at hdir
      | ok place => exact ⟨place, walk_of_place hplace⟩
    · cases h

theorem walk_of_makeDirectoriesFrom {p : Path} (ht : t.WellFormed) (hp : p.text ≠ "") (fuel : Nat)
    (h : (makeDirectoriesFrom (fuel + 1) t p).1 = .ok ()) :
    ∃ place, (makeDirectoriesFrom (fuel + 1) t p).2.walk (t.start p) p.pieces = .ok place := by
  have h₁ := ensureDirectory_adds ht p
  rw [makeDirectoriesFrom] at h ⊢
  simp only [beq_iff_eq, hp, if_false] at h ⊢
  split at h
  · rename_i hmissing
    cases hparent : p.parent? with
    | none =>
      simp only [hparent] at h
      rw [h] at hmissing
      cases hmissing
    | some parent =>
      have h₂ := makeDirectoriesFrom_adds fuel (h₁.wellFormed ht) parent
      simp only [hparent] at h
      split at h
      · cases h
      · rename_i t₂ hmade
        rw [hmade] at h₂
        have hcurrent : t₂.current = t.current := h₂.current.trans h₁.current
        have hstart : t₂.start p = t.start p := by simp [start, hcurrent]
        simp only [hmissing, if_true, hmade]
        exact hstart ▸ walk_of_ensureDirectory h
  · rename_i hmissing
    rw [if_neg hmissing]
    exact walk_of_ensureDirectory h

theorem walk_of_makeDirectories {p : Path} (ht : t.WellFormed) (hp : p.text ≠ "")
    (h : (t.makeDirectories p).1 = .ok ()) :
    ∃ place, (t.makeDirectories p).2.walk (t.start p) p.pieces = .ok place :=
  walk_of_makeDirectoriesFrom ht hp _ h

/-! ## Files -/

theorem write_eq {p : Path} {text : String} (h : t.write p text = .ok t') :
    t.place p = .ok (p.placeFrom t.current) ∧
      t.entry? (p.placeFrom t.current) ≠ some .directory ∧
      t' = t.set (p.placeFrom t.current) (.file text) := by
  simp only [write, bind, Except.bind] at h
  split at h
  · cases h
  · rename_i place hplace
    split at h
    · cases h
    · rename_i hdir
      split at h
      · cases h
      · rename_i hslash
        rw [withoutSlashes_of_not_endsWith (by simpa using hslash)] at hplace
        obtain rfl := place_eq hplace
        exact ⟨hplace, hdir, by cases h; rfl⟩

/-- Writing a file changes the place that its path leads to and no other. -/
theorem write_changes {inside may : List String → Prop} (ht : t.WellFormed) {p : Path}
    {text : String} (h : t.write p text = .ok t') (hin : inside (p.placeFrom t.current))
    (hmay : ∀ old, t.entry? (p.placeFrom t.current) = some (.file old) →
      may (p.placeFrom t.current)) :
    Changes inside may t t' := by
  obtain ⟨hplace, hdir, rfl⟩ := write_eq h
  have hp : p.placeFrom t.current ≠ [] := by
    intro hnil
    rw [hnil] at hdir
    exact hdir (entry?_nil t)
  cases he : t.entry? (p.placeFrom t.current) with
  | none =>
    have habove := walk_parent ht (walk_of_place hplace) (Path.pieces_ne_nil _) he
    exact Changes.set hp habove hdir (by rw [he]; exact .created text hin)
  | some e =>
    have habove := wellFormed_iff.1 ht _ _ hp he
    cases e with
    | directory => exact absurd he hdir
    | file old =>
      exact Changes.set hp habove hdir (by rw [he]; exact .replaced old text hin (hmay old he))

end Scaffold.FileTree
