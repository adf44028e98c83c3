import Scaffold.Proofs.FileTree.Canonical

/-!
# The course of a path

Read from a place, a path leads some levels up and then down through names (`Path.placeFrom_eq`). The
text alone does not tell how many levels there are above a place, and a path whose dots are resolved by
text alone keeps of the levels that it leads up only whether their number is even
(`Path.parts_normalize`, `Path.Course.normal_inj`).
-/

namespace Scaffold

namespace Path

/-! ## The course of a path -/

/-- How many levels a path leads above the place it starts from, and the names it then goes down. -/
structure Course where
  up : Nat := 0
  down : List String := []
  deriving DecidableEq

namespace Course

/-- The course with one part more. The root and a leading dot lead nowhere. -/
def step (c : Course) : Part → Course
  | .root | .here => c
  | .up => if c.down.isEmpty then { c with up := c.up + 1 } else { c with down := c.down.dropLast }
  | .name s => { c with down := c.down ++ [s] }

/-- Where a course leads from a place. There is nothing above the root. -/
def leadsTo (c : Course) (place : List String) : List String :=
  place.take (place.length - c.up) ++ c.down

/-- The parts that are left of a path when its dots are resolved by text alone: of the levels that it
leads above its start, every second one takes back the one before. -/
def normal (absolute : Bool) (c : Course) : List Part :=
  (if absolute then [.root] else []) ++ List.replicate (c.up % 2) .up ++ c.down.map .name

end Course

/-- The course of a path. -/
def course (p : Path) : Course :=
  p.parts.foldl Course.step {}

/-- The parts of a path are what it starts with, and then a step up or a name for each piece that
stands for one. -/
theorem parts_eq (p : Path) : ∃ start : List Part,
    p.parts = (if p.isAbsolute then [.root] else []) ++ start ++ p.pieces.filterMap Part.ofPiece? ∧
      (start = [] ∨ start = [.here]) := by
  unfold parts
  by_cases habsolute : p.isAbsolute = true
  · exact ⟨[], by simp [habsolute], .inl rfl⟩
  · by_cases hdot : p.pieces.head? = some "."
    · exact ⟨[.here], by simp [habsolute, hdot], .inr rfl⟩
    · exact ⟨[], by simp [habsolute, hdot], .inl rfl⟩

theorem course_eq (p : Path) :
    p.course = (p.pieces.filterMap Part.ofPiece?).foldl Course.step {} := by
  obtain ⟨start, hparts, rfl | rfl⟩ := parts_eq p
  · rw [course, hparts]
    split <;> rfl
  · rw [course, hparts]
    split <;> rfl

/-- A piece leads from where a course leads to where the course with its part leads. -/
theorem step_leadsTo (c : Course) (place : List String) (piece : String) :
    FileTree.step (c.leadsTo place) piece =
      ((Part.ofPiece? piece).elim c c.step).leadsTo place := by
  unfold FileTree.step Part.ofPiece?
  split
  · rfl
  · split
    · unfold Course.leadsTo
      simp only [Option.elim_some, Course.step, List.isEmpty_iff]
      split
      · rename_i hdown
        simp only [hdown, List.append_nil, List.dropLast_eq_take, List.take_take, List.length_take]
        congr 1
        omega
      · rename_i hdown
        rw [List.dropLast_append_of_ne_nil hdown]
    · simp only [Option.elim_some, Course.step, Course.leadsTo, List.append_assoc]

/-- A path leads where its course does. -/
theorem placeFrom_eq (p : Path) (current : List String) :
    p.placeFrom current = p.course.leadsTo (if p.isAbsolute then [] else current) := by
  have hpieces : ∀ (pieces : List String) (c : Course) (place : List String),
      pieces.foldl FileTree.step (c.leadsTo place)
        = ((pieces.filterMap Part.ofPiece?).foldl Course.step c).leadsTo place := by
    intro pieces
    induction pieces with
    | nil => exact fun _ _ => rfl
    | cons piece rest ih =>
      intro c place
      rw [List.foldl_cons, step_leadsTo, ih, List.filterMap_cons]
      cases Part.ofPiece? piece with
      | none => rfl
      | some part => rfl
  rw [course_eq, placeFrom, ← hpieces]
  simp [Course.leadsTo]

/-! ## Resolving dots by text alone -/

/-- One part more changes the key of a course as it changes the course. -/
theorem stepNormal_normal (absolute : Bool) (c : Course) {part : Part} (hroot : part ≠ .root) :
    stepNormal (c.normal absolute) part = (c.step part).normal absolute := by
  obtain ⟨up, down⟩ := c
  cases part with
  | root => exact absurd rfl hroot
  | here => rfl
  | name s => simp [stepNormal, Course.step, Course.normal]
  | up =>
    obtain rfl | ⟨names, last, rfl⟩ := down.eq_nil_or_concat
    · obtain hup | hup := Nat.mod_two_eq_zero_or_one up
      · have hup' : (up + 1) % 2 = 1 := by omega
        cases absolute <;> simp [stepNormal, Course.step, Course.normal, hup, hup']
      · have hup' : (up + 1) % 2 = 0 := by omega
        cases absolute <;> simp [stepNormal, Course.step, Course.normal, hup, hup']
    · simp [stepNormal, Course.step, Course.normal, List.getLast?_append, ← List.append_assoc]

/-- A part that a piece may stand for. -/
def Part.Plain : Part → Prop
  | .up => True
  | .name s => IsName s
  | .root | .here => False

theorem plain_of_mem (p : Path) : ∀ part ∈ p.pieces.filterMap Part.ofPiece?, part.Plain := by
  intro part hpart
  obtain ⟨piece, hpiece, h⟩ := List.mem_filterMap.1 hpart
  unfold Part.ofPiece? at h
  split at h
  · cases h
  · rename_i hidle
    split at h
    · cases h
      trivial
    · rename_i hup
      cases h
      simp only [Bool.or_eq_true, beq_iff_eq, not_or] at hidle hup
      exact ⟨hidle.1, hidle.2, hup, slash_not_mem_of_mem_pieces hpiece⟩

namespace Part.Plain

variable {part : Part}

theorem ofPiece?_text (h : part.Plain) : ofPiece? part.text = some part := by
  cases part with
  | up => rfl
  | name s =>
    obtain ⟨hempty, hdot, hup, -⟩ := h
    simp [ofPiece?, text, hempty, hdot, hup]
  | root | here => exact h.elim

theorem text_ne_empty (h : part.Plain) : part.text ≠ "" := by
  cases part with
  | up => decide
  | name s => exact h.1
  | root | here => exact h.elim

theorem text_ne_dot (h : part.Plain) : part.text ≠ "." := by
  cases part with
  | up => decide
  | name s => exact h.2.1
  | root | here => exact h.elim

theorem slash_not_mem_text (h : part.Plain) : '/' ∉ part.text.toList := by
  cases part with
  | up => decide
  | name s => exact h.2.2.2
  | root | here => exact h.elim

end Part.Plain

section

variable {ps : List Part} (h : ∀ part ∈ ps, part.Plain)

include h

theorem filterMap_text : (ps.map Part.text).filterMap Part.ofPiece? = ps := by
  rw [List.filterMap_map]
  exact (List.filterMap_congr fun part hpart => (h part hpart).ofPiece?_text).trans
    (List.filterMap_some ..)

theorem filterMap_pieces :
    (Path.mk (Text.joinWith "/" (ps.map Part.text))).pieces.filterMap Part.ofPiece? = ps := by
  by_cases hps : ps = []
  · subst hps
    decide
  · rw [pieces_joinWith (by simpa using hps) fun x hx => ?_, filterMap_text h]
    obtain ⟨part, hpart, rfl⟩ := List.mem_map.1 hx
    exact (h part hpart).slash_not_mem_text

/-- An absolute path that is put together from parts has these parts. -/
theorem parts_absolute : (ofParts (.root :: ps)).parts = .root :: ps := by
  have htext : ofParts (.root :: ps) = ⟨"" ++ "/" ++ Text.joinWith "/" (ps.map Part.text)⟩ := by
    rw [ofParts, String.empty_append]
  have habsolute : (ofParts (.root :: ps)).isAbsolute = true := by simp [isAbsolute, ofParts]
  have hskip : Part.ofPiece? "" = none := rfl
  rw [parts, if_pos habsolute, htext, pieces_append_slash, pieces_empty, List.cons_append,
    List.nil_append, List.filterMap_cons, hskip]
  exact congrArg _ (filterMap_pieces h)

/-- A relative path that is put together from parts has these parts. -/
theorem parts_relative : (ofParts ps).parts = ps := by
  cases ps with
  | nil => decide
  | cons part rest =>
    have htext : ofParts (part :: rest)
        = ⟨Text.joinWith "/" ((part :: rest).map Part.text)⟩ := by
      cases part with
      | root => exact (h _ List.mem_cons_self).elim
      | here | up | name => rfl
    rw [htext]
    have hpart := h part List.mem_cons_self
    obtain ⟨c, cs, hc⟩ := List.exists_cons_of_ne_nil (l := part.text.toList)
      (by simpa using hpart.text_ne_empty)
    have hslash : c ≠ '/' := fun heq => hpart.slash_not_mem_text (by simp [hc, heq])
    have hrelative : (Path.mk (Text.joinWith "/" ((part :: rest).map Part.text))).isAbsolute
        = false := by
      cases rest <;> simp [isAbsolute, Text.joinWith, hc, hslash]
    have hdot : (Path.mk (Text.joinWith "/" ((part :: rest).map Part.text))).pieces.head?
        ≠ some "." := by
      rw [pieces_joinWith (by simp) fun x hx => ?_]
      · simpa using hpart.text_ne_dot
      · obtain ⟨y, hy, rfl⟩ := List.mem_map.1 hx
        exact (h y hy).slash_not_mem_text
    rw [parts, if_neg (by rw [hrelative]; exact Bool.false_ne_true),
      if_neg (by simpa using hdot)]
    exact filterMap_pieces h

end

theorem isName_down (p : Path) : ∀ x ∈ p.course.down, IsName x := by
  have hfold : ∀ (ps : List Part) (c : Course), (∀ part ∈ ps, part.Plain) →
      (∀ x ∈ c.down, IsName x) → ∀ x ∈ (ps.foldl Course.step c).down, IsName x := by
    intro ps
    induction ps with
    | nil => exact fun _ _ hc => hc
    | cons part rest ih =>
      intro c h hc
      obtain ⟨hpart, hrest⟩ := List.forall_mem_cons.1 h
      refine ih _ hrest fun x hx => ?_
      cases part with
      | root | here => exact hpart.elim
      | name s =>
        obtain hx | hx := List.mem_append.1 hx
        · exact hc x hx
        · rw [List.mem_singleton.1 hx]
          exact hpart
      | up =>
        rw [Course.step] at hx
        split at hx
        · exact hc x hx
        · exact hc x (List.dropLast_subset _ hx)
  rw [course_eq]
  exact hfold _ _ (plain_of_mem p) nofun

/-- The parts of a path whose dots are resolved by text alone. -/
theorem parts_normalize (p : Path) : p.normalize.parts = p.course.normal p.isAbsolute := by
  have hfold : ∀ (ps : List Part) (c : Course), (∀ part ∈ ps, part.Plain) →
      ps.foldl stepNormal (c.normal p.isAbsolute) = (ps.foldl Course.step c).normal p.isAbsolute := by
    intro ps
    induction ps with
    | nil => exact fun _ _ => rfl
    | cons part rest ih =>
      intro c h
      obtain ⟨hpart, hrest⟩ := List.forall_mem_cons.1 h
      rw [List.foldl_cons, stepNormal_normal _ _ fun hroot => by rw [hroot] at hpart; exact hpart,
        ih _ hrest]
      rfl
  have hkept : p.parts.foldl stepNormal [] = p.course.normal p.isAbsolute := by
    rw [course_eq, ← hfold _ _ (plain_of_mem p)]
    obtain ⟨start, hparts, rfl | rfl⟩ := parts_eq p
    · rw [hparts]
      cases p.isAbsolute <;> rfl
    · rw [hparts]
      cases p.isAbsolute <;> rfl
  rw [normalize, hkept]
  have hnormal : ∀ part ∈ p.course.normal false, part.Plain := by
    intro part hpart
    rw [Course.normal, if_neg Bool.false_ne_true, List.nil_append, List.mem_append] at hpart
    obtain hpart | hpart := hpart
    · rw [(List.mem_replicate.1 hpart).2]
      trivial
    · obtain ⟨x, hx, rfl⟩ := List.mem_map.1 hpart
      exact isName_down p x hx
  cases p.isAbsolute with
  | false => exact parts_relative hnormal
  | true => exact parts_absolute hnormal

/-! ## What a normal form tells -/

namespace Course

variable {a b : Bool} {c d : Course}

theorem root_mem_normal : Part.root ∈ c.normal a ↔ a = true := by
  cases a <;> simp [normal]

theorem count_up_normal : (c.normal a).count .up = c.up % 2 := by
  have hnames : (c.down.map Part.name).count .up = 0 := List.count_eq_zero.2 (by simp)
  rw [normal, List.count_append, List.count_append, List.count_replicate_self, hnames]
  cases a <;> simp

/-- The normal form of a course determines whether it is absolute, its names, and whether the number
of levels that it leads above its start is even. -/
theorem normal_inj :
    c.normal a = d.normal b ↔ a = b ∧ c.up % 2 = d.up % 2 ∧ c.down = d.down := by
  constructor
  · intro h
    have habsolute : a = b := Bool.eq_iff_iff.2 (by
      rw [← root_mem_normal (c := c), h, root_mem_normal])
    have hup : c.up % 2 = d.up % 2 := by
      rw [← count_up_normal (a := a), h, count_up_normal]
    rw [normal, normal, habsolute, hup, List.append_cancel_left_eq] at h
    exact ⟨habsolute, hup, List.map_injective_iff.2 (fun _ _ => Part.name.inj) h⟩
  · rintro ⟨rfl, hup, hdown⟩
    rw [normal, normal, hup, hdown]

end Course

end Path

end Scaffold
