import Scaffold.ImportTable

/-!
# Documents stay where they are

A file that is being parsed keeps its mark until it is finished, and a finished document is never
replaced.

* `state?_setState`: the table behaves as a map from what paths mean to states.
* `parse_kept`: from starting a file to finishing it, nothing there was before is lost, and the
  document is found under its path.
-/

namespace Scaffold

theorem Path.same_iff {p q : Path} : p.same q = true ↔ p.parts = q.parts := by
  simp [Path.same]

namespace ImportTable

variable {t t' t₁ t₂ : ImportTable} {p q path : Path} {d d' : Source.Document}

/-- The state of a file among some entries. -/
theorem find?_setState (path : Path) (state : ImportState) (q : Path) :
    ∀ entries : List (Path × ImportState),
      ((setState path state entries).find? (·.1.same q)).map (·.2)
        = if path.same q then some state else (entries.find? (·.1.same q)).map (·.2)
  | [] => by
    by_cases h : path.same q <;> simp [setState, h]
  | (p, s) :: rest => by
    by_cases hp : p.same path
    · have hq : p.same q = path.same q := by
        rw [Path.same, Path.same, Path.same_iff.1 hp]
      by_cases h : path.same q <;> simp [setState, hp, hq, h]
    · rw [setState, if_neg hp, List.find?_cons, List.find?_cons]
      by_cases h : p.same q
      · -- An entry of the file asked for is not an entry of the file that is set.
        have hne : path.same q = false := by
          rw [Bool.eq_false_iff]
          intro hq
          exact hp (Path.same_iff.2 ((Path.same_iff.1 h).trans (Path.same_iff.1 hq).symm))
        simp [h, hne]
      · simp only [Bool.not_eq_true] at h
        simp only [h]
        exact find?_setState path state q rest

theorem state?_congr (h : p.same q = true) : t.state? p = t.state? q := by
  have hsame : ∀ r : Path, r.same p = r.same q := fun r => by
    rw [Path.same, Path.same, Path.same_iff.1 h]
  simp only [state?, hsame]

theorem get?_eq_some_iff : t.get? p = some d ↔ t.state? p = some (.parsed d) := by
  unfold get?
  split <;> simp_all

theorem isInProgress_iff : t.isInProgress p = true ↔ t.state? p = some .inProgress := by
  unfold isInProgress
  split <;> simp_all

/-- A file that is started was not there before, and has the mark now. -/
theorem begin_none (h : t.begin path = .ok (none, t')) :
    t.state? path = none ∧ t'.completed = t.completed ∧
      ∀ q, t'.state? q = if path.same q then some .inProgress else t.state? q := by
  unfold begin at h
  split at h
  · cases h
  · cases h
  · cases h
    exact ⟨by assumption, rfl, fun q => find?_setState path .inProgress q t.entries⟩

theorem begin_some (h : t.begin path = .ok (some d, t')) : t.get? path = some d := by
  unfold begin at h
  split at h
  · cases h
    exact get?_eq_some_iff.2 (by assumption)
  · cases h
  · cases h

theorem state?_finish (path : Path) (d : Source.Document) (q : Path) :
    (t.finish path d).state? q = if path.same q then some (.parsed d) else t.state? q :=
  find?_setState path (.parsed d) q t.entries

/-- Starting a file leaves the documents as they are. -/
theorem get?_begin (h : t.begin path = .ok (none, t')) (q : Path) : t'.get? q = t.get? q := by
  obtain ⟨hnew, -, hstate⟩ := begin_none h
  unfold get?
  rw [hstate]
  by_cases hsame : path.same q = true
  · rw [if_pos hsame, ← state?_congr hsame, hnew]
  · rw [if_neg hsame]

/-- Finishing a file adds its document and leaves the others as they are. -/
theorem get?_finish_of_isInProgress (hpath : t.isInProgress path = true) :
    (t.finish path d).get? q = some d' ↔ t.get? q = some d' ∨ path.same q = true ∧ d' = d := by
  rw [get?_eq_some_iff, get?_eq_some_iff, state?_finish]
  split
  · rename_i hsame
    rw [isInProgress_iff, state?_congr hsame] at hpath
    rw [hpath]
    simp [hsame, eq_comm]
  · rename_i hsame
    simp [hsame]

/-- What is known of the files when a session goes on: documents and marks stay. -/
structure Kept (t t' : ImportTable) : Prop where
  documents : ∀ {p d}, t.get? p = some d → t'.get? p = some d
  inProgress : ∀ {p}, t.isInProgress p = true → t'.isInProgress p = true
  completed : ∃ more, t'.completed = t.completed ++ more

theorem Kept.refl (t : ImportTable) : Kept t t :=
  ⟨id, id, [], (List.append_nil _).symm⟩

theorem Kept.trans (h : Kept t t₁) (h' : Kept t₁ t₂) : Kept t t₂ where
  documents hd := h'.documents (h.documents hd)
  inProgress hp := h'.inProgress (h.inProgress hp)
  completed := by
    obtain ⟨more, hs⟩ := h.completed
    obtain ⟨more', hs'⟩ := h'.completed
    exact ⟨more ++ more', by rw [hs', hs, List.append_assoc]⟩

/-- A file is started, others are parsed, and the file is finished. -/
theorem parse_kept (hbegin : t.begin path = .ok (none, t₁)) (hkept : Kept t₁ t₂) :
    Kept t (t₂.finish path d) := by
  obtain ⟨hnew, hcompleted, hstate⟩ := begin_none hbegin
  -- Whatever had a state before is another file.
  have hother : ∀ {q state}, t.state? q = some state → path.same q = false := by
    intro q state hq
    rw [Bool.eq_false_iff]
    intro hsame
    rw [← state?_congr hsame, hnew] at hq
    cases hq
  refine ⟨fun {q d'} hq => ?_, fun {q} hq => ?_, ?_⟩
  · have hne := hother (get?_eq_some_iff.1 hq)
    rw [get?_eq_some_iff, state?_finish, hne]
    refine get?_eq_some_iff.1 (hkept.documents ?_)
    rw [get?_eq_some_iff, hstate, hne]
    exact get?_eq_some_iff.1 hq
  · have hne := hother (isInProgress_iff.1 hq)
    rw [isInProgress_iff, state?_finish, hne]
    refine isInProgress_iff.1 (hkept.inProgress ?_)
    rw [isInProgress_iff, hstate, hne]
    exact isInProgress_iff.1 hq
  · obtain ⟨more, hmore⟩ := hkept.completed
    exact ⟨more ++ [path], by rw [finish, hmore, hcompleted, List.append_assoc]⟩

theorem get?_finish (path : Path) (d : Source.Document) : (t.finish path d).get? path = some d := by
  rw [get?_eq_some_iff, state?_finish, if_pos (Path.same_iff.2 rfl)]

/-- Finished documents are found under their own path. -/
def Held (t : ImportTable) : Prop :=
  ∀ {p d}, t.get? p = some d → t.get? d.path = some d

/-- Finishing a file leaves all documents under their own path. -/
theorem Held.finish (h : t.Held) (hpath : t.isInProgress d.path = true) :
    (t.finish d.path d).Held := by
  intro q d' hq
  obtain hq | ⟨-, rfl⟩ := (get?_finish_of_isInProgress hpath).1 hq
  · exact (get?_finish_of_isInProgress hpath).2 (.inl (h hq))
  · exact get?_finish d'.path d'

theorem Held.begin (h : t.Held) (hbegin : t.begin path = .ok (none, t')) : t'.Held := by
  intro q d hq
  rw [get?_begin hbegin] at hq ⊢
  exact h hq

end ImportTable

end Scaffold
