import Scaffold.Proofs.Parser.Apart

/-!
# What stands before a declaration

A declaration may start with annotations. They are put into one block, and say which platforms the
declaration is for.

* `takeAnnotations`: the block, and the tokens behind the annotations.
* `header_run`: a declaration takes the next number.
-/

namespace Scaffold

namespace AnnotationBlock

/-- A key is not in the block. -/
def Lacks (key : String) (b : AnnotationBlock) : Prop :=
  ∀ x ∈ b.entries, x.1 ≠ key

variable {key : String} {b b' : AnnotationBlock}

theorem Lacks.insert {k : String} {v : AnnotationValue} (h : b.Lacks key) (hk : k ≠ key) :
    (b.insert k v).Lacks key := by
  have hset : ∀ entries : List (String × AnnotationValue), (∀ x ∈ entries, x.1 ≠ key) →
      ∀ x ∈ setEntry k v entries, x.1 ≠ key := by
    intro entries
    induction entries with
    | nil => simp [setEntry, hk]
    | cons x rest ih =>
      intro hall
      obtain ⟨hx, hrest⟩ := List.forall_mem_cons.1 hall
      rw [setEntry]
      split
      · exact List.forall_mem_cons.2 ⟨hx, hrest⟩
      · exact List.forall_mem_cons.2 ⟨hx, ih hrest⟩
  exact hset b.entries h

theorem Lacks.insertAll (h : b.Lacks key) {pairs : List (String × AnnotationValue)}
    (hpairs : ∀ x ∈ pairs, x.1 ≠ key) : (b.insertAll pairs).Lacks key := by
  unfold AnnotationBlock.insertAll
  induction pairs generalizing b with
  | nil => exact h
  | cons x rest ih =>
    exact ih (h.insert (hpairs x List.mem_cons_self)) fun y hy => hpairs y (List.mem_cons_of_mem _ hy)

theorem Lacks.merge (h : b.Lacks key) (h' : b'.Lacks key) : (b.merge b').Lacks key :=
  h.insertAll h'

theorem lacks_empty (key : String) : Lacks key {} :=
  fun _ hx => nomatch hx

theorem lacks_ofPairs {pairs : List (String × AnnotationValue)} (h : ∀ x ∈ pairs, x.1 ≠ key) :
    (ofPairs pairs).Lacks key :=
  (lacks_empty key).insertAll h

theorem Lacks.get? (h : b.Lacks key) : b.get? key = none := by
  have hnone : b.entries.find? (·.1 == key) = none :=
    List.find?_eq_none.2 fun x hx => by simpa using h x hx
  rw [AnnotationBlock.get?, hnone]
  rfl

/-- A declaration that names no platforms takes part whatever the target is. -/
theorem Lacks.isActive (h : b.Lacks "platform") (s : Session) : s.isActive b = true := by
  unfold Session.isActive text?
  rw [h.get?]
  cases s.platform <;> rfl

end AnnotationBlock

namespace Source.Parser

/-- The annotations that the tokens start with, put into a block, and the tokens after them. -/
def takeAnnotations : AnnotationBlock → List Token → AnnotationBlock × List Token
  | b, ⟨.annotations pairs, _⟩ :: ts => takeAnnotations (b.merge (.ofPairs pairs)) ts
  | b, ts => (b, ts)

theorem takeAnnotations_lacks {b : AnnotationBlock} {ts : List Token} (hts : Unmarked ts)
    (hb : b.Lacks "platform") : (takeAnnotations b ts).1.Lacks "platform" := by
  fun_induction takeAnnotations b ts with
  | case1 b pairs pos ts ih =>
    refine ih (hts.suffix (List.suffix_cons _ _)) (hb.merge (AnnotationBlock.lacks_ofPairs ?_))
    exact hts _ List.mem_cons_self
  | case2 b ts => exact hb

theorem annotationsFuel_run (env : ParserEnv) : ∀ (fuel : Nat) (b : AnnotationBlock)
    (s : ParserState), s.rest.length < fuel → annotations.annotationsFuel fuel b env s =
      (.ok (takeAnnotations b s.rest).1, { s with rest := (takeAnnotations b s.rest).2 })
  | 0, _, _, hfuel => absurd hfuel (Nat.not_lt_zero _)
  | fuel + 1, b, s, hfuel => by
    rcases s with ⟨_ | ⟨⟨kind, pos⟩, ts⟩, seq, owner, imports, session⟩
    · rfl
    · cases kind with
      | annotations pairs =>
        exact annotationsFuel_run env fuel _ ⟨ts, _, _, _, _⟩ (Nat.lt_of_succ_lt_succ hfuel)
      | _ => rfl

theorem annotations_run (env : ParserEnv) (s : ParserState) : annotations env s =
    (.ok (takeAnnotations {} s.rest).1, { s with rest := (takeAnnotations {} s.rest).2 }) :=
  (bind_run rfl).trans (annotationsFuel_run env _ {} s (Nat.lt_succ_self _))

/-- A declaration takes the next number, and its annotations say whether it takes part. -/
theorem header_run (env : ParserEnv) (s : ParserState) : header env s =
    (.ok (⟨s.session.nextNode, ((takeAnnotations {} s.rest).2.headD ⟨.eof, {}⟩).pos,
        (takeAnnotations {} s.rest).1⟩, s.session.isActive (takeAnnotations {} s.rest).1),
      { s with rest := (takeAnnotations {} s.rest).2, session := s.session.takeNode.2 }) :=
  bind_run (annotations_run env s)

end Source.Parser

end Scaffold
