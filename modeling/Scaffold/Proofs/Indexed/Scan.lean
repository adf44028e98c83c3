import Mathlib.Algebra.Group.Int.Defs
import Mathlib.Algebra.Group.Nat.Defs
import Mathlib.Data.List.Basic
import Scaffold.Text.Basic

/-!
# Reading by index

A scanner keeps an index into a text: it reads the character there, looks at the ones beside it, and
cuts out what lies between two indices it has kept. `Scan` is what such a scanner comes to when
every access outside of the text, every difference below zero and every negation that leaves the
range of a machine integer is a fault. A loop is given fuel, and to run out of it is a fault as
well, so that a scanner that is `done`, or that has `refused` the text, has also ended by itself.

* `item`, `slice`, `minus`, `negate`: the operations that can fault.
* `Follows`: an indexed scanner does what a reader of the rest of the text does, which has no index
  to go wrong with.
-/

namespace Scaffold.Indexed

/-- What a scanner of an indexed text comes to. -/
inductive Scan (ε α : Type) where
  /-- An access outside of the text, or a number outside of its range. -/
  | fault
  /-- The text is wrong. -/
  | refused (e : ε)
  | done (a : α)

variable {α β γ δ ε σ τ : Type}

namespace Scan

/-- A fault or an error ends a scan. -/
def bind : Scan ε α → (α → Scan ε β) → Scan ε β
  | fault, _ => fault
  | refused e, _ => refused e
  | done a, f => f a

instance : Monad (Scan ε) where
  pure := done
  bind := bind

/-- A result that took no index. -/
def ofExcept : Except ε α → Scan ε α
  | .ok a => done a
  | .error e => refused e

@[simp] theorem pure_eq (a : α) : (pure a : Scan ε α) = done a := rfl

@[simp] theorem done_bind (a : α) (f : α → Scan ε β) : (done a >>= f) = f a := rfl

@[simp] theorem refused_bind (e : ε) (f : α → Scan ε β) : (refused e >>= f) = refused e := rfl

@[simp] theorem ofExcept_ok (a : α) : (ofExcept (.ok a) : Scan ε α) = done a := rfl

@[simp] theorem ofExcept_error (e : ε) : (ofExcept (.error e) : Scan ε α) = refused e := rfl

end Scan

open Scan

/-! ## Accesses -/

/-- The item at an index. -/
def item (text : List α) (i : Nat) : Scan ε α :=
  match text[i]? with
  | some a => done a
  | none => fault

/-- The items from one index up to another. -/
def slice (text : List α) (first last : Nat) : Scan ε (List α) :=
  if first ≤ last ∧ last ≤ text.length then done ((text.take last).drop first) else fault

/-- The difference of two numbers that cannot be negative. -/
def minus (n k : Nat) : Scan ε Nat :=
  if k ≤ n then done (n - k) else fault

/-- The negation of a machine integer of 64 bits; the least one has none. -/
def negate (n : Int) : Scan ε Int :=
  if -(2 ^ 63) < n ∧ n < 2 ^ 63 then done (-n) else fault

section

variable {text before middle rest : List α} {a : α}

theorem getElem?_at (htext : before ++ rest = text) (k : Nat) :
    text[before.length + k]? = rest[k]? := by
  subst htext
  rw [List.getElem?_append_right (Nat.le_add_right _ _), Nat.add_sub_cancel_left]

theorem item_at (htext : before ++ a :: rest = text) :
    (item text before.length : Scan ε α) = done a := by
  rw [item, ← Nat.add_zero before.length, getElem?_at htext]
  rfl

theorem length_le_at (htext : before ++ rest = text) :
    text.length ≤ before.length ↔ rest = [] := by
  rw [← htext, List.length_append, ← List.length_eq_zero_iff]
  omega

theorem more_at (htext : before ++ a :: rest = text) : ¬text.length ≤ before.length :=
  fun h => List.cons_ne_nil _ _ ((length_le_at htext).1 h)

theorem append_singleton_at (htext : before ++ a :: rest = text) :
    (before ++ [a]) ++ rest = text := by
  rw [List.append_assoc, List.singleton_append, htext]

theorem length_rest_lt (htext : before ++ rest = text) : rest.length < text.length + 1 := by
  rw [← htext, List.length_append]
  omega

theorem slice_at (htext : before ++ (middle ++ rest) = text) :
    (slice text before.length (before.length + middle.length) : Scan ε (List α)) =
      done middle := by
  subst htext
  rw [slice, if_pos ⟨Nat.le_add_right _ _, by simp⟩, ← List.append_assoc, ← List.length_append,
    List.take_left, List.drop_left]

theorem slice_prefix_at (htext : before ++ rest = text) (h : middle <+: rest) :
    (slice text before.length (before ++ middle).length : Scan ε (List α)) = done middle := by
  obtain ⟨rest, rfl⟩ := h
  rw [List.length_append]
  exact slice_at htext

theorem slice_rest_at (htext : before ++ rest = text) :
    (slice text before.length text.length : Scan ε (List α)) = done rest := by
  have hslice := slice_at (ε := ε) (show before ++ (rest ++ []) = text by simpa using htext)
  rwa [← List.length_append, htext] at hslice

end

theorem minus_of_le {n k : Nat} (h : k ≤ n) : (minus n k : Scan ε Nat) = done (n - k) :=
  if_pos h

theorem negate_natCast {n : Nat} (h : n < 2 ^ 63) :
    (negate (n : Int) : Scan ε Int) = done (-(n : Int)) :=
  if_pos ⟨by omega, by omega⟩

/-! ## Loops over characters -/

theorem not_any_of_ne {o : Option Char} {c : Char} (h : o ≠ some c) : o.any (· == c) = false := by
  cases o <;> simp_all

section

variable (text : List Char)

/-- There is a character at the index, and it is as asked for. -/
def holdsAt (accept : Char → Bool) (i : Nat) : Scan ε Bool :=
  if text.length ≤ i then return false
  else do
    let c ← item text i
    return accept c

/-- The index behind the characters that are accepted. -/
def passFrom (accept : Char → Bool) : (fuel i : Nat) → Scan ε Nat
  | 0, _ => fault
  | fuel + 1, i => do
    if ← holdsAt text accept i then passFrom accept fuel (i + 1) else return i

/-- The index behind the characters that are accepted. -/
def pass (accept : Char → Bool) (i : Nat) : Scan ε Nat :=
  passFrom text accept (text.length + 1) i

/-- The characters that are accepted, cut out of the text. -/
def cut (accept : Char → Bool) (i : Nat) : Scan ε (List Char × Nat) := do
  let last ← pass text accept i
  let cs ← slice text i last
  return (cs, last)

end

section

variable {text before rest : List Char} (accept : Char → Bool)

theorem holdsAt_at (htext : before ++ rest = text) :
    (holdsAt text accept before.length : Scan ε Bool) = done (rest.head?.any accept) := by
  rw [holdsAt]
  cases rest with
  | nil => rw [if_pos ((length_le_at htext).2 rfl)]; rfl
  | cons c rest =>
    rw [if_neg (more_at htext), item_at htext]
    rfl

theorem passFrom_at {fuel : Nat} (htext : before ++ rest = text) (hfuel : rest.length < fuel) :
    (passFrom text accept fuel before.length : Scan ε Nat) =
      done (before ++ rest.takeWhile accept).length := by
  induction fuel generalizing before rest with
  | zero => exact absurd hfuel (Nat.not_lt_zero _)
  | succ fuel ih =>
    rw [passFrom, holdsAt_at accept htext, done_bind]
    cases rest with
    | nil => simp
    | cons c rest =>
      cases hc : accept c with
      | false => simp [hc]
      | true =>
        have hrest := ih (append_singleton_at htext) (Nat.lt_of_succ_lt_succ hfuel)
        simpa [hc, Nat.add_assoc, Nat.add_comm] using hrest

theorem pass_at (htext : before ++ rest = text) :
    (pass text accept before.length : Scan ε Nat) =
      done (before ++ rest.takeWhile accept).length :=
  passFrom_at accept htext (length_rest_lt htext)

theorem slice_takeWhile_at (htext : before ++ rest = text) :
    (slice text before.length (before ++ rest.takeWhile accept).length : Scan ε (List Char)) =
      done (rest.takeWhile accept) :=
  slice_prefix_at htext (List.takeWhile_prefix _)

theorem cut_at (htext : before ++ rest = text) :
    (cut text accept before.length : Scan ε (List Char × Nat)) =
      done (rest.takeWhile accept, (before ++ rest.takeWhile accept).length) := by
  rw [cut, pass_at accept htext, done_bind, slice_takeWhile_at accept htext]
  rfl

end

/-! ## Scanners and readers -/

/-- How a place in a text is kept: by a scanner, which has passed `before`, and by a reader, which
has `rest` before it; and how the errors of the reader are reported. -/
structure View (τ σ δ ε : Type) where
  place : (before : List Char) → τ
  left : (before rest : List Char) → σ
  error : δ → ε

/-- What a reader comes to, as a scanner reports it. -/
def View.result (v : View τ σ δ ε) : Except δ α → Scan ε α
  | .ok a => done a
  | .error e => refused (v.error e)

/-- A scanner gives what a reader of the rest gives, and both stop at the same place of the text. -/
inductive Follows (v : View τ σ δ ε) (text : List Char) :
    Scan ε (α × τ) → Except δ (α × σ) → Prop where
  | done (a : α) {before rest : List Char} (htext : before ++ rest = text) :
    Follows v text (.done (a, v.place before)) (.ok (a, v.left before rest))
  | refused (e : δ) : Follows v text (.refused (v.error e)) (.error e)

namespace Follows

variable {v : View τ σ δ ε} {text : List Char} {scan : Scan ε (α × τ)} {read : Except δ (α × σ)}

theorem of_ok {a : α} {s : σ} (h : Follows v text scan (.ok (a, s))) :
    ∃ before rest, before ++ rest = text ∧ v.left before rest = s ∧
      scan = .done (a, v.place before) := by
  cases h with
  | done a htext => exact ⟨_, _, htext, rfl, rfl⟩

theorem of_error {e : δ} (h : Follows v text scan (.error e)) : scan = .refused (v.error e) := by
  cases h
  rfl

theorem bind {next : α × τ → Scan ε (β × τ)} {next' : α × σ → Except δ (β × σ)}
    (h : Follows v text scan read)
    (hnext : ∀ a before rest, before ++ rest = text → read = .ok (a, v.left before rest) →
      Follows v text (next (a, v.place before)) (next' (a, v.left before rest))) :
    Follows v text (scan >>= next) (read >>= next') := by
  cases h with
  | done a htext => exact hnext a _ _ htext rfl
  | refused e => exact .refused e

/-- A scanner that goes on to a result without a place. -/
theorem bind_result {next : α × τ → Scan ε β} {next' : α × σ → Except δ β}
    (h : Follows v text scan read)
    (hnext : ∀ a before rest, before ++ rest = text → read = .ok (a, v.left before rest) →
      next (a, v.place before) = v.result (next' (a, v.left before rest))) :
    (scan >>= next) = v.result (read >>= next') := by
  cases h with
  | done a htext => exact hnext a _ _ htext rfl
  | refused e => rfl

theorem congr {read' : Except δ (α × σ)} (h : Follows v text scan read) (hread : read = read') :
    Follows v text scan read' :=
  hread ▸ h

theorem map (f : α → β) (h : Follows v text scan read) :
    Follows v text (scan >>= fun x => pure (f x.1, x.2)) (read >>= fun x => pure (f x.1, x.2)) :=
  h.bind fun a _ _ htext _ => .done (f a) htext

end Follows

end Scaffold.Indexed
