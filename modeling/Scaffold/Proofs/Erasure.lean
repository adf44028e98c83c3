import Mathlib.Data.Option.Basic
import Scaffold.Proofs.Parser.Header

/-!
# Erasing declarations

A declaration that is not for the target is parsed but takes no part. `erasure` leaves it out of the
tokens of a file, and the queries and handlers that are not for the target out of the mappers and
controllers that are.

* `Scan`: where the tokens of a declaration end. A declaration ends with a semicolon, with the braces
  around its members or its body, or with a block of text.
* `cut`: the tokens of a file, declaration by declaration.
* `remains`: what is left of a declaration.
* `mapCuts_append`: what is left of a declaration stands before what is left of those after it.
-/

namespace Scaffold.Source

/-! ## Where declarations end -/

/-- How far a reader has come in a declaration. There is one place where the parser passes over tokens
without a look at them, the precision of a number type, so what stands in parentheses counts for
nothing: `inside` says that the last parenthesis was an opening one. -/
structure Scan where
  inside : Bool := false
  /-- How many braces are open. -/
  depth : Nat := 0
  deriving DecidableEq, Inhabited

namespace Scan

/-- Behind a brace or the like, where so many braces are open: with none, the declaration ends. -/
def behind : (depth : Nat) → Option Scan
  | 0 => none
  | depth + 1 => some ⟨false, depth + 1⟩

/-- Where the reader is after a token of this kind, or nothing if it was the last one. -/
def next (σ : Scan) : TokenKind → Option Scan
  | .punct .parenOpen => some { σ with inside := true }
  | .punct .parenClose => some { σ with inside := false }
  | .punct .braceOpen => some (if σ.inside then σ else { σ with depth := σ.depth + 1 })
  | .punct .braceClose => if σ.inside then some σ else behind (σ.depth - 1)
  | .punct .semicolon | .raw _ => if σ.inside then some σ else behind σ.depth
  | _ => some σ

/-- Tokens lead a reader from one place to another, or to the end of the declaration, and no token
before the last one does that. -/
inductive Leads : Scan → List Token → Option Scan → Prop where
  | nil (σ : Scan) : Leads σ [] (some σ)
  | last {σ : Scan} {t : Token} : σ.next t.kind = none → Leads σ [t] none
  | cons {σ σ' : Scan} {t : Token} {ts : List Token} {τ : Option Scan} : σ.next t.kind = some σ' →
    Leads σ' ts τ → Leads σ (t :: ts) τ

theorem Leads.append {σ σ' : Scan} {ts ts' : List Token} {τ : Option Scan}
    (h : σ.Leads ts (some σ')) (h' : σ'.Leads ts' τ) : σ.Leads (ts ++ ts') τ := by
  generalize hend : some σ' = end' at h
  induction h with
  | nil σ =>
    cases hend
    exact h'
  | last _ => cases hend
  | cons hnext _ ih => exact .cons hnext (ih hend)

end Scan

/-! ## Declaration by declaration -/

/-- The tokens cut behind the last token of each declaration. -/
def cut : Scan → List Token → List (List Token)
  | _, [] => []
  | σ, t :: ts =>
    match σ.next t.kind with
    | none => [t] :: cut {} ts
    | some σ =>
      match cut σ ts with
      | [] => [[t]]
      | c :: cs => (t :: c) :: cs

/-- The tokens of a declaration are cut off from those after it. -/
theorem cut_append {σ : Scan} {c : List Token} (h : σ.Leads c none) (ts : List Token) :
    cut σ (c ++ ts) = c :: cut {} ts := by
  generalize hend : none = τ at h
  induction h with
  | nil σ => cases hend
  | @last σ t hnext =>
    show cut σ (t :: ts) = [t] :: cut {} ts
    rw [cut, hnext]
  | @cons σ σ' t c τ hnext _ ih =>
    show cut σ (t :: (c ++ ts)) = (t :: c) :: cut {} ts
    rw [cut, hnext]
    dsimp only
    rw [ih hend]

/-- Nothing is lost. -/
theorem flatten_cut (σ : Scan) (ts : List Token) : (cut σ ts).flatten = ts := by
  fun_induction cut σ ts with
  | case1 σ => rfl
  | case2 σ t ts hnext ih => rw [List.flatten_cons, ih, List.singleton_append]
  | case3 σ t ts σ' hnext hcut ih =>
    rw [hcut] at ih
    rw [← ih]
    rfl
  | case4 σ t ts σ' hnext c cs hcut ih =>
    rw [hcut] at ih
    rw [← ih]
    rfl

/-- What is left of each declaration, one after the other. -/
def mapCuts (keep : List Token → List Token) (ts : List Token) : List Token :=
  ((cut {} ts).map keep).flatten

/-- All tokens of a declaration are left out, or some behind its first one. -/
structure LeavesOut (keep : List Token → List Token) : Prop where
  sublist : ∀ c, (keep c).Sublist c
  head : ∀ c, keep c ≠ [] → (keep c).head? = c.head?

section

variable {keep : List Token → List Token}

/-- What is left of a declaration stands before what is left of those after it. -/
theorem mapCuts_append {c : List Token} (h : Scan.Leads {} c none) (ts : List Token) :
    mapCuts keep (c ++ ts) = keep c ++ mapCuts keep ts := by
  rw [mapCuts, cut_append h]
  rfl

theorem mapCuts_flatten {cs : List (List Token)} (h : ∀ c ∈ cs, Scan.Leads {} c none)
    (ts : List Token) : mapCuts keep (cs.flatten ++ ts) = (cs.map keep).flatten ++ mapCuts keep ts := by
  induction cs with
  | nil => rfl
  | cons c cs ih =>
    rw [List.flatten_cons, List.append_assoc, mapCuts_append (h c List.mem_cons_self),
      ih fun d hd => h d (List.mem_cons_of_mem c hd), List.map_cons, List.flatten_cons,
      List.append_assoc]

variable (hkeep : LeavesOut keep)
include hkeep

theorem flatten_map_sublist (cs : List (List Token)) :
    ((cs.map keep).flatten).Sublist cs.flatten := by
  induction cs with
  | nil => exact .slnil
  | cons c cs ih => exact (hkeep.sublist c).append ih

/-- Tokens are left out, and nothing else is done to them. -/
theorem mapCuts_sublist (ts : List Token) : (mapCuts keep ts).Sublist ts := by
  have hcuts := flatten_map_sublist hkeep (cut {} ts)
  rwa [flatten_cut] at hcuts

end

/-! ## What is for the target -/

section

variable (imports : Bool) (platform : Option Platform)

/-- The annotations in front of a declaration say that it is not for the target. -/
def isExcluded (d : List Token) : Bool :=
  !({ platform } : Session).isActive (Parser.takeAnnotations {} d).1

/-- The kind of the first token behind the annotations. -/
def leadingKind (d : List Token) : TokenKind :=
  nextKind (Parser.takeAnnotations {} d).2

/-- The declaration has members: it is a mapper or a controller. -/
def hasMembers (d : List Token) : Bool :=
  leadingKind d == .keyword .mapperKw || leadingKind d == .keyword .controllerKw

/-- The token does not open the members of a declaration. -/
def isBeforeMembers (t : Token) : Bool :=
  t.kind != .punct .braceOpen

/-- What is left of a query or handler: nothing if it is not for the target. -/
def memberRemains (m : List Token) : List Token :=
  if isExcluded platform m then [] else m

/-- What is left of a declaration that is for the target: queries and handlers that are not are
taken out. -/
def withoutMembers (d : List Token) : List Token :=
  if hasMembers d then
    d.takeWhile isBeforeMembers ++ (d.dropWhile isBeforeMembers).take 1
      ++ mapCuts (memberRemains platform) ((d.dropWhile isBeforeMembers).drop 1)
  else d

/-- The declaration is left out. With `imports` import statements are left out too, else they stay
whatever their annotations say. -/
def isErased (d : List Token) : Bool :=
  isExcluded platform d && (imports || leadingKind d != .keyword .importKw)

def remains (d : List Token) : List Token :=
  if isErased imports platform d then [] else withoutMembers platform d

/-- What is left of the tokens of a file without all that is not for the target. -/
def erasure (ts : List Token) : List Token :=
  mapCuts (remains imports platform) ts

theorem memberRemains_leavesOut : LeavesOut (memberRemains platform) := by
  refine ⟨fun m => ?_, fun m => ?_⟩ <;> unfold memberRemains <;> split
  · exact List.nil_sublist m
  · exact .refl m
  · exact fun h => absurd rfl h
  · exact fun _ => rfl

/-- A declaration with members keeps its first token. -/
theorem withoutMembers_head? (d : List Token) : (withoutMembers platform d).head? = d.head? := by
  unfold withoutMembers
  split
  · cases d with
    | nil => rfl
    | cons t ts => cases h : isBeforeMembers t <;> simp [h]
  · rfl

theorem withoutMembers_ne_nil {d : List Token} (h : d ≠ []) : withoutMembers platform d ≠ [] := by
  intro hnil
  have hhead := withoutMembers_head? platform d
  rw [hnil] at hhead
  exact h (List.head?_eq_none_iff.1 hhead.symm)

theorem withoutMembers_sublist (d : List Token) : (withoutMembers platform d).Sublist d := by
  unfold withoutMembers
  split
  · have hparts : d.takeWhile isBeforeMembers ++ ((d.dropWhile isBeforeMembers).take 1
        ++ (d.dropWhile isBeforeMembers).drop 1) = d := by
      rw [List.take_append_drop, List.takeWhile_append_dropWhile]
    rw [← List.append_assoc] at hparts
    conv_rhs => rw [← hparts]
    exact (List.Sublist.refl _).append (mapCuts_sublist (memberRemains_leavesOut platform) _)
  · exact .refl d

theorem remains_leavesOut : LeavesOut (remains imports platform) := by
  refine ⟨fun d => ?_, fun d => ?_⟩ <;> unfold remains <;> split
  · exact List.nil_sublist d
  · exact withoutMembers_sublist platform d
  · exact fun h => absurd rfl h
  · exact fun _ => withoutMembers_head? platform d

theorem erasure_sublist (ts : List Token) : (erasure imports platform ts).Sublist ts :=
  mapCuts_sublist (remains_leavesOut imports platform) ts

/-- Tokens without annotations are for every target. -/
theorem isExcluded_of_plain {t : Token} {ts : List Token}
    (h : ∀ pairs, t.kind ≠ .annotations pairs) : isExcluded platform (t :: ts) = false := by
  have htake : Parser.takeAnnotations {} (t :: ts) = ({}, t :: ts) := by
    obtain ⟨kind, pos⟩ := t
    cases kind with
    | annotations pairs => exact absurd rfl (h pairs)
    | _ => rfl
  rw [isExcluded, htake, (AnnotationBlock.lacks_empty _).isActive]
  rfl

/-- What is left of a declaration with members: what stands before them, the braces around them, and
what is left of each of them. -/
theorem withoutMembers_eq {c : List Token} {ms : List (List Token)} {o e : Token}
    (hmembers : hasMembers (c ++ o :: (ms.flatten ++ [e])) = true)
    (hc : ∀ t ∈ c, isBeforeMembers t = true) (ho : o.kind = .punct .braceOpen)
    (hms : ∀ m ∈ ms, Scan.Leads {} m none) (he : e.kind = .punct .braceClose) :
    withoutMembers platform (c ++ o :: (ms.flatten ++ [e]))
      = c ++ o :: ((ms.map (memberRemains platform)).flatten ++ [e]) := by
  have hopen : isBeforeMembers o = false := by
    rw [isBeforeMembers, ho]
    rfl
  have hlast : mapCuts (memberRemains platform) [e] = [e] := by
    have hplain : isExcluded platform [e] = false := isExcluded_of_plain platform fun pairs => by
      rw [he]
      exact nofun
    have hleads : Scan.Leads {} [e] none := .last (by rw [he]; rfl)
    have hcut : mapCuts (memberRemains platform) ([e] ++ []) = memberRemains platform [e] ++ [] :=
      mapCuts_append hleads []
    rw [List.append_nil] at hcut
    rw [hcut, memberRemains, if_neg (by rw [hplain]; exact Bool.false_ne_true)]
    rfl
  rw [withoutMembers, if_pos hmembers, List.takeWhile_append_of_pos hc, List.dropWhile_append_of_pos hc,
    List.takeWhile_cons_of_neg (by rw [hopen]; exact Bool.false_ne_true),
    List.dropWhile_cons_of_neg (by rw [hopen]; exact Bool.false_ne_true), List.append_nil,
    List.append_assoc]
  show c ++ ([o] ++ mapCuts (memberRemains platform) (ms.flatten ++ [e])) = _
  rw [mapCuts_flatten hms, hlast]
  rfl

theorem withoutMembers_of_plain {d : List Token} (h : hasMembers d = false) :
    withoutMembers platform d = d := by
  rw [withoutMembers, h, if_neg Bool.false_ne_true]

theorem remains_of_included {d : List Token} (h : isExcluded platform d = false) :
    remains imports platform d = withoutMembers platform d := by
  rw [remains, isErased, h, Bool.false_and, if_neg Bool.false_ne_true]

theorem remains_of_excluded {d : List Token} (h : isExcluded platform d = true)
    (hk : leadingKind d ≠ .keyword .importKw) : remains imports platform d = [] := by
  rw [remains, isErased, h, bne_iff_ne.2 hk, Bool.or_true, Bool.and_self, if_pos rfl]

theorem remains_of_import {d : List Token} (hk : leadingKind d = .keyword .importKw) :
    remains false platform d = d := by
  rw [remains, isErased, hk, bne_self_eq_false, Bool.or_self, Bool.and_false,
    if_neg Bool.false_ne_true, withoutMembers_of_plain]
  rw [hasMembers, hk]
  rfl

/-- A semicolon between declarations stays. -/
theorem remains_semicolon {t : Token} (h : t.kind = .punct .semicolon) :
    remains imports platform [t] = [t] := by
  have hplain : isExcluded platform [t] = false := isExcluded_of_plain platform fun pairs => by
    rw [h]
    exact nofun
  obtain ⟨kind, pos⟩ := t
  obtain rfl : kind = .punct .semicolon := h
  rw [remains_of_included _ _ hplain]
  exact withoutMembers_of_plain _ rfl

/-- Where all import statements are for the target, it makes no difference whether others would be left
out. -/
theorem erasure_of_imports {ts : List Token} (h : ∀ d ∈ cut {} ts,
    leadingKind d = .keyword .importKw → isExcluded platform d = false) :
    erasure imports platform ts = erasure false platform ts := by
  refine congrArg List.flatten (List.map_congr_left fun d hd => ?_)
  by_cases hk : leadingKind d = .keyword .importKw
  · rw [remains_of_included _ _ (h d hd hk), remains_of_included _ _ (h d hd hk)]
  · cases hexcluded : isExcluded platform d with
    | true => rw [remains_of_excluded _ _ hexcluded hk, remains_of_excluded _ _ hexcluded hk]
    | false => rw [remains_of_included _ _ hexcluded, remains_of_included _ _ hexcluded]

/-- Where the tokens of a file end, so does what is left of them. -/
theorem nextKind_erasure_of_eof {ts : List Token} (h : nextKind ts = .eof) :
    nextKind (erasure imports platform ts) = .eof := by
  cases ts with
  | nil => rfl
  | cons t ts =>
    have hkind : t.kind = .eof := h
    have hcut : ∃ c cs, cut {} (t :: ts) = (t :: c) :: cs := by
      have hnext : ({} : Scan).next t.kind = some {} := by rw [hkind]; rfl
      rw [cut, hnext]
      dsimp only
      split
      · exact ⟨[], [], rfl⟩
      · exact ⟨_, _, rfl⟩
    obtain ⟨c, cs, hcut⟩ := hcut
    have htake : Parser.takeAnnotations {} (t :: c) = ({}, t :: c) := by
      obtain ⟨kind, pos⟩ := t
      obtain rfl : kind = .eof := hkind
      rfl
    have hleading : leadingKind (t :: c) = .eof := by
      rw [leadingKind, htake]
      exact hkind
    have hstays : remains imports platform (t :: c) = t :: c := by
      have hplain : isExcluded platform (t :: c) = false := isExcluded_of_plain platform fun pairs => by
        rw [hkind]
        exact nofun
      rw [remains, isErased, hplain, Bool.false_and, if_neg Bool.false_ne_true, withoutMembers,
        hasMembers, hleading]
      rfl
    rw [erasure, mapCuts, hcut, List.map_cons, List.flatten_cons, hstays]
    exact hkind

end

end Scaffold.Source
