import Mathlib.Data.List.Induction
import Scaffold.Proofs.Token.Lexeme

/-!
# Tokens tile the text

A text is a row of lexemes with gaps in front of each of them and at the end. The position of a
token is counted while the lexer moves over these pieces; it is the line and the column of the
character at which the lexeme starts.

* `placeOf text offset`: line and column of a character, counted in the text.
* `Tiling before rest spots`: behind `before`, the text `rest` is made of the lexemes of `spots`.
* `tokens_tiling`: what one token adds to a tiling, and so all of them.
* `tokenize_tiling`: offsets and positions increase, and the end of the text comes last.
-/

namespace Scaffold

/-! ## Lines and columns -/

namespace Position

variable {p q r : Position} {cs : List Char}

/-- `p` comes before `q` in a text. -/
def Before (p q : Position) : Prop :=
  p.line < q.line ∨ p.line = q.line ∧ p.col < q.col

theorem Before.trans (h : p.Before q) (h' : q.Before r) : p.Before r := by
  unfold Before at h h' ⊢
  omega

theorem before_after (p : Position) (c : Char) : p.Before (p.after c) := by
  unfold after
  split
  · exact .inl (Nat.lt_succ_self p.line)
  · exact .inr ⟨rfl, Nat.lt_succ_self p.col⟩

theorem before_afterAll (hne : cs ≠ []) (p : Position) : p.Before (p.afterAll cs) := by
  induction cs generalizing p with
  | nil => exact absurd rfl hne
  | cons c cs ih =>
    cases cs with
    | nil => exact before_after p c
    | cons d cs => exact (before_after p c).trans (ih (by simp) (p.after c))

/-- Lines are counted by line ends, columns from the last of them. -/
theorem afterAll_eq (cs : List Char) : ({} : Position).afterAll cs =
    ⟨cs.count '\n' + 1, (cs.reverse.takeWhile (· != '\n')).length + 1⟩ := by
  induction cs using List.reverseRecOn with
  | nil => rfl
  | append_singleton cs c ih =>
    rw [afterAll_append, ih, List.reverse_append, List.count_append]
    change Position.after _ c = _
    by_cases hc : c = '\n'
    · subst hc
      simp [after]
    · simp [after, hc]

end Position

/-- The line and the column of a character, both counted from one. -/
def placeOf (text : List Char) (offset : Nat) : Position :=
  ⟨(text.take offset).count '\n' + 1,
    ((text.take offset).reverse.takeWhile (· != '\n')).length + 1⟩

theorem placeOf_eq (text : List Char) (offset : Nat) :
    placeOf text offset = ({} : Position).afterAll (text.take offset) :=
  (Position.afterAll_eq _).symm

theorem placeOf_append (before rest : List Char) :
    placeOf (before ++ rest) before.length = ({} : Position).afterAll before := by
  rw [placeOf_eq, List.take_left]

/-- Later characters have later positions. -/
theorem placeOf_before {text : List Char} {i j : Nat} (hlt : i < j) (hj : j ≤ text.length) :
    (placeOf text i).Before (placeOf text j) := by
  have hsplit : text.take j = text.take i ++ (text.drop i).take (j - i) := by
    rw [← List.take_add, Nat.add_sub_cancel' hlt.le]
  rw [placeOf_eq, placeOf_eq, hsplit, Position.afterAll_append]
  refine Position.before_afterAll ?_ _
  rw [← List.length_pos_iff, List.length_take, List.length_drop]
  omega

namespace Lexer

variable {before rest text : List Char} {mode : Option RawMode} {c : Cursor} {fuel : Nat}
  {ts : List Token}

/-! ## Tilings -/

/-- A token in a text: its kind, the place of its first character, and its characters. -/
structure Spot where
  kind : TokenKind
  offset : Nat
  lexeme : List Char

def Spot.token (text : List Char) (spot : Spot) : Token :=
  ⟨spot.kind, placeOf text spot.offset⟩

/-- Behind `before`, the text `rest` is made of lexemes and gaps; the last spot is its end. -/
inductive Tiling : (before rest : List Char) → List Spot → Prop
  | eof {before gap : List Char} (hgap : Gap [] gap) :
    Tiling before gap [⟨.eof, (before ++ gap).length, []⟩]
  | cons {before gap lexeme rest : List Char} {kind : TokenKind} {spots : List Spot}
    (hgap : Gap (lexeme ++ rest) gap) (hlexeme : Lexeme kind lexeme) (hne : lexeme ≠ [])
    (hrest : Tiling (before ++ (gap ++ lexeme)) rest spots) :
    Tiling before (gap ++ (lexeme ++ rest)) (⟨kind, (before ++ gap).length, lexeme⟩ :: spots)

namespace Tiling

variable {spots : List Spot}

theorem offset_mem (h : Tiling before rest spots) : ∀ spot ∈ spots,
    before.length ≤ spot.offset ∧ spot.offset ≤ (before ++ rest).length := by
  induction h with
  | eof hgap => simp
  | cons hgap hlexeme hne hrest ih =>
    refine List.forall_mem_cons.2 ⟨by simp, fun spot hspot => ?_⟩
    have hspot := ih spot hspot
    simp only [List.length_append] at hspot ⊢
    omega

/-- Every lexeme takes a character or more. -/
theorem pairwise (h : Tiling before rest spots) : spots.Pairwise (·.offset < ·.offset) := by
  induction h with
  | eof hgap => exact List.pairwise_singleton _ _
  | @cons before gap lexeme rest kind spots hgap hlexeme hne hrest ih =>
    refine List.pairwise_cons.2 ⟨fun spot hspot => ?_, ih⟩
    have hpos := List.length_pos_of_ne_nil hne
    have hspot := (hrest.offset_mem spot hspot).1
    simp only [List.length_append] at hspot ⊢
    omega

theorem lexeme_mem (h : Tiling before rest spots) : ∀ spot ∈ spots,
    Lexeme spot.kind spot.lexeme ∧ spot.lexeme <+: (before ++ rest).drop spot.offset := by
  induction h with
  | eof hgap => simpa using Lexeme.eof
  | @cons before gap lexeme rest kind spots hgap hlexeme hne hrest ih =>
    have htext : before ++ (gap ++ (lexeme ++ rest)) = before ++ (gap ++ lexeme) ++ rest := by simp
    refine List.forall_mem_cons.2 ⟨⟨hlexeme, ?_⟩, by rwa [htext]⟩
    rw [← List.append_assoc, List.drop_left]
    exact List.prefix_append _ _

theorem getLast? (h : Tiling before rest spots) :
    spots.getLast? = some ⟨.eof, (before ++ rest).length, []⟩ := by
  induction h with
  | eof hgap => rfl
  | cons hgap hlexeme hne hrest ih =>
    rw [List.getLast?_cons, ih]
    simp

end Tiling

/-! ## All tokens -/

/-- The tokens of what is left of a text tile it. -/
theorem tokens_tiling (hfuel : c.rest.length < fuel) (htext : before ++ c.rest = text)
    (hpos : c.pos = ({} : Position).afterAll before) (h : tokens fuel mode c = .ok ts) :
    ∃ spots, Tiling before c.rest spots ∧ ts = spots.map (·.token text) := by
  induction fuel generalizing mode c before ts with
  | zero => cases hfuel
  | succ fuel ih =>
    rw [tokens] at h
    obtain ⟨c₁, hskip, h⟩ := bind_ok h
    obtain ⟨gap, hgap, hpassed⟩ := skipTrivia_passed hskip
    -- The position in front of the token is the one behind the gap.
    have hbehind : ∀ {more}, before ++ (gap ++ more) = text →
        placeOf text (before ++ gap).length = c₁.pos := by
      rintro more rfl
      rw [← List.append_assoc, placeOf_append, hpassed.pos, hpos, Position.afterAll_append]
    rw [hpassed.rest] at htext ⊢
    dsimp only at h
    split at h
    · rename_i hend
      cases h
      rw [hend, List.append_nil]
      rw [hend] at hgap
      exact ⟨_, .eof hgap, by rw [List.map_singleton, Spot.token, hbehind htext]⟩
    · rename_i ch more hmore
      obtain ⟨⟨kind, after⟩, htoken, h⟩ := bind_ok h
      obtain ⟨lexeme, hlexeme, hpassed'⟩ := lexToken_passed hmore htoken
      obtain ⟨ts', hts, h⟩ := bind_ok h
      cases h
      have hshorter := lexToken_length hmore htoken
      have hne : lexeme ≠ [] := by
        rintro rfl
        rw [hpassed'.rest] at hshorter
        exact absurd hshorter (lt_irrefl _)
      have hless : after.rest.length < fuel := by
        rw [hpassed.rest, List.length_append] at hfuel
        omega
      have hpos' : after.pos = ({} : Position).afterAll (before ++ (gap ++ lexeme)) := by
        rw [hpassed'.pos, hpassed.pos, hpos, Position.afterAll_append, Position.afterAll_append]
      have htext' : before ++ (gap ++ lexeme) ++ after.rest = text := by
        rw [← htext, hpassed'.rest]
        simp
      obtain ⟨spots, htiling, rfl⟩ := ih hless htext' hpos' hts
      rw [hpassed'.rest] at hgap ⊢
      refine ⟨_, .cons hgap hlexeme hne htiling, ?_⟩
      rw [List.map_cons, Spot.token, hbehind htext]

/-- The tokens of a text stand at increasing offsets, each with a lexeme of it, and with gaps in
between; the last one is the end of the text. So their positions increase, too. -/
theorem tokenize_tiling {source : String} (h : tokenize source = .ok ts) :
    ∃ spots : List Spot, Tiling [] source.toList spots ∧
      ts = spots.map (·.token source.toList) ∧
      spots.Pairwise (·.offset < ·.offset) ∧
      (∀ spot ∈ spots, Lexeme spot.kind spot.lexeme ∧
        spot.lexeme <+: source.toList.drop spot.offset) ∧
      spots.getLast? = some ⟨.eof, source.toList.length, []⟩ ∧
      ts.Pairwise (·.pos.Before ·.pos) := by
  obtain ⟨spots, htiling, rfl⟩ :=
    tokens_tiling (Nat.lt_succ_self _) (List.nil_append source.toList) rfl h
  refine ⟨spots, htiling, rfl, htiling.pairwise, htiling.lexeme_mem, htiling.getLast?, ?_⟩
  rw [List.pairwise_map]
  refine htiling.pairwise.imp_of_mem fun _ hspot hlt => ?_
  exact placeOf_before hlt (htiling.offset_mem _ hspot).2

theorem tokenize_tiling_lines :
    let source := "[a='x\ny', b]\nquery q /* 1\n2 */ \x7b\n '\x7d' \x7d // end"
    let ts : List Token := [⟨.annotations [("a", .str "x\ny"), ("b", .bool true)], ⟨1, 1⟩⟩,
      ⟨.keyword .queryKw, ⟨3, 1⟩⟩, ⟨.ident "q", ⟨3, 7⟩⟩, ⟨.raw "'\x7d'", ⟨4, 6⟩⟩, ⟨.eof, ⟨5, 14⟩⟩]
    tokenize source = .ok ts ∧ ∃ spots : List Spot, Tiling [] source.toList spots ∧
      ts = spots.map (·.token source.toList) ∧ ts.Pairwise (·.pos.Before ·.pos) := by
  intro source ts
  have hread : tokenize source = .ok ts := by decide +kernel
  obtain ⟨spots, htiling, hts, -, -, -, hbefore⟩ := tokenize_tiling hread
  exact ⟨hread, spots, htiling, hts, hbefore⟩

end Lexer

end Scaffold
