import Mathlib.Data.List.Chain
import Mathlib.Data.List.Induction
import Scaffold.Proofs.Sql.Region

/-!
# Parameters of SQL text

The text between the parameters is copied as it is, the parameters are replaced in their order, and
nothing in quotes, comments or casts is a parameter.

* `Split`: a text as `s₀ :n₁ s₁ … :nₖ sₖ`, the regions of its characters included.
* `Reads.questioned`: question marks in place of parameters leave the rest of the text as it was.
* `parameters_exact`: what replacing, binding and counting parameters have in common.
-/

namespace Scaffold.Sql

/-! ## The text between parameters -/

/-- A parameter and the text between it and the next one. -/
abbrev Bound : Type := String × Marked

/-- The text of a parameter and of what follows it. -/
def Bound.marked (b : Bound) : Marked :=
  inRegion .plain (':' :: b.1.toList) ++ b.2

/-- The pieces of a parameter and of what follows it. -/
def Bound.pieces (b : Bound) : List Piece :=
  .param b.1 :: verbatim (b.2.map (·.1))

/-- No parameter starts in this text: no colon outside of the regions stands in front of a name. -/
def Unbound (text : Marked) : Prop :=
  text.IsChain fun x y => x = (':', .plain) → Lexer.isNameStart y.1 = false

/-- The pieces `ps` of the characters `cs`: text, and parameters with text behind them. -/
structure Cut (cs : List Char) (ps : List Piece) (first : Marked) (params : List Bound) : Prop where
  marked : marksFrom .plain cs = first ++ params.flatMap Bound.marked
  pieces : ps = verbatim (first.map (·.1)) ++ params.flatMap Bound.pieces
  named : ∀ b ∈ params, isName b.1.toList = true ∧ ∀ x ∈ b.2.head?, Lexer.isNameChar x.1 = false
  unbound : ∀ text ∈ first :: params.map (·.2), Unbound text

variable {c : Char} {cs run name rest : List Char} {ps : List Piece} {first : Marked}
  {params : List Bound} {region : Region} {next : Option Char}

theorem verbatim_append (cs rest : List Char) :
    verbatim (cs ++ rest) = verbatim cs ++ verbatim rest :=
  List.map_append

/-- The text in front of the first parameter starts like the whole text. -/
theorem Cut.head? (h : Cut cs ps first params) : ∀ x ∈ first.head?, cs.head? = some x.1 := by
  intro x hx
  obtain ⟨first, rfl⟩ := List.head?_eq_some_iff.1 hx
  have hcs := congrArg (List.map (·.1)) h.marked
  rw [map_fst_marksFrom, List.cons_append, List.map_cons] at hcs
  rw [hcs, List.head?_cons]

/-- No parameter starts in a region. -/
theorem Unbound.append_inRegion (hregion : region ≠ .plain) (h : Unbound first) (run : List Char) :
    Unbound (inRegion region run ++ first) := by
  induction run with
  | nil => exact h
  | cons c run ih => exact ih.cons fun _ _ hx => absurd (Prod.mk.inj hx).2 hregion

theorem Run.ne_plain (h : Run run region next) : region ≠ .plain := by
  cases h <;> simp

/-- A stretch in a region belongs to the text in front of the first parameter. -/
theorem Cut.inRegion (hrun : Run run region rest.head?) (h : Cut rest ps first params) :
    Cut (run ++ rest) (verbatim run ++ ps) (Sql.inRegion region run ++ first) params where
  marked := by rw [hrun.marksFrom rfl, h.marked, List.append_assoc]
  pieces := by
    rw [List.map_append, map_fst_inRegion, verbatim_append, List.append_assoc, ← h.pieces]
  named := h.named
  unbound := by
    obtain ⟨hfirst, hmore⟩ := List.forall_mem_cons.1 h.unbound
    exact List.forall_mem_cons.2 ⟨hfirst.append_inRegion hrun.ne_plain run, hmore⟩

theorem Cut.loose (hc : Loose c rest.head?) (h : Cut rest ps first params) :
    Cut (c :: rest) (.char c :: ps) ((c, .plain) :: first) params where
  marked := by rw [marksFrom_cons, hc.step, h.marked, List.cons_append]
  pieces := by rw [h.pieces]; rfl
  named := h.named
  unbound := by
    obtain ⟨hfirst, hmore⟩ := List.forall_mem_cons.1 h.unbound
    refine List.forall_mem_cons.2 ⟨hfirst.cons fun x hx heq => ?_, hmore⟩
    exact (hc.colon (Prod.mk.inj heq).1 x.1 (h.head? x hx)).2

theorem Cut.param (hname : isName name = true)
    (hnext : ∀ c ∈ rest.head?, Lexer.isNameChar c = false) (h : Cut rest ps first params) :
    Cut (':' :: (name ++ rest)) (.param (String.ofList name) :: ps) []
      ((String.ofList name, first) :: params) where
  marked := by
    obtain ⟨c, more, rfl, hstart, hall⟩ := isName_cons hname
    have hcolon : c ≠ ':' := by
      rintro rfl
      exact absurd hstart (by decide)
    have hstep : Region.plain.step ':' (c :: more ++ rest).head? = (.plain, .plain) := by
      simp [Region.step, isQuote, hcolon]
    rw [marksFrom_cons, hstep, marksFrom_name hall, h.marked]
    simp [Bound.marked, Sql.inRegion]
  pieces := by rw [h.pieces]; simp [Bound.pieces, verbatim]
  named := List.forall_mem_cons.2
    ⟨⟨by rwa [String.toList_ofList], fun x hx => hnext x.1 (h.head? x hx)⟩, h.named⟩
  unbound := List.forall_mem_cons.2 ⟨.nil, h.unbound⟩

theorem Reads.exists_cut (h : Reads cs ps) : ∃ first params, Cut cs ps first params := by
  induction h with
  | done => exact ⟨[], [], rfl, rfl, nofun, List.forall_mem_singleton.2 .nil⟩
  | run hrun _ ih =>
    obtain ⟨first, params, h⟩ := ih
    exact ⟨_, _, h.inRegion hrun⟩
  | param hname hnext _ ih =>
    obtain ⟨first, params, h⟩ := ih
    exact ⟨_, _, h.param hname hnext⟩
  | loose hc _ ih =>
    obtain ⟨first, params, h⟩ := ih
    exact ⟨_, _, h.loose hc⟩

/-! ## Replacing parameters -/

/-- The name of a parameter. -/
def Piece.name? : Piece → Option String
  | .char _ => none
  | .param name => some name

theorem bindOrder_eq (sql : String) : bindOrder sql = (pieces sql).filterMap Piece.name? := by
  refine List.filterMap_congr fun piece _ => ?_
  cases piece <;> rfl

theorem filterMap_verbatim (cs : List Char) : (verbatim cs).filterMap Piece.name? = [] := by
  simp [verbatim, List.filterMap_map, Function.comp_def, Piece.name?]

theorem renderFrom_verbatim (placeholder : String → Nat → String) (index : Nat) (cs : List Char)
    (ps : List Piece) : renderFrom placeholder index (verbatim cs ++ ps) =
      String.ofList cs ++ renderFrom placeholder index ps := by
  induction cs with
  | nil => simp [verbatim]
  | cons c cs ih =>
    have hcs : c.toString ++ String.ofList cs = String.ofList (c :: cs) := by
      rw [← String.toList_inj]
      simp [Char.toString]
    rw [verbatim, List.map_cons, List.cons_append, renderFrom, ← verbatim, ih,
      ← String.append_assoc, hcs]

/-- Parameters with their placeholders, the first one counted from `index`. -/
def written (placeholder : String → Nat → String) (index : Nat) (params : List Bound) : String :=
  String.join ((params.zipIdx index).map fun (b, i) => placeholder b.1 i ++ Marked.text b.2)

theorem renderFrom_bounds (placeholder : String → Nat → String) (index : Nat)
    (params : List Bound) :
    renderFrom placeholder index (params.flatMap Bound.pieces) =
      written placeholder index params := by
  induction params generalizing index with
  | nil => rfl
  | cons b params ih =>
    rw [List.flatMap_cons, Bound.pieces, List.cons_append, renderFrom, renderFrom_verbatim, ih,
      written, written, List.zipIdx_cons, List.map_cons, String.join_cons, String.append_assoc]
    rfl

theorem bindOrder_of_bounds (params : List Bound) :
    (params.flatMap Bound.pieces).filterMap Piece.name? = params.map (·.1) := by
  induction params with
  | nil => rfl
  | cons b params ih =>
    rw [List.flatMap_cons, List.filterMap_append, ih, Bound.pieces, List.filterMap_cons,
      filterMap_verbatim]
    rfl

/-- SQL text `s₀ :n₁ s₁ … :nₖ sₖ`: the parameters are written in place with their position, and the
texts around them are copied. -/
structure Split (sql : String) (first : Marked) (params : List Bound) : Prop where
  marked : marked sql = first ++ params.flatMap Bound.marked
  bindOrder : bindOrder sql = params.map (·.1)
  written : ∀ placeholder : String → Nat → String,
    withPlaceholders placeholder sql = first.text ++
      String.join (params.zipIdx.map fun ((name, text), i) => placeholder name i ++ text.text)
  named : ∀ b ∈ params, isName b.1.toList = true ∧ ∀ x ∈ b.2.head?, Lexer.isNameChar x.1 = false
  unbound : ∀ text ∈ first :: params.map (·.2), Unbound text

theorem exists_split (sql : String) : ∃ first params, Split sql first params := by
  obtain ⟨first, params, h⟩ := (reads_iff.2 (rfl : piecesFrom 0 sql.toList = _)).exists_cut
  refine ⟨first, params, h.marked, ?_, fun placeholder => ?_, h.named, h.unbound⟩
  · rw [bindOrder_eq, pieces, h.pieces, List.filterMap_append, filterMap_verbatim,
      bindOrder_of_bounds, List.nil_append]
  · rw [withPlaceholders, pieces, h.pieces, renderFrom_verbatim, renderFrom_bounds]
    rfl

theorem text_marked (sql : String) : (marked sql).text = sql := by
  rw [marked, Marked.text, map_fst_marksFrom, String.ofList_toList]

theorem text_append (m m' : Marked) : (m ++ m').text = m.text ++ m'.text := by
  rw [Marked.text, List.map_append, String.ofList_append]
  rfl

theorem Bound.text_marked (b : Bound) : b.marked.text = ":" ++ b.1 ++ Marked.text b.2 := by
  rw [Bound.marked, text_append, Marked.text, map_fst_inRegion, String.ofList_cons,
    String.ofList_toList]
  rfl

theorem written_colons (index : Nat) (params : List Bound) :
    written (fun name _ => ":" ++ name) index params =
      Marked.text (params.flatMap Bound.marked) := by
  induction params generalizing index with
  | nil => rfl
  | cons b params ih =>
    rw [List.flatMap_cons, text_append, Bound.text_marked, ← ih (index + 1), written,
      List.zipIdx_cons, List.map_cons, String.join_cons]
    rfl

/-- Parameters written as they were. -/
theorem Split.restored {sql : String} (h : Split sql first params) :
    withPlaceholders (fun name _ => ":" ++ name) sql = sql := by
  have hwritten := written_colons 0 params
  rw [h.written, ← text_marked sql, h.marked, text_append, ← hwritten]
  rfl

/-! ## Question marks -/

/-- The text of pieces, with a question mark for every parameter. -/
def questioned : List Piece → List Char :=
  List.map fun
    | .char c => c
    | .param _ => '?'

theorem questioned_append (cs : List Char) (ps : List Piece) :
    questioned (verbatim cs ++ ps) = cs ++ questioned ps := by
  rw [questioned, List.map_append, verbatim, List.map_map]
  exact congrArg (· ++ _) (List.map_id cs)

theorem renderFrom_questioned (index : Nat) (ps : List Piece) :
    renderFrom (fun _ _ => "?") index ps = String.ofList (questioned ps) := by
  induction ps generalizing index with
  | nil => rfl
  | cons piece ps ih =>
    cases piece <;> simp [renderFrom, ih, questioned, Char.toString]

/-- What stands at the start of a text whose parameters became question marks. -/
def Heads (next next' : Option Char) : Prop :=
  next' = next ∨ next = some ':' ∧ next' = some '?'

theorem Run.ne_nil (h : Run run region next) : run ≠ [] := by
  cases h <;> simp

theorem Reads.heads (h : Reads cs ps) : Heads cs.head? (questioned ps).head? := by
  cases h with
  | done => exact .inl rfl
  | run hrun _ =>
    rw [questioned_append, List.head?_append_of_ne_nil _ hrun.ne_nil,
      List.head?_append_of_ne_nil _ hrun.ne_nil]
    exact .inl rfl
  | param => exact .inr ⟨rfl, rfl⟩
  | loose => exact .inl rfl

theorem Run.of_heads (h : Run run region next) {next' : Option Char} (hnext : Heads next next') :
    Run run region next' := by
  obtain rfl | ⟨rfl, rfl⟩ := hnext
  · exact h
  · generalize hnext : some ':' = next at h
    cases h with
    | literal hquote hin _ =>
      refine .literal hquote hin ?_
      rintro ⟨⟩
      exact absurd hquote (by decide)
    | unclosed => cases hnext
    | comment htext hend => exact absurd (hend ':' hnext.symm) (by decide)
    | cast => exact .cast

theorem Loose.of_heads (h : Loose c next) {next' : Option Char} (hnext : Heads next next') :
    Loose c next' := by
  obtain rfl | ⟨rfl, rfl⟩ := hnext
  · exact h
  · refine ⟨h.quote, fun _ => by decide, fun hc => ?_⟩
    exact absurd rfl (h.colon hc ':' rfl).1

theorem loose_questionMark (next : Option Char) : Loose '?' next :=
  ⟨by decide, fun h => absurd h (by decide), fun h => absurd h (by decide)⟩

/-- Question marks in place of parameters leave the rest of the text as it was read. -/
theorem Reads.questioned (h : Reads cs ps) :
    Reads (questioned ps) (verbatim (questioned ps)) := by
  induction h with
  | done => exact .done
  | run hrun hrest ih =>
    rw [questioned_append, verbatim_append]
    exact .run (hrun.of_heads hrest.heads) ih
  | param hname hnext _ ih =>
    exact .loose (loose_questionMark _) ih
  | loose hc hrest ih => exact .loose (hc.of_heads hrest.heads) ih

theorem pieces_positional (sql : String) :
    pieces (positional sql) = verbatim (positional sql).toList := by
  have hreads := (reads_iff.2 (rfl : piecesFrom 0 sql.toList = _)).questioned
  rw [positional, withPlaceholders, renderFrom_questioned, pieces, String.toList_ofList]
  exact reads_iff.1 hreads

/-- A text without parameters stays as it is. -/
theorem withPlaceholders_of_verbatim {sql : String} (h : pieces sql = verbatim sql.toList)
    (placeholder : String → Nat → String) : withPlaceholders placeholder sql = sql := by
  have hrender := renderFrom_verbatim placeholder 0 sql.toList []
  rw [List.append_nil] at hrender
  rw [withPlaceholders, h, hrender, String.ofList_toList]
  exact String.append_empty

/-! ## Names in order of their first use -/

/-- The names of `uses`, in the order of their first uses. -/
structure FirstUses (names uses : List String) : Prop where
  mem_iff : ∀ name, name ∈ names ↔ name ∈ uses
  ordered : names.Pairwise fun a b => uses.idxOf a < uses.idxOf b

theorem FirstUses.nodup {names uses : List String} (h : FirstUses names uses) : names.Nodup :=
  h.ordered.imp fun hlt heq => by
    rw [heq] at hlt
    exact lt_irrefl _ hlt

theorem distinct_append (uses : List String) (name : String) :
    Text.distinct (uses ++ [name]) =
      if name ∈ Text.distinct uses then Text.distinct uses else Text.distinct uses ++ [name] := by
  simp [Text.distinct]

theorem firstUses_distinct (uses : List String) : FirstUses (Text.distinct uses) uses := by
  induction uses using List.reverseRecOn with
  | nil => exact ⟨fun _ => Iff.rfl, .nil⟩
  | append_singleton uses name ih =>
    have hbefore : (Text.distinct uses).Pairwise fun a b =>
        (uses ++ [name]).idxOf a < (uses ++ [name]).idxOf b :=
      ih.ordered.imp_of_mem fun ha hb hlt => by
        rwa [List.idxOf_append_of_mem ((ih.mem_iff _).1 ha),
          List.idxOf_append_of_mem ((ih.mem_iff _).1 hb)]
    rw [distinct_append]
    split
    · rename_i hmem
      refine ⟨fun other => ?_, hbefore⟩
      rw [ih.mem_iff, List.mem_append, List.mem_singleton]
      refine ⟨.inl, fun h => h.elim id ?_⟩
      rintro rfl
      exact (ih.mem_iff other).1 hmem
    · rename_i hnew
      have huses : name ∉ uses := mt (ih.mem_iff name).2 hnew
      refine ⟨fun other => by simp [ih.mem_iff], ?_⟩
      refine List.pairwise_append.2 ⟨hbefore, List.pairwise_singleton _ _, fun a ha b hb => ?_⟩
      obtain rfl := List.mem_singleton.1 hb
      have hmem := (ih.mem_iff a).1 ha
      rw [List.idxOf_append_of_mem hmem, List.idxOf_append_of_notMem huses]
      exact Nat.lt_of_lt_of_le (List.idxOf_lt_length_iff.2 hmem) (Nat.le_add_right _ _)

/-! ## Exact rewriting -/

/-- Parameter rewriting is exact: parameters written as they were give the text back; the text is
cut at its parameters, which get the positions 0, 1, 2, … whatever is written for them; question
marks leave no parameter; and the bound names are the parameters in the order of their first
uses. -/
theorem parameters_exact (sql : String) :
    withPlaceholders (fun name _ => ":" ++ name) sql = sql ∧
      (∃ first params, Split sql first params) ∧
      (bindOrder (positional sql) = [] ∧ positional (positional sql) = positional sql) ∧
      (parameters sql).Nodup ∧ FirstUses (parameters sql) (bindOrder sql) := by
  obtain ⟨first, params, hsplit⟩ := exists_split sql
  have hpositional := pieces_positional sql
  refine ⟨hsplit.restored, ⟨first, params, hsplit⟩, ⟨?_, ?_⟩,
    (firstUses_distinct _).nodup, firstUses_distinct _⟩
  · rw [bindOrder_eq, hpositional, filterMap_verbatim]
  · exact withPlaceholders_of_verbatim hpositional _

example : bindOrder ":::a = ':b' -- :c" = ["a"] := by cbv

end Scaffold.Sql
