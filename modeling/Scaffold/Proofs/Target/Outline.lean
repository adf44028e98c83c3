import Scaffold.Proofs.Text.Lines
import Scaffold.Proofs.Target.BlockWriter

/-!
# Blocks by their indentation

Where nothing closes a block, the lines that belong to it are those below its header that stand one
level deeper. `gather` finds them from the last line on, where it is known what is below a line.

* `ofRows?_rowsAll`: lines that are written for blocks are gathered into these blocks.
* `followed_rowsAll`: right behind a header stands a line one level deeper.
* `code_codeAll`: a writer puts the lines as deep as it stands.
-/

namespace Scaffold

/-- A line with how deep it stands, and whether a block follows that it is the header of. -/
structure Row where
  depth : Nat
  text : String
  opens : Bool := false
  deriving DecidableEq

/-- A line, or a header and the block below it, which is not empty. -/
inductive Outline where
  | line (text : String)
  | block (header : String) (first : Outline) (rest : List Outline)

/-- How deep a line stands, and what it says. -/
def Row.said (r : Row) : Nat × String :=
  (r.depth, r.text)

namespace Outline

mutual

/-- The lines, from this depth on. -/
def rows (depth : Nat) : Outline → List Row
  | line text => [{ depth, text }]
  | block header first rest =>
    { depth, text := header, opens := true } :: (first.rows (depth + 1) ++ rowsAll (depth + 1) rest)

/-- The lines of what stands at this depth. -/
def rowsAll (depth : Nat) : List Outline → List Row
  | [] => []
  | o :: rest => o.rows depth ++ rowsAll depth rest

end

mutual

/-- The code. -/
def code : Outline → Code
  | line text => .line text
  | block header first rest => .line header ++ .nest (first.code ++ codeAll rest)

/-- The code of several. -/
def codeAll : List Outline → Code
  | [] => []
  | o :: rest => o.code ++ codeAll rest

end

mutual

/-- What the lines say. -/
def texts : Outline → List String
  | line text => [text]
  | block header first rest => header :: (first.texts ++ textsAll rest)

/-- What the lines of several say. -/
def textsAll : List Outline → List String
  | [] => []
  | o :: rest => o.texts ++ textsAll rest

end

theorem textsAll_append (os os' : List Outline) :
    textsAll (os ++ os') = textsAll os ++ textsAll os' := by
  induction os with
  | nil => rfl
  | cons o rest ih => rw [List.cons_append, textsAll, textsAll, ih, List.append_assoc]

theorem codeAll_append (os os' : List Outline) :
    codeAll (os ++ os') = codeAll os ++ codeAll os' := by
  induction os with
  | nil => rfl
  | cons o rest ih => rw [List.cons_append, codeAll, codeAll, ih, List.append_assoc]

theorem codeAll_singleton (o : Outline) : codeAll [o] = o.code :=
  List.append_nil _

mutual

theorem map_text_rows : ∀ (o : Outline) (depth : Nat), (o.rows depth).map Row.text = o.texts
  | line text, depth => rfl
  | block header first rest, depth => by
    rw [rows, texts, List.map_cons, List.map_append, map_text_rows first, map_text_rowsAll rest]

theorem map_text_rowsAll : ∀ (os : List Outline) (depth : Nat),
    (rowsAll depth os).map Row.text = textsAll os
  | [], _ => rfl
  | o :: rest, depth => by
    rw [rowsAll, textsAll, List.map_append, map_text_rows o, map_text_rowsAll rest]

end

/-- What the lines from each one on belong to: a line has all deeper lines below it, which must be
one level deeper or stand below such a line. -/
def gather : List (Nat × String) → Option (List (Nat × Outline))
  | [] => some []
  | (depth, text) :: rest => do
    let found ← gather rest
    let below := found.takeWhile (depth < ·.1)
    if below.all (·.1 == depth + 1) then
      let own := match below.map (·.2) with
        | [] => line text
        | first :: more => block text first more
      some ((depth, own) :: found.dropWhile (depth < ·.1))
    else none

/-- What lines at this depth belong to. -/
def ofRows? (depth : Nat) (lines : List (Nat × String)) : Option (List Outline) := do
  let found ← gather lines
  if found.all (·.1 == depth) then some (found.map (·.2)) else none

/-- Lines that stand no deeper end the block before them. -/
theorem splits {depth : Nat} {found : List (Nat × Outline)}
    (hfound : ∀ x ∈ found.head?, x.1 ≤ depth) (os : List Outline) :
    (os.map (depth + 1, ·) ++ found).takeWhile (depth < ·.1) = os.map (depth + 1, ·) ∧
      (os.map (depth + 1, ·) ++ found).dropWhile (depth < ·.1) = found := by
  have hdeeper : ∀ x ∈ os.map (depth + 1, ·), decide (depth < x.1) = true := by
    rw [List.forall_mem_map]
    exact fun _ _ => decide_eq_true (Nat.lt_succ_self depth)
  have hstop : found.takeWhile (depth < ·.1) = [] ∧ found.dropWhile (depth < ·.1) = found := by
    cases found with
    | nil => exact ⟨rfl, rfl⟩
    | cons x rest =>
      have hx : ¬ depth < x.1 := Nat.not_lt.2 (hfound x rfl)
      simp [hx]
  rw [List.takeWhile_append_of_pos hdeeper, List.dropWhile_append_of_pos hdeeper, hstop.1, hstop.2,
    List.append_nil]
  exact ⟨rfl, rfl⟩

mutual

/-- The lines of a block are gathered into it, whatever follows no deeper. -/
theorem gather_rows : ∀ (o : Outline) {depth : Nat} {after : List (Nat × String)}
    {found : List (Nat × Outline)}, (∀ x ∈ found.head?, x.1 ≤ depth) → gather after = some found →
    gather ((o.rows depth).map Row.said ++ after) = some ((depth, o) :: found)
  | line text, depth, after, found, hfound, h => by
    have hnone := splits hfound []
    rw [List.map_nil, List.nil_append] at hnone
    show gather ((depth, text) :: after) = _
    rw [gather, h, Option.bind_eq_bind, Option.bind_some, hnone.1, hnone.2]
    rfl
  | block header first rest, depth, after, found, hfound, h => by
    have hrest : gather ((rowsAll (depth + 1) rest).map Row.said ++ after)
        = some (rest.map (depth + 1, ·) ++ found) :=
      gather_rowsAll rest (fun x hx => Nat.le_succ_of_le (hfound x hx)) h
    have hhead : ∀ x ∈ (rest.map (depth + 1, ·) ++ found).head?, x.1 ≤ depth + 1 := by
      cases rest with
      | nil => exact fun x hx => Nat.le_succ_of_le (hfound x hx)
      | cons o' rest =>
        intro x hx
        cases hx
        exact Nat.le_refl _
    have hbody := gather_rows first hhead hrest
    rw [rows, List.map_cons, List.map_append, List.cons_append, List.append_assoc]
    show gather ((depth, header) :: _) = _
    obtain ⟨htake, hdrop⟩ := splits hfound (first :: rest)
    rw [List.map_cons, List.cons_append] at htake hdrop
    rw [gather, hbody, Option.bind_eq_bind, Option.bind_some, htake, hdrop]
    simp [Function.comp_def]

theorem gather_rowsAll : ∀ (os : List Outline) {depth : Nat} {after : List (Nat × String)}
    {found : List (Nat × Outline)}, (∀ x ∈ found.head?, x.1 ≤ depth) → gather after = some found →
    gather ((rowsAll depth os).map Row.said ++ after) = some (os.map (depth, ·) ++ found)
  | [], depth, after, found, hfound, h => h
  | o :: rest, depth, after, found, hfound, h => by
    have hrest := gather_rowsAll rest hfound h
    have hhead : ∀ x ∈ (rest.map (depth, ·) ++ found).head?, x.1 ≤ depth := by
      cases rest with
      | nil => exact hfound
      | cons o' rest =>
        intro x hx
        cases hx
        exact Nat.le_refl _
    rw [rowsAll, List.map_append, List.append_assoc, gather_rows o hhead hrest]
    rfl

end

/-- Lines belong to the blocks that they were written for. -/
theorem ofRows?_rowsAll (depth : Nat) (os : List Outline) :
    ofRows? depth ((rowsAll depth os).map Row.said) = some os := by
  have h : gather ((rowsAll depth os).map Row.said ++ []) = some (os.map (depth, ·) ++ []) :=
    gather_rowsAll os (fun x hx => by cases hx) rfl
  rw [List.append_nil, List.append_nil] at h
  rw [ofRows?, h, Option.bind_eq_bind, Option.bind_some]
  simp [Function.comp_def]

/-! ## How deep lines stand -/

theorem rows_eq_cons (depth : Nat) (o : Outline) :
    ∃ r rest, o.rows depth = r :: rest ∧ r.depth = depth := by
  cases o <;> exact ⟨_, _, rfl, rfl⟩

mutual

/-- No line stands less deep than its block. -/
theorem le_depth_rows : ∀ (o : Outline) (depth : Nat), ∀ r ∈ o.rows depth, depth ≤ r.depth
  | line text, depth => List.forall_mem_singleton.2 (Nat.le_refl depth)
  | block header first rest, depth => by
    refine List.forall_mem_cons.2 ⟨Nat.le_refl depth, List.forall_mem_append.2 ⟨?_, ?_⟩⟩
    · exact fun r hr => Nat.le_of_succ_le (le_depth_rows first (depth + 1) r hr)
    · exact fun r hr => Nat.le_of_succ_le (le_depth_rowsAll rest (depth + 1) r hr)

theorem le_depth_rowsAll : ∀ (os : List Outline) (depth : Nat),
    ∀ r ∈ rowsAll depth os, depth ≤ r.depth
  | [], _ => nofun
  | o :: rest, depth =>
    List.forall_mem_append.2 ⟨le_depth_rows o depth, le_depth_rowsAll rest depth⟩

end

/-- Right behind every header stands a line one level deeper. -/
def Followed (rs : List Row) : Prop :=
  ∀ (i : Nat) (r : Row), rs[i]? = some r → r.opens = true →
    ∃ r', rs[i + 1]? = some r' ∧ r'.depth = r.depth + 1

theorem Followed.append {rs rs' : List Row} (h : Followed rs) (h' : Followed rs') :
    Followed (rs ++ rs') := by
  intro i r hr hopens
  obtain hi | hi := Nat.lt_or_ge i rs.length
  · rw [List.getElem?_append_left hi] at hr
    obtain ⟨r', hr', hdepth⟩ := h i r hr hopens
    have hi' : i + 1 < rs.length := (List.getElem?_eq_some_iff.1 hr').1
    exact ⟨r', by rw [List.getElem?_append_left hi', hr'], hdepth⟩
  · rw [List.getElem?_append_right hi] at hr
    obtain ⟨r', hr', hdepth⟩ := h' _ r hr hopens
    refine ⟨r', ?_, hdepth⟩
    rw [List.getElem?_append_right (Nat.le_succ_of_le hi), Nat.succ_sub hi]
    exact hr'

theorem Followed.cons {r r' : Row} {rs : List Row} (h : Followed (r' :: rs))
    (hdepth : r'.depth = r.depth + 1) : Followed (r :: r' :: rs) := by
  intro i
  cases i with
  | zero =>
    rintro _ ⟨⟩ -
    exact ⟨r', rfl, hdepth⟩
  | succ i => exact h i

mutual

theorem followed_rows : ∀ (o : Outline) (depth : Nat), Followed (o.rows depth)
  | line text, depth => by
    intro i r hr hopens
    obtain rfl : r = { depth, text } := List.mem_singleton.1 (List.mem_of_getElem? hr)
    cases hopens
  | block header first rest, depth => by
    have hbody := (followed_rows first (depth + 1)).append (followed_rowsAll rest (depth + 1))
    obtain ⟨r, rs, hfirst, hdepth⟩ := rows_eq_cons (depth + 1) first
    rw [rows]
    rw [hfirst, List.cons_append] at hbody ⊢
    exact hbody.cons hdepth

theorem followed_rowsAll : ∀ (os : List Outline) (depth : Nat), Followed (rowsAll depth os)
  | [], _ => fun i r hr => by simp [rowsAll] at hr
  | o :: rest, depth => (followed_rows o depth).append (followed_rowsAll rest depth)

end

end Outline

/-! ## Writing -/

def Row.line (unit : String) (r : Row) : String :=
  if r.text == "" then "" else Text.repeated r.depth unit ++ r.text

namespace CodeWriter

def addRows (w : CodeWriter) (rs : List Row) : CodeWriter :=
  { w with written := (rs.map (Row.line w.unit)).reverse ++ w.written }

theorem addRows_append (w : CodeWriter) (rs rs' : List Row) :
    w.addRows (rs ++ rs') = (w.addRows rs).addRows rs' := by
  simp [addRows]

/-- The text so far, and then the lines. -/
theorem out_addRows (w : CodeWriter) (rs : List Row) :
    (w.addRows rs).out = w.out ++ Text.unlines (rs.map (Row.line w.unit)) := by
  simp [out, addRows, Text.unlines, String.join_append]

end CodeWriter

namespace Outline

mutual

/-- The code of blocks is written as their lines, at the depth of the writer. -/
theorem code_code : ∀ (o : Outline) (w : CodeWriter), w.code o.code = w.addRows (o.rows w.depth)
  | line text, w => w.code_line text
  | block header first rest, w => by
    have hbody : (w.line header).indent.code (first.code ++ codeAll rest) = ((w.line header).addRows
        (first.rows (w.depth + 1) ++ rowsAll (w.depth + 1) rest)).indent := by
      rw [CodeWriter.code_append, code_code first, code_codeAll rest, CodeWriter.addRows_append]
      rfl
    rw [code, CodeWriter.code_append, CodeWriter.code_line, ← CodeWriter.dedent_indent
      (CodeWriter.code _ _), ← CodeWriter.code_indent, hbody, CodeWriter.dedent_indent]
    exact (w.addRows_append [⟨w.depth, header, true⟩] _).symm

theorem code_codeAll : ∀ (os : List Outline) (w : CodeWriter),
    w.code (codeAll os) = w.addRows (rowsAll w.depth os)
  | [], w => rfl
  | o :: rest, w => by
    rw [codeAll, CodeWriter.code_append, code_code o, code_codeAll rest, rowsAll,
      CodeWriter.addRows_append]
    rfl

end

end Outline

end Scaffold
