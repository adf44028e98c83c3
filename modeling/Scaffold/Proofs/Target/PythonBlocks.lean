import Scaffold.Proofs.Target.Outline
import Scaffold.Target.Python

/-!
# Blocks in Python

Python closes no block: its header ends with a colon, the block is what stands deeper below it, and
`pass` stands in an empty one. Each `elif` of a choice stands beside its `if`, so statements are put
together again from the last line on, where an `elif` or `else` waits for the header before it.

* `stmts_eq`: statements are written as the lines of their blocks.
* `readRows_rows`: the lines give back the statements.
-/

namespace Scaffold.Target.Python

open Model

/-! ## What is written -/

/-- The header of a block. -/
inductive Head where
  | choice (test : String)
  | again (test : String)
  | otherwise
  | loop (test : String)
  | each (run : String)

/-- The line of a header. -/
def Head.line : Head → String
  | .choice test => "if " ++ test ++ ":"
  | .again test => "elif " ++ test ++ ":"
  | .otherwise => "else:"
  | .loop test => "while " ++ test ++ ":"
  | .each run => "for " ++ run ++ ":"

/-- What the loop over items or numbers says behind its first word. -/
def runText (var : String) : ForIter → String
  | .range first last =>
    var ++ " in range(" ++ dialect.expr first ++ ", " ++ dialect.expr last ++ ")"
  | .each items => var ++ " in " ++ dialect.expr items

/-- The line of a statement that has no block. -/
def lineText : Stmt → String
  | .declare name type init => declare name type (init.map dialect.expr)
  | .assign target value => dialect.expr target ++ " = " ++ dialect.expr value
  | .ret (some e) => "return " ++ dialect.expr e
  | .ret none => "return"
  | .leave => "break"
  | .next => "continue"
  | .expr e => dialect.expr e
  | .cond .. | .loop .. | .each .. => ""

/-- The lines of a block, which is not left empty. -/
def filler : List Outline → List Outline
  | [] => [.line "pass"]
  | os => os

/-- A header with its block. -/
def under (head : Head) (os : List Outline) : Outline :=
  match os with
  | [] => .block head.line (.line "pass") []
  | first :: rest => .block head.line first rest

mutual

/-- The lines of a statement by their blocks. The branches of a choice stand beside each other. -/
def outline : Stmt → List Outline
  | .cond test yes no => under (.choice (dialect.expr test)) (outlines yes) :: branches no
  | .loop test body => [under (.loop (dialect.expr test)) (outlines body)]
  | .each var iter body => [under (.each (runText var iter)) (outlines body)]
  | .declare name type init => [.line (lineText (.declare name type init))]
  | .assign target value => [.line (lineText (.assign target value))]
  | .ret value => [.line (lineText (.ret value))]
  | .leave => [.line (lineText .leave)]
  | .next => [.line (lineText .next)]
  | .expr e => [.line (lineText (.expr e))]

/-- Those of statements. -/
def outlines : List Stmt → List Outline
  | [] => []
  | s :: rest => outline s ++ outlines rest

/-- Those of the `else` of a choice, which a single choice in it continues. -/
def branches : Option (List Stmt) → List Outline
  | none => []
  | some [.cond test yes no] => under (.again (dialect.expr test)) (outlines yes) :: branches no
  | some body => [under .otherwise (outlines body)]

end

theorem code_ne_nil (o : Outline) : o.code ≠ [] := by
  cases o <;> exact List.cons_ne_nil _ _

theorem filled_codeAll (os : List Outline) :
    dialect.filled (Outline.codeAll os) = Outline.codeAll (filler os) := by
  cases os with
  | nil => rfl
  | cons o rest =>
    have hne : (Outline.codeAll (o :: rest)).isEmpty = false :=
      List.isEmpty_eq_false_iff.2 (List.append_ne_nil_of_left_ne_nil (code_ne_nil o) _)
    rw [Dialect.filled, hne]
    rfl

theorem code_under (head : Head) (os : List Outline) :
    (under head os).code = .line head.line ++ .nest (dialect.filled (Outline.codeAll os)) := by
  rw [filled_codeAll]
  cases os <;> rfl

theorem terminator_eq : dialect.terminator = "" := rfl

theorem close_eq : dialect.close = [] := rfl

theorem forOpen_eq (var : String) (iter : ForIter) :
    dialect.forOpen var iter = (Head.each (runText var iter)).line := by
  cases iter with
  | range first last =>
    have heq : dialect.forOpen var (.range first last) = "for " ++ var ++ " in range("
      ++ dialect.expr first ++ ", " ++ dialect.expr last ++ "):" := rfl
    rw [heq, ← String.toList_inj]
    simp [Head.line, runText, String.toList_append]
  | each items =>
    have heq : dialect.forOpen var (.each items) = "for " ++ var ++ " in " ++ dialect.expr items
      ++ ":" := rfl
    rw [heq, ← String.toList_inj]
    simp [Head.line, runText, String.toList_append]

theorem line_eq (text : String) :
    Code.line (text ++ dialect.terminator) = Outline.codeAll [.line text] := by
  rw [terminator_eq, String.append_empty]
  rfl

mutual

/-- The code of a statement is that of its blocks. -/
theorem stmt_eq : (s : Stmt) → dialect.stmt s = Outline.codeAll (outline s)
  | .declare .. | .assign .. | .ret (some _) | .ret none | .leave | .next | .expr _ => line_eq _
  | .cond test yes no => by
    rw [Dialect.stmt, outline, Outline.codeAll, code_under, stmts_eq yes, otherwise_eq no, close_eq,
      List.append_nil]
    rfl
  | .loop test body => by
    rw [Dialect.stmt, outline, Outline.codeAll_singleton, code_under, stmts_eq body, close_eq,
      List.append_nil]
    rfl
  | .each var iter body => by
    rw [Dialect.stmt, outline, Outline.codeAll_singleton, code_under, stmts_eq body, forOpen_eq,
      close_eq, List.append_nil]

theorem stmts_eq : (body : List Stmt) → dialect.stmts body = Outline.codeAll (outlines body)
  | [] => rfl
  | s :: rest => by
    rw [Dialect.stmts, stmt_eq s, stmts_eq rest, outlines, Outline.codeAll_append]

theorem otherwise_eq : (no : Option (List Stmt)) →
    dialect.otherwise no = Outline.codeAll (branches no)
  | none => rfl
  | some body => by
    -- Only a single choice continues the chain.
    have helse : Code.line dialect.elseOpen ++ .nest (dialect.filled (dialect.stmts body))
        = Outline.codeAll [under .otherwise (outlines body)] := by
      rw [Outline.codeAll_singleton, code_under, stmts_eq body]
      rfl
    cases body with
    | nil => exact helse
    | cons s rest =>
      cases rest with
      | cons s' rest =>
        rw [Dialect.otherwise, branches]
        · exact helse
        all_goals nofun
      | nil =>
        cases s with
        | cond test yes no =>
          rw [Dialect.otherwise, branches, Outline.codeAll, code_under, stmts_eq yes,
            otherwise_eq no]
          rfl
        | _ => exact helse

end

/-- The code of a body is that of its blocks. -/
theorem block_eq (body : List Stmt) :
    dialect.block body = Outline.codeAll (filler (outlines body)) := by
  rw [Dialect.block, stmts_eq, filled_codeAll]

/-! ## What is read -/

/-- A statement as its lines show it. -/
inductive Shown where
  | line (text : String)
  | choice (test : String) (yes : List Shown) (no : Option (List Shown))
  | loop (test : String) (body : List Shown)
  | each (run : String) (body : List Shown)

/-- A block as its lines show it: an empty one shows `pass`. -/
def Shown.block (body : List Shown) : List Shown :=
  if body.isEmpty then [.line "pass"] else body

mutual

/-- What is to be read of a statement. -/
def shown : Stmt → Shown
  | .cond test yes no => .choice (dialect.expr test) (Shown.block (shownAll yes)) (shownElse no)
  | .loop test body => .loop (dialect.expr test) (Shown.block (shownAll body))
  | .each var iter body => .each (runText var iter) (Shown.block (shownAll body))
  | .declare name type init => .line (lineText (.declare name type init))
  | .assign target value => .line (lineText (.assign target value))
  | .ret value => .line (lineText (.ret value))
  | .leave => .line (lineText .leave)
  | .next => .line (lineText .next)
  | .expr e => .line (lineText (.expr e))

/-- What is to be read of statements. -/
def shownAll : List Stmt → List Shown
  | [] => []
  | s :: rest => shown s :: shownAll rest

/-- What is to be read of an `else`. -/
def shownElse : Option (List Stmt) → Option (List Shown)
  | none => none
  | some body => some (Shown.block (shownAll body))

end

/-- What stands in front of the colon at the end. -/
def beforeColon? (cs : List Char) : Option String :=
  if cs.getLast? == some ':' then some (String.ofList cs.dropLast) else none

/-- The header that a line is. -/
def head? (text : String) : Option Head :=
  match text.toList with
  | ['e', 'l', 's', 'e', ':'] => some .otherwise
  | 'i' :: 'f' :: ' ' :: rest => (beforeColon? rest).map .choice
  | 'e' :: 'l' :: 'i' :: 'f' :: ' ' :: rest => (beforeColon? rest).map .again
  | 'w' :: 'h' :: 'i' :: 'l' :: 'e' :: ' ' :: rest => (beforeColon? rest).map .loop
  | 'f' :: 'o' :: 'r' :: ' ' :: rest => (beforeColon? rest).map .each
  | _ => none

/-- What is read from the last line on: an `else` that waits for its choice, and statements. -/
abbrev Behind := Option (List Shown) × List Shown

/-- Puts a header with its block in front. -/
def attach (body : List Shown) : Head → Behind → Option Behind
  | .choice test, (no, after) => some (none, .choice test body no :: after)
  | .again test, (no, after) => some (some [.choice test body no], after)
  | .otherwise, (none, after) => some (some body, after)
  | .loop test, (none, after) => some (none, .loop test body :: after)
  | .each run, (none, after) => some (none, .each run body :: after)
  | _, (some _, _) => none

mutual

/-- Reads a line or a block in front. -/
def readOne : Outline → Behind → Option Behind
  | .line text, (none, after) => some (none, .line text :: after)
  | .line _, (some _, _) => none
  | .block header first rest, behind => do
    match ← readOne first (← readAll rest) with
    | (none, body) => attach body (← head? header) behind
    | (some _, _) => none

/-- Reads lines and blocks from the last one on. -/
def readAll : List Outline → Option Behind
  | [] => some (none, [])
  | o :: rest => do readOne o (← readAll rest)

end

/-- The statements of lines at this depth. -/
def readRows (depth : Nat) (lines : List (Nat × String)) : Option (List Shown) := do
  match ← readAll (← Outline.ofRows? depth lines) with
  | (none, body) => some body
  | (some _, _) => none

theorem beforeColon?_append (test : String) :
    beforeColon? (test.toList ++ [':']) = some test := by
  rw [beforeColon?, List.getLast?_concat, List.dropLast_concat, String.ofList_toList]
  rfl

theorem head?_line (head : Head) : head? head.line = some head := by
  cases head with
  | otherwise => rfl
  | _ => simp [head?, Head.line, String.toList_append, beforeColon?_append]

/-- The lines of a block, read as those of its statements, give the block. -/
theorem readAll_filler {body : List Stmt}
    (h : readAll (outlines body) = some (none, shownAll body)) :
    readAll (filler (outlines body)) = some (none, Shown.block (shownAll body)) := by
  cases body with
  | nil => rfl
  | cons s rest =>
    have hne : outlines (s :: rest) ≠ [] := by
      intro hnil
      rw [hnil] at h
      cases h
    have hfiller : filler (outlines (s :: rest)) = outlines (s :: rest) := by
      rw [filler.eq_def]
      split
      · exact absurd ‹_› hne
      · rfl
    rw [hfiller, h]
    rfl

/-- A header and its block are read as one. -/
theorem readOne_under {body : List Stmt}
    (h : readAll (outlines body) = some (none, shownAll body)) (head : Head) (behind : Behind) :
    readOne (under head (outlines body)) behind
      = attach (Shown.block (shownAll body)) head behind := by
  have hfiller := readAll_filler h
  cases hos : outlines body with
  | nil =>
    rw [hos] at hfiller
    have hpass : [Shown.line "pass"] = Shown.block (shownAll body) :=
      congrArg Prod.snd (Option.some.inj hfiller)
    rw [under, readOne, head?_line, ← hpass]
    rfl
  | cons first rest =>
    rw [hos] at hfiller
    obtain ⟨found, hrest, hfirst⟩ := Option.bind_eq_some_iff.1 hfiller
    simp [under, readOne, hrest, hfirst, head?_line]

mutual

/-- A statement is read in front of others. -/
theorem readAll_outline : (s : Stmt) → {os : List Outline} → {after : List Shown} →
    readAll os = some (none, after) → readAll (outline s ++ os) = some (none, shown s :: after)
  | .declare .., _, _, h | .assign .., _, _, h | .ret _, _, _, h | .leave, _, _, h
  | .next, _, _, h | .expr _, _, _, h => by
    simp [outline, shown, readAll, h, readOne]
  | .cond test yes no, os, after, h => by
    rw [outline, List.cons_append, readAll, readAll_branches no h]
    exact readOne_under (readAll_outlines yes) _ _
  | .loop test body, os, after, h => by
    rw [outline, List.singleton_append, readAll, h]
    exact readOne_under (readAll_outlines body) _ _
  | .each var iter body, os, after, h => by
    rw [outline, List.singleton_append, readAll, h]
    exact readOne_under (readAll_outlines body) _ _

theorem readAll_outlines : (body : List Stmt) →
    readAll (outlines body) = some (none, shownAll body)
  | [] => rfl
  | s :: rest => readAll_outline s (readAll_outlines rest)

/-- The branches of a choice wait for it. -/
theorem readAll_branches : (no : Option (List Stmt)) → {os : List Outline} →
    {after : List Shown} → readAll os = some (none, after) →
    readAll (branches no ++ os) = some (shownElse no, after)
  | none, os, after, h => h
  | some body, os, after, h => by
    have helse : readAll (under .otherwise (outlines body) :: os)
        = some (shownElse (some body), after) := by
      rw [readAll, h]
      exact readOne_under (readAll_outlines body) _ _
    cases body with
    | nil => exact helse
    | cons s rest =>
      cases rest with
      | cons s' rest =>
        rw [branches]
        · exact helse
        · nofun
      | nil =>
        cases s with
        | cond test yes no =>
          rw [branches, List.cons_append, readAll, readAll_branches no h]
          exact readOne_under (readAll_outlines yes) _ _
        | _ => exact helse

end

/-- The lines of a body give back its statements. -/
theorem readRows_rows (depth : Nat) (body : List Stmt) :
    readRows depth ((Outline.rowsAll depth (filler (outlines body))).map Row.said)
      = some (Shown.block (shownAll body)) := by
  rw [readRows, Outline.ofRows?_rowsAll, Option.bind_eq_bind, Option.bind_some,
    readAll_filler (readAll_outlines body)]
  rfl

end Scaffold.Target.Python
