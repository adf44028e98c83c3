import Scaffold.Dialect

/-!
# Blocks, written as they are met

A generator writes statements one after the other with a writer that knows how deep it stands: a
header opens a block, and each `else` closes the block before it and opens the next. Code that is
put together first and written then comes to the same (`Dialect.writeBlock_eq`). So every block that
is opened is closed once: one closed too often would not show where the writer stands at no depth.
-/

namespace Scaffold

open Model

namespace CodeWriter

variable (w : CodeWriter) (c c' : Code)

def code : CodeWriter :=
  c.foldl item w

theorem code_append : w.code (c ++ c') = (w.code c).code c' :=
  List.foldl_append

theorem code_line (text : String) : w.code (.line text) = w.line text := by
  cases w
  rfl

theorem dedent_indent : w.indent.dedent = w := by
  simp [indent, dedent]

/-- Deeper code is written one level deeper. -/
theorem code_indent : w.indent.code c = (w.code (.nest c)).indent := by
  induction c generalizing w with
  | nil => rfl
  | cons i rest ih =>
    have hitem : w.indent.item i = (w.code (.nest [i])).indent := by
      cases i with
      | line depth text =>
        have hdepth : w.depth + 1 + depth = w.depth + (depth + 1) := by omega
        simp [code, item, line, indent, Code.nest, hdepth]
      | blank =>
        show w.indent.blank = w.blank.indent
        unfold blank
        have hgap : w.indent.atGap = w.atGap := rfl
        rw [hgap]
        split <;> rfl
    show (w.indent.item i).code rest = (w.code (Code.nest [i] ++ Code.nest rest)).indent
    rw [hitem, ih, code_append]

end CodeWriter

namespace Dialect

def closeBlock (d : Dialect) (w : CodeWriter) : CodeWriter :=
  if d.blockClose == "" then w.dedent else w.dedent.line d.blockClose

/-- The body of a block, where `written` has its statements. -/
def fill (d : Dialect) (w : CodeWriter) (body : List Stmt) (written : CodeWriter) : CodeWriter :=
  if body.isEmpty then (d.emptyBlock.map w.line).getD w else written

mutual

/-- Writes a statement. -/
def writeStmt (d : Dialect) (w : CodeWriter) : Stmt → CodeWriter
  | .declare name type init => w.line (d.declare name type (init.map d.expr) ++ d.terminator)
  | .assign target value => w.line (d.expr target ++ " = " ++ d.expr value ++ d.terminator)
  | .cond test yes no =>
    let opened := w.openBlock (d.ifOpen (d.expr test))
    d.closeBlock (d.writeElse (d.fill opened yes (d.writeStmts opened yes)) no)
  | .loop test body =>
    let opened := w.openBlock (d.whileOpen (d.expr test))
    d.closeBlock (d.fill opened body (d.writeStmts opened body))
  | .each var iter body =>
    let opened := w.openBlock (d.forOpen var iter)
    d.closeBlock (d.fill opened body (d.writeStmts opened body))
  | .ret (some e) => w.line ("return " ++ d.expr e ++ d.terminator)
  | .ret none => w.line ("return" ++ d.terminator)
  | .leave => w.line ("break" ++ d.terminator)
  | .next => w.line ("continue" ++ d.terminator)
  | .expr e => w.line (d.expr e ++ d.terminator)

/-- Writes statements one after the other. -/
def writeStmts (d : Dialect) (w : CodeWriter) : List Stmt → CodeWriter
  | [] => w
  | s :: rest => d.writeStmts (d.writeStmt w s) rest

/-- Writes the `else` of a choice whose block is open: it is closed, and the next one opened. -/
def writeElse (d : Dialect) (w : CodeWriter) : Option (List Stmt) → CodeWriter
  | none => w
  | some [.cond test yes no] =>
    let opened := w.dedent.openBlock (d.elseIfOpen (d.expr test))
    d.writeElse (d.fill opened yes (d.writeStmts opened yes)) no
  | some body =>
    let opened := w.dedent.openBlock d.elseOpen
    d.fill opened body (d.writeStmts opened body)

end

def writeBlock (d : Dialect) (w : CodeWriter) (body : List Stmt) : CodeWriter :=
  d.fill w body (d.writeStmts w body)

variable {d : Dialect}

/-- No statement is written as nothing. -/
theorem stmts_ne_nil : ∀ {body : List Stmt}, body ≠ [] → d.stmts body ≠ []
  | [], h => absurd rfl h
  | s :: rest, _ => by
    rw [stmts]
    refine List.append_ne_nil_of_left_ne_nil ?_ _
    cases s with
    | ret value => cases value <;> exact List.cons_ne_nil _ _
    | cond test yes no =>
      rw [stmt, List.append_assoc, List.append_assoc]
      exact List.cons_ne_nil _ _
    | loop test body =>
      rw [stmt, List.append_assoc]
      exact List.cons_ne_nil _ _
    | each var iter body =>
      rw [stmt, List.append_assoc]
      exact List.cons_ne_nil _ _
    | _ => exact List.cons_ne_nil _ _

theorem fill_eq {w : CodeWriter} {body : List Stmt}
    (h : d.writeStmts w body = w.code (d.stmts body)) :
    d.fill w body (d.writeStmts w body) = w.code (d.block body) := by
  unfold fill block filled
  cases body with
  | nil =>
    cases d.emptyBlock with
    | none => rfl
    | some filler => exact (w.code_line filler).symm
  | cons s rest =>
    have hne := List.isEmpty_eq_false_iff.2 (stmts_ne_nil (d := d) (List.cons_ne_nil s rest))
    rw [h, hne]
    rfl

/-- A block that is opened is written one level deeper, and stays open. -/
theorem fill_openBlock {w : CodeWriter} {header : String} {body : List Stmt}
    (h : ∀ w, d.writeStmts w body = w.code (d.stmts body)) :
    d.fill (w.openBlock header) body (d.writeStmts (w.openBlock header) body)
      = (w.code (.line header ++ .nest (d.block body))).indent := by
  rw [fill_eq (h _), CodeWriter.openBlock, CodeWriter.code_indent, CodeWriter.code_append,
    CodeWriter.code_line]

theorem closeBlock_indent (w : CodeWriter) : d.closeBlock w.indent = w.code d.close := by
  unfold closeBlock close
  rw [CodeWriter.dedent_indent]
  split
  · rfl
  · exact (w.code_line _).symm

mutual

/-- Writing statements as they are met writes their code. -/
theorem writeStmt_eq (w : CodeWriter) : (s : Stmt) → d.writeStmt w s = w.code (d.stmt s)
  | .declare .. | .assign .. | .ret (some _) | .ret none | .leave | .next | .expr _ =>
    (w.code_line _).symm
  | .cond test yes no => by
    rw [writeStmt, fill_openBlock fun w => writeStmts_eq w yes, writeElse_eq _ no,
      closeBlock_indent, ← CodeWriter.code_append, ← CodeWriter.code_append, stmt, block,
      List.append_assoc, List.append_assoc, List.append_assoc]
  | .loop test body => by
    rw [writeStmt, fill_openBlock fun w => writeStmts_eq w body, closeBlock_indent,
      ← CodeWriter.code_append, stmt]
    rfl
  | .each var iter body => by
    rw [writeStmt, fill_openBlock fun w => writeStmts_eq w body, closeBlock_indent,
      ← CodeWriter.code_append, stmt]
    rfl

theorem writeStmts_eq (w : CodeWriter) : (body : List Stmt) →
    d.writeStmts w body = w.code (d.stmts body)
  | [] => rfl
  | s :: rest => by
    rw [writeStmts, writeStmt_eq w s, writeStmts_eq _ rest, stmts, CodeWriter.code_append]

theorem writeElse_eq (w : CodeWriter) : (no : Option (List Stmt)) →
    d.writeElse w.indent no = (w.code (d.otherwise no)).indent
  | none => rfl
  | some body => by
    -- Only a single choice is no block of its own.
    have hblock : ∀ {body}, (∀ w, d.writeStmts w body = w.code (d.stmts body)) →
        d.fill (w.indent.dedent.openBlock d.elseOpen) body
            (d.writeStmts (w.indent.dedent.openBlock d.elseOpen) body)
          = (w.code (.line d.elseOpen ++ .nest (d.block body))).indent := fun h => by
      rw [CodeWriter.dedent_indent, fill_openBlock h]
    cases body with
    | nil => exact hblock fun w => writeStmts_eq w []
    | cons s rest =>
      cases rest with
      | cons s' rest =>
        rw [writeElse, otherwise]
        · exact hblock fun w => writeStmts_eq w (s :: s' :: rest)
        · nofun
        · nofun
      | nil =>
        cases s with
        | cond test yes no =>
          rw [writeElse, CodeWriter.dedent_indent, fill_openBlock fun w => writeStmts_eq w yes,
            writeElse_eq _ no, ← CodeWriter.code_append, otherwise]
          rfl
        | _ => exact hblock fun w => writeStmts_eq w [_]

end

/-- A body is written as its code, and the writer is left at the depth it had. -/
theorem writeBlock_eq (w : CodeWriter) (body : List Stmt) :
    d.writeBlock w body = w.code (d.block body) :=
  fill_eq (writeStmts_eq w body)

end Dialect

end Scaffold
