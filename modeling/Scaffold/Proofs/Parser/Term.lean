import Scaffold.Proofs.Parser.Basic
import Scaffold.Source.Parser.Term

/-!
# Types and expressions are only read

The parsers of types, literals and expressions keep to reading, and what they return holds exactly
the names they came across.
-/

namespace Scaffold.Source.Parser

variable {env : ParserEnv} {pre : List Use}

/-! ## Types and literals -/

theorem sizeOr_scans (fallback : Nat) : Scans env [] (sizeOr fallback) fun _ => [] := by
  refine (skipPunct_scans _).bind fun _ => ?_
  split
  · exact .bind integer_scans fun _ => (expectPunct_scans _).bind fun _ => .pure (by simp)
  · exact .pure (by simp)

/-- The precision of a number type is passed over, whatever stands in it. -/
theorem skipPrecision_scans : Scans env [] skipPrecision fun _ => [] := by
  refine (skipPunct_scans _).bind fun _ => ?_
  split
  · refine (untilClose_scans .parenClose (fun _ => advance_scans) ()).bind fun _ => ?_
    exact expectPunct_scans _
  · exact .pure (by simp)

/-- The one name in a type is that of a declaration, behind any number of `list<`. -/
theorem typeFuel_scans : ∀ fuel : Nat, Scans env [] (typeFuel fuel) TypeRef.uses
  | 0 => expected_scans _
  | fuel + 1 => by
    refine .bind ident_scans fun word => (isPunct_scans _).bind fun _ => ?_
    split
    · refine .bind advance_scans fun _ => (typeFuel_scans fuel).bind fun item => ?_
      exact (expectPunct_scans _).bind fun _ => .pure (by simp [TypeRef.uses])
    · split
      · exact (sizeOr_scans _).bind fun _ => .pure (by simp [TypeRef.uses])
      · split
        · exact (sizeOr_scans _).bind fun _ => .pure (by simp [TypeRef.uses])
        · split
          · split
            · exact .bind skipPrecision_scans fun _ => .pure (by simp [TypeRef.uses])
            · exact .pure (by simp [TypeRef.uses])
          · exact (nameRef_scans .type _ _).bind fun _ => .pure (by simp [TypeRef.uses])

theorem typeRef_scans : Scans env [] typeRef TypeRef.uses :=
  .bind remaining_scans fun _ => typeFuel_scans _

theorem literal_scans : Scans env [] literal fun _ => [] := by
  refine (skipPunct_scans _).bind fun _ => .bind peek_scans fun _ => ?_
  split <;> dsimp only <;> split
  · exact .bind advance_scans fun _ => .pure (by simp)
  · exact expected_scans _
  · exact .bind advance_scans fun _ => .pure (by simp)
  · exact expected_scans _

theorem namesFuel_scans : ∀ (fuel : Nat) (names : List String),
    Scans env [] (nameList.namesFuel fuel names) fun _ => []
  | 0, _ => .pure (by simp)
  | fuel + 1, names => by
    refine .bind ident_scans fun _ => (skipPunct_scans _).bind fun _ => ?_
    split
    · exact namesFuel_scans fuel _
    · exact .pure (by simp)

theorem nameList_scans : Scans env [] nameList fun _ => [] :=
  (expectPunct_scans _).bind fun _ => .bind remaining_scans fun _ =>
    (namesFuel_scans _ _).bind fun _ => (expectPunct_scans _).bind fun _ => .pure (by simp)

/-! ## Expressions -/

theorem usesAll_append (es es' : List Expr) :
    Expr.usesAll (es ++ es') = Expr.usesAll es ++ Expr.usesAll es' := by
  induction es with
  | nil => rfl
  | cons e es ih => simp [Expr.usesAll, ih]

theorem pathFuel_scans : ∀ (fuel : Nat) (names : List String),
    Scans env [] (nativePath.pathFuel fuel names) fun _ => []
  | 0, _ => .pure (by simp)
  | fuel + 1, names => by
    refine (skipPunct_scans _).bind fun _ => ?_
    split
    · exact .bind ident_scans fun _ => pathFuel_scans fuel _
    · exact .pure (by simp)

theorem nativePath_scans : Scans env [] nativePath fun _ => [] :=
  .bind ident_scans fun _ => .bind remaining_scans fun _ => pathFuel_scans _ _

section

variable {inner : Parser Expr} (hinner : Scans env [] inner Expr.uses)
include hinner

/-- What the loop carries are the names of the arguments that were read before. -/
theorem arguments_scans : Scans env [] (arguments inner) Expr.usesAll := by
  have hstep : ∀ args, Scans env (Expr.usesAll args) (do return args ++ [← inner]) Expr.usesAll :=
    fun args => hinner.bind fun e => .pure (by simp [usesAll_append, Expr.usesAll])
  refine (expectPunct_scans _).bind fun _ => ?_
  refine Scans.andThen (commaList_scans .parenClose hstep []) fun args => ?_
  exact (expectPunct_scans _).bind fun _ => .pure (by simp)

theorem primary_scans : Scans env [] (primary inner) Expr.uses := by
  refine .bind peek_scans fun t => ?_
  split
  · exact .bind advance_scans fun _ => .pure (by simp [Expr.uses])
  · split
    · refine .bind advance_scans fun _ => (nameRef_scans .value _ _).bind fun _ => ?_
      exact .pure (by simp [Expr.uses])
    · refine .bind advance_scans fun _ => hinner.bind fun _ => ?_
      exact (expectPunct_scans _).bind fun _ => .pure (by simp)
    · refine .bind advance_scans fun _ => .bind nativePath_scans fun _ => ?_
      exact (arguments_scans hinner).bind fun _ => .pure (by simp [Expr.uses])
    · exact expected_scans _

/-- Every round puts the expression so far into a larger one, whose names are those it had before and
those of the arguments of a call. -/
theorem suffixFuel_scans : ∀ (fuel : Nat) (e : Expr),
    Scans env e.uses (suffixFuel inner fuel e) Expr.uses
  | 0, e => .pure fun _ => id
  | fuel + 1, e => by
    refine (skipPunct_scans _).bind fun _ => ?_
    split
    · refine .bind ident_scans fun name => ?_
      exact (suffixFuel_scans fuel (.member e name.1)).mono (by simp [Expr.uses]) fun _ _ => id
    · refine (isPunct_scans _).bind fun _ => ?_
      split
      · refine (arguments_scans hinner).bind fun args => ?_
        exact (suffixFuel_scans fuel (.call e args)).mono (by simp [Expr.uses]) fun _ _ => id
      · exact .pure (by simp)

theorem suffixed_scans : Scans env [] (suffixed inner) Expr.uses := by
  refine (primary_scans hinner).andThen fun e => .skip remaining_scans fun _ => ?_
  exact suffixFuel_scans hinner _ e

end

theorem operator?_scans (level : OperatorLevel) : Scans env [] (operator? level) fun _ => [] := by
  refine .bind peek_scans fun _ => ?_
  split <;> exact .pure (by simp)

/-- The left operand grows with every operator, so its names come first. -/
theorem chainFuel_scans (level : OperatorLevel) {operand : Parser Expr}
    (h : Scans env [] operand Expr.uses) : ∀ (fuel : Nat) (lhs : Expr),
    Scans env lhs.uses (chainFuel level operand fuel lhs) Expr.uses
  | 0, lhs => .pure fun _ => id
  | fuel + 1, lhs => by
    refine (operator?_scans level).bind fun _ => ?_
    split
    · refine .bind advance_scans fun _ => h.bind fun rhs => ?_
      exact (chainFuel_scans level h fuel (.binary _ lhs rhs)).mono (by simp [Expr.uses])
        fun _ _ => id
    · exact .pure (by simp)

/-- The levels of operators are nested, and each of them reads the tighter ones as its operands. -/
theorem binary_scans {unary : Parser Expr} (h : Scans env [] unary Expr.uses) :
    ∀ levels : List OperatorLevel, Scans env [] (binary unary levels) Expr.uses
  | [] => h
  | level :: tighter => by
    refine (binary_scans h tighter).andThen fun lhs => .skip remaining_scans fun _ => ?_
    exact chainFuel_scans level (binary_scans h tighter) _ lhs

theorem unaryFuel_scans : ∀ fuel : Nat, Scans env [] (unaryFuel fuel) Expr.uses
  | 0 => expected_scans _
  | fuel + 1 => by
    refine .bind peek_scans fun _ => ?_
    split
    · refine .bind advance_scans fun _ => (unaryFuel_scans fuel).bind fun _ => ?_
      exact .pure (by simp [Expr.uses])
    · refine .bind advance_scans fun _ => (unaryFuel_scans fuel).bind fun _ => ?_
      exact .pure (by simp [Expr.uses])
    · exact suffixed_scans (binary_scans (unaryFuel_scans fuel) _)

theorem expr_scans : Scans env [] expr Expr.uses :=
  .bind remaining_scans fun _ => binary_scans (unaryFuel_scans _) _

theorem condition_scans : Scans env [] condition Expr.uses :=
  (expectPunct_scans _).bind fun _ => .bind expr_scans fun _ =>
    (expectPunct_scans _).bind fun _ => .pure (by simp)

end Scaffold.Source.Parser
