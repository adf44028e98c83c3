import Scaffold.Proofs.Parser.Agreement
import Scaffold.Source.Parser.Term

/-!
# Types, expressions and statements in two sessions

The parsers of types, expressions and statements agree on trees that are alike.

* `typeRef_agrees`, `expr_agrees`, `block_agrees`: the statements for the entries.
-/

namespace Scaffold.Source

namespace Parser

variable (K : Link) {env env' : ParserEnv} {w : K.World}

/-! ## Types and literals -/

theorem sizeOr_agrees (fallback : Nat) :
    Agrees K env env' w (sizeOr fallback) (sizeOr fallback) fun _ n n' => n = n' := by
  refine .skipPunct fun opened => ?_
  split
  · exact .integer fun _ => .expectPunct (.pure fun _ _ => rfl)
  · exact .pure fun _ _ => rfl

theorem skipPrecision_agrees :
    Agrees K env env' w skipPrecision skipPrecision fun _ a b => a = b := by
  refine .skipPunct fun opened => ?_
  split
  · refine .same (.untilClose (V := fun _ a b => a = b) (fun _ _ _ _ _ h => h)
      (fun _ _ _ _ _ => .move) rfl) fun _ => ?_
    exact .punct
  · exact .pure fun _ _ => rfl

/-- Types are read alike. -/
abbrev TypesAlike (w : K.World) (t t' : TypeRef) : Prop := t.Alike (K.likeness w) t'

/-- Expressions are read alike. -/
abbrev ExprsAlike (w : K.World) (e e' : Expr) : Prop := e.Alike (K.likeness w) e'

/-- The fuel is the same on both sides, as there are as many tokens. -/
theorem typeFuel_agrees : ∀ (fuel : Nat) (w : K.World),
    Agrees K env env' w (typeFuel fuel) (typeFuel fuel) (TypesAlike K)
  | 0, _ => .expected
  | fuel + 1, w => by
    refine .ident fun word pos pos' hpos => .isNext fun next => ?_
    dsimp only
    split
    · refine .advance (.bind (typeFuel_agrees fuel w) fun w₁ t t' _ ht => .expectPunct ?_)
      exact .pure fun w₂ hle => .list (ht.mono (K.likeness_le hle))
    · split
      · exact .same (sizeOr_agrees K _) fun _ => .pure fun _ _ => .primitive _
      · split
        · exact .same (sizeOr_agrees K _) fun _ => .pure fun _ _ => .primitive _
        · split
          · split
            · exact .same (skipPrecision_agrees K) fun _ => .pure fun _ _ => .primitive _
            · exact .pure fun _ _ => .primitive _
          · exact .nameRef hpos fun w₁ r r' _ hr => .pure fun w₂ hle =>
              .named ((K.likeness_le hle).ref hr)

theorem typeRef_agrees : Agrees K env env' w typeRef typeRef (TypesAlike K) :=
  .remaining fun _ => typeFuel_agrees K _ w

theorem literal_agrees : Agrees K env env' w literal literal fun _ l l' => l = l' := by
  refine .skipPunct fun negative => .peek fun k pos pos' _ => ?_
  dsimp only
  split
  · exact .advance (.pure fun _ _ => rfl)
  · exact .expected

theorem namesFuel_agrees : ∀ (fuel : Nat) (names : List String),
    Agrees K env env' w (nameList.namesFuel fuel names) (nameList.namesFuel fuel names)
      fun _ ns ns' => ns = ns'
  | 0, _ => .pure fun _ _ => rfl
  | fuel + 1, names => by
    refine .ident fun name pos pos' _ => .skipPunct fun more => ?_
    split
    · exact namesFuel_agrees fuel _
    · exact .pure fun _ _ => rfl

theorem nameList_agrees : Agrees K env env' w nameList nameList fun _ ns ns' => ns = ns' :=
  .expectPunct (.remaining fun _ => .same (namesFuel_agrees K _ _) fun _ =>
    .expectPunct (.pure fun _ _ => rfl))

/-! ## Expressions -/

theorem pathFuel_agrees : ∀ (fuel : Nat) (names : List String),
    Agrees K env env' w (nativePath.pathFuel fuel names) (nativePath.pathFuel fuel names)
      fun _ ns ns' => ns = ns'
  | 0, _ => .pure fun _ _ => rfl
  | fuel + 1, names => by
    refine .skipPunct fun more => ?_
    split
    · exact .ident fun _ _ _ _ => pathFuel_agrees fuel _
    · exact .pure fun _ _ => rfl

theorem nativePath_agrees : Agrees K env env' w nativePath nativePath fun _ ns ns' => ns = ns' :=
  .ident fun _ _ _ _ => .remaining fun _ => pathFuel_agrees K _ _

section

variable {inner : Parser Expr}
  (hinner : ∀ w : K.World, Agrees K env env' w inner inner (ExprsAlike K))
include hinner

/-- The lists of arguments grow in step. -/
theorem arguments_agrees (w : K.World) : Agrees K env env' w (arguments inner) (arguments inner)
    fun w es es' => List.Forall₂ (ExprsAlike K w) es es' := by
  refine .expectPunct (.bind (V := fun w => List.Forall₂ (ExprsAlike K w))
    (.commaList (fun _ _ _ _ hle hs => hs.imp fun _ _ h => h.mono (K.likeness_le hle))
      (fun w₁ es es' _ hs => ?_) .nil) fun w₁ es es' _ hs => .expectPunct ?_)
  · refine .bind (hinner w₁) fun w₂ e e' hle he => .pure fun w₃ hle₃ => ?_
    have hs₃ := hs.imp fun _ _ h => h.mono (K.likeness_le (K.trans hle hle₃))
    exact forall₂_snoc hs₃ (he.mono (K.likeness_le hle₃))
  · exact .pure fun _ hle => hs.imp fun _ _ h => h.mono (K.likeness_le hle)

theorem primary_agrees (w : K.World) :
    Agrees K env env' w (primary inner) (primary inner) (ExprsAlike K) := by
  refine .peek fun k pos pos' hpos => ?_
  dsimp only
  split
  · exact .advance (.pure fun _ _ => .literal _)
  · split
    · exact .advance (.nameRef hpos fun w₁ r r' _ hr => .pure fun w₂ hle =>
        .name ((K.likeness_le hle).ref hr))
    · exact .advance (.bind (hinner w) fun w₁ e e' _ he => .expectPunct (.pure fun w₂ hle =>
        he.mono (K.likeness_le hle)))
    · refine .advance (.same (nativePath_agrees K) fun path => ?_)
      exact .bind (arguments_agrees K hinner w) fun w₁ es es' _ hs => .pure fun w₂ hle =>
        .native path hpos (hs.imp fun _ _ h => h.mono (K.likeness_le hle))
    · exact .expected

/-- Where the next token is a point or a parenthesis for one, it is for the other, so both go on or
both stop. -/
theorem suffixFuel_agrees : ∀ (fuel : Nat) (w : K.World) (e e' : Expr), ExprsAlike K w e e' →
    Agrees K env env' w (suffixFuel inner fuel e) (suffixFuel inner fuel e') (ExprsAlike K)
  | 0, _, _, _, he => .pure fun _ hle => he.mono (K.likeness_le hle)
  | fuel + 1, w, e, e', he => by
    refine .skipPunct fun more => ?_
    split
    · exact .ident fun name _ _ _ => suffixFuel_agrees fuel w _ _ (.member name he)
    · refine .isNext fun opened => ?_
      split
      · exact .bind (arguments_agrees K hinner w) fun w₁ es es' hle hs =>
          suffixFuel_agrees fuel w₁ _ _ (.call (he.mono (K.likeness_le hle)) hs)
      · exact .pure fun _ hle => he.mono (K.likeness_le hle)

theorem suffixed_agrees (w : K.World) :
    Agrees K env env' w (suffixed inner) (suffixed inner) (ExprsAlike K) :=
  .bind (primary_agrees K hinner w) fun w₁ _ _ _ he => .remaining fun _ =>
    suffixFuel_agrees K hinner _ w₁ _ _ he

/-- Both come across the same operators, since these are told by the kind of the next token. -/
theorem chainFuel_agrees (level : OperatorLevel) : ∀ (fuel : Nat) (w : K.World) (e e' : Expr),
    ExprsAlike K w e e' →
    Agrees K env env' w (chainFuel level inner fuel e) (chainFuel level inner fuel e') (ExprsAlike K)
  | 0, _, _, _, he => .pure fun _ hle => he.mono (K.likeness_le hle)
  | fuel + 1, w, e, e', he => by
    refine .same (.peek fun k pos pos' _ => ?_) fun op => ?_
    · dsimp only
      split
      · exact .pure fun _ _ => rfl
      · exact .pure fun _ _ => rfl
    · split
      · exact .advance (.bind (hinner w) fun w₁ _ _ hle he' =>
          chainFuel_agrees level fuel w₁ _ _ (.binary _ (he.mono (K.likeness_le hle)) he'))
      · exact .pure fun _ hle => he.mono (K.likeness_le hle)

theorem binary_agrees : ∀ (levels : List OperatorLevel) (w : K.World),
    Agrees K env env' w (binary inner levels) (binary inner levels) (ExprsAlike K)
  | [], w => hinner w
  | level :: tighter, w => .bind (binary_agrees tighter w) fun w₁ _ _ _ he => .remaining fun _ =>
      chainFuel_agrees K (binary_agrees tighter) level _ w₁ _ _ he

end

theorem unaryFuel_agrees : ∀ (fuel : Nat) (w : K.World),
    Agrees K env env' w (unaryFuel fuel) (unaryFuel fuel) (ExprsAlike K)
  | 0, _ => .expected
  | fuel + 1, w => by
    refine .peek fun k pos pos' _ => ?_
    dsimp only
    split
    · exact .advance (.bind (unaryFuel_agrees fuel w) fun w₁ _ _ _ he => .pure fun _ hle =>
        .unary _ (he.mono (K.likeness_le hle)))
    · exact .advance (.bind (unaryFuel_agrees fuel w) fun w₁ _ _ _ he => .pure fun _ hle =>
        .unary _ (he.mono (K.likeness_le hle)))
    · exact suffixed_agrees K (binary_agrees K (unaryFuel_agrees fuel) operatorLevels) w

theorem expr_agrees (w : K.World) : Agrees K env env' w expr expr (ExprsAlike K) :=
  .remaining fun _ => binary_agrees K (unaryFuel_agrees K _) operatorLevels w

/-! ## Statements -/

/-- Statements are read alike. -/
abbrev BodiesAlike (w : K.World) (ss ss' : List Stmt) : Prop :=
  List.Forall₂ (Stmt.Alike (K.likeness w)) ss ss'

theorem condition_agrees : Agrees K env env' w condition condition (ExprsAlike K) :=
  .expectPunct (.bind (expr_agrees K w) fun _ _ _ _ he => .expectPunct (.pure fun _ hle =>
    he.mono (K.likeness_le hle)))

theorem exprStmt_agrees {pos pos' : Position} (hpos : K.exact → pos = pos') :
    Agrees K env env' w (exprStmt pos) (exprStmt pos') fun w => Stmt.Alike (K.likeness w) := by
  refine .bind (expr_agrees K w) fun w₁ e e' _ he => .skipPunct fun assigned => ?_
  split
  · exact .bind (expr_agrees K w₁) fun w₂ v v' hle₂ hv => .expectPunct (.pure fun w₃ hle₃ =>
      .assign hpos (he.mono (K.likeness_le (K.trans hle₂ hle₃))) (hv.mono (K.likeness_le hle₃)))
  · exact .expectPunct (.pure fun _ hle => .expr hpos (he.mono (K.likeness_le hle)))

/-- Both declare the variable after its first value was read, in scopes that correspond. -/
theorem declareStmt_agrees :
    Agrees K env env' w declareStmt declareStmt fun w => Stmt.Alike (K.likeness w) := by
  unfold declareStmt
  refine .expect fun pos pos' hpos => .ident fun name namePos namePos' hname => ?_
  dsimp -zeta only
  extract_lets withType withType'
  have hinit : ∀ (w₁ : K.World) type type' init init',
      Option.Rel (TypesAlike K w₁) type type' → Option.Rel (ExprsAlike K w₁) init init' →
      Agrees K env env' w₁
        (do
          expectPunct .semicolon
          declare name .local namePos (← state).owner
          return .declare name type init pos)
        (do
          expectPunct .semicolon
          declare name .local namePos' (← state).owner
          return .declare name type' init' pos')
        fun w => Stmt.Alike (K.likeness w) := fun w₁ type type' init init' htype hinit =>
    .expectPunct (.state fun _ _ _ => .declare hname (fun h => absurd rfl h) (.pure fun w₂ hle =>
      .declare name hpos (relOption_mono (fun _ _ h => h.mono (K.likeness_le hle)) htype)
        (relOption_mono (fun _ _ h => h.mono (K.likeness_le hle)) hinit)))
  have htype : ∀ (w₁ : K.World) type type', Option.Rel (TypesAlike K w₁) type type' →
      Agrees K env env' w₁ (withType type) (withType' type') fun w => Stmt.Alike (K.likeness w) := by
    intro w₁ type type' htype
    dsimp -zeta only [withType, withType']
    refine .skipPunct fun assigned => ?_
    extract_lets withInit withInit'
    split
    · exact .bind (expr_agrees K w₁) fun w₂ e e' hle he =>
        hinit w₂ _ _ _ _ (relOption_mono (fun _ _ h => h.mono (K.likeness_le hle)) htype) (.some he)
    · exact hinit w₁ _ _ _ _ htype .none
  refine .isNext fun assigned => .isNext fun ended => ?_
  split
  · exact htype w none none .none
  · exact .bind (typeRef_agrees K) fun w₁ _ _ _ ht => htype w₁ _ _ (.some ht)

section

variable {stmt : Parser Stmt}
  (hstmt : ∀ w : K.World, Agrees K env env' w stmt stmt fun w => Stmt.Alike (K.likeness w))
include hstmt

/-- A block opens a scope on both sides, and closes it again. -/
theorem blockOf_agrees (w : K.World) :
    Agrees K env env' w (blockOf stmt) (blockOf stmt) (BodiesAlike K) := by
  refine .expectPunct (.inScope (V := BodiesAlike K) (by decide) (fun w₁ _ => ?_)
    fun w₁ c c' ss ss' _ _ hs => ?_)
  · refine .untilClose (V := BodiesAlike K)
      (fun _ _ _ _ hle hs => Stmt.Alike.monoAll (K.likeness_le hle) hs)
      (fun w₂ ss ss' _ hs => ?_) .nil
    refine .bind (hstmt w₂) fun w₃ s s' hle hs' => .pure fun w₄ hle₄ => ?_
    exact forall₂_snoc (Stmt.Alike.monoAll (K.likeness_le (K.trans hle hle₄)) hs)
      (hs'.mono (K.likeness_le hle₄))
  · exact .expectPunct (.pure fun _ hle => Stmt.Alike.monoAll (K.likeness_le hle) hs)

theorem condStmt_agrees (w : K.World) :
    Agrees K env env' w (condStmt stmt) (condStmt stmt) fun w => Stmt.Alike (K.likeness w) := by
  refine .expect fun pos pos' hpos => .bind (condition_agrees K) fun w₁ e e' _ he =>
    .bind (blockOf_agrees K hstmt w₁) fun w₂ ss ss' hle₂ hs => .isNext fun more => ?_
  have he₂ := he.mono (K.likeness_le hle₂)
  split
  · refine .advance (.isNext fun again => ?_)
    split
    · exact .bind (hstmt w₂) fun w₃ s s' hle₃ hs' => .pure fun w₄ hle₄ =>
        .cond hpos (he₂.mono (K.likeness_le (K.trans hle₃ hle₄)))
          (Stmt.Alike.monoAll (K.likeness_le (K.trans hle₃ hle₄)) hs)
          (.some (.cons (hs'.mono (K.likeness_le hle₄)) .nil))
    · exact .bind (blockOf_agrees K hstmt w₂) fun w₃ _ _ hle₃ hs' => .pure fun w₄ hle₄ =>
        .cond hpos (he₂.mono (K.likeness_le (K.trans hle₃ hle₄)))
          (Stmt.Alike.monoAll (K.likeness_le (K.trans hle₃ hle₄)) hs)
          (.some (Stmt.Alike.monoAll (K.likeness_le hle₄) hs'))
  · exact .pure fun w₃ hle₃ => .cond hpos (he₂.mono (K.likeness_le hle₃))
      (Stmt.Alike.monoAll (K.likeness_le hle₃) hs) .none

theorem eachStmt_agrees (w : K.World) :
    Agrees K env env' w (eachStmt stmt) (eachStmt stmt) fun w => Stmt.Alike (K.likeness w) := by
  unfold eachStmt
  refine .expect fun pos pos' hpos => .expectPunct (.ident fun var varPos varPos' hvar =>
    .expect fun _ _ _ => .bind (expr_agrees K w) fun w₁ e e' _ he => ?_)
  dsimp -zeta only
  extract_lets withIter withIter'
  have hiter : ∀ (w₁ : K.World) iter iter', ForIter.Alike (K.likeness w₁) iter iter' →
      Agrees K env env' w₁ (withIter iter) (withIter' iter')
        fun w => Stmt.Alike (K.likeness w) := by
    intro w₁ iter iter' hiter
    refine .expectPunct (.state fun _ _ _ => ?_)
    dsimp only
    exact .inScope (V := BodiesAlike K) (by decide)
      (fun w₂ _ => .declare hvar (fun h => absurd rfl h) (blockOf_agrees K hstmt w₂))
      fun w₂ _ _ _ _ hle₂ _ hs => .pure fun w₃ hle₃ =>
        .each var hpos (hiter.mono (K.likeness_le (K.trans hle₂ hle₃)))
          (Stmt.Alike.monoAll (K.likeness_le hle₃) hs)
  refine .skipPunct fun ranged => ?_
  split
  · exact .bind (expr_agrees K w₁) fun w₂ _ _ hle he' =>
      hiter w₂ _ _ (.range (he.mono (K.likeness_le hle)) he')
  · exact hiter w₁ _ _ (.each he)

end

/-- The word that a statement starts with is the same for both. -/
theorem stmtFuel_agrees : ∀ (fuel : Nat) (w : K.World),
    Agrees K env env' w (stmtFuel fuel) (stmtFuel fuel) fun w => Stmt.Alike (K.likeness w)
  | 0, _ => .expected
  | fuel + 1, w => by
    have ih := stmtFuel_agrees fuel
    refine .peek fun k pos pos' hpos => ?_
    dsimp -zeta only
    split
    · exact declareStmt_agrees K
    · exact condStmt_agrees K ih w
    · exact .advance (.bind (condition_agrees K) fun w₁ _ _ _ he =>
        .bind (blockOf_agrees K ih w₁) fun w₂ _ _ hle₂ hs => .pure fun w₃ hle₃ =>
          .loop hpos (he.mono (K.likeness_le (K.trans hle₂ hle₃)))
            (Stmt.Alike.monoAll (K.likeness_le hle₃) hs))
    · exact eachStmt_agrees K ih w
    · refine .advance ?_
      extract_lets withValue withValue'
      have hvalue : ∀ (w₁ : K.World) value value', Option.Rel (ExprsAlike K w₁) value value' →
          Agrees K env env' w₁ (withValue value) (withValue' value')
            fun w => Stmt.Alike (K.likeness w) := fun w₁ value value' hv =>
        .expectPunct (.pure fun w₂ hle =>
          .ret hpos (relOption_mono (fun _ _ h => h.mono (K.likeness_le hle)) hv))
      refine .isNext fun ended => ?_
      split
      · exact hvalue w none none .none
      · exact .bind (expr_agrees K w) fun w₁ _ _ _ he => hvalue w₁ _ _ (.some he)
    · exact .advance (.expectPunct (.pure fun _ _ => .leave hpos))
    · exact .advance (.expectPunct (.pure fun _ _ => .next hpos))
    · exact exprStmt_agrees K hpos

theorem block_agrees (w : K.World) : Agrees K env env' w block block (BodiesAlike K) :=
  .remaining fun _ => blockOf_agrees K (stmtFuel_agrees K _) w

end Parser

end Scaffold.Source
