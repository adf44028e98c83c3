import Scaffold.Proofs.Parser.Phrase

/-!
# Expressions that were read follow the grammar

The converse of `Phrase.taken`: whatever expression the parser returns, the tokens it took are ones
that the grammar allows for that expression (`derived_expr`). The loops carry what was read so far,
so each of them extends a derivation by what it takes.
-/

namespace Scaffold.Source

/-- The tokens in front of `rest`, after those read before, are ones that `phrase` allows for the
expression. -/
def Derived (phrase : List TokenKind → Expr → Prop) (before ks : List TokenKind) (e : Expr)
    (rest : List TokenKind) : Prop :=
  ∃ taken, ks = taken ++ rest ∧ phrase (before ++ taken) e

namespace Derived

variable {phrase : List TokenKind → Expr → Prop} {before taken ks rest : List TokenKind} {e : Expr}

theorem none (h : phrase before e) : Derived phrase before ks e ks :=
  ⟨[], rfl, by rwa [List.append_nil]⟩

theorem more (h : Derived phrase (before ++ taken) ks e rest) :
    Derived phrase before (taken ++ ks) e rest := by
  obtain ⟨taken', rfl, he⟩ := h
  exact ⟨taken ++ taken', (List.append_assoc ..).symm, by rwa [← List.append_assoc]⟩

end Derived

namespace Parser

variable {ks ks' : List TokenKind} {e : Expr} {l n fuel : Nat}

/-! ## Arguments -/

section

variable {expr : Parser Expr} (hexpr : ∀ ks, Gives expr ks (Derived (Phrase 0) [] ks))
include hexpr

theorem derived_commaFuel (n : Nat) (args : List Expr) (ks : List TokenKind) :
    Gives (commaFuel .parenClose (fun args => do return args ++ [← expr]) n args) ks
      fun args' rest => ∃ es taken, args' = args ++ es ∧ ks = taken ++ rest ∧
        Arguments taken es := by
  have hnone : ∃ es taken, args = args ++ es ∧ ks = taken ++ ks ∧ Arguments taken es :=
    ⟨[], [], (List.append_nil _).symm, rfl, .nil⟩
  induction n generalizing args ks with
  | zero => exact .pure hnone
  | succ n ih =>
    rw [commaFuel]
    refine .isNext (by simp) (fun _ _ => .pure hnone) ?_
    -- The loop reads an argument before it looks for a comma, so a comma may end the list.
    refine .bind (.bind (hexpr ks) fun e rest he =>
      .pure (Q := fun args' rest => ∃ e, args' = args ++ [e] ∧ Derived (Phrase 0) [] ks e rest)
        ⟨e, rfl, he⟩) ?_
    rintro _ rest ⟨e, rfl, taken, rfl, he⟩
    refine .skip (fun more hmore => ?_) (.pure ⟨[e], taken, rfl, rfl, .last he⟩)
    refine (ih (args ++ [e]) more ⟨[], [], by simp, rfl, .nil⟩).mono ?_
    rintro _ rest' ⟨es, taken', rfl, rfl, hes⟩
    exact ⟨e :: es, _, by simp, by simp [hmore], .more he hes⟩

theorem derived_arguments (ks : List TokenKind) :
    Gives (arguments expr) ks fun args rest =>
      ∃ taken, ks = inParens taken ++ rest ∧ Arguments taken args := by
  refine .expectPunct fun inner hinner => .bind (.remaining (derived_commaFuel hexpr _ _ _)) ?_
  rintro _ close ⟨es, taken, rfl, rfl, hes⟩
  refine .expectPunct fun rest hrest => .pure ⟨taken, ?_, hes⟩
  simp [hinner, hrest, inParens]

/-! ## Operands -/

omit hexpr in
theorem derived_pathFuel (n : Nat) (names : List String) (ks : List TokenKind) :
    Gives (nativePath.pathFuel n names) ks fun names' rest => ∃ more, names' = names ++ more ∧
      ks = (more.flatMap fun name => [.punct .dot, .ident name]) ++ rest := by
  induction n generalizing names ks with
  | zero => exact .pure ⟨[], by simp⟩
  | succ n ih =>
    rw [nativePath.pathFuel]
    refine .skip (fun rest hrest => .ident fun name pos rest' hrest' => ?_) (.pure ⟨[], by simp⟩)
    refine (ih (names ++ [name]) rest').mono ?_
    rintro _ rest'' ⟨more, rfl, rfl⟩
    exact ⟨name :: more, by simp, by simp [hrest, hrest']⟩

omit hexpr in
theorem derived_nativePath (ks : List TokenKind) :
    Gives nativePath ks fun path rest => path ≠ [] ∧ ks = pathKinds path ++ rest := by
  refine .ident fun first pos rest hrest => .remaining ((derived_pathFuel _ _ _).mono ?_)
  rintro _ rest' ⟨more, rfl, rfl⟩
  exact ⟨by simp, hrest⟩

theorem derived_primary (ks : List TokenKind) :
    Gives (primary expr) ks (Derived Operand [] ks) := by
  refine .peek fun pos => ?_
  cases ks with
  | nil => exact .expected
  | cons k rest =>
    dsimp only [List.headD]
    split
    · rename_i l hl
      exact .advance (.pure ⟨[k], rfl, .literal hl⟩)
    · split
      · rename_i name
        exact .advance (.nameRef fun r hr => .pure ⟨_, by rw [← hr]; rfl, .name r⟩)
      · refine .advance ((hexpr rest).bind ?_)
        rintro e _ ⟨taken, rfl, he⟩
        refine .expectPunct fun rest' hrest' => .pure ⟨inParens taken, ?_, .parens he⟩
        simp [inParens, hrest']
      · refine .advance ((derived_nativePath rest).bind ?_)
        rintro path _ ⟨hpath, rfl⟩
        refine (derived_arguments hexpr _).bind ?_
        rintro args rest' ⟨taken, rfl, hargs⟩
        exact .pure ⟨_, by simp, .native hpath hargs pos⟩
      · exact .expected

theorem derived_suffixFuel (n : Nat) (he : Operand ks' e) (ks : List TokenKind) :
    Gives (suffixFuel expr n e) ks (Derived Operand ks' ks) := by
  induction n generalizing ks' e ks with
  | zero => exact .pure (.none he)
  | succ n ih =>
    rw [suffixFuel]
    refine .skip (fun rest hrest => .ident fun name pos rest' hrest' => ?_) ?_
    · subst hrest hrest'
      exact (ih (he.member name) rest').mono fun e' rest h => h.more
    · refine .isNext (by simp) (fun _ _ => ?_) (.pure (.none he))
      refine (derived_arguments hexpr _).bind ?_
      rintro args rest ⟨inner, rfl, hargs⟩
      exact (ih (he.call hargs) rest).mono fun e' rest h => h.more

theorem derived_suffixed (ks : List TokenKind) :
    Gives (suffixed expr) ks (Derived Operand [] ks) := by
  refine (derived_primary hexpr ks).bind ?_
  rintro e rest ⟨taken, rfl, he⟩
  exact .remaining ((derived_suffixFuel hexpr _ he rest).mono fun e' rest h => h.more)

end

/-! ## Operators -/

/-- An operator that is looked up by its sign stands at its own level. -/
theorem level_of_lookup {level : OperatorLevel} {p : Punct} {op : BinaryOp}
    (hl : operatorLevels[l]? = some level) (h : level.lookup p = some op) :
    p = op.punct ∧ l = op.level := by
  obtain ⟨before, after, rfl, -⟩ := List.lookup_eq_some_iff.1 h
  obtain ⟨hlt, hlevel⟩ := List.getElem?_eq_some_iff.1 hl
  have hall : ∀ i (hi : i < 6), ∀ q ∈ operatorLevels[i], q.1 = q.2.punct ∧ i = q.2.level := by
    decide
  exact hall l hlt (p, op) (by rw [hlevel]; simp)

theorem derived_operator? {level : OperatorLevel} (hl : operatorLevels[l]? = some level)
    (ks : List TokenKind) :
    Gives (operator? level) ks fun found rest => ks = rest ∧
      ∀ op, found = some op → l = op.level ∧ ∃ after, ks = .punct op.punct :: after := by
  refine .peek fun pos => ?_
  split
  · rename_i p hp
    refine .pure ⟨rfl, fun op hop => ?_⟩
    obtain ⟨rfl, hlevel⟩ := level_of_lookup hl hop
    cases ks with
    | nil => cases hp
    | cons k rest =>
      obtain rfl : k = .punct op.punct := hp
      exact ⟨hlevel, rest, rfl⟩
  · exact .pure ⟨rfl, fun op hop => by cases hop⟩

theorem derived_chainFuel {level : OperatorLevel} (hl : operatorLevels[l]? = some level)
    (hoperand : ∀ ks, Gives (atLevel fuel (l + 1)) ks (Derived (Phrase (l + 1)) [] ks)) (n : Nat)
    (he : Phrase l ks' e) (ks : List TokenKind) :
    Gives (chainFuel level (atLevel fuel (l + 1)) n e) ks (Derived (Phrase l) ks' ks) := by
  induction n generalizing ks' e ks with
  | zero => exact .pure (.none he)
  | succ n ih =>
    rw [chainFuel]
    refine (derived_operator? hl ks).bind ?_
    rintro found _ ⟨rfl, hfound⟩
    cases found with
    | none => exact .pure (.none he)
    | some op =>
      obtain ⟨rfl, after, rfl⟩ := hfound op rfl
      refine .advance ((hoperand after).bind ?_)
      rintro rhs rest ⟨taken, rfl, hrhs⟩
      exact (ih (.binary op he hrhs) rest).mono fun e' rest h => h.more

/-- Each level of operators follows the grammar if expressions without binary operators do. -/
theorem derived_atLevel (hunary : ∀ ks, Gives (unaryFuel fuel) ks (Derived (Phrase 6) [] ks))
    (hl : l ≤ 6) (ks : List TokenKind) : Gives (atLevel fuel l) ks (Derived (Phrase l) [] ks) := by
  -- From the tightest level down: each level reads its operands by the next one.
  obtain ⟨d, hd⟩ := Nat.exists_eq_add_of_le hl
  induction d generalizing l ks with
  | zero =>
    obtain rfl : 6 = l := hd
    exact hunary ks
  | succ d ih =>
    have hlt : l < 6 := by omega
    have hlevel : operatorLevels[l]? = some operatorLevels[l] := List.getElem?_eq_getElem hlt
    have hoperand : ∀ ks, Gives (atLevel fuel (l + 1)) ks (Derived (Phrase (l + 1)) [] ks) :=
      fun ks => ih hlt ks (by omega)
    rw [atLevel_of_level hlevel]
    refine (hoperand ks).bind ?_
    rintro lhs rest ⟨taken, rfl, hlhs⟩
    exact .remaining ((derived_chainFuel hlevel hoperand _ (.tighter hlt hlhs) rest).mono
      fun e' rest h => h.more)

theorem derived_unaryFuel (fuel : Nat) (ks : List TokenKind) :
    Gives (unaryFuel fuel) ks (Derived (Phrase 6) [] ks) := by
  induction fuel generalizing ks with
  | zero => exact .expected
  | succ fuel ih =>
    have hsign : ∀ (op : UnaryOp) (rest : List TokenKind),
        Gives (do return Expr.unary op (← unaryFuel fuel)) rest
          (Derived (Phrase 6) [] (.punct op.punct :: rest)) := by
      intro op rest
      refine (ih rest).bind ?_
      rintro e rest' ⟨taken, rfl, he⟩
      exact .pure ⟨.punct op.punct :: taken, rfl, .unary op he⟩
    rw [unaryFuel]
    refine .peek fun pos => ?_
    dsimp only
    split
    · rename_i hbang
      cases ks with
      | nil => cases hbang
      | cons k rest =>
        obtain rfl : k = .punct .bang := hbang
        exact .advance (hsign .not rest)
    · rename_i hminus
      cases ks with
      | nil => cases hminus
      | cons k rest =>
        obtain rfl : k = .punct .minus := hminus
        exact .advance (hsign .neg rest)
    · refine (derived_suffixed (derived_atLevel ih (Nat.zero_le _)) ks).mono ?_
      rintro e rest ⟨taken, rfl, he⟩
      exact ⟨taken, rfl, .operand he⟩

/-- An expression that was read follows the grammar. -/
theorem derived_expr (ks : List TokenKind) : Gives expr ks (Derived (Phrase 0) [] ks) :=
  .remaining (derived_atLevel (derived_unaryFuel _) (Nat.zero_le _) ks)

end Parser

end Scaffold.Source
