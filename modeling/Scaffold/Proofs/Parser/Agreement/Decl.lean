import Scaffold.Proofs.Parser.Agreement.Term
import Scaffold.Proofs.Parser.Apart.File

/-!
# Declarations in two sessions

The parsers of declarations agree on declarations that are alike, if they are given headers that are
alike. Imports are not among them: what they read decides which files are parsed.
-/

namespace Scaffold.Source

/-- What a table has so far is alike. -/
structure Parser.TableBody.Alike (L : Likeness) (b b' : TableBody) : Prop where
  columns : List.Forall₂ (Column.Alike L) b.columns b'.columns
  keys : b.keys = b'.keys
  indexes : List.Forall₂ (Index.Alike L) b.indexes b'.indexes

/-- Lists whose members have the same names have a member of a name or not. -/
theorem any_name_eq {α : Type} {R : α → α → Prop} {name : α → String}
    (h : ∀ a a', R a a' → name a = name a') (x : String) : ∀ {as as' : List α},
    List.Forall₂ R as as' → as.any (name · == x) = as'.any (name · == x)
  | _, _, .nil => rfl
  | _, _, .cons ha has => by rw [List.any_cons, List.any_cons, h _ _ ha, any_name_eq h x has]

theorem Parser.TableBody.Alike.mono {L L' : Likeness} (hle : L.Le L') {b b' : TableBody}
    (h : b.Alike L b') : b.Alike L' b' :=
  ⟨h.columns.imp fun _ _ h => h.mono hle, h.keys, h.indexes.imp fun _ _ h => h.mono hle⟩

theorem Parser.TableBody.Alike.hasColumn {L : Likeness} {b b' : TableBody} (h : b.Alike L b')
    (name : String) : b.hasColumn name = b'.hasColumn name :=
  any_name_eq (fun _ _ h => Column.Alike.name h) name h.columns

namespace Parser

variable (K : Link) {env env' : ParserEnv} {w : K.World}

/-! ## Tables -/

theorem columnFuel_agrees : ∀ (fuel : Nat) (w : K.World) (c c' : Column),
    c.Alike (K.likeness w) c' → Agrees K env env' w (columnFuel fuel c) (columnFuel fuel c')
      fun w => Column.Alike (K.likeness w)
  | 0, _, _, _, _ => .expected
  | fuel + 1, w, c, c', hc => by
    have ih := columnFuel_agrees fuel w
    refine .skipPunct fun ended => ?_
    split
    · exact .pure fun _ hle => hc.mono (K.likeness_le hle)
    refine .isNext fun auto => ?_
    split
    · exact .advance (ih _ _ ⟨hc.name, hc.type, rfl, hc.nullable, hc.default, hc.pos⟩)
    refine .isNext fun null => ?_
    split
    · exact .advance (ih _ _ ⟨hc.name, hc.type, hc.auto, rfl, hc.default, hc.pos⟩)
    refine .isNext fun not => ?_
    split
    · exact .advance (.expect fun _ _ _ => ih _ _ ⟨hc.name, hc.type, hc.auto, rfl, hc.default, hc.pos⟩)
    refine .isNext fun default => ?_
    split
    · exact .advance (.same (literal_agrees K) fun l =>
        ih _ _ ⟨hc.name, hc.type, hc.auto, hc.nullable, rfl, hc.pos⟩)
    · exact .expected

theorem column_agrees :
    Agrees K env env' w column column fun w => Column.Alike (K.likeness w) :=
  .ident fun _ _ _ hpos => .bind (typeRef_agrees K) fun w₁ _ _ _ ht => .remaining fun _ =>
    columnFuel_agrees K _ w₁ _ _ ⟨rfl, ht, rfl, rfl, rfl, hpos⟩

/-- Some of the names are reported. -/
theorem reports_agree {b b' : String → Bool} (hb : ∀ name, b name = b' name) {pos pos' : Position}
    (hpos : K.exact → pos = pos') {declaration : String} {reason : String → String} : ∀ (names : List String) (u : PUnit),
    Agrees K env env' w
      (forIn names u fun name _ => if b name = true then do
        invalid pos declaration (reason name)
        pure (ForInStep.yield PUnit.unit)
      else pure (ForInStep.yield PUnit.unit))
      (forIn names u fun name _ => if b' name = true then do
        invalid pos' declaration (reason name)
        pure (ForInStep.yield PUnit.unit)
      else pure (ForInStep.yield PUnit.unit)) fun _ u u' => u = u'
  | [], u => .pure fun _ _ => rfl
  | name :: names, u => by
    rw [List.forIn_cons, List.forIn_cons, hb name]
    refine .same ?_ fun r => ?_
    · split
      · exact .invalid hpos (.pure fun _ _ => rfl)
      · exact .pure fun _ _ => rfl
    · cases r with
      | done u => exact .pure fun _ _ => rfl
      | yield u => exact reports_agree hb hpos names u

/-- Bodies of tables are read alike. -/
abbrev TablesAlike (w : K.World) (b b' : TableBody) : Prop := b.Alike (K.likeness w) b'

section

variable {b b' : TableBody} (hb : b.Alike (K.likeness w) b') (table : String)
include hb

theorem keyItem_agrees : Agrees K env env' w (keyItem table b) (keyItem table b') (TablesAlike K) := by
  refine .peek fun _ _ _ hpos => .advance (.same (nameList_agrees K) fun names => ?_)
  have hmissing : ∀ name, (!b.hasColumn name) = !b'.hasColumn name := fun name => by
    rw [hb.hasColumn]
  refine .same (reports_agree K hmissing hpos names _) fun _ => .expectPunct (.pure fun _ hle => ?_)
  have hb₁ := hb.mono (K.likeness_le hle)
  exact ⟨hb₁.columns, by rw [hb.keys], hb₁.indexes⟩

theorem indexItem_agrees :
    Agrees K env env' w (indexItem table b) (indexItem table b') (TablesAlike K) := by
  refine .isNext fun unique => .peek fun _ _ _ hpos => .advance (.ident fun name _ _ _ =>
    .same (nameList_agrees K) fun columns => ?_)
  have hmissing : ∀ name, (!b.hasColumn name) = !b'.hasColumn name := fun name => by
    rw [hb.hasColumn]
  refine .same (reports_agree K hmissing hpos columns _) fun _ => .expectPunct (.pure fun _ hle => ?_)
  have hb₁ := hb.mono (K.likeness_le hle)
  exact ⟨hb₁.columns, hb.keys, forall₂_snoc hb₁.indexes ⟨rfl, rfl, rfl, hpos⟩⟩

theorem columnItem_agrees :
    Agrees K env env' w (columnItem table b) (columnItem table b') (TablesAlike K) := by
  refine .bind (column_agrees K) fun w₁ c c' hle hc => ?_
  have hb₁ := hb.mono (K.likeness_le hle)
  rw [← hb.hasColumn, ← hc.name]
  split
  · exact .invalid hc.pos (.pure fun _ hle₂ => hb₁.mono (K.likeness_le hle₂))
  · refine .pure fun _ hle₂ => ?_
    have hb₂ := hb₁.mono (K.likeness_le hle₂)
    exact ⟨forall₂_snoc hb₂.columns (hc.mono (K.likeness_le hle₂)), hb.keys, hb₂.indexes⟩

/-- What tells a key, an index and a column apart are the kinds of three tokens. -/
theorem tableItem_agrees :
    Agrees K env env' w (tableItem table b) (tableItem table b') (TablesAlike K) := by
  refine .peekKind _ fun second => .peekKind _ fun third => ?_
  extract_lets secondIsName
  refine .isNext fun isKey => ?_
  split
  · exact keyItem_agrees K hb table
  · refine .isNext fun isIndex => .isNext fun isUnique => ?_
    split
    · exact indexItem_agrees K hb table
    · exact columnItem_agrees K hb table

end

/-! ## Fields and parameters -/

/-- Fields are read alike. -/
abbrev FieldsAlike (w : K.World) (fs fs' : List Field) : Prop :=
  List.Forall₂ (Field.Alike (K.likeness w)) fs fs'

theorem fields_agrees (owner : String) :
    Agrees K env env' w (fields owner) (fields owner) (FieldsAlike K) := by
  refine .expectPunct (.bind (.untilClose (V := FieldsAlike K)
    (fun _ _ _ _ hle hs => Field.Alike.monoAll (K.likeness_le hle) hs) (fun w₁ fs fs' _ hfs => ?_)
    .nil) fun w₁ fs fs' _ hfs => ?_)
  · refine .ident fun name pos pos' hpos => .bind (typeRef_agrees K) fun w₂ t t' hle ht =>
      .expectPunct ?_
    have hfs₂ := Field.Alike.monoAll (K.likeness_le hle) hfs
    rw [any_name_eq (fun _ _ h => Field.Alike.name h) name hfs₂]
    split
    · exact .invalid hpos (.pure fun _ hle₃ => Field.Alike.monoAll (K.likeness_le hle₃) hfs₂)
    · exact .pure fun _ hle₃ => Field.Alike.monoAll (K.likeness_le hle₃)
        (forall₂_snoc hfs₂ ⟨rfl, ht, hpos⟩)
  · exact .expectPunct (.pure fun _ hle => Field.Alike.monoAll (K.likeness_le hle) hfs)

/-- Parameters are declared as they are read, each for a node that corresponds. -/
theorem params_agrees (owner : String) {id id' : NodeId} (hnode : (K.numbers w).node id id') :
    Agrees K env env' w (params owner id) (params owner id') (FieldsAlike K) := by
  refine .expectPunct (.bind (.commaList (V := FieldsAlike K)
    (fun _ _ _ _ hle hs => Field.Alike.monoAll (K.likeness_le hle) hs) (fun w₁ fs fs' hle₁ hfs => ?_)
    .nil) fun w₁ fs fs' _ hfs => ?_)
  · refine .ident fun name pos pos' hpos => .bind (typeRef_agrees K) fun w₂ t t' hle ht => ?_
    have hfs₂ := Field.Alike.monoAll (K.likeness_le hle) hfs
    rw [any_name_eq (fun _ _ h => Field.Alike.name h) name hfs₂]
    split
    · exact .invalid hpos (.pure fun _ hle₃ => Field.Alike.monoAll (K.likeness_le hle₃) hfs₂)
    · exact .declare hpos (fun _ => (K.mono (K.trans hle₁ hle)).node hnode) (.pure fun _ hle₃ =>
        Field.Alike.monoAll (K.likeness_le hle₃) (forall₂_snoc hfs₂ ⟨rfl, ht, hpos⟩))
  · exact .expectPunct (.pure fun _ hle => Field.Alike.monoAll (K.likeness_le hle) hfs)

/-! ## Declarations -/

theorem isActive_congr {s s' : Session} (h : s.platform = s'.platform) (b : AnnotationBlock) :
    s.isActive b = s'.isActive b := by
  unfold Session.isActive
  rw [h]

/-- Declarations take part on both sides or on neither, as the targets are the same. -/
theorem header_agrees : Agrees K env env' w header header fun w x x' =>
    x.1.Alike (K.likeness w) x'.1 ∧ x.2 = x'.2 := by
  refine .same (.remaining fun _ => ?_) fun block => .state fun s s' hplatform =>
    .takeNode fun w₁ id id' _ hid => .peek fun _ _ _ hpos => .pure fun _ hle => ?_
  · have hannotations : ∀ (fuel : Nat) (b : AnnotationBlock),
        Agrees K env env' w (annotations.annotationsFuel fuel b) (annotations.annotationsFuel fuel b)
          fun _ b b' => b = b' := by
      intro fuel
      induction fuel with
      | zero => exact fun _ => .pure fun _ _ => rfl
      | succ fuel ih =>
        refine fun b => .peek fun k _ _ _ => ?_
        dsimp only
        split
        · exact .advance (ih _)
        · exact .pure fun _ _ => rfl
    exact hannotations _ _
  · exact ⟨⟨(K.mono hle).node hid, hpos, rfl⟩, isActive_congr hplatform block⟩

section

variable {h h' : Header} (hh : h.Alike (K.likeness w) h') (active : Bool)
include hh

theorem domainDecl_agrees : Agrees K env env' w (domainDecl h active) (domainDecl h' active)
    fun w => Domain.Alike (K.likeness w) :=
  .expect fun _ _ _ => .ident fun _ _ _ hpos => .declare hpos (fun _ => hh.node) (.bind (typeRef_agrees K)
    fun _ _ _ hle₁ ht => .expectPunct (.pure fun _ hle₂ =>
      ⟨hh.mono (K.likeness_le (K.trans hle₁ hle₂)), rfl, ht.mono (K.likeness_le hle₂)⟩))

theorem tableDecl_agrees : Agrees K env env' w (tableDecl h active) (tableDecl h' active)
    fun w => Table.Alike (K.likeness w) := by
  refine .expect fun _ _ _ => .ident fun name pos pos' hpos => .declare hpos (fun _ => hh.node) (.expectPunct
    (.bind (.untilClose (V := TablesAlike K) (fun _ _ _ _ hle hb => hb.mono (K.likeness_le hle))
      (fun w₁ b b' _ hb => tableItem_agrees K hb name) ⟨.nil, rfl, .nil⟩)
      fun w₁ b b' hle₁ hb => .expectPunct ?_))
  have hempty : b.columns.isEmpty = b'.columns.isEmpty := by
    rw [Bool.eq_iff_iff, List.isEmpty_iff_length_eq_zero, List.isEmpty_iff_length_eq_zero,
      hb.columns.length_eq]
  have hdone : ∀ w₂, K.le w₁ w₂ → Table.Alike (K.likeness w₂)
      ⟨h, name, b.columns, b.keys, b.indexes⟩ ⟨h', name, b'.columns, b'.keys, b'.indexes⟩ := by
    intro w₂ hle₂
    have hb₂ := hb.mono (K.likeness_le hle₂)
    exact ⟨hh.mono (K.likeness_le (K.trans hle₁ hle₂)), rfl, hb₂.columns, hb.keys, hb₂.indexes⟩
  rw [hempty]
  split
  · exact .invalid hpos (.pure hdone)
  · exact .pure hdone

theorem entityDecl_agrees : Agrees K env env' w (entityDecl h active) (entityDecl h' active)
    fun w => Entity.Alike (K.likeness w) := by
  refine .expect fun _ _ _ => .ident fun name pos pos' hpos => .declare hpos (fun _ => hh.node)
    (.skipPunct fun linked => ?_)
  extract_lets withTable withTable'
  have hwith : ∀ (w₁ : K.World) table table', K.le w w₁ →
      Option.Rel (K.likeness w₁).ref table table' →
      Agrees K env env' w₁ (withTable table) (withTable' table')
        fun w => Entity.Alike (K.likeness w) := by
    intro w₁ table table' hle₁ htable
    have hdone : ∀ w₂ fs fs', K.le w₁ w₂ → FieldsAlike K w₂ fs fs' →
        Entity.Alike (K.likeness w₂) ⟨h, name, table, fs⟩ ⟨h', name, table', fs'⟩ :=
      fun w₂ fs fs' hle₂ hfs => ⟨hh.mono (K.likeness_le (K.trans hle₁ hle₂)), rfl,
        relOption_mono (fun _ _ h => (K.likeness_le hle₂).ref h) htable, hfs⟩
    refine .isNext fun opened => ?_
    split
    · exact .bind (fields_agrees K _) fun w₂ _ _ hle₂ hfs => .pure fun w₃ hle₃ =>
        hdone w₃ _ _ (K.trans hle₂ hle₃) (Field.Alike.monoAll (K.likeness_le hle₃) hfs)
    · exact .expectPunct (.pure fun w₂ hle₂ => hdone w₂ _ _ hle₂ .nil)
  split
  · exact .ident fun _ _ _ hpos => .nameRef hpos fun w₁ r r' hle hr => hwith w₁ _ _ hle (.some hr)
  · exact hwith w none none (K.refl w) .none

theorem recordDecl_agrees : Agrees K env env' w (recordDecl h active) (recordDecl h' active)
    fun w => Record.Alike (K.likeness w) :=
  .expect fun _ _ _ => .ident fun _ _ _ hpos => .declare hpos (fun _ => hh.node) (.bind (fields_agrees K _)
    fun _ _ _ hle₁ hfs => .pure fun _ hle₂ =>
      ⟨hh.mono (K.likeness_le (K.trans hle₁ hle₂)), rfl, Field.Alike.monoAll (K.likeness_le hle₂) hfs⟩)

theorem funcDecl_agrees (kind : SymbolKind) :
    Agrees K env env' w (funcDecl h active kind) (funcDecl h' active kind)
      fun w => Func.Alike (K.likeness w) := by
  refine .expect fun _ _ _ => .ident fun name pos pos' hpos => .declare hpos (fun _ => hh.node) (.own (.inScope
    (V := fun w x x' => FieldsAlike K w x.1 x'.1 ∧ Option.Rel (TypesAlike K w) x.2.1 x'.2.1 ∧
      BodiesAlike K w x.2.2 x'.2.2) (by decide) (fun w₁ hle₁ => ?_) ?_))
  · refine .bind (params_agrees K _ ((K.mono hle₁).node hh.node)) fun w₂ fs fs' _ hfs =>
      .isNext fun opened => ?_
    have hbody : ∀ (w₃ : K.World) t t', K.le w₂ w₃ → Option.Rel (TypesAlike K w₃) t t' →
        Agrees K env env' w₃ (do return (fs, t, ← block)) (do return (fs', t', ← block))
          fun w x x' => FieldsAlike K w x.1 x'.1 ∧ Option.Rel (TypesAlike K w) x.2.1 x'.2.1 ∧
            BodiesAlike K w x.2.2 x'.2.2 := fun w₃ t t' hle₃ ht =>
      .bind (block_agrees K w₃) fun w₄ _ _ hle₄ hs => .pure fun w₅ hle₅ =>
        ⟨Field.Alike.monoAll (K.likeness_le (K.trans hle₃ (K.trans hle₄ hle₅))) hfs,
          relOption_mono (fun _ _ h => h.mono (K.likeness_le (K.trans hle₄ hle₅))) ht,
          Stmt.Alike.monoAll (K.likeness_le hle₅) hs⟩
    split
    · exact hbody w₂ none none (K.refl _) .none
    · exact .bind (typeRef_agrees K) fun w₃ _ _ hle₃ ht => hbody w₃ _ _ hle₃ (.some ht)
  · rintro w₁ c c' ⟨fs, t, ss⟩ ⟨fs', t', ss'⟩ hle₁ _ ⟨hfs, ht, hs⟩
    exact .pure fun w₂ hle₂ => ⟨hh.mono (K.likeness_le (K.trans hle₁ hle₂)), rfl,
      Field.Alike.monoAll (K.likeness_le hle₂) hfs,
      relOption_mono (fun _ _ h => h.mono (K.likeness_le hle₂)) ht,
      Stmt.Alike.monoAll (K.likeness_le hle₂) hs⟩

theorem queryDecl_agrees : Agrees K env env' w (queryDecl h active) (queryDecl h' active)
    fun w => Query.Alike (K.likeness w) := by
  refine .expect fun _ _ _ => .ident fun name pos pos' hpos => .declare hpos (fun _ => hh.node)
    (.takeSeq fun w₁ q q' hle₁ hseq => .inScope
      (V := fun w x x' => FieldsAlike K w x.1 x'.1 ∧ Option.Rel (TypesAlike K w) x.2 x'.2)
      (by decide) (fun w₂ hle₂ => ?_) ?_)
  · refine .bind (params_agrees K _ ((K.mono (K.trans hle₁ hle₂)).node hh.node))
      fun w₃ fs fs' _ hfs => .peek fun k _ _ _ => ?_
    dsimp only
    split
    · exact .pure fun _ hle => ⟨Field.Alike.monoAll (K.likeness_le hle) hfs, .none⟩
    · exact .bind (typeRef_agrees K) fun w₄ _ _ hle₄ ht => .pure fun w₅ hle₅ =>
        ⟨Field.Alike.monoAll (K.likeness_le (K.trans hle₄ hle₅)) hfs,
          .some (ht.mono (K.likeness_le hle₅))⟩
  · rintro w₂ c c' ⟨fs, t⟩ ⟨fs', t'⟩ hle₂ hscope ⟨hfs, ht⟩
    refine .peek fun k _ _ hsql => ?_
    dsimp only
    split
    · exact .advance (.pure fun w₃ hle₃ =>
        ⟨hh.mono (K.likeness_le (K.trans hle₁ (K.trans hle₂ hle₃))), rfl,
          Field.Alike.monoAll (K.likeness_le hle₃) hfs,
          relOption_mono (fun _ _ h => h.mono (K.likeness_le hle₃)) ht, rfl, hsql,
          _, (K.mono hle₃).scope hscope, (K.mono (K.trans hle₂ hle₃)).seq hseq⟩)
    · exact .expected

theorem apiDecl_agrees : Agrees K env env' w (apiDecl h active) (apiDecl h' active)
    fun w => Api.Alike (K.likeness w) := by
  have hmono : ∀ {w₁ w₂ : K.World} {ms ms' : List ApiMember}, K.le w₁ w₂ →
      List.Forall₂ (ApiMember.Alike (K.likeness w₁)) ms ms' →
      List.Forall₂ (ApiMember.Alike (K.likeness w₂)) ms ms' := fun hle hms =>
    hms.imp fun _ _ h => h.mono (K.likeness_le hle)
  refine .expect fun _ _ _ => .ident fun name _ _ hpos => .declare hpos (fun _ => hh.node) (.expectPunct
    (.bind (.untilClose (V := fun w => List.Forall₂ (ApiMember.Alike (K.likeness w)))
      (fun _ _ _ _ hle hms => hmono hle hms) (fun w₁ ms ms' _ hms => ?_) .nil)
      fun w₁ _ _ hle₁ hms => .expectPunct (.pure fun w₂ hle₂ =>
        ⟨hh.mono (K.likeness_le (K.trans hle₁ hle₂)), rfl, hmono hle₂ hms⟩)))
  refine .ident fun controller pos pos' hpos => ?_
  dsimp -zeta only
  extract_lets withHandler withHandler'
  have hwith : ∀ handler : Option String, Agrees K env env' w₁ (withHandler handler)
      (withHandler' handler) fun w => List.Forall₂ (ApiMember.Alike (K.likeness w)) :=
    fun handler => .expectPunct (.nameRef hpos fun w₂ r r' hle₂ hr => .pure fun w₃ hle₃ =>
      forall₂_snoc (hmono (K.trans hle₂ hle₃) hms) ⟨(K.likeness_le hle₃).ref hr, rfl, hpos⟩)
  refine .skipPunct fun dotted => ?_
  split
  · exact .ident fun name _ _ _ => hwith (some name)
  · exact hwith none

theorem propertyDecl_agrees : Agrees K env env' w (propertyDecl h active) (propertyDecl h' active)
    fun w => Property.Alike (K.likeness w) := by
  refine .expect fun _ _ _ => .ident fun name _ _ hpos => .declare hpos (fun _ => hh.node)
    (.bind (typeRef_agrees K) fun w₁ t t' hle₁ ht => .skipPunct fun assigned => ?_)
  extract_lets withValue withValue'
  have hwith : ∀ (w₂ : K.World) value value', K.le w₁ w₂ →
      Option.Rel (ExprsAlike K w₂) value value' →
      Agrees K env env' w₂ (withValue value) (withValue' value')
        fun w => Property.Alike (K.likeness w) := fun w₂ value value' hle₂ hv =>
    .expectPunct (.pure fun w₃ hle₃ =>
      ⟨hh.mono (K.likeness_le (K.trans hle₁ (K.trans hle₂ hle₃))), rfl,
        ht.mono (K.likeness_le (K.trans hle₂ hle₃)),
        relOption_mono (fun _ _ h => h.mono (K.likeness_le hle₃)) hv⟩)
  split
  · exact .bind (expr_agrees K w₁) fun w₂ _ _ hle₂ hv => hwith w₂ _ _ hle₂ (.some hv)
  · exact hwith w₁ none none (K.refl _) .none

end

/-! ## Pages -/

/-- Markup is read alike. -/
abbrev MarkupAlike (w : K.World) (ns ns' : List MarkupNode) : Prop :=
  List.Forall₂ (NodeAlike (K.likeness w)) ns ns'

mutual

theorem attachComponent_agrees {pos pos' : Position} (hpos : K.exact → pos = pos') : ∀ (node : MarkupNode) (w : K.World),
    Agrees K env env' w (attachComponent pos node) (attachComponent pos' node)
      fun w => NodeAlike (K.likeness w)
  | .element tag attrs component children, w => by
    rw [attachComponent, attachComponent]
    have hwith : ∀ (w₁ : K.World) component component',
        Option.Rel (K.likeness w₁).ref component component' →
        Agrees K env env' w₁
          (do return MarkupNode.element tag attrs component (← attachComponents pos children))
          (do return MarkupNode.element tag attrs component' (← attachComponents pos' children))
          fun w => NodeAlike (K.likeness w) := fun w₁ _ _ hc =>
      .bind (attachComponents_agrees hpos children w₁) fun w₂ _ _ hle₂ hns =>
        .pure fun w₃ hle₃ => .element tag attrs
          (relOption_mono (fun _ _ h => (K.likeness_le (K.trans hle₂ hle₃)).ref h) hc)
          (NodeAlike.monoAll (K.likeness_le hle₃) hns)
    split
    · exact .nameRef hpos fun w₁ r r' _ hr => hwith w₁ _ _ (.some hr)
    · exact hwith w none none .none
  | .text s, w => by
    rw [attachComponent, attachComponent]
    · exact .pure fun _ _ => .text s
    all_goals exact nofun
  | .interpolation source, w => by
    rw [attachComponent, attachComponent]
    · exact .pure fun _ _ => .interpolation source
    all_goals exact nofun

theorem attachComponents_agrees {pos pos' : Position} (hpos : K.exact → pos = pos') : ∀ (nodes : List MarkupNode) (w : K.World),
    Agrees K env env' w (attachComponents pos nodes) (attachComponents pos' nodes) (MarkupAlike K)
  | [], w => by
    rw [attachComponents, attachComponents]
    exact .pure fun _ _ => .nil
  | node :: rest, w => by
    rw [attachComponents, attachComponents]
    exact .bind (attachComponent_agrees hpos node w) fun w₁ _ _ _ hn =>
      .bind (attachComponents_agrees hpos rest w₁) fun w₂ _ _ hle₂ hns => .pure fun w₃ hle₃ =>
        .cons (NodeAlike.mono (K.likeness_le (K.trans hle₂ hle₃)) hn)
          (NodeAlike.monoAll (K.likeness_le hle₃) hns)

end

theorem pageDecl_agrees {h h' : Header} (hh : h.Alike (K.likeness w) h') (active : Bool) :
    Agrees K env env' w (pageDecl h active) (pageDecl h' active)
      fun w => Page.Alike (K.likeness w) := by
  refine .expect fun _ _ _ => .ident fun name _ _ hpos => .declare hpos (fun _ => hh.node)
    (.skipPunct fun inherits => ?_)
  extract_lets withParent withParent'
  have hparent : ∀ (w₁ : K.World) parent parent', K.le w w₁ →
      Option.Rel (K.likeness w₁).ref parent parent' →
      Agrees K env env' w₁ (withParent parent) (withParent' parent')
        fun w => Page.Alike (K.likeness w) := by
    intro w₁ parent parent' hle₁ hp
    dsimp -zeta only [withParent, withParent']
    extract_lets withLayout withLayout'
    have hlayout : ∀ (w₂ : K.World) layout layout', K.le w₁ w₂ →
        Option.Rel (K.likeness w₂).ref layout layout' →
        Agrees K env env' w₂ (withLayout layout) (withLayout' layout')
          fun w => Page.Alike (K.likeness w) := by
      intro w₂ layout layout' hle₂ hl
      refine .peek fun k pos pos' hpos => ?_
      dsimp -zeta only
      split
      · rename_i text
        refine .advance ?_
        extract_lets withMarkup withMarkup'
        have hmarkup : ∀ nodes, Agrees K env env' w₂ (withMarkup nodes) (withMarkup' nodes)
            fun w => Page.Alike (K.likeness w) := fun nodes =>
          .bind (attachComponents_agrees K hpos nodes w₂) fun w₃ _ _ hle₃ hns =>
            .pure fun w₄ hle₄ =>
              ⟨hh.mono (K.likeness_le (K.trans hle₁ (K.trans hle₂ (K.trans hle₃ hle₄)))), rfl,
                relOption_mono (fun _ _ h =>
                  (K.likeness_le (K.trans hle₂ (K.trans hle₃ hle₄))).ref h) hp,
                relOption_mono (fun _ _ h => (K.likeness_le (K.trans hle₃ hle₄)).ref h) hl,
                NodeAlike.monoAll (K.likeness_le hle₄) hns⟩
        split
        · exact hmarkup _
        · exact .invalid hpos (hmarkup [])
      · exact .expected
    rw [← hh.annotations]
    split
    · exact .nameRef hh.pos fun w₂ r r' hle₂ hr => hlayout w₂ _ _ hle₂ (.some hr)
    · exact hlayout w₁ none none (K.refl _) .none
  split
  · exact .ident fun _ _ _ hpos => .nameRef hpos fun w₁ r r' hle hr => hparent w₁ _ _ hle (.some hr)
  · exact hparent w none none (K.refl w) .none

/-! ## Mappers and controllers -/

theorem checkHandler_agrees (controller : String) {f f' : Func} (hf : f.Alike (K.likeness w) f') :
    Agrees K env env' w (checkHandler controller f) (checkHandler controller f')
      fun _ u u' => u = u' := by
  unfold checkHandler
  rw [← hf.name, ← hf.header.annotations]
  extract_lets declaration notes body route body' route'
  have hpos := hf.header.pos
  have hbody : ∀ u, Agrees K env env' w (body u) (body' u) fun _ u u' => u = u' := by
    intro u
    dsimp -zeta only [body, body']
    split
    · exact .pure fun _ _ => rfl
    · rename_i name _
      rw [any_name_eq (fun _ _ h => Field.Alike.name h) name hf.params]
      split
      · exact .reports hpos _ _
      · exact .pure fun _ _ => rfl
  have hroute : ∀ u, Agrees K env env' w (route u) (route' u) fun _ u u' => u = u' := by
    intro u
    dsimp -zeta only [route, route']
    split
    · exact .invalid hpos (hbody ())
    · exact hbody ()
  split
  · exact .invalid hpos (hroute ())
  · split
    · exact .invalid hpos (hroute ())
    · exact hroute ()

theorem handlerDecl_agrees (controller : String) {h h' : Header} (hh : h.Alike (K.likeness w) h')
    (active : Bool) : Agrees K env env' w (handlerDecl controller h active)
      (handlerDecl controller h' active) fun w => Func.Alike (K.likeness w) := by
  refine .bind (funcDecl_agrees K hh active .handler) fun w₁ f f' _ hf => ?_
  split
  · exact .same (checkHandler_agrees K controller hf) fun _ => .pure fun _ hle =>
      hf.mono (K.likeness_le hle)
  · exact .pure fun _ hle => hf.mono (K.likeness_le hle)

section

variable {α : Type} {member : Header → Bool → Parser α} {V : K.World → α → α → Prop}
  (hmono : ∀ w w' a a', K.le w w' → V w a a' → V w' a a')
  (hmember : ∀ (w : K.World) (h h' : Header) (active : Bool), h.Alike (K.likeness w) h' →
    Agrees K env env' w (member h active) (member h' active) V) (active : Bool)
include hmono hmember

theorem membersStep_agrees {as as' : List α} (hs : List.Forall₂ (V w) as as') :
    Agrees K env env' w (members.step active member as) (members.step active member as')
      fun w => List.Forall₂ (V w) := by
  refine .bind (header_agrees K) ?_
  rintro w₁ ⟨h, on⟩ ⟨h', _⟩ hle₁ ⟨hh, rfl⟩
  refine .bind (hmember w₁ h h' (active && on) hh) fun w₂ a a' hle₂ ha => .pure fun w₃ hle₃ => ?_
  have hs₃ := hs.imp fun _ _ h => hmono _ _ _ _ (K.trans hle₁ (K.trans hle₂ hle₃)) h
  split
  · exact forall₂_snoc hs₃ (hmono _ _ _ _ hle₃ ha)
  · exact hs₃

/-- Members are read alike, where each of them is. -/
theorem members_agrees : Agrees K env env' w (members active member) (members active member)
    fun w => List.Forall₂ (V w) := by
  refine .expectPunct (.inScope (V := fun w => List.Forall₂ (V w)) (by decide) (fun w₁ _ => ?_)
    fun _ _ _ _ _ _ _ hs => .pure fun _ hle => hs.imp fun _ _ h => hmono _ _ _ _ hle h)
  exact .bind (.untilClose (V := fun w => List.Forall₂ (V w))
    (fun _ _ _ _ hle hs => hs.imp fun _ _ h => hmono _ _ _ _ hle h)
    (fun _ _ _ _ hs => membersStep_agrees K hmono hmember active hs) .nil)
    fun _ _ _ _ hs => .expectPunct (.pure fun _ hle => hs.imp fun _ _ h => hmono _ _ _ _ hle h)

end

theorem mapperDecl_agrees {h h' : Header} (hh : h.Alike (K.likeness w) h') (active : Bool) :
    Agrees K env env' w (mapperDecl h active) (mapperDecl h' active)
      fun w => Mapper.Alike (K.likeness w) :=
  .expect fun _ _ _ => .ident fun _ _ _ hpos => .declare hpos (fun _ => hh.node) (.bind
    (members_agrees K (V := fun w => Query.Alike (K.likeness w))
      (fun _ _ _ _ hle hq => Query.Alike.mono (K.likeness_le hle) hq)
      (fun _ _ _ active hh => queryDecl_agrees K hh active) active)
    fun _ _ _ hle₁ hqs => .pure fun _ hle₂ => ⟨hh.mono (K.likeness_le (K.trans hle₁ hle₂)), rfl,
      hqs.imp fun _ _ h => h.mono (K.likeness_le hle₂)⟩)

theorem controllerDecl_agrees {h h' : Header} (hh : h.Alike (K.likeness w) h') (active : Bool) :
    Agrees K env env' w (controllerDecl h active) (controllerDecl h' active)
      fun w => Controller.Alike (K.likeness w) :=
  .expect fun _ _ _ => .ident fun name _ _ hpos => .declare hpos (fun _ => hh.node) (.bind
    (members_agrees K (V := fun w => Func.Alike (K.likeness w))
      (fun _ _ _ _ hle hf => Func.Alike.mono (K.likeness_le hle) hf)
      (fun _ _ _ active hh => handlerDecl_agrees K name hh active) active)
    fun _ _ _ hle₁ hfs => .pure fun _ hle₂ => ⟨hh.mono (K.likeness_le (K.trans hle₁ hle₂)), rfl,
      hfs.imp fun _ _ h => h.mono (K.likeness_le hle₂)⟩)

end Parser

end Scaffold.Source

/-! ## Files

The parser of a file agrees where no file is to be had: an import finds nothing to load then. A file
without import statements does the same whatever there is to load.

* `decls_agree`: the statement for the entry.
* `decls_noFiles`: reading a file without import statements.
-/

namespace Scaffold.Source

def noFiles : Loader :=
  fun _ s => (.error .cancelled, s)

namespace Parser

variable (K : Link) {env env' : ParserEnv} {w : K.World}

section

variable (hlocate : ∀ written, env'.source.locate env'.tree written
    = env.source.locate env.tree written)
  (hload : env.load = noFiles) (hload' : env'.load = noFiles)
include hlocate hload hload'

theorem importDecl_agrees {h h' : Header} (hh : h.Alike (K.likeness w) h') :
    Agrees K env env' w (importDecl h) (importDecl h')
      fun w => Import.Alike (K.likeness w) := by
  refine .expect fun _ _ _ => .quoted fun written => .expectPunct (.takeSeq fun w₁ _ _ _ _ =>
    .given ?_)
  have hpos := hh.pos
  rw [hlocate]
  split
  · exact .fault hpos
  · rw [hload, hload']
    intro w₂ s s' _ hstates htokens
    exact ⟨w₂, K.refl _, hstates, htokens, rfl, rfl, .error fun _ => rfl⟩

/-- The word behind the annotations decides on both sides which declaration is read. -/
theorem decl_agrees (w : K.World) : Agrees K env env' w decl decl
    fun w => Option.Rel (Decl.Alike (K.likeness w)) := by
  unfold decl
  refine .bind (header_agrees K) ?_
  rintro w₁ ⟨h, active⟩ ⟨h', _⟩ _ ⟨hh, rfl⟩
  dsimp -zeta only
  refine .peek fun k _ _ _ => ?_
  extract_lets done
  have hdone : ∀ (w₂ : K.World) d d', d.Alike (K.likeness w₂) d' →
      Agrees K env env' w₂ (done d) (done d') fun w => Option.Rel (Decl.Alike (K.likeness w)) := by
    intro w₂ d d' hd
    refine .pure fun w₃ hle => ?_
    split
    · exact .some (hd.mono (K.likeness_le hle))
    · exact .none
  have hown : ∀ {α : Type} {p p' : Parser α} {R : Likeness → α → α → Prop} {g : α → Decl},
      Agrees K env env' w₁ p p' (fun w => R (K.likeness w)) →
      (∀ (L : Likeness) a a', R L a a' → (g a).Alike L (g a')) →
      Agrees K env env' w₁ (do let d ← pure (g (← p)); done d)
        (do let d ← pure (g (← p')); done d)
        fun w => Option.Rel (Decl.Alike (K.likeness w)) := fun hp hg =>
    .bind hp fun w₂ a a' _ ha => hdone w₂ _ _ (hg _ a a' ha)
  dsimp -zeta only
  split
  · exact hown (importDecl_agrees K hlocate hload hload' hh) fun _ _ _ => .importFile
  · exact hown (domainDecl_agrees K hh active) fun _ _ _ => .domain
  · exact hown (tableDecl_agrees K hh active) fun _ _ _ => .table
  · exact hown (entityDecl_agrees K hh active) fun _ _ _ => .entity
  · exact hown (recordDecl_agrees K hh active) fun _ _ _ => .record
  · exact hown (mapperDecl_agrees K hh active) fun _ _ _ => .mapper
  · exact hown (controllerDecl_agrees K hh active) fun _ _ _ => .controller
  · exact hown (apiDecl_agrees K hh active) fun _ _ _ => .api
  · exact hown (pageDecl_agrees K hh active) fun _ _ _ => .page
  · exact hown (propertyDecl_agrees K hh active) fun _ _ _ => .property
  · exact hown (funcDecl_agrees K hh active .func) fun _ _ _ => .func
  · exact .bind (V := fun w => Decl.Alike (K.likeness w)) .expected fun w₂ d d' _ hd => hdone w₂ d d' hd

theorem decls_agree : Agrees K env env' w decls decls
    fun w => List.Forall₂ (Decl.Alike (K.likeness w)) := by
  have hmono : ∀ (w w' : K.World) ds ds', K.le w w' →
      List.Forall₂ (Decl.Alike (K.likeness w)) ds ds' →
      List.Forall₂ (Decl.Alike (K.likeness w')) ds ds' := fun _ _ _ _ hle hds =>
    hds.imp fun _ _ h => h.mono (K.likeness_le hle)
  refine .remaining fun _ => .untilFuel hmono (fun w₁ ds ds' _ hds => ?_)
    (fun _ => .peek fun _ _ _ _ => .pure fun _ _ => rfl) _ (K.refl w) .nil
  refine .skipPunct fun skipped => ?_
  split
  · exact .pure fun _ hle => hmono _ _ _ _ hle hds
  · refine .bind (decl_agrees K hlocate hload hload' w₁) fun w₂ d d' hle hd =>
      .pure fun w₃ hle₃ => ?_
    have hds₃ := hmono _ _ _ _ (K.trans hle hle₃) hds
    cases hd with
    | none => simpa using hds₃
    | some hd => exact forall₂_snoc hds₃ (hd.mono (K.likeness_le hle₃))

end

/-- Without import statements, it does not matter what loading a file would do. -/
theorem decls_noFiles {s : ParserState} (h : importStatements false s.rest = []) :
    decls env s = decls { env with load := noFiles } s := by
  have hnothing : Loading { env with load := noFiles } env.load
      (fun ws _ _ => ws = []) fun _ _ => True := by
    constructor
    · exact fun h _ _ => h
    · exact fun _ _ => trivial
    · exact fun h _ => (List.cons_ne_nil _ _ h).elim
    · exact fun h _ _ => (List.cons_ne_nil _ _ h).elim
    · exact fun h _ _ => (List.cons_ne_nil _ _ h).elim
  exact (decls_comes hnothing h).1

end Parser

end Scaffold.Source
