import Mathlib.Data.List.Nodup
import Scaffold.Proofs.Parser.Decl

/-!
# Well-formed declarations of data

A column or field whose name is taken is left out, and a key or index of a column that is not there
is an error. So in a file without errors tables and records are well formed.

* `Parser.reports_none`: a loop that reports some of the names, and ends without an error.
* `Parser.decls_formed`: the declarations of a file are well formed.
-/

namespace Scaffold.Source

/-- No name comes twice, and keys and indexes mention nothing but these names. -/
structure Keyed (names keys : List String) (indexes : List Index) : Prop where
  nodup : names.Nodup
  keys : ∀ k ∈ keys, k ∈ names
  indexes : ∀ i ∈ indexes, ∀ c ∈ i.columns, c ∈ names

/-- The names of the columns of a table are distinct, and its keys and indexes are made of them. -/
def Table.Formed (t : Table) : Prop :=
  Keyed (t.columns.map (·.name)) t.keys t.indexes

/-- The fields that are declared together have distinct names. -/
def Decl.Formed : Decl → Prop
  | .table t => t.Formed
  | .entity e => (e.fields.map (·.name)).Nodup
  | .record r => (r.fields.map (·.name)).Nodup
  | _ => True

/-- This is true unless an error has been reported. -/
def ParserState.Grants (P : Prop) (s : ParserState) : Prop :=
  s.session.Clean → P

theorem ParserState.Grants.reads {env : ParserEnv} {P : Prop} {s s' : ParserState} {us : List Use}
    (h : s.Grants P) (hr : Reads env s us s') : s'.Grants P :=
  fun hclean => h ((Advances.of_reads hr).clean hclean)

namespace Triple

open ParserState (Grants)

variable {α β : Type} {env : ParserEnv} {P R : Prop} {Q : α → ParserState → Prop}

/-- What errors excuse stays true while a parser reads. -/
theorem keep {p : Parser β} {k : β → Parser α} {U : β → List Use} (hp : Scans env [] p U)
    (hk : ∀ b, Triple env (Grants P) (k b) Q) : Triple env (Grants P) (p >>= k) Q :=
  .read hp (fun _ _ _ h hr => h.reads hr) hk

/-- What does not depend on the state stays true whatever is parsed. -/
theorem after {p : Parser β} {k : β → Parser α} (hk : ∀ b, Triple env (fun _ => P) (k b) Q) :
    Triple env (fun _ => P) (p >>= k) Q :=
  .bind (fun _ _ _ h _ => h) hk

/-- After a report anything is excused. -/
theorem invalid {I : ParserState → Prop} {pos : Position} {declaration reason : String} :
    Triple env I (Parser.invalid pos declaration reason) fun _ => Grants P := by
  intro s u s' _ h hclean
  cases h
  simp [Session.Clean, Session.report, Diagnostics.hasErrors, Diagnostic.isError,
    CompileError.toDiagnostic, CompileError.severity, Fault.severity] at hclean

end Triple

namespace Parser

open ParserState (Grants)

variable {env : ParserEnv}

/-! ## Tables -/

namespace TableBody

variable {b : TableBody} {name : String}

def names (b : TableBody) : List String :=
  b.columns.map (·.name)

theorem hasColumn_iff : b.hasColumn name = true ↔ name ∈ b.names := by
  simp [hasColumn, names]

/-- What a table has so far is well formed. -/
def Formed (b : TableBody) : Prop :=
  Keyed b.names b.keys b.indexes

theorem Formed.addKeys (h : b.Formed) {ks : List String} (hks : ∀ k ∈ ks, k ∈ b.names) :
    ({ b with keys := b.keys ++ ks } : TableBody).Formed :=
  ⟨h.nodup, List.forall_mem_append.2 ⟨h.keys, hks⟩, h.indexes⟩

theorem Formed.addIndex (h : b.Formed) {i : Index} (hi : ∀ c ∈ i.columns, c ∈ b.names) :
    ({ b with indexes := b.indexes ++ [i] } : TableBody).Formed :=
  ⟨h.nodup, h.keys, List.forall_mem_append.2 ⟨h.indexes, List.forall_mem_singleton.2 hi⟩⟩

/-- A column with a new name may come behind keys and indexes. -/
theorem Formed.addColumn (h : b.Formed) {c : Column} (hc : c.name ∉ b.names) :
    ({ b with columns := b.columns ++ [c] } : TableBody).Formed := by
  have hnames : ({ b with columns := b.columns ++ [c] } : TableBody).names = b.names ++ [c.name] := by
    simp [names]
  unfold Formed
  rw [hnames]
  exact ⟨h.nodup.append (List.nodup_singleton _) (List.disjoint_singleton.2 hc),
    fun k hk => List.mem_append_left _ (h.keys k hk),
    fun i hi c hc => List.mem_append_left _ (h.indexes i hi c hc)⟩

end TableBody

/-- A loop that reports the names that are not columns ends without an error only if all are. -/
theorem reports_none {b : TableBody} {pos : Position} {declaration : String}
    {reason : String → String} : ∀ {R : Prop} (names : List String) (u : PUnit),
    Triple env (Grants R)
      (forIn names u fun name _ => if (!b.hasColumn name) = true then do
        invalid pos declaration (reason name)
        pure (ForInStep.yield PUnit.unit)
      else pure (ForInStep.yield PUnit.unit))
      fun _ => Grants (R ∧ ∀ name ∈ names, name ∈ b.names)
  | _, [], _ => .pure fun s h hclean => ⟨h hclean, nofun⟩
  | R, name :: names, u => by
    rw [List.forIn_cons]
    refine .bind (M := fun step s => step = .yield PUnit.unit ∧ s.Grants (R ∧ name ∈ b.names)) ?_
      fun step => ?_
    · split
      · exact .bind .invalid fun _ => .pure fun s h => ⟨rfl, h⟩
      · rename_i hname
        refine .pure fun s h => ⟨rfl, fun hclean => ⟨h hclean, TableBody.hasColumn_iff.1 ?_⟩⟩
        simpa using hname
    · rintro s u' s' ⟨rfl, hs⟩ h hclean
      obtain ⟨⟨hR, hname⟩, hnames⟩ := reports_none names PUnit.unit s u' s' hs h hclean
      exact ⟨hR, List.forall_mem_cons.2 ⟨hname, hnames⟩⟩

theorem keyItem_formed (table : String) (b : TableBody) :
    Triple env (Grants b.Formed) (keyItem table b) fun b => Grants b.Formed := by
  refine .keep peek_scans fun _ => .keep advance_scans fun _ => .keep nameList_scans fun names => ?_
  exact .bind (reports_none names _) fun _ => .keep (expectPunct_scans _) fun _ =>
    .pure fun s h hclean => (h hclean).1.addKeys (h hclean).2

theorem indexItem_formed (table : String) (b : TableBody) :
    Triple env (Grants b.Formed) (indexItem table b) fun b => Grants b.Formed := by
  refine .keep (isIdent_scans _) fun _ => .keep peek_scans fun _ => .keep advance_scans fun _ =>
    .keep ident_scans fun _ => .keep nameList_scans fun columns => ?_
  exact .bind (reports_none columns _) fun _ => .keep (expectPunct_scans _) fun _ =>
    .pure fun s h hclean => (h hclean).1.addIndex (h hclean).2

theorem columnItem_formed (table : String) (b : TableBody) :
    Triple env (Grants b.Formed) (columnItem table b) fun b => Grants b.Formed := by
  refine .keep column_scans fun c => ?_
  split
  · exact .bind .invalid fun _ => .pure fun _ => id
  · rename_i hname
    exact .pure fun s h hclean => (h hclean).addColumn fun hc => hname (TableBody.hasColumn_iff.2 hc)

theorem tableItem_formed (table : String) (b : TableBody) :
    Triple env (Grants b.Formed) (tableItem table b) fun b => Grants b.Formed := by
  refine .keep (peekKind_scans _) fun second => .keep (peekKind_scans _) fun third => ?_
  extract_lets secondIsName
  refine .keep (isIdent_scans _) fun _ => ?_
  split
  · exact keyItem_formed table b
  · refine .keep (isIdent_scans _) fun _ => .keep (isIdent_scans _) fun _ => ?_
    split
    · exact indexItem_formed table b
    · exact columnItem_formed table b

theorem tableDecl_formed (hd : Header) (active : Bool) :
    Triple env (fun _ => True) (tableDecl hd active) fun t => Grants t.Formed := by
  unfold tableDecl
  refine .after fun _ => .after fun name => .after fun _ => .after fun _ => ?_
  have hstart : ({} : TableBody).Formed := ⟨List.nodup_nil, nofun, nofun⟩
  refine .bind (fun s b s' _ => Triple.untilClose .braceClose (J := fun b => Grants b.Formed)
    (fun _ _ _ h hr => h.reads hr) (tableItem_formed name.1) {} s b s' fun _ => hstart) fun b => ?_
  refine .keep (expectPunct_scans _) fun _ => ?_
  extract_lets done
  split
  · exact .keep (invalid_scans _ _ _) fun _ => .pure fun _ => id
  · exact .pure fun _ => id

/-! ## Records -/

/-- A second field of a name is left out, so the names of fields are distinct with errors, too. -/
theorem fields_nodup (owner : String) :
    Triple env (fun _ => True) (fields owner) fun fs _ => (fs.map (·.name)).Nodup := by
  have hstep : ∀ fs : List Field, Triple env (fun _ => (fs.map (·.name)).Nodup) (fields.step owner fs)
      fun fs _ => (fs.map (·.name)).Nodup := by
    refine fun fs => .after fun name => .after fun type => .after fun _ => ?_
    split
    · exact .after fun _ => .pure fun _ => id
    · rename_i hname
      refine .pure fun _ hfs => ?_
      rw [List.map_append]
      refine hfs.append (List.nodup_singleton _) (List.disjoint_singleton.2 fun hmem => hname ?_)
      simpa using hmem
  intro s fs s' _ h
  obtain ⟨_, s₁, h₁, h⟩ := bind_ok.1 h
  obtain ⟨fs', s₂, h₂, h⟩ := bind_ok.1 h
  obtain ⟨_, s₃, h₃, h⟩ := bind_ok.1 h
  obtain ⟨rfl, rfl⟩ := pure_ok.1 h
  exact Triple.untilClose .braceClose (J := fun fs _ => (fs.map (·.name)).Nodup)
    (fun _ _ _ h _ => h) hstep [] _ _ _ List.nodup_nil h₂

theorem entityDecl_formed (hd : Header) (active : Bool) :
    Triple env (fun _ => True) (entityDecl hd active) fun e _ => (e.fields.map (·.name)).Nodup := by
  unfold entityDecl
  refine .after fun _ => .after fun name => .after fun _ => .after fun _ => ?_
  extract_lets withTable
  have hwith : ∀ table : Option NameRef, Triple env (fun _ => True) (withTable table)
      fun e _ => (e.fields.map (·.name)).Nodup := by
    intro table
    refine .after fun _ => ?_
    split
    · exact .bind (fields_nodup _) fun _ => .pure fun _ => id
    · exact .after fun _ => .pure fun _ _ => List.nodup_nil
  split
  · exact .after fun _ => .after fun r => hwith (some r)
  · exact hwith none

theorem recordDecl_formed (hd : Header) (active : Bool) :
    Triple env (fun _ => True) (recordDecl hd active) fun r _ => (r.fields.map (·.name)).Nodup :=
  .after fun _ => .after fun _ => .after fun _ => .bind (fields_nodup _) fun _ => .pure fun _ => id

/-- The declarations of a file without errors are well formed. -/
theorem decls_formed (hload : env.Loads) {s₀ : ParserState} (hroot : s₀.scope env = env.root) :
    Triple env (DeclsRead env (fun d => Grants d.Formed) s₀ []) decls
      (DeclsRead env (fun d => Grants d.Formed) s₀) := by
  refine decls_read hload hroot (fun d s s' h ha hclean => h (ha.clean hclean)) ?_
  intro hd s s' d _ hstep
  cases hstep with
  | table h => exact tableDecl_formed hd.1 hd.2 s _ s' trivial h
  | entity h => exact fun _ => entityDecl_formed hd.1 hd.2 s _ s' trivial h
  | record h => exact fun _ => recordDecl_formed hd.1 hd.2 s _ s' trivial h
  | _ => exact fun _ => trivial

end Parser

end Scaffold.Source
