import Scaffold.Proofs.Homes

/-!
# Domains are replaced by what they stand for

A domain gives a name to a type, and lowering writes the type in place of the name. Domains may be
defined through each other, in any file and also in circles, so this goes through sixteen domains at
most.

* `Lowering.Expands`: a type with every domain on the way replaced, where there is an end.
* `Lowering.Cut`: a type that leads to one more domain.
* `Entry.lowerType_expands`: lowering does the first through sixteen domains, and the second after
  them.
-/

namespace Scaffold

open Source

/-- The name was bound to this symbol. -/
def Session.Means (s : Session) (r : NameRef) (symbol : Symbol) : Prop :=
  ∃ id, r.target = some id ∧ s.symbols.symbols[id]? = some symbol

/-- The symbol is that of a domain that a finished document declares, with this type. -/
def Session.Defines (s : Session) (symbol : Symbol) (type : TypeRef) : Prop :=
  symbol.kind = .domain ∧ ∃ d ∈ s.imports.documents, ∃ x, .domain x ∈ d.decls ∧
    x.header.id = symbol.node ∧ x.type = type

namespace Lowering

/-- The type without domains that a written type stands for, with the number of domains on the way
to it. Lists stay, and so do the names of all other types, with their kinds. -/
inductive Expands (s : Session) : (domains : Nat) → TypeRef → Model.Ty → Prop where
  | primitive (p : Primitive) : Expands s 0 (.primitive p) (.primitive p)
  | list {n : Nat} {item : TypeRef} {t : Model.Ty} :
    Expands s n item t → Expands s n (.list item) (.list t)
  | named {r : NameRef} {symbol : Symbol} : s.Means r symbol → symbol.kind ≠ .domain →
    Expands s 0 (.named r) (.named symbol.name (dataKind symbol.kind))
  | domain {n : Nat} {r : NameRef} {symbol : Symbol} {type : TypeRef} {t : Model.Ty} :
    s.Means r symbol → s.Defines symbol type → Expands s n type t → Expands s (n + 1) (.named r) t

/-- The type that a written type stands for if, after this number of domains on the way, the next one
may be anything. -/
inductive Cut (s : Session) : (domains : Nat) → TypeRef → Model.Ty → Prop where
  | list {n : Nat} {item : TypeRef} {t : Model.Ty} :
    Cut s n item t → Cut s n (.list item) (.list t)
  | here {r : NameRef} {symbol : Symbol} : s.Means r symbol → symbol.kind = .domain →
    Cut s 0 (.named r) (.primitive .any)
  | domain {n : Nat} {r : NameRef} {symbol : Symbol} {type : TypeRef} {t : Model.Ty} :
    s.Means r symbol → s.Defines symbol type → Cut s n type t → Cut s (n + 1) (.named r) t

/-- No type in it is a domain. -/
def DomainFree : Model.Ty → Prop
  | .primitive _ => True
  | .list item => DomainFree item
  | .named _ kind => kind ≠ .domain

variable {s : Session} {env : Env} {r : NameRef} {symbol : Symbol} {t : TypeRef} {ty : Model.Ty}
  {n : Nat}

theorem dataKind_ne_domain (kind : SymbolKind) : dataKind kind ≠ .domain := by
  cases kind <;> decide

theorem typeWith_domainFree {domain : Symbol → Model.Ty} (h : ∀ symbol, DomainFree (domain symbol))
    (t : TypeRef) : DomainFree (typeWith env domain t) := by
  induction t with
  | primitive p => trivial
  | list item ih => exact ih
  | named r =>
    unfold typeWith
    split
    · trivial
    · split
      · exact h _
      · exact dataKind_ne_domain _

theorem domainType_domainFree (n : Nat) (symbol : Symbol) : DomainFree (domainType env n symbol) := by
  induction n generalizing symbol with
  | zero => trivial
  | succ n ih =>
    unfold domainType
    split
    · exact typeWith_domainFree ih _
    · trivial

/-! ## One domain after the other -/

/-- The domains that names were bound to are found with their types, and the names in these types are
bound too. -/
structure DomainsKnown (s : Session) : Prop where
  found : ∀ {r symbol type}, s.Means r symbol → s.Defines symbol type →
    ∃ x, (s.imports.get? symbol.path).bind (·.domain? symbol.node) = some x ∧ x.type = type
  defined : ∀ {r symbol}, s.Means r symbol → symbol.kind = .domain →
    ∃ type, s.Defines symbol type ∧ ∀ u ∈ type.uses, Resolved s.symbols u

/-- What lowering reads of a session. -/
local instance : Coe Session Env := ⟨fun s => ⟨s.symbols, s.imports, s.platform⟩⟩

theorem typeWith_named (hr : s.Means r symbol) (domain : Symbol → Model.Ty) :
    typeWith s domain (.named r) = if symbol.kind = .domain then domain symbol
      else .named symbol.name (dataKind symbol.kind) := by
  obtain ⟨id, htarget, hsymbol⟩ := hr
  simp [typeWith, target?, htarget, hsymbol]

section

variable (hs : DomainsKnown s)
include hs

/-- A domain is replaced by its type, with one domain less to go. -/
theorem typeWith_domain (hr : s.Means r symbol) {type : TypeRef} (htype : s.Defines symbol type)
    (n : Nat) : typeWith s (domainType s (n + 1)) (.named r) = typeWith s (domainType s n) type := by
  obtain ⟨x, hx, rfl⟩ := hs.found hr htype
  rw [typeWith_named hr, if_pos htype.1, domainType, documentOf?, hx]

/-- A type is expanded if its domains are no more than those to go. -/
theorem Expands.typeWith_eq {m : Nat} (h : Expands s m t ty) (hle : m ≤ n) :
    typeWith s (domainType s n) t = ty := by
  induction h generalizing n with
  | primitive p => rfl
  | list _ ih => exact congrArg Model.Ty.list (ih hle)
  | named hr hkind => rw [typeWith_named hr, if_neg hkind]
  | domain hr htype _ ih =>
    obtain ⟨n, rfl⟩ := Nat.exists_eq_succ_of_ne_zero (Nat.ne_of_gt (Nat.lt_of_lt_of_le (Nat.succ_pos _) hle))
    rw [typeWith_domain hs hr htype]
    exact ih (Nat.le_of_succ_le_succ hle)

/-- A type is cut at the domain that is one too many. -/
theorem Cut.typeWith_eq (h : Cut s n t ty) : typeWith s (domainType s n) t = ty := by
  induction h with
  | list _ ih => exact congrArg Model.Ty.list ih
  | here hr hkind =>
    rw [typeWith_named hr, if_pos hkind]
    rfl
  | domain hr htype _ ih => exact (typeWith_domain hs hr htype _).trans ih

/-- A type that is cut has more domains on the way to its end, if there is one. -/
theorem Cut.lt_of_expands (h : Cut s n t ty) {m : Nat} {ty' : Model.Ty}
    (h' : Expands s m t ty') : n < m := by
  have hsame : ∀ {r symbol symbol'}, s.Means r symbol → s.Means r symbol' → symbol = symbol' := by
    rintro r symbol symbol' ⟨id, htarget, hsymbol⟩ ⟨id', htarget', hsymbol'⟩
    cases htarget.symm.trans htarget'
    exact Option.some.inj (hsymbol.symm.trans hsymbol')
  induction h generalizing m ty' with
  | list _ ih =>
    cases h' with
    | list h' => exact ih h'
  | here hr hkind =>
    cases h' with
    | named hr' hkind' => exact absurd (hsame hr hr' ▸ hkind) hkind'
    | domain => exact Nat.succ_pos _
  | domain hr htype _ ih =>
    cases h' with
    | named hr' hkind' => exact absurd (hsame hr hr' ▸ htype.1) hkind'
    | domain hr' htype' h' =>
      cases hsame hr hr'
      obtain ⟨x, hx, rfl⟩ := hs.found hr htype
      obtain ⟨x', hx', rfl⟩ := hs.found hr htype'
      cases hx.symm.trans hx'
      exact Nat.succ_lt_succ (ih h')

/-- A type comes to an end through so many domains, or leads to one more. -/
theorem expands_or_cut : ∀ (n : Nat) (t : TypeRef), (∀ u ∈ t.uses, Resolved s.symbols u) →
    (∃ m ≤ n, ∃ ty, Expands s m t ty) ∨ ∃ ty, Cut s n t ty
  | n, .primitive p, _ => .inl ⟨0, Nat.zero_le n, _, .primitive p⟩
  | n, .list item, ht =>
    (expands_or_cut n item ht).imp (fun ⟨m, hle, ty, h⟩ => ⟨m, hle, _, .list h⟩)
      fun ⟨ty, h⟩ => ⟨_, .list h⟩
  | n, .named r, ht => by
    obtain ⟨id, symbol, htarget, hsymbol, -⟩ := ht _ List.mem_cons_self
    have hr : s.Means r symbol := ⟨id, htarget, hsymbol⟩
    by_cases hkind : symbol.kind = .domain
    · cases n with
      | zero => exact .inr ⟨_, .here hr hkind⟩
      | succ n =>
        obtain ⟨type, htype, huses⟩ := hs.defined hr hkind
        exact (expands_or_cut n type huses).imp
          (fun ⟨m, hle, ty, h⟩ => ⟨m + 1, Nat.succ_le_succ hle, ty, .domain hr htype h⟩)
          fun ⟨ty, h⟩ => ⟨ty, .domain hr htype h⟩
    · exact .inl ⟨0, Nat.zero_le n, _, .named hr hkind⟩
  termination_by n t => (n, sizeOf t)

end

end Lowering

/-! ## Compilations -/

theorem Source.Decl.domain_of_declared {x : Decl} {y : Declared} (h : x.declared? = some y)
    (hy : y.kind = .domain) : ∃ d, x = .domain d ∧ d.header.id = y.node := by
  cases x with
  | importFile i => cases h
  | domain d =>
    cases h
    exact ⟨d, rfl, rfl⟩
  | _ =>
    cases h
    cases hy

/-- A domain is the declaration with its number. -/
theorem Source.Document.domain?_of_mem {d : Document} {x : Domain} (hnodup : d.nodes.Nodup)
    (hx : .domain x ∈ d.decls) : d.domain? x.header.id = some x := by
  have hdecls : (d.decls.flatMap Decl.nodes).Nodup := hnodup.sublist (List.sublist_append_left _ _)
  have hfind : d.decl? x.header.id = some (.domain x) := by
    unfold decl?
    cases hd : d.decls.find? (·.header.id == x.header.id) with
    | none =>
      have hnone := List.find?_eq_none.1 hd _ hx
      exact absurd (BEq.rfl : (x.header.id == x.header.id) = true) hnone
    | some y =>
      have hid : y.header.id = x.header.id := by simpa using List.find?_some hd
      refine congrArg some (eq_of_nodup_flatMap hdecls (List.mem_of_find?_eq_some hd) hx ?_
        (Decl.id_mem_nodes (.domain x)))
      exact hid ▸ Decl.id_mem_nodes y
  rw [domain?, hfind]

namespace Entry

variable {tree : FileTree} {platform : Option Platform} {e : Entry} {d : Document} {s : Session}

theorem domains_known (h : e.compile tree platform = (.ok d, s))
    (hclean : s.diagnostics.hasErrors = false) : Lowering.DomainsKnown s := by
  have hnodup : (s.imports.documents.flatMap Document.nodes).Nodup :=
    (compile_worked h).numbered.2.nodup
  have hdocument : ∀ {d' : Document}, d' ∈ s.imports.documents → d'.nodes.Nodup :=
    fun hd => (List.nodup_flatMap.1 hnodup).1 _ hd
  have hmem : ∀ {d' : Document} {x : Domain}, .domain x ∈ d'.decls → x.header.id ∈ d'.nodes :=
    fun hx => List.mem_append_left _
      (List.mem_flatMap.2 ⟨_, hx, Decl.id_mem_nodes (.domain _)⟩)
  -- The declaration of a domain stands in the document at the path of its symbol.
  have hhome : ∀ {r symbol}, s.Means r symbol → symbol.kind = .domain →
      ∃ d' ∈ s.imports.documents, s.imports.get? symbol.path = some d' ∧
        ∃ x, .domain x ∈ d'.decls ∧ x.header.id = symbol.node := by
    rintro r symbol ⟨id, -, hsymbol⟩ hkind
    obtain ⟨d', hd', hget, hdeclared⟩ := type_declared h hclean hsymbol (by rw [hkind]; rfl)
    refine ⟨d', hd', hget, ?_⟩
    obtain hdecl | hshape := List.mem_append.1 hdeclared
    · obtain ⟨y, hy, hydeclared⟩ := List.mem_filterMap.1 hdecl
      obtain ⟨x, rfl, hx⟩ := Decl.domain_of_declared hydeclared hkind
      exact ⟨x, hy, hx⟩
    · obtain ⟨shape, -, heq⟩ := List.mem_map.1 hshape
      have hshaped : SymbolKind.shape = symbol.kind := congrArg Declared.kind heq
      rw [hkind] at hshaped
      cases hshaped
  refine ⟨fun {r symbol type} hr htype => ?_, fun {r symbol} hr hkind => ?_⟩
  · obtain ⟨hkind, d₁, hd₁, x₁, hx₁, hnode₁, rfl⟩ := htype
    obtain ⟨d', hd', hget, x, hx, hnode⟩ := hhome hr hkind
    -- There is one declaration with the number of the symbol.
    have hsame : d₁ = d' := eq_of_nodup_flatMap hnodup hd₁ hd' (hmem hx₁)
      (hnode₁.trans hnode.symm ▸ hmem hx)
    subst hsame
    refine ⟨x₁, ?_, rfl⟩
    rw [hget, ← hnode₁]
    exact Document.domain?_of_mem (hdocument hd₁) hx₁
  · obtain ⟨d', hd', -, x, hx, hnode⟩ := hhome hr hkind
    refine ⟨x.type, ⟨hkind, d', hd', x, hx, hnode, rfl⟩, fun u hu => ?_⟩
    obtain ⟨id, symbol', htarget, hsymbol, hname, haccepts, -⟩ := uses_bound h hclean d' hd' u
      (List.mem_append_left _ (List.mem_flatMap.2 ⟨_, hx, hu⟩))
    exact ⟨id, symbol', htarget, hsymbol, hname, haccepts⟩

/-- In a compilation without errors, no type that lowering writes is a domain. A type whose names are
bound, as all names in the documents are, becomes the type it stands for, if there are no more than
sixteen domains on the way; and otherwise the seventeenth becomes any type. -/
theorem lowerType_expands (h : e.compile tree platform = (.ok d, s))
    (hclean : s.diagnostics.hasErrors = false) :
    let lower := Lowering.lowerType ⟨s.symbols, s.imports, s.platform⟩
    (∀ t, Lowering.DomainFree (lower t)) ∧
    (∀ d' ∈ s.imports.documents, ∀ u ∈ d'.uses, Resolved s.symbols u) ∧
    ∀ t : TypeRef, (∀ u ∈ t.uses, Resolved s.symbols u) →
      (∀ n ty, Lowering.Expands s n t ty → n ≤ 16 → lower t = ty) ∧
      ((∀ n ty, Lowering.Expands s n t ty → 16 < n) → Lowering.Cut s 16 t (lower t)) := by
  obtain ⟨-, -, hsound⟩ := compile_sound h hclean
  have hknown := domains_known h hclean
  refine ⟨Lowering.typeWith_domainFree (Lowering.domainType_domainFree 16), fun d' hd' => ?_,
    fun t ht => ⟨fun n ty hexpands hle => hexpands.typeWith_eq hknown hle, fun hmore => ?_⟩⟩
  · obtain ⟨p, -, hp⟩ := List.mem_filterMap.1 hd'
    exact (hsound.docs hp).uses
  · obtain ⟨m, hle, ty, hexpands⟩ | ⟨ty, hcut⟩ := Lowering.expands_or_cut hknown 16 t ht
    · exact absurd hle (Nat.not_le.2 (hmore m ty hexpands))
    · have heq : Lowering.lowerType ⟨s.symbols, s.imports, s.platform⟩ t = ty :=
        hcut.typeWith_eq hknown
      rw [heq]
      exact hcut

/-- The type of the domain that a name was bound to. -/
def standsFor? (s : Session) (r : NameRef) : Option TypeRef := do
  let symbol ← s.symbols.symbols[← r.target]?
  if symbol.kind = .domain then
    (s.imports.documents.flatMap fun d => d.decls.filterMap fun
      | .domain x => if x.header.id = symbol.node then some x.type else none
      | _ => none).head?
  else none

theorem defines_of_standsFor? {r : NameRef} {type : TypeRef} (h : standsFor? s r = some type) :
    ∃ symbol, s.Means r symbol ∧ s.Defines symbol type := by
  unfold standsFor? at h
  obtain ⟨id, htarget, h⟩ := Option.bind_eq_some_iff.1 h
  obtain ⟨symbol, hsymbol, h⟩ := Option.bind_eq_some_iff.1 h
  split at h
  · rename_i hkind
    obtain ⟨d, hd, hmem⟩ := List.mem_flatMap.1 (List.mem_of_mem_head? h)
    obtain ⟨x, hx, hmatch⟩ := List.mem_filterMap.1 hmem
    split at hmatch
    · split at hmatch
      · rename_i y hid
        cases hmatch
        exact ⟨symbol, ⟨id, htarget, hsymbol⟩, hkind, d, hd, y, hx, hid, rfl⟩
      · cases hmatch
    · cases hmatch
  · cases h

/-- A domain over one in another file, and a domain of lists of itself. -/
def domainTree : FileTree :=
  { entries := [(["a.jssp"], .file "domain Email varchar(200); domain Loop list<Loop>;"),
      (["main.jssp"], .file ("import 'a.jssp'; domain Mails list<Email>; " ++
        "struct S \x7b m list<Mails>; l Loop; \x7d"))] }

/-- The types of the fields of records. -/
def fieldTypes (s : Session) : List TypeRef :=
  s.imports.documents.flatMap fun d => d.decls.flatMap fun
    | .record r => r.fields.map (·.type)
    | _ => []

theorem uses_of_fieldTypes {t : TypeRef} (ht : t ∈ fieldTypes s) {u : Use} (hu : u ∈ t.uses) :
    ∃ d ∈ s.imports.documents, u ∈ d.uses := by
  obtain ⟨d, hd, ht⟩ := List.mem_flatMap.1 ht
  obtain ⟨x, hx, ht⟩ := List.mem_flatMap.1 ht
  refine ⟨d, hd, List.mem_append_left _ (List.mem_flatMap.2 ⟨x, hx, ?_⟩)⟩
  cases x with
  | record r =>
    obtain ⟨f, hf, rfl⟩ := List.mem_map.1 ht
    exact List.mem_flatMap.2 ⟨f, hf, hu⟩
  | _ => cases ht

theorem lowerType_expands_loop :
    let run := Entry.compile domainTree none (.file ⟨"main.jssp"⟩ [])
    let lower := Lowering.lowerType ⟨run.2.symbols, run.2.imports, run.2.platform⟩
    run.2.diagnostics = [] ∧ ∃ t t', fieldTypes run.2 = [t, t'] ∧
      Lowering.Expands run.2 2 t (.list (.list (.primitive (.varchar 200)))) ∧
      lower t = .list (.list (.primitive (.varchar 200))) ∧
      Lowering.Cut run.2 16 t' (lower t') ∧ lower t' = Model.Ty.list^[16] (.primitive .any) := by
  obtain ⟨run, hrun, hok, hnone, mails, -, loop, -, htypes, ⟨email, -, hmails, hemail⟩, again, -,
      hloop, hagain, hlower⟩ : ∃ run, Entry.compile domainTree none (.file ⟨"main.jssp"⟩ []) = run ∧
      run.1.isOk = true ∧ run.2.diagnostics = [] ∧
      ∃ mails ∈ (fieldTypes run.2).head?.bind TypeRef.coreName?,
      ∃ loop ∈ (fieldTypes run.2).getLast?.bind TypeRef.coreName?,
        fieldTypes run.2 = [.list (.named mails), .named loop] ∧
        (∃ email ∈ (standsFor? run.2 mails).bind TypeRef.coreName?,
          standsFor? run.2 mails = some (.list (.named email)) ∧
          standsFor? run.2 email = some (.primitive (.varchar 200))) ∧
        ∃ again ∈ (standsFor? run.2 loop).bind TypeRef.coreName?,
          standsFor? run.2 loop = some (.list (.named again)) ∧
          standsFor? run.2 again = some (.list (.named again)) ∧
          Lowering.lowerType ⟨run.2.symbols, run.2.imports, run.2.platform⟩ (.named loop)
            = Model.Ty.list^[16] (.primitive .any) :=
    ⟨_, compile_file domainTree (.cons rfl (.cons (.append rfl rfl) .nil)) _, by decide +kernel⟩
  rw [hrun]
  obtain ⟨d, hd⟩ : ∃ d, run = (.ok d, run.2) := exists_of_isOk hok
  replace hd := hrun.trans hd
  have hclean : run.2.diagnostics.hasErrors = false := by
    rw [hnone]
    rfl
  obtain ⟨m, hm, hmtype⟩ := defines_of_standsFor? hmails
  obtain ⟨e, he, hetype⟩ := defines_of_standsFor? hemail
  obtain ⟨l, hl, hltype⟩ := defines_of_standsFor? hloop
  obtain ⟨a, ha, hatype⟩ := defines_of_standsFor? hagain
  have hexpands : Lowering.Expands run.2 2 (.list (.named mails))
      (.list (.list (.primitive (.varchar 200)))) :=
    .list (.domain hm hmtype (.list (.domain he hetype (.primitive _))))
  -- However many domains are passed, the next one is again the same.
  have hcut : ∀ n, ∃ ty, Lowering.Cut run.2 n (.named again) ty := by
    intro n
    induction n with
    | zero => exact ⟨_, .here ha hatype.1⟩
    | succ n ih =>
      obtain ⟨ty, ih⟩ := ih
      exact ⟨_, .domain ha hatype (.list ih)⟩
  obtain ⟨ty, hty⟩ := hcut 15
  have hmore : Lowering.Cut run.2 16 (.named loop) (.list ty) := .domain hl hltype (.list hty)
  have hknown := domains_known hd hclean
  obtain ⟨-, hresolved, hall⟩ := lowerType_expands hd hclean
  have hbound : ∀ t ∈ fieldTypes run.2, ∀ u ∈ t.uses, Resolved run.2.symbols u := by
    intro t ht u hu
    obtain ⟨d', hd', hu⟩ := uses_of_fieldTypes ht hu
    exact hresolved d' hd' u hu
  rw [htypes] at hbound
  refine ⟨hnone, _, _, htypes, hexpands, ?_, ?_, hlower⟩
  · exact (hall _ (hbound _ List.mem_cons_self)).1 2 _ hexpands (by decide)
  · refine (hall _ (hbound _ (List.mem_cons_of_mem _ List.mem_cons_self))).2 fun n ty h => ?_
    exact hmore.lt_of_expands hknown h

end Entry

end Scaffold
