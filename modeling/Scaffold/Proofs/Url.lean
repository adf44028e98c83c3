import Mathlib.Data.List.Basic
import Mathlib.Data.List.TakeWhile
import Scaffold.Url

/-!
# Reading a template

A template is read in one pass: text, and what stands between braces, up to the end or to a brace
that is never closed.

* `Scanned cs hs open?`: the characters have these holes, and behind them perhaps an open brace.
* `Scanned.append`, `Scanned.close`: what is read of two texts in a row. An open brace of the first
  one swallows the second up to its first closing brace.
* `params_template_iff`: when the parameters of a request's template are the placeholders of the
  path and then the parameters of the query.
-/

namespace Scaffold.Url

/-- What stands between braces. -/
def Piece.hole? : Piece → Option (List Char)
  | .text _ => none
  | .hole inner => some inner

/-- What stands between the braces of a template, in order. -/
def holes (template : String) : List (List Char) :=
  (pieces template).filterMap Piece.hole?

/-- The name of a parameter. -/
def Part.param? : Part → Option String
  | .text _ => none
  | .param name => some name

/-- The parameters of a template, in order. -/
def params (template : String) : List String :=
  (parts template).filterMap Part.param?

theorem params_eq (template : String) :
    params template = (holes template).map fun inner => String.ofList (holeName inner) := by
  rw [params, parts, holes, List.filterMap_map, List.map_filterMap]
  refine List.filterMap_congr fun piece _ => ?_
  cases piece <;> rfl

/-- The name of a placeholder, if it has one. -/
def placeholderName? (inner : List Char) : Option String :=
  let name := Text.trimChars (holeName inner)
  if name.isEmpty then none else some (String.ofList name)

theorem placeholders_eq (path : String) :
    placeholders path = (holes path).filterMap placeholderName? := by
  rw [placeholders, holes, List.filterMap_filterMap]
  refine List.filterMap_congr fun piece _ => ?_
  cases piece <;> rfl

/-! ## Holes -/

/-- The characters are text with these holes, and behind the last of them perhaps an open brace that
is never closed, with what stands behind it. -/
inductive Scanned : List Char → List (List Char) → Option (List Char) → Prop where
  | text {text : List Char} (htext : '\x7b' ∉ text) : Scanned text [] none
  | opened {text rest : List Char} (htext : '\x7b' ∉ text) (hrest : '\x7d' ∉ rest) :
    Scanned (text ++ '\x7b' :: rest) [] (some rest)
  | hole {text inner rest : List Char} {hs : List (List Char)} {open? : Option (List Char)}
    (htext : '\x7b' ∉ text) (hinner : '\x7d' ∉ inner) (hrest : Scanned rest hs open?) :
    Scanned (text ++ '\x7b' :: (inner ++ '\x7d' :: rest)) (inner :: hs) open?

variable {cs cs' text inner rest : List Char} {hs hs' : List (List Char)}
  {open? : Option (List Char)}

theorem exists_scanned (cs : List Char) : ∃ hs open?, Scanned cs hs open? := by
  by_cases hopen : '\x7b' ∈ cs
  · obtain ⟨text, tail, hcs, htext⟩ := List.eq_append_cons_of_mem hopen
    by_cases hclose : '\x7d' ∈ tail
    · obtain ⟨inner, rest, htail, hinner⟩ := List.eq_append_cons_of_mem hclose
      obtain ⟨hs, open?, hrest⟩ := exists_scanned rest
      rw [hcs, htail]
      exact ⟨inner :: hs, open?, .hole htext hinner hrest⟩
    · rw [hcs]
      exact ⟨[], some tail, .opened htext hclose⟩
  · exact ⟨[], none, .text hopen⟩
termination_by cs.length
decreasing_by
  rw [hcs, htail]
  simp only [List.length_append, List.length_cons]
  omega

theorem splitFirstChars_append {sep : Char} (h : sep ∉ cs) :
    Text.splitFirstChars sep (cs ++ sep :: rest) = some (cs, rest) := by
  induction cs with
  | nil => simp [Text.splitFirstChars]
  | cons c cs ih =>
    obtain ⟨hc, hcs⟩ := not_or.1 (mt List.mem_cons.2 h)
    simp [Text.splitFirstChars, Ne.symm hc, ih hcs]

theorem splitFirstChars_eq_none {sep : Char} (h : sep ∉ cs) :
    Text.splitFirstChars sep cs = none := by
  induction cs with
  | nil => rfl
  | cons c cs ih =>
    obtain ⟨hc, hcs⟩ := not_or.1 (mt List.mem_cons.2 h)
    simp [Text.splitFirstChars, Ne.symm hc, ih hcs]

theorem piecesFrom_text (htext : '\x7b' ∉ text) (rest before : List Char) :
    piecesFrom 0 before (text ++ rest) = piecesFrom 0 (before ++ text) rest := by
  induction text generalizing before with
  | nil => simp
  | cons c text ih =>
    obtain ⟨hc, htext⟩ := not_or.1 (mt List.mem_cons.2 htext)
    rw [List.cons_append, piecesFrom, if_neg (by simpa using Ne.symm hc), ih htext]
    simp

theorem piecesFrom_skip (passed rest before : List Char) :
    piecesFrom passed.length before (passed ++ rest) = piecesFrom 0 before rest := by
  induction passed with
  | nil => rfl
  | cons c passed ih => exact ih

theorem filterMap_textPiece (text : List Char) :
    (textPiece Piece.text text).filterMap Piece.hole? = [] := by
  unfold textPiece
  split <;> rfl

theorem Scanned.piecesFrom_holes (h : Scanned cs hs open?) (before : List Char) :
    (piecesFrom 0 before cs).filterMap Piece.hole? = hs := by
  induction h generalizing before with
  | @text text htext =>
    have hpieces := piecesFrom_text htext [] before
    rw [List.append_nil] at hpieces
    rw [hpieces, piecesFrom, filterMap_textPiece]
  | opened htext hrest =>
    rw [piecesFrom_text htext, piecesFrom, if_pos (by rfl), splitFirstChars_eq_none hrest]
    exact filterMap_textPiece _
  | @hole text inner rest _ _ htext hinner _ ih =>
    have hskip := piecesFrom_skip (inner ++ ['\x7d']) rest []
    rw [List.length_append, List.append_assoc] at hskip
    rw [piecesFrom_text htext, piecesFrom, if_pos (by rfl), splitFirstChars_append hinner]
    dsimp only
    rw [List.filterMap_append, filterMap_textPiece, List.nil_append, List.filterMap_cons]
    exact congrArg (inner :: ·) ((congrArg _ hskip).trans (ih []))

theorem Scanned.holes {template : String} (h : Scanned template.toList hs open?) :
    holes template = hs :=
  h.piecesFrom_holes []

/-- Text in front of a template adds no hole, if nothing is open there. -/
theorem Scanned.append (h : Scanned cs hs none) (h' : Scanned cs' hs' open?) :
    Scanned (cs ++ cs') (hs ++ hs') open? := by
  generalize hclosed : (none : Option (List Char)) = o at h
  induction h with
  | text htext =>
    rw [List.nil_append]
    cases h' with
    | text htext' => exact .text (by simp [htext, htext'])
    | opened htext' hrest =>
      rw [← List.append_assoc]
      exact .opened (by simp [htext, htext']) hrest
    | hole htext' hinner hrest =>
      rw [← List.append_assoc]
      exact .hole (by simp [htext, htext']) hinner hrest
  | opened => cases hclosed
  | hole htext hinner _ ih =>
    have hall := Scanned.hole htext hinner (ih hclosed)
    simpa using hall

/-- A brace that is left open swallows what follows up to the first closing brace. -/
theorem Scanned.close (h : Scanned cs hs (some rest)) (htext : '\x7d' ∉ text)
    (h' : Scanned cs' hs' open?) :
    Scanned (cs ++ (text ++ '\x7d' :: cs')) (hs ++ (rest ++ text) :: hs') open? := by
  generalize hopen : some rest = o at h
  induction h with
  | text => cases hopen
  | opened hbefore hrest =>
    cases hopen
    have hinner : '\x7d' ∉ rest ++ text := by simp [hrest, htext]
    have hall := Scanned.hole hbefore hinner h'
    simpa using hall
  | hole hbefore hinner _ ih =>
    have hall := Scanned.hole hbefore hinner (ih hopen)
    simpa using hall

/-- What stands behind a brace of a path that is never closed: behind the first brace after the last
closing one. -/
def unclosed? (path : String) : Option (List Char) :=
  (Text.splitFirstChars '\x7b' (path.toList.reverse.takeWhile (· != '\x7d')).reverse).map (·.2)

theorem reverse_takeWhile_append {p : Char → Bool} (h : ∀ c ∈ cs', p c = true) :
    ((cs ++ cs').reverse.takeWhile p).reverse = (cs.reverse.takeWhile p).reverse ++ cs' := by
  rw [List.reverse_append, List.takeWhile_append_of_pos fun c hc => h c (List.mem_reverse.1 hc)]
  simp

theorem reverse_takeWhile_cons {p : Char → Bool} {c : Char} (h : p c = false) :
    ((cs ++ c :: cs').reverse.takeWhile p).reverse = (cs'.reverse.takeWhile p).reverse := by
  rw [List.reverse_append, List.reverse_cons, List.append_assoc, List.takeWhile_append]
  split
  · rename_i hall
    rw [List.singleton_append, List.takeWhile_cons_of_neg (by simp [h]), List.append_nil,
      (List.takeWhile_prefix p).eq_of_length hall]
  · rfl

theorem Scanned.unclosed?_eq {path : String} (h : Scanned path.toList hs open?) :
    unclosed? path = open? := by
  unfold unclosed?
  generalize path.toList = cs at h
  have hsub : ∀ {cs : List Char}, '\x7b' ∉ cs →
      '\x7b' ∉ (cs.reverse.takeWhile (· != '\x7d')).reverse := fun hcs hmem =>
    hcs (List.mem_reverse.1 (List.takeWhile_subset _ (List.mem_reverse.1 hmem)))
  induction h with
  | text htext => rw [splitFirstChars_eq_none (hsub htext), Option.map_none]
  | @opened text rest htext hrest =>
    rw [reverse_takeWhile_append, splitFirstChars_append (hsub htext), Option.map_some]
    refine List.forall_mem_cons.2 ⟨by decide, fun c hc => bne_iff_ne.2 ?_⟩
    rintro rfl
    exact hrest hc
  | @hole text inner rest _ _ htext hinner _ ih =>
    rw [← List.cons_append, ← List.append_assoc, reverse_takeWhile_cons (by decide)]
    exact ih

/-! ## Templates of requests -/

/-- The names of the parameters that travel in the query. -/
def queryNames (bindings : List Model.Binding) : List String :=
  (bindings.filter (·.source == .query)).map (·.name)

/-- A name that a template can hold. -/
structure Bare (name : String) : Prop where
  opening : '\x7b' ∉ name.toList
  closing : '\x7d' ∉ name.toList
  colon : ':' ∉ name.toList

def queryField (name : String) : String :=
  name ++ "=" ++ braced name

/-- Parameters of a query behind the first one. -/
def moreFields (names : List String) : List Char :=
  names.flatMap fun name => '&' :: name.toList ++ '=' :: '\x7b' :: (name.toList ++ ['\x7d'])

theorem scanned_moreFields {names : List String} (h : ∀ name ∈ names, Bare name) :
    Scanned (moreFields names) (names.map String.toList) none := by
  induction names with
  | nil => exact .text nofun
  | cons name names ih =>
    obtain ⟨hname, hnames⟩ := List.forall_mem_cons.1 h
    have htext : '\x7b' ∉ '&' :: name.toList ++ ['='] := by simp [hname.opening]
    have hfield := Scanned.hole htext hname.closing (ih hnames)
    simpa [moreFields] using hfield

theorem template_toList (path name : String) (names : List String) {bindings : List Model.Binding}
    (h : queryNames bindings = name :: names) : (template path bindings).toList = path.toList ++
      ('?' :: name.toList ++ ['=', '\x7b'] ++ name.toList ++ '\x7d' :: moreFields names) := by
  have hfields : (bindings.filter (·.source == .query)).map
      (fun b => b.name ++ "=" ++ braced b.name) = (name :: names).map queryField := by
    rw [← h, queryNames, List.map_map]
    rfl
  have hjoin : ∀ (name : String) (names : List String),
      (Text.joinWith "&" ((name :: names).map queryField)).toList
        = name.toList ++ ['=', '\x7b'] ++ name.toList ++ '\x7d' :: moreFields names := by
    intro name names
    induction names generalizing name with
    | nil => simp [Text.joinWith, queryField, braced, moreFields]
    | cons name' names ih =>
      rw [List.map_cons, List.map_cons, Text.joinWith, String.toList_append, String.toList_append,
        ← List.map_cons, ih]
      · simp [queryField, braced, moreFields]
      · simp
  rw [template, hfields, if_neg (by simp), String.toList_append, String.toList_append, hjoin]
  simp

theorem template_of_nil (path : String) {bindings : List Model.Binding}
    (h : queryNames bindings = []) : template path bindings = path := by
  rw [queryNames, List.map_eq_nil_iff] at h
  rw [template, h]
  rfl

/-- The query adds its parameters to the holes of the path, if nothing is open there. -/
theorem holes_template {path : String} {bindings : List Model.Binding}
    (hnames : ∀ name ∈ queryNames bindings, Bare name) (h : unclosed? path = none) :
    holes (template path bindings) = holes path ++ (queryNames bindings).map String.toList := by
  obtain ⟨hs, open?, hpath⟩ := exists_scanned path.toList
  rw [hpath.unclosed?_eq] at h
  subst h
  cases hquery : queryNames bindings with
  | nil => rw [template_of_nil path hquery, List.map_nil, List.append_nil]
  | cons name names =>
    rw [hquery] at hnames
    obtain ⟨hname, hmore⟩ := List.forall_mem_cons.1 hnames
    have hquery' : Scanned
        ('?' :: name.toList ++ ['='] ++ '\x7b' :: (name.toList ++ '\x7d' :: moreFields names))
        (name.toList :: names.map String.toList) none :=
      .hole (by simp [hname.opening]) hname.closing (scanned_moreFields hmore)
    have hall : Scanned (template path bindings).toList (hs ++ (name :: names).map String.toList)
        none := by
      rw [template_toList path name names hquery]
      simpa using hpath.append hquery'
    rw [hpath.holes, hall.holes]

/-- A brace that the path leaves open swallows the first parameter of the query. -/
theorem holes_template_of_unclosed {path : String} {bindings : List Model.Binding}
    {rest : List Char} {name : String} {names : List String}
    (hnames : ∀ name ∈ queryNames bindings, Bare name)
    (hquery : queryNames bindings = name :: names) (h : unclosed? path = some rest) :
    holes (template path bindings) = holes path ++
      (rest ++ ('?' :: name.toList ++ ['=', '\x7b'] ++ name.toList)) ::
        names.map String.toList := by
  obtain ⟨hs, open?, hpath⟩ := exists_scanned path.toList
  rw [hpath.unclosed?_eq] at h
  subst h
  rw [hquery] at hnames
  obtain ⟨hname, hmore⟩ := List.forall_mem_cons.1 hnames
  have hclosing : '\x7d' ∉ '?' :: name.toList ++ ['=', '\x7b'] ++ name.toList := by
    simp [hname.closing]
  have hall := hpath.close hclosing (scanned_moreFields hmore)
  rw [← template_toList path name names hquery] at hall
  rw [hpath.holes, hall.holes]

theorem holeName_of_bare {name : String} (h : Bare name) : holeName name.toList = name.toList :=
  List.takeWhile_eq_self_iff.2 fun _ hc => bne_iff_ne.2 fun heq => h.colon (heq ▸ hc)

/-! ## Placeholders and parameters -/

/-- The scanners read a path in the same way: no name of a placeholder is empty or starts or ends
with a blank, and a brace is left open only if no query follows, or by chance: if the text behind
the brace starts with the name of the first parameter of the query and a colon. -/
structure Consistent (path : String) (query : List String) : Prop where
  named : ∀ inner ∈ holes path,
    holeName inner ≠ [] ∧ Text.trimChars (holeName inner) = holeName inner
  closed : ∀ rest ∈ unclosed? path, ∀ name ∈ query.head?, ':' ∈ rest ∧ holeName rest = name.toList

/-- Names that are the same with and without the blanks around them. -/
theorem map_holeName_eq_iff {hs : List (List Char)} :
    (hs.map fun inner => String.ofList (holeName inner)) = hs.filterMap placeholderName? ↔
      ∀ inner ∈ hs, holeName inner ≠ [] ∧ Text.trimChars (holeName inner) = holeName inner := by
  induction hs with
  | nil => simp
  | cons inner hs ih =>
    rw [List.map_cons, List.filterMap_cons, List.forall_mem_cons, ← ih, placeholderName?]
    by_cases hempty : Text.trimChars (holeName inner) = []
    · -- A placeholder without a name is not counted.
      rw [if_pos (List.isEmpty_iff.2 hempty), hempty]
      constructor
      · intro h
        have hlength := congrArg List.length h
        have hle := List.length_filterMap_le placeholderName? hs
        simp only [List.length_cons, List.length_map] at hlength
        omega
      · rintro ⟨⟨hne, heq⟩, -⟩
        exact absurd heq.symm hne
    · rw [if_neg (by simpa using hempty), List.cons.injEq, String.ofList_inj]
      constructor
      · rintro ⟨heq, hrest⟩
        exact ⟨⟨fun h => hempty (heq ▸ h), heq.symm⟩, hrest⟩
      · rintro ⟨⟨-, heq⟩, hrest⟩
        exact ⟨heq.symm, hrest⟩

/-- A name behind an open brace is read back only if a colon ends it. -/
theorem holeName_append_eq_iff {name : String} {tail : List Char}
    (hlong : name.toList.length < tail.length) (hcolon : ':' ∉ tail) :
    holeName (rest ++ tail) = name.toList ↔ ':' ∈ rest ∧ holeName rest = name.toList := by
  unfold holeName
  by_cases hmem : ':' ∈ rest
  · obtain ⟨before, after, rfl, hbefore⟩ := List.eq_append_cons_of_mem hmem
    have hall : ∀ c ∈ before, (c != ':') = true := fun c hc =>
      bne_iff_ne.2 fun heq => hbefore (heq ▸ hc)
    simp [List.takeWhile_append_of_pos hall]
  · have hall : ∀ c ∈ rest ++ tail, (c != ':') = true := fun c hc => bne_iff_ne.2 fun heq =>
      (List.mem_append.1 (heq ▸ hc)).elim hmem hcolon
    rw [List.takeWhile_eq_self_iff.2 hall]
    refine iff_of_false (fun h => ?_) fun h => hmem h.1
    have hlength := congrArg List.length h
    rw [List.length_append] at hlength
    omega

/-- The parameters of a request's template are the placeholders of the path and then the parameters
of the query exactly if the path is read in the same way everywhere. -/
theorem params_template_iff {path : String} {bindings : List Model.Binding}
    (hnames : ∀ name ∈ queryNames bindings, Bare name) :
    params (template path bindings) = placeholders path ++ queryNames bindings ↔
      Consistent path (queryNames bindings) := by
  have hback : ∀ names : List String, (∀ name ∈ names, Bare name) →
      (names.map String.toList).map (fun inner => String.ofList (holeName inner)) = names := by
    intro names h
    rw [List.map_map]
    refine (List.map_congr_left fun name hname => ?_).trans (List.map_id names)
    rw [Function.comp_apply, holeName_of_bare (h name hname), String.ofList_toList, id]
  rw [params_eq, placeholders_eq]
  cases hopen : unclosed? path with
  | none =>
    rw [holes_template hnames hopen, List.map_append, hback _ hnames, List.append_left_inj,
      map_holeName_eq_iff]
    exact ⟨fun h => ⟨h, by simp [hopen]⟩, Consistent.named⟩
  | some rest =>
    cases hquery : queryNames bindings with
    | nil =>
      rw [template_of_nil path hquery, List.append_nil, map_holeName_eq_iff]
      exact ⟨fun h => ⟨h, by simp⟩, Consistent.named⟩
    | cons name names =>
      have hall := hnames
      rw [hquery] at hall
      obtain ⟨hname, hmore⟩ := List.forall_mem_cons.1 hall
      have hcolon : ':' ∉ '?' :: name.toList ++ ['=', '\x7b'] ++ name.toList := by
        simp [hname.colon]
      rw [holes_template_of_unclosed hnames hquery hopen, List.map_append, List.map_cons,
        hback names hmore]
      have hsplit : ∀ {first : String},
          (holes path).map (fun inner => String.ofList (holeName inner)) ++ first :: names
            = (holes path).filterMap placeholderName? ++ name :: names ↔
            (holes path).map (fun inner => String.ofList (holeName inner))
              = (holes path).filterMap placeholderName? ∧ first = name := by
        intro first
        refine ⟨fun h => ?_, fun ⟨h, h'⟩ => by rw [h, h']⟩
        obtain ⟨h, h'⟩ := List.append_inj' h rfl
        exact ⟨h, (List.cons.inj h').1⟩
      have hlong : name.toList.length <
          ('?' :: name.toList ++ ['=', '\x7b'] ++ name.toList).length := by
        simp only [List.length_append, List.length_cons]
        omega
      rw [hsplit, map_holeName_eq_iff, ← String.toList_inj, String.toList_ofList,
        holeName_append_eq_iff hlong hcolon]
      exact ⟨fun ⟨h, h'⟩ => ⟨h, by simpa [hopen] using h'⟩,
        fun h => ⟨h.named, h.closed rest hopen name rfl⟩⟩

end Scaffold.Url
