import Scaffold.Proofs.Output.Step

/-!
# Keys as paths

The key of a file is made of the names on its path, with one slash between neighbours. So it is a path
too, no longer than the path of the file, and it leads where that one leads (`place_key`): the
manifest can look for a file under its key.
-/

namespace Scaffold

/-! ## Joined pieces -/

namespace Text

theorem joinWith_cons (sep s : String) {rest : List String} (h : rest ≠ []) :
    joinWith sep (s :: rest) = s ++ sep ++ joinWith sep rest := by
  cases rest with
  | nil => exact absurd rfl h
  | cons y rest => rfl

/-- Leaving pieces out leaves characters out. -/
theorem joinWith_sublist (sep : String) {l l' : List String} (h : l.Sublist l') :
    (joinWith sep l).toList.Sublist (joinWith sep l').toList := by
  induction h with
  | slnil => exact List.Sublist.refl _
  | @cons l l' s hl ih =>
    by_cases hl' : l' = []
    · rw [hl', List.sublist_nil] at hl
      simp [hl, joinWith]
    · rw [joinWith_cons sep s hl', String.toList_append]
      exact ih.trans (List.sublist_append_right _ _)
  | @cons_cons l l' s hl ih =>
    by_cases hnil : l = []
    · by_cases hl' : l' = []
      · rw [hnil, hl']
      · rw [hnil, joinWith_cons sep s hl', String.append_assoc, String.toList_append]
        exact List.sublist_append_left _ _
    · have hl' : l' ≠ [] := by
        rintro rfl
        exact hnil (List.sublist_nil.1 hl)
      simp only [joinWith_cons sep s hnil, joinWith_cons sep s hl', String.toList_append]
      exact (List.Sublist.refl _).append ih

theorem utf8ByteSize_cons (c : Char) (cs : List Char) :
    (String.ofList (c :: cs)).utf8ByteSize
      = (String.singleton c).utf8ByteSize + (String.ofList cs).utf8ByteSize := by
  rw [← String.utf8ByteSize_append]
  exact congrArg _ (String.ext (by simp))

/-- A text with characters left out is no longer. -/
theorem utf8ByteSize_le_of_sublist {a b : String} (h : a.toList.Sublist b.toList) :
    a.utf8ByteSize ≤ b.utf8ByteSize := by
  have hchars : ∀ {as bs : List Char}, as.Sublist bs →
      (String.ofList as).utf8ByteSize ≤ (String.ofList bs).utf8ByteSize := by
    intro as bs h
    induction h with
    | slnil => exact Nat.le_refl _
    | cons c _ ih =>
      rw [utf8ByteSize_cons]
      omega
    | cons_cons c _ ih =>
      rw [utf8ByteSize_cons, utf8ByteSize_cons]
      omega
  simpa using hchars h

/-- The pieces between separators hold none. -/
theorem not_sep_of_mem_splitChars (sep : Char → Bool) (cs : List Char) :
    ∀ piece ∈ splitChars sep cs, ∀ c ∈ piece, sep c = false := by
  induction cs with
  | nil => simp [splitChars]
  | cons c cs ih =>
    rw [splitChars]
    split
    · simp
    · rename_i piece pieces hs
      rw [hs] at ih
      split
      · simpa using ih
      · rename_i hc
        intro p hp x hx
        rcases List.mem_cons.1 hp with rfl | hp
        · rcases List.mem_cons.1 hx with rfl | hx
          · simpa using hc
          · exact ih piece (by simp) x hx
        · exact ih p (by simp [hp]) x hx

/-- A text without separators is one piece. -/
theorem splitChars_of_not_sep {sep : Char → Bool} {cs : List Char} (h : ∀ c ∈ cs, sep c = false) :
    splitChars sep cs = [cs] := by
  induction cs with
  | nil => rfl
  | cons c cs ih =>
    rw [splitChars, ih fun x hx => h x (by simp [hx])]
    simp [h c (by simp)]

end Text

namespace Path

theorem joinWith_pieces (p : Path) : Text.joinWith "/" p.pieces = p.text := by
  have hchars : ∀ cs : List Char,
      Text.joinWith "/" ((Text.splitChars (· == '/') cs).map String.ofList) = String.ofList cs := by
    intro cs
    induction cs with
    | nil => rfl
    | cons c cs ih =>
      rw [Text.splitChars]
      split
      · rename_i hs
        exact absurd hs (Text.splitChars_ne_nil _ _)
      · rename_i piece pieces hs
        rw [hs] at ih
        split
        · rename_i hc
          obtain rfl : c = '/' := by simpa using hc
          rw [List.map_cons, Text.joinWith_cons _ _ (by simp), ih]
          exact String.ext (by simp)
        · have hhead : ∀ rest : List String, Text.joinWith "/" (String.ofList (c :: piece) :: rest)
              = String.singleton c ++ Text.joinWith "/" (String.ofList piece :: rest) := by
            intro rest
            cases rest with
            | nil => exact String.ext (by simp [Text.joinWith])
            | cons y rest => exact String.ext (by simp [Text.joinWith])
          rw [List.map_cons, hhead, ← List.map_cons, ih]
          exact String.ext (by simp)
  rw [pieces, Text.split, hchars, String.ofList_toList]

theorem slash_not_mem_of_mem_pieces {p : Path} {x : String} (hx : x ∈ p.pieces) :
    '/' ∉ x.toList := by
  obtain ⟨piece, hpiece, rfl⟩ := List.mem_map.1 hx
  intro hc
  rw [String.toList_ofList] at hc
  simpa using Text.not_sep_of_mem_splitChars _ _ piece hpiece '/' hc

/-- Names without slashes are the pieces of the path they make. -/
theorem pieces_joinWith {names : List String} (hne : names ≠ [])
    (hslash : ∀ x ∈ names, '/' ∉ x.toList) :
    (Path.mk (Text.joinWith "/" names)).pieces = names := by
  have hone : ∀ x ∈ names, (Path.mk x).pieces = [x] := by
    intro x hx
    have hchars : ∀ c ∈ x.toList, (c == '/') = false := by
      intro c hc
      exact beq_false_of_ne fun heq => hslash x hx (heq ▸ hc)
    simp [pieces, Text.split, Text.splitChars_of_not_sep hchars]
  induction names with
  | nil => exact absurd rfl hne
  | cons x rest ih =>
    by_cases hrest : rest = []
    · rw [hrest]
      exact hone x (by simp)
    · rw [Text.joinWith_cons _ _ hrest, pieces_append_slash, hone x (by simp),
        ih hrest (fun y hy => hslash y (by simp [hy])) fun y hy => hone y (by simp [hy])]
      rfl

/-- A relative path is put after the same text whatever it is. -/
theorem join_text (p : Path) :
    ∃ sep, ∀ q : String, (Path.mk q).isAbsolute = false → (p.join q).text = p.text ++ sep ++ q := by
  by_cases hp : (p.text == "" || p.text.toList.getLast? == some '/') = true
  · exact ⟨"", fun q hq => by simp [join, hq, hp]⟩
  · exact ⟨"/", fun q hq => by simp only [join, hq, hp, Bool.false_eq_true, if_false]⟩

/-! ## The names on a path -/

/-- The names on a path are its pieces, less empty pieces and dots. -/
theorem names_eq (p : Path) :
    p.names = p.pieces.filter fun x => x != "" && x != "." && x != ".." := by
  have hrest : ∀ f : Part → Option String, (∀ s, f (.name s) = some s) → f .up = none →
      (p.pieces.filterMap Part.ofPiece?).filterMap f
        = p.pieces.filter fun x => x != "" && x != "." && x != ".." := by
    intro f hname hup
    induction p.pieces with
    | nil => rfl
    | cons x rest ih =>
      by_cases h1 : x = ""
      · simpa [Part.ofPiece?, h1] using ih
      · by_cases h2 : x = "."
        · simpa [Part.ofPiece?, h2] using ih
        · by_cases h3 : x = ".."
          · simpa [Part.ofPiece?, h3, hup] using ih
          · simpa [Part.ofPiece?, h1, h2, h3, hname] using ih
  unfold names parts
  split
  · exact hrest _ (fun _ => rfl) rfl
  · split
    · exact hrest _ (fun _ => rfl) rfl
    · exact hrest _ (fun _ => rfl) rfl

theorem names_append_slash (a b : String) :
    (Path.mk (a ++ "/" ++ b)).names = (Path.mk a).names ++ (Path.mk b).names := by
  simp only [names_eq, pieces_append_slash, List.filter_append]

/-- Two paths have one key if they have the same names. -/
theorem key_inj {p q : Path} : p.key = q.key ↔ p.names = q.names := by
  refine ⟨fun h => ?_, fun h => by rw [key, key, h]⟩
  have hslash : ∀ (r : Path), ∀ x ∈ r.names, '/' ∉ x.toList := by
    intro r x hx
    rw [names_eq] at hx
    exact slash_not_mem_of_mem_pieces (List.mem_of_mem_filter hx)
  have hempty : ∀ (r : Path), r.key = "" → r.names = [] := by
    intro r hr
    by_contra hne
    have hpieces := pieces_joinWith hne (hslash r)
    rw [← key, hr, pieces_empty] at hpieces
    have hmem : "" ∈ r.names := by simp [← hpieces]
    rw [names_eq] at hmem
    simp at hmem
  by_cases hp : p.names = []
  · rw [hp, hempty q (by rw [← h, key, hp]; rfl)]
  · have hq : q.names ≠ [] := fun hq => hp (hempty p (by rw [h, key, hq]; rfl))
    rw [← pieces_joinWith hp (hslash p), ← pieces_joinWith hq (hslash q), ← key, ← key, h]

/-! ## The key of a contained path -/

variable {p : Path}

theorem key_sublist (h : p.isContained = true) : p.key.toList.Sublist p.text.toList := by
  have hsub := Text.joinWith_sublist "/"
    (List.filter_sublist (p := fun piece => piece != "" && piece != ".") (l := p.pieces))
  rw [joinWith_pieces] at hsub
  rw [key, names_eq_namesOf (descends_of_isContained h)]
  exact hsub

/-- The names on a contained path are pieces of it, and steps down. -/
theorem mem_names (h : p.isContained = true) {x : String} (hx : x ∈ p.names) :
    x ∈ p.pieces ∧ x ≠ "" ∧ x ≠ "." ∧ x ≠ ".." := by
  have hd := descends_of_isContained h
  rw [names_eq_namesOf hd] at hx
  obtain ⟨hmem, hidle⟩ := List.mem_filter.1 hx
  have hidle : x ≠ "" ∧ x ≠ "." := by simpa using hidle
  exact ⟨hmem, hidle.1, hidle.2, hd x hmem⟩

theorem pieces_key (h : p.isContained = true) (hne : p.names ≠ []) :
    (Path.mk p.key).pieces = p.names :=
  pieces_joinWith hne fun _ hx => slash_not_mem_of_mem_pieces (mem_names h hx).1

theorem isAbsolute_key (h : p.isContained = true) (hne : p.names ≠ []) :
    (Path.mk p.key).isAbsolute = false := by
  obtain ⟨x, rest, hnames⟩ := List.exists_cons_of_ne_nil hne
  have hx := mem_names h (x := x) (by simp [hnames])
  obtain ⟨c, cs, hc⟩ := List.exists_cons_of_ne_nil (l := x.toList) (by simpa using hx.2.1)
  have hslash := slash_not_mem_of_mem_pieces hx.1
  have hhead : p.key.toList.head? = some c := by
    rw [key, hnames]
    cases rest with
    | nil => simp [Text.joinWith, hc]
    | cons y rest => simp [Text.joinWith, hc]
  rw [isAbsolute, hhead]
  exact beq_false_of_ne fun heq => hslash (by simp [hc, Option.some.inj heq])

end Path

namespace FileTree

variable {t : FileTree}

/-- Names that were followed are not too long. -/
theorem short_of_walk {s ps r : List String} (h : t.walk s ps = .ok r) :
    ∀ x ∈ ps, ¬ maxName < x.utf8ByteSize := by
  induction ps generalizing s with
  | nil => simp
  | cons p ps ih =>
    obtain ⟨-, hp, h⟩ := walk_cons h
    intro x hx
    rcases List.mem_cons.1 hx with rfl | hx
    · exact hp
    · exact ih h x hx

/-- Whatever stands in a well-formed tree is found by following its names. -/
theorem walk_names (ht : t.WellFormed) {s names : List String} {e : FileEntry}
    (he : t.entry? (s ++ names) = some e) (hshort : ∀ x ∈ names, ¬ maxName < x.utf8ByteSize)
    (hdown : ∀ x ∈ names, x ≠ "" ∧ x ≠ "." ∧ x ≠ "..") :
    t.walk s names = .ok (s ++ names) := by
  induction names generalizing s with
  | nil => simp [walk]
  | cons x rest ih =>
    obtain ⟨h1, h2, h3⟩ := hdown x (by simp)
    have hstep : step s x = s ++ [x] := by simp [step, h1, h2, h3]
    have hassoc : s ++ x :: rest = (s ++ [x]) ++ rest := by simp
    rw [walk, ht.above he (by simp), hstep, hassoc]
    dsimp only
    rw [if_neg (hshort x (by simp))]
    exact ih (hassoc ▸ he) (fun y hy => hshort y (by simp [hy])) fun y hy => hdown y (by simp [hy])

/-- The key of a contained path leads where the path leads, if a file is there. -/
theorem place_key (ht : t.WellFormed) {root : Path} {q : String} {r : List String} {text : String}
    (hq : (Path.mk q).isContained = true) (h : t.place (root.join q) = .ok r)
    (hr : t.entry? r = some (.file text)) :
    t.place (root.join (Path.mk q).key) = .ok r := by
  have hne := Output.names_ne_nil hq h (by simp [hr])
  have hrel := Path.isAbsolute_of_isContained hq
  have hkeyrel := Path.isAbsolute_key hq hne
  have hrefused : ¬ Refused (root.join (Path.mk q).key) := by
    have hpath := not_refused_of_place h
    obtain ⟨sep, hsep⟩ := Path.join_text root
    have hsub := Path.key_sublist hq
    simp only [Refused, hsep _ hrel, hsep _ hkeyrel, String.utf8ByteSize_append, not_or] at hpath ⊢
    obtain ⟨-, hnul, hlong⟩ := hpath
    refine ⟨fun hempty => ?_, fun hmem => hnul ?_, ?_⟩
    · -- The key is not empty: its pieces are the names, and these are not.
      have hkey : (Path.mk q).key = "" := (String.append_eq_empty_iff.1 hempty).2
      have hpieces := Path.pieces_key hq hne
      rw [hkey, Path.pieces_empty] at hpieces
      exact (Path.mem_names hq (x := "") (by simp [← hpieces])).2.1 rfl
    · simp only [String.toList_append, List.mem_append] at hmem ⊢
      exact hmem.imp_right fun hmem => hsub.subset hmem
    · have := Text.utf8ByteSize_le_of_sublist hsub
      simp only at this
      omega
  rw [place_of_not_refused hrefused]
  obtain ⟨ps, hps, -⟩ := Path.pieces_join root
  have hw := walk_of_place h
  have hstart : t.start (root.join (Path.mk q).key) = t.start (root.join q) := by
    rw [start, start, Path.isAbsolute_join _ _ hrel, Path.isAbsolute_join _ _ hkeyrel]
  rw [hps q hrel, walk_append] at hw
  rw [hstart, hps _ hkeyrel, walk_append, Path.pieces_key hq hne]
  cases hs : t.walk (t.start (root.join q)) ps with
  | error e =>
    rw [hs] at hw
    cases hw
  | ok s =>
    rw [hs] at hw
    have hw : t.walk s (Path.mk q).pieces = .ok r := hw
    have hleads : r = s ++ (Path.mk q).names := by
      rw [walk_eq hw, Path.foldl_step_of_descends _ _ (Path.descends_of_isContained hq),
        Path.names_eq_namesOf (Path.descends_of_isContained hq)]
    have hnames : t.walk s (Path.mk q).names = .ok (s ++ (Path.mk q).names) := walk_names ht
      (hleads ▸ hr) (fun x hx => short_of_walk hw x (Path.mem_names hq hx).1) fun x hx => (Path.mem_names hq hx).2
    rw [hleads]
    exact hnames

end FileTree

end Scaffold
