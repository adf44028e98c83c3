import Scaffold.Proofs.Indexed.Lexer
import Scaffold.Proofs.Markup.Progress

/-!
# Markup by index

The parser of markup as a scanner. It looks up to four characters ahead for the signs that start
something, and cuts names, values and expressions out between the index it has kept and the one it
has come to. `markup_eq`: it faults on no text, and gives what `Markup.parse` gives.
-/

namespace Scaffold.Indexed

open Scan

section

variable (text : List Char)

/-- The sign stands at an index. -/
def stands : (sign : List Char) → (i : Nat) → Bool
  | [], _ => true
  | c :: cs, i => text[i]? == some c && stands cs (i + 1)

/-- The index of a sign, or of the end of the text. -/
def seekFrom (sign : List Char) : (fuel i : Nat) → Scan Markup.Error Nat
  | 0, _ => fault
  | fuel + 1, i =>
    if text.length ≤ i || stands text sign i then return i else seekFrom sign fuel (i + 1)

/-- The index of a sign, or of the end of the text. -/
def seek (sign : List Char) (i : Nat) : Scan Markup.Error Nat :=
  seekFrom text sign (text.length + 1) i

/-- An expression, after its two opening braces. -/
def interpolation (i : Nat) : Scan Markup.Error (List Char × Nat) := do
  let last ← seek text "\x7d\x7d".toList i
  if text.length ≤ last then refused ⟨last, "unterminated interpolation"⟩
  else
    let cs ← slice text i last
    return (cs, last + 2)

/-- The index behind a comment whose start is at `i`. -/
def comment (i : Nat) : Scan Markup.Error Nat := do
  let last ← seek text "-->".toList i
  return min (last + 3) text.length

/-- The text of an attribute's value. -/
def attrText (i : Nat) : Scan Markup.Error (String × Nat) :=
  if text.length ≤ i then refused ⟨i, "missing attribute value"⟩
  else do
    let quote ← item text i
    if quote == '"' || quote == '\'' then
      let last ← pass text (· != quote) (i + 1)
      if text.length ≤ last then refused ⟨last, "unterminated attribute value"⟩
      else
        let cs ← slice text (i + 1) last
        return (String.ofList cs, last + 1)
    else
      let (cs, last) ← cut text (fun x => !Text.isBlank x && x != '>' && x != '/') i
      return (String.ofList cs, last)

/-- The value of an attribute whose name was read, if it has one. -/
def attrValue (i : Nat) : Scan Markup.Error (Option String × Nat) := do
  let i ← pass text Text.isBlank i
  if ← holdsAt text (· == '=') i then
    let i ← pass text Text.isBlank (i + 1)
    let (v, i) ← attrText text i
    return (some v, i)
  else return (none, i)

/-- The attributes up to the end of an opening tag. -/
def attrs (tag : String) : (fuel i : Nat) →
    Scan Markup.Error ((List (String × Option String) × Markup.TagEnd) × Nat)
  | 0, _ => fault
  | fuel + 1, i => do
    let i ← pass text Text.isBlank i
    if text.length ≤ i then refused ⟨i, s!"unterminated <{tag}>"⟩
    else if stands text "/>".toList i then return (([], .selfClosed), i + 2)
    else
      let c ← item text i
      if c == '>' then return (([], .opened), i + 1)
      else
        let (name, after) ← cut text Markup.isNameChar i
        if name.isEmpty then
          let c ← item text after
          refused ⟨after, s!"unexpected '{c}' in <{tag}>"⟩
        else
          let (v, after) ← attrValue text after
          let ((others, ending), after) ← attrs tag fuel after
          return (((String.ofList name, v) :: others, ending), after)

/-- A closing tag, after its `</`. -/
def closing (i : Nat) : Scan Markup.Error (String × Nat) := do
  let (name, after) ← cut text Markup.isNameChar i
  let after ← pass text Text.isBlank after
  if ← holdsAt text (· == '>') after then return (String.ofList name, after + 1)
  else refused ⟨after, s!"expected '>' after </{String.ofList name}"⟩

mutual

/-- The nodes up to the closing tag of `outer`, or up to the end at the top level; `read` is what
was read of the current text, backwards. -/
def nodes (outer : Option String) : (fuel : Nat) → (read : List Char) → (i : Nat) →
    Scan Markup.Error (List MarkupNode × Nat)
  | 0, _, _ => fault
  | fuel + 1, read, i =>
    if text.length ≤ i then
      match outer with
      | some tag => refused ⟨i, s!"missing </{tag}>"⟩
      | none => return (Markup.textNodes read, i)
    else if stands text "\x7b\x7b".toList i then do
      let (source, i) ← interpolation text (i + 2)
      let (others, i) ← nodes outer fuel [] i
      let node := MarkupNode.interpolation (String.ofList (Text.trimChars source))
      return (Markup.textNodes read ++ node :: others, i)
    else if stands text "<!--".toList i then do
      let i ← comment text i
      nodes outer fuel read i
    else if stands text "</".toList i then do
      let (name, i) ← closing text (i + 2)
      match outer with
      | some tag =>
        if tag == name then return (Markup.textNodes read, i)
        else refused ⟨i, s!"expected </{tag}>, found </{name}>"⟩
      | none => refused ⟨i, s!"unexpected </{name}>"⟩
    else do
      let c ← item text i
      if c == '<' && text[i + 1]?.any Text.isLetter then
        let (node, i) ← element fuel (i + 1)
        let (others, i) ← nodes outer fuel [] i
        return (Markup.textNodes read ++ node :: others, i)
      else
        let c ← item text i
        nodes outer fuel (c :: read) (i + 1)

/-- An element, after its `<`. -/
def element : (fuel i : Nat) → Scan Markup.Error (MarkupNode × Nat)
  | 0, _ => fault
  | fuel + 1, i => do
    let (tag, i) ← cut text Markup.isNameChar i
    let tag := String.ofList tag
    let ((attributes, ending), i) ← attrs text tag (text.length + 1) i
    match ending with
    | .selfClosed => return (.element tag attributes none [], i)
    | .opened =>
      if Markup.voidTags.contains (Text.lowerAscii tag) then
        return (.element tag attributes none [], i)
      else
        let (inner, i) ← nodes (some tag) fuel [] i
        return (.element tag attributes none inner, i)

end

end

/-- The nodes of a markup text. -/
def markup (text : String) : Scan Markup.Error (List MarkupNode) := do
  let (nodes, _) ← nodes text.toList none (2 * text.toList.length + 2) [] 0
  return nodes

/-! ## Signs -/

section

variable {text before rest : List Char} {c : Char} {sign : List Char}

theorem stands_at (htext : before ++ rest = text) :
    stands text sign before.length = (Text.afterHeadChars sign rest).isSome := by
  induction sign generalizing before rest with
  | nil => cases rest <;> rfl
  | cons s sign ih =>
    rw [stands, show text[before.length]? = rest.head? by
      rw [← Nat.add_zero before.length, getElem?_at htext, List.head?_eq_getElem?]]
    cases rest with
    | nil => rfl
    | cons c rest =>
      have hrest := ih (append_singleton_at htext)
      rw [List.length_append, List.length_singleton] at hrest
      rw [hrest, Text.afterHeadChars]
      by_cases hc : s = c
      · simp [hc]
      · simp [hc, Ne.symm hc]

theorem stands_true (sign tail : List Char) (htext : before ++ (sign ++ tail) = text) :
    stands text sign before.length = true := by
  rw [stands_at htext, Text.afterHeadChars_eq_some.2 rfl]
  rfl

theorem stands_false (htext : before ++ rest = text) (h : ∀ tail, rest = sign ++ tail → False) :
    stands text sign before.length = false := by
  rw [stands_at htext, Option.isSome_eq_false_iff, Option.isNone_iff_eq_none,
    Option.eq_none_iff_forall_ne_some]
  exact fun tail htail => h tail (Text.afterHeadChars_eq_some.1 htail)

theorem if_stands {α : Type} (sign tail : List Char) (htext : before ++ (sign ++ tail) = text)
    (a b : α) : (if stands text sign before.length then a else b) = a :=
  if_pos (stands_true sign tail htext)

theorem if_not_stands {α : Type} (htext : before ++ rest = text)
    (h : ∀ tail, rest = sign ++ tail → False) (a b : α) :
    (if stands text sign before.length then a else b) = b :=
  if_neg (by rw [stands_false htext h]; exact Bool.false_ne_true)

/-- What stands in front of the first copy of a sign. -/
def beforeSign (sign : List Char) : List Char → List Char
  | [] => []
  | c :: cs =>
    if (Text.afterHeadChars sign (c :: cs)).isSome then [] else c :: beforeSign sign cs

theorem seekFrom_at {fuel : Nat} (htext : before ++ rest = text) (hfuel : rest.length < fuel) :
    seekFrom text sign fuel before.length = done (before ++ beforeSign sign rest).length := by
  induction fuel generalizing before rest with
  | zero => exact absurd hfuel (Nat.not_lt_zero _)
  | succ fuel ih =>
    rw [seekFrom, stands_at htext]
    cases rest with
    | nil =>
      rw [if_pos (by simp [length_le_at htext]), beforeSign, List.append_nil]
      rfl
    | cons c rest =>
      have hmore : decide (text.length ≤ before.length) = false := by simp [length_le_at htext]
      rw [hmore, Bool.false_or, beforeSign]
      by_cases hsign : (Text.afterHeadChars sign (c :: rest)).isSome = true
      · rw [if_pos hsign, if_pos hsign, List.append_nil]
        rfl
      · have hrest := ih (append_singleton_at htext) (Nat.lt_of_succ_lt_succ hfuel)
        rw [if_neg hsign, if_neg hsign, ← List.singleton_append, ← List.append_assoc, ← hrest,
          List.length_append, List.length_singleton]

theorem seek_at (htext : before ++ rest = text) :
    seek text sign before.length = done (before ++ beforeSign sign rest).length :=
  seekFrom_at htext (length_rest_lt htext)

/-- Reading an expression finds its two closing braces, or the end of the text. -/
theorem readInterpolation_eq (rest : List Char) :
    (rest = beforeSign "\x7d\x7d".toList rest ∧ Markup.readInterpolation rest = none) ∨
    ∃ after, rest = beforeSign "\x7d\x7d".toList rest ++ '\x7d' :: '\x7d' :: after ∧
      Markup.readInterpolation rest = some (beforeSign "\x7d\x7d".toList rest, after) := by
  fun_induction Markup.readInterpolation rest with
  | case1 => exact .inl ⟨rfl, rfl⟩
  | case2 after => exact .inr ⟨after, rfl, rfl⟩
  | case3 c cs hne ih =>
    have hsign : Text.afterHeadChars "\x7d\x7d".toList (c :: cs) = none :=
      Option.eq_none_iff_forall_ne_some.2 fun tail htail => by
        have hcs := Text.afterHeadChars_eq_some.1 htail
        cases hcs
        exact hne tail rfl rfl
    have hbefore : beforeSign "\x7d\x7d".toList (c :: cs) =
        c :: beforeSign "\x7d\x7d".toList cs := by
      rw [beforeSign, hsign]
      rfl
    rw [hbefore]
    obtain ⟨hcs, hread⟩ | ⟨after, hcs, hread⟩ := ih
    · exact .inl ⟨congrArg (c :: ·) hcs, by rw [hread]; rfl⟩
    · exact .inr ⟨after, congrArg (c :: ·) hcs, by rw [hread]; rfl⟩

/-- Dropping a comment finds its end mark, or the end of the text. -/
theorem afterComment_eq (rest : List Char) :
    (rest = beforeSign "-->".toList rest ∧ Markup.afterComment rest = []) ∨
    rest = beforeSign "-->".toList rest ++ "-->".toList ++ Markup.afterComment rest := by
  induction rest with
  | nil => exact .inl ⟨rfl, rfl⟩
  | cons c cs ih =>
    rw [beforeSign, Markup.afterComment]
    cases hsign : Text.afterHeadChars "-->".toList (c :: cs) with
    | some tail => exact .inr (Text.afterHeadChars_eq_some.1 hsign)
    | none =>
      obtain ⟨hcs, hafter⟩ | hcs := ih
      · exact .inl ⟨congrArg (c :: ·) hcs, hafter⟩
      · exact .inr (congrArg (c :: ·) hcs)

/-! ## What the markup parser reads -/

/-- The scanning parser of markup, and the parser that reads the rest of the text. -/
def marking (text : List Char) : View Nat (List Char) Markup.Stop Markup.Error :=
  ⟨List.length, fun _ rest => rest, fun stop => ⟨text.length - stop.unread, stop.message⟩⟩

/-- The index at which the text is refused is told by what is left. -/
theorem refused_at {α : Type} (message : String) (htext : before ++ rest = text) :
    Follows (α := α) (marking text) text (refused ⟨before.length, message⟩)
      (.error ⟨rest.length, message⟩) := by
  have h : before.length = text.length - rest.length := by
    rw [← htext, List.length_append, Nat.add_sub_cancel]
  rw [h]
  exact .refused (Markup.Stop.mk rest.length message)

theorem passed_at {α : Type} (a : α) (passed : List Char)
    (htext : before ++ (passed ++ rest) = text) :
    Follows (marking text) text (done (a, before.length + passed.length)) (.ok (a, rest)) := by
  rw [← List.length_append]
  exact .done a (by rw [List.append_assoc, htext])

theorem interpolation_follows (htext : before ++ rest = text) :
    Follows (marking text) text (interpolation text before.length)
      (match Markup.readInterpolation rest with
        | some x => .ok x
        | none => .error ⟨0, "unterminated interpolation"⟩) := by
  rw [interpolation, seek_at htext, done_bind]
  obtain ⟨hrest, hread⟩ | ⟨after, hrest, hread⟩ := readInterpolation_eq rest
  · rw [hread, ← hrest, htext, if_pos (Nat.le_refl _)]
    exact refused_at _ (List.append_nil text)
  · rw [hread]
    generalize beforeSign "\x7d\x7d".toList rest = source at hrest
    subst hrest
    have htext' : (before ++ source) ++ '\x7d' :: '\x7d' :: after = text := by
      rw [List.append_assoc, htext]
    rw [if_neg (more_at htext'), List.length_append, slice_at htext, done_bind,
      ← List.length_append]
    exact passed_at _ ['\x7d', '\x7d'] htext'

theorem comment_at (htext : before ++ rest = text) :
    ∃ before', before' ++ Markup.afterComment rest = text ∧
      comment text before.length = done before'.length := by
  rw [comment, seek_at htext, done_bind]
  obtain ⟨hrest, hafter⟩ | hrest := afterComment_eq rest
  · refine ⟨text, by rw [hafter, List.append_nil], ?_⟩
    rw [← hrest, htext, Nat.min_eq_right (Nat.le_add_right _ _)]
    rfl
  · have htext' : before ++ beforeSign "-->".toList rest ++ "-->".toList ++
        Markup.afterComment rest = text := by
      rw [List.append_assoc, List.append_assoc, ← List.append_assoc _ "-->".toList, ← hrest, htext]
    refine ⟨_, htext', ?_⟩
    have hthree : (before ++ beforeSign "-->".toList rest ++ "-->".toList).length =
        (before ++ beforeSign "-->".toList rest).length + 3 := List.length_append
    have hlast := (List.prefix_append (before ++ beforeSign "-->".toList rest ++ "-->".toList)
      (Markup.afterComment rest)).length_le
    rw [htext', hthree] at hlast
    rw [Nat.min_eq_left hlast, hthree]
    rfl

theorem attrText_follows (htext : before ++ rest = text) :
    Follows (marking text) text (attrText text before.length) (Markup.readValue rest) := by
  rw [attrText]
  cases rest with
  | nil =>
    rw [if_pos ((length_le_at htext).2 rfl)]
    exact refused_at _ htext
  | cons c rest =>
    rw [if_neg (more_at htext), item_at htext, done_bind, Markup.readValue]
    by_cases hquote : (c == '"' || c == '\'') = true
    · have htext' := append_singleton_at htext
      have hindex : before.length + 1 = (before ++ [c]).length := by simp
      rw [if_pos hquote, if_pos hquote, hindex, pass_at _ htext', done_bind]
      have htext'' := Lexer.takeWhile_append_text (· != c) htext'
      dsimp only
      cases hafter : rest.dropWhile (· != c) with
      | nil =>
        rw [hafter] at htext''
        rw [if_pos ((length_le_at htext'').2 rfl)]
        exact refused_at _ htext''
      | cons d after =>
        rw [hafter] at htext''
        rw [if_neg (more_at htext''), slice_takeWhile_at _ htext', done_bind]
        exact passed_at _ [d] htext''
    · rw [if_neg hquote, if_neg hquote, cut_at _ htext, done_bind]
      exact .done _ (Lexer.takeWhile_append_text _ htext)

theorem attrValue_follows (htext : before ++ rest = text) :
    Follows (marking text) text (attrValue text before.length) (Markup.attrValue rest) := by
  have htext₁ := Lexer.takeWhile_append_text Text.isBlank htext
  rw [attrValue, pass_at _ htext, done_bind, holdsAt_at _ htext₁, done_bind, Markup.attrValue]
  revert htext₁
  generalize before ++ rest.takeWhile Text.isBlank = before₁
  generalize rest.dropWhile Text.isBlank = rest₁
  intro htext₁
  by_cases hequal : rest₁.head? = some '='
  · obtain ⟨rest₁, rfl⟩ := List.head?_eq_some_iff.1 hequal
    have htext₂ := append_singleton_at htext₁
    have hindex : before₁.length + 1 = (before₁ ++ ['=']).length := by simp
    rw [if_pos (by simp), hindex, pass_at _ htext₂, done_bind]
    exact (attrText_follows (Lexer.takeWhile_append_text _ htext₂)).map some
  · rw [if_neg (by simpa using not_any_of_ne hequal)]
    split
    · simp_all
    · exact .done none htext₁

theorem closing_follows (htext : before ++ rest = text) :
    Follows (marking text) text (closing text before.length) (Markup.readClosing rest) := by
  have htext' := Lexer.takeWhile_append_text Markup.isNameChar htext
  have htext'' := Lexer.takeWhile_append_text Text.isBlank htext'
  rw [closing, cut_at _ htext, done_bind, Markup.readClosing]
  dsimp only
  rw [pass_at _ htext', done_bind, holdsAt_at _ htext'', done_bind]
  revert htext''
  generalize before ++ rest.takeWhile Markup.isNameChar ++
    (rest.dropWhile Markup.isNameChar).takeWhile Text.isBlank = before₁
  generalize (rest.dropWhile Markup.isNameChar).dropWhile Text.isBlank = rest₁
  intro htext₁
  by_cases hend : rest₁.head? = some '>'
  · obtain ⟨rest₁, rfl⟩ := List.head?_eq_some_iff.1 hend
    rw [if_pos (by simp)]
    exact passed_at _ ['>'] htext₁
  · rw [if_neg (by simpa using not_any_of_ne hend)]
    split
    · simp_all
    · exact refused_at _ htext₁

/-! ## Attributes, nodes and elements -/

/-- The attributes that a reader finds, together with how the tag ends. -/
def attrsRead (tag : String) (fuel : Nat) (cs : List Char) :
    Except Markup.Stop ((List (String × Option String) × Markup.TagEnd) × List Char) :=
  (Markup.readAttrs tag fuel cs).map fun x => ((x.1, x.2.1), x.2.2)

theorem attrsRead_round (tag : String) (fuel : Nat) (cs : List Char) :
    attrsRead tag (fuel + 1) cs = (do
      match ← Markup.attrRound tag cs with
      | .ends ending rest => .ok (([], ending), rest)
      | .goesOn attr rest => do
        let ((others, ending), rest) ← attrsRead tag fuel rest
        return ((attr :: others, ending), rest)) := by
  rw [attrsRead, Markup.readAttrs_round]
  rcases Markup.attrRound tag cs with _ | _ | ⟨attr, rest⟩
  · rfl
  · rfl
  · change (Markup.AttrRound.go _ (.goesOn attr rest)).map _ = attrsRead tag fuel rest >>= _
    rw [Markup.AttrRound.go, attrsRead]
    cases Markup.readAttrs tag fuel rest <;> rfl

theorem attrsRead_bind {α : Type} (tag : String) (fuel : Nat) (cs : List Char)
    (next : List (String × Option String) × Markup.TagEnd × List Char → Except Markup.Stop α) :
    (Markup.readAttrs tag fuel cs >>= next) =
      attrsRead tag fuel cs >>= fun x => next (x.1.1, x.1.2, x.2) := by
  rw [attrsRead]
  cases Markup.readAttrs tag fuel cs <;> rfl

theorem attrsRead_shorter {tag : String} {fuel : Nat} {cs rest : List Char}
    {x : List (String × Option String) × Markup.TagEnd}
    (h : attrsRead tag fuel cs = .ok (x, rest)) : rest.length < cs.length := by
  rw [attrsRead] at h
  cases hread : Markup.readAttrs tag fuel cs with
  | error e =>
    rw [hread] at h
    cases h
  | ok y =>
    rw [hread] at h
    cases h
    exact Markup.readAttrs_shorter hread

theorem attrs_follows (tag : String) {fuel fuel' : Nat} (htext : before ++ rest = text)
    (hfuel : rest.length < fuel) (hfuel' : rest.length < fuel') :
    Follows (marking text) text (attrs text tag fuel before.length) (attrsRead tag fuel' rest) := by
  induction fuel generalizing fuel' before rest with
  | zero => exact absurd hfuel (Nat.not_lt_zero _)
  | succ fuel ih =>
    obtain ⟨fuel', rfl⟩ := Nat.exists_eq_succ_of_ne_zero (Nat.ne_zero_of_lt hfuel')
    have htext₁ := Lexer.takeWhile_append_text Text.isBlank htext
    have hle₁ := Markup.length_dropWhile_le Text.isBlank rest
    rw [attrs, pass_at _ htext, done_bind, attrsRead_round]
    generalize before ++ rest.takeWhile Text.isBlank = before₁ at htext₁
    fun_cases Markup.attrRound tag rest with
    | case1 hcs =>
      rw [hcs] at htext₁
      rw [if_pos ((length_le_at htext₁).2 rfl)]
      exact refused_at _ htext₁
    | case2 more hcs =>
      rw [hcs] at htext₁
      rw [if_neg (more_at htext₁), if_stands "/>".toList more htext₁]
      exact passed_at _ ['/', '>'] htext₁
    | case3 more hcs =>
      rw [hcs] at htext₁
      rw [if_neg (more_at htext₁), stands_false htext₁ (by rintro _ ⟨⟩), item_at htext₁]
      exact passed_at _ ['>'] htext₁
    | case4 c more hself hopen hcs name hname =>
      rw [hcs] at htext₁
      have hnil : (c :: more).takeWhile Markup.isNameChar = [] := List.isEmpty_iff.1 hname
      rw [if_neg (more_at htext₁), if_not_stands htext₁ (by rintro _ ⟨⟩; exact hself _ rfl rfl),
        item_at htext₁, done_bind, if_neg (by simpa using hopen), cut_at _ htext₁, done_bind, hnil,
        List.append_nil]
      dsimp only
      rw [List.isEmpty_nil, if_pos rfl, item_at htext₁, done_bind]
      exact refused_at _ htext₁
    | case5 c more hself hopen hcs name hname =>
      rw [hcs] at htext₁
      have htext₂ := Lexer.takeWhile_append_text Markup.isNameChar htext₁
      have hshort : ((c :: more).dropWhile Markup.isNameChar).length < (c :: more).length := by
        have hpos : 0 < ((c :: more).takeWhile Markup.isNameChar).length :=
          List.length_pos_iff.2 (mt List.isEmpty_iff.2 hname)
        have hsum : ((c :: more).takeWhile Markup.isNameChar ++
            (c :: more).dropWhile Markup.isNameChar).length = (c :: more).length :=
          congrArg List.length List.takeWhile_append_dropWhile
        rw [List.length_append] at hsum
        omega
      rw [if_neg (more_at htext₁), if_not_stands htext₁ (by rintro _ ⟨⟩; exact hself _ rfl rfl),
        item_at htext₁, done_bind, if_neg (by simpa using hopen), cut_at _ htext₁, done_bind]
      dsimp only
      rw [if_neg hname, bind_assoc]
      refine (attrValue_follows htext₂).bind fun v before₃ rest₃ h₃ hread => ?_
      have hle₃ : rest₃.length ≤ _ := Markup.attrValue_length hread
      rw [hcs] at hle₁
      have hrest : Follows (marking text) text (attrs text tag fuel before₃.length)
          (attrsRead tag fuel' rest₃) := ih h₃ (by omega) (by omega)
      exact hrest.map fun x => ((String.ofList name, v) :: x.1, x.2)

/-- The scanner and the reader find the same nodes with this much fuel. -/
def NodesFollow (text : List Char) (fuel : Nat) : Prop :=
  ∀ {outer : Option String} {read before rest : List Char}, before ++ rest = text →
    2 * rest.length + 1 ≤ fuel → Follows (marking text) text
      (nodes text outer fuel read before.length) (Markup.children outer fuel read rest)

/-- The scanner and the reader find the same element with this much fuel. -/
def ElementFollows (text : List Char) (fuel : Nat) : Prop :=
  ∀ {before rest : List Char}, before ++ rest = text → 2 * rest.length + 2 ≤ fuel →
    Follows (marking text) text (element text fuel before.length) (Markup.element fuel rest)

section Rounds

/-! One lemma for each form that the text of a round can have. The fuel of a round is one more than that
of what it goes on with. -/

variable {outer : Option String} {fuel : Nat} {read more : List Char}

theorem nodes_missing {tag : String} (htext : before ++ [] = text) :
    Follows (marking text) text (nodes text (some tag) (fuel + 1) read before.length)
      (.error ⟨0, s!"missing </{tag}>"⟩) := by
  rw [nodes.eq_def]
  dsimp only
  rw [if_pos ((length_le_at htext).2 rfl)]
  exact refused_at _ htext

theorem nodes_end (htext : before ++ [] = text) :
    Follows (marking text) text (nodes text none (fuel + 1) read before.length)
      (.ok (Markup.textNodes read, [])) := by
  rw [nodes.eq_def]
  dsimp only
  rw [if_pos ((length_le_at htext).2 rfl)]
  exact .done _ htext

/-- At two opening braces the scanner reads an expression. -/
theorem nodes_braces (htext : before ++ '\x7b' :: '\x7b' :: more = text) :
    nodes text outer (fuel + 1) read before.length = (do
      let x ← interpolation text (before ++ ['\x7b', '\x7b']).length
      let y ← nodes text outer fuel [] x.2
      let node := MarkupNode.interpolation (String.ofList (Text.trimChars x.1))
      return (Markup.textNodes read ++ node :: y.1, y.2)) := by
  rw [nodes.eq_def]
  dsimp only
  rw [if_neg (more_at htext), if_stands "\x7b\x7b".toList more htext, List.length_append]
  rfl

theorem nodes_unterminated (htext : before ++ '\x7b' :: '\x7b' :: more = text)
    (hread : Markup.readInterpolation more = none) :
    Follows (marking text) text (nodes text outer (fuel + 1) read before.length)
      (.error ⟨0, "unterminated interpolation"⟩) := by
  have htext' : before ++ ['\x7b', '\x7b'] ++ more = text := by simpa using htext
  have hinterpolation := interpolation_follows htext'
  rw [hread] at hinterpolation
  rw [nodes_braces htext, hinterpolation.of_error]
  exact .refused (Markup.Stop.mk 0 _)

theorem nodes_interpolation {source left : List Char} (hnodes : NodesFollow text fuel)
    (htext : before ++ '\x7b' :: '\x7b' :: more = text)
    (hfuel : 2 * ('\x7b' :: '\x7b' :: more).length + 1 ≤ fuel + 1)
    (hread : Markup.readInterpolation more = some (source, left)) :
    Follows (marking text) text (nodes text outer (fuel + 1) read before.length)
      (Markup.behind
        (Markup.textNodes read ++ [.interpolation (String.ofList (Text.trimChars source))])
        (Markup.children outer fuel [] left)) := by
  have htext' : before ++ ['\x7b', '\x7b'] ++ more = text := by simpa using htext
  have hinterpolation := interpolation_follows htext'
  rw [hread] at hinterpolation
  obtain ⟨before', left', hleft, rfl, hscan⟩ := hinterpolation.of_ok
  have hlt : left'.length < more.length := Markup.readInterpolation_shorter hread
  have hfuel' : 2 * left'.length + 1 ≤ fuel := by
    simp only [List.length_cons] at hfuel
    omega
  rw [nodes_braces htext, hscan, done_bind]
  exact ((hnodes hleft hfuel').map (Markup.textNodes read ++
    MarkupNode.interpolation _ :: ·)).congr (Markup.node_behind _ _)

theorem nodes_comment (hnodes : NodesFollow text fuel)
    (htext : before ++ '<' :: '!' :: '-' :: '-' :: more = text)
    (hfuel : 2 * ('<' :: '!' :: '-' :: '-' :: more).length + 1 ≤ fuel + 1) :
    Follows (marking text) text (nodes text outer (fuel + 1) read before.length)
      (Markup.children outer fuel read (Markup.afterComment ('<' :: '!' :: '-' :: '-' :: more))) := by
  obtain ⟨before', hafter, hscan⟩ := comment_at htext
  have hlt : (Markup.afterComment ('<' :: '!' :: '-' :: '-' :: more)).length <
      ('<' :: '!' :: '-' :: '-' :: more).length := by
    rw [Markup.afterComment, show Text.afterHeadChars "-->".toList ('<' :: _) = none from rfl]
    exact Nat.lt_succ_of_le (Markup.length_afterComment _)
  rw [nodes.eq_def]
  dsimp only
  rw [if_neg (more_at htext), if_not_stands htext (by rintro _ ⟨⟩),
    if_stands "<!--".toList more htext, hscan, done_bind]
  exact hnodes hafter (by omega)

theorem nodes_closing (htext : before ++ '<' :: '/' :: more = text) :
    Follows (marking text) text (nodes text outer (fuel + 1) read before.length)
      (Markup.children outer (fuel + 1) read ('<' :: '/' :: more)) := by
  have htext' : before ++ ['<', '/'] ++ more = text := by simpa using htext
  have hclosing := closing_follows htext'
  rw [List.length_append] at hclosing
  rw [nodes.eq_def, Markup.children.eq_def]
  dsimp only
  rw [if_neg (more_at htext), if_not_stands htext (by rintro _ ⟨⟩),
    if_not_stands htext (by rintro _ ⟨⟩), if_stands "</".toList more htext]
  refine hclosing.bind fun name before' rest' htext₁ _ => ?_
  cases outer with
  | none => exact refused_at _ htext₁
  | some tag =>
    dsimp only
    by_cases htag : (tag == name) = true
    · rw [if_pos htag, if_pos htag]
      exact .done _ htext₁
    · rw [if_neg htag, if_neg htag]
      exact refused_at _ htext₁

theorem nodes_element {c : Char} (hnodes : NodesFollow text fuel)
    (helement : ElementFollows text fuel) (htext : before ++ '<' :: c :: more = text)
    (hfuel : 2 * ('<' :: c :: more).length + 1 ≤ fuel + 1)
    (hcomment : ∀ tail, c :: more = '!' :: '-' :: '-' :: tail → False) (hclosing : c ≠ '/')
    (hletter : Text.isLetter c = true) :
    Follows (marking text) text (nodes text outer (fuel + 1) read before.length) (do
      let x ← Markup.element fuel (c :: more)
      Markup.behind (Markup.textNodes read ++ [x.1]) (Markup.children outer fuel [] x.2)) := by
  have hindex : before.length + 1 = (before ++ ['<']).length := by simp
  rw [nodes.eq_def]
  dsimp only
  rw [if_neg (more_at htext), if_not_stands htext (by rintro _ ⟨⟩),
    if_not_stands htext (by rintro _ ⟨⟩; exact hcomment _ rfl),
    if_not_stands htext (by rintro _ ⟨⟩; exact hclosing rfl),
    item_at htext, done_bind, getElem?_at htext, if_pos (by simpa using hletter), hindex]
  refine (helement (append_singleton_at htext) ?_).bind fun node before' rest' htext₁ hread => ?_
  · simp only [List.length_cons] at hfuel ⊢
    omega
  · have hlt : rest'.length < (c :: more).length := (Markup.shortens fuel).element hread
    have hfuel' : 2 * rest'.length + 1 ≤ fuel := by
      simp only [List.length_cons] at hfuel hlt
      omega
    exact ((hnodes htext₁ hfuel').map
      (Markup.textNodes read ++ node :: ·)).congr (Markup.node_behind node _)

/-- A character that starts nothing belongs to the current text. -/
theorem nodes_char {c : Char} (hnodes : NodesFollow text fuel) (htext : before ++ c :: more = text)
    (hfuel : 2 * (c :: more).length + 1 ≤ fuel + 1)
    (hbraces : ∀ tail, c :: more = "\x7b\x7b".toList ++ tail → False)
    (hcomment : ∀ tail, c :: more = "<!--".toList ++ tail → False)
    (hclosing : ∀ tail, c :: more = "</".toList ++ tail → False)
    (hplain : c = '<' → more.head?.any Text.isLetter = false) :
    Follows (marking text) text (nodes text outer (fuel + 1) read before.length)
      (Markup.children outer fuel (c :: read) more) := by
  have hindex : before.length + 1 = (before ++ [c]).length := by simp
  have hnone : ¬(c == '<' && text[before.length + 1]?.any Text.isLetter) = true := by
    rw [getElem?_at htext, Bool.and_eq_true, beq_iff_eq]
    rintro ⟨hc, hletter⟩
    rw [List.getElem?_cons_succ, ← List.head?_eq_getElem?, hplain hc] at hletter
    cases hletter
  rw [nodes.eq_def]
  dsimp only
  rw [if_neg (more_at htext), if_not_stands htext hbraces, if_not_stands htext hcomment,
    if_not_stands htext hclosing, item_at htext, done_bind, if_neg hnone, done_bind, hindex]
  refine hnodes (append_singleton_at htext) ?_
  simp only [List.length_cons] at hfuel
  omega

theorem element_follows (hnodes : NodesFollow text fuel) (htext : before ++ rest = text)
    (hfuel : 2 * rest.length + 2 ≤ fuel + 1) :
    Follows (marking text) text (element text (fuel + 1) before.length)
      (Markup.element (fuel + 1) rest) := by
  rw [element.eq_def, Markup.element]
  dsimp only
  rw [cut_at _ htext, done_bind, attrsRead_bind]
  have htext' := Lexer.takeWhile_append_text Markup.isNameChar htext
  have hle := Markup.length_dropWhile_le Markup.isNameChar rest
  refine (attrs_follows _ htext' (length_rest_lt htext') (by omega)).bind
    fun x before' rest' htext₁ hread => ?_
  have hlt : rest'.length < _ := attrsRead_shorter hread
  obtain ⟨attributes, ending⟩ := x
  cases ending with
  | selfClosed => exact .done _ htext₁
  | opened =>
    dsimp only
    split
    · exact .done _ htext₁
    · exact (hnodes htext₁ (by omega)).map fun inner => MarkupNode.element _ attributes none inner

end Rounds

/-- With enough fuel the scanner and the reader find the same nodes. -/
theorem nodes_follow (fuel : Nat) : NodesFollow text fuel ∧ ElementFollows text fuel := by
  induction fuel with
  | zero =>
    exact ⟨fun _ h => absurd h (Nat.not_succ_le_zero _),
      fun _ h => absurd h (Nat.not_succ_le_zero _)⟩
  | succ fuel ih =>
    obtain ⟨hnodes, helement⟩ := ih
    refine ⟨fun {outer read before rest} htext hfuel => ?_, element_follows hnodes⟩
    rw [Markup.children_round]
    fun_cases Markup.childRound outer fuel read rest with
    | case1 tag => exact nodes_missing htext
    | case2 => exact nodes_end htext
    | case3 _ more hread => exact nodes_unterminated htext hread
    | case4 _ more source left hread => exact nodes_interpolation hnodes htext hfuel hread
    | case5 _ more => exact (nodes_comment hnodes htext hfuel).congr (Markup.behind_nil _).symm
    | case6 _ more =>
      have hround := Markup.children_round outer fuel read ('<' :: '/' :: more)
      exact hround ▸ nodes_closing htext
    | case7 _ c more hcomment hclosing hletter =>
      have hround : Follows _ text (nodes text outer (fuel + 1) read before.length) _ :=
        nodes_element hnodes helement htext hfuel (fun tail h => by cases h; exact hcomment _ rfl rfl)
          (fun h => hclosing h) hletter
      refine hround.congr ?_
      cases Markup.element fuel (c :: more) <;> rfl
    | case8 _ c more hcomment hclosing hletter =>
      have hround : Follows _ text (nodes text outer (fuel + 1) read before.length) _ :=
        nodes_char hnodes htext hfuel (by rintro _ ⟨⟩) (by rintro _ ⟨⟩; exact hcomment _ rfl rfl)
          (by rintro _ ⟨⟩; exact hclosing rfl) fun _ => eq_false_of_ne_true hletter
      exact hround.congr (Markup.behind_nil _).symm
    | case9 _ c more hbraces _ _ hnext =>
      have hlast : c = '<' → more = [] := fun h => by
        cases more with
        | nil => rfl
        | cons d more => exact (hnext d more h rfl).elim
      have hround : Follows _ text (nodes text outer (fuel + 1) read before.length) _ :=
        nodes_char hnodes htext hfuel (by rintro _ ⟨⟩; exact hbraces _ rfl rfl)
          (by rintro _ ⟨⟩; exact hnext _ _ rfl rfl) (by rintro _ ⟨⟩; exact hnext _ _ rfl rfl)
          fun h => by rw [hlast h]; rfl
      exact hround.congr (Markup.behind_nil _).symm

end

/-- The markup parser faults on no text, and finds the nodes of `Markup.parse`. -/
theorem markup_eq (text : String) : markup text = ofExcept (Markup.parse text) := by
  have hnodes : Follows (marking text.toList) text.toList
      (nodes text.toList none (2 * text.toList.length + 2) [] 0)
      (Markup.children none (2 * text.toList.length + 2) [] text.toList) :=
    (nodes_follow _).1 (List.nil_append text.toList) (Nat.le_succ _)
  have hresult : (nodes text.toList none (2 * text.toList.length + 2) [] 0 >>= fun x => pure x.1) =
      (marking text.toList).result
        (Markup.children none (2 * text.toList.length + 2) [] text.toList >>= fun x => pure x.1) :=
    hnodes.bind_result fun _ _ _ _ _ => rfl
  refine hresult.trans ?_
  rw [Markup.parse]
  cases Markup.children none (2 * text.toList.length + 2) [] text.toList <;> rfl

/-- A refusal names a place in the text. -/
theorem offset_le (text : String) {e : Markup.Error} (h : Markup.parse text = .error e) :
    e.offset ≤ text.toList.length := by
  unfold Markup.parse at h
  dsimp only at h
  split at h
  · cases h
  · cases h
    exact Nat.sub_le _ _

end Scaffold.Indexed
