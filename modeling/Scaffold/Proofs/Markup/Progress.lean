import Scaffold.Proofs.Markup.Reading
import Scaffold.Proofs.Text.Lines

/-!
# The markup parser comes to an end

Children and attributes are read in rounds. A round that does not end its loop leaves fewer
characters than it found, so the rounds come to an end by themselves, and fuel beyond the length of
the text makes no difference.

* `childRound`, `attrRound`: one round of each loop; `children_round`, `readAttrs_round` say that the
  loops are made of them.
* `childRound_shorter`, `attrRound_shorter`: a round that is not the last one reads a character.
* `children_fuel`: the fuel of the parser makes no difference.
-/

namespace Scaffold.Markup

open Text (isBlank)

variable {cs rest text : List Char} {tag : String} {closing : Option String} {fuel fuel' : Nat}

/-! ## What is left -/

theorem length_dropWhile_le (p : Char → Bool) (cs : List Char) :
    (cs.dropWhile p).length ≤ cs.length :=
  (List.dropWhile_suffix p).length_le

theorem readInterpolation_shorter {source : List Char}
    (h : readInterpolation cs = some (source, rest)) : rest.length < cs.length := by
  fun_induction readInterpolation cs generalizing source with
  | case1 => cases h
  | case2 =>
    cases h
    simp only [List.length_cons]
    omega
  | case3 c cs _ ih =>
    obtain ⟨⟨inner, left⟩, hinner, heq⟩ := Option.map_eq_some_iff.1 h
    cases heq
    exact Nat.lt_succ_of_lt (ih hinner)

theorem length_afterComment (cs : List Char) : (afterComment cs).length ≤ cs.length := by
  induction cs with
  | nil => exact Nat.le_refl _
  | cons c cs ih =>
    rw [afterComment]
    cases hend : Text.afterHeadChars "-->".toList (c :: cs) with
    | none => exact Nat.le_succ_of_le ih
    | some left =>
      rw [Text.afterHeadChars_eq_some.1 hend, List.length_append]
      exact Nat.le_add_left _ _

theorem readValue_length {value : String} (h : readValue cs = .ok (value, rest)) :
    rest.length ≤ cs.length := by
  unfold readValue at h
  split at h
  · cases h
  · rename_i c more
    split at h
    · have hlen := length_dropWhile_le (· != c) more
      dsimp only at h
      split at h
      · cases h
      · rename_i quote after hafter
        cases h
        rw [hafter] at hlen
        simp only [List.length_cons] at hlen ⊢
        omega
    · cases h
      exact length_dropWhile_le _ _

theorem readClosing_shorter {name : String} (h : readClosing cs = .ok (name, rest)) :
    rest.length < cs.length := by
  have hname := length_dropWhile_le isNameChar cs
  have hlen := length_dropWhile_le isBlank (cs.dropWhile isNameChar)
  unfold readClosing at h
  dsimp only at h
  split at h
  · rename_i after hafter
    cases h
    rw [hafter, List.length_cons] at hlen
    omega
  · cases h

/-! ## Attributes -/

/-- What a round of reading attributes comes to: the tag ends, or there is an attribute and reading
goes on with the rest. -/
inductive AttrRound where
  | ends (ending : TagEnd) (rest : List Char)
  | goesOn (attr : String × Option String) (rest : List Char)

/-- What is left after a round. -/
def AttrRound.left : AttrRound → List Char
  | .ends _ left => left
  | .goesOn _ left => left

/-- Reading goes on behind a round, unless it was the last one. -/
def AttrRound.go (again : List Char → Except Stop (List (String × Option String) × TagEnd × List Char)) :
    AttrRound → Except Stop (List (String × Option String) × TagEnd × List Char)
  | .ends ending rest => .ok ([], ending, rest)
  | .goesOn attr rest => do
    let (attrs, ending, rest) ← again rest
    return (attr :: attrs, ending, rest)

/-- The value of an attribute whose name was read, if it has one. -/
def attrValue (cs : List Char) : Except Stop (Option String × List Char) :=
  match cs.dropWhile isBlank with
  | '=' :: more => do
    let (value, after) ← readValue (more.dropWhile isBlank)
    pure (some value, after)
  | more => pure (none, more)

/-- A round of reading attributes. -/
def attrRound (tag : String) (cs : List Char) : Except Stop AttrRound :=
  match cs.dropWhile isBlank with
  | [] => .error ⟨0, s!"unterminated <{tag}>"⟩
  | '/' :: '>' :: rest => .ok (.ends .selfClosed rest)
  | '>' :: rest => .ok (.ends .opened rest)
  | c :: rest =>
    let name := (c :: rest).takeWhile isNameChar
    if name.isEmpty then .error ⟨(c :: rest).length, s!"unexpected '{c}' in <{tag}>"⟩
    else do
      let (value, after) ← attrValue ((c :: rest).dropWhile isNameChar)
      return .goesOn (String.ofList name, value) after

/-- Reading attributes is a round, and more rounds if it was not the last one. -/
theorem readAttrs_round (tag : String) (fuel : Nat) (cs : List Char) :
    readAttrs tag (fuel + 1) cs = (do (← attrRound tag cs).go (readAttrs tag fuel)) := by
  fun_cases attrRound tag cs with
  | case1 hcs => simp only [readAttrs, hcs]; rfl
  | case2 rest hcs => simp only [readAttrs, hcs]; rfl
  | case3 rest hcs => simp only [readAttrs, hcs]; rfl
  | case4 c rest hself hopen hcs name hname =>
    rw [readAttrs, hcs]
    split
    · contradiction
    · rename_i h
      cases h
      exact (hself _ rfl rfl).elim
    · rename_i h
      cases h
      exact (hopen rfl).elim
    · rename_i h
      cases h
      rw [if_pos hname]
      rfl
  | case5 c rest hself hopen hcs name hname =>
    rw [readAttrs, hcs]
    split
    · contradiction
    · rename_i h
      cases h
      exact (hself _ rfl rfl).elim
    · rename_i h
      cases h
      exact (hopen rfl).elim
    · rename_i h
      cases h
      rw [if_neg hname]
      fun_cases attrValue ((c :: rest).dropWhile isNameChar) with
      | case1 more hmore =>
        simp only [hmore]
        cases readValue (more.dropWhile isBlank) <;> rfl
      | case2 hmore =>
        split
        · exact (hmore _ ‹_›).elim
        · rfl

theorem attrValue_length {value : Option String} (h : attrValue cs = .ok (value, rest)) :
    rest.length ≤ cs.length := by
  have hlen := length_dropWhile_le isBlank cs
  unfold attrValue at h
  split at h
  · rename_i more hmore
    obtain ⟨⟨value, after⟩, hvalue, h⟩ := Lexer.bind_ok h
    cases h
    have hafter := readValue_length hvalue
    have hmore' := length_dropWhile_le isBlank more
    rw [hmore, List.length_cons] at hlen
    omega
  · cases h
    exact hlen

/-- Every round of reading attributes leaves fewer characters. -/
theorem attrRound_shorter {r : AttrRound} (h : attrRound tag cs = .ok r) :
    r.left.length < cs.length := by
  have hlen := length_dropWhile_le isBlank cs
  unfold attrRound at h
  split at h
  · cases h
  · rename_i after hafter
    cases h
    rw [hafter] at hlen
    simp only [List.length_cons, AttrRound.left] at hlen ⊢
    omega
  · rename_i after hafter
    cases h
    rw [hafter, List.length_cons] at hlen
    exact hlen
  · rename_i c more _ _ hmore
    dsimp only at h
    split at h
    · cases h
    · rename_i hname
      obtain ⟨⟨value, after⟩, hvalue, h⟩ := Lexer.bind_ok h
      cases h
      have hafter := attrValue_length hvalue
      have hpos : 0 < ((c :: more).takeWhile isNameChar).length :=
        List.length_pos_iff.2 fun hnil => hname (List.isEmpty_iff.2 hnil)
      have hsplit := congrArg List.length
        (List.takeWhile_append_dropWhile (p := isNameChar) (l := c :: more))
      rw [List.length_append] at hsplit
      rw [hmore] at hlen
      show after.length < cs.length
      omega

theorem readAttrs_shorter {attrs : List (String × Option String)} {ending : TagEnd}
    (h : readAttrs tag fuel cs = .ok (attrs, ending, rest)) : rest.length < cs.length := by
  induction fuel generalizing cs attrs with
  | zero => cases h
  | succ fuel ih =>
    rw [readAttrs_round] at h
    obtain ⟨r, hround, h⟩ := Lexer.bind_ok h
    have hlt := attrRound_shorter hround
    cases r with
    | ends ending rest =>
      cases h
      exact hlt
    | goesOn attr more =>
      obtain ⟨⟨attrs, ending, left⟩, hmore, h⟩ := Lexer.bind_ok h
      cases h
      exact Nat.lt_trans (ih hmore) hlt

/-- Fuel for more characters than there are makes no difference. -/
theorem readAttrs_fuel (tag : String) (h : cs.length < fuel) (h' : cs.length < fuel') :
    readAttrs tag fuel cs = readAttrs tag fuel' cs := by
  induction fuel generalizing fuel' cs with
  | zero => exact absurd h (Nat.not_lt_zero _)
  | succ fuel ih =>
    obtain ⟨fuel', rfl⟩ := Nat.exists_eq_add_one.2 (Nat.zero_lt_of_lt h')
    rw [readAttrs_round, readAttrs_round]
    cases hround : attrRound tag cs with
    | error e => rfl
    | ok r =>
      have hlt := attrRound_shorter hround
      cases r with
      | ends ending rest => rfl
      | goesOn attr more =>
        have hsame : readAttrs tag fuel more = readAttrs tag fuel' more :=
          ih (Nat.lt_of_lt_of_le hlt (Nat.le_of_lt_succ h))
            (Nat.lt_of_lt_of_le hlt (Nat.le_of_lt_succ h'))
        dsimp only [bind, Except.bind, AttrRound.go]
        rw [hsame]

/-! ## Children -/

/-- What a round of reading children comes to: the list ends, or there are more nodes, a text is
pending, and reading goes on with the rest. -/
inductive ChildRound where
  | ends (nodes : List MarkupNode) (rest : List Char)
  | goesOn (nodes : List MarkupNode) (text rest : List Char)

/-- Reading goes on behind a round, unless it was the last one. -/
def ChildRound.go (again : List Char → List Char → Except Stop (List MarkupNode × List Char)) :
    ChildRound → Except Stop (List MarkupNode × List Char)
  | .ends nodes rest => .ok (nodes, rest)
  | .goesOn nodes text rest => behind nodes (again text rest)

/-- A round of reading children behind the pending text `text`. -/
def childRound (closing : Option String) (fuel : Nat) (text cs : List Char) :
    Except Stop ChildRound :=
  match cs with
  | [] =>
    match closing with
    | some tag => .error ⟨0, s!"missing </{tag}>"⟩
    | none => .ok (.ends (textNodes text) [])
  | '\x7b' :: '\x7b' :: rest =>
    match readInterpolation rest with
    | none => .error ⟨0, "unterminated interpolation"⟩
    | some (source, rest) =>
      let node := MarkupNode.interpolation (String.ofList (Text.trimChars source))
      .ok (.goesOn (textNodes text ++ [node]) [] rest)
  | '<' :: '!' :: '-' :: '-' :: _ => .ok (.goesOn [] text (afterComment cs))
  | '<' :: '/' :: rest => do
    let (name, rest) ← readClosing rest
    match closing with
    | some tag =>
      if tag == name then return .ends (textNodes text) rest
      else .error ⟨rest.length, s!"expected </{tag}>, found </{name}>"⟩
    | none => .error ⟨rest.length, s!"unexpected </{name}>"⟩
  | '<' :: c :: rest =>
    if Text.isLetter c then do
      let (node, rest) ← element fuel (c :: rest)
      return .goesOn (textNodes text ++ [node]) [] rest
    else .ok (.goesOn [] ('<' :: text) (c :: rest))
  | c :: rest => .ok (.goesOn [] (c :: text) rest)

/-- What follows a node is put behind it. -/
theorem node_behind (node : MarkupNode) (read : Except Stop (List MarkupNode × List Char)) :
    (do
      let (nodes, rest) ← read
      return (textNodes text ++ node :: nodes, rest)) = behind (textNodes text ++ [node]) read := by
  cases read with
  | error e => rfl
  | ok r => simp [behind, Except.map, bind, Except.bind, pure, Except.pure]

/-- Reading children is a round, and more rounds if it was not the last one. -/
theorem children_round (closing : Option String) (fuel : Nat) (text cs : List Char) :
    children closing (fuel + 1) text cs = (do
      (← childRound closing fuel text cs).go (children closing fuel)) := by
  fun_cases childRound closing fuel text cs with
  | case1 | case2 =>
    rw [children.eq_def]
    rfl
  | case3 _ rest hread =>
    rw [children.eq_def]
    simp only [hread]
    rfl
  | case4 _ rest source left hread node =>
    rw [children.eq_def]
    simp only [hread]
    exact node_behind node _
  | case5 =>
    rw [children.eq_def]
    exact (behind_nil _).symm
  | case6 _ rest =>
    rw [children.eq_def]
    simp only
    cases readClosing rest with
    | error e => rfl
    | ok r =>
      cases closing with
      | none => rfl
      | some tag => by_cases htag : tag == r.1 <;> simp [bind, Except.bind, htag, pure, Except.pure, ChildRound.go]
  | case7 _ c rest _ _ hc =>
    rw [children.eq_def]
    simp only [*, if_true]
    cases element fuel (c :: rest) with
    | error e => rfl
    | ok r => exact node_behind _ _
  | case8 _ c rest _ _ hc =>
    rw [children.eq_def]
    simp only [*]
    exact (behind_nil _).symm
  | case9 _ c rest =>
    rw [children.eq_def]
    simp only [*]
    exact (behind_nil _).symm

/-- A round leaves no more characters than there were, and fewer if it is not the last one. -/
def ChildRound.Within (n : Nat) : ChildRound → Prop
  | .ends _ left => left.length ≤ n
  | .goesOn _ _ left => left.length < n

theorem childRound_within (helement : ∀ {cs node rest}, element fuel cs = .ok (node, rest) →
    rest.length < cs.length) {r : ChildRound} (h : childRound closing fuel text cs = .ok r) :
    r.Within cs.length := by
  unfold childRound at h
  split at h
  · split at h
    · cases h
    · cases h
      exact Nat.le_refl _
  · split at h
    · cases h
    · rename_i source left hread
      cases h
      exact Nat.lt_succ_of_lt (Nat.lt_succ_of_lt (readInterpolation_shorter hread))
  · cases h
    show (afterComment ('<' :: '!' :: _)).length < _
    rw [afterComment, show Text.afterHeadChars "-->".toList ('<' :: _) = none from rfl]
    exact Nat.lt_succ_of_le (length_afterComment _)
  · obtain ⟨⟨name, left⟩, hread, h⟩ := Lexer.bind_ok h
    have hlt := readClosing_shorter hread
    dsimp only at h
    split at h
    · split at h
      · cases h
        exact Nat.le_succ_of_le (Nat.le_succ_of_le (Nat.le_of_lt hlt))
      · cases h
    · cases h
  · split at h
    · obtain ⟨⟨node, left⟩, hread, h⟩ := Lexer.bind_ok h
      cases h
      exact Nat.lt_succ_of_lt (helement hread)
    · cases h
      exact Nat.lt_succ_self _
  · cases h
    exact Nat.lt_succ_self _

/-- What is left after children or an element. -/
structure Shortens (fuel : Nat) : Prop where
  children : ∀ {closing text cs nodes rest}, children closing fuel text cs = .ok (nodes, rest) →
    rest.length ≤ cs.length
  element : ∀ {cs node rest}, element fuel cs = .ok (node, rest) → rest.length < cs.length

theorem shortens (fuel : Nat) : Shortens fuel := by
  induction fuel with
  | zero =>
    refine ⟨fun h => ?_, fun h => ?_⟩
    · rw [Markup.children.eq_def] at h
      cases h
    · rw [Markup.element.eq_def] at h
      cases h
  | succ fuel ih =>
    refine ⟨fun {closing text cs nodes rest} h => ?_, fun {cs node rest} h => ?_⟩
    · rw [children_round] at h
      obtain ⟨r, hround, h⟩ := Lexer.bind_ok h
      have hlen := childRound_within ih.element hround
      cases r with
      | ends nodes left =>
        cases h
        exact hlen
      | goesOn nodes text left =>
        obtain ⟨more, hmore, -⟩ := behind_eq_ok.1 h
        exact Nat.le_trans (ih.children hmore) (Nat.le_of_lt hlen)
    · rw [Markup.element] at h
      obtain ⟨⟨attrs, ending, left⟩, hattrs, h⟩ := Lexer.bind_ok h
      have hlt := Nat.lt_of_lt_of_le (readAttrs_shorter hattrs) (length_dropWhile_le isNameChar cs)
      dsimp only at h
      split at h
      · cases h
        exact hlt
      · split at h
        · cases h
          exact hlt
        · obtain ⟨⟨nodes, left'⟩, hnodes, h⟩ := Lexer.bind_ok h
          cases h
          exact Nat.lt_of_le_of_lt (ih.children hnodes) hlt

/-- Every round of reading children but the last one reads a character. -/
theorem childRound_shorter {nodes : List MarkupNode} {text' : List Char}
    (h : childRound closing fuel text cs = .ok (.goesOn nodes text' rest)) :
    rest.length < cs.length :=
  childRound_within (shortens fuel).element h

/-! ## Fuel -/

/-- A round depends on the fuel through the elements in the rest only. -/
theorem childRound_congr (h : ∀ cs', cs'.length < cs.length → element fuel cs' = element fuel' cs') :
    childRound closing fuel text cs = childRound closing fuel' text cs := by
  fun_cases childRound closing fuel text cs with
  | case1 | case2 | case5 | case6 => rfl
  | case3 _ rest hread | case4 _ rest source left hread node =>
    rw [childRound.eq_def]
    simp only [hread]
    try rfl
  | case7 _ c rest _ _ hc =>
    rw [childRound.eq_def]
    simp only [*, if_true]
    rw [h (c :: rest) (Nat.lt_succ_self _)]
  | case8 | case9 =>
    rw [childRound.eq_def]
    simp only [*]
    try rfl

/-- The fuels `fuel` and `fuel'` come to the same for every text shorter than `n`. -/
structure Sated (n fuel fuel' : Nat) : Prop where
  children : ∀ {closing text cs}, List.length cs < n →
    children closing fuel text cs = children closing fuel' text cs
  element : ∀ {cs}, List.length cs < n → element fuel cs = element fuel' cs

/-- An element takes two units of fuel for one character at most: its own, and that of its
children. -/
theorem sated (n : Nat) {fuel fuel' : Nat} (h : 2 * n ≤ fuel) (h' : 2 * n ≤ fuel') :
    Sated n fuel fuel' := by
  induction n generalizing fuel fuel' with
  | zero => exact ⟨fun hlt => absurd hlt (Nat.not_lt_zero _), fun hlt => absurd hlt (Nat.not_lt_zero _)⟩
  | succ n ih =>
    obtain ⟨fuel, rfl⟩ := Nat.exists_eq_add_one.2 (show 0 < fuel by omega)
    obtain ⟨fuel', rfl⟩ := Nat.exists_eq_add_one.2 (show 0 < fuel' by omega)
    have hless : Sated n fuel fuel' := ih (by omega) (by omega)
    refine ⟨fun {closing text cs} hlen => ?_, fun {cs} hlen => ?_⟩
    · rw [children_round, children_round,
        childRound_congr fun cs' hlt => hless.element (Nat.lt_of_lt_of_le hlt (Nat.le_of_lt_succ hlen))]
      cases hround : childRound closing fuel' text cs with
      | error e => rfl
      | ok r =>
        cases r with
        | ends nodes left => rfl
        | goesOn nodes more left =>
          have hlt := childRound_shorter hround
          show behind nodes _ = behind nodes _
          rw [hless.children (Nat.lt_of_lt_of_le hlt (Nat.le_of_lt_succ hlen))]
    · have hname := length_dropWhile_le isNameChar cs
      have hattrs : readAttrs (String.ofList (cs.takeWhile isNameChar)) fuel
            (cs.dropWhile isNameChar) =
          readAttrs (String.ofList (cs.takeWhile isNameChar)) fuel' (cs.dropWhile isNameChar) :=
        readAttrs_fuel _ (by omega) (by omega)
      rw [Markup.element, Markup.element, hattrs]
      cases hattrs : readAttrs (String.ofList (cs.takeWhile isNameChar)) fuel'
          (cs.dropWhile isNameChar) with
      | error e => rfl
      | ok r =>
        obtain ⟨attrs, ending, left⟩ := r
        have hlt := readAttrs_shorter hattrs
        have hshort : left.length < n := by omega
        have hsame : Markup.children (some (String.ofList (cs.takeWhile isNameChar))) fuel [] left =
            Markup.children (some (String.ofList (cs.takeWhile isNameChar))) fuel' [] left :=
          hless.children hshort
        dsimp only [bind, Except.bind]
        rw [hsame]

/-- The fuel of the parser is enough: more makes no difference. -/
theorem parse_fuel (s : String) (h : 2 * s.toList.length + 2 ≤ fuel) :
    parse s = match children none fuel [] s.toList with
      | .ok (nodes, _) => .ok nodes
      | .error stop => .error ⟨s.toList.length - stop.unread, stop.message⟩ := by
  unfold parse
  dsimp only
  have hsame : children none (2 * s.toList.length + 2) [] s.toList =
      children none fuel [] s.toList :=
    (sated (s.toList.length + 1) (Nat.le_refl _) h).children (Nat.lt_succ_self _)
  generalize children none (2 * s.toList.length + 2) [] s.toList = read at hsame ⊢
  subst hsame
  cases children none fuel [] s.toList <;> rfl

end Scaffold.Markup
