import Scaffold.Proofs.Indexed.Markup
import Scaffold.Proofs.Indexed.Sql
import Scaffold.Proofs.Naming
import Scaffold.Proofs.Parser.Totality
import Scaffold.Proofs.Url

/-!
# The front end stays in range

The scanners that read a source by index never leave it: the lexer, the parser on its tokens, the
parser of markup, the scans of SQL, and the readers of path templates and names. None of them
faults, and each gives what its reader gives.

* `dropBytes`, `takeBytes`, `findByte`: places in a text counted in bytes, where a place inside of a
  character is a fault.
* `Lexed`: what the lexer gives. An access of the parser is clamped to the last token, and a literal
  has a negation.
* `frontEnd_inRange`: all of them on any text.
-/

namespace Scaffold.Indexed

open Scan

variable {ε α : Type}

/-! ## Places in bytes -/

/-- The number of bytes of a text. -/
def size (cs : List Char) : Nat :=
  (cs.map Char.utf8Size).sum

/-- What stands behind so many bytes. -/
def dropBytes (n : Nat) : List Char → Scan ε (List Char)
  | [] => if n = 0 then done [] else fault
  | c :: cs =>
    if n = 0 then done (c :: cs)
    else if c.utf8Size ≤ n then dropBytes (n - c.utf8Size) cs else fault

/-- What stands in front of so many bytes. -/
def takeBytes (n : Nat) : List Char → Scan ε (List Char)
  | [] => if n = 0 then done [] else fault
  | c :: cs =>
    if n = 0 then done []
    else if c.utf8Size ≤ n then do
      let front ← takeBytes (n - c.utf8Size) cs
      return c :: front
    else fault

/-- What stands between two places. -/
def sliceBytes (cs : List Char) (first last : Nat) : Scan ε (List Char) := do
  let front ← takeBytes last cs
  dropBytes first front

/-- The place of a character. -/
def findByte (sep : Char) : List Char → Option Nat
  | [] => none
  | c :: cs => if c == sep then some 0 else (findByte sep cs).map (· + c.utf8Size)

section

variable (front back : List Char)

theorem dropBytes_size : (dropBytes (size front) (front ++ back) : Scan ε _) = done back := by
  induction front with
  | nil => cases back <;> rfl
  | cons c front ih =>
    have hpos := c.utf8Size_pos
    have hsize : size (c :: front) = c.utf8Size + size front := List.sum_cons
    rw [hsize, List.cons_append, dropBytes, if_neg (by omega), if_pos (Nat.le_add_right _ _),
      Nat.add_sub_cancel_left, ih]

theorem takeBytes_size : (takeBytes (size front) (front ++ back) : Scan ε _) = done front := by
  induction front with
  | nil => cases back <;> rfl
  | cons c front ih =>
    have hpos := c.utf8Size_pos
    have hsize : size (c :: front) = c.utf8Size + size front := List.sum_cons
    rw [hsize, List.cons_append, takeBytes, if_neg (by omega), if_pos (Nat.le_add_right _ _),
      Nat.add_sub_cancel_left, ih]
    rfl

theorem size_append : size (front ++ back) = size front + size back := by
  rw [size, List.map_append, List.sum_append]
  rfl

end

theorem findByte_append {sep : Char} {front : List Char} (h : sep ∉ front) (back : List Char) :
    findByte sep (front ++ sep :: back) = some (size front) := by
  induction front with
  | nil => simp [findByte, size]
  | cons c front ih =>
    obtain ⟨hc, hfront⟩ := not_or.1 (mt List.mem_cons.2 h)
    rw [List.cons_append, findByte, if_neg (by simpa using Ne.symm hc), ih hfront]
    simp [size, Nat.add_comm]

theorem findByte_eq_none {sep : Char} {cs : List Char} (h : sep ∉ cs) : findByte sep cs = none := by
  induction cs with
  | nil => rfl
  | cons c cs ih =>
    obtain ⟨hc, hcs⟩ := not_or.1 (mt List.mem_cons.2 h)
    rw [findByte, if_neg (by simpa using Ne.symm hc), ih hcs]
    rfl

/-! ## Path templates -/

/-- The text in front of the next hole of a template, the hole, and what follows it. -/
def cutHole (rest : List Char) : Scan ε (Option (List Char × List Char × List Char)) :=
  match findByte '\x7b' rest with
  | none => return none
  | some first => do
    let tail ← dropBytes first rest
    match findByte '\x7d' tail with
    | none => return none
    | some length =>
      let text ← takeBytes first rest
      let inner ← sliceBytes rest (first + 1) (first + length)
      let rest ← dropBytes (first + length + 1) rest
      return some (text, inner, rest)

/-- The pieces of a template. -/
def piecesOf : (fuel : Nat) → (rest : List Char) → Scan ε (List Url.Piece)
  | 0, _ => fault
  | fuel + 1, rest => do
    match ← cutHole rest with
    | none => return Url.textPiece .text rest
    | some (text, inner, rest) =>
      let pieces ← piecesOf fuel rest
      return Url.textPiece .text text ++ .hole inner :: pieces

section

variable {text inner rest : List Char}

theorem cutHole_text (htext : '\x7b' ∉ text) : (cutHole text : Scan ε _) = done none := by
  rw [cutHole, findByte_eq_none htext]
  rfl

theorem cutHole_opened (htext : '\x7b' ∉ text) (hrest : '\x7d' ∉ rest) :
    (cutHole (text ++ '\x7b' :: rest) : Scan ε _) = done none := by
  have htail : '\x7d' ∉ '\x7b' :: rest := by simpa using hrest
  rw [cutHole, findByte_append htext]
  dsimp only
  rw [dropBytes_size, done_bind, findByte_eq_none htail]
  rfl

theorem cutHole_hole (htext : '\x7b' ∉ text) (hinner : '\x7d' ∉ inner) :
    (cutHole (text ++ '\x7b' :: (inner ++ '\x7d' :: rest)) : Scan ε _) =
      done (some (text, inner, rest)) := by
  have htail : '\x7d' ∉ '\x7b' :: inner := by simpa using hinner
  have hclose : findByte '\x7d' ('\x7b' :: (inner ++ '\x7d' :: rest)) =
      some (size ('\x7b' :: inner)) := findByte_append htail rest
  -- The three places as sizes of what stands in front of them.
  have hfirst : size text + 1 = size (text ++ ['\x7b']) := by rw [size_append]; rfl
  have hlast : size text + size ('\x7b' :: inner) = size (text ++ '\x7b' :: inner) :=
    (size_append _ _).symm
  have hnext : size text + size ('\x7b' :: inner) + 1 =
      size (text ++ '\x7b' :: inner ++ ['\x7d']) := by
    rw [size_append, size_append]
    rfl
  have htake := takeBytes_size (ε := ε) (text ++ '\x7b' :: inner) ('\x7d' :: rest)
  have hdrop := dropBytes_size (ε := ε) (text ++ ['\x7b']) inner
  have hrest := dropBytes_size (ε := ε) (text ++ '\x7b' :: inner ++ ['\x7d']) rest
  simp only [List.append_assoc, List.cons_append, List.nil_append] at htake hdrop hrest hlast hnext
  rw [cutHole, findByte_append htext]
  dsimp only
  rw [dropBytes_size, done_bind, hclose]
  dsimp only
  rw [takeBytes_size, done_bind, sliceBytes, hlast, htake, done_bind, hfirst, hdrop, done_bind,
    ← hlast, hnext, hrest]
  rfl

end

theorem piecesOf_eq {fuel : Nat} (rest : List Char) (hfuel : rest.length < fuel) :
    (piecesOf fuel rest : Scan ε _) = done (Url.piecesFrom 0 [] rest) := by
  induction fuel generalizing rest with
  | zero => exact absurd hfuel (Nat.not_lt_zero _)
  | succ fuel ih =>
    rw [piecesOf]
    by_cases hopen : '\x7b' ∈ rest
    · obtain ⟨text, tail, rfl, htext⟩ := List.eq_append_cons_of_mem hopen
      rw [Url.piecesFrom_text htext, List.nil_append, Url.piecesFrom, if_pos (beq_self_eq_true _)]
      by_cases hclose : '\x7d' ∈ tail
      · obtain ⟨inner, rest, rfl, hinner⟩ := List.eq_append_cons_of_mem hclose
        have hskip := Url.piecesFrom_skip (inner ++ ['\x7d']) rest []
        rw [List.length_append, List.append_assoc] at hskip
        rw [cutHole_hole htext hinner, done_bind, Url.splitFirstChars_append hinner]
        dsimp only
        rw [ih rest (by simp at hfuel; omega)]
        exact congrArg (fun pieces =>
          done (Url.textPiece Url.Piece.text text ++ .hole inner :: pieces)) hskip.symm
      · rw [cutHole_opened htext hclose, done_bind, Url.splitFirstChars_eq_none hclose]
        rfl
    · have hpieces := Url.piecesFrom_text hopen [] []
      rw [List.append_nil] at hpieces
      rw [cutHole_text hopen, done_bind, hpieces]
      rfl

/-- The names of the placeholders of a path. -/
def placeholders (path : String) : Scan ε (List String) := do
  let pieces ← piecesOf (path.toList.length + 1) path.toList
  return (pieces.filterMap Url.Piece.hole?).filterMap Url.placeholderName?

/-- The texts and parameters of a template. -/
def parts (template : String) : Scan ε (List Url.Part) := do
  let pieces ← piecesOf (template.toList.length + 1) template.toList
  return pieces.map fun
    | .text cs => .text (String.ofList cs)
    | .hole inner => .param (String.ofList (Url.holeName inner))

theorem placeholders_eq (path : String) :
    (placeholders path : Scan ε _) = done (Url.placeholders path) := by
  rw [placeholders, piecesOf_eq _ (Nat.lt_succ_self _), Url.placeholders_eq]
  rfl

theorem parts_eq (template : String) : (parts template : Scan ε _) = done (Url.parts template) := by
  rw [parts, piecesOf_eq _ (Nat.lt_succ_self _)]
  rfl

/-! ## Words -/

section

variable (text : List Char)

/-- A word starts at `i`, inside of another one. -/
def startsAt (current : List Char) (c : Char) (i : Nat) : Scan ε Bool :=
  if Text.isUpper c && !current.isEmpty then do
    let previous ← item text (← minus i 1)
    return Text.isLower previous || previous.isDigit ||
      (Text.isUpper previous && text[i + 1]?.any Text.isLower)
  else return false

/-- The words from `i` on; `current` is what was read of the word there. -/
def wordsFrom : (fuel : Nat) → (current : List Char) → (i : Nat) → Scan ε (List (List Char))
  | 0, _, _ => fault
  | fuel + 1, current, i =>
    let ended := if current.isEmpty then [] else [current]
    if text.length ≤ i then return ended
    else do
      let c ← item text i
      if Text.isAlnum c then
        if ← startsAt text current c i then
          let words ← wordsFrom fuel (Text.toLower c) (i + 1)
          return ended ++ words
        else wordsFrom fuel (current ++ Text.toLower c) (i + 1)
      else
        let words ← wordsFrom fuel [] (i + 1)
        return ended ++ words

end

/-- The lower case words of a name. -/
def words (name : String) : Scan ε (List String) := do
  let words ← wordsFrom name.toList (name.toList.length + 1) [] 0
  return words.map String.ofList

/-- The words of pieces, when `current` was read of the first one. -/
def wordsOf (current : List Char) : List (List Char) → List (List Char)
  | [] => []
  | first :: more =>
    ((current ++ first.flatMap Text.toLower) :: more.map (·.flatMap Text.toLower)).filter
      (!·.isEmpty)

section

variable {text before rest current : List Char} {previous : Option Char} {c : Char}

/-- What stands directly in front of a place, if a word was begun there. -/
inductive Begun (before : List Char) : (previous : Option Char) → (current : List Char) → Prop where
  | none : Begun before none []
  | some {front current : List Char} {p : Char} (hbefore : before = front ++ [p])
    (hcurrent : current ≠ []) : Begun before (some p) current

/-- A word starts inside of another one. -/
theorem Begun.ne_nil {next : Option Char} (h : Begun before previous current)
    (hstarts : Naming.startsWord previous c next = true) : current ≠ [] := by
  cases h with
  | none => cases hstarts
  | some _ hcurrent => exact hcurrent

theorem startsAt_at (htext : before ++ c :: rest = text) (h : Begun before previous current) :
    (startsAt text current c before.length : Scan ε Bool) =
      done (Naming.startsWord previous c rest.head?) := by
  rw [startsAt]
  cases h with
  | none => rw [if_neg (by simp)]; rfl
  | @some front current p hbefore hcurrent =>
    subst hbefore
    have hminus : (minus (front ++ [p]).length 1 : Scan ε Nat) = done front.length := by
      rw [minus_of_le (by simp)]
      simp
    have hitem : (item text front.length : Scan ε Char) = done p :=
      item_at (show front ++ p :: (c :: rest) = text by simpa using htext)
    have hnext : text[(front ++ [p]).length + 1]? = rest.head? := by
      rw [getElem?_at htext, List.getElem?_cons_succ, List.head?_eq_getElem?]
    rw [hminus, done_bind, hitem, done_bind, hnext, Naming.startsWord]
    cases Text.isUpper c with
    | false => rfl
    | true =>
      rw [if_pos (by simpa using hcurrent)]
      rfl

theorem pieces_ne_nil (previous : Option Char) (cs : List Char) :
    Naming.pieces previous cs ≠ [] := by
  cases cs with
  | nil => exact List.cons_ne_nil _ _
  | cons c cs =>
    rw [Naming.pieces]
    split
    · split
      · exact List.cons_ne_nil _ _
      · split <;> exact List.cons_ne_nil _ _
    · exact List.cons_ne_nil _ _

theorem wordsFrom_at {fuel : Nat} (htext : before ++ rest = text) (hfuel : rest.length < fuel)
    (h : Begun before previous current) :
    (wordsFrom text fuel current before.length : Scan ε _) =
      done (wordsOf current (Naming.pieces previous rest)) := by
  induction fuel generalizing before rest previous current with
  | zero => exact absurd hfuel (Nat.not_lt_zero _)
  | succ fuel ih =>
    rw [wordsFrom]
    cases rest with
    | nil =>
      rw [if_pos ((length_le_at htext).2 rfl)]
      cases current <;> simp [Naming.pieces, wordsOf]
    | cons c cs =>
      have hnext : before.length + 1 = (before ++ [c]).length := by simp
      have htext' := append_singleton_at htext
      have hcs : cs.length < fuel := Nat.lt_of_succ_lt_succ hfuel
      rw [if_neg (more_at htext), item_at htext, done_bind, Naming.pieces, hnext]
      by_cases halnum : Text.isAlnum c = true
      · have hstarted : Begun (before ++ [c]) (some c) (Text.toLower c) :=
          .some rfl (Text.toLower_ne_nil c)
        have hgrown : Begun (before ++ [c]) (some c) (current ++ Text.toLower c) :=
          .some rfl (by simp [Text.toLower_ne_nil c])
        rw [if_pos halnum, if_pos halnum, startsAt_at htext h, done_bind, ih htext' hcs hstarted,
          ih htext' hcs hgrown]
        obtain ⟨first, more, hpieces⟩ := List.exists_cons_of_ne_nil (pieces_ne_nil (some c) cs)
        rw [hpieces]
        dsimp only
        cases hstarts : Naming.startsWord previous c cs.head? with
        | true => simp [wordsOf, h.ne_nil hstarts]
        | false => simp [wordsOf]
      · rw [if_neg halnum, if_neg halnum, ih htext' hcs .none]
        cases current <;> cases Naming.pieces none cs <;> simp [wordsOf]

end

theorem wordsOf_nil (pieces : List (List Char)) :
    wordsOf [] pieces = (pieces.filter (!·.isEmpty)).map (·.flatMap Text.toLower) := by
  have hempty : (fun word : List Char => !word.isEmpty) ∘ (List.flatMap Text.toLower) =
      fun word : List Char => !word.isEmpty := by
    funext word
    cases word <;> simp [Text.toLower_ne_nil]
  cases pieces with
  | nil => rfl
  | cons first more =>
    have hall : wordsOf [] (first :: more) =
        ((first :: more).map (·.flatMap Text.toLower)).filter (!·.isEmpty) := rfl
    rw [hall, List.filter_map, hempty]

theorem words_eq (name : String) : (words name : Scan ε _) = done (Naming.words name) := by
  have hwords := wordsFrom_at (ε := ε) (List.nil_append name.toList)
    (length_rest_lt (List.nil_append _)) .none
  rw [wordsOf_nil, List.length_nil] at hwords
  rw [words, hwords, done_bind, List.map_map]
  rfl

/-! ## Tokens -/

/-- What the lexer gives: integers that are machine integers, and an end mark behind all others. -/
structure Lexed (tokens : List Token) : Prop where
  ended : ∃ front pos, tokens = front ++ [⟨.eof, pos⟩]
  ints : ∀ t ∈ tokens, ∀ n, t.kind = .int n → n < 2 ^ 63

theorem lexNumber_int {c after : Cursor} {n : Nat} (h : Lexer.lexNumber c = .ok (.int n, after)) :
    n < 2 ^ 63 := by
  have hinteger {digits : List Char} {rest : Cursor}
      (h : Lexer.lexNumber.integer c digits rest = .ok (.int n, after)) : n < 2 ^ 63 := by
    rw [Lexer.lexNumber.integer] at h
    split at h
    · rename_i hlt
      cases h
      exact hlt
    · cases h
  rw [Lexer.lexNumber] at h
  dsimp only at h
  split at h
  · split at h
    · cases h
    · exact hinteger h
  · exact hinteger h

theorem lexToken_int {fuel : Nat} {mode : Option Lexer.RawMode} {ch : Char} {c after : Cursor}
    {n : Nat} (h : Lexer.lexToken fuel mode ch c = .ok (.int n, after)) : n < 2 ^ 63 := by
  rw [Lexer.lexToken] at h
  split at h
  · rw [Lexer.lexRaw] at h
    split at h <;> cases h
  split at h
  · cases h
  split at h
  · split at h <;> cases h
  split at h
  · split at h <;> cases h
  split at h
  · cases hquoted : Lexer.lexQuoted ch c with
    | error | ok =>
      rw [hquoted] at h
      cases h
  split at h
  · cases hpairs : Lexer.lexPairs fuel (c.drop 1) with
    | error | ok =>
      rw [hpairs] at h
      cases h
  split at h
  · exact lexNumber_int h
  split at h
  · rw [Lexer.lexWord] at h
    split at h <;> cases h
  · cases h

theorem Lexed.eof (pos : Position) : Lexed [⟨.eof, pos⟩] where
  ended := ⟨[], pos, rfl⟩
  ints := List.forall_mem_singleton.2 nofun

theorem Lexed.cons {t : Token} {ts : List Token} (ht : ∀ n, t.kind = .int n → n < 2 ^ 63)
    (h : Lexed ts) : Lexed (t :: ts) where
  ended := by
    obtain ⟨front, pos, rfl⟩ := h.ended
    exact ⟨t :: front, pos, rfl⟩
  ints := List.forall_mem_cons.2 ⟨ht, h.ints⟩

theorem lexed_tokens {fuel : Nat} {mode : Option Lexer.RawMode} {c : Cursor} {ts : List Token}
    (h : Lexer.tokens fuel mode c = .ok ts) : Lexed ts := by
  induction fuel generalizing mode c ts with
  | zero =>
    cases h
    exact .eof c.pos
  | succ fuel ih =>
    rw [Lexer.tokens] at h
    cases htrivia : Lexer.skipTrivia .blanks c.pos c.rest with
    | error e =>
      rw [htrivia] at h
      cases h
    | ok c =>
      simp only [htrivia, Bind.bind, Except.bind] at h
      split at h
      · cases h
        exact .eof c.pos
      · rename_i ch cs hrest
        cases htoken : Lexer.lexToken fuel mode ch c with
        | error e => simp [htoken] at h
        | ok r =>
          obtain ⟨kind, after⟩ := r
          simp only [htoken] at h
          cases hmore : Lexer.tokens fuel (Lexer.nextMode mode kind) after with
          | error e => simp [hmore] at h
          | ok more =>
            simp only [hmore, Pure.pure, Except.pure] at h
            cases h
            exact .cons (fun n (hn : kind = .int n) => lexToken_int (hn ▸ htoken)) (ih hmore)

theorem lexed_tokenize {source : String} {ts : List Token} (h : tokenize source = .ok ts) :
    Lexed ts :=
  lexed_tokens h

section

variable (tokens : List Token)

/-- The token at a place; behind the last token stands the last token again. -/
def tokenAt (pos : Nat) : Scan ε Token := do
  let last ← minus tokens.length 1
  item tokens (min pos last)

/-- Moves past a token. -/
def stepPast (pos : Nat) : Scan ε Nat := do
  let _ ← (tokenAt tokens pos : Scan ε Token)
  return if pos < tokens.length then pos + 1 else pos

/-- The end of the file is reached. -/
def isAtEnd (pos : Nat) : Scan ε Bool :=
  if tokens.length ≤ pos then return true
  else do
    let t ← tokenAt tokens pos
    return t.kind == .eof

/-- Moves past a sign if it stands here. -/
def skipSign (sign : Punct) (pos : Nat) : Scan ε (Bool × Nat) := do
  if ← isAtEnd tokens pos then return (false, pos)
  else
    let t ← tokenAt tokens pos
    if t.kind == .punct sign then
      let pos ← stepPast tokens pos
      return (true, pos)
    else return (false, pos)

/-- Something else should stand here. -/
def mismatch (what : String) (pos : Nat) : Scan Mismatch (α × Nat) := do
  let t ← tokenAt tokens pos
  refused ⟨t.pos, what, t.kind.describe⟩

/-- Moves past a sign. -/
def expectSign (sign : Punct) (pos : Nat) : Scan Mismatch (Unit × Nat) := do
  let t ← tokenAt tokens pos
  if t.kind == .punct sign then
    let pos ← stepPast tokens pos
    return ((), pos)
  else mismatch tokens (TokenKind.punct sign).describe pos

/-- A name and its position. -/
def nameAt (pos : Nat) : Scan Mismatch ((String × Position) × Nat) := do
  let t ← tokenAt tokens pos
  match t.kind with
  | .ident name =>
    let pos ← stepPast tokens pos
    return ((name, t.pos), pos)
  | _ => mismatch tokens "identifier" pos

/-- The names of a list from `pos` on. -/
def namesFrom : (fuel : Nat) → (names : List String) → (pos : Nat) →
    Scan Mismatch (List String × Nat)
  | 0, _, _ => fault
  | fuel + 1, names, pos => do
    let ((name, _), pos) ← nameAt tokens pos
    let (more, pos) ← skipSign tokens .comma pos
    if more then namesFrom fuel (names ++ [name]) pos else return (names ++ [name], pos)

/-- Names in parentheses. -/
def nameListAt (pos : Nat) : Scan Mismatch (List String × Nat) := do
  let ((), pos) ← expectSign tokens .parenOpen pos
  let (names, pos) ← namesFrom tokens (tokens.length + 1) [] pos
  let ((), pos) ← expectSign tokens .parenClose pos
  return (names, pos)

/-- The literal that a token stands for, behind a minus sign or not. -/
def signedAt (negative : Bool) (kind : TokenKind) : Scan ε (Option Literal) :=
  if negative then
    match kind with
    | .int n => do
      let n ← negate n
      return some (.int n)
    | .float x => return some (.float x.neg)
    | _ => return none
  else return Source.Parser.literalOf? kind

/-- A literal, if it is a number perhaps with a minus sign. -/
def literalAt (pos : Nat) : Scan Mismatch (Literal × Nat) := do
  let (negative, pos) ← skipSign tokens .minus pos
  let t ← tokenAt tokens pos
  let value ← signedAt negative t.kind
  match value with
  | some l =>
    let pos ← stepPast tokens pos
    return (l, pos)
  | none => mismatch tokens "a literal" pos

end

/-- A scanner of the tokens and a parser come to the same, and stop in front of the same token, with
at most `n` tokens left. -/
inductive Parses (tokens : List Token) (env : Source.ParserEnv) (s : Source.ParserState) (n : Nat) :
    Scan Mismatch (α × Nat) → Except CompileError α × Source.ParserState → Prop where
  | done (a : α) {before rest : List Token} {t : Token} (htokens : before ++ t :: rest = tokens)
    (hleft : (t :: rest).length ≤ n) :
    Parses tokens env s n (.done (a, before.length)) (.ok a, { s with rest := t :: rest })
  | refused (m : Mismatch) (rest : List Token) :
    Parses tokens env s n (.refused m)
      (.error (.fault env.source.path m.pos (.mismatch m.expected m.found)), { s with rest })

section

open Source (Parser ParserEnv ParserState nextKind)

variable {β : Type} {tokens before rest : List Token} {t : Token} {env : ParserEnv}
  {s : ParserState} {n : Nat}

theorem tokenAt_at (htokens : before ++ t :: rest = tokens) :
    (tokenAt tokens before.length : Scan ε Token) = done t := by
  have hlength := congrArg List.length htokens
  rw [List.length_append, List.length_cons] at hlength
  rw [tokenAt, minus_of_le (by omega), done_bind, Nat.min_eq_left (by omega), item_at htokens]

theorem stepPast_at (htokens : before ++ t :: rest = tokens) :
    (stepPast tokens before.length : Scan ε Nat) = done (before ++ [t]).length := by
  rw [stepPast, tokenAt_at htokens, done_bind, if_pos (Nat.lt_of_not_le (more_at htokens)),
    List.length_append]
  rfl

/-- An access behind the tokens gives the end mark, as the parser reads it. -/
theorem tokenAt_kind (h : Lexed tokens) (pos n : Nat) :
    ∃ t ∈ tokens, (tokenAt tokens (pos + n) : Scan ε Token) = done t ∧
      t.kind = (((tokens.drop pos)[n]?).map (·.kind)).getD .eof := by
  obtain ⟨front, last, hended⟩ := h.ended
  have hlength : tokens.length = front.length + 1 := by rw [hended, List.length_append]; rfl
  rw [List.getElem?_drop, tokenAt, minus_of_le (by omega), done_bind]
  by_cases hin : pos + n < tokens.length
  · have hget := List.getElem?_eq_getElem hin
    refine ⟨tokens[pos + n], List.mem_of_getElem? hget, ?_, by rw [hget]; rfl⟩
    rw [Nat.min_eq_left (by omega), item, hget]
  · have hlast : min (pos + n) (tokens.length - 1) = front.length := by omega
    refine ⟨⟨.eof, last⟩, by simp [hended], ?_, ?_⟩
    · rw [hlast]
      exact item_at hended.symm
    · rw [List.getElem?_eq_none (Nat.le_of_not_lt hin)]
      rfl

/-- Behind a token that is no end mark stands another one. -/
theorem Lexed.exists_next (h : Lexed tokens) (htokens : before ++ t :: rest = tokens)
    (ht : t.kind ≠ .eof) : ∃ t' rest', rest = t' :: rest' := by
  cases rest with
  | cons t' rest' => exact ⟨t', rest', rfl⟩
  | nil =>
    obtain ⟨front, last, hended⟩ := h.ended
    obtain ⟨-, hlast⟩ := List.append_inj' (htokens.trans hended) rfl
    cases hlast
    exact absurd rfl ht

theorem expectPunct_run (sign : Punct) :
    Parser.expectPunct sign env { s with rest := t :: rest } =
      if t.kind = .punct sign then (.ok (), { s with rest })
      else Parser.expected (TokenKind.punct sign).describe env { s with rest := t :: rest } := by
  have hrun : Parser.expectPunct sign env { s with rest := t :: rest } =
      ((if t.kind == .punct sign then (do Parser.advance; return t.pos)
        else Parser.expected (TokenKind.punct sign).describe : Parser Position) >>=
          fun _ => pure ()) env { s with rest := t :: rest } := rfl
  rw [hrun]
  by_cases hsign : t.kind = .punct sign
  · rw [if_pos (by simpa using hsign), if_pos hsign]
    rfl
  · rw [if_neg (by simpa using hsign), if_neg hsign]
    rfl

theorem signedAt_eq (negative : Bool) {kind : TokenKind} (hint : ∀ n, kind = .int n → n < 2 ^ 63) :
    (signedAt negative kind : Scan ε (Option Literal)) =
      done (if negative then (Parser.literalOf? kind).bind Parser.negated?
        else Parser.literalOf? kind) := by
  cases negative with
  | false => rfl
  | true =>
    cases kind with
    | int n =>
      rw [signedAt, if_pos rfl, negate_natCast (hint n rfl)]
      rfl
    | keyword k => cases k <;> rfl
    | _ => rfl

namespace Parses

theorem mono {k : Nat} {scan : Scan Mismatch (α × Nat)} {run : Except CompileError α × ParserState}
    (h : Parses tokens env s n scan run) (hle : n ≤ k) : Parses tokens env s k scan run := by
  cases h with
  | done a htokens hleft => exact .done a htokens (hleft.trans hle)
  | refused m rest => exact .refused m rest

theorem bind {k : Nat} {scan : Scan Mismatch (α × Nat)}
    {next : α × Nat → Scan Mismatch (β × Nat)} {p : Parser α} {f : α → Parser β} {s₀ : ParserState}
    (h : Parses tokens env s n scan (p env s₀))
    (hnext : ∀ a before t rest, before ++ t :: rest = tokens → (t :: rest).length ≤ n →
      Parses tokens env s k (next (a, before.length)) (f a env { s with rest := t :: rest })) :
    Parses tokens env s k (scan >>= next) ((p >>= f) env s₀) := by
  have hbind : (p >>= f) env s₀ = Parser.bind p f env s₀ := rfl
  rw [hbind, Parser.bind]
  generalize p env s₀ = run at h
  cases h with
  | done a htokens hleft => exact hnext a _ _ _ htokens hleft
  | refused m rest => exact .refused m rest

theorem mismatch (htokens : before ++ t :: rest = tokens) (what : String) :
    Parses tokens env s n (Indexed.mismatch tokens what before.length : Scan Mismatch (α × Nat))
      (Parser.expected what env { s with rest := t :: rest }) := by
  rw [Indexed.mismatch, tokenAt_at htokens]
  exact .refused ⟨t.pos, what, t.kind.describe⟩ _

section

variable (hlexed : Lexed tokens) (htokens : before ++ t :: rest = tokens)

include hlexed htokens

/-- Moves past a token that is no end mark. -/
theorem step (a : α) (ht : t.kind ≠ .eof) :
    Parses tokens env s rest.length (do
        let pos ← stepPast tokens before.length
        return (a, pos))
      (.ok a, { s with rest }) := by
  obtain ⟨t', rest, rfl⟩ := hlexed.exists_next htokens ht
  rw [stepPast_at htokens]
  exact .done a (append_singleton_at htokens) le_rfl

theorem skipSign (sign : Punct) :
    Parses tokens env s (t :: rest).length (Indexed.skipSign tokens sign before.length)
      (Parser.skipPunct sign env { s with rest := t :: rest }) := by
  have hend : (isAtEnd tokens before.length : Scan Mismatch Bool) = .done (t.kind == .eof) := by
    rw [isAtEnd, if_neg (more_at htokens), tokenAt_at htokens]
    rfl
  have hnext : nextKind (t :: rest) = t.kind := rfl
  rw [Indexed.skipSign, hend, done_bind, Parser.skipPunct_run, hnext, tokenAt_at htokens]
  by_cases hsign : t.kind = .punct sign
  · rw [if_neg (by simp [hsign]), done_bind, if_pos (by simpa using hsign), if_pos hsign]
    exact (step hlexed htokens true (by simp [hsign])).mono (Nat.le_succ _)
  · have hother : (t.kind == .punct sign) = false := by simpa using hsign
    rw [done_bind, if_neg hsign, hother, if_neg Bool.false_ne_true, ite_self]
    exact .done false htokens le_rfl

theorem expectSign (sign : Punct) :
    Parses tokens env s rest.length (Indexed.expectSign tokens sign before.length)
      (Parser.expectPunct sign env { s with rest := t :: rest }) := by
  rw [Indexed.expectSign, tokenAt_at htokens, done_bind, expectPunct_run]
  by_cases hsign : t.kind = .punct sign
  · rw [if_pos (by simpa using hsign), if_pos hsign]
    exact step hlexed htokens () (by simp [hsign])
  · rw [if_neg (by simpa using hsign), if_neg hsign]
    exact mismatch htokens _

theorem ident :
    Parses tokens env s rest.length (nameAt tokens before.length)
      (Parser.ident env { s with rest := t :: rest }) := by
  have hrun : Parser.ident env { s with rest := t :: rest } =
      (match t.kind with
        | .ident name => do
          Parser.advance
          return (name, t.pos)
        | _ => Parser.expected "identifier" : Parser (String × Position)) env
          { s with rest := t :: rest } := rfl
  rw [hrun, nameAt, tokenAt_at htokens, done_bind]
  obtain ⟨kind, pos⟩ := t
  cases kind with
  | ident name => exact step hlexed htokens (name, pos) (by simp)
  | _ => exact mismatch htokens "identifier"

end

/-- The fuel of both is enough for the tokens that are left. -/
theorem namesFrom (hlexed : Lexed tokens) (htokens : before ++ t :: rest = tokens) {m k : Nat}
    (hm : (t :: rest).length < m) (hk : (t :: rest).length < k) (names : List String) :
    Parses tokens env s rest.length (Indexed.namesFrom tokens m names before.length)
      (Parser.nameList.namesFuel k names env { s with rest := t :: rest }) := by
  induction m generalizing before t rest k names with
  | zero => exact absurd hm (Nat.not_lt_zero _)
  | succ m ih =>
    obtain ⟨k, rfl⟩ := Nat.exists_eq_succ_of_ne_zero (Nat.ne_zero_of_lt hk)
    refine bind (ident hlexed htokens) fun (name, _) before' t' rest' htokens' hleft' => ?_
    refine bind (skipSign hlexed htokens' .comma) fun more before t rest htokens hleft => ?_
    simp only [List.length_cons] at hm hk hleft hleft'
    cases more with
    | true =>
      exact (ih htokens (by simp; omega) (by simp; omega) (names ++ [name])).mono (by omega)
    | false => exact .done _ htokens (by simp; omega)

theorem nameList (hlexed : Lexed tokens) (htokens : before ++ t :: rest = tokens) :
    Parses tokens env s rest.length (nameListAt tokens before.length)
      (Parser.nameList env { s with rest := t :: rest }) := by
  refine bind (expectSign hlexed htokens .parenOpen) fun _ before₁ t₁ rest₁ htokens₁ hleft₁ => ?_
  have hnames : Parses tokens env s rest₁.length
      (Indexed.namesFrom tokens (tokens.length + 1) [] before₁.length)
      (Parser.nameList.namesFuel ((t₁ :: rest₁).length + 1) [] env
        { s with rest := t₁ :: rest₁ }) :=
    namesFrom hlexed htokens₁ (length_rest_lt htokens₁) (Nat.lt_succ_self _) []
  refine bind (f := fun names => do Parser.expectPunct .parenClose; return names) hnames
    fun names before₂ t₂ rest₂ htokens₂ hleft₂ => ?_
  refine bind (expectSign hlexed htokens₂ .parenClose) fun _ before₃ t₃ rest₃ htokens₃ hleft₃ => ?_
  simp only [List.length_cons] at hleft₁ hleft₂ hleft₃
  exact .done names htokens₃ (by simp; omega)

theorem literal (hlexed : Lexed tokens) (htokens : before ++ t :: rest = tokens) :
    Parses tokens env s (t :: rest).length (literalAt tokens before.length)
      (Parser.literal env { s with rest := t :: rest }) := by
  refine bind (skipSign hlexed htokens .minus) fun negative before t rest htokens hleft => ?_
  have hint := hlexed.ints t (htokens ▸ List.mem_append_right _ List.mem_cons_self)
  have hleft' : rest.length ≤ (t :: rest).length := Nat.le_succ _
  have hvalue (value : Option Literal) : (t.kind = .eof → value = none) →
      Parses tokens env s (t :: rest).length
        (match value with
          | some l => do
            let pos ← stepPast tokens before.length
            return (l, pos)
          | none => Indexed.mismatch tokens "a literal" before.length)
        ((match value with
          | some l => do
            Parser.advance
            return l
          | none => Parser.expected "a literal" : Parser Literal) env
            { s with rest := t :: rest }) := by
    intro heof
    cases value with
    | some l => exact (step hlexed htokens l fun ht => nomatch heof ht).mono hleft'
    | none => exact mismatch htokens _
  dsimp only
  rw [tokenAt_at htokens, done_bind, signedAt_eq negative hint, done_bind]
  refine (hvalue _ fun heof => ?_).mono hleft
  cases negative <;> simp [heof, Parser.literalOf?]

end Parses

end

/-! ## The front end -/

/-- The parser stays in range on these tokens. It reads them only through accesses that are clamped
to the last one, and wherever one of its rules stops is a place among them. -/
structure Readable (tokens : List Token) : Prop where
  access : ∀ pos n, ∃ t ∈ tokens, (tokenAt tokens (pos + n) : Scan Mismatch Token) = done t ∧
    t.kind = (((tokens.drop pos)[n]?).map (·.kind)).getD .eof
  places : ∀ {α : Type} {p : Source.Parser α}, Source.Parser.Rule p → ∀ env s pos,
    s.rest = tokens.drop pos → ∃ pos', pos ≤ pos' ∧ (p env s).2.rest = tokens.drop pos'
  literals : ∀ env s pos, pos < tokens.length → s.rest = tokens.drop pos →
    Parses tokens env s tokens.length (literalAt tokens pos) (Source.Parser.literal env s)
  nameLists : ∀ env s pos, pos < tokens.length → s.rest = tokens.drop pos →
    Parses tokens env s tokens.length (nameListAt tokens pos) (Source.Parser.nameList env s)

theorem Lexed.readable {tokens : List Token} (h : Lexed tokens) : Readable tokens := by
  have hsplit (s : Source.ParserState) (pos : Nat) (hpos : pos < tokens.length)
      (hrest : s.rest = tokens.drop pos) : ∃ before t rest, before ++ t :: rest = tokens ∧
        before.length = pos ∧ s = { s with rest := t :: rest } := by
    refine ⟨tokens.take pos, tokens[pos], tokens.drop (pos + 1), ?_, ?_, ?_⟩
    · rw [← List.drop_eq_getElem_cons hpos, List.take_append_drop]
    · rw [List.length_take, Nat.min_eq_left hpos.le]
    · rw [← List.drop_eq_getElem_cons hpos, ← hrest]
  constructor
  case access => exact tokenAt_kind h
  case places =>
    intro α p hp env s pos hrest
    have hsuffix := (hp.moving env s).suffix
    rw [hrest, List.suffix_iff_eq_drop, List.drop_drop] at hsuffix
    exact ⟨_, Nat.le_add_right _ _, hsuffix⟩
  case literals =>
    intro env s pos hpos hrest
    obtain ⟨before, t, rest, htokens, rfl, hs⟩ := hsplit s pos hpos hrest
    have hlength := congrArg List.length htokens
    rw [List.length_append] at hlength
    rw [hs]
    exact (Parses.literal h htokens).mono (by omega)
  case nameLists =>
    intro env s pos hpos hrest
    obtain ⟨before, t, rest, htokens, rfl, hs⟩ := hsplit s pos hpos hrest
    have hlength := congrArg List.length htokens
    rw [List.length_append, List.length_cons] at hlength
    rw [hs]
    exact (Parses.nameList h htokens).mono (by omega)

/-- All scanners of the front end stay in range on this text: none of them faults, and each gives
what its reader gives. A scanner that cannot refuse a text has no errors. -/
structure InRange (text : String) : Prop where
  lexer : tokenList text = ofExcept (tokenize text)
  parser : ∀ tokens, tokenize text = .ok tokens → Readable tokens
  markup : Indexed.markup text = ofExcept (Markup.parse text)
  offsets : ∀ e, Indexed.markup text = refused e → e.offset ≤ text.toList.length
  parameters : ∀ placeholder, (rewriteParameters placeholder text : Scan Empty _) =
    done (Sql.withPlaceholders placeholder text, Sql.bindOrder text)
  columns : (selectColumns text : Scan Empty _) = done (Sql.selectList? text)
  placeholders : (Indexed.placeholders text : Scan Empty _) = done (Url.placeholders text)
  parts : (Indexed.parts text : Scan Empty _) = done (Url.parts text)
  words : (Indexed.words text : Scan Empty _) = done (Naming.words text)

theorem frontEnd_inRange (text : String) : InRange text where
  lexer := tokenList_eq text
  parser _ htokens := (lexed_tokenize htokens).readable
  markup := markup_eq text
  offsets e h := by
    rw [markup_eq] at h
    cases hparse : Markup.parse text with
    | ok nodes => rw [hparse] at h; cases h
    | error e' =>
      rw [hparse] at h
      cases h
      exact offset_le text hparse
  parameters placeholder := rewriteParameters_eq placeholder text
  columns := selectColumns_eq text
  placeholders := placeholders_eq text
  parts := parts_eq text
  words := words_eq text

end Scaffold.Indexed
