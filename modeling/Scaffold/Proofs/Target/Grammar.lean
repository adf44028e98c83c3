import Mathlib.Data.List.Basic

/-!
# Expressions by how tightly operators bind

Expressions of a language with operators in front of an operand and between two, names inside paths
and calls. An operator binds at a level; the higher it is, the tighter. Comparisons may be chained:
`a == b < c` is then neither of the two groupings of `a`, `b` and `c`, but a comparison that goes on.

* `Term.tokens`: the tokens of an expression that keeps the parentheses it is written with.
* `Grammar.Phrase l t`: the expression may stand where operators have to bind at least at level `l`.
* `Grammar.read_tokens`, `Grammar.Phrase.eq_of_tokens`: a reader that goes on as long as operators
  bind tightly enough reads a phrase from its tokens, so no two phrases have the same tokens.
* `Term.eq_of_tokens`: expressions with the same tokens that differ in their parentheses alone are
  the same, so parentheses that were not written cannot be read.
-/

namespace Scaffold.Target

/-! ## Expressions -/

/-- A word or a sign. -/
inductive Mark where
  | word (w : String)
  | sign (s : String)
  deriving DecidableEq

/-- A token of an expression. -/
inductive Tok where
  | mark (m : Mark)
  | number (n : Nat)
  /-- A number with a fraction, as it is written. -/
  | decimal (digits : String)
  | text (s : String)
  | opening
  | closing
  /-- The sign inside a path. -/
  | dot
  deriving DecidableEq

/-- A name or a literal. -/
inductive Leaf where
  | name (w : String)
  /-- A reserved word that stands for a value. -/
  | constant (w : String)
  | number (n : Nat)
  | decimal (digits : String)
  | text (s : String)
  deriving DecidableEq

/-- The token of a leaf. -/
def Leaf.tok : Leaf → Tok
  | .name w | .constant w => .mark (.word w)
  | .number n => .number n
  | .decimal digits => .decimal digits
  | .text s => .text s

/-- An expression with the parentheses it is written with. -/
inductive Term where
  | leaf (x : Leaf)
  | group (t : Term)
  /-- A name inside what the path in front of it names. -/
  | member (t : Term) (name : String)
  /-- A call with one argument. -/
  | call (callee argument : Term)
  | pre (op : Mark) (t : Term)
  | bin (op : Mark) (lhs rhs : Term)
  /-- A comparison that goes on: the last operand of `lhs` is compared with `rhs`. -/
  | chain (op : Mark) (lhs rhs : Term)
  deriving DecidableEq

namespace Term

/-- The tokens of an expression. -/
@[simp]
def tokens : Term → List Tok
  | .leaf x => [x.tok]
  | .group t => .opening :: (t.tokens ++ [.closing])
  | .member t name => t.tokens ++ [.dot, .mark (.word name)]
  | .call callee argument => callee.tokens ++ .opening :: (argument.tokens ++ [.closing])
  | .pre op t => .mark op :: t.tokens
  | .bin op lhs rhs | .chain op lhs rhs => lhs.tokens ++ .mark op :: rhs.tokens

/-- The expression without its parentheses. -/
@[simp]
def bare : Term → Term
  | .leaf x => .leaf x
  | .group t => t.bare
  | .member t name => .member t.bare name
  | .call callee argument => .call callee.bare argument.bare
  | .pre op t => .pre op t.bare
  | .bin op lhs rhs => .bin op lhs.bare rhs.bare
  | .chain op lhs rhs => .chain op lhs.bare rhs.bare

/-- The expression has no operator outside of parentheses. -/
def isOperand : Term → Bool
  | .pre .. | .bin .. | .chain .. => false
  | _ => true

/-- The expression starts with a literal text. -/
def startsWithText (t : Term) : Bool :=
  match t.tokens with
  | .text _ :: _ => true
  | _ => false

def grouped (needed : Bool) (t : Term) : Term :=
  if needed then .group t else t

@[simp]
theorem bare_grouped (needed : Bool) (t : Term) : (t.grouped needed).bare = t.bare := by
  cases needed <;> rfl

/-! ### Paths -/

def path (first : String) (names : List String) : Term :=
  names.foldl .member (.leaf (.name first))

variable {t : Term} {names : List String}

theorem tokens_members : (names.foldl member t).tokens =
    t.tokens ++ names.flatMap fun w => [.dot, .mark (.word w)] := by
  induction names generalizing t with
  | nil => exact (List.append_nil _).symm
  | cons w names ih => simp [ih]

theorem tokens_path (first : String) : (path first names).tokens =
    .mark (.word first) :: names.flatMap fun w => [.dot, .mark (.word w)] :=
  tokens_members

theorem bare_path (first : String) : (path first names).bare = path first names := by
  have hmembers : ∀ t : Term, (names.foldl member t).bare = names.foldl member t.bare := by
    induction names with
    | nil => exact fun _ => rfl
    | cons w names ih => exact fun t => ih (t.member w)
  exact hmembers _

theorem isOperand_path (first : String) : (path first names).isOperand = true := by
  have hmembers : ∀ t : Term, t.isOperand = true →
      (names.foldl member t).isOperand = true := by
    induction names with
    | nil => exact fun _ => id
    | cons w names ih => exact fun t _ => ih (t.member w) rfl
  exact hmembers _ rfl

end Term

/-! ## Parentheses -/

/-- How many parentheses are open behind tokens that stand behind `n` open ones; `none` if one is
closed that was not open. -/
@[simp]
def opened : Nat → List Tok → Option Nat
  | n, [] => some n
  | n, k :: ks =>
    match k, n with
    | .opening, n => opened (n + 1) ks
    | .closing, 0 => none
    | .closing, n + 1 => opened n ks
    | _, n => opened n ks

def plain (ks : List Tok) : List Tok :=
  ks.filter fun k => k != .opening && k != .closing

section

variable {n m : Nat} {ks ks' front back back' : List Tok} {op op' : Mark}

theorem opened_append : opened n (ks ++ ks') = (opened n ks).bind fun m => opened m ks' := by
  induction ks generalizing n with
  | nil => rfl
  | cons k ks ih => cases k <;> cases n <;> simp [ih]

/-- With one more in front, one more is open. -/
theorem opened_succ (h : opened n ks = some m) : opened (n + 1) ks = some (m + 1) := by
  induction ks generalizing n with
  | nil => simpa using h
  | cons k ks ih => cases k <;> cases n <;> simp_all

@[simp]
theorem plain_nil : plain [] = [] := rfl

@[simp]
theorem plain_append : plain (ks ++ ks') = plain ks ++ plain ks' :=
  List.filter_append ..

@[simp]
theorem plain_opening : plain (.opening :: ks) = plain ks := rfl

@[simp]
theorem plain_closing : plain (.closing :: ks) = plain ks := rfl

@[simp]
theorem plain_mark : plain (.mark op :: ks) = .mark op :: plain ks := rfl

namespace Term

variable {s t : Term}

@[simp]
theorem opened_tokens (t : Term) (n : Nat) : opened n t.tokens = some n := by
  induction t generalizing n with
  | leaf x => cases x <;> rfl
  | group t ih => simp [opened_append, ih]
  | member t name ih => simp [opened_append, ih]
  | call callee argument ihcallee ihargument =>
    simp [opened_append, ihcallee, ihargument]
  | pre op t ih => simp [ih]
  | bin op lhs rhs ihlhs ihrhs | chain op lhs rhs ihlhs ihrhs =>
    simp [opened_append, ihlhs, ihrhs]

theorem tokens_ne_nil (t : Term) : t.tokens ≠ [] := by
  cases t <;> simp

theorem plain_tokens_bare (t : Term) : plain t.bare.tokens = plain t.tokens := by
  induction t with
  | leaf => rfl
  | group t ih => simpa using ih
  | member t name ih => simp [ih]
  | call callee argument ihcallee ihargument => simp [ihcallee, ihargument]
  | pre op t ih => simp [ih]
  | bin op lhs rhs ihlhs ihrhs | chain op lhs rhs ihlhs ihrhs =>
    simp [ihlhs, ihrhs]

/-- The parenthesis in front of an expression is not closed before its end. -/
theorem front_eq_nil (h : .opening :: (t.tokens ++ [.closing]) = front ++ back) (hback : back ≠ [])
    (hfront : opened 0 front = some 0) : front = [] := by
  cases front with
  | nil => rfl
  | cons k front =>
    obtain ⟨rfl, hrest⟩ := List.cons.inj h
    obtain ⟨back, last, rfl⟩ := (List.eq_nil_or_concat back).resolve_left hback
    rw [List.append_eq, List.concat_eq_append, ← List.append_assoc] at hrest
    have hinner := opened_tokens t 0
    rw [(List.append_inj' hrest rfl).1, opened_append] at hinner
    obtain ⟨m, hm, -⟩ := Option.bind_eq_some_iff.1 hinner
    cases (opened_succ hm).symm.trans hfront

theorem exists_group (h : (Term.group s).tokens = t.tokens) : ∃ t', t = .group t' := by
  have hoperand : ∀ {lhs : Term} {back : List Tok}, back ≠ [] →
      .opening :: (s.tokens ++ [.closing]) ≠ lhs.tokens ++ back := fun hback h =>
    tokens_ne_nil _ (front_eq_nil h hback (opened_tokens _ 0))
  cases t with
  | leaf x => simp [tokens_ne_nil] at h
  | group t => exact ⟨t, rfl⟩
  | pre => cases h
  | member | call | bin | chain => exact absurd h (hoperand (List.cons_ne_nil _ _))

/-- The operands of an operator are told by its tokens and theirs other than parentheses. -/
theorem operands_inj {lhs rhs lhs' rhs' : Term}
    (h : lhs.tokens ++ .mark op :: rhs.tokens = lhs'.tokens ++ .mark op' :: rhs'.tokens)
    (hbare : lhs.bare = lhs'.bare) : lhs.tokens = lhs'.tokens ∧ rhs.tokens = rhs'.tokens := by
  have hplain : plain lhs.tokens = plain lhs'.tokens := by
    rw [← plain_tokens_bare, hbare, plain_tokens_bare]
  have hnil : ∀ {u back back' : List Tok} {op op' : Mark},
      .mark op :: back = u ++ .mark op' :: back' → plain u = [] → u = [] := by
    intro u back back' op op' h hu
    cases u with
    | nil => rfl
    | cons k u =>
      cases (List.cons.inj h).1
      cases hu
  have hleft : lhs.tokens = lhs'.tokens := by
    obtain ⟨u, hu, hrest⟩ | ⟨u, hu, hrest⟩ := List.append_eq_append_iff.1 h
    · rw [hu, hnil hrest (by simpa [hu] using hplain), List.append_nil]
    · rw [hu, hnil hrest (by simpa [hu] using hplain), List.append_nil]
  rw [hleft, List.append_right_inj] at h
  exact ⟨hleft, (List.cons.inj h).2⟩

/-- What is called and its argument are told by the tokens. -/
theorem call_inj {a a' : Term} (h : (Term.call s a).tokens = (Term.call t a').tokens) :
    s.tokens = t.tokens ∧ a.tokens = a'.tokens := by
  have hnil : ∀ {s t a a' : Term} {u : List Tok}, t.tokens = s.tokens ++ u →
      .opening :: (a.tokens ++ [.closing]) = u ++ .opening :: (a'.tokens ++ [.closing]) →
      u = [] := by
    intro s t a a' u ht hu
    refine front_eq_nil hu (List.cons_ne_nil _ _) ?_
    have hbalanced := opened_tokens t 0
    rwa [ht, opened_append, opened_tokens, Option.bind_some] at hbalanced
  have hleft : s.tokens = t.tokens := by
    obtain ⟨u, ht, hu⟩ | ⟨u, hs, hu⟩ := List.append_eq_append_iff.1 h
    · rw [ht, hnil ht hu, List.append_nil]
    · rw [hs, hnil hs hu, List.append_nil]
  simp only [tokens, hleft, List.append_right_inj, List.cons.injEq, List.append_left_inj,
    true_and] at h
  exact ⟨hleft, h⟩

/-- Expressions with the same tokens that are the same without parentheses are the same. -/
theorem eq_of_tokens (h : s.tokens = t.tokens) (hbare : s.bare = t.bare) : s = t := by
  induction s generalizing t with
  | leaf x =>
    cases t with
    | group t => cases (exists_group h.symm).choose_spec
    | leaf y => exact hbare
    | _ => cases hbare
  | group s ih =>
    obtain ⟨t, rfl⟩ := exists_group h
    simp only [tokens, List.cons.injEq, List.append_left_inj, true_and] at h
    rw [ih h hbare]
  | member s name ih =>
    cases t with
    | group t => cases (exists_group h.symm).choose_spec
    | member t name' =>
      obtain ⟨hinner, rfl⟩ := Term.member.inj hbare
      rw [ih ((List.append_left_inj _).1 h) hinner]
    | _ => cases hbare
  | call callee argument ihcallee ihargument =>
    cases t with
    | group t => cases (exists_group h.symm).choose_spec
    | call callee' argument' =>
      obtain ⟨hcallee, hargument⟩ := Term.call.inj hbare
      obtain ⟨hleft, hright⟩ := call_inj h
      rw [ihcallee hleft hcallee, ihargument hright hargument]
    | _ => cases hbare
  | pre op s ih =>
    cases t with
    | group t => cases (exists_group h.symm).choose_spec
    | pre op' t =>
      obtain ⟨rfl, hinner⟩ := Term.pre.inj hbare
      rw [ih (List.cons.inj h).2 hinner]
    | _ => cases hbare
  | bin op lhs rhs ihlhs ihrhs =>
    cases t with
    | group t => cases (exists_group h.symm).choose_spec
    | bin op' lhs' rhs' =>
      obtain ⟨rfl, hlhs, hrhs⟩ := Term.bin.inj hbare
      obtain ⟨hleft, hright⟩ := operands_inj h hlhs
      rw [ihlhs hleft hlhs, ihrhs hright hrhs]
    | _ => cases hbare
  | chain op lhs rhs ihlhs ihrhs =>
    cases t with
    | group t => cases (exists_group h.symm).choose_spec
    | chain op' lhs' rhs' =>
      obtain ⟨rfl, hlhs, hrhs⟩ := Term.chain.inj hbare
      obtain ⟨hleft, hright⟩ := operands_inj h hlhs
      rw [ihlhs hleft hlhs, ihrhs hright hrhs]
    | _ => cases hbare

end Term

end

/-! ## Grammar -/

/-- How operators of one level stand side by side. -/
inductive Joining where
  | left
  /-- As comparisons of the same operands, all of which have to hold. -/
  | chained
  deriving DecidableEq

/-- The words of a language and the levels of its operators. -/
structure Vocabulary where
  /-- Operators in front of their operand. -/
  before : List (Mark × Nat)
  /-- Operators between their operands. -/
  between : List (Mark × Nat × Joining)
  /-- Reserved words that stand for values. -/
  constants : List String
  reserved : List String

namespace Vocabulary

variable (v : Vocabulary)

/-- The operator in front that a token is, with its level. -/
def before? : Tok → Option (Mark × Nat)
  | .mark m => (v.before.lookup m).map fun n => (m, n)
  | _ => none

/-- The operator in between that a token is, with its level. -/
def between? : Tok → Option (Mark × Nat × Joining)
  | .mark m => (v.between.lookup m).map fun level => (m, level)
  | _ => none

/-- The leaf that a token is. -/
def leaf? : Tok → Option Leaf
  | .mark (.word w) =>
    if v.constants.contains w then some (.constant w)
    else if v.reserved.contains w then none
    else some (.name w)
  | .number n => some (.number n)
  | .decimal digits => some (.decimal digits)
  | .text s => some (.text s)
  | _ => none

/-- The level of the operator that binds least, unless all are in parentheses. -/
def level? : Term → Option Nat
  | .pre op _ => v.before.lookup op
  | .bin op .. | .chain op .. => (v.between.lookup op).map (·.1)
  | _ => none

/-- The expression is a comparison of this level outside of parentheses. -/
def comparesAt (n : Nat) : Term → Bool
  | .bin op .. | .chain op .. => v.between.lookup op == some (n, .chained)
  | _ => false

end Vocabulary

/-- A vocabulary that can be read. -/
structure Grammar extends Vocabulary where
  constants_reserved : ∀ w ∈ constants, w ∈ reserved
  before_apart : ∀ x ∈ before, toVocabulary.leaf? (.mark x.1) = none
  levels_apart : ∀ x ∈ before, ∀ y ∈ between, y.2.1 ≠ x.2

namespace Grammar

variable (g : Grammar)

/-- The expression stands where operators bind at least at a level. -/
inductive Phrase : Nat → Term → Prop
  | leaf {l : Nat} {x : Leaf} (h : g.leaf? x.tok = some x) : Phrase l (.leaf x)
  | group {l : Nat} {t : Term} (h : Phrase 0 t) : Phrase l (.group t)
  | member {l : Nat} {t : Term} {name : String} (hoperand : t.isOperand = true) (h : Phrase 0 t)
    (hname : name ∉ g.reserved) : Phrase l (.member t name)
  | call {l : Nat} {callee argument : Term} (hoperand : callee.isOperand = true)
    (hcallee : Phrase 0 callee) (hargument : Phrase 0 argument) : Phrase l (.call callee argument)
  | pre {l n : Nat} {op : Mark} {t : Term} (hop : g.before.lookup op = some n) (hl : l ≤ n)
    (h : Phrase n t) : Phrase l (.pre op t)
  | left {l n : Nat} {op : Mark} {lhs rhs : Term} (hop : g.between.lookup op = some (n, .left))
    (hl : l ≤ n) (hlhs : Phrase n lhs) (hrhs : Phrase (n + 1) rhs) : Phrase l (.bin op lhs rhs)
  | compare {l n : Nat} {op : Mark} {lhs rhs : Term}
    (hop : g.between.lookup op = some (n, .chained)) (hl : l ≤ n) (hlhs : Phrase (n + 1) lhs)
    (hrhs : Phrase (n + 1) rhs) : Phrase l (.bin op lhs rhs)
  | chain {l n : Nat} {op : Mark} {lhs rhs : Term}
    (hop : g.between.lookup op = some (n, .chained)) (hl : l ≤ n)
    (hcompares : g.comparesAt n lhs = true) (hlhs : Phrase n lhs) (hrhs : Phrase (n + 1) rhs) :
    Phrase l (.chain op lhs rhs)

/-! ## Reading -/

/-- What was read, and the tokens behind it. -/
abbrev Reading := Option (Term × List Tok)

/-- What was read, if a parenthesis closes behind it. -/
def closed : Reading → Reading
  | some (t, .closing :: rest) => some (t, rest)
  | _ => none

/-- Two operands and the operator between them. -/
def join (n : Nat) (joining : Joining) (op : Mark) (lhs rhs : Term) : Term :=
  match joining with
  | .left => .bin op lhs rhs
  | .chained => if g.comparesAt n lhs then .chain op lhs rhs else .bin op lhs rhs

mutual

/-- An expression whose operators bind at least at a level. -/
def term : (fuel l : Nat) → List Tok → Reading
  | 0, _, _ => none
  | _ + 1, _, [] => none
  | fuel + 1, l, k :: ks =>
    match g.before? k with
    | some (op, n) =>
      if n < l then none
      else (term fuel n ks).bind fun (t, rest) => operators fuel l (.pre op t) rest
    | none =>
      match g.leaf? k with
      | some x => (suffixes fuel (.leaf x) ks).bind fun (t, rest) => operators fuel l t rest
      | none =>
        if k = .opening then
          (closed (term fuel 0 ks)).bind fun (t, rest) =>
            (suffixes fuel (.group t) rest).bind fun (t, rest) => operators fuel l t rest
        else none

/-- The names and arguments behind an operand. -/
def suffixes : (fuel : Nat) → Term → List Tok → Reading
  | 0, _, _ => none
  | fuel + 1, t, .dot :: ks =>
    match ks with
    | .mark (.word name) :: rest =>
      if name ∈ g.reserved then none else suffixes fuel (.member t name) rest
    | _ => none
  | fuel + 1, t, .opening :: ks =>
    (closed (term fuel 0 ks)).bind fun (a, rest) => suffixes fuel (.call t a) rest
  | _ + 1, t, ks => some (t, ks)

/-- The operators behind an operand, as long as they bind at least at a level. -/
def operators : (fuel l : Nat) → Term → List Tok → Reading
  | 0, _, _, _ => none
  | _ + 1, _, t, [] => some (t, [])
  | fuel + 1, l, t, k :: ks =>
    match g.between? k with
    | none => some (t, k :: ks)
    | some (op, n, joining) =>
      if n < l then some (t, k :: ks)
      else
        (term fuel (n + 1) ks).bind fun (rhs, rest) =>
          operators fuel l (g.join n joining op t rhs) rest

end

/-- The expression that all of the tokens are. -/
def read (ks : List Tok) : Option Term :=
  match g.term (ks.length + 1) 0 ks with
  | some (t, []) => some t
  | _ => none

variable {g} {l n : Nat} {t lhs rhs : Term} {op : Mark} {ks : List Tok}

theorem Phrase.loosen {l' : Nat} (h : g.Phrase l t) (hl : l' ≤ l) : g.Phrase l' t := by
  cases h with
  | leaf h => exact .leaf h
  | group h => exact .group h
  | member hoperand h hname => exact .member hoperand h hname
  | call hoperand hcallee hargument => exact .call hoperand hcallee hargument
  | pre hop hn h => exact .pre hop (Nat.le_trans hl hn) h
  | left hop hn hlhs hrhs => exact .left hop (Nat.le_trans hl hn) hlhs hrhs
  | compare hop hn hlhs hrhs => exact .compare hop (Nat.le_trans hl hn) hlhs hrhs
  | chain hop hn hcompares hlhs hrhs => exact .chain hop (Nat.le_trans hl hn) hcompares hlhs hrhs

theorem Phrase.le_level (h : g.Phrase l t) : ∀ n ∈ g.level? t, l ≤ n := by
  intro n hn
  cases h with
  | leaf | group | member | call => cases hn
  | pre hop hl => cases hop.symm.trans hn; exact hl
  | left hop hl | compare hop hl | chain hop hl =>
    rw [Vocabulary.level?, hop] at hn
    cases hn
    exact hl

theorem level?_of_comparesAt (h : g.comparesAt n t = true) : g.level? t = some n := by
  cases t with
  | bin op | chain op =>
    rw [Vocabulary.level?, eq_of_beq (show (g.between.lookup op == some (n, .chained)) = true from h)]
    rfl
  | _ => cases h

/-- Tokens that may follow an expression: they do not continue its last operand, and an operator
among them does not take a part of the expression for its left operand. -/
structure Follows (g : Grammar) (t : Term) (ks : List Tok) : Prop where
  operand : ∀ k ∈ ks.head?, k ≠ .dot ∧ k ≠ .opening
  loose : ∀ k ∈ ks.head?, ∀ x ∈ g.between? k, ∀ n ∈ g.level? t, x.2.1 ≤ n

theorem mem_of_lookup {β : Type} {m : Mark} {b : β} {table : List (Mark × β)}
    (h : table.lookup m = some b) : (m, b) ∈ table := by
  obtain ⟨front, back, rfl, -⟩ := List.lookup_eq_some_iff.1 h
  exact List.mem_append_right _ List.mem_cons_self

theorem before?_mark (h : g.before.lookup op = some n) : g.before? (.mark op) = some (op, n) := by
  rw [Vocabulary.before?, h, Option.map_some]

theorem between?_mark {joining : Joining} (h : g.between.lookup op = some (n, joining)) :
    g.between? (.mark op) = some (op, n, joining) := by
  rw [Vocabulary.between?, h, Option.map_some]

theorem level?_bin {joining : Joining} (hop : g.between.lookup op = some (n, joining)) :
    g.level? (.bin op lhs rhs) = some n := by
  rw [Vocabulary.level?, hop, Option.map_some]

theorem between?_cases {k : Tok} {x : Mark × Nat × Joining} (h : g.between? k = some x) :
    x ∈ g.between := by
  cases k with
  | mark m =>
    obtain ⟨level, hlevel, rfl⟩ := Option.map_eq_some_iff.1 h
    exact mem_of_lookup hlevel
  | _ => cases h

theorem Follows.nil : Follows g t [] :=
  ⟨fun _ h => (by cases h), fun _ h => (by cases h)⟩

theorem Follows.closing : Follows g t (.closing :: ks) := by
  refine ⟨fun k hk => ?_, fun k hk x hx => ?_⟩
  · cases hk
    exact ⟨by decide, by decide⟩
  · cases hk
    cases hx

/-- An operator that binds no tighter than the expression may follow it. -/
theorem Follows.mark {joining : Joining} (hop : g.between.lookup op = some (n, joining))
    (h : g.Phrase n t) : Follows g t (.mark op :: ks) := by
  refine ⟨fun k hk => ?_, fun k hk x hx m hm => ?_⟩
  · cases hk
    exact ⟨by simp, by simp⟩
  · cases hk
    simp only [Vocabulary.between?, hop, Option.map_some, Option.mem_def, Option.some.injEq] at hx
    subst hx
    exact h.le_level m hm

/-- What follows an expression may follow a last operand of it that binds tighter. -/
theorem Follows.last {last : Term} (h : Follows g t ks) (hn : g.level? t = some n)
    (hlast : g.Phrase n last) : Follows g last ks :=
  ⟨h.operand, fun k hk x hx m hm =>
    Nat.le_trans (h.loose k hk x hx n hn) (hlast.le_level m hm)⟩

variable {f : Nat}

theorem suffixes_stop (h : ∀ k ∈ ks.head?, k ≠ .dot ∧ k ≠ .opening) (hf : 0 < f) :
    g.suffixes f t ks = some (t, ks) := by
  obtain ⟨f, rfl⟩ := Nat.exists_eq_succ_of_ne_zero (Nat.pos_iff_ne_zero.1 hf)
  cases ks with
  | nil => rfl
  | cons k ks =>
    obtain ⟨hdot, hopening⟩ := h k rfl
    unfold suffixes
    split <;> simp_all

theorem operators_stop (h : ∀ k ∈ ks.head?, ∀ x ∈ g.between? k, x.2.1 < l) (hf : 0 < f) :
    g.operators f l t ks = some (t, ks) := by
  obtain ⟨f, rfl⟩ := Nat.exists_eq_succ_of_ne_zero (Nat.pos_iff_ne_zero.1 hf)
  cases ks with
  | nil => rfl
  | cons k ks =>
    unfold operators
    split
    · rfl
    · rename_i hk
      rw [if_pos (h k rfl _ hk)]

/-- Whatever is read of a list of tokens behind the expression is read with it in front: behind an
operand what belongs to it, behind a phrase the operators. -/
structure Reads (g : Grammar) (l : Nat) (t : Term) : Prop where
  operand : t.isOperand = true → ∀ {l' ks result},
    (∀ f f', ks.length < f → ks.length < f' →
      (g.suffixes f t ks).bind (fun (t, rest) => g.operators f' l' t rest) = result) →
    ∀ f, (t.tokens ++ ks).length < f → g.term f l' (t.tokens ++ ks) = result
  phrase : ∀ {l' ks result}, l' ≤ l → Follows g t ks →
    (∀ f, ks.length < f → g.operators f l' t ks = result) →
    ∀ f, (t.tokens ++ ks).length < f → g.term f l' (t.tokens ++ ks) = result

theorem Reads.of_operand (h : ∀ {l' ks result},
    (∀ f f', ks.length < f → ks.length < f' →
      (g.suffixes f t ks).bind (fun (t, rest) => g.operators f' l' t rest) = result) →
    ∀ f, (t.tokens ++ ks).length < f → g.term f l' (t.tokens ++ ks) = result) : Reads g l t := by
  refine ⟨fun _ => h, fun _ hfollows hks => h fun f f' hf hf' => ?_⟩
  rw [suffixes_stop hfollows.operand (by omega)]
  exact hks f' hf'

/-- An expression in front of a closing parenthesis. -/
theorem Reads.closed (h : Reads g l t) (hf : (t.tokens ++ .closing :: ks).length < f) :
    Grammar.closed (g.term f 0 (t.tokens ++ .closing :: ks)) = some (t, ks) := by
  have hread : g.term f 0 (t.tokens ++ .closing :: ks) = some (t, .closing :: ks) :=
    h.phrase (Nat.zero_le l) .closing
      (fun f hf => operators_stop (fun k hk x hx => by cases hk; cases hx) (by omega)) f hf
  rw [hread]
  rfl

/-- An expression as the last operand of one with an operator that binds looser. -/
theorem Reads.last {last : Term} (h : Reads g l last) (hfollows : Follows g last ks)
    (hstop : ∀ k ∈ ks.head?, ∀ x ∈ g.between? k, x.2.1 < l)
    (hf : (last.tokens ++ ks).length < f) : g.term f l (last.tokens ++ ks) = some (last, ks) :=
  h.phrase (Nat.le_refl l) hfollows (fun _ hf => operators_stop hstop (by omega)) f hf

theorem before?_of_leaf? {k : Tok} {x : Leaf} (h : g.leaf? k = some x) : g.before? k = none := by
  cases k with
  | mark m =>
    cases hop : g.before.lookup m with
    | none => rw [Vocabulary.before?, hop, Option.map_none]
    | some n =>
      rw [g.before_apart (m, n) (mem_of_lookup hop)] at h
      cases h
  | _ => rfl

theorem Reads.loosen {l' : Nat} (h : Reads g l t) (hl : l' ≤ l) : Reads g l' t :=
  ⟨h.operand, fun hl' => h.phrase (Nat.le_trans hl' hl)⟩

/-- Two operands that are read, and the operator between them. -/
theorem Reads.binary {joining : Joining} {whole : Term}
    (hop : g.between.lookup op = some (n, joining)) (hl : l ≤ n)
    (hlhs : g.Phrase n lhs) (hrhs : g.Phrase (n + 1) rhs)
    (hleft : Reads g n lhs) (hright : Reads g (n + 1) rhs)
    (hoperand : whole.isOperand = false) (hlevel : g.level? whole = some n)
    (htokens : whole.tokens = lhs.tokens ++ .mark op :: rhs.tokens)
    (hjoin : g.join n joining op lhs rhs = whole) : Reads g l whole := by
  refine ⟨fun h => Bool.noConfusion (hoperand.symm.trans h), fun hl' hfollows hks f hf => ?_⟩
  rw [htokens, List.append_assoc, List.cons_append] at hf ⊢
  refine hleft.phrase (Nat.le_trans hl' hl) (.mark hop hlhs) (fun f hf => ?_) f hf
  obtain ⟨f, rfl⟩ := Nat.exists_eq_succ_of_ne_zero (show f ≠ 0 by omega)
  simp only [List.length_cons, List.length_append] at hf
  -- The right operand ends where an operator of its own level would go on.
  have hlast := hright.last (f := f) (hfollows.last hlevel (hrhs.loosen (Nat.le_succ n)))
    (fun k hk x hx => Nat.lt_succ_of_le (hfollows.loose k hk x hx n hlevel))
    (by simp only [List.length_append]; omega)
  rw [operators, between?_mark hop]
  dsimp only
  rw [if_neg (by omega), hlast, Option.bind_some, hjoin]
  exact hks f (by omega)

theorem Phrase.reads (h : g.Phrase l t) : Reads g l t := by
  induction h with
  | @leaf l x hx =>
    refine .of_operand fun hks f hf => ?_
    obtain ⟨f, rfl⟩ := Nat.exists_eq_succ_of_ne_zero (show f ≠ 0 by omega)
    rw [Term.tokens, List.singleton_append] at hf ⊢
    rw [term, before?_of_leaf? hx, hx]
    exact hks f f (by simpa using hf) (by simpa using hf)
  | @group l t h ih =>
    refine .of_operand fun {l' ks result} hks f hf => ?_
    obtain ⟨f, rfl⟩ := Nat.exists_eq_succ_of_ne_zero (show f ≠ 0 by omega)
    rw [Term.tokens, List.cons_append, List.append_assoc, List.singleton_append] at hf ⊢
    have hinner : closed (g.term f 0 (t.tokens ++ .closing :: ks)) = some (t, ks) :=
      ih.closed (Nat.lt_of_succ_lt_succ hf)
    simp only [List.length_cons, List.length_append] at hf
    rw [term, show g.before? .opening = none from rfl, show g.leaf? .opening = none from rfl]
    dsimp only
    rw [if_pos rfl, hinner, Option.bind_some]
    exact hks f f (by omega) (by omega)
  | @member l t name hoperand h hname ih =>
    refine .of_operand fun hks f hf => ?_
    rw [Term.tokens, List.append_assoc, List.cons_append, List.singleton_append] at hf ⊢
    refine ih.operand hoperand (fun f f' hf hf' => ?_) f hf
    obtain ⟨f, rfl⟩ := Nat.exists_eq_succ_of_ne_zero (show f ≠ 0 by omega)
    simp only [List.length_cons] at hf hf'
    rw [suffixes]
    dsimp only
    rw [if_neg hname]
    exact hks f f' (by omega) (by omega)
  | @call l callee argument hoperand hcallee hargument ihcallee ihargument =>
    refine .of_operand fun {l' ks result} hks f hf => ?_
    rw [Term.tokens, List.append_assoc, List.cons_append, List.append_assoc,
      List.singleton_append] at hf ⊢
    refine ihcallee.operand hoperand (fun f f' hf hf' => ?_) f hf
    obtain ⟨f, rfl⟩ := Nat.exists_eq_succ_of_ne_zero (show f ≠ 0 by omega)
    have hinner : closed (g.term f 0 (argument.tokens ++ .closing :: ks)) = some (argument, ks) :=
      ihargument.closed (Nat.lt_of_succ_lt_succ hf)
    simp only [List.length_cons, List.length_append] at hf hf'
    rw [suffixes, hinner, Option.bind_some]
    exact hks f f' (by omega) (by omega)
  | @pre l n op t hop hl h ih =>
    refine ⟨fun h => (by cases h), fun {l' ks result} hl' hfollows hks f hf => ?_⟩
    obtain ⟨f, rfl⟩ := Nat.exists_eq_succ_of_ne_zero (show f ≠ 0 by omega)
    rw [Term.tokens, List.cons_append] at hf ⊢
    have hstop : ∀ k ∈ ks.head?, ∀ x ∈ g.between? k, x.2.1 < n := fun k hk x hx =>
      Nat.lt_of_le_of_ne (hfollows.loose k hk x hx n hop)
        (g.levels_apart _ (mem_of_lookup hop) x (between?_cases hx))
    have hlast : g.term f n (t.tokens ++ ks) = some (t, ks) :=
      ih.last (hfollows.last hop h) hstop (Nat.lt_of_succ_lt_succ hf)
    simp only [List.length_cons, List.length_append] at hf
    rw [term, before?_mark hop]
    dsimp only
    rw [if_neg (by omega), hlast, Option.bind_some]
    exact hks f (by omega)
  | left hop hl hlhs hrhs ihlhs ihrhs =>
    exact .binary hop hl hlhs hrhs ihlhs ihrhs rfl (level?_bin hop) rfl rfl
  | @compare l n op lhs rhs hop hl hlhs hrhs ihlhs ihrhs =>
    refine .binary hop hl (hlhs.loosen (Nat.le_succ n)) hrhs (ihlhs.loosen (Nat.le_succ n)) ihrhs rfl
      (level?_bin hop) rfl ?_
    refine if_neg fun hcompares => ?_
    have hlevel := hlhs.le_level n (level?_of_comparesAt hcompares)
    omega
  | @chain l n op lhs rhs hop hl hcompares hlhs hrhs ihlhs ihrhs =>
    refine .binary hop hl hlhs hrhs ihlhs ihrhs rfl (by rw [Vocabulary.level?, hop]; rfl) rfl ?_
    exact if_pos hcompares

/-- A phrase is read from its tokens. -/
theorem read_tokens (h : g.Phrase 0 t) : g.read t.tokens = some t := by
  have hread : g.term (t.tokens.length + 1) 0 (t.tokens ++ []) = some (t, []) :=
    h.reads.last .nil (fun k hk => by cases hk) (by simp)
  rw [List.append_nil] at hread
  rw [read, hread]

/-- No two phrases have the same tokens. -/
theorem Phrase.eq_of_tokens {t' : Term} (h : g.Phrase 0 t) (h' : g.Phrase 0 t')
    (htokens : t.tokens = t'.tokens) : t = t' := by
  have hread := read_tokens h
  rw [htokens, read_tokens h'] at hread
  exact (Option.some.inj hread).symm

/-- An expression that is a phrase stands where its own operator binds tightly enough. -/
theorem phrase_iff : g.Phrase l t ↔ g.Phrase 0 t ∧ ∀ n ∈ g.level? t, l ≤ n := by
  refine ⟨fun h => ⟨h.loosen (Nat.zero_le l), h.le_level⟩, fun ⟨h, hl⟩ => ?_⟩
  cases h with
  | leaf h => exact .leaf h
  | group h => exact .group h
  | member hoperand h hname => exact .member hoperand h hname
  | call hoperand hcallee hargument => exact .call hoperand hcallee hargument
  | pre hop _ h => exact .pre hop (hl _ hop) h
  | left hop _ hlhs hrhs => exact .left hop (hl _ (level?_bin hop)) hlhs hrhs
  | compare hop _ hlhs hrhs => exact .compare hop (hl _ (level?_bin hop)) hlhs hrhs
  | chain hop _ hcompares hlhs hrhs =>
    exact .chain hop (hl _ (by rw [Vocabulary.level?, hop]; rfl)) hcompares hlhs hrhs

theorem phrase_leaf {x : Leaf} : g.Phrase l (.leaf x) ↔ g.leaf? x.tok = some x :=
  ⟨fun h => by cases h; assumption, .leaf⟩

theorem leaf?_name {w : String} :
    g.leaf? (.mark (.word w)) = some (.name w) ↔ w ∉ g.reserved := by
  by_cases hconstant : w ∈ g.constants
  · simp [Vocabulary.leaf?, hconstant, g.constants_reserved w hconstant]
  · by_cases hreserved : w ∈ g.reserved <;> simp [Vocabulary.leaf?, hconstant, hreserved]

theorem phrase_name {w : String} : g.Phrase l (.leaf (.name w)) ↔ w ∉ g.reserved :=
  phrase_leaf.trans leaf?_name

theorem phrase_group : g.Phrase l (.group t) ↔ g.Phrase 0 t :=
  ⟨fun h => by cases h; assumption, .group⟩

theorem phrase_member {name : String} :
    g.Phrase l (.member t name) ↔ t.isOperand = true ∧ g.Phrase 0 t ∧ name ∉ g.reserved :=
  ⟨fun h => by cases h; exact ⟨‹_›, ‹_›, ‹_›⟩, fun ⟨hoperand, h, hname⟩ => .member hoperand h hname⟩

theorem phrase_call {callee argument : Term} : g.Phrase l (.call callee argument) ↔
    callee.isOperand = true ∧ g.Phrase 0 callee ∧ g.Phrase 0 argument :=
  ⟨fun h => by cases h; exact ⟨‹_›, ‹_›, ‹_›⟩,
    fun ⟨hoperand, hcallee, hargument⟩ => .call hoperand hcallee hargument⟩

theorem phrase_pre (hop : g.before.lookup op = some n) :
    g.Phrase l (.pre op t) ↔ l ≤ n ∧ g.Phrase n t := by
  refine ⟨fun h => ?_, fun ⟨hl, h⟩ => .pre hop hl h⟩
  cases h with
  | pre hop' hl h =>
    cases hop.symm.trans hop'
    exact ⟨hl, h⟩

/-- The level where the left operand of an operator stands. -/
def leftLevel (n : Nat) : Joining → Nat
  | .left => n
  | .chained => n + 1

theorem phrase_bin {joining : Joining} (hop : g.between.lookup op = some (n, joining)) :
    g.Phrase l (.bin op lhs rhs) ↔
      l ≤ n ∧ g.Phrase (leftLevel n joining) lhs ∧ g.Phrase (n + 1) rhs := by
  constructor
  · intro h
    cases h with
    | left hop' hl hlhs hrhs | compare hop' hl hlhs hrhs =>
      cases hop.symm.trans hop'
      exact ⟨hl, hlhs, hrhs⟩
  · rintro ⟨hl, hlhs, hrhs⟩
    cases joining with
    | left => exact .left hop hl hlhs hrhs
    | chained => exact .compare hop hl hlhs hrhs

/-- A phrase starts with a parenthesis, a leaf or an operator in front. -/
theorem Phrase.starts (h : g.Phrase l t) :
    ∃ k ks, t.tokens = k :: ks ∧
      (k = .opening ∨ (g.leaf? k).isSome ∨ ∃ op, k = .mark op ∧ (g.before.lookup op).isSome) := by
  induction h with
  | @leaf l x h => exact ⟨_, [], rfl, .inr (.inl (Option.isSome_iff_exists.2 ⟨x, h⟩))⟩
  | group h ih => exact ⟨_, _, rfl, .inl rfl⟩
  | @pre l n op t hop hl h ih =>
    exact ⟨_, _, rfl, .inr (.inr ⟨op, rfl, Option.isSome_iff_exists.2 ⟨n, hop⟩⟩)⟩
  | member _ _ _ ih | call _ _ _ ih _ | left _ _ _ _ ih _ | compare _ _ _ _ ih _
  | chain _ _ _ _ _ ih _ =>
    obtain ⟨k, ks, htokens, hk⟩ := ih
    exact ⟨k, ks ++ _, by rw [Term.tokens, htokens, List.cons_append], hk⟩

/-! ### Parentheses and paths -/

/-- The expression is in parentheses or stands at the level as it is. -/
def Keeps (g : Grammar) (l : Nat) (needed : Bool) (t : Term) : Prop :=
  g.Phrase 0 t ∧ (needed = false → ∀ n ∈ g.level? t, l ≤ n)

theorem phrase_grouped {needed : Bool} : g.Phrase l (t.grouped needed) ↔ g.Keeps l needed t := by
  cases needed with
  | false => simpa [Term.grouped, Keeps] using phrase_iff
  | true => simpa [Term.grouped, Keeps] using phrase_group

theorem phrase_pre_grouped {needed : Bool} (hop : g.before.lookup op = some n) :
    g.Phrase 0 (.pre op (t.grouped needed)) ↔ g.Keeps n needed t := by
  rw [phrase_pre hop, phrase_grouped]
  exact and_iff_right (Nat.zero_le n)

theorem phrase_bin_grouped {joining : Joining} {left right : Bool}
    (hop : g.between.lookup op = some (n, joining)) :
    g.Phrase 0 (.bin op (lhs.grouped left) (rhs.grouped right)) ↔
      g.Keeps (leftLevel n joining) left lhs ∧ g.Keeps (n + 1) right rhs := by
  rw [phrase_bin hop, phrase_grouped, phrase_grouped]
  exact and_iff_right (Nat.zero_le n)

theorem level?_of_isOperand (h : t.isOperand = true) : g.level? t = none := by
  cases t <;> first | rfl | cases h

theorem phrase_path {first : String} {names : List String} :
    g.Phrase l (.path first names) ↔ first ∉ g.reserved ∧ ∀ w ∈ names, w ∉ g.reserved := by
  have hmembers : ∀ t : Term, t.isOperand = true → (g.Phrase l (names.foldl .member t) ↔
      g.Phrase l t ∧ ∀ w ∈ names, w ∉ g.reserved) := by
    induction names with
    | nil => simp
    | cons w names ih =>
      intro t ht
      have hlevel : g.Phrase l t ↔ g.Phrase 0 t := by
        rw [phrase_iff, level?_of_isOperand ht]
        simp
      rw [List.foldl_cons, ih _ rfl, phrase_member, List.forall_mem_cons, hlevel]
      tauto
  rw [Term.path, hmembers _ rfl, phrase_name]

end Grammar

end Scaffold.Target
