import Scaffold.Proofs.Target.CFamily

/-!
# Printed arguments in Java and C++

Printing several values becomes one expression in which an operator joins the texts of the arguments:
`+` in Java and `<<` in C++. The texts are put together as they are, so an argument whose own
operator does not bind more tightly than the joining one is taken apart.

* `java`, `cpp`: the two languages.
* `Java.chain`, `Cpp.chain`: what the expression has to denote.
* `print_denotes_iff`: it denotes that exactly if every argument binds tightly enough; the first one
  in Java always does.
* `doubled_minus_not_denotes`: a minus sign in front of a minus sign becomes another sign.
-/

namespace Scaffold.Target

open Model (Expr)
open Lexicon (isWord)
open Scaffold.Language (escape?_escapes mem_escapes_of_lineEnd)

/-! ## The languages -/

/-- A literal text is read back where literals have the common escapes and end at line ends. -/
theorem body_escapedChars (s rest : List Char) :
    Language.cpp.quoting.body (escapedChars s ++ '"' :: rest) = some (s, rest) :=
  (Quoting.body_escape_iff (.of_const rfl escape?_escapes rfl) s).2
    (Language.plain_of_barred rfl mem_escapes_of_lineEnd s)

namespace Java

/-- The words of Java that are no names. -/
def reserved : List String :=
  ["_", "abstract", "assert", "boolean", "break", "byte", "case", "catch", "char", "class", "const",
    "continue", "default", "do", "double", "else", "enum", "extends", "false", "final", "finally",
    "float", "for", "goto", "if", "implements", "import", "instanceof", "int", "interface", "long",
    "native", "new", "null", "package", "private", "protected", "public", "return", "short",
    "static", "strictfp", "super", "switch", "synchronized", "this", "throw", "throws", "transient",
    "true", "try", "void", "volatile", "while"]

/-- The signs of Java. -/
def lexicon : Lexicon where
  quoting := (Language.java none).quoting
  path := "."
  signs :=
    [">>>=", "<<=", ">>=", ">>>", "...", "->", "==", ">=", "<=", "!=", "&&", "||", "++", "--", "<<",
      ">>", "+=", "-=", "*=", "/=", "&=", "|=", "^=", "%=", "::", "=", ">", "<", "!", "~", "?", ":",
      "+", "-", "*", "/", "&", "|", "^", "%", "[", "]", ";", ",", ".", "@"]
  signs_apart := by decide +kernel

end Java

namespace Cpp

/-- The words of C++ that are no names. -/
def reserved : List String :=
  ["alignas", "alignof", "and", "and_eq", "asm", "auto", "bitand", "bitor", "bool", "break", "case",
    "catch", "char", "char16_t", "char32_t", "char8_t", "class", "co_await", "co_return",
    "co_yield", "compl", "concept", "const", "const_cast", "consteval", "constexpr", "constinit",
    "continue", "decltype", "default", "delete", "do", "double", "dynamic_cast", "else", "enum",
    "explicit", "export", "extern", "false", "float", "for", "friend", "goto", "if", "inline",
    "int", "long", "mutable", "namespace", "new", "noexcept", "not", "not_eq", "nullptr",
    "operator", "or", "or_eq", "private", "protected", "public", "register", "reinterpret_cast",
    "requires", "return", "short", "signed", "sizeof", "static", "static_assert", "static_cast",
    "struct", "switch", "template", "this", "thread_local", "throw", "true", "try", "typedef",
    "typeid", "typename", "union", "unsigned", "using", "virtual", "void", "volatile", "wchar_t",
    "while", "xor", "xor_eq"]

/-- The signs of C++. -/
def lexicon : Lexicon where
  quoting := Language.cpp.quoting
  path := "::"
  signs :=
    ["<=>", "<<=", ">>=", "->*", "...", "->", ".*", "==", "!=", "<=", ">=", "&&", "||", "<<", ">>",
      "++", "--", "+=", "-=", "*=", "/=", "%=", "^=", "&=", "|=", "::", "<:", ":>", "<%", "%>", "%:",
      "~", "!", "+", "-", "*", "/", "%", "^", "&", "|", "=", "<", ">", "?", ":", ".", ",", ";", "[",
      "]"]
  signs_apart := by decide +kernel

end Cpp

/-- Java, with free functions in the given class. -/
def java (functions : Option String) : CLanguage where
  dialect := Java.dialect functions
  lexicon := Java.lexicon
  reserved := Java.reserved
  null := "null"
  first name
    | .constant => Java.constantsClass
    | .procedure => functions.getD name
    | .dataAccess | .service | .client => Naming.camel name
    | _ => name
  names name
    | .constant => [name]
    | .procedure => functions.toList.map fun _ => name
    | _ => []
  wrapper? := none
  values_reserved := by decide
  null_isWord := by decide
  dialect_quote _ := rfl
  dialect_null := rfl
  dialect_bool _ := rfl
  dialect_unarySign op := by cases op <;> rfl
  dialect_binary _ _ _ := rfl
  dialect_name name kind := by
    cases kind with
    | constant =>
      change Java.constantsClass ++ "." ++ name = Java.constantsClass ++ String.join ["." ++ name]
      simp [String.append_assoc]
    | procedure =>
      cases functions <;> simp [Java.dialect, Java.nameIn, Java.lexicon, String.append_assoc]
    | _ => exact String.append_empty.symm
  wrapper_isWord _ h := by cases h
  quote := rfl
  reads := body_escapedChars
  isSign := by decide
  path_apart := by decide
  stops := by decide

/-- C++. -/
def cpp : CLanguage where
  dialect := Cpp.dialect
  lexicon := Cpp.lexicon
  reserved := Cpp.reserved
  null := "nullptr"
  first name kind := if kind == .dataAccess then Naming.camel name ++ "_" else name
  names _ _ := []
  wrapper? := some ⟨"std", ["string"]⟩
  values_reserved := by decide
  null_isWord := by decide
  dialect_quote _ := rfl
  dialect_null := rfl
  dialect_bool _ := rfl
  dialect_unarySign op := by cases op <;> rfl
  dialect_binary op lhs rhs := by
    simp only [Cpp.dialect, Cpp.binary]
    split
    · rename_i h
      obtain ⟨rfl, -⟩ : op = .add ∧ Text.startsWith "\"" lhs = true := by simpa using h
      change "std::string(" ++ lhs ++ ") + " ++ rhs =
        "std" ++ String.join ["::" ++ "string"] ++ "(" ++ lhs ++ ")" ++ " " ++ "+" ++ " " ++ rhs
      rw [← String.toList_inj]
      simp
    · rfl
  dialect_name _ _ := String.append_empty.symm
  wrapper_isWord t h := by
    cases h
    decide
  quote := rfl
  reads := body_escapedChars
  isSign := by decide
  path_apart := by decide
  stops := by decide

/-! ## Joined operands -/

/-- Operands that an operator joins from the left, with a space between each two. -/
def joined (op : Mark) (first : Term) (rest : List Term) : Term :=
  rest.foldl (fun t a => .bin op (.bin op t (.leaf (.text " "))) a) first

theorem bare_joined (op : Mark) (first : Term) (rest : List Term) :
    (joined op first rest).bare = joined op first.bare (rest.map Term.bare) := by
  induction rest generalizing first with
  | nil => rfl
  | cons a rest ih => exact ih _

/-- Operands that are joined from the left are a phrase exactly if all of them bind tightly
enough. -/
theorem Grammar.phrase_joined {g : Grammar} {op : Mark} {l n : Nat} {first : Term}
    {rest : List Term} (hop : g.between.lookup op = some (n, .left)) (hl : l ≤ n)
    (hfirst : ∀ m ∈ g.level? first, n ≤ m) :
    g.Phrase l (joined op first rest) ↔ g.Phrase l first ∧ ∀ a ∈ rest, g.Phrase (n + 1) a := by
  induction rest generalizing first with
  | nil => simp [joined]
  | cons a rest ih =>
    have hlevel : g.Phrase n first ↔ g.Phrase l first := by
      rw [phrase_iff, phrase_iff (l := l)]
      exact and_congr_right' (iff_of_true hfirst fun m hm => hl.trans (hfirst m hm))
    have hspace : g.Phrase (n + 1) (.leaf (.text " ")) := .leaf rfl
    have hstep : g.Phrase l (.bin op (.bin op first (.leaf (.text " "))) a) ↔
        g.Phrase l first ∧ g.Phrase (n + 1) a := by
      rw [phrase_bin hop, leftLevel, phrase_bin hop, leftLevel, hlevel]
      simp [hl, hspace]
    rw [List.forall_mem_cons, ← and_assoc, ← hstep]
    exact ih fun m hm => (Option.some.inj ((level?_bin hop).symm.trans hm)).le

namespace CLanguage

variable {c : CLanguage}

/-- The texts of the operands, with the operator and a space between each two. -/
def joinedText (op first : String) (rest : List String) : String :=
  first ++ String.join (rest.map fun a => " " ++ op ++ " \" \" " ++ op ++ " " ++ a)

theorem written_joined {op first : String} {t : Term} (hop : c.lexicon.Spells op (.sign op))
    (hfirst : c.lexicon.Written first t) {rest : List Expr}
    (hrest : ∀ e ∈ rest, e.Every c.isOperation) :
    c.lexicon.Written (joinedText op first (c.dialect.exprs rest))
      (joined (.sign op) t (rest.map c.wording.concrete)) := by
  induction rest generalizing first t with
  | nil => simpa [joinedText, joined, Dialect.exprs] using hfirst
  | cons e rest ih =>
    obtain ⟨he, hrest⟩ := List.forall_mem_cons.1 hrest
    have hspace : c.lexicon.Written "\" \"" (.leaf (.text " ")) :=
      .literal c.quote (c.reads " ".toList)
    have htext : joinedText op first (c.dialect.exprs (e :: rest)) = joinedText op
        (first ++ " " ++ op ++ " " ++ "\" \"" ++ " " ++ op ++ " " ++ c.dialect.expr e)
        (c.dialect.exprs rest) := by
      rw [← String.toList_inj]
      simp [joinedText, Dialect.exprs]
    rw [htext]
    exact ih ((hfirst.binary hop hspace).binary hop (fits.written_expr e he)) hrest

/-- The argument stays whole beside an operator of the level. -/
def staysWhole (n : Nat) : Expr → Bool
  | .binary op _ _ => n < cLevel op
  | _ => true

theorem phrase_argument {n : Nat} (hn : n < cUnaryLevel) {e : Expr} (he : e.Every c.isOperation) :
    c.grammar.Phrase (n + 1) (c.wording.concrete e) ↔ e.Every c.isFree ∧ staysWhole n e = true := by
  rw [Grammar.phrase_iff, phrase_concrete e he]
  refine and_congr_right' ⟨fun h => ?_, fun h m hm => ?_⟩
  · cases e with
    | binary op lhs rhs => exact decide_eq_true (h _ (level?_concrete_binary op lhs rhs))
    | _ => rfl
  · rw [level?_concrete e m hm]
    cases e with
    | binary op lhs rhs => exact of_decide_eq_true h
    | _ => exact hn

/-- The joined operands follow the grammar exactly if all names are free and all arguments stay
whole. -/
theorem phrase_arguments {l n : Nat} {op : Mark} {t : Term} {rest : List Expr}
    (hop : c.grammar.between.lookup op = some (n, .left)) (hn : n < cUnaryLevel) (hl : l ≤ n)
    (hlevel : ∀ m ∈ c.grammar.level? t, n ≤ m) (hrest : ∀ e ∈ rest, e.Every c.isOperation) :
    c.grammar.Phrase l (joined op t (rest.map c.wording.concrete)) ↔
      c.grammar.Phrase l t ∧ ∀ e ∈ rest, e.Every c.isFree ∧ staysWhole n e = true := by
  rw [Grammar.phrase_joined hop hl hlevel, List.forall_mem_map]
  exact and_congr_right' (forall₂_congr fun e he => phrase_argument hn (hrest e he))

end CLanguage

/-! ## What printing denotes -/

def printed (args : List Expr) : Expr :=
  .native ["console", "log"] args

/-- Printed operands in Java: the first one is made a text, and all are joined by sums. -/
def Java.chain (first : Term) (rest : List Term) : Term :=
  .call (.path "System" ["out", "println"])
    (joined (.sign "+") (.call (.path "String" ["valueOf"]) first) rest)

/-- Printed operands in C++: all are shifted into the output, and the end of the line behind them. -/
def Cpp.chain (first : Term) (rest : List Term) : Term :=
  .bin (.sign "<<") (joined (.sign "<<") (.bin (.sign "<<") (.path "std" ["cout"]) first) rest)
    (.path "std" ["endl"])

open CLanguage

/-- A condition for the first and the other arguments. -/
theorem and_forall_cons {p q : Expr → Prop} {e : Expr} {rest : List Expr} :
    ((p e ∧ ∀ x ∈ rest, p x ∧ q x) ↔ (∀ x ∈ e :: rest, p x) ∧ ∀ x ∈ rest, q x) := by
  rw [List.forall_mem_cons, forall₂_and, and_assoc]

/-- Texts with the same text between each two. -/
theorem joinWith_eq_append (sep s : String) (rest : List String) :
    Text.joinWith sep (s :: rest) = s ++ String.join (rest.map (sep ++ ·)) := by
  induction rest generalizing s with
  | nil => exact String.append_empty.symm
  | cons s' rest ih =>
    have hsep : Text.joinWith sep (s :: s' :: rest) = s ++ sep ++ Text.joinWith sep (s' :: rest) :=
      rfl
    rw [hsep, ih, List.map_cons, String.join_cons]
    simp only [String.append_assoc]

theorem Java.print_cons_cons (first second : String) (rest : List String) :
    print (first :: second :: rest) = "System.out.println" ++ "(" ++
      joinedText "+" ("String.valueOf" ++ "(" ++ first ++ ")") (second :: rest) ++ ")" := by
  unfold print joinedText
  rw [← String.toList_inj]
  dsimp only [toString]
  simp only [String.toList_append, String.toList_join, List.flatMap_map]
  simp

theorem Cpp.print_cons (first : String) (rest : List String) :
    print (first :: rest) = joinedText "<<" ("std::cout" ++ " " ++ "<<" ++ " " ++ first) rest ++
      " " ++ "<<" ++ " " ++ "std::endl" := by
  have hprint : print (first :: rest) =
      "std::cout << " ++ Text.joinWith " << \" \" << " (first :: rest) ++ " << std::endl" := rfl
  rw [hprint, joinWith_eq_append, joinedText, ← String.toList_inj]
  simp

theorem written_java (functions : Option String) {first second : Expr} {rest : List Expr}
    (hargs : ∀ e ∈ first :: second :: rest, e.Every (java functions).isOperation) :
    Java.lexicon.Written ((java functions).dialect.expr (printed (first :: second :: rest)))
      (Java.chain ((java functions).wording.concrete first)
        ((second :: rest).map (java functions).wording.concrete)) := by
  obtain ⟨hfirst, hrest⟩ := List.forall_mem_cons.1 hargs
  have hprintln : Java.lexicon.Written "System.out.println" (.path "System" ["out", "println"]) :=
    @written_path (java functions) "System" ["out", "println"] (by decide)
  have hvalueOf : Java.lexicon.Written "String.valueOf" (.path "String" ["valueOf"]) :=
    @written_path (java functions) "String" ["valueOf"] (by decide)
  have hplus : Java.lexicon.Spells "+" (.sign "+") := Lexicon.spells_sign (by decide) (by decide)
  have hsum := written_joined hplus (hvalueOf.call rfl (fits.written_expr first hfirst)) hrest
  have htext : (java functions).dialect.expr (printed (first :: second :: rest)) =
      "System.out.println" ++ "(" ++ joinedText "+"
        ("String.valueOf" ++ "(" ++ (java functions).dialect.expr first ++ ")")
        ((java functions).dialect.exprs (second :: rest)) ++ ")" :=
    Java.print_cons_cons _ _ _
  rw [htext]
  exact hprintln.call rfl hsum

theorem written_cpp {first : Expr} {rest : List Expr}
    (hargs : ∀ e ∈ first :: rest, e.Every cpp.isOperation) :
    Cpp.lexicon.Written (cpp.dialect.expr (printed (first :: rest)))
      (Cpp.chain (cpp.wording.concrete first) (rest.map cpp.wording.concrete)) := by
  obtain ⟨hfirst, hrest⟩ := List.forall_mem_cons.1 hargs
  have hcout : Cpp.lexicon.Written "std::cout" (.path "std" ["cout"]) :=
    @written_path cpp "std" ["cout"] (by decide)
  have hendl : Cpp.lexicon.Written "std::endl" (.path "std" ["endl"]) :=
    @written_path cpp "std" ["endl"] (by decide)
  have hshift : Cpp.lexicon.Spells "<<" (.sign "<<") := Lexicon.spells_sign (by decide) (by decide)
  have hout := written_joined hshift (hcout.binary hshift (fits.written_expr first hfirst)) hrest
  have htext : cpp.dialect.expr (printed (first :: rest)) =
      joinedText "<<" ("std::cout" ++ " " ++ "<<" ++ " " ++ cpp.dialect.expr first)
        (cpp.dialect.exprs rest) ++ " " ++ "<<" ++ " " ++ "std::endl" :=
    Cpp.print_cons _ _
  rw [htext]
  exact hout.binary hshift hendl

theorem bare_arguments (c : CLanguage) (args : List Expr) :
    (args.map c.wording.concrete).map Term.bare = args.map c.wording.tree := by
  rw [List.map_map]
  exact List.map_congr_left fun e _ => c.wording.bare_concrete e

theorem bare_java (c : CLanguage) (first : Expr) (rest : List Expr) :
    (Java.chain (c.wording.concrete first) (rest.map c.wording.concrete)).bare =
      Java.chain (c.wording.tree first) (rest.map c.wording.tree) := by
  simp only [Java.chain, Term.bare, Term.bare_path, bare_joined, bare_arguments,
    Wording.bare_concrete]

theorem bare_cpp (c : CLanguage) (first : Expr) (rest : List Expr) :
    (Cpp.chain (c.wording.concrete first) (rest.map c.wording.concrete)).bare =
      Cpp.chain (c.wording.tree first) (rest.map c.wording.tree) := by
  simp only [Cpp.chain, Term.bare, Term.bare_path, bare_joined, bare_arguments,
    Wording.bare_concrete]

/-- In Java, sums take apart what binds no tighter; the first argument is inside a call. -/
theorem denotes_java (functions : Option String) {first second : Expr} {rest : List Expr}
    (hargs : ∀ e ∈ first :: second :: rest, e.Every (java functions).isOperation) :
    (java functions).rules.Denotes
        ((java functions).dialect.expr (printed (first :: second :: rest)))
        (Java.chain ((java functions).wording.tree first)
          ((second :: rest).map (java functions).wording.tree)) ↔
      (∀ e ∈ first :: second :: rest, e.Every (java functions).isFree) ∧
        ∀ e ∈ second :: rest, staysWhole (cLevel .add) e = true := by
  obtain ⟨hfirst, hrest⟩ := List.forall_mem_cons.1 hargs
  have hprintln : (java functions).grammar.Phrase 0 (.path "System" ["out", "println"]) :=
    Grammar.phrase_path.2 ⟨(by decide : "System" ∉ Java.reserved),
      (by decide : ∀ w ∈ ["out", "println"], w ∉ Java.reserved)⟩
  have hvalueOf : (java functions).grammar.Phrase 0 (.path "String" ["valueOf"]) :=
    Grammar.phrase_path.2 ⟨(by decide : "String" ∉ Java.reserved),
      (by decide : ∀ w ∈ ["valueOf"], w ∉ Java.reserved)⟩
  have hstart : (java functions).grammar.Phrase 0
      (.call (.path "String" ["valueOf"]) ((java functions).wording.concrete first)) ↔
        first.Every (java functions).isFree := by
    rw [Grammar.phrase_call, phrase_concrete first hfirst]
    exact ⟨fun h => h.2.2, fun h => ⟨Term.isOperand_path _, hvalueOf, h⟩⟩
  rw [← and_forall_cons, ← hstart, ← phrase_arguments (lookup_cBetween .add) (by decide)
    (Nat.zero_le _) (fun _ h => by cases h) hrest]
  refine (ExprRules.denotes_iff (written_java functions hargs) (bare_java _ _ _)).trans ?_
  exact Grammar.phrase_call.trans
    ⟨fun h => h.2.2, fun h => ⟨Term.isOperand_path _, hprintln, h⟩⟩

/-- In C++, the shifts take apart what binds no tighter. -/
theorem denotes_cpp {first : Expr} {rest : List Expr}
    (hargs : ∀ e ∈ first :: rest, e.Every cpp.isOperation) :
    cpp.rules.Denotes (cpp.dialect.expr (printed (first :: rest)))
        (Cpp.chain (cpp.wording.tree first) (rest.map cpp.wording.tree)) ↔
      (∀ e ∈ first :: rest, e.Every cpp.isFree) ∧
        ∀ e ∈ first :: rest, staysWhole shiftLevel e = true := by
  obtain ⟨hfirst, hrest⟩ := List.forall_mem_cons.1 hargs
  have hshift : cpp.grammar.between.lookup (.sign "<<") = some (shiftLevel, .left) := by decide
  have hcout : cpp.grammar.Phrase shiftLevel (.path "std" ["cout"]) :=
    Grammar.phrase_path.2 (by decide)
  have hendl : cpp.grammar.Phrase (shiftLevel + 1) (.path "std" ["endl"]) :=
    Grammar.phrase_path.2 (by decide)
  have hstart : cpp.grammar.Phrase shiftLevel
      (.bin (.sign "<<") (.path "std" ["cout"]) (cpp.wording.concrete first)) ↔
        first.Every cpp.isFree ∧ staysWhole shiftLevel first = true := by
    rw [Grammar.phrase_bin hshift, ← phrase_argument (by decide) hfirst]
    exact ⟨fun h => h.2.2, fun h => ⟨Nat.le_refl _, hcout, h⟩⟩
  rw [← forall₂_and, List.forall_mem_cons, ← hstart,
    ← phrase_arguments hshift (by decide) (Nat.le_refl _)
      (fun _ hm => (Option.some.inj ((Grammar.level?_bin hshift).symm.trans hm)).le) hrest]
  refine (ExprRules.denotes_iff (written_cpp hargs) (bare_cpp _ _ _)).trans ?_
  exact (Grammar.phrase_bin hshift).trans
    ⟨fun h => h.2.1, fun h => ⟨Nat.zero_le _, h, hendl⟩⟩

/-- Printing two or more values denotes the arguments with spaces between them exactly if no name
inside is reserved and every argument stays whole: in Java beside sums, where the first one always
does, and in C++ beside shifts. -/
theorem print_denotes_iff (functions : Option String) (first second : Expr) (rest : List Expr) :
    ((∀ e ∈ first :: second :: rest, e.Every (java functions).isOperation) →
      ((java functions).rules.Denotes
          ((java functions).dialect.expr (printed (first :: second :: rest)))
          (Java.chain ((java functions).wording.tree first)
            ((second :: rest).map (java functions).wording.tree)) ↔
        (∀ e ∈ first :: second :: rest, e.Every (java functions).isFree) ∧
          ∀ e ∈ second :: rest, staysWhole (cLevel .add) e = true)) ∧
    ((∀ e ∈ first :: second :: rest, e.Every cpp.isOperation) →
      (cpp.rules.Denotes (cpp.dialect.expr (printed (first :: second :: rest)))
          (Cpp.chain (cpp.wording.tree first) ((second :: rest).map cpp.wording.tree)) ↔
        (∀ e ∈ first :: second :: rest, e.Every cpp.isFree) ∧
          ∀ e ∈ first :: second :: rest, staysWhole shiftLevel e = true)) :=
  ⟨denotes_java functions, denotes_cpp⟩

/-- Arguments that stay whole in both languages. -/
def wholeArguments : List Expr :=
  [.binary .add (.literal (.str "a")) (.name "x" .local),
    .binary .mul (.unary .neg (.name "x" .local)) (.literal (.int 2)),
    .unary .not (.binary .lt (.name "x" .local) (.name "y" .param))]

theorem print_denotes_whole :
    (∀ e ∈ wholeArguments, e.Every (java none).isOperation) ∧
    (∀ e ∈ wholeArguments, e.Every cpp.isOperation) ∧
    (java none).dialect.expr (printed wholeArguments) =
      "System.out.println(String.valueOf(\"a\" + x) + \" \" + -x * 2 + \" \" + !(x < y))" ∧
    cpp.dialect.expr (printed wholeArguments) =
      "std::cout << std::string(\"a\") + x << \" \" << -x * 2 << \" \" << !(x < y) << std::endl" ∧
    (java none).rules.Denotes ((java none).dialect.expr (printed wholeArguments))
      (Java.chain ((java none).wording.tree (wholeArguments.head (by decide)))
        (wholeArguments.tail.map (java none).wording.tree)) ∧
    cpp.rules.Denotes (cpp.dialect.expr (printed wholeArguments))
      (Cpp.chain (cpp.wording.tree (wholeArguments.head (by decide)))
        (wholeArguments.tail.map cpp.wording.tree)) := by
  have hjava : ∀ e ∈ wholeArguments, ∀ x ∈ e.all, (java none).isOperation x = true := by
    decide +kernel
  have hcpp : ∀ e ∈ wholeArguments, ∀ x ∈ e.all, cpp.isOperation x = true := by decide +kernel
  have hfree : ∀ e ∈ wholeArguments, ∀ x ∈ e.all,
      (java none).isFree x = true ∧ cpp.isFree x = true := by decide +kernel
  refine ⟨hjava, hcpp, by decide +kernel, by decide +kernel, ?_, ?_⟩
  · exact ((print_denotes_iff none _ _ _).1 hjava).2
      ⟨fun e he x hx => (hfree e he x hx).1, by decide⟩
  · exact ((print_denotes_iff none _ _ _).2 hcpp).2
      ⟨fun e he x hx => (hfree e he x hx).2, by decide⟩

/-- A name and what an operator makes of it. -/
def operated (op : BinaryOp) : List Expr :=
  [.name "a" .local, .binary op (.name "a" .local) (.name "b" .local)]

/-- A name of `operated`. -/
def operand (w : String) : Term :=
  .leaf (.name w)

/-- What is read of a printed sum in Java. -/
def Java.sum : Term :=
  .call (.path "System" ["out", "println"]) (.bin (.sign "+")
    (joined (.sign "+") (.call (.path "String" ["valueOf"]) (operand "a")) [operand "a"])
    (operand "b"))

/-- What is read of a printed comparison in C++. -/
def Cpp.comparison : Term :=
  .bin (.sign "<")
    (joined (.sign "<<") (.bin (.sign "<<") (.path "std" ["cout"]) (operand "a")) [operand "a"])
    (.bin (.sign "<<") (operand "b") (.path "std" ["endl"]))

theorem Java.phrase_sum : (java none).grammar.Phrase 0 sum := by
  have hplus : (java none).grammar.between.lookup (.sign "+") = some (cLevel .add, .left) :=
    lookup_cBetween .add
  have hname : ∀ w ∈ ["a", "b"], ∀ l, (java none).grammar.Phrase l (operand w) := fun w hw _ =>
    Grammar.phrase_name.2 ((by decide : ∀ w ∈ ["a", "b"], w ∉ reserved) w hw)
  have hvalueOf : (java none).grammar.Phrase (cLevel .add)
      (.call (.path "String" ["valueOf"]) (operand "a")) :=
    .call rfl (Grammar.phrase_path.2 (by decide)) (hname "a" (by decide) _)
  have hjoined : (java none).grammar.Phrase (cLevel .add)
      (joined (.sign "+") (.call (.path "String" ["valueOf"]) (operand "a")) [operand "a"]) :=
    (Grammar.phrase_joined hplus (Nat.le_refl _) (fun _ h => by cases h)).2
      ⟨hvalueOf, List.forall_mem_singleton.2 (hname "a" (by decide) _)⟩
  refine .call rfl (Grammar.phrase_path.2 (by decide)) ?_
  exact .left hplus (Nat.zero_le _) hjoined (hname "b" (by decide) _)

theorem Cpp.phrase_comparison : cpp.grammar.Phrase 0 comparison := by
  have hshift : cpp.grammar.between.lookup (.sign "<<") = some (shiftLevel, .left) := by decide
  have hname : ∀ w ∈ ["a", "b"], ∀ l, cpp.grammar.Phrase l (operand w) := fun w hw _ =>
    Grammar.phrase_name.2 ((by decide : ∀ w ∈ ["a", "b"], w ∉ reserved) w hw)
  have hcout : cpp.grammar.Phrase shiftLevel
      (.bin (.sign "<<") (.path "std" ["cout"]) (operand "a")) :=
    .left hshift (Nat.le_refl _) (Grammar.phrase_path.2 (by decide)) (hname "a" (by decide) _)
  have hjoined : cpp.grammar.Phrase (cLevel .lt)
      (joined (.sign "<<") (.bin (.sign "<<") (.path "std" ["cout"]) (operand "a")) [operand "a"]) :=
    .left hshift (by decide) (.left hshift (Nat.le_refl _) hcout (.leaf rfl))
      (hname "a" (by decide) _)
  have hendl : cpp.grammar.Phrase (cLevel .lt + 1)
      (.bin (.sign "<<") (operand "b") (.path "std" ["endl"])) :=
    .left hshift (by decide) (hname "b" (by decide) _) (Grammar.phrase_path.2 (by decide))
  exact .left (lookup_cBetween .lt) (Nat.zero_le _) hjoined hendl

/-- A sum that is printed in Java becomes a part of the sum of all arguments, and a comparison that is
printed in C++ compares what is shifted in front of it with what is shifted behind. -/
theorem printed_not_denotes :
    (∀ e ∈ operated .add, e.Every (java none).isOperation) ∧
    (java none).dialect.expr (printed (operated .add)) =
      "System.out.println(String.valueOf(a) + \" \" + a + b)" ∧
    (java none).rules.Denotes ((java none).dialect.expr (printed (operated .add))) Java.sum ∧
    ¬(java none).rules.Denotes ((java none).dialect.expr (printed (operated .add)))
      (Java.chain (operand "a") [.bin (.sign "+") (operand "a") (operand "b")]) ∧
    (∀ e ∈ operated .lt, e.Every cpp.isOperation) ∧
    cpp.dialect.expr (printed (operated .lt)) =
      "std::cout << a << \" \" << a < b << std::endl" ∧
    cpp.rules.Denotes (cpp.dialect.expr (printed (operated .lt))) Cpp.comparison ∧
    ¬cpp.rules.Denotes (cpp.dialect.expr (printed (operated .lt)))
      (Cpp.chain (operand "a") [.bin (.sign "<") (operand "a") (operand "b")]) := by
  have hsum : ∀ e ∈ operated .add, ∀ x ∈ e.all, (java none).isOperation x = true := by
    decide +kernel
  have hcomparison : ∀ e ∈ operated .lt, ∀ x ∈ e.all, cpp.isOperation x = true := by
    decide +kernel
  have hjava : (java none).rules.Denotes ((java none).dialect.expr (printed (operated .add)))
      Java.sum := ⟨Java.sum, by decide +kernel, Java.phrase_sum, rfl⟩
  have hcpp : cpp.rules.Denotes (cpp.dialect.expr (printed (operated .lt))) Cpp.comparison :=
    ⟨Cpp.comparison, by decide +kernel, Cpp.phrase_comparison, rfl⟩
  exact ⟨hsum, by decide +kernel, hjava, fun h => absurd (hjava.unique h) (by decide),
    hcomparison, by decide +kernel, hcpp, fun h => absurd (hcpp.unique h) (by decide)⟩

/-! ## Two minus signs -/

theorem decrements_java (functions : Option String) : (java functions).Decrements :=
  ⟨(by decide : Java.lexicon.IsSign "--"), (by decide : "--" ≠ Java.lexicon.path),
    Lexicon.stops_of_length (by decide : ∀ s ∈ Java.lexicon.signs, _)⟩

theorem decrements_cpp : cpp.Decrements :=
  ⟨by decide, by decide, Lexicon.stops_of_length (by decide)⟩

/-- A minus sign in front of what starts with another one is printed as `--`. In both languages that
is the sign of a decrement, so that the text is not the expression it was made from, nor any other one
of operators and values. -/
theorem doubled_minus_not_denotes (functions : Option String) {e : Expr}
    (hminus : startsWithMinus e = true)
    (hfinite : ∀ x, e = .literal (.float x) → x.isNaN = false ∧ x.isInfinite = false) :
    ∀ c ∈ [java functions, cpp],
      ∃ rest, c.dialect.expr (.unary .neg e) = "--" ++ rest ∧
        ∀ t, ¬c.rules.Denotes (c.dialect.expr (.unary .neg e)) t := by
  have hdecrements : ∀ c ∈ [java functions, cpp], c.Decrements := by
    simp [decrements_java, decrements_cpp]
  intro c hc
  obtain ⟨rest, htext⟩ := expr_doubled_minus (c := c) hminus hfinite
  exact ⟨rest, htext, fun t => htext ▸ (hdecrements c hc).not_denotes rest t⟩

example : (java none).dialect.expr
    (printed [.name "x" .local, .unary .neg (.unary .neg (.name "x" .local))]) =
      "System.out.println(String.valueOf(x) + \" \" + --x)" := by
  decide +kernel

end Scaffold.Target
