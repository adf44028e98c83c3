import Scaffold.Proofs.Markup.Progress
import Scaffold.Proofs.Parser.Passage.Decl

/-!
# Reading comes to an end

The parsers of the program and the loops they are made of, listed as they stand in it, and what holds
of all of them: no call moves back, what has to read something reads it, and a loop stops at its end
mark, at the end of the file or with an error. The fuel is there for the recursion only; it never
decides anything.

* `Consuming`, `Rule`, `Loop`: the parsers that pass a token when they succeed, all parsers, and the
  loops.
* `Looping`: the parsers that run a loop, all with the same fuel (`Looping.runs`).
* `reading_progresses`: the result, for the parser and for page markup.
-/

namespace Scaffold.Source.Parser

/-! ## The parsers -/

/-- The parsers that have something to read, and the rounds of the loops. -/
inductive Consuming : {α : Type} → Parser α → Prop
  | expect {kind : TokenKind} : kind ≠ .eof → Consuming (expect kind)
  | ident : Consuming ident
  | quoted : Consuming quoted
  | integer : Consuming integer
  | literal : Consuming literal
  | type : Consuming typeRef
  | typeFuel (fuel : Nat) : Consuming (typeFuel fuel)
  | arguments (fuel : Nat) (levels : List OperatorLevel) :
    Consuming (arguments (binary (unaryFuel fuel) levels))
  | primary (fuel : Nat) (levels : List OperatorLevel) :
    Consuming (primary (binary (unaryFuel fuel) levels))
  | suffixed (fuel : Nat) (levels : List OperatorLevel) :
    Consuming (suffixed (binary (unaryFuel fuel) levels))
  | unary (fuel : Nat) : Consuming (unaryFuel fuel)
  | binary (fuel : Nat) (levels : List OperatorLevel) : Consuming (binary (unaryFuel fuel) levels)
  | expr : Consuming expr
  | declareStmt : Consuming declareStmt
  | condStmt (fuel : Nat) : Consuming (condStmt (stmtFuel fuel))
  | eachStmt (fuel : Nat) : Consuming (eachStmt (stmtFuel fuel))
  | exprStmt (pos : Position) : Consuming (exprStmt pos)
  | stmt (fuel : Nat) : Consuming (stmtFuel fuel)
  | column : Consuming column
  | query (h : Header) (active : Bool) : Consuming (queryDecl h active)
  | func (h : Header) (active : Bool) (kind : SymbolKind) : Consuming (funcDecl h active kind)
  | handler (controller : String) (h : Header) (active : Bool) : Consuming (do
      let f ← funcDecl h active .handler
      if active then checkHandler controller f
      return f)
  | importDecl (h : Header) : Consuming (importDecl h)
  | domainDecl (h : Header) (active : Bool) : Consuming (domainDecl h active)
  | tableDecl (h : Header) (active : Bool) : Consuming (tableDecl h active)
  | entityDecl (h : Header) (active : Bool) : Consuming (entityDecl h active)
  | recordDecl (h : Header) (active : Bool) : Consuming (recordDecl h active)
  | mapperDecl (h : Header) (active : Bool) : Consuming (mapperDecl h active)
  | controllerDecl (h : Header) (active : Bool) : Consuming (controllerDecl h active)
  | apiDecl (h : Header) (active : Bool) : Consuming (apiDecl h active)
  | pageDecl (h : Header) (active : Bool) : Consuming (pageDecl h active)
  | propertyDecl (h : Header) (active : Bool) : Consuming (propertyDecl h active)
  | decl : Consuming decl
  | declRound (ds : List Decl) : Consuming (decls.step ds)
  | tableRound (table : String) (b : TableBody) : Consuming (tableItem table b)
  | fieldRound (owner : String) (fs : List Field) : Consuming (fields.step owner fs)
  | paramRound (owner : String) (node : NodeId) (ps : List Field) : Consuming (params.step owner node ps)
  | memberRound {α : Type} (active : Bool) {member : Header → Bool → Parser α} (items : List α) :
    (∀ h active, Consuming (member h active)) → Consuming (members.step active member items)
  | apiRound (ms : List ApiMember) : Consuming (apiDecl.step ms)
  | argumentRound (fuel : Nat) (levels : List OperatorLevel) (args : List Expr) :
    Consuming (do return args ++ [← Parser.binary (unaryFuel fuel) levels])
  | stmtRound (fuel : Nat) (body : List Stmt) : Consuming (do return body ++ [← stmtFuel fuel])

/-- Nothing but moving is asked of expressions with operators of any kind. -/
theorem binary_loose {n : Bool} (fuel : Nat) (levels : List OperatorLevel) :
    Level False n (binary (unaryFuel fuel) levels) :=
  binary_level (fun {_} => unaryFuel_level fuel) levels False.elim

theorem binary_moving (fuel : Nat) (levels : List OperatorLevel) :
    Moving (binary (unaryFuel fuel) levels) :=
  (binary_loose fuel levels).moving

section

variable {α : Type} {member : Header → Bool → Parser α} (active : Bool)
  (hmember : ∀ h active, Passing anything (member h active))
include hmember

theorem membersStep_passing {next : TokenKind → Prop} (items : List α) :
    Passing next (members.step active member items) :=
  (membersStep_passage (d := 0) active (fun h active _ _ => .of_passing (hmember h active)) items).passing rfl

theorem members_moving : Moving (members active member) := by
  have hmembers : Passage False false anything ⟨false, 0⟩ (members active member) none :=
    members_passage active fun h active _ _ => .of_passing (hmember h active)
  exact hmembers.moving

end

theorem Consuming.passing {α : Type} {p : Parser α} (h : Consuming p) : Passing anything p := by
  induction h with
  | expect hkind => exact expect_passing hkind
  | ident => exact ident_level.passing
  | quoted => exact quoted_level.passing
  | integer => exact integer_level.passing
  | literal => exact literal_level.passing
  | type => exact typeRef_level.passing
  | typeFuel fuel => exact (typeFuel_level fuel).passing
  | arguments fuel levels => exact (arguments_level fun {_} => binary_loose fuel levels).passing
  | primary fuel levels => exact (primary_level fun {_} => binary_loose fuel levels).passing
  | suffixed fuel levels => exact (suffixed_level fun {_} => binary_loose fuel levels).passing
  | unary fuel => exact (unaryFuel_level fuel).passing
  | binary fuel levels => exact (binary_loose fuel levels).passing
  | expr => exact expr_level.passing
  | declareStmt => exact declareStmt_inBraces.passing
  | condStmt fuel => exact (condStmt_inBraces fun {_} => stmtFuel_inBraces fuel).passing
  | eachStmt fuel => exact (eachStmt_inBraces fun {_} => stmtFuel_inBraces fuel).passing
  | exprStmt pos => exact (exprStmt_inBraces pos).passing
  | stmt fuel => exact (stmtFuel_inBraces fuel).passing
  | column => exact column_inBraces.passing
  | query h active => exact (queryDecl_whole h active).passing
  | func h active kind => exact (funcDecl_whole h active kind).passing
  | handler controller h active => exact (handlerDecl_whole h active controller).passing
  | importDecl h => exact importDecl_passing h
  | domainDecl h active => exact (domainDecl_whole h active).passing
  | tableDecl h active => exact (tableDecl_whole h active).passing
  | entityDecl h active => exact (entityDecl_whole h active).passing
  | recordDecl h active => exact (recordDecl_whole h active).passing
  | mapperDecl h active => exact (mapperDecl_whole h active).passing
  | controllerDecl h active => exact (controllerDecl_whole h active).passing
  | apiDecl h active => exact (apiDecl_whole h active).passing
  | pageDecl h active => exact (pageDecl_whole h active).passing
  | propertyDecl h active => exact (propertyDecl_whole h active).passing
  | decl => exact decl_passing
  | declRound ds => exact declsStep_passing ds
  | tableRound table b => exact (tableItem_inBraces table b).passing
  | fieldRound owner fs => exact (fieldsStep_inBraces owner fs).passing
  | paramRound owner node ps => exact (paramsStep_level owner node ps).passing
  | memberRound active items _ ih => exact membersStep_passing active ih items
  | apiRound ms => exact (apiStep_inBraces ms).passing
  | argumentRound fuel levels args => exact .first (binary_loose fuel levels).passing fun _ => .pure _
  | stmtRound fuel body => exact .first (stmtFuel_inBraces fuel).passing fun _ => .pure _

/-! ## The loops -/

/-- Where a loop ends: in front of a token of such a kind, or behind a sign. -/
inductive Ending where
  | before (kinds : TokenKind → Prop)
  | behind (sign : Punct)

/-- The end is reached, from some tokens on. -/
def Ending.Reached (start left : List Token) : Ending → Prop
  | before kinds => kinds (nextKind left)
  | behind sign => ∃ pos, ⟨.punct sign, pos⟩ :: left <:+ start

/-- The loops of the parser, and where they end. -/
inductive Loop : {β : Type} → (Nat → Parser β) → Ending → Prop
  | decls (ds : List Decl) : Loop (untilFuel atEnd decls.step · ds) (.before (· = .eof))
  | precision : Loop (untilFuel (atClose .parenClose) (fun () => advance) · ())
      (.before (· = .punct .parenClose))
  | table (table : String) (b : TableBody) :
    Loop (untilFuel (atClose .braceClose) (tableItem table) · b) (.before (· = .punct .braceClose))
  | fields (owner : String) (fs : List Field) :
    Loop (untilFuel (atClose .braceClose) (fields.step owner) · fs)
      (.before (· = .punct .braceClose))
  | members {α : Type} (active : Bool) {member : Header → Bool → Parser α} (items : List α) :
    (∀ h active, Consuming (member h active)) →
    Loop (untilFuel (atClose .braceClose) (members.step active member) · items)
      (.before (· = .punct .braceClose))
  | api (ms : List ApiMember) :
    Loop (untilFuel (atClose .braceClose) apiDecl.step · ms) (.before (· = .punct .braceClose))
  | block (nested : Nat) (body : List Stmt) :
    Loop (untilFuel (atClose .braceClose) (fun body => do return body ++ [← stmtFuel nested]) · body)
      (.before (· = .punct .braceClose))
  | params (owner : String) (node : NodeId) (ps : List Field) :
    Loop (commaFuel .parenClose (params.step owner node) · ps) (.before (· ≠ .punct .comma))
  | arguments (nested : Nat) (levels : List OperatorLevel) (args : List Expr) :
    Loop (commaFuel .parenClose
      (fun args => do return args ++ [← binary (unaryFuel nested) levels]) · args)
      (.before (· ≠ .punct .comma))
  | names (names : List String) :
    Loop (nameList.namesFuel · names) (.before (· ≠ .punct .comma))
  | path (names : List String) : Loop (nativePath.pathFuel · names) (.before (· ≠ .punct .dot))
  | suffixes (nested : Nat) (levels : List OperatorLevel) (e : Expr) :
    Loop (suffixFuel (binary (unaryFuel nested) levels) · e)
      (.before fun kind => kind ≠ .punct .dot ∧ kind ≠ .punct .parenOpen)
  | chain (level : OperatorLevel) (nested : Nat) (tighter : List OperatorLevel) (lhs : Expr) :
    Loop (chainFuel level (binary (unaryFuel nested) tighter) · lhs)
      (.before (operatorOf? level · = none))
  | annotations (b : AnnotationBlock) :
    Loop (annotations.annotationsFuel · b) (.before fun kind => ∀ pairs, kind ≠ .annotations pairs)
  | modifiers (c : Column) : Loop (columnFuel · c) (.behind .semicolon)

/-- No loop runs out of fuel. -/
theorem Loop.fuelFree {β : Type} {p : Nat → Parser β} {ending : Ending} (h : Loop p ending) :
    FuelFree p := by
  cases h with
  | decls ds =>
    exact .of_agree fun n fuel fuel' h h' =>
      untilFuel_agree atEnd_watches (fun _ => declsStep_passing _) n fuel fuel' h h' ds
  | precision => exact untilClose_round _ (fun _ => .advance fun _ hkind => hkind.2) ()
  | table table b => exact untilClose_round _ (fun _ => (tableItem_inBraces _ _).passing) b
  | fields owner fs => exact untilClose_round _ (fun _ => (fieldsStep_inBraces _ _).passing) fs
  | members active items hmember =>
    exact untilClose_round _ (fun _ => membersStep_passing _ (fun h a => (hmember h a).passing) _) items
  | api ms => exact untilClose_round _ (fun _ => (apiStep_inBraces _).passing) ms
  | block nested body =>
    exact untilClose_round _ (fun _ => .first (stmtFuel_inBraces nested).passing fun _ => .pure _) body
  | params owner node ps =>
    exact .of_agree fun n fuel fuel' h h' =>
      commaFuel_agree .parenClose (fun _ => (paramsStep_level _ _ _).passing) n fuel fuel' h h' ps
  | arguments nested levels args =>
    exact .of_agree fun n fuel fuel' h h' =>
      commaFuel_agree .parenClose (fun _ => .first (binary_loose nested levels).passing fun _ => .pure _)
        n fuel fuel' h h' args
  | names names =>
    exact .of_agree fun n fuel fuel' h h' => namesFuel_agree n fuel fuel' h h' names
  | path names =>
    exact .of_agree fun n fuel fuel' h h' => pathFuel_agree n fuel fuel' h h' names
  | suffixes nested levels e =>
    exact .of_agree fun n fuel fuel' h h' =>
      suffixFuel_agree (fun {_} => binary_loose nested levels) n fuel fuel' h h' e
  | chain level nested tighter lhs =>
    exact .of_agree fun n fuel fuel' h h' =>
      chainFuel_agree (fun {_} => binary_loose nested tighter) level n fuel fuel' h h' lhs
  | annotations b =>
    exact .of_agree fun n fuel fuel' h h' => annotationsFuel_agree n fuel fuel' h h' b
  | modifiers c =>
    exact .of_agree fun n fuel fuel' h h' => columnFuel_agree n fuel fuel' h h' c

/-- A loop up to a closing sign ends there or at the end of the file. -/
theorem untilClose_ends {β : Type} {step : β → Parser β} (close : Punct)
    (hstep : ∀ b, Passing (fun kind => kind ≠ .punct close ∧ kind ≠ .eof) (step b)) (fuel : Nat)
    (b : β) : Stops anything fuel (untilFuel (atClose close) step fuel b)
      fun kind => kind = .punct close ∨ kind = .eof :=
  untilFuel_ends (atClose_watches close) hstep
    (fun kind h => by
      by_cases hclose : kind = .punct close
      · exact .inl hclose
      · exact .inr (not_not.1 fun heof => h ⟨hclose, heof⟩))
    fuel fuel (Nat.le_refl _) b

/-- A loop that does not fail has reached its end or the end of the file. -/
theorem Loop.ends {β : Type} {p : Nat → Parser β} {ending : Ending} (h : Loop p ending) {fuel : Nat}
    {env : ParserEnv} {s s' : ParserState} {b : β} (hfuel : s.rest.length < fuel)
    (hrun : p fuel env s = (.ok b, s')) :
    ending.Reached s.rest s'.rest ∨ nextKind s'.rest = .eof := by
  cases h with
  | decls ds =>
    exact .inl (untilFuel_ends atEnd_watches (fun _ => declsStep_passing _)
      (fun kind h => not_not.1 h) fuel fuel (Nat.le_refl _) ds env s b s' hfuel trivial hrun)
  | precision =>
    exact untilClose_ends _ (fun _ => .advance fun _ hkind => hkind.2) fuel () env s b s' hfuel
      trivial hrun
  | table table body =>
    exact untilClose_ends _ (fun _ => (tableItem_inBraces _ _).passing) fuel body env s b s' hfuel trivial hrun
  | fields owner fs =>
    exact untilClose_ends _ (fun _ => (fieldsStep_inBraces _ _).passing) fuel fs env s b s' hfuel trivial hrun
  | members active items hmember =>
    exact untilClose_ends _ (fun _ => membersStep_passing _ (fun h a => (hmember h a).passing) _)
      fuel items env s b s' hfuel trivial hrun
  | api ms =>
    exact untilClose_ends _ (fun _ => (apiStep_inBraces _).passing) fuel ms env s b s' hfuel trivial hrun
  | block nested body =>
    exact untilClose_ends _ (fun _ => .first (stmtFuel_inBraces nested).passing fun _ => .pure _) fuel body
      env s b s' hfuel trivial hrun
  | params owner node ps =>
    exact .inl (commaFuel_ends (by decide) (fun _ => (paramsStep_level _ _ _).moving)
      fuel fuel (Nat.le_refl _) ps env s b s' hfuel trivial hrun)
  | arguments nested levels args =>
    exact .inl (commaFuel_ends (by decide) (fun _ => .bind (binary_moving nested levels) fun _ => .pure _)
      fuel fuel (Nat.le_refl _) args env s b s' hfuel trivial hrun)
  | names names =>
    exact .inl (namesFuel_ends fuel fuel (Nat.le_refl _) names env s b s' hfuel trivial hrun)
  | path names =>
    exact .inl (pathFuel_ends fuel fuel (Nat.le_refl _) names env s b s' hfuel trivial hrun)
  | suffixes nested levels e =>
    exact .inl (suffixFuel_ends (fun {_} => binary_loose nested levels) fuel fuel (Nat.le_refl _) e env s b s'
      hfuel trivial hrun)
  | chain level nested tighter lhs =>
    exact .inl (chainFuel_ends (fun {_} => binary_loose nested tighter) level fuel fuel (Nat.le_refl _) lhs
      env s b s' hfuel trivial hrun)
  | annotations block =>
    exact .inl (annotationsFuel_ends fuel fuel (Nat.le_refl _) block env s b s' hfuel trivial hrun)
  | modifiers c => exact .inl (columnFuel_ends fuel c env s b s' hrun)

/-! ## Where loops are run -/

/-- A loop with one unit of fuel more than there are tokens. -/
def fueled {β : Type} (loop : Nat → Parser β) : Parser β := do
  loop ((← remaining) + 1)

/-- The parser runs another one on its way. -/
inductive Runs {β : Type} (q : Parser β) : {α : Type} → Parser α → Prop
  | self : Runs q q
  | first {α γ : Type} {p : Parser γ} {f : γ → Parser α} : Runs q p → Runs q (p >>= f)
  | later {α γ : Type} {p : Parser γ} {f : γ → Parser α} (c : γ) : Runs q (f c) → Runs q (p >>= f)
  | inScope {α : Type} {kind : ScopeKind} {p : Parser α} : Runs q p → Runs q (inScope kind p)

/-- The parsers with a loop, and the loop with what it starts from. -/
inductive Looping : {α β : Type} → Parser α → (Nat → Parser β) → Prop
  | decls : Looping decls (untilFuel atEnd decls.step · [])
  | precision : Looping skipPrecision (untilFuel (atClose .parenClose) (fun () => advance) · ())
  | table (h : Header) (active : Bool) (name : String) :
    Looping (tableDecl h active) (untilFuel (atClose .braceClose) (tableItem name) · {})
  | fields (owner : String) :
    Looping (fields owner) (untilFuel (atClose .braceClose) (fields.step owner) · [])
  | members {α : Type} (active : Bool) {member : Header → Bool → Parser α} :
    (∀ h active, Consuming (member h active)) →
    Looping (members active member)
      (untilFuel (atClose .braceClose) (members.step active member) · [])
  | api (h : Header) (active : Bool) :
    Looping (apiDecl h active) (untilFuel (atClose .braceClose) apiDecl.step · [])
  | block (nested : Nat) : Looping (blockOf (stmtFuel nested))
      (untilFuel (atClose .braceClose) (fun body => do return body ++ [← stmtFuel nested]) · [])
  | params (owner : String) (node : NodeId) :
    Looping (params owner node) (commaFuel .parenClose (params.step owner node) · [])
  | arguments (nested : Nat) (levels : List OperatorLevel) :
    Looping (arguments (binary (unaryFuel nested) levels)) (commaFuel .parenClose
      (fun args => do return args ++ [← Parser.binary (unaryFuel nested) levels]) · [])
  | names : Looping nameList (nameList.namesFuel · [])
  | path (name : String) : Looping nativePath (nativePath.pathFuel · [name])
  | suffixes (nested : Nat) (levels : List OperatorLevel) (e : Expr) :
    Looping (suffixed (binary (unaryFuel nested) levels))
      (suffixFuel (binary (unaryFuel nested) levels) · e)
  | chain (level : OperatorLevel) (nested : Nat) (tighter : List OperatorLevel) (lhs : Expr) :
    Looping (binary (unaryFuel nested) (level :: tighter))
      (chainFuel level (binary (unaryFuel nested) tighter) · lhs)
  | annotations : Looping annotations (annotations.annotationsFuel · {})
  | modifiers (name : String) (type : TypeRef) (pos : Position) :
    Looping column (columnFuel · { name, type, pos })

theorem Looping.loop {α β : Type} {p : Parser α} {loop : Nat → Parser β} (h : Looping p loop) :
    ∃ ending, Loop loop ending := by
  cases h with
  | decls => exact ⟨_, .decls []⟩
  | precision => exact ⟨_, .precision⟩
  | table h active name => exact ⟨_, .table name {}⟩
  | fields owner => exact ⟨_, .fields owner []⟩
  | members active hmember => exact ⟨_, .members active [] hmember⟩
  | api h active => exact ⟨_, .api []⟩
  | block nested => exact ⟨_, .block nested []⟩
  | params owner node => exact ⟨_, .params owner node []⟩
  | arguments nested levels => exact ⟨_, .arguments nested levels []⟩
  | names => exact ⟨_, .names []⟩
  | path name => exact ⟨_, .path [name]⟩
  | suffixes nested levels e => exact ⟨_, .suffixes nested levels e⟩
  | chain level nested tighter lhs => exact ⟨_, .chain level nested tighter lhs⟩
  | annotations => exact ⟨_, .annotations {}⟩
  | modifiers name type pos => exact ⟨_, .modifiers _⟩

/-- A loop is run with one unit of fuel more than there are tokens where it starts. -/
theorem Looping.runs {α β : Type} {p : Parser α} {loop : Nat → Parser β} (h : Looping p loop) :
    Runs (fueled loop) p := by
  cases h with
  | decls => exact .self
  | precision => exact .later true (.first .self)
  | table h active name =>
    exact .later h.pos (.later (name, h.pos) (.later () (.later () (.first .self))))
  | fields owner => exact .later () (.first .self)
  | members active hmember => exact .later () (.first (.inScope (.first .self)))
  | api h active =>
    exact .later h.pos (.later ("", h.pos) (.later () (.later () (.first .self))))
  | block nested => exact .later () (.first (.inScope .self))
  | params owner node => exact .later () (.first .self)
  | arguments nested levels => exact .later () (.first .self)
  | names =>
    have hlist : nameList = (expectPunct .parenOpen >>= fun _ =>
        fueled (nameList.namesFuel · []) >>= fun names =>
          expectPunct .parenClose >>= fun _ => pure names) := rfl
    rw [hlist]
    exact .later () (.first .self)
  | path name => exact .later (name, {}) .self
  | suffixes nested levels e => exact .later e .self
  | chain level nested tighter lhs => exact .later lhs .self
  | annotations => exact .self
  | modifiers name type pos => exact .later (name, pos) (.later type .self)

/-! ## All parsers -/

/-- The parsers of the program: the ones that read something, the loops, the steps on tokens, scopes
and symbols, and what is made of parsers. -/
inductive Rule : {α : Type} → Parser α → Prop
  | reads {α : Type} {p : Parser α} : Consuming p → Rule p
  | loop {β : Type} {p : Nat → Parser β} {ending : Ending} (fuel : Nat) : Loop p ending → Rule (p fuel)
  | pure {α : Type} (a : α) : Rule (pure a)
  | bind {α β : Type} {p : Parser α} {f : α → Parser β} :
    Rule p → (∀ a, Rule (f a)) → Rule (p >>= f)
  | fail {α : Type} (e : CompileError) : Rule (fail e : Parser α)
  | env : Rule env
  | state : Rule state
  | remaining : Rule remaining
  | peek : Rule peek
  | peekKind (n : Nat) : Rule (peekKind n)
  | isNext (kind : TokenKind) : Rule (isNext kind)
  | advance : Rule advance
  | skipPunct (sign : Punct) : Rule (skipPunct sign)
  | untilClose {β : Type} (close : Punct) {step : β → Parser β} (start : β) :
    (∀ b, Rule (step b)) → Rule (untilClose close step start)
  | commaList {β : Type} (close : Punct) {step : β → Parser β} (start : β) :
    (∀ b, Rule (step b)) → Rule (commaList close step start)
  | invalid (pos : Position) (declaration reason : String) : Rule (invalid pos declaration reason)
  | takeNode : Rule takeNode
  | takeSeq : Rule takeSeq
  | own (id : NodeId) : Rule (change fun s => { s with owner := id })
  | nameRef (name : String) (pos : Position) : Rule (nameRef name pos)
  | declare (name : String) (kind : SymbolKind) (pos : Position) (node : NodeId) (active : Bool) :
    Rule (declare name kind pos node active)
  | inScope {α : Type} {kind : ScopeKind} {p : Parser α} :
    kind ≠ .file → Rule p → Rule (inScope kind p)
  | sizeOr (fallback : Nat) : Rule (sizeOr fallback)
  | skipPrecision : Rule skipPrecision
  | nameList : Rule nameList
  | nativePath : Rule nativePath
  | condition : Rule condition
  | blockOf (fuel : Nat) : Rule (blockOf (stmtFuel fuel))
  | block : Rule block
  | annotations : Rule annotations
  | header : Rule header
  | keyItem (table : String) (b : TableBody) : Rule (keyItem table b)
  | indexItem (table : String) (b : TableBody) : Rule (indexItem table b)
  | columnItem (table : String) (b : TableBody) : Rule (columnItem table b)
  | fields (owner : String) : Rule (fields owner)
  | params (owner : String) (node : NodeId) : Rule (params owner node)
  | members {α : Type} (active : Bool) {member : Header → Bool → Parser α} :
    (∀ h active, Consuming (member h active)) → Rule (members active member)
  | checkHandler (controller : String) (f : Func) : Rule (checkHandler controller f)
  | attachComponent (pos : Position) (node : MarkupNode) : Rule (attachComponent pos node)
  | attachComponents (pos : Position) (nodes : List MarkupNode) : Rule (attachComponents pos nodes)
  | decls : Rule decls

theorem Loop.moving {β : Type} {p : Nat → Parser β} {ending : Ending} (h : Loop p ending)
    (fuel : Nat) : Moving (p fuel) := by
  have hclose : ∀ close, Moving (atClose close) := fun close => .bind peek_moving fun _ => .pure _
  cases h with
  | decls ds =>
    exact untilFuel_moving (.bind peek_moving fun _ => .pure _)
      (fun ds => (Consuming.declRound ds).passing.moving) fuel ds
  | precision => exact untilFuel_moving (hclose _) (fun _ => advance_moving) fuel ()
  | table table b =>
    exact untilFuel_moving (hclose _) (fun b => (Consuming.tableRound table b).passing.moving) fuel b
  | fields owner fs =>
    exact untilFuel_moving (hclose _) (fun fs => (Consuming.fieldRound owner fs).passing.moving) fuel fs
  | members active items hmember =>
    exact untilFuel_moving (hclose _)
      (fun items => (Consuming.memberRound active items hmember).passing.moving) fuel items
  | api ms =>
    exact untilFuel_moving (hclose _) (fun ms => (Consuming.apiRound ms).passing.moving) fuel ms
  | block nested body =>
    exact untilFuel_moving (hclose _) (fun body => (Consuming.stmtRound nested body).passing.moving)
      fuel body
  | params owner node ps =>
    exact commaFuel_moving _ (fun ps => (Consuming.paramRound owner node ps).passing.moving) fuel ps
  | arguments nested levels args =>
    exact commaFuel_moving _ (fun args => (Consuming.argumentRound nested levels args).passing.moving)
      fuel args
  | names names => exact (namesFuel_level fuel names).moving
  | path names => exact (pathFuel_level fuel names).moving
  | suffixes nested levels e => exact (suffixFuel_level (fun {_} => binary_loose nested levels) fuel e).moving
  | chain level nested tighter lhs =>
    exact (chainFuel_level (fun {_} => binary_loose nested tighter) False.elim fuel lhs).moving
  | annotations b => exact (annotationsFuel_level fuel b).moving
  | modifiers c => exact (columnFuel_inBraces fuel c).moving

theorem Rule.moving {α : Type} {p : Parser α} (h : Rule p) : Moving p := by
  induction h with
  | reads h => exact h.passing.moving
  | loop fuel h => exact h.moving fuel
  | pure a => exact .pure a
  | bind _ _ ih ih' => exact ih.bind ih'
  | fail e => exact .still fun _ _ => rfl
  | env => exact env_moving
  | state => exact state_moving
  | remaining => exact remaining_moving
  | peek => exact peek_moving
  | peekKind n => exact peekKind_moving n
  | isNext kind => exact isNext_moving kind
  | advance => exact advance_moving
  | skipPunct sign => exact skipPunct_moving sign
  | untilClose close start _ ih => exact untilClose_moving close ih start
  | commaList close start _ ih => exact commaList_moving close ih start
  | invalid pos declaration reason => exact (invalid_idle pos declaration reason).moving
  | takeNode => exact takeNode_idle.moving
  | takeSeq => exact takeSeq_idle.moving
  | own id => exact (own_idle id).moving
  | nameRef name pos => exact (nameRef_idle name pos).moving
  | declare name kind pos node active => exact (declare_idle name kind pos node active).moving
  | inScope hkind _ ih => exact inScope_moving hkind ih
  | sizeOr fallback => exact (sizeOr_level fallback).moving
  | skipPrecision => exact skipPrecision_level.moving
  | nameList => exact nameList_level.moving
  | nativePath => exact nativePath_level.moving
  | condition => exact condition_level.moving
  | blockOf fuel => exact (blockOf_whole fun {_} => stmtFuel_inBraces fuel).moving
  | block => exact block_whole.moving
  | annotations => exact annotations_level.moving
  | header => exact header_level.moving
  | keyItem table b =>
    exact (keyItem_passage (n := false) (d := 0) table b fun _ (h : False) => h.elim).moving
  | indexItem table b =>
    exact (indexItem_passage (n := false) (d := 0) table b fun _ (h : False) => h.elim).moving
  | columnItem table b => exact (columnItem_inBraces table b).moving
  | fields owner => exact (fields_whole owner).moving
  | params owner node => exact (params_level owner node).moving
  | members active hmember => exact members_moving active fun h a => (hmember h a).passing
  | checkHandler controller f => exact (checkHandler_idle controller f).moving
  | attachComponent pos node => exact (attachComponent_idle pos node).moving
  | attachComponents pos nodes => exact (attachComponents_idle pos nodes).moving
  | decls => exact decls_moving

/-- The parser and the markup parser always go on. No call moves back. A parser that has something to
read passes a token when it succeeds. A loop has enough fuel with one unit more than there are tokens,
any more makes no difference, and then it ends at its end, at the end of the file or with an error; the
recursions need no more either. Just that is what the parsers give to the loops and recursions that
they run. A round of the markup parser reads a character or is the last one, and
its fuel makes no difference. -/
theorem reading_progresses :
    (∀ {α : Type} {p : Parser α}, Rule p → ∀ env s, (p env s).2.rest <:+ s.rest) ∧
    (∀ {α : Type} {p : Parser α}, Consuming p → ∀ env s a s', p env s = (.ok a, s') →
      s'.rest.length < s.rest.length) ∧
    (∀ {β : Type} {p : Nat → Parser β} {ending : Ending}, Loop p ending → FuelFree p ∧
      ∀ fuel env s b s', s.rest.length < fuel → p fuel env s = (.ok b, s') →
        ending.Reached s.rest s'.rest ∨ nextKind s'.rest = .eof) ∧
    (∀ {α β : Type} {p : Parser α} {loop : Nat → Parser β}, Looping p loop →
      (∃ ending, Loop loop ending) ∧ Runs (fueled loop) p) ∧
    (FuelFree typeFuel ∧ FuelFree unaryFuel ∧ FuelFree stmtFuel) ∧
    (typeRef = fueled typeFuel ∧
      expr = fueled (fun fuel => binary (unaryFuel fuel) operatorLevels) ∧
      block = fueled (fun fuel => blockOf (stmtFuel fuel))) ∧
    (∀ tag fuel cs, Markup.readAttrs tag (fuel + 1) cs = (do
        (← Markup.attrRound tag cs).go (Markup.readAttrs tag fuel)) ∧
      ∀ r, Markup.attrRound tag cs = .ok r → r.left.length < cs.length) ∧
    (∀ closing fuel text cs, Markup.children closing (fuel + 1) text cs = (do
        (← Markup.childRound closing fuel text cs).go (Markup.children closing fuel)) ∧
      ∀ r, Markup.childRound closing fuel text cs = .ok r → r.Within cs.length) ∧
    (∀ (s : String) (fuel : Nat), 2 * s.toList.length + 2 ≤ fuel →
      Markup.parse s = match Markup.children none fuel [] s.toList with
        | .ok (nodes, _) => .ok nodes
        | .error stop => .error ⟨s.toList.length - stop.unread, stop.message⟩) := by
  refine ⟨fun h => h.moving.suffix, fun h env s a s' => h.passing.shorter env s a s' trivial,
    fun h => ⟨h.fuelFree, fun _ _ _ _ _ hfuel hrun => h.ends hfuel hrun⟩,
    fun h => ⟨h.loop, h.runs⟩,
    ⟨.of_agree typeFuel_agree, .of_agree unaryFuel_agree, .of_agree stmtFuel_agree⟩, ⟨rfl, rfl, rfl⟩,
    fun tag fuel cs => ⟨Markup.readAttrs_round tag fuel cs, fun _ => Markup.attrRound_shorter⟩,
    fun closing fuel text cs => ⟨Markup.children_round closing fuel text cs, fun _ =>
      Markup.childRound_within (Markup.shortens fuel).element⟩,
    fun s fuel => Markup.parse_fuel s⟩

end Scaffold.Source.Parser
