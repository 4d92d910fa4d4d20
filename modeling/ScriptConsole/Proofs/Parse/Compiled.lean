import ScriptConsole.Proofs.Parse.Nodes

/-! # The heap of a compiled script

Every part of a statement is built on a closed heap, and so the nodes of a script that
compiled form one (`ScriptConsole.compileSource_heap`). All that a compilation does to a table
of symbols, successful or not, is to intern names (`ScriptConsole.grows_compileSource`).
-/

namespace ScriptConsole

namespace Parse

variable {heap : Heap} {bound : Nat} {inner : Parser}

/-- A parser builds a statement. -/
abbrev BuildsStmt (heap : Heap) (parser : Parse Stmt) : Prop :=
  Builds heap parser fun stmt later => later.HasStmt stmt

/-- A parser builds statements. -/
abbrev BuildsStmts (heap : Heap) (parser : Parse (List Stmt)) : Prop :=
  Builds heap parser fun stmts later => ∀ stmt ∈ stmts, later.HasStmt stmt

/-- A loop that collects statements, the last one first. -/
abbrev Collecting : Round (List Stmt) (List Stmt) → Heap → Prop :=
  RoundIs (fun stmts later => ∀ stmt ∈ stmts, later.HasStmt stmt)
    fun stmts later => ∀ stmt ∈ stmts, later.HasStmt stmt

theorem builds_collected {stmts : List Stmt} (has : ∀ stmt ∈ stmts, heap.HasStmt stmt) :
    Builds heap (Pure.pure (.done stmts.reverse)) Collecting :=
  .pure fun stmt member => has stmt (List.mem_reverse.mp member)

theorem builds_collecting {parser : Parse Stmt} (builds : BuildsStmt heap parser)
    {stmts : List Stmt} (has : ∀ stmt ∈ stmts, heap.HasStmt stmt) :
    Builds heap (do return .again ((← parser) :: stmts)) Collecting := by
  refine .bind builds fun stmt later within hasFirst => .pure ?_
  exact List.forall_mem_cons.mpr ⟨hasFirst, within.stmts has⟩

theorem silent_parameter : Silent parameter := by
  refine .bind silent_variableName fun read => ?_
  obtain ⟨text, scope, span⟩ := read
  cases scope with
  | ofCall => exact .pure _
  | ofConsole => exact silent_failAt _ _

theorem silent_internAll (names : List String) : Silent (internAll names) := by
  induction names with
  | nil => exact .pure _
  | cons name names ih => exact .bind (silent_intern name) fun _ => .bind ih fun _ => .pure _

theorem silent_functionName : Silent functionName := by
  refine .bind silent_name fun first => .bind (silent_accept .colonColon) fun qualified => ?_
  cases qualified with
  | true =>
      exact .bind silent_name fun second => .bind (silent_intern first.1) fun _ =>
        .bind (silent_intern second.1) fun _ => .pure _
  | false => exact .bind (silent_intern first.1) fun _ => .pure _

theorem silent_caseEnds : Silent caseEnds := by
  refine .bind silent_nextKind? fun kind => ?_
  split
  · exact .pure true
  · exact .pure true
  · refine .bind (silent_nextIsWord "case") fun found => ?_
    cases found with
    | true => exact .pure true
    | false => exact silent_nextIsWord "default"

theorem builds_finishExpression {expr : Expr} (has : heap.HasExpr expr) :
    BuildsStmt heap (finishExpression expr) :=
  .skip (silent_expect .semicolon) fun _ => builds_stmt (fun _ => rfl) fun _ => has

theorem builds_plainStmt (heap : Heap) (keyword : String) {build : Mark → Stmt}
    (marked : ∀ mark, (build mark).mark = mark) (parts : ∀ mark, (build mark).PartsIn heap) :
    BuildsStmt heap (plainStmt keyword build) :=
  .skip (silent_word keyword) fun _ => .skip (silent_expect .semicolon) fun _ =>
    builds_stmt marked parts

section Statements

theorem Placing.statement (placing : Placing inner) (heap : Heap) :
    BuildsStmt heap (inner .statement) :=
  placing heap .statement

variable (placing : Placing inner)
include placing

theorem builds_blockRound {stmts : List Stmt} (has : ∀ stmt ∈ stmts, heap.HasStmt stmt) :
    Builds heap (blockRound inner stmts) Collecting := by
  refine .skip silent_nextKind? fun kind => ?_
  split
  · exact builds_collected has
  · exact builds_collected has
  · exact builds_collecting (placing.statement heap) has

theorem builds_block (heap : Heap) :
    Builds heap (block bound inner) fun body later => later.HasBlock body := by
  refine .skip (silent_expect .openCurly) fun first => ?_
  have loop : BuildsStmts heap (repeatRounds bound (blockRound inner) []) :=
    builds_repeatRounds (fun _ _ _ has => builds_blockRound placing has) bound nofun
  refine .bind loop fun stmts later _ has => ?_
  refine .skip (silent_expect .closeCurly) fun last => ?_
  refine .bind (builds_markStmt _ (fun mark => .block ⟨mark, stmts⟩) (fun _ => rfl) fun _ => has) ?_
  exact fun _ _ _ has => .pure has

/-- A definition is numbered after the statements of its body, which are at their places by then. -/
theorem builds_functionDef (heap : Heap) :
    Builds heap (functionDef bound inner) fun definition later =>
      later.HasDefinition definition := by
  refine .skip (silent_word "function") fun first => .skip silent_functionName fun named => ?_
  obtain ⟨space, function, last⟩ := named
  refine .bind (builds_list (fun _ _ => True) (fun _ _ => trivial)
    (fun later _ => (silent_parameter later).mono fun _ _ _ _ => trivial) bound _ _ _ _)
    fun parameters later _ _ => ?_
  have finish : Builds later
      (do
        let symbols ← internAll (parameters.map Prod.fst)
        let body ← block bound inner
        return ⟨← markDefinition ⟨first.first, last.last⟩, space, function, symbols, body⟩)
      fun definition later => later.HasDefinition definition := by
    refine .skip (silent_internAll _) fun symbols => ?_
    refine .bind (builds_block placing later) fun body middle _ has => ?_
    refine .bind (builds_markDefinition _ (fun mark => ⟨mark, space, function, symbols, body⟩)
      (fun _ => rfl) fun _ => has) ?_
    exact fun _ _ _ has => .pure has
  simp only
  split
  · exact builds_failAt_bind _ _ _ _ _
  · exact finish

theorem builds_functionStmt (heap : Heap) : BuildsStmt heap (functionStmt bound inner) := by
  refine .bind (builds_functionDef placing heap) fun definition later _ has => ?_
  exact builds_stmt (fun _ => rfl) fun _ => has

/-- A round of a package ends it or builds one more definition. -/
theorem builds_packageRound {definitions : List FunctionDef}
    (has : ∀ definition ∈ definitions, heap.HasDefinition definition) :
    Builds heap (packageRound bound inner definitions)
      (RoundIs (fun definitions later => ∀ definition ∈ definitions, later.HasDefinition definition)
        fun definitions later => ∀ definition ∈ definitions, later.HasDefinition definition) := by
  refine .skip silent_nextKind? fun kind => ?_
  split
  · exact .pure fun definition member => has definition (List.mem_reverse.mp member)
  · exact .skip silent_pass fun _ => .pure has
  · refine .skip (silent_nextIsWord "function") fun isFunction => ?_
    cases isFunction with
    | false => exact builds_failHere _ _ _
    | true =>
        refine .bind (builds_functionDef placing heap) fun definition later within hasFirst => ?_
        refine .pure (List.forall_mem_cons.mpr ⟨hasFirst, fun other member => ?_⟩)
        exact within.definition (has other member)

theorem builds_packageStmt (heap : Heap) : BuildsStmt heap (packageStmt bound inner) := by
  refine .skip (silent_word "package") fun first => .skip silent_name fun read => ?_
  refine .skip (silent_intern read.1) fun package => .skip (silent_expect .openCurly) fun _ => ?_
  have loop : Builds heap (repeatRounds bound (packageRound bound inner) [])
      fun definitions later =>
      ∀ definition ∈ definitions, later.HasDefinition definition :=
    builds_repeatRounds (fun _ _ _ has => builds_packageRound placing has) bound nofun
  refine .bind loop fun definitions later _ has => ?_
  refine .skip (silent_expect .closeCurly) fun _ => .skip (silent_expect .semicolon) fun _ => ?_
  exact builds_stmt (fun _ => rfl) fun _ => has

/-- A condition is built after its test and both of its branches. Where there is no `else` it has
one branch. -/
theorem builds_ifStmt (heap : Heap) : BuildsStmt heap (ifStmt inner) := by
  refine .skip (silent_word "if") fun span => ?_
  refine .bind (builds_parenthesized placing heap) fun test first _ hasTest => ?_
  refine .bind (placing.statement first) fun yes second within hasYes => ?_
  have hasTest := within.expr hasTest
  refine .skip (silent_nextIsWord "else") fun hasElse => ?_
  cases hasElse with
  | false =>
      have node : BuildsStmt second
          (markStmt span >>= fun mark => Pure.pure (.branch mark test yes none)) :=
        builds_stmt (fun _ => rfl) fun _ => ⟨hasTest, hasYes, nofun⟩
      exact node
  | true =>
      refine .skip silent_pass fun _ => ?_
      have read : Builds second (some <$> inner .statement) fun no later =>
          ∀ stmt ∈ no, later.HasStmt stmt := by
        refine .map ((placing.statement second).mono fun stmt later _ has found isStmt => ?_)
        obtain rfl := Option.some.inj isStmt
        exact has
      refine .bind read fun no third beyond hasNo => ?_
      exact builds_stmt (fun _ => rfl) fun _ => ⟨beyond.expr hasTest, beyond.stmt hasYes, hasNo⟩

theorem builds_whileStmt (heap : Heap) : BuildsStmt heap (whileStmt inner) := by
  refine .skip (silent_word "while") fun span => ?_
  refine .bind (builds_parenthesized placing heap) fun test first _ hasTest => ?_
  refine .bind (placing.statement first) fun body second within hasBody => ?_
  exact builds_stmt (fun _ => rfl) fun _ => ⟨within.expr hasTest, hasBody⟩

theorem builds_doStmt (heap : Heap) : BuildsStmt heap (doStmt inner) := by
  refine .skip (silent_word "do") fun span => ?_
  refine .bind (placing.statement heap) fun body first _ hasBody => ?_
  refine .skip (silent_word "while") fun _ => ?_
  refine .bind (builds_parenthesized placing first) fun test second within hasTest => ?_
  refine .skip (silent_expect .semicolon) fun _ => ?_
  exact builds_stmt (fun _ => rfl) fun _ => ⟨hasTest, within.stmt hasBody⟩

/-- A counting loop is built after its three expressions, each of which may be missing, and its
body. -/
theorem builds_forStmt (heap : Heap) : BuildsStmt heap (forStmt inner) := by
  refine .skip (silent_word "for") fun span => .skip (silent_expect .openParen) fun _ => ?_
  refine .bind (builds_optional placing heap .semicolon) fun initial first _ hasInitial => ?_
  refine .skip (silent_expect .semicolon) fun _ => ?_
  refine .bind (builds_optional placing first .semicolon) fun test second within hasTest => ?_
  refine .skip (silent_expect .semicolon) fun _ => ?_
  refine .bind (builds_optional placing second .closeParen) fun step third beyond hasStep => ?_
  refine .skip (silent_expect .closeParen) fun _ => ?_
  refine .bind (placing.statement third) fun body last final hasBody => ?_
  have later := beyond.trans final
  exact builds_stmt (fun _ => rfl) fun _ =>
    ⟨(within.trans later).expr? hasInitial, later.expr? hasTest, final.expr? hasStep, hasBody⟩

theorem builds_returnStmt (heap : Heap) : BuildsStmt heap (returnStmt inner) := by
  refine .skip (silent_word "return") fun span => ?_
  refine .bind (builds_optional placing heap .semicolon) fun value later _ has => ?_
  refine .skip (silent_expect .semicolon) fun _ => ?_
  exact builds_stmt (fun _ => rfl) fun _ => has

/-- A round of the values of a case builds one more value, and `or` leads to the next round. -/
theorem builds_valueRound {values : List Expr} (has : ∀ value ∈ values, heap.HasExpr value) :
    Builds heap (valueRound inner values)
      (RoundIs (fun values later => ∀ value ∈ values, later.HasExpr value)
        fun values later => ∀ value ∈ values, later.HasExpr value) := by
  refine .skip (silent_nextIsWord "or") fun more => ?_
  cases more with
  | false => exact .pure fun value member => has value (List.mem_reverse.mp member)
  | true =>
      refine .skip silent_pass fun _ => ?_
      refine .bind (placing.expression heap) fun value later within hasFirst => .pure ?_
      exact List.forall_mem_cons.mpr ⟨hasFirst, within.exprs has⟩

theorem builds_caseBody (heap : Heap) : BuildsStmts heap (caseBody bound inner) := by
  have each (stmts : List Stmt) (later : Heap) (has : ∀ stmt ∈ stmts, later.HasStmt stmt) :
      Builds later (caseBodyRound inner stmts) Collecting := by
    refine .skip silent_caseEnds fun ends => ?_
    cases ends with
    | true => exact builds_collected has
    | false => exact builds_collecting (placing.statement later) has
  have loop : BuildsStmts heap (repeatRounds bound (caseBodyRound inner) []) :=
    builds_repeatRounds (fun stmts later _ has => each stmts later has) bound nofun
  exact .skip (silent_expect .colon) fun _ => loop

/-- The cases of a switch and what it does otherwise are at their places. -/
structure HasCases (heap : Heap) (state : Cases) : Prop where
  each : ∀ case ∈ state.1, heap.HasCase case
  default : ∀ body ∈ state.2, ∀ stmt ∈ body, heap.HasStmt stmt

omit placing in
theorem HasCases.lift {later : Heap} {state : Cases} (has : HasCases heap state)
    (within : heap.Within later) : HasCases later state where
  each case member := within.case (has.each case member)
  default body isDefault := within.stmts (has.default body isDefault)

/-- A round of a switch builds a case or the default, or ends it. What was built before stays at its
place. -/
theorem builds_caseRound {state : Cases} (has : HasCases heap state) :
    Builds heap (caseRound bound inner state)
      (RoundIs (fun state later => HasCases later state)
        fun state later => HasCases later state) := by
  obtain ⟨found, default⟩ := state
  refine .skip (silent_nextIs .closeCurly) fun closed => ?_
  cases closed with
  | true => exact .pure ⟨fun case member => has.each case (List.mem_reverse.mp member), has.default⟩
  | false =>
      refine .skip silent_nextWord? fun word => ?_
      split
      · refine .skip silent_anyWord fun read => ?_
        refine .bind (placing.expression heap) fun first second within hasFirst => ?_
        have loop : BuildsExprs second (repeatRounds bound (valueRound inner) [first]) :=
          builds_repeatRounds (fun _ _ _ has => builds_valueRound placing has) bound
            (List.forall_mem_singleton.mpr hasFirst)
        refine .bind loop fun values third beyond hasValues => ?_
        refine .bind (builds_caseBody placing third) fun body last final hasBody => .pure ?_
        have lifted := has.lift ((within.trans beyond).trans final)
        refine ⟨List.forall_mem_cons.mpr ⟨?_, lifted.each⟩, lifted.default⟩
        exact ⟨final.exprs hasValues, hasBody⟩
      · refine .skip silent_anyWord fun read => ?_
        simp only
        split
        · exact builds_failAt_bind _ _ _ _ _
        · refine .bind (builds_caseBody placing heap) fun body last within hasBody => .pure ?_
          refine ⟨(has.lift within).each, fun other isDefault => ?_⟩
          obtain rfl := Option.some.inj isDefault
          exact hasBody
      · exact builds_failHere _ _ _

theorem builds_switchStmt (heap : Heap) : BuildsStmt heap (switchStmt bound inner) := by
  refine .skip silent_anyWord fun read => ?_
  refine .bind (builds_parenthesized placing heap) fun subject later _ hasSubject => ?_
  refine .skip (silent_expect .openCurly) fun _ => ?_
  have loop : Builds later (repeatRounds bound (caseRound bound inner) ([], none))
      fun state last => HasCases last state :=
    builds_repeatRounds (fun _ _ _ has => builds_caseRound placing has) bound ⟨nofun, nofun⟩
  refine .bind loop fun state last within has => ?_
  refine .skip (silent_expect .closeCurly) fun _ => ?_
  exact builds_stmt (fun _ => rfl) fun _ => ⟨within.expr hasSubject, has.each, has.default⟩

theorem builds_expressionStmt (heap : Heap) :
    BuildsStmt heap (do finishExpression (← inner .expression)) :=
  .bind (placing.expression heap) fun _ _ _ has => builds_finishExpression has

/-- The statements that begin with a keyword, one after the other. -/
theorem builds_wordStmt (heap : Heap) (keyword : String) :
    BuildsStmt heap (wordStmt bound inner keyword) := by
  unfold wordStmt
  split
  · exact builds_ifStmt placing heap
  · exact builds_whileStmt placing heap
  · exact builds_doStmt placing heap
  · exact builds_forStmt placing heap
  · exact builds_plainStmt heap "break" (fun _ => rfl) fun _ => trivial
  · exact builds_plainStmt heap "continue" (fun _ => rfl) fun _ => trivial
  · exact builds_returnStmt placing heap
  · exact builds_switchStmt placing heap
  · exact builds_switchStmt placing heap
  · exact builds_functionStmt placing heap
  · exact builds_packageStmt placing heap
  · exact .bind (builds_datablock placing heap) fun _ _ _ has => builds_finishExpression has
  · exact builds_failHere _ _ _
  · exact builds_failHere _ _ _
  · exact builds_failHere _ _ _
  · exact builds_expressionStmt placing heap

/-- A statement is a block, one that begins with a keyword, or an expression. -/
theorem builds_statement (heap : Heap) : BuildsStmt heap (statement bound inner) := by
  refine .skip silent_nextKind? fun kind => ?_
  split
  · exact .map (builds_block placing heap)
  · refine .skip (silent_expect .semicolon) fun span => ?_
    have node : BuildsStmt heap (markStmt span >>= fun mark => Pure.pure (.block ⟨mark, []⟩)) :=
      builds_stmt (fun _ => rfl) fun _ => nofun
    exact node
  · refine .skip silent_nextWord? fun word => ?_
    cases word with
    | some keyword => exact builds_wordStmt placing heap keyword
    | none => exact builds_expressionStmt placing heap
  · exact builds_expressionStmt placing heap

end Statements

/-- Every part of a script is built with its parts at their places. -/
theorem placing_goals (bound : Nat) : Placing (parser bound) := by
  induction bound with
  | zero => exact fun heap _ => builds_failHere heap _ _
  | succ bound ih =>
      intro heap goal
      cases goal with
      | statement => exact builds_nested (builds_statement ih heap)
      | expression => exact builds_nested (builds_assignment ih heap)
      | operand => exact builds_operand ih heap
      | newObject => exact builds_newObject ih heap
      | datablock => exact builds_datablock ih heap

theorem builds_root (heap : Heap) (bound : Nat) : BuildsStmts heap (root bound) := by
  have each (stmts : List Stmt) (later : Heap) (has : ∀ stmt ∈ stmts, later.HasStmt stmt) :
      Builds later (rootRound bound stmts) Collecting := by
    refine .skip silent_next? fun token => ?_
    cases token with
    | none => exact builds_collected has
    | some token => exact builds_collecting ((placing_goals bound).statement later) has
  exact builds_repeatRounds (fun stmts later _ has => each stmts later has) bound nofun

end Parse

/-- What a compilation leaves behind is what reading the statements of the source does. -/
theorem compileSource_leaves (source : Source) (symbols : SymbolTable) :
    symbols.Grows (compileSource source symbols).2 ∧
      ∀ script, (compileSource source symbols).1 = .ok script →
        ∃ heap : Heap, heap.OfScript script := by
  unfold compileSource
  cases Token.scan source.bytes with
  | error fault => exact ⟨.refl symbols, nofun⟩
  | ok tokens =>
      have built := Parse.builds_root .empty (Parse.stepsFor tokens)
        (Parse.start (some nestingLimit) symbols tokens) Heap.closed_empty rfl
      simp only
      unfold Parse.runRoot
      cases ran : Parse.root (Parse.stepsFor tokens)
          (Parse.start (some nestingLimit) symbols tokens) with
      | error fault state =>
          rw [ran] at built
          exact ⟨built, nofun⟩
      | ok root state =>
          rw [ran] at built
          obtain ⟨grows, heap, _, closed, counts, has⟩ := built
          refine ⟨grows, fun script compiled => ⟨heap, ?_⟩⟩
          obtain rfl := Except.ok.inj compiled
          exact ⟨closed, counts, has⟩

/-- A compilation interns names and does nothing else to a table of symbols. -/
theorem grows_compileSource (source : Source) (symbols : SymbolTable) :
    symbols.Grows (compileSource source symbols).2 :=
  (compileSource_leaves source symbols).1

/-- The nodes of a compiled script form a closed heap with the statements of the script. -/
theorem compileSource_heap {source : Source} {symbols : SymbolTable} {script : Script}
    (compiled : (compileSource source symbols).1 = .ok script) :
    ∃ heap : Heap, heap.OfScript script :=
  (compileSource_leaves source symbols).2 script compiled

end ScriptConsole
