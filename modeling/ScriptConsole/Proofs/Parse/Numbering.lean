import ScriptConsole.Proofs.Parse.Collects

/-! # Numbers of nodes

Every part of the grammar collects the nodes of what it gives, and no others. So the walk through a
compiled script comes to every node that was numbered, and to each once
(`ScriptConsole.compileSource_numbered`).
-/

namespace ScriptConsole

namespace Parse

/-- The nodes of a part of a script. -/
def Goal.walk : (goal : Goal) → goal.Result → List Node
  | .statement => Stmt.walk
  | .expression => Expr.walk
  | .operand => Expr.walk
  | .newObject => ObjectDecl.walk
  | .datablock => ObjectDecl.walk

/-- The nodes of what a part contains are collected. -/
def Thorough (inner : Parser) : Prop :=
  ∀ goal : Goal, Collects [] (inner goal) goal.walk

variable {bound : Nat} {inner : Parser} {before : List Node}

section Expressions

theorem collects_literal (span : Span) (value : Literal) :
    Collects [] (markExpr span >>= fun mark => Pure.pure (.literal mark value)) Expr.walk :=
  collects_expr (fun _ => rfl) fun _ => .refl _

theorem collects_truth (value : Int64) : Collects [] (truth value) Expr.walk :=
  .skip composed_anyWord fun _ => collects_literal _ _

theorem Thorough.expression (thorough : Thorough inner) :
    Collects [] (inner .expression) Expr.walk :=
  thorough .expression

variable (thorough : Thorough inner)
include thorough

theorem collects_parenthesized : Collects [] (parenthesized inner) Expr.walk :=
  .skip (composed_expect .openParen) fun _ => .bind thorough.expression fun _ =>
    .skip (composed_expect .closeParen) fun _ => .pure (.refl _)

theorem collects_optional (terminator : Punct) :
    Collects [] (optional inner terminator) Expr.walk? := by
  refine .skip (composed_nextIs terminator) fun missing => ?_
  cases missing with
  | true => exact .pure (.refl _)
  | false => exact .bind thorough.expression fun expr => .pure (.refl _)

theorem collects_arguments : Collects [] (arguments bound inner) Expr.walks :=
  collects_list listed_exprs thorough.expression bound _ _ _ _

theorem collects_indices : Collects [] (indices bound inner) Expr.walks := by
  refine .skip composed_here fun start => ?_
  refine .bind (collects_list? listed_exprs thorough.expression bound _ _ _) fun read => ?_
  match read with
  | none => exact .pure (.refl _)
  | some [] => exact collects_failAt _ _ _ _
  | some (expr :: exprs) => exact .pure (.refl _)

theorem collects_qualifiedCall (space : String) (first : Span) :
    Collects [] (qualifiedCall bound inner space first) Expr.walk := by
  refine .skip (composed_intern space) fun spaceSymbol => ?_
  refine .skip composed_name fun read => .skip (composed_intern read.1) fun function => ?_
  refine .bind (collects_arguments thorough) fun exprs => ?_
  exact collects_expr (fun _ => rfl) fun _ => .refl _

/-- What begins with a name numbers its arguments and itself, and nothing besides. -/
theorem collects_namedExpr : Collects [] (namedExpr bound inner) Expr.walk := by
  refine .skip composed_name fun read => .skip (composed_accept .colonColon) fun qualified => ?_
  cases qualified with
  | true => exact collects_qualifiedCall thorough read.1 read.2
  | false =>
      refine .skip (composed_nextIs .openParen) fun called => ?_
      cases called with
      | true =>
          refine .skip (composed_intern read.1) fun function => ?_
          refine .bind (collects_arguments thorough) fun exprs => ?_
          exact collects_expr (fun _ => rfl) fun _ => .refl _
      | false => exact .skip (composed_constant read.1) fun value => collects_literal _ _

theorem collects_detagExpr : Collects [] (detagExpr inner) Expr.walk := by
  refine .skip (composed_word "detag") fun span => ?_
  refine .bind (collects_parenthesized thorough) fun operand => ?_
  exact collects_expr (fun _ => rfl) fun _ => .refl _

theorem collects_fieldInit : Collects [] (fieldInit bound inner) FieldInit.inside := by
  refine .skip composed_anyWord fun read => .skip (composed_intern read.1) fun field => ?_
  refine .bind (collects_indices thorough) fun exprs => ?_
  refine .skip (composed_expect .equals) fun _ => .bind thorough.expression fun value => ?_
  exact .skip (composed_expect .semicolon) fun _ => .pure (.refl _)

/-- The nodes in the body of a declaration. -/
def memberNodes (members : List FieldInit × List ObjectDecl) : List Node :=
  FieldInit.insides members.1 ++ ObjectDecl.walks members.2

/-- The fields and objects of a body are kept in reverse, which numbers the same nodes. -/
theorem collects_memberRound (state : List FieldInit × List ObjectDecl) :
    Collects (memberNodes state) (memberRound bound inner state)
      (Collects.turn memberNodes memberNodes) := by
  obtain ⟨fields, children⟩ := state
  have child {read : Parse ObjectDecl} (collects : Collects [] read ObjectDecl.walk) :
      Collects (memberNodes (fields, children))
        (do
          let child ← read
          let _ ← expect .semicolon
          return .again (fields, child :: children))
        (Collects.turn memberNodes memberNodes) := by
    refine .bind collects fun child => .skip (composed_expect .semicolon) fun _ => .pure ?_
    change (_ ++ _ ++ _ : List Node).Perm (_ ++ _)
    rw [List.append_assoc]
    exact (listed_objects.cons child children).append_left _
  refine .skip composed_nextKind? fun kind => ?_
  split
  · exact .pure ((listed_fields.reverse fields).append (listed_objects.reverse children))
  · exact .skip composed_pass fun _ => .pure (.refl _)
  · refine .skip (composed_nextIsWord "new") fun isNew => ?_
    cases isNew with
    | true => exact child (thorough .newObject)
    | false =>
        refine .skip (composed_nextIsWord "datablock") fun isDatablock => ?_
        cases isDatablock with
        | true => exact child (thorough .datablock)
        | false =>
            refine .bind (collects_fieldInit thorough) fun field => .pure ?_
            exact List.perm_append_comm.trans (.of_eq (List.append_assoc _ _ _).symm)
  · exact collects_failHere _ _ _

theorem collects_objectBody : Collects [] (objectBody bound inner) memberNodes := by
  refine .skip (composed_expect .openCurly) fun _ => ?_
  have loop : Collects [] (repeatRounds bound (memberRound bound inner) ([], [])) memberNodes :=
    .repeatRounds (collects_memberRound thorough) bound ([], [])
  exact .bind loop fun members => .skip (composed_expect .closeCurly) fun _ => .pure (.refl _)

omit thorough in
/-- The last steps of a declaration number it. -/
theorem collects_object {span : Span} {isDatablock : Bool} {className : Symbol}
    {name : Option Expr} {copied : Option Symbol} {members : List FieldInit × List ObjectDecl} :
    Collects (Expr.walk? name ++ memberNodes members) (markExpr span >>= fun mark => Pure.pure
      ⟨mark, isDatablock, className, name, copied, members.1, members.2⟩) ObjectDecl.walk := by
  have inside (mark : Mark) : (Expr.walk? name ++ memberNodes members).Perm
      (Expr.object ⟨mark, isDatablock, className, name, copied, members.1, members.2⟩).inside :=
    .of_eq (List.append_assoc _ _ _).symm
  exact .andThen (collects_markExpr (fun _ => rfl) inside) fun _ => .pure (.refl _)

/-- A declaration numbers its name, its members and itself. -/
theorem collects_newObject : Collects [] (newObject bound inner) ObjectDecl.walk := by
  refine .skip (composed_declaredClass "new") fun declared => ?_
  refine .skip (composed_expect .openParen) fun _ => .skip composed_nextKind? fun kind => ?_
  have finish (name : Option Expr) : Collects (Expr.walk? name)
      (do
        let copied ← copySource
        let _ ← expect .closeParen
        let members ← if ← nextIs .openCurly then objectBody bound inner else Pure.pure ([], [])
        return ⟨← markExpr declared.2, false, declared.1, name, copied, members.1, members.2⟩)
      ObjectDecl.walk := by
    refine .skip composed_copySource fun copied => .skip (composed_expect .closeParen) fun _ => ?_
    refine .skip (composed_nextIs .openCurly) fun hasBody => ?_
    cases hasBody with
    | true => exact .bind (collects_objectBody thorough) fun members => collects_object
    | false =>
        have none : Collects [] (Pure.pure ([], [])) memberNodes := .pure (.refl _)
        exact .bind none fun members => collects_object
  split
  · exact finish none
  · exact finish none
  · have named : Collects [] (some <$> inner .expression) Expr.walk? := .map thorough.expression
    exact .bind named finish

theorem collects_datablock : Collects [] (datablock bound inner) ObjectDecl.walk := by
  refine .skip (composed_declaredClass "datablock") fun declared => ?_
  refine .skip (composed_expect .openParen) fun _ => .skip composed_name fun read => ?_
  refine .skip (composed_constant read.1) fun value => ?_
  have named : Collects [] (markExpr read.2) fun mark =>
      Expr.walk? (some (.literal mark (.text value))) :=
    collects_markExpr (fun _ => rfl) fun _ => .refl _
  refine .bind named fun nameMark => ?_
  refine .skip composed_copySource fun copied => .skip (composed_expect .closeParen) fun _ => ?_
  exact .bind (collects_objectBody thorough) fun members => collects_object

/-- What begins with an identifier numbers what its word tells. -/
theorem collects_wordExpr : Collects [] (wordExpr bound inner) Expr.walk := by
  refine .skip composed_nextWord? fun word => ?_
  split
  · exact collects_truth 1
  · exact collects_truth 0
  · exact .map (collects_newObject thorough)
  · refine .skip (.quiet quiet_secondKind?) fun kind => ?_
    split
    · exact collects_detagExpr thorough
    · exact collects_namedExpr thorough
  · exact collects_namedExpr thorough

/-- An operand numbers its parts and itself. Parentheses number nothing. -/
theorem collects_primary : Collects [] (primary bound inner) Expr.walk := by
  have text : Collects []
      (do
        let read ← string
        return .literal (← markExpr read.2) read.1)
      Expr.walk :=
    .skip composed_string fun _ => collects_literal _ _
  have place : Collects []
      (do
        let read ← variableName
        let symbol ← intern read.1
        let exprs ← indices bound inner
        return .variable (← markExpr read.2.2) read.2.1 symbol exprs)
      Expr.walk := by
    refine .skip composed_variableName fun read => .skip (composed_intern read.1) fun symbol => ?_
    refine .bind (collects_indices thorough) fun exprs => ?_
    exact collects_expr (fun _ => rfl) fun _ => .refl _
  refine .skip composed_nextKind? fun kind => ?_
  split
  · exact collects_parenthesized thorough
  · exact .skip composed_number fun _ => collects_literal _ _
  · exact text
  · exact text
  · exact place
  · exact place
  · exact collects_wordExpr thorough
  · exact collects_failHere _ _ _

omit thorough in
theorem collects_stepAfter (op : UnaryOp) (operand : Expr) (span : Span) :
    Collects operand.walk (stepAfter op operand span) Expr.walk := by
  refine .skip composed_pass fun _ => ?_
  split
  · exact collects_expr (fun _ => rfl) fun _ => .refl _
  · exact collects_failAt _ _ _ _

/-- The object was numbered before. A member behind it adds its indices or arguments and itself. -/
theorem collects_memberAfter (object : Expr) :
    Collects object.walk (memberAfter bound inner object) Expr.walk := by
  refine .skip composed_pass fun _ => .skip composed_anyWord fun read => ?_
  refine .skip (composed_intern read.1) fun symbol => ?_
  refine .skip (composed_nextIs .openParen) fun called => ?_
  cases called with
  | true =>
      refine .bind (collects_arguments thorough) fun exprs => ?_
      exact collects_expr (fun _ => rfl) fun _ => .refl _
  | false =>
      refine .bind (collects_indices thorough) fun exprs => ?_
      exact collects_expr (fun _ => rfl) fun _ => .refl _

omit thorough in
/-- A loop that grows an expression takes it up in each round. -/
theorem collects_growing {parser : Parse Expr} (collects : Collects before parser Expr.walk) :
    Collects before (do return .again (← parser)) (Collects.turn Expr.walk Expr.walk) :=
  .andThen collects fun _ => .pure (.refl _)

/-- A round behind an operand wraps the operand and leaves no node of it behind. -/
theorem collects_suffixRound (operand : Expr) :
    Collects operand.walk (suffixRound bound inner operand)
      (Collects.turn Expr.walk Expr.walk) := by
  refine .skip composed_next? fun token => ?_
  cases token with
  | none => exact .pure (.refl _)
  | some token =>
      simp only
      split
      · exact collects_growing (collects_stepAfter .postIncrement operand token.span)
      · exact collects_growing (collects_stepAfter .postDecrement operand token.span)
      · exact collects_growing (collects_memberAfter thorough operand)
      · exact .pure (.refl _)

theorem collects_suffixed : Collects [] (suffixed bound inner) Expr.walk :=
  .bind (collects_primary thorough) fun expr =>
    .repeatRounds (collects_suffixRound thorough) bound expr

/-- Operators in front of an operand number one node each around it. -/
theorem collects_operand : Collects [] (operand bound inner) Expr.walk := by
  refine .skip (composed_nextOperator? prefixOf?) fun found => ?_
  cases found with
  | none => exact collects_suffixed thorough
  | some found =>
      obtain ⟨op, span⟩ := found
      refine .skip composed_pass fun _ => .bind (.nested (thorough .operand)) fun expr => ?_
      simp only
      split
      · exact collects_failAt_bind _ _ _ _ _
      · exact collects_expr (fun _ => rfl) fun _ => .refl _

omit thorough in
/-- A round of a level wraps the left operand and adds the right one. -/
theorem collects_levelRound {tighter : Parse Expr} (collects : Collects [] tighter Expr.walk)
    (level : List (OperatorToken × BinaryOp)) (left : Expr) :
    Collects left.walk (levelRound tighter level left) (Collects.turn Expr.walk Expr.walk) := by
  refine .skip composed_next? fun token => ?_
  cases token with
  | none => exact .pure (.refl _)
  | some token =>
      simp only
      split
      · refine .skip composed_pass fun _ => .bind collects fun right => ?_
        have node (op : BinaryOp) : Collects (left.walk ++ right.walk)
            (markExpr token.span >>= fun mark => Pure.pure (.binary mark op left right))
            Expr.walk :=
          collects_expr (fun _ => rfl) fun _ => .refl _
        exact collects_growing (node _)
      · exact .pure (.refl _)

theorem collects_binary (levels : List (List (OperatorToken × BinaryOp))) :
    Collects [] (binary bound inner levels) Expr.walk := by
  induction levels with
  | nil => exact collects_operand thorough
  | cons level tighter ih =>
      exact .bind ih fun first => .repeatRounds (collects_levelRound ih level) bound first

/-- A choice numbers its test, both of its branches and itself. -/
theorem collects_conditional : Collects [] (conditional bound inner) Expr.walk := by
  refine .bind (collects_binary thorough binaryLevels) fun test => ?_
  refine .skip composed_next? fun token => ?_
  cases token with
  | none => exact .pure (.refl _)
  | some token =>
      simp only
      split
      · refine .skip composed_pass fun _ => .bind thorough.expression fun yes => ?_
        refine .skip (composed_expect .colon) fun _ => .bind thorough.expression fun no => ?_
        exact collects_expr (fun _ => rfl) fun _ => .refl _
      · exact .pure (.refl _)

/-- An assignment numbers its target, its value and itself. -/
theorem collects_assignment : Collects [] (assignment bound inner) Expr.walk := by
  refine .bind (collects_conditional thorough) fun target => ?_
  refine .skip (composed_nextOperator? assignOf?) fun found => ?_
  cases found with
  | none => exact .pure (.refl _)
  | some found =>
      obtain ⟨op, span⟩ := found
      simp only
      split
      · exact collects_failAt_bind _ _ _ _ _
      · refine .skip composed_pass fun _ => .bind thorough.expression fun value => ?_
        exact collects_expr (fun _ => rfl) fun _ => .refl _

end Expressions

section Statements

theorem collects_finishExpression (expr : Expr) :
    Collects expr.walk (finishExpression expr) Stmt.walk :=
  .skip (composed_expect .semicolon) fun _ => collects_stmt (fun _ => rfl) fun _ => .refl _

theorem collects_plainStmt (keyword : String) {build : Mark → Stmt}
    (marked : ∀ mark, (build mark).mark = mark) (none : ∀ mark, (build mark).inside = []) :
    Collects [] (plainStmt keyword build) Stmt.walk :=
  .skip (composed_word keyword) fun _ => .skip (composed_expect .semicolon) fun _ =>
    collects_stmt marked fun mark => .of_eq (none mark).symm

theorem Thorough.statement (thorough : Thorough inner) :
    Collects [] (inner .statement) Stmt.walk :=
  thorough .statement

variable (thorough : Thorough inner)
include thorough

theorem collects_blockRound (stmts : List Stmt) :
    Collects (Stmt.walks stmts) (blockRound inner stmts)
      (Collects.turn Stmt.walks Stmt.walks) := by
  refine .skip composed_nextKind? fun kind => ?_
  split
  · exact collects_collected listed_stmts stmts
  · exact collects_collected listed_stmts stmts
  · exact collects_collecting listed_stmts thorough.statement stmts

theorem collects_block : Collects [] (block bound inner) Block.walk := by
  refine .skip (composed_expect .openCurly) fun first => ?_
  have loop : Collects [] (repeatRounds bound (blockRound inner) []) Stmt.walks :=
    .repeatRounds (collects_blockRound thorough) bound []
  refine .bind loop fun stmts => .skip (composed_expect .closeCurly) fun last => ?_
  have node : Collects (Stmt.walks stmts) (markStmt ⟨first.first, last.last⟩) fun mark =>
      Block.walk ⟨mark, stmts⟩ :=
    collects_markStmt (fun _ => rfl) fun _ => .refl _
  exact .andThen node fun mark => .pure (.refl _)

/-- A definition numbers its body and itself. Names and parameters are no nodes. -/
theorem collects_functionDef : Collects [] (functionDef bound inner) FunctionDef.walk := by
  refine .skip (composed_word "function") fun first => .skip composed_functionName fun named => ?_
  refine .passed ((composed_list composed_parameter _ _ _ _).keepsCounts bound inner)
    fun parameters => ?_
  have finish : Collects []
      (do
        let symbols ← internAll (parameters.map Prod.fst)
        let body ← block bound inner
        return ⟨← markDefinition ⟨first.first, named.2.2.last⟩, named.1, named.2.1, symbols, body⟩)
      FunctionDef.walk := by
    refine .skip (composed_internAll _) fun symbols => ?_
    refine .bind (collects_block thorough) fun body => ?_
    have node : Collects body.walk (markDefinition ⟨first.first, named.2.2.last⟩) fun mark =>
        FunctionDef.walk ⟨mark, named.1, named.2.1, symbols, body⟩ :=
      collects_markDefinition (fun _ => rfl) fun _ => .refl _
    exact .andThen node fun mark => .pure (.refl _)
  simp only
  split
  · exact collects_failAt_bind _ _ _ _ _
  · exact finish

theorem collects_functionStmt : Collects [] (functionStmt bound inner) Stmt.walk := by
  refine .bind (collects_functionDef thorough) fun definition => ?_
  exact collects_stmt (fun _ => rfl) fun _ => .refl _

/-- A round of a package adds the nodes of one more definition, or of none. -/
theorem collects_packageRound (definitions : List FunctionDef) :
    Collects (FunctionDef.walks definitions) (packageRound bound inner definitions)
      (Collects.turn FunctionDef.walks FunctionDef.walks) := by
  refine .skip composed_nextKind? fun kind => ?_
  split
  · exact collects_collected listed_definitions definitions
  · exact .skip composed_pass fun _ => .pure (.refl _)
  · refine .skip (composed_nextIsWord "function") fun isFunction => ?_
    cases isFunction with
    | true =>
        exact collects_collecting listed_definitions (collects_functionDef thorough) definitions
    | false => exact collects_failHere _ _ _

theorem collects_packageStmt : Collects [] (packageStmt bound inner) Stmt.walk := by
  refine .skip (composed_word "package") fun first => .skip composed_name fun read => ?_
  refine .skip (composed_intern read.1) fun package => ?_
  refine .skip (composed_expect .openCurly) fun _ => ?_
  have loop : Collects [] (repeatRounds bound (packageRound bound inner) []) FunctionDef.walks :=
    .repeatRounds (collects_packageRound thorough) bound []
  refine .bind loop fun definitions => .skip (composed_expect .closeCurly) fun _ => ?_
  refine .skip (composed_expect .semicolon) fun _ => ?_
  exact collects_stmt (fun _ => rfl) fun _ => .refl _

/-- A condition numbers its test, its branches and itself, with or without an `else`. -/
theorem collects_ifStmt : Collects [] (ifStmt inner) Stmt.walk := by
  refine .skip (composed_word "if") fun span => ?_
  refine .bind (collects_parenthesized thorough) fun test => .bind thorough.statement fun yes => ?_
  have finish (no : Option Stmt) : Collects (test.walk ++ yes.walk ++ Stmt.walk? no)
      (markStmt span >>= fun mark => Pure.pure (.branch mark test yes no)) Stmt.walk :=
    collects_stmt (fun _ => rfl) fun _ => .refl _
  refine .skip (composed_nextIsWord "else") fun hasElse => ?_
  cases hasElse with
  | true =>
      have read : Collects [] (some <$> inner .statement) Stmt.walk? := .map thorough.statement
      exact .skip composed_pass fun _ => .bind read finish
  | false =>
      have none : Collects [] (Pure.pure none) Stmt.walk? := .pure (.refl _)
      exact .bind none finish

theorem collects_whileStmt : Collects [] (whileStmt inner) Stmt.walk := by
  refine .skip (composed_word "while") fun span => ?_
  refine .bind (collects_parenthesized thorough) fun test => .bind thorough.statement fun body => ?_
  exact collects_stmt (fun _ => rfl) fun _ => .refl _

/-- The test that is written behind the body comes first in a walk. -/
theorem collects_doStmt : Collects [] (doStmt inner) Stmt.walk := by
  refine .skip (composed_word "do") fun span => .bind thorough.statement fun body => ?_
  refine .skip (composed_word "while") fun _ => ?_
  refine .bind (collects_parenthesized thorough) fun test => ?_
  refine .skip (composed_expect .semicolon) fun _ => ?_
  exact collects_stmt (fun _ => rfl) fun _ => List.perm_append_comm

theorem collects_forStmt : Collects [] (forStmt inner) Stmt.walk := by
  refine .skip (composed_word "for") fun span => .skip (composed_expect .openParen) fun _ => ?_
  refine .bind (collects_optional thorough .semicolon) fun initial => ?_
  refine .skip (composed_expect .semicolon) fun _ => ?_
  refine .bind (collects_optional thorough .semicolon) fun test => ?_
  refine .skip (composed_expect .semicolon) fun _ => ?_
  refine .bind (collects_optional thorough .closeParen) fun step => ?_
  refine .skip (composed_expect .closeParen) fun _ => .bind thorough.statement fun body => ?_
  exact collects_stmt (fun _ => rfl) fun _ => .refl _

theorem collects_returnStmt : Collects [] (returnStmt inner) Stmt.walk := by
  refine .skip (composed_word "return") fun span => ?_
  refine .bind (collects_optional thorough .semicolon) fun value => ?_
  refine .skip (composed_expect .semicolon) fun _ => ?_
  exact collects_stmt (fun _ => rfl) fun _ => .refl _

theorem collects_valueRound (values : List Expr) :
    Collects (Expr.walks values) (valueRound inner values)
      (Collects.turn Expr.walks Expr.walks) := by
  refine .skip (composed_nextIsWord "or") fun more => ?_
  cases more with
  | true =>
      exact .skip composed_pass fun _ => collects_collecting listed_exprs thorough.expression values
  | false => exact collects_collected listed_exprs values

theorem collects_caseBody : Collects [] (caseBody bound inner) Stmt.walks := by
  have each (stmts : List Stmt) : Collects (Stmt.walks stmts) (caseBodyRound inner stmts)
      (Collects.turn Stmt.walks Stmt.walks) := by
    refine .skip composed_caseEnds fun ends => ?_
    cases ends with
    | true => exact collects_collected listed_stmts stmts
    | false => exact collects_collecting listed_stmts thorough.statement stmts
  exact .skip (composed_expect .colon) fun _ => .repeatRounds each bound []

/-- The nodes in the cases of a switch and in its default. -/
def caseNodes (state : Cases) : List Node :=
  SwitchCase.insides state.1 ++ Stmt.walksDefault state.2

/-- A round of a switch adds the nodes of one more case or of the default. A case is no node of its
own. -/
theorem collects_caseRound (state : Cases) :
    Collects (caseNodes state) (caseRound bound inner state)
      (Collects.turn caseNodes caseNodes) := by
  obtain ⟨cases_, default⟩ := state
  refine .skip (composed_nextIs .closeCurly) fun closed => ?_
  cases closed with
  | true => exact .pure ((listed_cases.reverse cases_).append_right _)
  | false =>
      refine .skip composed_nextWord? fun word => ?_
      simp only
      split
      · refine .skip composed_anyWord fun read => .bind thorough.expression fun first => ?_
        have values : Collects first.walk (repeatRounds bound (valueRound inner) [first])
            Expr.walks :=
          .of_perm (.of_eq (List.append_nil _).symm)
            (.repeatRounds (collects_valueRound thorough) bound [first])
        refine .andThen (values.frame _) fun values => ?_
        refine .bind (collects_caseBody thorough) fun body => .pure ?_
        change (_ ++ _ ++ _ ++ _ : List Node).Perm (_ ++ _ ++ _ ++ _)
        rw [List.append_assoc, List.append_assoc (_ ++ _) _ (Stmt.walksDefault default)]
        exact List.perm_append_comm
      · refine .skip composed_anyWord fun read => ?_
        split
        · exact collects_failAt_bind _ _ _ _ _
        next first =>
          obtain rfl : default = none := by simpa using first
          refine .bind (collects_caseBody thorough) fun body => .pure ?_
          exact .of_eq (congrArg (· ++ Stmt.walks body) (List.append_nil _))
      · exact collects_failHere _ _ _

theorem collects_switchStmt : Collects [] (switchStmt bound inner) Stmt.walk := by
  refine .skip composed_anyWord fun read => ?_
  refine .bind (collects_parenthesized thorough) fun subject => ?_
  refine .skip (composed_expect .openCurly) fun _ => ?_
  have loop : Collects [] (repeatRounds bound (caseRound bound inner) ([], none)) caseNodes :=
    .repeatRounds (collects_caseRound thorough) bound ([], none)
  refine .bind loop fun state => .skip (composed_expect .closeCurly) fun _ => ?_
  exact collects_stmt (fun _ => rfl) fun _ => .of_eq (List.append_assoc _ _ _).symm

theorem collects_expressionStmt :
    Collects [] (do finishExpression (← inner .expression)) Stmt.walk :=
  .bind thorough.expression collects_finishExpression

/-- The statements that begin with a keyword, one after the other. -/
theorem collects_wordStmt (keyword : String) :
    Collects [] (wordStmt bound inner keyword) Stmt.walk := by
  unfold wordStmt
  split
  · exact collects_ifStmt thorough
  · exact collects_whileStmt thorough
  · exact collects_doStmt thorough
  · exact collects_forStmt thorough
  · exact collects_plainStmt "break" (fun _ => rfl) fun _ => rfl
  · exact collects_plainStmt "continue" (fun _ => rfl) fun _ => rfl
  · exact collects_returnStmt thorough
  · exact collects_switchStmt thorough
  · exact collects_switchStmt thorough
  · exact collects_functionStmt thorough
  · exact collects_packageStmt thorough
  · exact .bind (collects_datablock thorough) fun declaration =>
      collects_finishExpression (.object declaration)
  · exact collects_failHere _ _ _
  · exact collects_failHere _ _ _
  · exact collects_failHere _ _ _
  · exact collects_expressionStmt thorough

/-- Every statement numbers its parts and itself. A lone semicolon is an empty block. -/
theorem collects_statement : Collects [] (statement bound inner) Stmt.walk := by
  refine .skip composed_nextKind? fun kind => ?_
  split
  · exact .map (collects_block thorough)
  · refine .skip (composed_expect .semicolon) fun span => ?_
    have node : Collects [] (markStmt span >>= fun mark => Pure.pure (.block ⟨mark, []⟩))
        Stmt.walk :=
      collects_stmt (fun _ => rfl) fun _ => .refl _
    exact node
  · refine .skip composed_nextWord? fun word => ?_
    cases word with
    | some keyword => exact collects_wordStmt thorough keyword
    | none => exact collects_expressionStmt thorough
  · exact collects_expressionStmt thorough

end Statements

/-- The nodes of every part of a script are collected. -/
theorem thorough_goals (bound : Nat) : Thorough (parser bound) := by
  induction bound with
  | zero => exact fun goal => collects_failHere _ _ _
  | succ bound ih =>
      intro goal
      cases goal with
      | statement => exact .nested (collects_statement ih)
      | expression => exact .nested (collects_assignment ih)
      | operand => exact collects_operand ih
      | newObject => exact collects_newObject ih
      | datablock => exact collects_datablock ih

theorem collects_root (bound : Nat) : Collects [] (root bound) Stmt.walks := by
  have each (stmts : List Stmt) : Collects (Stmt.walks stmts) (rootRound bound stmts)
      (Collects.turn Stmt.walks Stmt.walks) := by
    refine .skip composed_next? fun token => ?_
    cases token with
    | none => exact collects_collected listed_stmts stmts
    | some token => exact collects_collecting listed_stmts (thorough_goals bound).statement stmts
  exact .repeatRounds each bound []

end Parse

/-- The nodes that were numbered for a script are those that a walk from its statements comes to. -/
theorem compileSource_spans {source : Source} {symbols : SymbolTable} {script : Script}
    (compiled : (compileSource source symbols).1 = .ok script) :
    ∃ heap : Heap, heap.Spans script.nodes ∧ heap.counts = script.counts := by
  unfold compileSource at compiled
  cases scanned : Token.scan source.bytes with
  | error fault =>
      rw [scanned] at compiled
      cases compiled
  | ok tokens =>
      rw [scanned] at compiled
      simp only at compiled
      cases ran : Parse.runRoot (some nestingLimit) symbols tokens with
      | error fault state =>
          rw [ran] at compiled
          cases compiled
      | ok root state =>
          rw [ran] at compiled
          cases compiled
          exact Parse.collects_root (Parse.stepsFor tokens) [] _ ⟨.empty, Heap.spans_empty, rfl⟩
            root state ran

/-- A compiled script has the nodes that a walk from its statements comes to and no others: each is
reached once, is at the place of its number, and has a greater number than the nodes of its sort
inside it. The parts of the script that are numbered are these nodes. -/
theorem compileSource_numbered {source : Source} {symbols : SymbolTable} {script : Script}
    (compiled : (compileSource source symbols).1 = .ok script) :
    (∃ heap : Heap, heap.counts = script.counts ∧ heap.Spans script.nodes) ∧
      (script.nodes.map Node.key).Nodup ∧ script.nodes.length = script.counts.total ∧
      (script.parts.filterMap fun part => part.2.number).Perm script.counts.keys := by
  obtain ⟨heap, spans, counts⟩ := compileSource_spans compiled
  have keys := spans.keys
  rw [counts] at keys
  refine ⟨⟨heap, counts, spans⟩, keys.nodup_iff.mpr script.counts.nodup_keys, ?_, ?_⟩
  · rw [spans.reached.length_eq, Heap.length_nodes, counts]
  · rw [script.keys_parts]
    exact keys

/-- A function with a loop, and a call of it. -/
def loopingText : String :=
  "function f(%a) { while (%a) { %a -= 1; } } f(2);"

/-- They have thirteen nodes. -/
theorem compileSource_numbered_loop :
    ∃ script, (compile "" loopingText (.empty 0)).1 = .ok script ∧
      script.nodes.length = 13 ∧ (script.nodes.map Node.key).Nodup ∧
      ∃ heap : Heap, heap.counts = script.counts ∧ heap.Spans script.nodes := by
  have total : (compile "" loopingText (.empty 0)).1.toOption.map
      (fun script => script.counts.total) = some 13 := by decide +kernel
  cases compiled : (compile "" loopingText (.empty 0)).1 with
  | error diagnostic =>
      rw [compiled] at total
      cases total
  | ok script =>
      rw [compiled] at total
      obtain ⟨heap, distinct, length, _⟩ := compileSource_numbered compiled
      exact ⟨script, rfl, length.trans (Option.some.inj total), distinct, heap⟩

end ScriptConsole
