import ScriptConsole.Proofs.Parse.Places
import ScriptConsole.Proofs.Token.Places

/-! # Where sources do not compile

Every part of the grammar complains about good places alone if all tokens are in good places
(`ScriptConsole.Parse.blaming_goals`). So the error that compiling a source returns is about a place
in the source, and it says where (`ScriptConsole.compileSource_located`).
-/

namespace ScriptConsole

namespace Parse

variable {good : Position → Prop} {bound : Nat} {inner : Parser}

/-- What is read as a part starts in a good place, as far as a complaint can be about it. -/
def Goal.Starts (good : Position → Prop) : (goal : Goal) → goal.Result → Prop
  | .statement, _ => True
  | .expression, expr => Parse.Starts good expr
  | .operand, expr => Parse.Starts good expr
  | .newObject, declaration => good declaration.mark.span.first
  | .datablock, declaration => good declaration.mark.span.first

/-- The parsers of what is inside blame good places only. -/
def Blaming (good : Position → Prop) (inner : Parser) : Prop :=
  ∀ goal : Goal, Places good (inner goal) (goal.Starts good)

section Expressions

theorem Blaming.expression (blaming : Blaming good inner) :
    Places good (inner .expression) (Starts good) :=
  blaming .expression

theorem places_literal {span : Span} (first : good span.first) (value : Literal) :
    Places good (markExpr span >>= fun mark => Pure.pure (.literal mark value)) (Starts good) :=
  places_expr first fun _ => rfl

theorem places_truth (value : Int64) : Places good (truth value) (Starts good) :=
  .bind places_anyWord fun _ first => places_literal first _

theorem places_declaredClass (keyword : String) :
    Places good (declaredClass keyword) fun declared => good declared.2.first := by
  refine .bind (places_word keyword) fun first placed => .bind places_name fun read _ => ?_
  exact .bind (places_intern _) fun _ _ => .pure placed

theorem places_copySource : Places good copySource fun _ => True := by
  refine .bind (places_accept .colon) fun copies _ => ?_
  cases copies with
  | true =>
      exact .bind places_name fun _ _ => .bind (places_intern _) fun _ _ => .pure trivial
  | false => exact .pure trivial

variable (blaming : Blaming good inner)
include blaming

theorem places_parenthesized : Places good (parenthesized inner) (Starts good) :=
  .bind (places_expect .openParen) fun _ _ => .bind blaming.expression fun _ first =>
    .bind (places_expect .closeParen) fun _ _ => .pure first

theorem places_optional (terminator : Punct) :
    Places good (optional inner terminator) fun _ => True := by
  refine .bind (places_nextIs terminator) fun missing _ => ?_
  cases missing with
  | true => exact .pure trivial
  | false => exact .bind blaming.expression fun _ _ => .pure trivial

theorem places_arguments : Places good (arguments bound inner) fun _ => True :=
  .mono (places_list blaming.expression bound _ _ _ _) fun _ _ => trivial

theorem places_indices : Places good (indices bound inner) fun _ => True := by
  refine .bind places_here fun start placed => ?_
  refine .bind (places_list? blaming.expression bound _ _ _) fun read _ => ?_
  match read with
  | none => exact .pure trivial
  | some [] => exact places_failAt placed _ _
  | some (expr :: exprs) => exact .pure trivial

theorem places_qualifiedCall (space : String) {first : Span} (placed : good first.first) :
    Places good (qualifiedCall bound inner space first) (Starts good) := by
  refine .bind (places_intern space) fun _ _ => .bind places_name fun read _ => ?_
  refine .bind (places_intern read.1) fun _ _ => .bind (places_arguments blaming) fun _ _ => ?_
  refine places_expr ?_ fun _ => rfl
  exact placed

/-- What begins with a name starts at the name. -/
theorem places_namedExpr : Places good (namedExpr bound inner) (Starts good) := by
  refine .bind places_name fun read first => .bind (places_accept .colonColon) fun qualified _ => ?_
  cases qualified with
  | true => exact places_qualifiedCall blaming read.1 first
  | false =>
      refine .bind (places_nextIs .openParen) fun called _ => ?_
      cases called with
      | true =>
          refine .bind (places_intern read.1) fun _ _ => ?_
          exact .bind (places_arguments blaming) fun _ _ => places_expr first fun _ => rfl
      | false => exact .bind (places_constant read.1) fun _ _ => places_literal first _

theorem places_detagExpr : Places good (detagExpr inner) (Starts good) :=
  .bind (places_word "detag") fun _ first => .bind (places_parenthesized blaming) fun _ _ =>
    places_expr first fun _ => rfl

theorem places_fieldInit : Places good (fieldInit bound inner) fun _ => True := by
  refine .bind places_anyWord fun read _ => .bind (places_intern read.1) fun _ _ => ?_
  refine .bind (places_indices blaming) fun _ _ => .bind (places_expect .equals) fun _ _ => ?_
  exact .bind blaming.expression fun _ _ => .bind (places_expect .semicolon) fun _ _ =>
    .pure trivial

/-- In the body of a declaration a complaint is about a field, an object inside it or the token
after it. -/
theorem places_memberRound (state : List FieldInit × List ObjectDecl) :
    Places good (memberRound bound inner state)
      (Places.turn (fun _ => True) fun _ => True) := by
  obtain ⟨fields, children⟩ := state
  have child {read : Parse ObjectDecl} {demand : ObjectDecl → Prop}
      (places : Places good read demand) : Places good
        (do
          let child ← read
          let _ ← expect .semicolon
          return .again (fields, child :: children))
        (Places.turn (fun _ => True) fun (_ : List FieldInit × List ObjectDecl) => True) :=
    .bind places fun _ _ => .bind (places_expect .semicolon) fun _ _ => .pure trivial
  refine .bind places_nextKind? fun kind _ => ?_
  split
  · exact .pure trivial
  · exact .bind places_pass fun _ _ => .pure trivial
  · refine .bind (places_nextIsWord "new") fun isNew _ => ?_
    cases isNew with
    | true => exact child (blaming .newObject)
    | false =>
        refine .bind (places_nextIsWord "datablock") fun isDatablock _ => ?_
        cases isDatablock with
        | true => exact child (blaming .datablock)
        | false => exact .bind (places_fieldInit blaming) fun _ _ => .pure trivial
  · exact places_failHere _ _

theorem places_objectBody : Places good (objectBody bound inner) fun _ => True :=
  .bind (places_expect .openCurly) fun _ _ =>
    .bind (places_repeatRounds (fun state _ => places_memberRound blaming state) bound trivial)
      fun _ _ => .bind (places_expect .closeCurly) fun _ _ => .pure trivial

/-- An object starts at its keyword. Whatever is complained about stands behind it. -/
theorem places_newObject : Places good (newObject bound inner) fun declaration =>
    good declaration.mark.span.first := by
  refine .bind (places_declaredClass "new") fun declared first => ?_
  refine .bind (places_expect .openParen) fun _ _ => .bind places_nextKind? fun kind _ => ?_
  have finish (name : Option Expr) : Places good
      (do
        let copied ← copySource
        let _ ← expect .closeParen
        let members ← if ← nextIs .openCurly then objectBody bound inner else Pure.pure ([], [])
        return ⟨← markExpr declared.2, false, declared.1, name, copied, members.1, members.2⟩)
      fun declaration : ObjectDecl => good declaration.mark.span.first := by
    refine .bind places_copySource fun copied _ => .bind (places_expect .closeParen) fun _ _ => ?_
    refine .bind (places_nextIs .openCurly) fun hasBody _ => ?_
    have marked (members : List FieldInit × List ObjectDecl) :
        Places good (markExpr declared.2 >>= fun mark => Pure.pure
          ⟨mark, false, declared.1, name, copied, members.1, members.2⟩)
        fun declaration : ObjectDecl => good declaration.mark.span.first :=
      .bind places_markExpr fun mark same => .pure (same ▸ first)
    cases hasBody with
    | true => exact .bind (places_objectBody blaming) fun members _ => marked members
    | false => exact marked ([], [])
  split
  · exact finish none
  · exact finish none
  · have named : Places good (some <$> inner .expression) fun _ => True :=
      .map (blaming.expression.mono fun _ _ => trivial)
    exact .bind named fun name _ => finish name

theorem places_datablock : Places good (datablock bound inner) fun declaration =>
    good declaration.mark.span.first := by
  refine .bind (places_declaredClass "datablock") fun declared first => ?_
  refine .bind (places_expect .openParen) fun _ _ => .bind places_name fun read _ => ?_
  refine .bind (places_constant read.1) fun _ _ => .bind places_markExpr fun _ _ => ?_
  refine .bind places_copySource fun _ _ => .bind (places_expect .closeParen) fun _ _ => ?_
  refine .bind (places_objectBody blaming) fun _ _ => ?_
  exact .bind places_markExpr fun mark same => .pure (same ▸ first)

/-- What begins with an identifier starts there. -/
theorem places_wordExpr : Places good (wordExpr bound inner) (Starts good) := by
  refine .bind places_nextWord? fun word _ => ?_
  split
  · exact places_truth 1
  · exact places_truth 0
  · exact .map (places_newObject blaming)
  · refine .bind places_secondKind? fun kind _ => ?_
    split
    · exact places_detagExpr blaming
    · exact places_namedExpr blaming
  · exact places_namedExpr blaming

/-- An operand starts in a good place: at its own token, or where the expression in its parentheses
does. -/
theorem places_primary : Places good (primary bound inner) (Starts good) := by
  have text : Places good
      (do
        let read ← string
        return .literal (← markExpr read.2) read.1)
      (Starts good) :=
    .bind places_string fun _ first => places_literal first _
  have place : Places good
      (do
        let read ← variableName
        let symbol ← intern read.1
        let exprs ← indices bound inner
        return .variable (← markExpr read.2.2) read.2.1 symbol exprs)
      (Starts good) := by
    refine .bind places_variableName fun read first => .bind (places_intern read.1) fun _ _ => ?_
    exact .bind (places_indices blaming) fun _ _ => places_expr first fun _ => rfl
  refine .bind places_nextKind? fun kind _ => ?_
  split
  · exact places_parenthesized blaming
  · exact .bind places_number fun _ first => places_literal first _
  · exact text
  · exact text
  · exact place
  · exact place
  · exact places_wordExpr blaming
  · exact places_failHere _ _

omit blaming in
theorem places_stepAfter (op : UnaryOp) (operand : Expr) {span : Span} (first : good span.first) :
    Places good (stepAfter op operand span) (Starts good) := by
  refine .bind places_pass fun _ _ => ?_
  split
  · exact places_expr first fun _ => rfl
  · exact places_failAt first _ _

theorem places_memberAfter (object : Expr) :
    Places good (memberAfter bound inner object) (Starts good) := by
  refine .bind places_pass fun _ _ => .bind places_anyWord fun read first => ?_
  refine .bind (places_intern read.1) fun _ _ => .bind (places_nextIs .openParen) fun called _ => ?_
  cases called with
  | true => exact .bind (places_arguments blaming) fun _ _ => places_expr first fun _ => rfl
  | false => exact .bind (places_indices blaming) fun _ _ => places_expr first fun _ => rfl

omit blaming in
/-- A loop that grows an expression goes on from what was read. -/
theorem places_growing {parser : Parse Expr} (places : Places good parser (Starts good)) :
    Places good (do return .again (← parser)) (Places.turn (Starts good) (Starts good)) :=
  .bind places fun _ first => .pure first

theorem places_suffixRound {operand : Expr} (first : Starts good operand) :
    Places good (suffixRound bound inner operand) (Places.turn (Starts good) (Starts good)) := by
  refine .peek (.pure first) fun token next => ?_
  dsimp only
  split
  · exact places_growing (places_stepAfter .postIncrement operand next)
  · exact places_growing (places_stepAfter .postDecrement operand next)
  · exact places_growing (places_memberAfter blaming operand)
  · exact .pure first

theorem places_suffixed : Places good (suffixed bound inner) (Starts good) :=
  .bind (places_primary blaming) fun _ first =>
    places_repeatRounds (fun _ => places_suffixRound blaming) bound first

/-- An operand starts at the operator in front of it, if there is one. -/
theorem places_operand : Places good (operand bound inner) (Starts good) := by
  refine .bind (places_nextOperator? prefixOf?) fun found placed => ?_
  cases found with
  | none => exact places_suffixed blaming
  | some found =>
      obtain ⟨op, span⟩ := found
      have first : good span.first := placed _ rfl
      refine .bind places_pass fun _ _ => .bind (.nested (blaming .operand)) fun expr _ => ?_
      dsimp only
      split
      · exact places_failAt_bind first _ _ _
      · exact places_expr first fun _ => rfl

omit blaming in
/-- What operators join starts where its first operand does. -/
theorem places_levelRound {tighter : Parse Expr} (places : Places good tighter (Starts good))
    (level : List (OperatorToken × BinaryOp)) {left : Expr} (start : Starts good left) :
    Places good (levelRound tighter level left) (Places.turn (Starts good) (Starts good)) := by
  refine .peek (.pure start) fun token first => ?_
  dsimp only
  split
  next op _ =>
    refine .bind places_pass fun _ _ => .bind places fun right _ => ?_
    have node : Places good (markExpr token.span >>= fun mark =>
        Pure.pure (.binary mark op left right)) (Starts good) := places_expr first fun _ => rfl
    exact places_growing node
  next => exact .pure start

theorem places_binary (levels : List (List (OperatorToken × BinaryOp))) :
    Places good (binary bound inner levels) (Starts good) := by
  induction levels with
  | nil => exact places_operand blaming
  | cons level tighter ih =>
      exact .bind ih fun _ first =>
        places_repeatRounds (fun _ => places_levelRound ih level) bound first

theorem places_conditional : Places good (conditional bound inner) (Starts good) := by
  refine .bind (places_binary blaming binaryLevels) fun test start => ?_
  refine .peek (.pure start) fun token first => ?_
  dsimp only
  split
  · refine .bind places_pass fun _ _ => .bind blaming.expression fun yes _ => ?_
    refine .bind (places_expect .colon) fun _ _ => .bind blaming.expression fun no _ => ?_
    exact places_expr first fun _ => rfl
  · exact .pure start

/-- An assignment starts at its target, which is what a complaint about it names. -/
theorem places_assignment : Places good (assignment bound inner) (Starts good) := by
  refine .bind (places_conditional blaming) fun target start => ?_
  refine .bind (places_nextOperator? assignOf?) fun found placed => ?_
  cases found with
  | none => exact .pure start
  | some found =>
      obtain ⟨op, span⟩ := found
      have first : good span.first := placed _ rfl
      dsimp only
      split
      · exact places_failAt_bind start _ _ _
      · refine .bind places_pass fun _ _ => .bind blaming.expression fun value _ => ?_
        exact places_expr first fun _ => rfl

end Expressions

section Statements

theorem places_finishExpression (expr : Expr) : Places good (finishExpression expr) fun _ => True :=
  .bind (places_expect .semicolon) fun _ _ => places_stmt

theorem places_plainStmt (keyword : String) (build : Mark → Stmt) :
    Places good (plainStmt keyword build) fun _ => True :=
  .bind (places_word keyword) fun _ _ => .bind (places_expect .semicolon) fun _ _ => places_stmt

theorem places_parameter : Places good parameter fun read => good read.2.first := by
  refine .bind places_variableName fun read first => ?_
  dsimp only
  split
  · exact .pure first
  · exact places_failAt first _ _

/-- A parameter that is named twice is blamed at one of its own places. -/
theorem mem_of_duplicate? {earlier : List String} {parameters : List (String × Span)} {span : Span}
    (found : duplicate? earlier parameters = some span) : ∃ text, (text, span) ∈ parameters := by
  induction parameters generalizing earlier with
  | nil => contradiction
  | cons parameter parameters ih =>
      obtain ⟨text, place⟩ := parameter
      rw [duplicate?] at found
      split at found
      · obtain rfl := Option.some.inj found
        exact ⟨text, List.mem_cons_self⟩
      · obtain ⟨other, member⟩ := ih found
        exact ⟨other, List.mem_cons_of_mem _ member⟩

theorem places_internAll (names : List String) : Places good (internAll names) fun _ => True := by
  induction names with
  | nil => exact .pure trivial
  | cons text names ih =>
      exact .bind (places_intern text) fun _ _ => .bind ih fun _ _ => .pure trivial

theorem places_functionName : Places good functionName fun _ => True := by
  refine .bind places_name fun read _ => .bind (places_accept .colonColon) fun qualified _ => ?_
  cases qualified with
  | true =>
      refine .bind places_name fun _ _ => .bind (places_intern _) fun _ _ => ?_
      exact .bind (places_intern _) fun _ _ => .pure trivial
  | false => exact .bind (places_intern _) fun _ _ => .pure trivial

theorem places_caseEnds : Places good caseEnds fun _ => True := by
  refine .bind places_nextKind? fun kind _ => ?_
  split
  · exact .pure trivial
  · exact .pure trivial
  · refine .bind (places_nextIsWord "case") fun isCase _ => ?_
    cases isCase with
    | true => exact .pure trivial
    | false => exact places_nextIsWord "default"

variable (blaming : Blaming good inner)
include blaming

theorem Blaming.statement : Places good (inner .statement) fun _ => True :=
  blaming .statement

theorem places_blockRound (stmts : List Stmt) :
    Places good (blockRound inner stmts) (Places.turn (fun _ => True) fun _ => True) := by
  refine .bind places_nextKind? fun kind _ => ?_
  split
  · exact .pure trivial
  · exact .pure trivial
  · exact .bind blaming.statement fun _ _ => .pure trivial

theorem places_block : Places good (block bound inner) fun _ => True := by
  refine .bind (places_expect .openCurly) fun first _ => ?_
  refine .bind (places_repeatRounds (fun state _ => places_blockRound blaming state) bound trivial)
    fun stmts _ => ?_
  refine .bind (places_expect .closeCurly) fun last _ => ?_
  exact .bind places_markStmt fun _ _ => .pure trivial

/-- A definition blames the places of its name and its parameters, and what its body blames. -/
theorem places_functionDef : Places good (functionDef bound inner) fun _ => True := by
  refine .bind (places_word "function") fun first _ => .bind places_functionName fun named _ => ?_
  refine .bind (places_list places_parameter bound _ _ _ _) fun parameters starts => ?_
  have finish : Places good
      (do
        let symbols ← internAll (parameters.map Prod.fst)
        let body ← block bound inner
        return ⟨← markDefinition ⟨first.first, named.2.2.last⟩, named.1, named.2.1, symbols, body⟩)
      fun _ : FunctionDef => True :=
    .bind (places_internAll _) fun _ _ => .bind (places_block blaming) fun _ _ =>
      .bind places_markDefinition fun _ _ => .pure trivial
  dsimp only
  split
  next span found =>
    obtain ⟨text, member⟩ := mem_of_duplicate? found
    exact places_failAt_bind (starts (text, span) member) _ _ _
  next => exact finish

theorem places_functionStmt : Places good (functionStmt bound inner) fun _ => True :=
  .bind (places_functionDef blaming) fun _ _ => places_stmt

/-- A package blames what its definitions blame, and the token where none begins. -/
theorem places_packageRound (definitions : List FunctionDef) :
    Places good (packageRound bound inner definitions)
      (Places.turn (fun _ => True) fun _ => True) := by
  refine .bind places_nextKind? fun kind _ => ?_
  split
  · exact .pure trivial
  · exact .bind places_pass fun _ _ => .pure trivial
  · refine .bind (places_nextIsWord "function") fun isFunction _ => ?_
    cases isFunction with
    | true => exact .bind (places_functionDef blaming) fun _ _ => .pure trivial
    | false => exact places_failHere _ _

theorem places_packageStmt : Places good (packageStmt bound inner) fun _ => True := by
  refine .bind (places_word "package") fun first _ => .bind places_name fun read _ => ?_
  refine .bind (places_intern read.1) fun _ _ => .bind (places_expect .openCurly) fun _ _ => ?_
  refine .bind (places_repeatRounds (fun state _ => places_packageRound blaming state) bound
    trivial) fun definitions _ => ?_
  refine .bind (places_expect .closeCurly) fun _ _ => ?_
  exact .bind (places_expect .semicolon) fun _ _ => places_stmt

/-- A condition blames what its test and its branches blame. -/
theorem places_ifStmt : Places good (ifStmt inner) fun _ => True := by
  refine .bind (places_word "if") fun span _ => ?_
  refine .bind (places_parenthesized blaming) fun test _ => .bind blaming.statement fun yes _ => ?_
  refine .bind (places_nextIsWord "else") fun hasElse _ => ?_
  have finish (no : Option Stmt) : Places good
      (markStmt span >>= fun mark => Pure.pure (Stmt.branch mark test yes no)) fun _ => True :=
    places_stmt
  cases hasElse with
  | true =>
      have read : Places good (some <$> inner .statement) fun _ => True := .map blaming.statement
      exact .bind places_pass fun _ _ => .bind read fun no _ => finish no
  | false =>
      have none : Places good (Pure.pure none) fun _ : Option Stmt => True := .pure trivial
      exact .bind none fun no _ => finish no

theorem places_whileStmt : Places good (whileStmt inner) fun _ => True :=
  .bind (places_word "while") fun _ _ => .bind (places_parenthesized blaming) fun _ _ =>
    .bind blaming.statement fun _ _ => places_stmt

theorem places_doStmt : Places good (doStmt inner) fun _ => True :=
  .bind (places_word "do") fun _ _ => .bind blaming.statement fun _ _ =>
    .bind (places_word "while") fun _ _ => .bind (places_parenthesized blaming) fun _ _ =>
      .bind (places_expect .semicolon) fun _ _ => places_stmt

theorem places_forStmt : Places good (forStmt inner) fun _ => True := by
  refine .bind (places_word "for") fun _ _ => .bind (places_expect .openParen) fun _ _ => ?_
  refine .bind (places_optional blaming .semicolon) fun _ _ => ?_
  refine .bind (places_expect .semicolon) fun _ _ => ?_
  refine .bind (places_optional blaming .semicolon) fun _ _ => ?_
  refine .bind (places_expect .semicolon) fun _ _ => ?_
  refine .bind (places_optional blaming .closeParen) fun _ _ => ?_
  refine .bind (places_expect .closeParen) fun _ _ => ?_
  exact .bind blaming.statement fun _ _ => places_stmt

theorem places_returnStmt : Places good (returnStmt inner) fun _ => True :=
  .bind (places_word "return") fun _ _ => .bind (places_optional blaming .semicolon) fun _ _ =>
    .bind (places_expect .semicolon) fun _ _ => places_stmt

theorem places_valueRound (values : List Expr) :
    Places good (valueRound inner values) (Places.turn (fun _ => True) fun _ => True) := by
  refine .bind (places_nextIsWord "or") fun more _ => ?_
  cases more with
  | true =>
      exact .bind places_pass fun _ _ => .bind blaming.expression fun _ _ => .pure trivial
  | false => exact .pure trivial

theorem places_caseBody : Places good (caseBody bound inner) fun _ => True := by
  have each (stmts : List Stmt) : Places good (caseBodyRound inner stmts)
      (Places.turn (fun _ => True) fun _ => True) := by
    refine .bind places_caseEnds fun ends _ => ?_
    cases ends with
    | true => exact .pure trivial
    | false => exact .bind blaming.statement fun _ _ => .pure trivial
  exact .bind (places_expect .colon) fun _ _ =>
    places_repeatRounds (fun state _ => each state) bound trivial

/-- In a switch a complaint is about a case, or about a default that stands there twice. -/
theorem places_caseRound (state : Cases) :
    Places good (caseRound bound inner state) (Places.turn (fun _ => True) fun _ => True) := by
  obtain ⟨cases_, default⟩ := state
  refine .bind (places_nextIs .closeCurly) fun closed _ => ?_
  cases closed with
  | true => exact .pure trivial
  | false =>
      refine .bind places_nextWord? fun word _ => ?_
      dsimp only
      split
      · refine .bind places_anyWord fun read _ => .bind blaming.expression fun first _ => ?_
        refine .bind (places_repeatRounds (fun state _ => places_valueRound blaming state) bound
          trivial) fun values _ => ?_
        exact .bind (places_caseBody blaming) fun _ _ => .pure trivial
      · refine .bind places_anyWord fun read first => ?_
        split
        · exact places_failAt_bind first _ _ _
        · exact .bind (places_caseBody blaming) fun _ _ => .pure trivial
      · exact places_failHere _ _

theorem places_switchStmt : Places good (switchStmt bound inner) fun _ => True := by
  refine .bind places_anyWord fun read _ => .bind (places_parenthesized blaming) fun subject _ => ?_
  refine .bind (places_expect .openCurly) fun _ _ => ?_
  refine .bind (places_repeatRounds (fun state _ => places_caseRound blaming state) bound trivial)
    fun state _ => ?_
  exact .bind (places_expect .closeCurly) fun _ _ => places_stmt

theorem places_expressionStmt :
    Places good (do finishExpression (← inner .expression)) fun _ => True :=
  .bind blaming.expression fun expr _ => places_finishExpression expr

/-- In a statement that begins with a keyword a complaint is about a place behind it. -/
theorem places_wordStmt (keyword : String) :
    Places good (wordStmt bound inner keyword) fun _ => True := by
  unfold wordStmt
  split
  · exact places_ifStmt blaming
  · exact places_whileStmt blaming
  · exact places_doStmt blaming
  · exact places_forStmt blaming
  · exact places_plainStmt "break" .break
  · exact places_plainStmt "continue" .continue
  · exact places_returnStmt blaming
  · exact places_switchStmt blaming
  · exact places_switchStmt blaming
  · exact places_functionStmt blaming
  · exact places_packageStmt blaming
  · exact .bind (places_datablock blaming) fun declaration _ =>
      places_finishExpression (.object declaration)
  · exact places_failHere _ _
  · exact places_failHere _ _
  · exact places_failHere _ _
  · exact places_expressionStmt blaming

theorem places_statement : Places good (statement bound inner) fun _ => True := by
  refine .bind places_nextKind? fun kind _ => ?_
  split
  · exact .map (places_block blaming)
  · exact .bind (places_expect .semicolon) fun _ _ => .bind places_markStmt fun _ _ => .pure trivial
  · refine .bind places_nextWord? fun word _ => ?_
    cases word with
    | some keyword => exact places_wordStmt blaming keyword
    | none => exact places_expressionStmt blaming
  · exact places_expressionStmt blaming

end Statements

/-- Every part of a script is read within good places. -/
theorem blaming_goals (bound : Nat) : Blaming good (parser bound) := by
  induction bound with
  | zero => exact fun goal => places_failHere _ _
  | succ bound ih =>
      intro goal
      cases goal with
      | statement => exact .nested (places_statement ih)
      | expression => exact .nested (places_assignment ih)
      | operand => exact places_operand ih
      | newObject => exact places_newObject ih
      | datablock => exact places_datablock ih

theorem places_root (bound : Nat) : Places good (root bound) fun _ => True := by
  have each (stmts : List Stmt) : Places good (rootRound bound stmts)
      (Places.turn (fun _ => True) fun _ => True) :=
    .peek (.pure trivial) fun _ _ =>
      .bind (blaming_goals bound).statement fun _ _ => .pure trivial
  exact places_repeatRounds (fun state _ => each state) bound trivial

end Parse

/-- The scanner refuses a source, or its tokens cannot be read as a script. -/
def Source.FailsWith (source : Source) (symbols : SymbolTable) (fault : Fault) : Prop :=
  Token.scan source.bytes = .error fault ∨ ∃ tokens state,
    Token.scan source.bytes = .ok tokens ∧
      Parse.runRoot (some nestingLimit) symbols tokens = .error fault state

namespace Source.FailsWith

variable {source : Source} {symbols : SymbolTable} {fault : Fault}

/-- What a source fails with is about a place in it. -/
theorem placed (fails : source.FailsWith symbols fault) :
    fault.position.PlacedIn source.bytes := by
  obtain refused | ⟨tokens, state, accepted, ran⟩ := fails
  · exact Token.scan_error_placed refused
  · have start : (Parse.start (some nestingLimit) symbols tokens).Places
        (Position.PlacedIn source.bytes) :=
      ⟨⟨[], source.bytes, rfl, rfl, nofun⟩, Token.scan_ok_placed accepted⟩
    exact (Parse.places_root _ _ start).2 fault state ran

end Source.FailsWith

/-- A source that does not compile fails with a fault, and the diagnostic is about this fault. -/
theorem compileSource_error {source : Source} {symbols : SymbolTable} {diagnostic : Diagnostic}
    (failed : (compileSource source symbols).1 = .error diagnostic) :
    ∃ fault, source.FailsWith symbols fault ∧ diagnostic = fault.diagnose source := by
  unfold compileSource at failed
  cases scanned : Token.scan source.bytes with
  | error fault =>
      rw [scanned] at failed
      exact ⟨fault, .inl scanned, (Except.error.inj failed).symm⟩
  | ok tokens =>
      rw [scanned] at failed
      dsimp only at failed
      cases ran : Parse.runRoot (some nestingLimit) symbols tokens with
      | error fault state =>
          rw [ran] at failed
          exact ⟨fault, .inr ⟨tokens, state, scanned, ran⟩, (Except.error.inj failed).symm⟩
      | ok root state =>
          rw [ran] at failed
          contradiction

/-- An error that compiling a source returns is about a place in the source: it names the line of
the place, shows the text of that line and says how many bytes of the line are before the place.
A report is made of any line and any offset without a look outside of the source. -/
theorem compileSource_located :
    (∀ (source : Source) (symbols : SymbolTable) (diagnostic : Diagnostic),
      (compileSource source symbols).1 = .error diagnostic →
        ∃ fault, source.FailsWith symbols fault ∧ diagnostic = fault.diagnose source ∧
          diagnostic.Locates source.bytes fault.position) ∧
    ∀ (source : Source) (position : Position) (message : String),
      position.offset < UInt32.size - 1 →
        Diagnostic.report? source position message = some (.report source position message) := by
  refine ⟨fun source symbols diagnostic failed => ?_, fun source position message short =>
    Diagnostic.report?_eq source short message⟩
  obtain ⟨fault, fails, rfl⟩ := compileSource_error failed
  exact ⟨fault, fails, rfl, Diagnostic.report_locates source fails.placed _⟩

/-- Three lines, the second of which lacks an expression. -/
def lackingSource : Source :=
  .ofText "" "%a = 1;\r\n%b = ;\r\n%c = 3;"

/-- The diagnostic of the sample is about the second line, at the sign where an expression is
missing. -/
theorem compileSource_located_second :
    ∃ diagnostic, ∃ fault : Fault,
      (compileSource lackingSource (.empty 0)).1 = .error diagnostic ∧
      diagnostic.Locates lackingSource.bytes fault.position ∧
      (diagnostic.line, diagnostic.column, diagnostic.context) = (2, 6, "%b = ;".toList) ∧
      Diagnostic.report? lackingSource fault.position "" =
        some (.report lackingSource fault.position "") := by
  have shown : (((compileSource lackingSource (.empty 0)).1.map fun _ => none).tryCatch
      fun diagnostic =>
        .ok (some (diagnostic.line, diagnostic.column, diagnostic.context))).toOption =
      some (some (2, 6, "%b = ;".toList)) := by decide +kernel
  cases failed : (compileSource lackingSource (.empty 0)).1 with
  | ok script =>
      rw [failed] at shown
      exact nomatch Option.some.inj shown
  | error diagnostic =>
      rw [failed] at shown
      obtain ⟨fault, fails, same, locates⟩ := compileSource_located.1 _ _ _ failed
      refine ⟨diagnostic, fault, rfl, locates, Option.some.inj (Option.some.inj shown), ?_⟩
      refine compileSource_located.2 _ _ _ (Nat.lt_of_le_of_lt locates.inside ?_)
      decide +kernel

end ScriptConsole
