import ScriptConsole.Proofs.Parse.Composition

/-! # The parts of the grammar

All parts of the grammar are read by parsers that are put together from the constructs, one part
from the other, up to the parser of every part (`ScriptConsole.Parse.composed_part`) and the
statements of a script (`ScriptConsole.Parse.composed_root`). So a compositional property of plain
parsers is one of all of them (`ScriptConsole.Parse.holds_goals`).
-/

namespace ScriptConsole.Parse

variable {α : Type} {numbers : Bool}

section Tokens

theorem composed_failAt (position : Position) (complaint : Complaint) :
    Composed numbers fun _ _ => (failAt position complaint : Parse α) :=
  .quiet (quiet_failAt position complaint)

theorem composed_here : Composed numbers fun _ _ => here :=
  .quiet quiet_here

theorem composed_failHere (complaint : Complaint) :
    Composed numbers fun _ _ => (failHere complaint : Parse α) :=
  .bind composed_here fun position => composed_failAt position complaint

theorem composed_next? : Composed numbers fun _ _ => next? :=
  .quiet quiet_next?

theorem composed_nextKind? : Composed numbers fun _ _ => nextKind? :=
  .bind composed_next? fun _ => .pure _

theorem composed_nextIs (punct : Punct) : Composed numbers fun _ _ => nextIs punct :=
  .bind composed_nextKind? fun _ => .pure _

theorem composed_pass : Composed numbers fun _ _ => pass :=
  .quiet quiet_pass

/-- A parser that passes a token or fails. -/
theorem composed_passing {result : α} {condition : Prop} [Decidable condition]
    {complaint : Complaint} :
    Composed numbers fun _ _ =>
      (if condition then do pass; return result else failHere complaint : Parse α) := by
  split
  · exact .bind composed_pass fun _ => .pure result
  · exact composed_failHere complaint

theorem composed_nextWord? : Composed numbers fun _ _ => nextWord? := by
  refine .bind composed_next? fun token => ?_
  cases token with
  | none => exact .pure none
  | some token =>
      dsimp only
      split
      · exact .pure _
      · exact .pure none

theorem composed_nextIsWord (word : String) : Composed numbers fun _ _ => nextIsWord word :=
  .bind composed_nextWord? fun _ => .pure _

theorem composed_expect (punct : Punct) : Composed numbers fun _ _ => expect punct := by
  refine .bind composed_next? fun token => ?_
  cases token with
  | none => exact composed_failHere _
  | some token => exact composed_passing

theorem composed_accept (punct : Punct) : Composed numbers fun _ _ => accept punct := by
  refine .bind (composed_nextIs punct) fun found => ?_
  cases found with
  | true => exact .bind composed_pass fun _ => .pure true
  | false => exact .pure false

theorem composed_intern (name : String) : Composed numbers fun _ _ => intern name :=
  .quiet (quiet_intern name)

theorem composed_constant (text : String) : Composed numbers fun _ _ => constant text :=
  .quiet (quiet_constant text)

theorem composed_anyWord : Composed numbers fun _ _ => anyWord := by
  refine .bind composed_next? fun token => ?_
  cases token with
  | none => exact composed_failHere _
  | some token => exact composed_passing

theorem composed_word (expected : String) : Composed numbers fun _ _ => word expected := by
  refine .bind composed_here fun start => .bind composed_anyWord fun found => ?_
  dsimp only
  split
  · exact .pure found.2
  · exact composed_failAt start _

theorem composed_name : Composed numbers fun _ _ => name := by
  refine .bind composed_anyWord fun found => ?_
  dsimp only
  split
  · exact composed_failAt _ _
  · exact .pure found

theorem composed_variableName : Composed numbers fun _ _ => variableName := by
  refine .bind composed_next? fun token => ?_
  cases token with
  | none => exact composed_failHere _
  | some token =>
      dsimp only
      split
      · exact .bind composed_pass fun _ => .pure _
      · exact .bind composed_pass fun _ => .pure _
      · exact composed_failHere _

/-- A number is a token whose text has a value. It is refused otherwise, and no node is numbered. -/
theorem composed_number : Composed numbers fun _ _ => number := by
  refine .bind composed_next? fun token => ?_
  cases token with
  | none => exact composed_failHere _
  | some token =>
      dsimp only
      split
      · refine .bind composed_pass fun _ => ?_
        cases numberValue token.text with
        | ok value => exact .pure _
        | error complaint => exact composed_failAt _ _
      · exact composed_failHere _

theorem composed_string : Composed numbers fun _ _ => string := by
  refine .bind composed_next? fun token => ?_
  cases token with
  | none => exact composed_failHere _
  | some token =>
      dsimp only
      split
      · exact .bind composed_pass fun _ => .bind (composed_constant _) fun _ => .pure _
      · exact .bind composed_pass fun _ => .bind (composed_constant _) fun _ => .pure _
      · exact composed_failHere _

theorem composed_nextOperator? (read : Punct → Option α) :
    Composed numbers fun _ _ => nextOperator? read := by
  refine .bind composed_next? fun token => ?_
  cases token with
  | none => exact .pure none
  | some token =>
      dsimp only
      split
      · exact .pure _
      · exact .pure none

/-- A node is numbered when it is complete. -/
theorem composed_marked {mark : Parse Mark} (plain : Plain mark) (build : Mark → α) :
    Composed true fun _ _ => mark >>= fun mark => Pure.pure (build mark) :=
  .bind (.mark plain) fun mark => .pure (build mark)

end Tokens

section Lists

variable {item : Nat → Parser → Parse α} (composed : Composed numbers item)
include composed

/-- A round of a list ends it or reads one more item, with a comma before it. -/
theorem composed_itemRound (close : Punct) (noun : String) (state : List α × Bool) :
    Composed numbers fun bound inner => itemRound close (item bound inner) noun state := by
  obtain ⟨items, afterComma⟩ := state
  refine .bind (composed_accept close) fun closed => ?_
  cases closed with
  | true => exact .pure _
  | false =>
      cases afterComma with
      | false => exact composed_failHere _
      | true =>
          exact .bind composed fun first => .bind (composed_accept .comma) fun comma => .pure _

theorem composed_list? (opening close : Punct) (noun : String) :
    Composed numbers fun bound inner => list? bound opening close (item bound inner) noun := by
  refine .bind (composed_accept opening) fun opened => ?_
  cases opened with
  | false => exact .pure none
  | true => exact .map (.loop (composed_itemRound composed close noun) ([], true)) some

theorem composed_list (opening close : Punct) (noun listNoun : String) :
    Composed numbers fun bound inner =>
      list bound opening close (item bound inner) noun listNoun := by
  refine .bind composed_here fun start => ?_
  refine .bind (composed_list? composed opening close noun) fun read => ?_
  cases read with
  | none => exact composed_failAt start _
  | some items => exact .pure items

end Lists

section Expressions

theorem composed_parenthesized : Composed true fun _ inner => parenthesized inner :=
  .bind (composed_expect .openParen) fun _ => .bind (.part .expression) fun expr =>
    .bind (composed_expect .closeParen) fun _ => .pure expr

theorem composed_optional (terminator : Punct) :
    Composed true fun _ inner => optional inner terminator := by
  refine .bind (composed_nextIs terminator) fun missing => ?_
  cases missing with
  | true => exact .pure none
  | false => exact .bind (.part .expression) fun expr => .pure (some expr)

theorem composed_arguments : Composed true fun bound inner => arguments bound inner :=
  composed_list (.part .expression) .openParen .closeParen _ _

theorem composed_indices : Composed true fun bound inner => indices bound inner := by
  refine .bind composed_here fun start => ?_
  refine .bind (composed_list? (.part .expression) .openSquare .closeSquare _) fun read => ?_
  split
  · exact .pure []
  · exact composed_failAt start _
  · exact .pure _

theorem composed_qualifiedCall (space : String) (first : Span) :
    Composed true fun bound inner => qualifiedCall bound inner space first := by
  refine .bind (composed_intern space) fun spaceSymbol => ?_
  refine .bind composed_name fun read => .bind (composed_intern read.1) fun function => ?_
  exact .bind composed_arguments fun exprs => composed_marked (plain_markExpr _) _

/-- What begins with a name is a call or a constant, as the token behind the name tells. -/
theorem composed_namedExpr : Composed true fun bound inner => namedExpr bound inner := by
  refine .bind composed_name fun read => .bind (composed_accept .colonColon) fun qualified => ?_
  cases qualified with
  | true => exact composed_qualifiedCall read.1 read.2
  | false =>
      refine .bind (composed_nextIs .openParen) fun called => ?_
      cases called with
      | true =>
          refine .bind (composed_intern read.1) fun function => ?_
          exact .bind composed_arguments fun exprs => composed_marked (plain_markExpr _) _
      | false =>
          exact .bind (composed_constant read.1) fun value =>
            composed_marked (plain_markExpr _) _

theorem composed_truth (value : Int64) : Composed true fun _ _ => truth value :=
  .bind composed_anyWord fun _ => composed_marked (plain_markExpr _) _

theorem composed_detagExpr : Composed true fun _ inner => detagExpr inner :=
  .bind (composed_word "detag") fun span => .bind composed_parenthesized fun _ =>
    composed_marked (plain_markExpr span) _

theorem composed_copySource : Composed numbers fun _ _ => copySource := by
  refine .bind (composed_accept .colon) fun found => ?_
  cases found with
  | true => exact .bind composed_name fun read => .map (composed_intern read.1) some
  | false => exact .pure none

theorem composed_fieldInit : Composed true fun bound inner => fieldInit bound inner := by
  refine .bind composed_anyWord fun read => .bind (composed_intern read.1) fun field => ?_
  refine .bind composed_indices fun exprs => .bind (composed_expect .equals) fun _ => ?_
  refine .bind (.part .expression) fun value => ?_
  exact .bind (composed_expect .semicolon) fun last => .pure _

/-- A round of the body of a declaration is put together from those of its members. -/
theorem composed_memberRound (state : List FieldInit × List ObjectDecl) :
    Composed true fun bound inner => memberRound bound inner state := by
  obtain ⟨fields, children⟩ := state
  refine .bind composed_nextKind? fun kind => ?_
  split
  · exact .pure _
  · exact .bind composed_pass fun _ => .pure _
  · refine .bind (composed_nextIsWord "new") fun isNew => ?_
    cases isNew with
    | true =>
        exact .bind (.part .newObject) fun child =>
          .bind (composed_expect .semicolon) fun _ => .pure _
    | false =>
        refine .bind (composed_nextIsWord "datablock") fun isDatablock => ?_
        cases isDatablock with
        | true =>
            exact .bind (.part .datablock) fun child =>
              .bind (composed_expect .semicolon) fun _ => .pure _
        | false => exact .bind composed_fieldInit fun field => .pure _
  · exact composed_failHere _

theorem composed_objectBody : Composed true fun bound inner => objectBody bound inner :=
  .bind (composed_expect .openCurly) fun _ => .bind (.loop composed_memberRound _) fun members =>
    .bind (composed_expect .closeCurly) fun _ => .pure members

theorem composed_declaredClass (keyword : String) :
    Composed numbers fun _ _ => declaredClass keyword :=
  .bind (composed_word keyword) fun _ => .bind composed_name fun read =>
    .bind (composed_intern read.1) fun _ => .pure _

/-- An object is put together from its class, its name, what it copies from and its body. -/
theorem composed_newObject : Composed true fun bound inner => newObject bound inner := by
  refine .bind (composed_declaredClass "new") fun declared => ?_
  refine .bind (composed_expect .openParen) fun _ => .bind composed_nextKind? fun kind => ?_
  have finish (name : Option Expr) : Composed true fun bound inner => do
      let copied ← copySource
      let _ ← expect .closeParen
      let members ← if ← nextIs .openCurly then objectBody bound inner else Pure.pure ([], [])
      return (⟨← markExpr declared.2, false, declared.1, name, copied, members.1,
        members.2⟩ : ObjectDecl) := by
    refine .bind composed_copySource fun copied => ?_
    refine .bind (composed_expect .closeParen) fun _ => ?_
    refine .bind (composed_nextIs .openCurly) fun hasBody => ?_
    cases hasBody with
    | true => exact .bind composed_objectBody fun members => composed_marked (plain_markExpr _) _
    | false => exact .bind (.pure ([], [])) fun members => composed_marked (plain_markExpr _) _
  dsimp only
  split
  · exact finish none
  · exact finish none
  · exact .bind (.map (.part .expression) some) finish

theorem composed_datablock : Composed true fun bound inner => datablock bound inner := by
  refine .bind (composed_declaredClass "datablock") fun declared => ?_
  refine .bind (composed_expect .openParen) fun _ => .bind composed_name fun read => ?_
  refine .bind (composed_constant read.1) fun value => ?_
  refine .bind (.mark (plain_markExpr read.2)) fun nameMark => ?_
  refine .bind composed_copySource fun copied => .bind (composed_expect .closeParen) fun _ => ?_
  exact .bind composed_objectBody fun members => composed_marked (plain_markExpr _) _

/-- What begins with an identifier is put together as its word tells. -/
theorem composed_wordExpr : Composed true fun bound inner => wordExpr bound inner := by
  refine .bind composed_nextWord? fun word => ?_
  split
  · exact composed_truth 1
  · exact composed_truth 0
  · exact .map composed_newObject _
  · refine .bind (.quiet quiet_secondKind?) fun kind => ?_
    split
    · exact composed_detagExpr
    · exact composed_namedExpr
  · exact composed_namedExpr

/-- An operand is put together as the kind of its first token tells. -/
theorem composed_primary : Composed true fun bound inner => primary bound inner := by
  have text : Composed true fun _ _ => do
      let read ← string
      return Expr.literal (← markExpr read.2) read.1 :=
    .bind composed_string fun read => composed_marked (plain_markExpr _) _
  have place : Composed true fun bound inner => do
      let read ← variableName
      let symbol ← intern read.1
      let exprs ← indices bound inner
      return Expr.variable (← markExpr read.2.2) read.2.1 symbol exprs :=
    .bind composed_variableName fun read => .bind (composed_intern read.1) fun symbol =>
      .bind composed_indices fun exprs => composed_marked (plain_markExpr _) _
  refine .bind composed_nextKind? fun kind => ?_
  dsimp only
  split
  · exact composed_parenthesized
  · exact .bind composed_number fun read => composed_marked (plain_markExpr _) _
  · exact text
  · exact text
  · exact place
  · exact place
  · exact composed_wordExpr
  · exact composed_failHere _

theorem composed_stepAfter (op : UnaryOp) (operand : Expr) (span : Span) :
    Composed true fun _ _ => stepAfter op operand span := by
  refine .bind composed_pass fun _ => ?_
  split
  · exact composed_marked (plain_markExpr span) _
  · exact composed_failAt _ _

theorem composed_memberAfter (object : Expr) :
    Composed true fun bound inner => memberAfter bound inner object := by
  refine .bind composed_pass fun _ => .bind composed_anyWord fun read => ?_
  refine .bind (composed_intern read.1) fun symbol => ?_
  refine .bind (composed_nextIs .openParen) fun called => ?_
  cases called with
  | true => exact .bind composed_arguments fun exprs => composed_marked (plain_markExpr _) _
  | false => exact .bind composed_indices fun exprs => composed_marked (plain_markExpr _) _

/-- A round behind an operand is a step, a member or the end. -/
theorem composed_suffixRound (operand : Expr) :
    Composed true fun bound inner => suffixRound bound inner operand := by
  refine .bind composed_next? fun token => ?_
  cases token with
  | none => exact .pure _
  | some token =>
      dsimp only
      split
      · exact .bind (composed_stepAfter _ operand token.span) fun grown => .pure _
      · exact .bind (composed_stepAfter _ operand token.span) fun grown => .pure _
      · exact .bind (composed_memberAfter operand) fun grown => .pure _
      · exact .pure _

theorem composed_operand : Composed true fun bound inner => operand bound inner := by
  refine .bind (composed_nextOperator? prefixOf?) fun found => ?_
  cases found with
  | none => exact .bind composed_primary fun expr => .loop composed_suffixRound expr
  | some found =>
      refine .bind composed_pass fun _ => .bind (.nested (.part .operand)) fun expr => ?_
      dsimp only
      split
      · exact .bind (composed_failAt _ _) fun _ => composed_marked (plain_markExpr _) _
      · exact composed_marked (plain_markExpr _) _

/-- A round of a level is an operator with a tighter operand behind it, or the end. -/
theorem composed_levelRound {tighter : Nat → Parser → Parse Expr} (composed : Composed true tighter)
    (level : List (OperatorToken × BinaryOp)) (left : Expr) :
    Composed true fun bound inner => levelRound (tighter bound inner) level left := by
  refine .bind composed_next? fun token => ?_
  cases token with
  | none => exact .pure _
  | some token =>
      dsimp only
      split
      · refine .bind composed_pass fun _ => .bind composed fun right => ?_
        exact .bind (.mark (plain_markExpr token.span)) fun mark => .pure _
      · exact .pure _

theorem composed_binary (levels : List (List (OperatorToken × BinaryOp))) :
    Composed true fun bound inner => binary bound inner levels := by
  induction levels with
  | nil => exact composed_operand
  | cons level tighter ih =>
      exact .bind ih fun first => .loop (composed_levelRound ih level) first

/-- A choice is a test, and behind a question mark two branches with a colon between them. -/
theorem composed_conditional : Composed true fun bound inner => conditional bound inner := by
  refine .bind (composed_binary binaryLevels) fun test => .bind composed_next? fun token => ?_
  cases token with
  | none => exact .pure test
  | some token =>
      dsimp only
      split
      · refine .bind composed_pass fun _ => .bind (.part .expression) fun yes => ?_
        refine .bind (composed_expect .colon) fun _ => .bind (.part .expression) fun no => ?_
        exact composed_marked (plain_markExpr token.span) _
      · exact .pure test

/-- An assignment is a choice, and behind an operator a value, if the choice is a place. -/
theorem composed_assignment : Composed true fun bound inner => assignment bound inner := by
  refine .bind composed_conditional fun target => ?_
  refine .bind (composed_nextOperator? assignOf?) fun found => ?_
  cases found with
  | none => exact .pure target
  | some found =>
      have finish : Composed true fun _ inner => do
          pass
          let value ← inner .expression
          return Expr.assign (← markExpr found.2) found.1 target value :=
        .bind composed_pass fun _ => .bind (.part .expression) fun value =>
          composed_marked (plain_markExpr _) _
      dsimp only
      split
      · exact .bind (composed_failAt _ _) fun _ => finish
      · exact finish

end Expressions

section Statements

/-- A loop that collects statements goes on behind a further one. -/
theorem composed_collecting (stmts : List Stmt) :
    Composed true fun _ inner => do
      return (Round.again ((← inner .statement) :: stmts) : Round (List Stmt) (List Stmt)) :=
  .bind (.part .statement) fun _ => .pure _

theorem composed_blockRound (stmts : List Stmt) :
    Composed true fun _ inner => blockRound inner stmts := by
  refine .bind composed_nextKind? fun kind => ?_
  split
  · exact .pure _
  · exact .pure _
  · exact composed_collecting stmts

theorem composed_block : Composed true fun bound inner => block bound inner :=
  .bind (composed_expect .openCurly) fun _ => .bind (.loop composed_blockRound []) fun _ =>
    .bind (composed_expect .closeCurly) fun _ => composed_marked (plain_markStmt _) _

theorem composed_parameter : Composed numbers fun _ _ => parameter := by
  refine .bind composed_variableName fun read => ?_
  obtain ⟨text, scope, span⟩ := read
  cases scope with
  | ofCall => exact .pure _
  | ofConsole => exact composed_failAt _ _

theorem composed_internAll (names : List String) : Composed numbers fun _ _ => internAll names := by
  induction names with
  | nil => exact .pure []
  | cons name names ih =>
      exact .bind (composed_intern name) fun symbol => .bind ih fun symbols => .pure _

theorem composed_functionName : Composed numbers fun _ _ => functionName := by
  refine .bind composed_name fun first => .bind (composed_accept .colonColon) fun qualified => ?_
  cases qualified with
  | true =>
      exact .bind composed_name fun second => .bind (composed_intern first.1) fun _ =>
        .bind (composed_intern second.1) fun _ => .pure _
  | false => exact .bind (composed_intern first.1) fun _ => .pure _

/-- A definition is put together from its name, its parameters, whose names are compared, and its
body. -/
theorem composed_functionDef : Composed true fun bound inner => functionDef bound inner := by
  refine .bind (composed_word "function") fun first => .bind composed_functionName fun named => ?_
  refine .bind (composed_list composed_parameter _ _ _ _) fun parameters => ?_
  have finish : Composed true fun bound inner => do
      let symbols ← internAll (parameters.map Prod.fst)
      let body ← block bound inner
      return (⟨← markDefinition ⟨first.first, named.2.2.last⟩, named.1, named.2.1, symbols,
        body⟩ : FunctionDef) :=
    .bind (composed_internAll _) fun symbols => .bind composed_block fun body =>
      composed_marked (plain_markDefinition _) _
  dsimp only
  split
  · exact .bind (composed_failAt _ _) fun _ => finish
  · exact finish

theorem composed_packageRound (definitions : List FunctionDef) :
    Composed true fun bound inner => packageRound bound inner definitions := by
  refine .bind composed_nextKind? fun kind => ?_
  split
  · exact .pure _
  · exact .bind composed_pass fun _ => .pure _
  · refine .bind (composed_nextIsWord "function") fun isFunction => ?_
    cases isFunction with
    | true => exact .bind composed_functionDef fun definition => .pure _
    | false => exact composed_failHere _

theorem composed_packageStmt : Composed true fun bound inner => packageStmt bound inner := by
  refine .bind (composed_word "package") fun first => .bind composed_name fun read => ?_
  refine .bind (composed_intern read.1) fun package => ?_
  refine .bind (composed_expect .openCurly) fun _ => ?_
  refine .bind (.loop composed_packageRound []) fun definitions => ?_
  refine .bind (composed_expect .closeCurly) fun _ => .bind (composed_expect .semicolon) fun _ => ?_
  exact composed_marked (plain_markStmt _) _

theorem composed_finishExpression (expr : Expr) : Composed true fun _ _ => finishExpression expr :=
  .bind (composed_expect .semicolon) fun _ => composed_marked (plain_markStmt _) _

theorem composed_ifStmt : Composed true fun _ inner => ifStmt inner := by
  refine .bind (composed_word "if") fun span => .bind composed_parenthesized fun test => ?_
  refine .bind (.part .statement) fun yes => .bind (composed_nextIsWord "else") fun hasElse => ?_
  cases hasElse with
  | true =>
      refine .bind composed_pass fun _ => .bind (.map (.part .statement) some) fun no => ?_
      exact composed_marked (plain_markStmt span) _
  | false => exact .bind (.pure none) fun no => composed_marked (plain_markStmt span) _

theorem composed_whileStmt : Composed true fun _ inner => whileStmt inner :=
  .bind (composed_word "while") fun span => .bind composed_parenthesized fun _ =>
    .bind (.part .statement) fun _ => composed_marked (plain_markStmt span) _

theorem composed_doStmt : Composed true fun _ inner => doStmt inner := by
  refine .bind (composed_word "do") fun span => .bind (.part .statement) fun body => ?_
  refine .bind (composed_word "while") fun _ => .bind composed_parenthesized fun test => ?_
  exact .bind (composed_expect .semicolon) fun _ => composed_marked (plain_markStmt span) _

theorem composed_forStmt : Composed true fun _ inner => forStmt inner := by
  refine .bind (composed_word "for") fun span => .bind (composed_expect .openParen) fun _ => ?_
  refine .bind (composed_optional .semicolon) fun initial => ?_
  refine .bind (composed_expect .semicolon) fun _ => ?_
  refine .bind (composed_optional .semicolon) fun test => ?_
  refine .bind (composed_expect .semicolon) fun _ => ?_
  refine .bind (composed_optional .closeParen) fun step => ?_
  refine .bind (composed_expect .closeParen) fun _ => .bind (.part .statement) fun body => ?_
  exact composed_marked (plain_markStmt span) _

theorem composed_plainStmt (keyword : String) (build : Mark → Stmt) :
    Composed true fun _ _ => plainStmt keyword build :=
  .bind (composed_word keyword) fun span => .bind (composed_expect .semicolon) fun _ =>
    composed_marked (plain_markStmt span) build

theorem composed_returnStmt : Composed true fun _ inner => returnStmt inner :=
  .bind (composed_word "return") fun span => .bind (composed_optional .semicolon) fun _ =>
    .bind (composed_expect .semicolon) fun _ => composed_marked (plain_markStmt span) _

theorem composed_valueRound (values : List Expr) :
    Composed true fun _ inner => valueRound inner values := by
  refine .bind (composed_nextIsWord "or") fun more => ?_
  cases more with
  | true => exact .bind composed_pass fun _ => .bind (.part .expression) fun value => .pure _
  | false => exact .pure _

theorem composed_caseEnds : Composed numbers fun _ _ => caseEnds := by
  refine .bind composed_nextKind? fun kind => ?_
  split
  · exact .pure true
  · exact .pure true
  · refine .bind (composed_nextIsWord "case") fun found => ?_
    cases found with
    | true => exact .pure true
    | false => exact composed_nextIsWord "default"

theorem composed_caseBodyRound (stmts : List Stmt) :
    Composed true fun _ inner => caseBodyRound inner stmts := by
  refine .bind composed_caseEnds fun ends => ?_
  cases ends with
  | true => exact .pure _
  | false => exact composed_collecting stmts

theorem composed_caseBody : Composed true fun bound inner => caseBody bound inner :=
  .bind (composed_expect .colon) fun _ => .loop composed_caseBodyRound []

/-- A round of a switch is a case, a default or the end. -/
theorem composed_caseRound (state : Cases) :
    Composed true fun bound inner => caseRound bound inner state := by
  obtain ⟨cases_, default⟩ := state
  refine .bind (composed_nextIs .closeCurly) fun closed => ?_
  cases closed with
  | true => exact .pure _
  | false =>
      refine .bind composed_nextWord? fun word => ?_
      dsimp only
      split
      · refine .bind composed_anyWord fun read => .bind (.part .expression) fun first => ?_
        refine .bind (.loop composed_valueRound [first]) fun values => ?_
        exact .bind composed_caseBody fun body => .pure _
      · refine .bind composed_anyWord fun read => ?_
        split
        · exact .bind (composed_failAt _ _) fun _ => .bind composed_caseBody fun body => .pure _
        · exact .bind composed_caseBody fun body => .pure _
      · exact composed_failHere _

theorem composed_switchStmt : Composed true fun bound inner => switchStmt bound inner := by
  refine .bind composed_anyWord fun read => .bind composed_parenthesized fun subject => ?_
  refine .bind (composed_expect .openCurly) fun _ => ?_
  refine .bind (.loop composed_caseRound ([], none)) fun state => ?_
  exact .bind (composed_expect .closeCurly) fun _ => composed_marked (plain_markStmt read.2) _

theorem composed_expressionStmt :
    Composed true fun _ inner => (do finishExpression (← inner .expression)) :=
  .bind (.part .expression) composed_finishExpression

/-- The statements that begin with a keyword, one after the other. Keywords that begin none are
complained about. -/
theorem composed_wordStmt (keyword : String) :
    Composed true fun bound inner => wordStmt bound inner keyword := by
  unfold wordStmt
  split
  · exact composed_ifStmt
  · exact composed_whileStmt
  · exact composed_doStmt
  · exact composed_forStmt
  · exact composed_plainStmt "break" .break
  · exact composed_plainStmt "continue" .continue
  · exact composed_returnStmt
  · exact composed_switchStmt
  · exact composed_switchStmt
  · exact .bind composed_functionDef fun definition => composed_marked (plain_markStmt _) _
  · exact composed_packageStmt
  · exact .bind composed_datablock fun declaration => composed_finishExpression _
  · exact composed_failHere _
  · exact composed_failHere _
  · exact composed_failHere _
  · exact composed_expressionStmt

theorem composed_statement : Composed true fun bound inner => statement bound inner := by
  refine .bind composed_nextKind? fun kind => ?_
  split
  · exact .map composed_block _
  · exact .bind (composed_expect .semicolon) fun span => composed_marked (plain_markStmt _) _
  · refine .bind composed_nextWord? fun word => ?_
    cases word with
    | some keyword => exact composed_wordStmt keyword
    | none => exact composed_expressionStmt
  · exact composed_expressionStmt

end Statements

theorem composed_part (goal : Goal) : Composed true fun bound inner => part bound inner goal := by
  cases goal with
  | statement => exact .nested composed_statement
  | expression => exact .nested composed_assignment
  | operand => exact composed_operand
  | newObject => exact composed_newObject
  | datablock => exact composed_datablock

/-- One round of the statements of a script, with parsers for what they contain. -/
def scriptRound (inner : Parser) (statements : List Stmt) :
    Parse (Round (List Stmt) (List Stmt)) := do
  match ← next? with
  | none => return .done statements.reverse
  | some _ => return .again ((← inner .statement) :: statements)

theorem composed_scriptRound (stmts : List Stmt) :
    Composed true fun _ inner => scriptRound inner stmts := by
  refine .bind composed_next? fun token => ?_
  cases token with
  | none => exact .pure _
  | some token => exact composed_collecting stmts

theorem rootRound_eq (bound : Nat) : rootRound bound = scriptRound (parser bound) :=
  rfl

/-- The statements of a script are read by a loop around the parser of statements. -/
theorem composed_root :
    Composed true fun bound inner => repeatRounds bound (scriptRound inner) [] :=
  .loop composed_scriptRound []

section Properties

variable {property : {α : Type} → Parse α → Prop} (compositional : Compositional property)
  (plain : ∀ {α : Type} {parser : Parse α}, Plain parser → property parser)
include compositional plain

/-- A compositional property of plain parsers is one of the parser of every part. -/
theorem holds_goals (bound : Nat) (goal : Goal) : property (parser bound goal) := by
  induction bound generalizing goal with
  | zero =>
      exact compositional.bind (compositional.quiet quiet_here) fun position =>
        compositional.quiet (quiet_failAt position .outOfSteps)
  | succ bound ih =>
      exact (composed_part goal).holds compositional (fun _ => plain) (fun _ => ih) bound

theorem Composed.holds_goals {body : Nat → Parser → Parse α} (composed : Composed numbers body)
    (bound : Nat) : property (body bound (parser bound)) :=
  composed.holds compositional (fun _ => plain)
    (fun _ => Parse.holds_goals compositional plain bound) bound

end Properties

end ScriptConsole.Parse
