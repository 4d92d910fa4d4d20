import ScriptConsole.Parse.Goal
import ScriptConsole.Parse.Literal
import ScriptConsole.Parse.Word

/-! # Reading expressions

Binary operators of one level group to the left; a tighter level is read inside a
looser one. Assignments group to the right. The parameter `bound` limits the rounds of
each loop, and `inner` reads what an expression contains.
-/

namespace ScriptConsole.Parse

/-- How a binary operator is spelled. -/
inductive OperatorToken where
  | punct (punct : Punct)
  | word (word : String)

/-- Whether a token spells an operator. -/
def OperatorToken.matches (operator : OperatorToken) (token : Token) : Bool :=
  match operator with
  | punct p => token.kind = .punct p
  | word w => token.kind = .identifier && token.text = Utf8.encode w

/-- The binary operators in levels, the loosest first. -/
def binaryLevels : List (List (OperatorToken × BinaryOp)) := [
  [(.punct .orOr, .logicalOr)],
  [(.punct .andAnd, .logicalAnd)],
  [(.punct .bar, .bitOr)],
  [(.punct .caret, .bitXor)],
  [(.punct .ampersand, .bitAnd)],
  [(.punct .equalEqual, .equal), (.punct .notEqual, .notEqual)],
  [(.punct .openAngle, .less), (.punct .lessEquals, .lessEqual),
    (.punct .closeAngle, .greater), (.punct .greaterEquals, .greaterEqual)],
  [(.punct .atSign, .join), (.punct .dollarEquals, .sameText),
    (.punct .notDollarEquals, .differentText), (.word "SPC", .joinSpace), (.word "TAB", .joinTab),
    (.word "NL", .joinNewline)],
  [(.punct .shiftLeft, .shiftLeft), (.punct .shiftRight, .shiftRight)],
  [(.punct .plus, .add), (.punct .minus, .subtract)],
  [(.punct .star, .multiply), (.punct .slash, .divide), (.punct .percent, .remainder)]]

/-- The operator of a level that a token spells. -/
def operatorOf? (level : List (OperatorToken × BinaryOp)) (token : Token) : Option BinaryOp :=
  (level.find? fun entry => entry.1.matches token).map Prod.snd

/-- The assignment that a punctuation token spells. -/
def assignOf? : Punct → Option AssignOp
  | .equals => some .set
  | .plusEquals => some .add
  | .minusEquals => some .subtract
  | .starEquals => some .multiply
  | .slashEquals => some .divide
  | .percentEquals => some .remainder
  | .andEquals => some .bitAnd
  | .orEquals => some .bitOr
  | .caretEquals => some .bitXor
  | .shiftLeftEquals => some .shiftLeft
  | .shiftRightEquals => some .shiftRight
  | _ => none

/-- The operator that a punctuation token spells in front of an operand. -/
def prefixOf? : Punct → Option UnaryOp
  | .minus => some .negate
  | .plusPlus => some .preIncrement
  | .minusMinus => some .preDecrement
  | .tilde => some .bitNot
  | .exclamation => some .logicalNot
  | _ => none

/-- The operator that the next token spells under a reading of punctuation tokens, and
the span of the token. -/
def nextOperator? {α : Type} (read : Punct → Option α) : Parse (Option (α × Span)) := do
  match ← next? with
  | some token =>
    match token.kind with
    | .punct punct => return (read punct).map fun operator => (operator, token.span)
    | _ => return none
  | none => return none

section

variable (bound : Nat) (inner : Parser)

/-- An expression in parentheses. -/
def parenthesized : Parse Expr := do
  let _ ← expect .openParen
  let expr ← inner .expression
  let _ ← expect .closeParen
  return expr

/-- An expression, unless the next token ends the place for it. -/
def optional (terminator : Punct) : Parse (Option Expr) := do
  if ← nextIs terminator then return none else return some (← inner .expression)

/-- The arguments of a call. -/
def arguments : Parse (List Expr) :=
  list bound .openParen .closeParen (inner .expression) "an argument" "a list of arguments"

/-- Indices in square brackets, at least one if the brackets are there. -/
def indices : Parse (List Expr) := do
  let start ← here
  match ← list? bound .openSquare .closeSquare (inner .expression) "an index" with
  | none => return []
  | some [] => failAt start .expectedIndex
  | some exprs => return exprs

/-- A call of a function in a namespace; the word `Parent` in any letter case stands
for the function that the calling one overrides. -/
def qualifiedCall (space : String) (first : Span) : Parse Expr := do
  let spaceSymbol ← intern space
  let (text, last) ← name
  let function ← intern text
  let exprs ← arguments bound inner
  let callee :=
    if Text.sameFolded space "parent" then .parent function else .qualified spaceSymbol function
  return .call (← markExpr ⟨first.first, last.last⟩) callee exprs

/-- An expression that starts with a name: a call, or the name itself as a text. -/
def namedExpr : Parse Expr := do
  let (text, span) ← name
  if ← accept .colonColon then qualifiedCall bound inner text span
  else if ← nextIs .openParen then
    let function ← intern text
    let exprs ← arguments bound inner
    return .call (← markExpr span) (.global function) exprs
  else
    let value ← constant text
    return .literal (← markExpr span) (.text value)

/-- A truth value, as the number that stands for it. -/
def truth (value : Int64) : Parse Expr := do
  let (_, span) ← anyWord
  return .literal (← markExpr span) (.int value)

/-- The text that a tag stands for. -/
def detagExpr : Parse Expr := do
  let span ← word "detag"
  let operand ← parenthesized inner
  return .detag (← markExpr span) operand

/-- The object whose fields a declaration starts from. -/
def copySource : Parse (Option Symbol) := do
  if ← accept .colon then
    let (text, _) ← name
    return some (← intern text)
  else return none

/-- A field in the body of an object declaration. Keywords are allowed as its name. -/
def fieldInit : Parse FieldInit := do
  let (text, span) ← anyWord
  let field ← intern text
  let exprs ← indices bound inner
  let _ ← expect .equals
  let value ← inner .expression
  let last ← expect .semicolon
  return ⟨⟨span.first, last.last⟩, field, exprs, value⟩

/-- One round of the body of an object declaration. What was read is collected in
reverse. -/
def memberRound (state : List FieldInit × List ObjectDecl) :
    Parse (Round (List FieldInit × List ObjectDecl) (List FieldInit × List ObjectDecl)) := do
  let (fields, children) := state
  match ← nextKind? with
  | some (.punct .closeCurly) => return .done (fields.reverse, children.reverse)
  | some (.punct .semicolon) =>
    pass
    return .again (fields, children)
  | some .identifier =>
    if ← nextIsWord "new" then
      let child ← inner .newObject
      let _ ← expect .semicolon
      return .again (fields, child :: children)
    else if ← nextIsWord "datablock" then
      let child ← inner .datablock
      let _ ← expect .semicolon
      return .again (fields, child :: children)
    else return .again ((← fieldInit bound inner) :: fields, children)
  | _ => failHere .expectedMember

/-- The body of an object declaration: its fields and the objects inside it. -/
def objectBody : Parse (List FieldInit × List ObjectDecl) := do
  let _ ← expect .openCurly
  let members ← repeatRounds bound (memberRound bound inner) ([], [])
  let _ ← expect .closeCurly
  return members

/-- The class of a declared object, with the span from the keyword before it. -/
def declaredClass (keyword : String) : Parse (Symbol × Span) := do
  let first ← word keyword
  let (text, last) ← name
  return (← intern text, ⟨first.first, last.last⟩)

/-- An object declaration; its name, the object to copy from and its body may be
missing. -/
def newObject : Parse ObjectDecl := do
  let (className, span) ← declaredClass "new"
  let _ ← expect .openParen
  let name ←
    match ← nextKind? with
    | some (.punct .closeParen) | some (.punct .colon) => pure none
    | _ => some <$> inner .expression
  let copied ← copySource
  let _ ← expect .closeParen
  let (fields, children) ← if ← nextIs .openCurly then objectBody bound inner else pure ([], [])
  return ⟨← markExpr span, false, className, name, copied, fields, children⟩

/-- A datablock declaration; its name is an identifier and it has a body. -/
def datablock : Parse ObjectDecl := do
  let (className, span) ← declaredClass "datablock"
  let _ ← expect .openParen
  let (text, nameSpan) ← name
  let value ← constant text
  let nameMark ← markExpr nameSpan
  let copied ← copySource
  let _ ← expect .closeParen
  let (fields, children) ← objectBody bound inner
  return ⟨← markExpr span, true, className, some (.literal nameMark (.text value)), copied, fields,
    children⟩

/-- An expression that starts with an identifier. -/
def wordExpr : Parse Expr := do
  match ← nextWord? with
  | some "true" => truth 1
  | some "false" => truth 0
  | some "new" => .object <$> newObject bound inner
  | some "detag" =>
    if (← secondKind?) = some (.punct .openParen) then detagExpr inner else namedExpr bound inner
  | _ => namedExpr bound inner

/-- An operand without operators around it. -/
def primary : Parse Expr := do
  match ← nextKind? with
  | some (.punct .openParen) => parenthesized inner
  | some .number =>
    let (value, span) ← number
    return .literal (← markExpr span) value
  | some .string | some .tagged =>
    let (value, span) ← string
    return .literal (← markExpr span) value
  | some .localName | some .globalName =>
    let (text, scope, span) ← variableName
    let symbol ← intern text
    let exprs ← indices bound inner
    return .variable (← markExpr span) scope symbol exprs
  | some .identifier => wordExpr bound inner
  | _ => failHere .expectedExpression

/-- A step of a value that was read: the operator after a place. -/
def stepAfter (op : UnaryOp) (operand : Expr) (span : Span) : Parse Expr := do
  pass
  if operand.isPlace then return .unary (← markExpr span) op operand
  else failAt span.first .notWritable

/-- A field or a method of a value that was read. -/
def memberAfter (object : Expr) : Parse Expr := do
  pass
  let (text, span) ← anyWord
  let symbol ← intern text
  if ← nextIs .openParen then
    let exprs ← arguments bound inner
    return .send (← markExpr span) object symbol exprs
  else
    let exprs ← indices bound inner
    return .slot (← markExpr span) object symbol exprs

/-- One round of what follows an operand. -/
def suffixRound (operand : Expr) : Parse (Round Expr Expr) := do
  match ← next? with
  | some token =>
    match token.kind with
    | .punct .plusPlus => return .again (← stepAfter .postIncrement operand token.span)
    | .punct .minusMinus => return .again (← stepAfter .postDecrement operand token.span)
    | .punct .dot => return .again (← memberAfter bound inner operand)
    | _ => return .done operand
  | none => return .done operand

/-- An operand with the fields, calls and steps that follow it. -/
def suffixed : Parse Expr := do
  repeatRounds bound (suffixRound bound inner) (← primary bound inner)

/-- An operand with the operators in front of it. -/
def operand : Parse Expr := do
  match ← nextOperator? prefixOf? with
  | some (op, span) =>
    pass
    let expr ← nested (inner .operand)
    if op.writes && !expr.isPlace then failAt span.first .notWritable
    return .unary (← markExpr span) op expr
  | none => suffixed bound inner

/-- One round of a level: an operator of the level and its right operand. -/
def levelRound (tighter : Parse Expr) (level : List (OperatorToken × BinaryOp)) (left : Expr) :
    Parse (Round Expr Expr) := do
  match ← next? with
  | some token =>
    match operatorOf? level token with
    | some op =>
      pass
      let right ← tighter
      return .again (.binary (← markExpr token.span) op left right)
    | none => return .done left
  | none => return .done left

/-- Operands joined by binary operators of some levels. -/
def binary : List (List (OperatorToken × BinaryOp)) → Parse Expr
  | [] => operand bound inner
  | level :: tighter => do
    let first ← binary tighter
    repeatRounds bound (levelRound (binary tighter) level) first

/-- A choice between two expressions, or what can stand in one. -/
def conditional : Parse Expr := do
  let test ← binary bound inner binaryLevels
  match ← next? with
  | some token =>
    if token.kind = .punct .question then
      pass
      let yes ← inner .expression
      let _ ← expect .colon
      let no ← inner .expression
      return .conditional (← markExpr token.span) test yes no
    else return test
  | none => return test

/-- An assignment, or what can stand in one. -/
def assignment : Parse Expr := do
  let target ← conditional bound inner
  match ← nextOperator? assignOf? with
  | some (op, span) =>
    if !target.isPlace then failAt target.mark.span.first .notAssignable
    pass
    let value ← inner .expression
    return .assign (← markExpr span) op target value
  | none => return target

end

end ScriptConsole.Parse
