import ScriptConsole.Parse.Expression

/-! # Reading statements

The parameter `bound` limits the rounds of each loop, and `inner` reads what a
statement contains.
-/

namespace ScriptConsole.Parse

section

variable (bound : Nat) (inner : Parser)

/-- One round of statements in braces. -/
def blockRound (statements : List Stmt) : Parse (Round (List Stmt) (List Stmt)) := do
  match ← nextKind? with
  | none | some (.punct .closeCurly) => return .done statements.reverse
  | _ => return .again ((← inner .statement) :: statements)

/-- Statements in braces. -/
def block : Parse Block := do
  let first ← expect .openCurly
  let statements ← repeatRounds bound (blockRound inner) []
  let last ← expect .closeCurly
  return ⟨← markStmt ⟨first.first, last.last⟩, statements⟩

/-- A parameter of a function. -/
def parameter : Parse (String × Span) := do
  let (text, scope, span) ← variableName
  match scope with
  | .ofCall => return (text, span)
  | .ofConsole => failAt span.first .globalParameter

/-- The first parameter whose name an earlier one has. -/
def duplicate? (earlier : List String) : List (String × Span) → Option Span
  | [] => none
  | (text, span) :: rest =>
    if earlier.any (Text.sameFolded text) then some span else duplicate? (text :: earlier) rest

/-- The symbols of names, in order. -/
def internAll : List String → Parse (List Symbol)
  | [] => return []
  | text :: rest => do
    let symbol ← intern text
    return symbol :: (← internAll rest)

/-- The name of a function, after the namespace it is in, and the end of it. -/
def functionName : Parse (Option Symbol × Symbol × Span) := do
  let (first, firstSpan) ← name
  if ← accept .colonColon then
    let (second, secondSpan) ← name
    let space ← intern first
    return (some space, ← intern second, secondSpan)
  else return (none, ← intern first, firstSpan)

/-- The definition of a function. -/
def functionDef : Parse FunctionDef := do
  let first ← word "function"
  let (space, function, last) ← functionName
  let parameters ←
    list bound .openParen .closeParen parameter "a parameter" "a parameter list"
  match duplicate? [] parameters with
  | some span => failAt span.first .duplicateParameter
  | none => pure ()
  let symbols ← internAll (parameters.map Prod.fst)
  let body ← block bound inner
  return ⟨← markDefinition ⟨first.first, last.last⟩, space, function, symbols, body⟩

/-- A function definition as a statement. -/
def functionStmt : Parse Stmt := do
  let definition ← functionDef bound inner
  return .function (← markStmt definition.mark.span) definition

/-- One round of the definitions in a package. -/
def packageRound (definitions : List FunctionDef) :
    Parse (Round (List FunctionDef) (List FunctionDef)) := do
  match ← nextKind? with
  | some (.punct .closeCurly) => return .done definitions.reverse
  | some (.punct .semicolon) =>
    pass
    return .again definitions
  | _ =>
    if ← nextIsWord "function" then
      return .again ((← functionDef bound inner) :: definitions)
    else failHere .expectedFunction

/-- A package of function definitions. -/
def packageStmt : Parse Stmt := do
  let first ← word "package"
  let (text, last) ← name
  let package ← intern text
  let _ ← expect .openCurly
  let definitions ← repeatRounds bound (packageRound bound inner) []
  let _ ← expect .closeCurly
  let _ ← expect .semicolon
  return .package (← markStmt ⟨first.first, last.last⟩) package definitions

/-- The statement that evaluates an expression, up to its semicolon. -/
def finishExpression (expr : Expr) : Parse Stmt := do
  let last ← expect .semicolon
  return .expression (← markStmt ⟨expr.mark.span.first, last.last⟩) expr

/-- A choice between two statements. -/
def ifStmt : Parse Stmt := do
  let span ← word "if"
  let test ← parenthesized inner
  let yes ← inner .statement
  let no ←
    if ← nextIsWord "else" then
      pass
      some <$> inner .statement
    else pure none
  return .branch (← markStmt span) test yes no

/-- A loop that tests before each round. -/
def whileStmt : Parse Stmt := do
  let span ← word "while"
  let test ← parenthesized inner
  let body ← inner .statement
  return .loop (← markStmt span) false test body

/-- A loop that tests after each round. -/
def doStmt : Parse Stmt := do
  let span ← word "do"
  let body ← inner .statement
  let _ ← word "while"
  let test ← parenthesized inner
  let _ ← expect .semicolon
  return .loop (← markStmt span) true test body

/-- A loop with a start, a test and a step, any of which may be missing. -/
def forStmt : Parse Stmt := do
  let span ← word "for"
  let _ ← expect .openParen
  let initial ← optional inner .semicolon
  let _ ← expect .semicolon
  let test ← optional inner .semicolon
  let _ ← expect .semicolon
  let step ← optional inner .closeParen
  let _ ← expect .closeParen
  let body ← inner .statement
  return .count (← markStmt span) initial test step body

/-- A keyword that is a statement by itself. -/
def plainStmt (keyword : String) (build : Mark → Stmt) : Parse Stmt := do
  let span ← word keyword
  let _ ← expect .semicolon
  return build (← markStmt span)

/-- The end of a function, with its result. -/
def returnStmt : Parse Stmt := do
  let span ← word "return"
  let value ← optional inner .semicolon
  let _ ← expect .semicolon
  return .return (← markStmt span) value

/-- One round of the values of a case. -/
def valueRound (values : List Expr) : Parse (Round (List Expr) (List Expr)) := do
  if ← nextIsWord "or" then
    pass
    return .again ((← inner .expression) :: values)
  else return .done values.reverse

/-- Whether the statements of a case end here. -/
def caseEnds : Parse Bool := do
  match ← nextKind? with
  | none | some (.punct .closeCurly) => return true
  | _ =>
    if ← nextIsWord "case" then return true
    nextIsWord "default"

/-- One round of the statements of a case. -/
def caseBodyRound (statements : List Stmt) : Parse (Round (List Stmt) (List Stmt)) := do
  if ← caseEnds then return .done statements.reverse
  else return .again ((← inner .statement) :: statements)

/-- The colon after a case and its statements. -/
def caseBody : Parse (List Stmt) := do
  let _ ← expect .colon
  repeatRounds bound (caseBodyRound inner) []

/-- The cases of a switch and what it does otherwise. -/
abbrev Cases := List SwitchCase × Option (List Stmt)

/-- One round of the cases of a switch, which are collected in reverse. -/
def caseRound (state : Cases) : Parse (Round Cases Cases) := do
  let (cases, default) := state
  if ← nextIs .closeCurly then return .done (cases.reverse, default)
  match ← nextWord? with
  | some "case" =>
    let (_, span) ← anyWord
    let first ← inner .expression
    let values ← repeatRounds bound (valueRound inner) [first]
    let body ← caseBody bound inner
    return .again (⟨span, values, body⟩ :: cases, default)
  | some "default" =>
    let (_, span) ← anyWord
    if default.isSome then failAt span.first .secondDefault
    return .again (cases, some (← caseBody bound inner))
  | _ => failHere .expectedCase

/-- A choice between cases, by number or by text. -/
def switchStmt : Parse Stmt := do
  let (keyword, span) ← anyWord
  let subject ← parenthesized inner
  let _ ← expect .openCurly
  let (cases, default) ← repeatRounds bound (caseRound bound inner) ([], none)
  let _ ← expect .closeCurly
  return .switch (← markStmt span) (keyword = "switch$") subject cases default

/-- A statement that starts with an identifier. -/
def wordStmt (keyword : String) : Parse Stmt := do
  match keyword with
  | "if" => ifStmt inner
  | "while" => whileStmt inner
  | "do" => doStmt inner
  | "for" => forStmt inner
  | "break" => plainStmt "break" .break
  | "continue" => plainStmt "continue" .continue
  | "return" => returnStmt inner
  | "switch" | "switch$" => switchStmt bound inner
  | "function" => functionStmt bound inner
  | "package" => packageStmt bound inner
  | "datablock" => finishExpression (.object (← datablock bound inner))
  | "else" | "case" | "default" => failHere (.unexpectedWord keyword)
  | _ => finishExpression (← inner .expression)

/-- A statement. -/
def statement : Parse Stmt := do
  match ← nextKind? with
  | some (.punct .openCurly) => .block <$> block bound inner
  | some (.punct .semicolon) =>
    let span ← expect .semicolon
    return .block ⟨← markStmt span, []⟩
  | some .identifier =>
    match ← nextWord? with
    | some keyword => wordStmt bound inner keyword
    | none => finishExpression (← inner .expression)
  | _ => finishExpression (← inner .expression)

end

end ScriptConsole.Parse
