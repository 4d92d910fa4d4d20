import ScriptConsole.Eval.Expression

/-! # Statements -/

namespace ScriptConsole.Eval

/-- Whether a loop goes on: a test that is missing always passes. -/
def passes (ev : Evaluator) : Option Expr → Eval Bool
  | none => return true
  | some test => truth ev test

/-- Runs the body of a loop once; the result is how the loop ends, if it does. -/
def runBody (ev : Evaluator) (body : Stmt) : Eval (Option Completion) := do
  match ← ev (.statement body) with
  | .normal | .continue => return none
  | .break => return some .normal
  | .return value => return some (.return value)

/-- One round of a loop with a test alone. The state is whether the test is skipped. -/
def loopRound (ev : Evaluator) (test : Expr) (body : Stmt) (skipsTest : Bool) :
    Eval (Round Bool Completion) := do
  let goesOn ← if skipsTest then pure true else truth ev test
  if goesOn then
    match ← runBody ev body with
    | none => return .again false
    | some completion => return .done completion
  else return .done .normal

/-- Evaluates an expression that may be missing, for its effects. -/
def effect (ev : Evaluator) : Option Expr → Eval Unit
  | none => return ()
  | some expr => discard (ev (.expression expr))

/-- One round of a counting loop. -/
def countRound (ev : Evaluator) (test step : Option Expr) (body : Stmt) (_ : Unit) :
    Eval (Round Unit Completion) := do
  if ← passes ev test then
    match ← runBody ev body with
    | none =>
      effect ev step
      return .again ()
    | some completion => return .done completion
  else return .done .normal

/-- Whether the subject of a switch is a value that a case is for. -/
def matchesCase (byText : Bool) (subject candidate : Value) : Bool :=
  if byText then subject.sameText candidate else subject.sameNumber candidate

/-- Whether one of some expressions is what a switch looks for. They are evaluated in
order up to the first that is. -/
def anyMatches (ev : Evaluator) (byText : Bool) (subject : Value) : List Expr → Eval Bool
  | [] => return false
  | expr :: exprs => do
    let candidate ← ev (.expression expr)
    if matchesCase byText subject candidate then return true
    else anyMatches ev byText subject exprs

/-- The statements that a switch runs: those of the first case that matches, or the
default. -/
def chosen (ev : Evaluator) (byText : Bool) (subject : Value) (default : List Stmt) :
    List SwitchCase → Eval (List Stmt)
  | [] => return default
  | case :: cases => do
    if ← anyMatches ev byText subject case.values then return case.body
    else chosen ev byText subject default cases

/-- Defines a function, in front of its namespace if in a package. -/
def defineFunction (package : Option Symbol) (definition : FunctionDef) : Eval Unit := do
  let filename := (← get).currentFile
  World.define ⟨definition.space, package⟩ definition.name (.script filename definition)

/-- Runs a statement whose line is noted. Loops run at most as many rounds as the bound
says. -/
def runStatement (bound : Nat) (ev : Evaluator) : Stmt → Eval Completion
  | .block body => statements ev body.statements
  | .expression _ value => do
    let _ ← ev (.expression value)
    return .normal
  | .branch _ test yes no => do
    if ← truth ev test then ev (.statement yes)
    else match no with
      | some no => ev (.statement no)
      | none => return .normal
  | .loop _ testsLast test body => rounds .outOfSteps (loopRound ev test body) bound testsLast
  | .count _ initial test step body => do
    effect ev initial
    rounds .outOfSteps (countRound ev test step body) bound ()
  | .break _ => return .break
  | .continue _ => return .continue
  | .return _ none => return .return .empty
  | .return _ (some value) => return .return (← ev (.expression value))
  | .switch _ byText subject cases default => do
    let subject ← ev (.expression subject)
    statements ev (← chosen ev byText subject (default.getD []) cases)
  | .function _ definition => do
    defineFunction none definition
    return .normal
  | .package _ name definitions => do
    definitions.forM (defineFunction (some name))
    return .normal

/-- Runs a statement. -/
def statement (bound : Nat) (ev : Evaluator) (statement : Stmt) : Eval Completion := do
  setLine statement.mark.span.first.line
  runStatement bound ev statement

end ScriptConsole.Eval
