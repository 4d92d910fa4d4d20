import ScriptConsole.Console.Basic
import ScriptConsole.Rounds

/-! # Evaluation

Evaluation changes a console and may end in an error. It is defined step by step: a
step does one job and hands the jobs inside it to an evaluator. How far steps may go
into one another is bounded, and reaching the bound is told apart from errors.
-/

namespace ScriptConsole

/-- Why evaluation did not come to a result. -/
inductive Abort where
  | outOfSteps
  | error (error : EvalError)

/-- A computation on a console. -/
abbrev Eval := EStateM Abort Console

/-- How a statement ends. -/
inductive Completion where
  | normal
  | break
  | continue
  | return (value : Value)

/-- What there is to do. -/
inductive Job where
  /-- Runs statements in order. -/
  | sequence (statements : List Stmt)
  | statement (statement : Stmt)
  | expression (expr : Expr)
  /-- Evaluates an expression that counts as being evaluated. -/
  | evaluation (expr : Expr)
  | call (entry : Entry Callable) (arguments : List Value)
  /-- Creates an object as declared, with the objects inside it. -/
  | declare (declaration : ObjectDecl)
  | delete (id : Nat)

/-- The type of what a job results in. -/
abbrev Job.Result : Job → Type
  | sequence _ => Completion
  | statement _ => Completion
  | expression _ => Value
  | evaluation _ => Value
  | call _ _ => Value
  | declare _ => Option Nat
  | delete _ => Bool

/-- Something that does jobs. -/
abbrev Evaluator := (job : Job) → Eval job.Result

/-- What an error tells about a call in progress. -/
def CallNote.ofFrame (frame : Frame) : CallNote :=
  { function := frame.function.map fun function => displayName function.layer.space function.name
    filename := frame.filename
    line := frame.line }

namespace Eval

/-- A change of the world as a computation. -/
instance : MonadLift WorldM Eval where
  monadLift change console :=
    let (result, world) := change console.world
    .ok result { console with world }

/-- The world at this time. -/
def world : Eval World :=
  return (← get).world

/-- Fails for a reason. The error tells which calls are in progress. -/
def fail {α : Type} (fault : EvalFault) : Eval α := fun console =>
  .error (.error ⟨fault, console.calls.frames.map .ofFrame⟩) console

/-- Goes on with a console in which the innermost call has ended. -/
def popFrame (console : Console) : Console :=
  { console with calls := console.calls.pop }

/-- Runs a computation inside a further call, which ends with it in any case. -/
@[inline] def withFrame {α : Type} (frame : Frame) (action : Eval α) : Eval α := fun console =>
  let limit := console.world.config.maxCallDepth
  if limit ≤ console.calls.depth then fail (.callDepth limit) console
  else match action { console with calls := console.calls.push frame } with
    | .ok result console => .ok result (popFrame console)
    | .error abort console => .error abort (popFrame console)

/-- Goes on with a console in which the innermost expression is evaluated. -/
def leaveExpression (console : Console) : Console :=
  { console with nesting := console.nesting - 1 }

/-- Runs the evaluation of an expression one level deeper. -/
@[inline] def withNesting {α : Type} (action : Eval α) : Eval α := fun console =>
  let limit := console.world.config.maxExpressionDepth
  if limit ≤ console.nesting then fail (.expressionDepth limit) console
  else match action { console with nesting := console.nesting + 1 } with
    | .ok result console => .ok result (leaveExpression console)
    | .error abort console => .error abort (leaveExpression console)

/-- Notes the line of the statement that runs. -/
def setLine (line : Nat) : Eval Unit :=
  modify fun console => console.updateFrame fun frame => { frame with line }

/-- Evaluates expressions in order. -/
def values (ev : Evaluator) : List Expr → Eval (List Value)
  | [] => return []
  | expr :: exprs => do
    let value ← ev (.expression expr)
    return value :: (← values ev exprs)

/-- The text that indices stand for: their texts with underscores between them. -/
def indexText (ev : Evaluator) (indices : List Expr) : Eval String := do
  return String.intercalate "_" ((← values ev indices).map Value.toText)

/-- The text that indices stand for, if there are any. -/
def indexText? (ev : Evaluator) (indices : List Expr) : Eval (Option String) := do
  if indices.isEmpty then return none else return some (← indexText ev indices)

/-- Runs statements in order, up to the first that does not end normally. -/
def statements (ev : Evaluator) : List Stmt → Eval Completion
  | [] => return .normal
  | statement :: rest => do
    match ← ev (.statement statement) with
    | .normal => statements ev rest
    | completion => return completion

end Eval

end ScriptConsole
