import ScriptConsole.Eval.Native
import ScriptConsole.Eval.Statement

/-! # Running scripts

An evaluator with a bound on its steps does every job, and fails apart from all errors
if the bound is reached.
-/

namespace ScriptConsole

namespace Eval

/-- Does a job, with an evaluator for the jobs inside it. -/
def step (bound : Nat) (ev : Evaluator) : Evaluator
  | .sequence statements => Eval.statements ev statements
  | .statement statement => Eval.statement bound ev statement
  | .expression expr => withNesting (ev (.evaluation expr))
  | .evaluation expr => expression ev expr
  | .call entry arguments => callEntry ev entry arguments
  | .declare declaration => declare ev declaration
  | .delete id => deleteObject ev id

/-- Does a job whose steps go into one another at most as far as the bound says. -/
def run : Nat → Evaluator
  | 0, _ => throw .outOfSteps
  | bound + 1, job => step bound (run bound) job

end Eval

end ScriptConsole
