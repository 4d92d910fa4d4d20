/-! # Errors that end a run

A script survives its mistakes with a warning, but not running out of room for calls
or expressions. The error then tells which calls were in progress.
-/

namespace ScriptConsole

/-- Why a run ended. -/
inductive EvalFault where
  | callDepth (limit : Nat)
  | expressionDepth (limit : Nat)
  /-- The target of an assignment is no place; compiled scripts have no such target. -/
  | notAssignable
  deriving DecidableEq

/-- The wording of a reason. -/
def EvalFault.message : EvalFault → String
  | callDepth limit => "stack exhausted, call depth exceeds " ++ toString limit
  | expressionDepth limit => "stack exhausted, expressions nested deeper than " ++ toString limit
  | notAssignable => "expression is not assignable"

/-- What an error tells about a call. -/
structure CallNote where
  /-- The name of the function, if the call is of one. -/
  function : Option String
  filename : String
  line : Nat
  deriving DecidableEq

namespace CallNote

/-- The note as it is printed. -/
def render (note : CallNote) : String :=
  (note.function.elim "<top level>" fun name => "function " ++ name) ++ " " ++
    note.filename ++ ":" ++ toString note.line

end CallNote

/-- An error that ended a run: the reason, and the calls in progress with the innermost
first. -/
structure EvalError where
  fault : EvalFault
  calls : List CallNote
  deriving DecidableEq

namespace EvalError

/-- How many calls an error prints. -/
def printedCalls : Nat := 16

/-- The error as it is printed. -/
def render (error : EvalError) : String :=
  let shown := (error.calls.take printedCalls).map fun note => " | " ++ note.render ++ "\n"
  let hidden := error.calls.length - printedCalls
  "error: " ++ error.fault.message ++ "\n" ++
    (if error.calls.isEmpty then "" else " +-  Stack trace:\n") ++ String.join shown ++
    (if hidden = 0 then "" else " | ... " ++ toString hidden ++ " more\n")

end EvalError

end ScriptConsole
