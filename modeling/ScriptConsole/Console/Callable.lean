import ScriptConsole.Console.Operation
import ScriptConsole.Library.Builtin

/-! # Functions that can be called

A function is defined by a script or comes with the console or its host. What a
function of the host does is known to the console as the operations it asks for.
-/

namespace ScriptConsole

/-- What a native function is called with: the object, for a method, and the
arguments. -/
structure NativeCall where
  object : Option Nat
  arguments : List Value

/-- What a function of the host does: operations, each chosen after the answer to the
one before or the error that ended it, up to a result or an error of its own. -/
inductive HostProgram where
  | done (result : Value)
  | fail (error : EvalError)
  | ask (operation : Operation) (next : Except EvalError operation.Answer → HostProgram)
  /-- Registers a further function. -/
  | register (space : Option String) (name : String) (isMethod : Bool) (arity : Arity)
    (code : NativeCall → HostProgram) (next : HostProgram)

/-- The code of a native function. -/
inductive NativeCode where
  | builtin (builtin : Builtin)
  | host (program : NativeCall → HostProgram)

/-- A function that can be called. -/
inductive Callable where
  /-- Defined in the script of a file. -/
  | script (filename : String) (definition : FunctionDef)
  | native (isMethod : Bool) (arity : Arity) (code : NativeCode)

/-- The name of a function in a namespace as it is shown. -/
def displayName (space : Option Symbol) (name : Symbol) : String :=
  match space with
  | some space => space.text ++ "::" ++ name.text
  | none => name.text

end ScriptConsole
