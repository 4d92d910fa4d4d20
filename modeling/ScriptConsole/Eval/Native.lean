import ScriptConsole.Eval.Host
import ScriptConsole.Library.OnConsole
import ScriptConsole.Library.OnObjects

/-! # Calls of native functions

A native function is called if the number of arguments is right, and a native method
takes its object from the first argument.
-/

namespace ScriptConsole.Eval

/-- Evaluates a source for a script, which gets a warning if it does not compile. -/
def evaluateForScript (ev : Evaluator) (source : String) : Eval Value := do
  match ← evaluate ev source with
  | .ok result => return result
  | .error diagnostic =>
    World.warn ("eval: " ++ diagnostic.message)
    return .empty

/-- Deletes the children of a container or takes them out of it, one after the other. -/
def clearChildren (ev : Evaluator) (container : Nat) (deletes : Bool) : List Nat → Eval Unit
  | [] => return ()
  | child :: children => do
    if deletes then discard (ev (.delete child))
    else discard (World.removeChild container child : WorldM Bool)
    clearChildren ev container deletes children

/-- Empties a container. -/
def clear (ev : Evaluator) (container : Nat) : Eval Unit := do
  match (← world).registry.get? container with
  | none => return ()
  | some object => clearChildren ev container object.info.deletesChildren object.children

/-- Calls a built-in that may run scripts. -/
def runScriptFunction (ev : Evaluator) (function : ScriptFunction) (call : NativeCall) :
    Eval Value := do
  let self := call.object.getD 0
  match function with
  | .evaluate => evaluateForScript ev (argument call.arguments 0).toText
  | .delete =>
    let _ ← ev (.delete self)
    return .empty
  | .clear =>
    clear ev self
    return .empty

/-- Runs the code of a native function. -/
def runNative (ev : Evaluator) (code : NativeCode) (call : NativeCall) : Eval Value :=
  match code with
  | .builtin (.onValues function) => return function.apply call.arguments
  | .builtin (.onConsole function) => function.apply call.arguments
  | .builtin (.onObject method) => method.apply (call.object.getD 0) call.arguments
  | .builtin (.onScripts function) => runScriptFunction ev function call
  | .host program => runHost ev (program call)

/-- How a native function sees its arguments; `none` if it is a method and the first
argument refers to no object. -/
def nativeCall? (world : World) (isMethod : Bool) (arguments : List Value) : Option NativeCall :=
  if isMethod then
    match arguments with
    | [] => none
    | self :: rest => (world.findByValue? self).map fun id => ⟨some id, rest⟩
  else some ⟨none, arguments⟩

/-- What a warning says about the numbers of arguments that are right. -/
def expectedArguments (arity : Arity) : String :=
  match arity.most with
  | none => "at least " ++ toString arity.least
  | some most => toString arity.least ++ " to " ++ toString most

/-- Calls a native function. -/
def callNative (ev : Evaluator) (name : String) (isMethod : Bool) (arity : Arity)
    (code : NativeCode) (arguments : List Value) : Eval Value := do
  match nativeCall? (← world) isMethod arguments with
  | none =>
    World.warn (name ++ ": method called without a valid object")
    return .empty
  | some call =>
    let count := call.arguments.length
    if arity.admits count then runNative ev code call
    else
      World.warn
        (name ++ ": wrong number of arguments, expected " ++ expectedArguments arity ++ ", got " ++
          toString count)
      return .empty

/-- Calls the function of an entry. -/
def callEntry (ev : Evaluator) (entry : Entry Callable) (arguments : List Value) : Eval Value :=
  match entry.target with
  | .script filename definition => callScript ev entry filename definition arguments
  | .native isMethod arity code =>
    callNative ev (displayName entry.layer.space entry.name) isMethod arity code arguments

end ScriptConsole.Eval
