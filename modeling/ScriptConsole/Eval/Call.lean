import ScriptConsole.Console.Objects
import ScriptConsole.Eval.Basic

/-! # Calls

A script and the body of a function each run in a call of their own. Functions are
called by name, and methods on an object.
-/

namespace ScriptConsole.Eval

/-- The result of a body that ended. -/
def bodyResult (name : String) : Completion → WorldM Value
  | .return value => return value
  | .normal => return .empty
  | .break | .continue => do
    World.warn (name ++ ": break or continue outside of a loop")
    return .empty

/-- Runs a script in a call of its own. -/
def execute (ev : Evaluator) (script : Script) : Eval Value := do
  let completion ← withFrame (.ofScript script.filename) (ev (.sequence script.root))
  bodyResult script.filename completion

/-- The file name of sources that are not from a file. -/
def unnamedFile : String := "<eval>"

/-- Compiles a source and runs it. -/
def evaluate (ev : Evaluator) (source : String) : Eval (Except Diagnostic Value) := do
  match ← (World.compile unnamedFile source : WorldM _) with
  | .error diagnostic => return .error diagnostic
  | .ok script => return .ok (← execute ev script)

/-- Calls a function defined in a script. -/
def callScript (ev : Evaluator) (entry : Entry Callable) (filename : String)
    (definition : FunctionDef) (arguments : List Value) : Eval Value := do
  let frame := Frame.ofCall ⟨entry.name, entry.layer⟩ filename definition.parameters arguments
  let completion ← withFrame frame (ev (.statement (.block definition.body)))
  bodyResult (displayName entry.layer.space entry.name) completion

/-- Calls the function that an entry holds by a name, or warns that there is none. -/
def callFunction (ev : Evaluator) (name : String) (arguments : List Value) : Eval Value := do
  let (space, name) := World.splitQualified name
  match (← world).functionNamed? space name with
  | some entry => ev (.call entry arguments)
  | none =>
    World.warn ("unable to find function '" ++ name ++ "'")
    return .empty

/-- Calls a method on a live object. The arguments start with the object. -/
def sendTo (ev : Evaluator) (id : Nat) (method : Symbol) (arguments : List Value) : Eval Value := do
  let world ← world
  match world.registry.get? id with
  | none => return .empty
  | some object =>
    match world.functionIn? object.layer method with
    | some entry => ev (.call entry arguments)
    | none =>
      World.warn
        (object.info.name.text ++ " (" ++ World.numbered id ++ "): unknown command '" ++
          method.text ++ "'")
      return .empty

/-- Calls a method on the object of a number. -/
def callMethod (ev : Evaluator) (id : Nat) (method : String) (arguments : List Value) :
    Eval Value := do
  if (← world).registry.contains id then
    let method ← World.intern method
    sendTo ev id method (.ofNat id :: arguments)
  else
    World.warn
      ("unable to find " ++ World.numbered id ++ " attempting to call function '" ++ method ++ "'")
    return .empty

end ScriptConsole.Eval
