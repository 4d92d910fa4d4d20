import ScriptConsole.Eval.Call
import ScriptConsole.Snapshot.Restore

/-! # What the host does

An operation of the host is done at once. An error that ends it goes to the host, which
may work on.
-/

namespace ScriptConsole.Eval

/-- Does an operation of the host. -/
def perform (ev : Evaluator) : (operation : Operation) → Eval operation.Answer
  | .evaluate source => evaluate ev source
  | .compile filename text => World.compile filename text
  | .execute script => execute ev script
  | .callFunction name arguments => callFunction ev name arguments
  | .callMethod id method arguments => callMethod ev id method arguments
  | .getGlobal name => return (← world).globalNamed name
  | .setGlobal name value => World.setGlobalNamed name value
  | .intern name => World.intern name
  | .linkNamespaces child parent => World.linkNamespaces child parent
  | .registerClass spec => World.registerClass spec
  | .findClass name => return (← world).classInfo? name
  | .newObject className => return (← world).newObject? className
  | .register draft name => registerObject ev draft name
  | .delete id => ev (.delete id)
  | .find reference => return (← world).findByValue? reference
  | .object id => return (← world).registry.get? id
  | .getField id field index => return (← world).getField? id field index
  | .setField id field index value => World.setField id field index value
  | .rename id name => World.rename id name
  | .addChild container child => World.addChild container child
  | .removeChild container child => World.removeChild container child
  | .respondsTo id name => return (← world).respondsTo id name
  | .capture id => return Snapshot.capture? (← world).registry id
  | .restore snapshot => snapshot.restore ev
  | .tags => return (← world).tags
  | .tag text => World.tag text
  | .releaseTag id => World.releaseTag id
  | .say text => World.say text
  | .setSink sink => World.setSink sink

/-- A computation whose errors are results. Only running out of steps still ends it. -/
def attempt {α : Type} (action : Eval α) : Eval (Except EvalError α) := fun console =>
  match action console with
  | .ok result console => .ok (.ok result) console
  | .error (.error error) console => .ok (.error error) console
  | .error .outOfSteps console => .error .outOfSteps console

/-- Runs a function of the host. -/
def runHost (ev : Evaluator) : HostProgram → Eval Value
  | .done result => return result
  | .fail error => throw (.error error)
  | .ask operation next => do runHost ev (next (← attempt (perform ev operation)))
  | .register space name isMethod arity code next => do
    World.registerNative space name isMethod arity (.host code)
    runHost ev next

end ScriptConsole.Eval
