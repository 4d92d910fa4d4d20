import ScriptConsole.Console.World

/-! # Consoles and their calls in progress

A console is a world together with the calls that are in progress. Each call has local
variables of its own, which end with it.
-/

namespace ScriptConsole

/-- The script function that a call is of: its name and the layer it was found in. -/
structure ActiveFunction where
  name : Symbol
  layer : Layer
  deriving DecidableEq

/-- A call in progress. Statements outside of functions run in a call without a
function. -/
structure Frame where
  function : Option ActiveFunction
  filename : String
  /-- The line of the statement that runs. -/
  line : Nat
  locals : Std.TreeMap Symbol Value

namespace Frame

/-- The call of the statements of a file that are outside of functions. -/
def ofScript (filename : String) : Frame :=
  ⟨none, filename, 0, {}⟩

/-- The call of a function. Parameters take the arguments by position: one without an
argument is empty, and further arguments are dropped. -/
def ofCall (function : ActiveFunction) (filename : String) (parameters : List Symbol)
    (arguments : List Value) : Frame :=
  { function := some function
    filename
    line := 0
    locals := (parameters.zip arguments).foldl
      (fun locals binding => locals.insert binding.1 binding.2) {} }

end Frame

/-- The calls in progress, the innermost first, together with their number. -/
structure CallStack where
  frames : List Frame
  depth : Nat
  depth_eq : depth = frames.length

namespace CallStack

/-- No call is in progress. -/
def empty : CallStack :=
  ⟨[], 0, rfl⟩

/-- The stack with a further call, which is the innermost one. -/
def push (stack : CallStack) (frame : Frame) : CallStack :=
  { frames := frame :: stack.frames
    depth := stack.depth + 1
    depth_eq := by rw [stack.depth_eq, List.length_cons] }

/-- The stack without its innermost call. -/
def pop (stack : CallStack) : CallStack :=
  { frames := stack.frames.tail
    depth := stack.depth - 1
    depth_eq := by rw [stack.depth_eq, List.length_tail] }

/-- The innermost call. -/
def top? (stack : CallStack) : Option Frame :=
  stack.frames.head?

/-- Changes the innermost call. -/
def modifyTop (stack : CallStack) (change : Frame → Frame) : CallStack :=
  { frames := stack.frames.modifyHead change
    depth := stack.depth
    depth_eq := by rw [stack.depth_eq, List.length_modifyHead] }

end CallStack

/-- A console: its world, the calls in progress, and how many expressions are in
evaluation. -/
structure Console where
  world : World
  calls : CallStack
  nesting : Nat

namespace Console

/-- A new console. -/
def new (config : Config) (serial : Nat) : Console :=
  ⟨.new config serial, .empty, 0⟩

/-- Changes the innermost call. -/
def updateFrame (console : Console) (change : Frame → Frame) : Console :=
  { console with calls := console.calls.modifyTop change }

/-- The layer of the function that is running, if one is. -/
def currentLayer? (console : Console) : Option Layer :=
  (console.calls.top?.bind Frame.function).map ActiveFunction.layer

/-- The file of the script that is running. -/
def currentFile (console : Console) : String :=
  (console.calls.top?.map Frame.filename).getD ""

/-- Reads a local variable; one that was never written is empty. -/
def getLocal (console : Console) (name : Symbol) : Value :=
  (console.calls.top?.bind fun frame => frame.locals[name]?).getD .empty

end Console

end ScriptConsole
