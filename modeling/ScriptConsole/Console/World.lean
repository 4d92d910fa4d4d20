import ScriptConsole.Console.Callable
import ScriptConsole.Console.Log
import ScriptConsole.Library.Classes
import ScriptConsole.Namespace.Resolve
import ScriptConsole.Object.Registry
import ScriptConsole.Parse.Script
import ScriptConsole.Tag.Table

/-! # The world of a console

The world is what all scripts of a console share: names, global variables, functions,
objects, tags and the log.
-/

namespace ScriptConsole

/-- The settings of a console. -/
structure Config where
  /-- How many calls may be in progress at a time. -/
  maxCallDepth : Nat := 1000
  /-- How many expressions may be in evaluation at a time. -/
  maxExpressionDepth : Nat := 10000
  firstObject : Nat := 4096
  firstDatablock : Nat := 3
  /-- Whether warnings are logged. -/
  echoWarnings : Bool := true
  deriving DecidableEq

/-- What the scripts of a console share. -/
structure World where
  config : Config
  sink : Sink
  /-- The logged messages, the newest first. -/
  log : List Message
  symbols : SymbolTable
  globals : Std.TreeMap Symbol Value
  spaces : Namespaces Callable
  registry : Registry
  tags : TagTable

/-- A change of a world, with a result. -/
abbrev WorldM := StateM World

namespace World

/-- The world before anything is registered. The serial number tells the symbols of
different worlds apart. -/
def bare (config : Config) (serial : Nat) : World :=
  { config
    sink := .memory
    log := []
    symbols := .empty serial
    globals := {}
    spaces := .empty
    registry := .empty config.firstObject config.firstDatablock
    tags := .empty }

/-- Logs a message. -/
def record (message : Message) : WorldM Unit :=
  modify fun world =>
    match world.sink with
    | .memory => { world with log := message :: world.log }
    | .nowhere => world

/-- Logs a text. -/
def say (text : String) : WorldM Unit :=
  record ⟨false, text⟩

/-- Logs a warning, if warnings are logged. -/
def warn (text : String) : WorldM Unit := do
  if (← get).config.echoWarnings then record ⟨true, text⟩

/-- Sends further messages elsewhere. -/
def setSink (sink : Sink) : WorldM Unit :=
  modify fun world => { world with sink }

/-- The lines of the log in order. -/
def logLines (world : World) : List String :=
  world.log.reverse.flatMap Message.lines

/-- The symbol of a name. -/
def intern (name : String) : WorldM Symbol :=
  modifyGet fun world =>
    let (symbol, symbols) := world.symbols.intern name
    (symbol, { world with symbols })

/-- The symbol of a name that is not empty. -/
def internNonempty (name : String) : WorldM (Option Symbol) := do
  if name.isEmpty then return none else return some (← intern name)

/-- Compiles the text of a file. -/
def compile (filename text : String) : WorldM (Except Diagnostic Script) :=
  modifyGet fun world =>
    let (result, symbols) := ScriptConsole.compile filename text world.symbols
    (result, { world with symbols })

/-- The name of a global variable without the dollar signs in front of it. -/
def bareName (name : String) : String :=
  String.ofList (name.toList.dropWhile (· == '$'))

/-- Reads a global variable; one that was never written is empty. -/
def getGlobal (world : World) (name : Symbol) : Value :=
  world.globals.getD name .empty

/-- Writes a global variable. -/
def setGlobal (name : Symbol) (value : Value) : WorldM Unit :=
  modify fun world => { world with globals := world.globals.insert name value }

/-- Reads the global variable of a name, which may start with a dollar sign. -/
def globalNamed (world : World) (name : String) : Value :=
  ((world.symbols.find? (bareName name)).map world.getGlobal).getD .empty

/-- Writes the global variable of a name, which may start with a dollar sign. -/
def setGlobalNamed (name : String) (value : Value) : WorldM Unit := do
  setGlobal (← intern (bareName name)) value

/-- Creates a layer if there is none yet. -/
def createLayer (layer : Layer) : WorldM Unit :=
  modify fun world => { world with spaces := world.spaces.create layer }

/-- Defines a function in a layer, in place of one of the same name. -/
def define (layer : Layer) (name : Symbol) (target : Callable) : WorldM Unit :=
  modify fun world => { world with spaces := (world.spaces.create layer).define layer name target }

/-- Links a layer below another one. -/
def link (child parent : Layer) : WorldM (Except LinkError Unit) := do
  match (← get).spaces.link child parent with
  | .ok spaces =>
    modify fun world => { world with spaces }
    return .ok ()
  | .error reason => return .error reason

/-- Makes the namespace of one name the parent of the namespace of another one. Both
are created if need be. -/
def linkNamespaces (child parent : String) : WorldM (Except LinkError Unit) := do
  let child := Layer.ofSpace (← intern child)
  let parent := Layer.ofSpace (← intern parent)
  createLayer child
  createLayer parent
  link child parent

/-- Activates a package. The answer is whether it was declared. -/
def activate (package : Symbol) : WorldM Bool :=
  modifyGet fun world =>
    let (declared, spaces) := world.spaces.activate package
    (declared, { world with spaces })

/-- Deactivates a package and those that were activated after it. The answer is whether
it was active. -/
def deactivate (package : Symbol) : WorldM Bool :=
  modifyGet fun world =>
    let (wasActive, spaces) := world.spaces.deactivate package
    (wasActive, { world with spaces })

/-- Enters a class whose parent is known. Its namespace goes below that of the parent. -/
def addClass (spec : ClassSpec) (name : Symbol) (parent : Option ClassInfo) : WorldM Unit := do
  let info := ClassInfo.ofSpec spec name parent
  createLayer info.layer
  if let some parent := parent then
    if let .error reason ← link info.layer parent.layer then
      warn ("register_class: " ++ reason.message ++ " for class '" ++ name.text ++ "'")
  modify fun world =>
    { world with registry.classes := world.registry.classes.insert name info }

/-- Registers a class. -/
def registerClass (spec : ClassSpec) : WorldM (Except ClassError Unit) := do
  let name ← intern spec.name
  if (← get).registry.classes.contains name then return .error .alreadyRegistered
  match spec.parent with
  | none =>
    addClass spec name none
    return .ok ()
  | some parent =>
    let parent ← intern parent
    match (← get).registry.classes[parent]? with
    | none => return .error .unknownParent
    | some info =>
      addClass spec name (some info)
      return .ok ()

/-- Registers a native function, in a namespace or globally. -/
def registerNative (space : Option String) (name : String) (isMethod : Bool) (arity : Arity)
    (code : NativeCode) : WorldM Unit := do
  let space ← space.mapM intern
  define ⟨space, none⟩ (← intern name) (.native isMethod arity code)

/-- Registers a built-in. -/
def registerBuiltin (spec : BuiltinSpec) : WorldM Unit :=
  registerNative spec.className spec.name spec.className.isSome spec.arity (.builtin spec.builtin)

/-- Registers everything that consoles start with. -/
def registerLibrary : WorldM Unit := do
  builtinClasses.forM fun spec => discard (registerClass spec)
  builtinFunctions.forM registerBuiltin
  builtinMethods.forM registerBuiltin

/-- The world of a new console. -/
def new (config : Config) (serial : Nat) : World :=
  (registerLibrary.run (bare config serial)).2

end World

end ScriptConsole
