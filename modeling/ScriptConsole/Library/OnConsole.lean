import ScriptConsole.Console.Objects
import ScriptConsole.Library.OnValues
import ScriptConsole.Tag.Wire

/-! # Functions on the console -/

namespace ScriptConsole

/-- The texts of all arguments, joined. -/
def joinedArguments (arguments : List Value) : String :=
  String.join (arguments.map Value.toText)

/-- The text that a tag stands for, if a text names one. -/
def taggedText? (world : World) (text : String) : Option String :=
  (Tag.parse? text).bind world.tags.detag?

/-- Whether a package was declared, by name. -/
def isPackageNamed (world : World) (name : String) : Bool :=
  (world.symbols.find? name).any world.spaces.isPackage

/-- Whether a search from a namespace, leaving out global functions, finds a name. -/
def hasMethod (world : World) (space name : String) : Bool :=
  ((world.symbols.find? space).bind world.existingLayer?).any fun base =>
    (world.symbols.find? name).any fun name => (world.spaces.resolve? base name false).isSome

/-- Activates a package. -/
def activatePackage (name : String) : WorldM Unit := do
  let name ← World.intern name
  if !(← World.activate name) then
    World.warn ("activatePackage: unknown package '" ++ name.text ++ "'")

/-- Deactivates a package. -/
def deactivatePackage (name : String) : WorldM Unit := do
  let name ← World.intern name
  if !(← World.deactivate name) then
    World.warn ("deactivatePackage: package '" ++ name.text ++ "' is not active")

/-- Releases the tag that a text names. -/
def removeTag (text : String) : WorldM Unit := do
  let released ← match Tag.parse? text with
    | some id => World.releaseTag id
    | none => pure false
  if !released then World.warn ("removeTaggedString: '" ++ text ++ "' is not a tagged string")

/-- Links two namespaces. The answer is whether they are linked now. -/
def linkByName (child parent : String) : WorldM Value := do
  match ← World.linkNamespaces child parent with
  | .ok () => return .ofBool true
  | .error reason =>
    World.warn
      ("linkNamespaces: cannot link '" ++ child ++ "' to '" ++ parent ++ "': " ++ reason.message)
    return .ofBool false

/-- Calls a function on the console. -/
def ConsoleFunction.apply (function : ConsoleFunction) (arguments : List Value) : WorldM Value := do
  let world ← get
  let first := argument arguments 0
  let text := first.toText
  match function with
  | echo =>
    World.say (joinedArguments arguments)
    return .empty
  | warn =>
    World.say ("Warning: " ++ joinedArguments arguments)
    return .empty
  | error =>
    World.say ("Error: " ++ joinedArguments arguments)
    return .empty
  | isObject => return .ofBool (world.findByValue? first).isSome
  | nameToId => return (world.findByValue? first).elim (.int (-1)) Value.ofNat
  | isFunction => return .ofBool (world.functionNamed? none text).isSome
  | isMethod => return .ofBool (hasMethod world text (argument arguments 1).toText)
  | linkNamespaces => linkByName text (argument arguments 1).toText
  | isPackage => return .ofBool (isPackageNamed world text)
  | activatePackage =>
    ScriptConsole.activatePackage text
    return .empty
  | deactivatePackage =>
    ScriptConsole.deactivatePackage text
    return .empty
  | addTag => return .text (Tag.encode (← World.tag text))
  | removeTag =>
    ScriptConsole.removeTag text
    return .empty
  | tagText => return .text ((taggedText? world text).getD "")

end ScriptConsole
