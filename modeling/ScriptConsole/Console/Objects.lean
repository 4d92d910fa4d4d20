import ScriptConsole.Console.Lookup

/-! # Objects in a world

When an object is registered, namespaces are put in front of that of its class: first
those that its fields `superClass` and `class` name, if the class says so, and then that
of its own name. They are let go when it is deleted.
-/

namespace ScriptConsole.World

/-- An object and its number in a warning. -/
def numbered (id : Nat) : String :=
  "object " ++ toString id

/-- Replaces the registry of objects. -/
def setRegistry (registry : Registry) : WorldM Unit :=
  modify fun world => { world with registry }

/-- Changes a live object. -/
def changeObject (id : Nat) (change : Object → Object) : WorldM Unit :=
  modify fun world => { world with registry := world.registry.update id change }

/-- Reads a field of an object; `none` if there is no such object. -/
def getField? (world : World) (id : Nat) (field : String) (index : Option String) : Option Value :=
  (world.registry.get? id).map fun object => object.getField field index

/-- Writes a field of an object. -/
def setField (id : Nat) (field : String) (index : Option String) (value : Value) :
    WorldM (Except SetFieldError Unit) := do
  match (← get).registry.get? id with
  | none => return .error .unknownObject
  | some object =>
    match object.setField field index value with
    | .error reason => return .error reason
    | .ok changed =>
      changeObject id fun _ => changed
      return .ok ()

/-- Gives an object the fields of a draft. -/
def copyFields (id : Nat) (source : Draft) : WorldM Unit :=
  changeObject id fun object => object.copyFieldsFrom source.object

/-- The names of the namespaces that an object puts in front of that of its class, from
the back to the front. -/
def linkNames (object : Object) : WorldM (List Symbol) := do
  let superClass := (object.getField "superClass" none).toText
  let ownClass := (object.getField "class" none).toText
  let fields := if object.info.linksClassFields then [superClass, ownClass] else []
  let symbols ← (fields.filter fun text => !text.isEmpty).mapM intern
  return symbols ++ object.name.toList

/-- Links the namespace of a name in front of the last one that was linked. A link that
is refused is left out with a warning. -/
def linkStep (id : Nat) (state : Layer × List Layer) (name : Symbol) :
    WorldM (Layer × List Layer) := do
  let layer := Layer.ofSpace name
  createLayer layer
  match ← link layer state.1 with
  | .ok () => return (layer, state.2 ++ [layer])
  | .error reason =>
    warn
      ("cannot link namespace '" ++ name.text ++ "' for " ++ numbered id ++ ": " ++ reason.message)
    return state

/-- Links the namespaces of an object. -/
def linkObject (id : Nat) : WorldM Unit := do
  match (← get).registry.get? id with
  | none => return ()
  | some object =>
    let (layer, linked) ← (← linkNames object).foldlM (linkStep id) (object.info.layer, [])
    changeObject id fun object => { object with layer, linked }

/-- Registers an object under a name, unless that is empty or taken. The result is the
number of the object. -/
def enter (draft : Draft) (name : String) : WorldM Nat := do
  let name ← internNonempty name
  let ((id, accepted), registry) := (← get).registry.register draft name
  setRegistry registry
  if !accepted then
    if let some name := name then
      warn
        ("object name '" ++ name.text ++ "' is already in use, " ++ numbered id ++ " stays unnamed")
  linkObject id
  return id

/-- Takes an object out of the registry, its container and its namespaces. -/
def remove (id : Nat) : WorldM Unit := do
  match (← get).registry.deregister id with
  | (none, _) => return ()
  | (some object, registry) =>
    setRegistry (object.group.elim registry fun group => registry.forget group id)
    modify fun world => { world with spaces := object.linked.foldl Namespaces.unlink world.spaces }

/-- Gives an object a name, or takes its name away if the new one is empty. The answer
is whether the name was free. -/
def rename (id : Nat) (name : String) : WorldM Bool := do
  let name ← internNonempty name
  let (renamed, registry) := (← get).registry.rename id name
  setRegistry registry
  return renamed

/-- Puts an object into a container. -/
def addChild (container child : Nat) : WorldM (Except ContainerError Unit) := do
  match (← get).registry.addChild container child with
  | .ok registry =>
    setRegistry registry
    return .ok ()
  | .error reason => return .error reason

/-- Whether an object is in a container. -/
def isMember (world : World) (container child : Nat) : Bool :=
  world.registry.group? child = some container

/-- Takes an object out of the container it is in. -/
def detach (child : Nat) : WorldM Unit :=
  modify fun world => { world with registry := world.registry.detach child }

/-- Takes an object out of a container. The answer is whether it was in it. -/
def removeChild (container child : Nat) : WorldM Bool := do
  if (← get).isMember container child then
    detach child
    return true
  else return false

/-- Whether an object has a function of a name of its own. -/
def respondsTo (world : World) (id : Nat) (name : String) : Bool :=
  (world.methodOf? id name).isSome

/-- Holds the tag of a text. -/
def tag (text : String) : WorldM Nat :=
  modifyGet fun world =>
    let (id, tags) := world.tags.tag text
    (id, { world with tags })

/-- Gives up one hold of a tag. The answer is whether the number is a tag. -/
def releaseTag (id : Nat) : WorldM Bool :=
  modifyGet fun world =>
    let (released, tags) := world.tags.release id
    (released, { world with tags })

end ScriptConsole.World
