import ScriptConsole.Object.Draft
import ScriptConsole.Walk

/-! # The registry of objects

Registered objects have a number and may have a name that no other object has. Numbers
come from two counters, one for datablocks and one for all other objects. An object is
in at most one container.
-/

namespace ScriptConsole

/-- The classes, the live objects by number, and their names. -/
structure Registry where
  classes : Std.TreeMap Symbol ClassInfo
  objects : Std.TreeMap Nat Object
  names : Std.TreeMap Symbol Nat
  nextObject : Nat
  nextDatablock : Nat

/-- Why an object cannot be put into a container. -/
inductive ContainerError where
  | unknownObject
  | notAContainer
  /-- The object is the container or contains it. -/
  | wouldCycle
  deriving DecidableEq

/-- The wording of a refusal to put an object into a container. -/
def ContainerError.message : ContainerError → String
  | unknownObject => "unknown object"
  | notAContainer => "object is not a container"
  | wouldCycle => "object cannot contain itself"

namespace Registry

/-- The registry without classes and objects. Numbers start at the given ones, but not
below 1. -/
def empty (firstObject firstDatablock : Nat) : Registry :=
  ⟨{}, {}, {}, max firstObject 1, max firstDatablock 1⟩

/-- The live object of a number. -/
def get? (registry : Registry) (id : Nat) : Option Object :=
  registry.objects[id]?

/-- Whether a number is that of a live object. -/
def contains (registry : Registry) (id : Nat) : Bool :=
  registry.objects.contains id

/-- How many objects are live. -/
def size (registry : Registry) : Nat :=
  registry.objects.size

/-- The object that has a name. -/
def findName? (registry : Registry) (name : Symbol) : Option Nat :=
  registry.names[name]?

/-- Changes a live object. -/
def update (registry : Registry) (id : Nat) (change : Object → Object) : Registry :=
  { registry with objects := registry.objects.modify id change }

/-- The first number from a given one that no live object has, over at most so many
steps. -/
def freeFrom (objects : Std.TreeMap Nat Object) : Nat → Nat → Nat
  | 0, id => id
  | steps + 1, id => if objects.contains id then freeFrom objects steps (id + 1) else id

/-- The next number for an object, and the registry with its counter past it. -/
def allocate (registry : Registry) (isDatablock : Bool) : Nat × Registry :=
  let steps := registry.size + 1
  if isDatablock then
    let id := freeFrom registry.objects steps registry.nextDatablock
    (id, { registry with nextDatablock := id + 1 })
  else
    let id := freeFrom registry.objects steps registry.nextObject
    (id, { registry with nextObject := id + 1 })

/-- Enters an object, with a name unless another object has it. The result is its number
and whether it got the name. -/
def register (registry : Registry) (draft : Draft) (name : Option Symbol) :
    (Nat × Bool) × Registry :=
  let (id, registry) := registry.allocate draft.object.info.isDatablock
  let taken := name.any registry.names.contains
  let given := if taken then none else name
  ((id, !taken),
    { registry with
      objects := registry.objects.insert id { draft.object with id, name := given }
      names := given.elim registry.names fun name => registry.names.insert name id })

/-- Removes an object and frees its name. What refers to it is left as it is. -/
def deregister (registry : Registry) (id : Nat) : Option Object × Registry :=
  match registry.get? id with
  | none => (none, registry)
  | some object =>
    (some object,
      { registry with
        objects := registry.objects.erase id
        names := match object.name with
          | some name =>
            if registry.names[name]? = some id then registry.names.erase name else registry.names
          | none => registry.names })

/-- Gives an object a name, or takes its name away. The answer is whether the object now
has the name, or none if none was asked for. -/
def rename (registry : Registry) (id : Nat) (name : Option Symbol) : Bool × Registry :=
  match name.bind registry.findName? with
  | some owner => (owner = id, registry)
  | none =>
    match registry.get? id with
    | none => (false, registry)
    | some object =>
      let freed := object.name.elim registry.names registry.names.erase
      (true,
        { registry with
          objects := registry.objects.insert id { object with name }
          names := name.elim freed fun name => freed.insert name id })

/-- The container that an object is in. -/
def group? (registry : Registry) (id : Nat) : Option Nat :=
  (registry.get? id).bind fun object => object.group

/-- An object and everything that contains it. -/
def holders (registry : Registry) (id : Nat) : List Nat :=
  walk registry.group? (registry.size + 1) id

/-- Takes an object off the children of another one. -/
def forget (registry : Registry) (group child : Nat) : Registry :=
  registry.update group fun object => { object with children := object.children.filter (· ≠ child) }

/-- Takes an object out of the container it is in. -/
def detach (registry : Registry) (child : Nat) : Registry :=
  match registry.group? child with
  | none => registry
  | some group =>
    (registry.update child fun object => { object with group := none }).forget group child

/-- Puts an object into a container, behind its other children, and takes it out of the
one it is in. -/
def addChild (registry : Registry) (container child : Nat) : Except ContainerError Registry :=
  match registry.get? container, registry.get? child with
  | some holder, some object =>
    if !holder.info.isContainer then .error .notAContainer
    else if child ∈ registry.holders container then .error .wouldCycle
    else if object.group = some container then .ok registry
    else
      let detached := registry.detach child
      let added := detached.update container fun object =>
        { object with children := object.children ++ [child] }
      .ok (added.update child fun object => { object with group := some container })
  | _, _ => .error .unknownObject

end Registry

end ScriptConsole
