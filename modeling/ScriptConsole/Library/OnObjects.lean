import ScriptConsole.Console.Objects
import ScriptConsole.Library.OnValues

/-! # Methods of objects -/

namespace ScriptConsole

/-- A number of an object as a value; no object is `-1`. -/
def idValue (id : Option Nat) : Value :=
  id.elim (.int (-1)) .ofNat

/-- The first line of the listing of an object. -/
def titleLine (object : Object) : String :=
  object.info.name.text ++ " " ++ toString object.id ++
    object.name.elim "" fun name => " (" ++ name.text ++ ")"

/-- The line that lists a field. -/
def fieldLine (name : String) (index : Option Nat) (value : Value) : String :=
  "    " ++ name ++ (index.elim "" fun index => "[" ++ toString index ++ "]") ++
    " = \"" ++ value.toText ++ "\""

/-- The listing of an object and its fields. -/
def dumpLines (object : Object) : List String :=
  titleLine object :: "  Static fields:" ::
    (object.persistentFields.map fun (name, index, value) => fieldLine name index value) ++
    "  Dynamic fields:" ::
      object.dynamicFields.map fun field => fieldLine field.name none field.value

/-- Puts the object that a value refers to into a container. -/
def addByValue (container : Nat) (value : Value) : WorldM Unit := do
  match (← get).findByValue? value with
  | none => World.warn ("SimSet::add: unable to find object '" ++ value.toText ++ "'")
  | some child =>
    if let .error reason ← World.addChild container child then
      World.warn ("SimSet::add: cannot add " ++ World.numbered child ++ ": " ++ reason.message)

/-- Takes the object that a value refers to out of a container. -/
def removeByValue (container : Nat) (value : Value) : WorldM Unit := do
  let removed ← match (← get).findByValue? value with
    | some child => World.removeChild container child
    | none => pure false
  if !removed then World.warn ("SimSet::remove: '" ++ value.toText ++ "' is not a member")

/-- Renames an object. -/
def setObjectName (id : Nat) (name : String) : WorldM Unit := do
  if !(← World.rename id name) then
    World.warn ("setName: name '" ++ name ++ "' is already in use")

/-- Sets a field of an object. The answer is whether the value was accepted. -/
def setFieldByName (id : Nat) (field : String) (value : Value) : WorldM Value := do
  match ← World.setField id field none value with
  | .ok () => return .ofBool true
  | .error reason =>
    World.warn ("setFieldValue: cannot set '" ++ field ++ "': " ++ reason.message)
    return .ofBool false

/-- The child at a place, counted from 0. -/
def childAt? (object : Object) (place : Int64) : Option Nat :=
  if place < 0 then none else object.children[place.toInt.toNat]?

/-- Calls a method on the object of a number. -/
def ObjectMethod.apply (method : ObjectMethod) (self : Nat) (arguments : List Value) :
    WorldM Value := do
  let world ← get
  let object := world.registry.get? self
  let first := argument arguments 0
  match method with
  | id => return .ofNat self
  | name => return .text ((object.bind fun object => object.name).elim "" Symbol.text)
  | setName =>
    setObjectName self first.toText
    return .empty
  | className => return .text (object.elim "" fun object => object.info.name.text)
  | group => return idValue (world.registry.group? self)
  | fieldValue => return (world.getField? self first.toText none).getD .empty
  | setFieldValue => setFieldByName self first.toText (argument arguments 1)
  | dynamicFieldCount => return .ofNat (object.elim 0 fun object => object.dynamicFields.length)
  | isMemberOfClass =>
    return .ofBool (object.any fun object => object.info.isSubclassOf first.toText)
  | dump =>
    (object.elim [] dumpLines).forM World.say
    return .empty
  | add =>
    arguments.forM (addByValue self)
    return .empty
  | remove =>
    arguments.forM (removeByValue self)
    return .empty
  | count => return .ofNat (object.elim 0 fun object => object.children.length)
  | child => return idValue (object.bind fun object => childAt? object first.toInt)
  | isMember => return .ofBool ((world.findByValue? first).any (world.isMember self))

end ScriptConsole
