import ScriptConsole.Object.Class

/-! # Objects

An access by name and index goes to an element of a persistent field if it selects one,
and to the dynamic field of the joined name otherwise.
-/

namespace ScriptConsole

/-- An object of a class. -/
structure Object extends ObjectBody where
  info : ClassInfo

namespace Object

/-- A new object, not yet registered. -/
def ofClass (info : ClassInfo) : Object :=
  { id := 0
    name := none
    layer := info.layer
    linked := []
    persistent := info.fields.map fun field => List.replicate field.count field.default
    dynamic := none
    group := none
    children := []
    info }

/-- The number of the element that an index text selects. -/
def elementIndex? (index : String) : Option Nat :=
  parseNat? (Nat.pow 2 64) (Text.trim index.toList)

/-- The persistent field and the element that an access selects. An index that is no
number selects none, nor does any index on a field of one element. -/
def slot? (object : Object) (name : String) (index : Option String) :
    Option (Nat × PersistentField × Nat) := do
  let position ← object.info.fieldIndex? name
  let field ← object.info.fields[position]?
  match index with
  | none => return (position, field, 0)
  | some index =>
    if 1 < field.count then return (position, field, ← elementIndex? index) else none

/-- The name of the dynamic field that an access goes to. -/
def dynamicName (name : String) (index : Option String) : String :=
  name ++ index.getD ""

/-- The stored element of a persistent field. -/
def stored? (object : Object) (position element : Nat) : Option Value :=
  (object.persistent[position]?).bind fun elements => elements[element]?

/-- The dynamic field of a name. -/
def dynamicField? (object : Object) (name : String) : Option DynamicField :=
  object.dynamic.bind fun fields => fields[Text.fold name]?

/-- Reads a field; one that does not exist reads as empty. -/
def getField (object : Object) (name : String) (index : Option String) : Value :=
  match object.slot? name index with
  | some (position, field, element) =>
    field.present object.toObjectBody ((object.stored? position element).getD .empty)
  | none => ((object.dynamicField? (dynamicName name index)).map DynamicField.value).getD .empty

/-- Stores an element of a persistent field. -/
def store (object : Object) (position element : Nat) (value : Value) : Object :=
  { object with
    persistent := object.persistent.modify position fun elements => elements.set element value }

/-- Sets a dynamic field; an empty value removes it. -/
def setDynamic (object : Object) (name : String) (value : Value) : Object :=
  if value.isEmpty then
    { object with dynamic := object.dynamic.map fun fields => fields.erase (Text.fold name) }
  else
    { object with dynamic := some ((object.dynamic.getD {}).insert (Text.fold name) ⟨name, value⟩) }

/-- Writes a field. -/
def setField (object : Object) (name : String) (index : Option String) (value : Value) :
    Except SetFieldError Object :=
  match object.slot? name index with
  | some (position, field, element) =>
    if field.count ≤ element then .error .rejected
    else match field.accept? object.toObjectBody value with
      | some accepted => .ok (object.store position element accepted)
      | none => .error .rejected
  | none => .ok (object.setDynamic (dynamicName name index) value)

/-- The dynamic fields in the order of their folded names. -/
def dynamicFields (object : Object) : List DynamicField :=
  object.dynamic.elim [] Std.TreeMap.values

/-- The elements of a persistent field that hold something, with their numbers if the
field has several. -/
def elementsOf (field : PersistentField) (elements : List Value) :
    List (String × Option Nat × Value) :=
  (elements.zipIdx.filter fun element => !element.1.isEmpty).map fun element =>
    (field.name, if 1 < field.count then some element.2 else none, element.1)

/-- The elements of persistent fields that hold something, in the order of declaration. -/
def persistentFields (object : Object) : List (String × Option Nat × Value) :=
  (object.info.fields.zip object.persistent).flatMap fun entry => elementsOf entry.1 entry.2

/-- Takes over the elements of a persistent field of another object, if this object has
a field of that name with as many elements. -/
def copyField (object : Object) (entry : PersistentField × List Value) : Object :=
  match object.info.fieldIndex? entry.1.name with
  | none => object
  | some position =>
    if (object.info.fields[position]?).any fun field => field.count = entry.1.count then
      { object with persistent := object.persistent.set position entry.2 }
    else object

/-- Takes over the persistent fields of another object, and its dynamic fields if it
ever had one. -/
def copyFieldsFrom (object source : Object) : Object :=
  let object := (source.info.fields.zip source.persistent).foldl copyField object
  { object with dynamic := source.dynamic.or object.dynamic }

end Object

end ScriptConsole
