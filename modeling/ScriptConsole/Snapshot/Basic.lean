import ScriptConsole.Object.Registry

/-! # Snapshots of objects

A snapshot is what scripts can see of an object and its children: class, name, and
fields as texts. Object numbers are no part of it.
-/

namespace ScriptConsole

/-- A field in a snapshot, with its index if it is an element of several. -/
structure FieldSnapshot where
  name : String
  index : Option String
  value : String
  deriving DecidableEq

/-- An object in a snapshot. Its persistent fields come before its dynamic ones. -/
structure Snapshot where
  className : String
  name : Option String
  fields : List FieldSnapshot
  children : List Snapshot

namespace Snapshot

/-- The text of the field of a name, up to letter case, that has no index. -/
def field? (snapshot : Snapshot) (name : String) : Option String :=
  (snapshot.fields.find? fun field => field.index.isNone && Text.sameFolded field.name name).map
    FieldSnapshot.value

/-- The fields of an object. -/
def fieldsOf (object : Object) : List FieldSnapshot :=
  (object.persistentFields.map fun (name, index, value) =>
    ⟨name, index.map fun index => toString index, value.toText⟩) ++
  object.dynamicFields.map fun field => ⟨field.name, none, field.value.toText⟩

/-- The snapshot of a live object, with children inside one another at most as deep as
the bound says. -/
def captureWithin (registry : Registry) : Nat → Nat → Option Snapshot
  | 0, _ => none
  | bound + 1, id =>
    (registry.get? id).map fun object =>
      { className := object.info.name.text
        name := object.name.map Symbol.text
        fields := fieldsOf object
        children := object.children.filterMap (captureWithin registry bound) }

/-- The snapshot of a live object. No object is deeper in containers than there are
objects. -/
def capture? (registry : Registry) (id : Nat) : Option Snapshot :=
  captureWithin registry (registry.size + 1) id

end Snapshot

/-- Why a snapshot cannot be restored. -/
inductive RestoreError where
  | unknownClass (name : String)
  deriving DecidableEq

/-- The wording of a refusal to restore. -/
def RestoreError.message : RestoreError → String
  | unknownClass name => "unknown class '" ++ name ++ "'"

end ScriptConsole
