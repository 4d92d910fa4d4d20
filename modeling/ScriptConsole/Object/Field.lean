import ScriptConsole.Namespace.Basic
import ScriptConsole.Value.Basic

/-! # Fields of objects

A class declares persistent fields of fixed types, and scripts add dynamic fields to
single objects. A persistent field brings values to its type when they are stored, and
may have a setter that refuses or replaces them and a getter that says what is read.
-/

namespace ScriptConsole

/-- The type of a persistent field. -/
inductive FieldType where
  | int
  | float
  | bool
  | text
  deriving DecidableEq

/-- Brings a value to a type. A text field keeps the absence of a value. -/
def FieldType.coerce : FieldType → Value → Value
  | int, value => .int value.toInt
  | float, value => .float value.toNumber
  | bool, value => .ofBool value.toBool
  | text, .empty => .empty
  | text, value => .text value.toText

/-- A dynamic field: its name as it was last written, and its value. -/
structure DynamicField where
  name : String
  value : Value

/-- What an object holds, apart from its class. -/
structure ObjectBody where
  /-- The number of the object, 0 before it is registered. -/
  id : Nat
  name : Option Symbol
  /-- Where the search for its methods starts. -/
  layer : Layer
  /-- The namespaces it linked, which it holds until it is deleted. -/
  linked : List Layer
  /-- The elements of each persistent field. -/
  persistent : List (List Value)
  /-- The dynamic fields by folded name, once there was one. -/
  dynamic : Option (Std.TreeMap String DynamicField)
  /-- The container it is in. -/
  group : Option Nat
  children : List Nat

/-- Whether the object is registered. -/
def ObjectBody.isRegistered (body : ObjectBody) : Bool :=
  body.id ≠ 0

/-- A field that a class declares. -/
structure PersistentField where
  name : String
  type : FieldType
  /-- The number of elements; a field with several is read and written by index. -/
  count : Nat
  default : Value
  /-- Given the coerced value, the value to store, or `none` to refuse it. -/
  setter : Option (ObjectBody → Value → Option Value)
  /-- Given the stored value, the value to read. -/
  getter : Option (ObjectBody → Value → Value)

namespace PersistentField

/-- A field of one element. -/
def single (name : String) (type : FieldType) : PersistentField :=
  ⟨name, type, 1, .empty, none, none⟩

/-- A field of several elements, at least one. -/
def array (name : String) (type : FieldType) (count : Nat) : PersistentField :=
  { single name type with count := max count 1 }

/-- The field with a default, which is brought to its type. -/
def withDefault (field : PersistentField) (default : Value) : PersistentField :=
  { field with default := field.type.coerce default }

/-- The field with a setter. -/
def withSetter (field : PersistentField) (setter : ObjectBody → Value → Option Value) :
    PersistentField :=
  { field with setter := some setter }

/-- The field with a getter. -/
def withGetter (field : PersistentField) (getter : ObjectBody → Value → Value) : PersistentField :=
  { field with getter := some getter }

/-- The value to store for a value that is written, or `none` to refuse it. -/
def accept? (field : PersistentField) (body : ObjectBody) (value : Value) : Option Value :=
  let coerced := field.type.coerce value
  match field.setter with
  | none => some coerced
  | some setter => setter body coerced

/-- The value to read for a value that is stored. -/
def present (field : PersistentField) (body : ObjectBody) (stored : Value) : Value :=
  match field.getter with
  | none => stored
  | some getter => getter body stored

end PersistentField

/-- Why a field cannot be set. -/
inductive SetFieldError where
  | unknownObject
  /-- The setter refused the value, or the index is out of range. -/
  | rejected
  deriving DecidableEq

/-- The wording of a refusal to set a field. -/
def SetFieldError.message : SetFieldError → String
  | unknownObject => "unknown object"
  | rejected => "value rejected"

end ScriptConsole
