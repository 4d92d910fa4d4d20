import ScriptConsole.Console.Objects
import ScriptConsole.Eval.Basic

/-! # Places

A place is a variable or a field of an object, as an assignment finds it before its
value is evaluated.
-/

namespace ScriptConsole

/-- Where a value is read or written. -/
inductive Place where
  | ofCall (name : Symbol)
  | ofConsole (name : Symbol)
  /-- A field of the object that a value refers to. -/
  | field (object : Value) (field : Symbol) (index : Option String)

namespace Eval

/-- The name of a variable with indices. -/
def variableName (ev : Evaluator) (name : Symbol) (indices : List Expr) : Eval Symbol := do
  match ← indexText? ev indices with
  | none => return name
  | some index => World.intern (name.text ++ index)

/-- The place that an expression names. -/
def place (ev : Evaluator) : Expr → Eval Place
  | .variable _ scope name indices => do
    let name ← variableName ev name indices
    match scope with
    | .ofCall => return .ofCall name
    | .ofConsole => return .ofConsole name
  | .slot _ object field indices => do
    let object ← ev (.expression object)
    return .field object field (← indexText? ev indices)
  | _ => fail .notAssignable

/-- Warns that a value refers to no object. -/
def warnNoObject (object : Value) (purpose : String) (name : Symbol) : WorldM Unit :=
  World.warn
    ("unable to find object '" ++ object.toText ++ "' attempting to " ++ purpose ++ " '" ++
      name.text ++ "'")

/-- Reads a field of the object that a value refers to. -/
def readField (object : Value) (field : Symbol) (index : Option String) : WorldM Value := do
  let world ← get
  match world.findByValue? object with
  | some id => return (world.getField? id field.text index).getD .empty
  | none =>
    warnNoObject object "read field" field
    return .empty

/-- Writes a field of the object that a value refers to. -/
def writeField (object : Value) (field : Symbol) (index : Option String) (value : Value) :
    WorldM Unit := do
  match (← get).findByValue? object with
  | some id =>
    if let .error reason ← World.setField id field.text index value then
      World.warn
        ("cannot set field '" ++ field.text ++ "' of " ++ World.numbered id ++ ": " ++
          reason.message)
  | none => warnNoObject object "set field" field

/-- Reads a place. -/
def read : Place → Eval Value
  | .ofCall name => return (← get).getLocal name
  | .ofConsole name => return (← world).getGlobal name
  | .field object field index => readField object field index

/-- Writes a place. A local variable outside of any call is dropped. -/
def write (value : Value) : Place → Eval Unit
  | .ofCall name =>
    modify fun console =>
      console.updateFrame fun frame => { frame with locals := frame.locals.insert name value }
  | .ofConsole name => World.setGlobal name value
  | .field object field index => writeField object field index value

end Eval

end ScriptConsole
