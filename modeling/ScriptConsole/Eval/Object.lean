import ScriptConsole.Console.Objects
import ScriptConsole.Eval.Basic

/-! # The life of objects

Objects tell scripts when they come and go: the function `onAdd` of an object is called
when it is registered, and `onRemove` before it is deleted.
-/

namespace ScriptConsole.Eval

/-- Calls a function of an object on it, if it has one of that name. -/
def notify (ev : Evaluator) (id : Nat) (name : String) : Eval Unit := do
  match (← world).methodOf? id name with
  | none => return ()
  | some entry => discard (ev (.call entry [.ofNat id]))

/-- Registers an object. The result is its number. -/
def registerObject (ev : Evaluator) (draft : Draft) (name : String) : Eval Nat := do
  let id ← World.enter draft name
  notify ev id "onAdd"
  return id

/-- Deletes the children of an object that is being deleted, or lets them go. -/
def releaseChildren (ev : Evaluator) (deletes : Bool) : List Nat → Eval Unit
  | [] => return ()
  | child :: children => do
    if deletes then discard (ev (.delete child)) else World.detach child
    releaseChildren ev deletes children

/-- Deletes an object. The answer is whether it was there. -/
def deleteObject (ev : Evaluator) (id : Nat) : Eval Bool := do
  if !(← world).registry.contains id then return false
  notify ev id "onRemove"
  match (← world).registry.get? id with
  | none => return true
  | some object =>
    releaseChildren ev object.info.deletesChildren object.children
    World.remove id
    return true

/-- The class that a declaration is of. -/
def declaredClass? (declaration : ObjectDecl) : WorldM (Option ClassInfo) := do
  let className := declaration.className.text
  match (← get).classInfo? className with
  | none =>
    World.warn ("unable to instantiate unknown class '" ++ className ++ "'")
    return none
  | some info =>
    if declaration.isDatablock && !info.isDatablock then
      World.warn ("'" ++ className ++ "' is not a datablock class")
      return none
    else return some info

/-- A new object with the fields of the one that a declaration copies from. -/
def copied (draft : Draft) : Option Symbol → WorldM Draft
  | none => return draft
  | some source => do
    let world ← get
    match (world.findObject? source.text).bind world.registry.get? with
    | some source => return draft.copyFieldsFrom source
    | none =>
      World.warn ("unable to find object '" ++ source.text ++ "' to copy fields from")
      return draft

/-- Sets a field of an object that is being declared. -/
def initField (ev : Evaluator) (className : Symbol) (draft : Draft) (field : FieldInit) :
    Eval Draft := do
  let value ← ev (.expression field.value)
  let index ← indexText? ev field.indices
  match draft.setField field.field.text index value with
  | .ok changed => return changed
  | .error reason =>
    World.warn
      ("cannot set field '" ++ field.field.text ++ "' of new '" ++ className.text ++ "': " ++
        reason.message)
    return draft

/-- Sets the fields of an object that is being declared, in order. -/
def initFields (ev : Evaluator) (className : Symbol) (draft : Draft) :
    List FieldInit → Eval Draft
  | [] => return draft
  | field :: fields => do
    let draft ← initField ev className draft field
    initFields ev className draft fields

/-- The object that a declaration with a name redefines: a datablock of the same class. -/
def redefined? (world : World) (isDatablock : Bool) (name : String) (info : ClassInfo) :
    Option Nat :=
  if isDatablock && !name.isEmpty then
    (world.findObject? name).filter fun id =>
      (world.registry.get? id).any fun object => object.info.name = info.name
  else none

/-- Registers a declared object, or gives its fields to the one that it redefines. -/
def enterDeclared (ev : Evaluator) (isDatablock : Bool) (name : String) (draft : Draft) :
    Eval Nat := do
  match redefined? (← world) isDatablock name draft.object.info with
  | none => registerObject ev draft name
  | some id =>
    World.copyFields id draft
    return id

/-- Creates the objects declared inside another one and puts them into it. -/
def declareChildren (ev : Evaluator) (container : Nat) : List ObjectDecl → Eval Unit
  | [] => return ()
  | declaration :: declarations => do
    if let some child ← ev (.declare declaration) then
      if let .error reason ← (World.addChild container child : WorldM _) then
        World.warn
          ("cannot add " ++ World.numbered child ++ " to " ++ toString container ++ ": " ++
            reason.message)
    declareChildren ev container declarations

/-- The name of a declared object; no name is the empty one. -/
def declaredName (ev : Evaluator) : Option Expr → Eval String
  | none => return ""
  | some name => return (← ev (.expression name)).toText

/-- Creates an object as declared. -/
def declare (ev : Evaluator) (declaration : ObjectDecl) : Eval (Option Nat) := do
  let name ← declaredName ev declaration.name
  match ← (declaredClass? declaration : WorldM _) with
  | none => return none
  | some info =>
    let draft ← copied (.ofClass info) declaration.copySource
    let draft ← initFields ev declaration.className draft declaration.fields
    let id ← enterDeclared ev declaration.isDatablock name draft
    declareChildren ev id declaration.children
    return some id

end ScriptConsole.Eval
