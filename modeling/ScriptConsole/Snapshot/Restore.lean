import ScriptConsole.Eval.Object
import ScriptConsole.Snapshot.Basic

/-! # Restoring snapshots

The objects of a snapshot are created anew, each before its children. A field that is
refused is left out with a warning, and a name that is taken leaves its object unnamed.
-/

namespace ScriptConsole

namespace Snapshot

/-- Sets a field of an object that is being restored. -/
def restoreField (className : String) (draft : Draft) (field : FieldSnapshot) :
    WorldM Draft := do
  match draft.setField field.name field.index (.text field.value) with
  | .ok changed => return changed
  | .error reason =>
    World.warn
      ("restore: cannot set field '" ++ field.name ++ "' of '" ++ className ++ "': " ++
        reason.message)
    return draft

/-- Puts a restored object into a restored container. -/
def restoreLink (container child : Nat) : WorldM Unit := do
  if let .error reason ← World.addChild container child then
    World.warn
      ("restore: cannot add " ++ World.numbered child ++ " to " ++ toString container ++ ": " ++
        reason.message)

mutual

/-- Creates the objects of a snapshot. The result is the number of the outermost one. -/
def restore (ev : Evaluator) : Snapshot → Eval (Except RestoreError Nat)
  | ⟨className, name, fields, children⟩ => do
    match (← Eval.world).newObject? className with
    | none => return .error (.unknownClass className)
    | some draft =>
      let draft ← (fields.foldlM (restoreField className) draft : WorldM Draft)
      let id ← Eval.registerObject ev draft (name.getD "")
      match ← restoreChildren ev id children with
      | .ok () => return .ok id
      | .error reason => return .error reason

/-- Creates the objects of several snapshots inside a container. -/
def restoreChildren (ev : Evaluator) (container : Nat) :
    List Snapshot → Eval (Except RestoreError Unit)
  | [] => return .ok ()
  | snapshot :: snapshots => do
    match ← restore ev snapshot with
    | .error reason => return .error reason
    | .ok child =>
      (restoreLink container child : WorldM Unit)
      restoreChildren ev container snapshots

end

end Snapshot

end ScriptConsole
