import ScriptConsole.Console.Log
import ScriptConsole.Eval.Error
import ScriptConsole.Object.Class
import ScriptConsole.Script.Tree
import ScriptConsole.Snapshot.Basic
import ScriptConsole.Source.Diagnostic
import ScriptConsole.Tag.Table

/-! # Operations of the host

The host of a console works on it by operations, between runs of scripts as well as in
the functions that scripts call.
-/

namespace ScriptConsole

/-- An operation on a console. -/
inductive Operation where
  /-- Compiles a source and runs it. -/
  | evaluate (source : String)
  | compile (filename text : String)
  | execute (script : Script)
  /-- Calls a function by its name, which may be qualified. -/
  | callFunction (name : String) (arguments : List Value)
  | callMethod (id : Nat) (method : String) (arguments : List Value)
  | getGlobal (name : String)
  | setGlobal (name : String) (value : Value)
  | intern (name : String)
  | linkNamespaces (child parent : String)
  | registerClass (spec : ClassSpec)
  | findClass (name : String)
  | newObject (className : String)
  | register (draft : Draft) (name : String)
  | delete (id : Nat)
  /-- Finds the object that a value refers to. -/
  | find (reference : Value)
  | object (id : Nat)
  | getField (id : Nat) (field : String) (index : Option String)
  | setField (id : Nat) (field : String) (index : Option String) (value : Value)
  | rename (id : Nat) (name : String)
  | addChild (container child : Nat)
  | removeChild (container child : Nat)
  | respondsTo (id : Nat) (name : String)
  | capture (id : Nat)
  | restore (snapshot : Snapshot)
  | tags
  | tag (text : String)
  | releaseTag (id : Nat)
  | say (text : String)
  | setSink (sink : Sink)

/-- The type of what an operation answers. -/
abbrev Operation.Answer : Operation → Type
  | evaluate _ => Except Diagnostic Value
  | compile _ _ => Except Diagnostic Script
  | execute _ => Value
  | callFunction _ _ => Value
  | callMethod _ _ _ => Value
  | getGlobal _ => Value
  | setGlobal _ _ => Unit
  | intern _ => Symbol
  | linkNamespaces _ _ => Except LinkError Unit
  | registerClass _ => Except ClassError Unit
  | findClass _ => Option ClassInfo
  | newObject _ => Option Draft
  | register _ _ => Nat
  | delete _ => Bool
  | find _ => Option Nat
  | object _ => Option Object
  | getField _ _ _ => Option Value
  | setField _ _ _ _ => Except SetFieldError Unit
  | rename _ _ => Bool
  | addChild _ _ => Except ContainerError Unit
  | removeChild _ _ => Bool
  | respondsTo _ _ => Bool
  | capture _ => Option Snapshot
  | restore _ => Except RestoreError Nat
  | tags => TagTable
  | tag _ => Nat
  | releaseTag _ => Bool
  | say _ => Unit
  | setSink _ => Unit

end ScriptConsole
