import ScriptConsole.Object.Field

/-! # Classes

A class is described by its own fields and flags; a registered class has those of its
ancestors too.
-/

namespace ScriptConsole

/-- The description of a class. -/
structure ClassSpec where
  name : String
  parent : Option String
  fields : List PersistentField
  isContainer : Bool
  deletesChildren : Bool
  isDatablock : Bool
  linksClassFields : Bool

namespace ClassSpec

/-- A class without a parent, fields and flags. -/
def plain (name : String) : ClassSpec :=
  ⟨name, none, [], false, false, false, false⟩

/-- The class as a subclass of another one. -/
def withParent (spec : ClassSpec) (parent : String) : ClassSpec :=
  { spec with parent := some parent }

/-- The class with one more field. -/
def withField (spec : ClassSpec) (field : PersistentField) : ClassSpec :=
  { spec with fields := spec.fields ++ [field] }

/-- The class as one whose objects contain others, which they delete with themselves or
only let go. -/
def container (spec : ClassSpec) (deletesChildren : Bool) : ClassSpec :=
  { spec with isContainer := true, deletesChildren }

/-- The class as one of datablocks. -/
def datablock (spec : ClassSpec) : ClassSpec :=
  { spec with isDatablock := true }

/-- The class as one whose objects link the namespaces that their fields `class` and
`superClass` name. -/
def scriptClass (spec : ClassSpec) : ClassSpec :=
  { spec with linksClassFields := true }

end ClassSpec

/-- A registered class. -/
structure ClassInfo where
  name : Symbol
  /-- The classes it descends from, the nearest first. -/
  ancestors : List Symbol
  fields : List PersistentField
  isContainer : Bool
  deletesChildren : Bool
  isDatablock : Bool
  linksClassFields : Bool

namespace ClassInfo

/-- The namespace of the class, which is that of its name. -/
def layer (info : ClassInfo) : Layer :=
  .ofSpace info.name

/-- The position of the first field of a name. -/
def fieldIndex? (info : ClassInfo) (name : String) : Option Nat :=
  info.fields.findIdx? fun field => Text.sameFolded field.name name

/-- Whether the class is the one of a name or descends from it. -/
def isSubclassOf (info : ClassInfo) (name : String) : Bool :=
  (info.name :: info.ancestors).any fun symbol => Text.sameFolded symbol.text name

/-- The class of a description, with what it inherits from its parent. -/
def ofSpec (spec : ClassSpec) (name : Symbol) (parent : Option ClassInfo) : ClassInfo :=
  { name
    ancestors := match parent with
      | none => []
      | some parent => parent.name :: parent.ancestors
    fields := (parent.elim [] ClassInfo.fields) ++ spec.fields
    isContainer := spec.isContainer || parent.any ClassInfo.isContainer
    deletesChildren := spec.deletesChildren || parent.any ClassInfo.deletesChildren
    isDatablock := spec.isDatablock || parent.any ClassInfo.isDatablock
    linksClassFields := spec.linksClassFields || parent.any ClassInfo.linksClassFields }

end ClassInfo

/-- Why a class cannot be registered. -/
inductive ClassError where
  | alreadyRegistered
  | unknownParent
  deriving DecidableEq

/-- The wording of a refusal to register a class. -/
def ClassError.message : ClassError → String
  | alreadyRegistered => "class is already registered"
  | unknownParent => "parent class is not registered"

end ScriptConsole
