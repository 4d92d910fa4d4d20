import ScriptConsole.Object.Class

/-! # Built-in classes -/

namespace ScriptConsole

/-- A field that names a namespace to link. The link is made when the object is
registered, so the field cannot be set any more after that. -/
def linkField (name : String) : PersistentField :=
  (PersistentField.single name .text).withSetter fun body value =>
    if body.isRegistered then none else some value

/-- The class that all other built-in classes descend from. -/
def objectClass : ClassSpec :=
  (ClassSpec.plain "SimObject")
    |>.withField (.single "internalName" .text)
    |>.withField ((PersistentField.single "canSave" .bool).withDefault (.int 1))

/-- A class as one whose objects link the namespaces that two of their fields name. -/
def withLinkFields (spec : ClassSpec) : ClassSpec :=
  ((spec.withField (linkField "class")).withField (linkField "superClass")).scriptClass

/-- The classes that every console starts with, parents before their subclasses. -/
def builtinClasses : List ClassSpec :=
  [objectClass,
    withLinkFields ((ClassSpec.plain "ScriptObject").withParent "SimObject"),
    ((ClassSpec.plain "SimSet").withParent "SimObject").container false,
    ((ClassSpec.plain "SimGroup").withParent "SimSet").container true,
    withLinkFields ((ClassSpec.plain "ScriptGroup").withParent "SimGroup"),
    ((ClassSpec.plain "SimDataBlock").withParent "SimObject").datablock]

end ScriptConsole
