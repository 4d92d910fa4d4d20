/-! # Built-in functions

The functions and methods that every console starts with, by what they need: their
arguments alone, the console, or scripts that they run.
-/

namespace ScriptConsole

/-- How many arguments a function takes: at least so many, and at most so many if that
is limited. -/
structure Arity where
  least : Nat
  most : Option Nat
  deriving DecidableEq

namespace Arity

/-- Takes exactly so many arguments. -/
def exactly (count : Nat) : Arity :=
  ⟨count, some count⟩

/-- Takes so many arguments or more. -/
def atLeast (count : Nat) : Arity :=
  ⟨count, none⟩

/-- Whether a number of arguments is within the bounds. -/
def admits (arity : Arity) (count : Nat) : Bool :=
  arity.least ≤ count && arity.most.all fun most => count ≤ most

end Arity

/-- Functions that compute a value from their arguments alone. -/
inductive ValueFunction where
  | length
  | toUpper
  | toLower
  | wordCount
  | word
  | substring
  | floor
  | abs
  deriving DecidableEq

/-- Functions that read or change the console without running scripts. -/
inductive ConsoleFunction where
  | echo
  | warn
  | error
  | isObject
  | nameToId
  | isFunction
  | isMethod
  | linkNamespaces
  | isPackage
  | activatePackage
  | deactivatePackage
  | addTag
  | removeTag
  | tagText
  deriving DecidableEq

/-- Methods that read or change their object without running scripts. -/
inductive ObjectMethod where
  | id
  | name
  | setName
  | className
  | group
  | fieldValue
  | setFieldValue
  | dynamicFieldCount
  | isMemberOfClass
  | dump
  | add
  | remove
  | count
  | child
  | isMember
  deriving DecidableEq

/-- Functions and methods that may run scripts. -/
inductive ScriptFunction where
  | evaluate
  | delete
  | clear
  deriving DecidableEq

/-- A built-in function or method. -/
inductive Builtin where
  | onValues (function : ValueFunction)
  | onConsole (function : ConsoleFunction)
  | onObject (method : ObjectMethod)
  | onScripts (function : ScriptFunction)
  deriving DecidableEq

/-- How a built-in is registered: a method with the class it belongs to. -/
structure BuiltinSpec where
  className : Option String
  name : String
  arity : Arity
  builtin : Builtin

namespace BuiltinSpec

/-- The specification of a function on values. -/
def onValues (name : String) (arity : Arity) (function : ValueFunction) : BuiltinSpec :=
  ⟨none, name, arity, .onValues function⟩

/-- The specification of a function on the console. -/
def onConsole (name : String) (arity : Arity) (function : ConsoleFunction) : BuiltinSpec :=
  ⟨none, name, arity, .onConsole function⟩

/-- The specification of a method of all objects. -/
def ofObject (name : String) (arity : Arity) (builtin : Builtin) : BuiltinSpec :=
  ⟨some "SimObject", name, arity, builtin⟩

/-- The specification of a method of containers. -/
def ofSet (name : String) (arity : Arity) (builtin : Builtin) : BuiltinSpec :=
  ⟨some "SimSet", name, arity, builtin⟩

end BuiltinSpec

/-- The built-in functions in the order in which they are registered. -/
def builtinFunctions : List BuiltinSpec :=
  [.onConsole "echo" (.atLeast 0) .echo,
    .onConsole "warn" (.atLeast 0) .warn,
    .onConsole "error" (.atLeast 0) .error,
    .onConsole "isObject" (.exactly 1) .isObject,
    .onConsole "nameToID" (.exactly 1) .nameToId,
    .onConsole "isFunction" (.exactly 1) .isFunction,
    .onConsole "isMethod" (.exactly 2) .isMethod,
    .onConsole "linkNamespaces" (.exactly 2) .linkNamespaces,
    .onConsole "isPackage" (.exactly 1) .isPackage,
    .onConsole "activatePackage" (.exactly 1) .activatePackage,
    .onConsole "deactivatePackage" (.exactly 1) .deactivatePackage,
    .onConsole "addTaggedString" (.exactly 1) .addTag,
    .onConsole "removeTaggedString" (.exactly 1) .removeTag,
    .onConsole "getTaggedString" (.exactly 1) .tagText,
    .onValues "strlen" (.exactly 1) .length,
    .onValues "strupr" (.exactly 1) .toUpper,
    .onValues "strlwr" (.exactly 1) .toLower,
    .onValues "getWordCount" (.exactly 1) .wordCount,
    .onValues "getWord" (.exactly 2) .word,
    .onValues "getSubStr" ⟨2, some 3⟩ .substring,
    .onValues "mFloor" (.exactly 1) .floor,
    .onValues "mAbs" (.exactly 1) .abs,
    ⟨none, "eval", .exactly 1, .onScripts .evaluate⟩]

/-- The built-in methods in the order in which they are registered. -/
def builtinMethods : List BuiltinSpec :=
  [.ofObject "getId" (.exactly 0) (.onObject .id),
    .ofObject "getName" (.exactly 0) (.onObject .name),
    .ofObject "setName" (.exactly 1) (.onObject .setName),
    .ofObject "getClassName" (.exactly 0) (.onObject .className),
    .ofObject "delete" (.exactly 0) (.onScripts .delete),
    .ofObject "getGroup" (.exactly 0) (.onObject .group),
    .ofObject "getFieldValue" (.exactly 1) (.onObject .fieldValue),
    .ofObject "setFieldValue" (.exactly 2) (.onObject .setFieldValue),
    .ofObject "getDynamicFieldCount" (.exactly 0) (.onObject .dynamicFieldCount),
    .ofObject "isMemberOfClass" (.exactly 1) (.onObject .isMemberOfClass),
    .ofObject "dump" (.exactly 0) (.onObject .dump),
    .ofSet "add" (.atLeast 1) (.onObject .add),
    .ofSet "remove" (.atLeast 1) (.onObject .remove),
    .ofSet "getCount" (.exactly 0) (.onObject .count),
    .ofSet "getObject" (.exactly 1) (.onObject .child),
    .ofSet "isMember" (.exactly 1) (.onObject .isMember),
    .ofSet "clear" (.exactly 0) (.onScripts .clear)]

end ScriptConsole
