import ScriptConsole.Console.World

/-! # Finding objects, classes and functions

Scripts refer to objects by number, by name, or by a path: names and numbers with
slashes between them, of which the first is any object and each further one a child of
the one before it.
-/

namespace ScriptConsole.World

/-- The class of a name. -/
def classInfo? (world : World) (name : String) : Option ClassInfo :=
  (world.symbols.find? name).bind fun symbol => world.registry.classes[symbol]?

/-- A new object of a class, not yet registered. -/
def newObject? (world : World) (className : String) : Option Draft :=
  (world.classInfo? className).map .ofClass

/-- Object numbers are below this bound. -/
def idBound : Nat := Nat.pow 2 32

/-- The live object of a number. -/
def liveId? (world : World) (id : Nat) : Option Nat :=
  if world.registry.contains id then some id else none

/-- The live object that one segment of a path starts with: a text that is a number
stands for nothing else. -/
def findRoot? (world : World) (segment : List Char) : Option Nat :=
  match parseNat? idBound segment with
  | some id => world.liveId? id
  | none => (world.symbols.find? (String.ofList segment)).bind world.registry.findName?

/-- Whether a segment of a path stands for an object. -/
def matchesSegment (world : World) (segment : String) (id : Nat) : Bool :=
  (world.registry.get? id).any fun object =>
    object.name.any (fun name => Text.sameFolded name.text segment) || toString id == segment

/-- The first child of an object that a segment of a path stands for. -/
def findChild? (world : World) (id : Nat) (segment : List Char) : Option Nat :=
  (world.registry.get? id).bind fun object =>
    object.children.find? (world.matchesSegment (String.ofList segment))

/-- The segments of a path. White space around the path and empty segments do not
count. -/
def segments (path : String) : List (List Char) :=
  (Text.split (· == '/') (Text.trim path.toList)).filter fun segment => !segment.isEmpty

/-- The object that a path leads to. -/
def findObject? (world : World) (path : String) : Option Nat :=
  match segments path with
  | [] => none
  | root :: rest => (world.findRoot? root).bind fun id => rest.foldlM world.findChild? id

/-- The object that an integer is the number of. -/
def findById? (world : World) (id : Int64) : Option Nat :=
  if 0 < id then world.liveId? id.toInt.toNat else none

/-- The object that a value refers to: numbers are object numbers, texts are paths. -/
def findByValue? (world : World) : Value → Option Nat
  | .empty => none
  | .int id => world.findById? id
  | .float x => world.findById? (Binary64.toInt64 x)
  | .text path => world.findObject? path

/-- The layer of a namespace that exists. -/
def existingLayer? (world : World) (space : Symbol) : Option Layer :=
  let layer := Layer.ofSpace space
  if world.spaces.contains layer then some layer else none

/-- The function of a name that a search from a namespace and then globally finds. -/
def functionIn? (world : World) (base : Layer) (name : Symbol) : Option (Entry Callable) :=
  world.spaces.resolve? base name true

/-- The function of a name that an object has of its own: the search leaves out global
functions. -/
def methodOf? (world : World) (id : Nat) (name : String) : Option (Entry Callable) :=
  (world.registry.get? id).bind fun object =>
    (world.symbols.find? name).bind fun name => world.spaces.resolve? object.layer name false

/-- A name as the namespace in front of its last double colon and the rest. -/
def splitQualified (name : String) : Option String × String :=
  let reversed := name.toList.reverse
  go [] reversed
where
  /-- Walks back to a double colon, collecting what comes after it. -/
  go (after : List Char) : List Char → Option String × String
    | ':' :: ':' :: before => (some (String.ofList before.reverse), String.ofList after)
    | c :: before => go (c :: after) before
    | [] => (none, String.ofList after)

/-- The function that the host calls by a name, which may be qualified. -/
def functionNamed? (world : World) (space : Option String) (name : String) :
    Option (Entry Callable) := do
  let base ← match space with
    | none => some Layer.global
    | some space => (world.symbols.find? space).bind world.existingLayer?
  world.functionIn? base (← world.symbols.find? name)

end ScriptConsole.World
