import ScriptConsole.Symbol
import ScriptConsole.Walk

/-! # Namespaces

A namespace holds functions by name and may have a parent, where names it does not
define are looked up. A package puts a layer of functions in front of namespaces, which
counts while the package is active. Linking a namespace to its parent again only holds
the link once more.
-/

namespace ScriptConsole

/-- A layer of functions: the namespace of a name, or what a package puts in front of
it. The namespace without a name is the global one. -/
structure Layer where
  space : Option Symbol
  package : Option Symbol
  deriving DecidableEq

namespace Layer

/-- Layers are ordered by the names of namespace and package. -/
instance : Ord Layer where
  compare := compareLex (compareOn space) (compareOn package)

theorem compare_eq (first second : Layer) :
    compare first second =
      (compare first.space second.space).then (compare first.package second.package) :=
  rfl

instance : Std.TransOrd Layer :=
  inferInstanceAs (Std.TransCmp (compareLex (compareOn space) (compareOn package)))

instance : Std.LawfulEqOrd Layer where
  eq_of_compare {first second} equal := by
    rw [compare_eq] at equal
    simp only [Ordering.then_eq_eq, Std.compare_eq_iff_eq] at equal
    cases first
    cases second
    simp_all

/-- The global namespace. -/
def global : Layer :=
  ⟨none, none⟩

/-- The namespace of a name. -/
def ofSpace (space : Symbol) : Layer :=
  ⟨some space, none⟩

end Layer

/-- What a layer holds: its parent, how often the link to it is held, and its functions
by name. -/
structure LayerContent (ε : Type) where
  parent : Option Layer
  holds : Nat
  functions : Std.TreeMap Symbol ε

/-- The layer that was just created. -/
def LayerContent.empty {ε : Type} : LayerContent ε :=
  ⟨none, 0, {}⟩

/-- A function as it is found: the layer it is in and its name there. -/
structure Entry (ε : Type) where
  layer : Layer
  name : Symbol
  target : ε

/-- All layers, and the active packages with the newest first. -/
structure Namespaces (ε : Type) where
  content : Std.TreeMap Layer (LayerContent ε)
  active : List Symbol

namespace Namespaces

variable {ε : Type}

/-- The table with the global namespace alone. -/
def empty : Namespaces ε :=
  ⟨Std.TreeMap.empty.insert .global .empty, []⟩

/-- Whether a layer was created. -/
def contains (spaces : Namespaces ε) (layer : Layer) : Bool :=
  spaces.content.contains layer

/-- The parent of a layer. -/
def parent? (spaces : Namespaces ε) (layer : Layer) : Option Layer :=
  (spaces.content[layer]?).bind LayerContent.parent

/-- How often the link of a layer to its parent is held. -/
def holds (spaces : Namespaces ε) (layer : Layer) : Nat :=
  ((spaces.content[layer]?).map LayerContent.holds).getD 0

/-- The function of a name in a layer. -/
def function? (spaces : Namespaces ε) (layer : Layer) (name : Symbol) : Option ε :=
  (spaces.content[layer]?).bind fun content => content.functions[name]?

/-- Creates a layer if there is none yet. -/
def create (spaces : Namespaces ε) (layer : Layer) : Namespaces ε :=
  { spaces with content := spaces.content.insertIfNew layer .empty }

/-- Changes what a layer holds. -/
def update (spaces : Namespaces ε) (layer : Layer) (change : LayerContent ε → LayerContent ε) :
    Namespaces ε :=
  { spaces with content := spaces.content.modify layer change }

/-- Puts a function into a layer, in place of one of the same name. -/
def define (spaces : Namespaces ε) (layer : Layer) (name : Symbol) (target : ε) : Namespaces ε :=
  spaces.update layer fun content =>
    { content with functions := content.functions.insert name target }

/-- A layer and everything above it. -/
def chain (spaces : Namespaces ε) (layer : Layer) : List Layer :=
  walk spaces.parent? (spaces.content.size + 1) layer

end Namespaces

/-- Why a namespace cannot be linked to a parent. -/
inductive LinkError where
  /-- The parent is the namespace itself or below it. -/
  | cycle
  /-- The namespace has another parent. -/
  | alreadyLinked
  deriving DecidableEq

/-- The wording of a refusal to link. -/
def LinkError.message : LinkError → String
  | cycle => "linking would create a cycle"
  | alreadyLinked => "namespace is already linked to a different parent"

namespace Namespaces

variable {ε : Type}

/-- Holds the link of a layer to its parent once more. -/
def hold (spaces : Namespaces ε) (child : Layer) : Namespaces ε :=
  spaces.update child fun content => { content with holds := content.holds + 1 }

/-- Gives a layer a parent, by a link that is held once. -/
def attach (spaces : Namespaces ε) (child parent : Layer) : Namespaces ε :=
  spaces.update child fun content => { content with parent := some parent, holds := 1 }

/-- Makes a layer the parent of another one. The global namespace stays without a
parent, and as a parent it needs no link, for every search ends there. -/
def link (spaces : Namespaces ε) (child parent : Layer) : Except LinkError (Namespaces ε) :=
  if child = .global || child = parent then .error .cycle
  else if parent = .global then .ok spaces
  else match spaces.parent? child with
    | some current => if current = parent then .ok (spaces.hold child) else .error .alreadyLinked
    | none =>
      if child ∈ spaces.chain parent then .error .cycle else .ok (spaces.attach child parent)

/-- Gives up one hold of a link, which removes the link with the last one. -/
def unlink (spaces : Namespaces ε) (child : Layer) : Namespaces ε :=
  spaces.update child fun content =>
    if content.holds = 1 then { content with parent := none, holds := 0 }
    else { content with holds := content.holds - 1 }

end Namespaces

end ScriptConsole
