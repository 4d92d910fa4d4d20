import ScriptConsole.Namespace.Basic

/-! # Packages and the search for functions

A search starts from a namespace and goes up through its parents. Before each of them
the layers of the active packages are searched, the newest package first, and the
global namespace comes last.
-/

namespace ScriptConsole.Namespaces

variable {ε : Type}

/-- Whether a package was ever declared. -/
def isPackage (spaces : Namespaces ε) (package : Symbol) : Bool :=
  spaces.content.keys.any fun layer => layer.package = some package

/-- Activates a package that was declared. An active package stays where it is. The
answer is whether the package was declared. -/
def activate (spaces : Namespaces ε) (package : Symbol) : Bool × Namespaces ε :=
  if !spaces.isPackage package then (false, spaces)
  else if package ∈ spaces.active then (true, spaces)
  else (true, { spaces with active := package :: spaces.active })

/-- Deactivates a package and every package that was activated after it. The answer is
whether the package was active. -/
def deactivate (spaces : Namespaces ε) (package : Symbol) : Bool × Namespaces ε :=
  if package ∈ spaces.active then
    (true, { spaces with active := (spaces.active.dropWhile (· ≠ package)).drop 1 })
  else (false, spaces)

/-- The layers that count for one namespace: those of active packages, then itself. -/
def layersOf (spaces : Namespaces ε) (layer : Layer) : List Layer :=
  (spaces.active.map fun package => ⟨layer.space, some package⟩).filter spaces.contains ++ [layer]

/-- The layers that a search goes through, in order. -/
def layers (spaces : Namespaces ε) (base : Layer) (withGlobal : Bool) : List Layer :=
  let chain := spaces.chain base
  chain.flatMap spaces.layersOf ++
    if withGlobal && Layer.global ∉ chain then spaces.layersOf .global else []

/-- The first function of a name in some layers. -/
def findIn? (spaces : Namespaces ε) (name : Symbol) (layers : List Layer) : Option (Entry ε) :=
  layers.findSome? fun layer =>
    (spaces.function? layer name).map fun target => ⟨layer, name, target⟩

/-- The function of a name that a search from a namespace finds. -/
def resolve? (spaces : Namespaces ε) (base : Layer) (name : Symbol) (withGlobal : Bool) :
    Option (Entry ε) :=
  spaces.findIn? name (spaces.layers base withGlobal)

/-- The function of a name that a search finds after a layer, in the order of the
layers of the namespace that the layer belongs to. -/
def resolveAfter? (spaces : Namespaces ε) (layer : Layer) (name : Symbol) : Option (Entry ε) :=
  let base : Layer := ⟨layer.space, none⟩
  if spaces.contains base then
    spaces.findIn? name (((spaces.layers base true).dropWhile (· ≠ layer)).drop 1)
  else none

end ScriptConsole.Namespaces
