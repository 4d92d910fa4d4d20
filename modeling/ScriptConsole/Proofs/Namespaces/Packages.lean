import ScriptConsole.Proofs.Namespaces.Functions

/-! # Packages in front of namespaces

A search begins with the layers in front of the namespace it starts from. So a function that
the newest active package puts in front of a namespace is found first, whatever else there is
(`ScriptConsole.Namespaces.resolve?_newest`).
-/

namespace ScriptConsole.Namespaces

variable {ε : Type}

/-- What is defined in a layer is found there, and all other functions stay. -/
theorem function?_define (spaces : Namespaces ε) (layer other : Layer) (name symbol : Symbol)
    (target : ε) :
    ((spaces.create layer).define layer name target).function? other symbol =
      if layer = other ∧ name = symbol then some target else spaces.function? other symbol := by
  rw [← function?_create spaces layer]
  unfold define function?
  rw [content_update]
  by_cases own : layer = other
  · subst own
    obtain ⟨content, present⟩ :
        ∃ content, (spaces.create layer).content[layer]? = some content := by
      rw [← Option.isSome_iff_exists, ← contains_eq]
      exact Std.TreeMap.contains_insertIfNew_self
    simp only [present, ↓reduceIte, Option.map_some, Option.bind_some, true_and,
      Std.TreeMap.getElem?_insert, Std.compare_eq_iff_eq]
  · simp only [own, ↓reduceIte, false_and]

/-- A layer that holds a function was created. -/
theorem contains_of_function? {spaces : Namespaces ε} {layer : Layer} {name : Symbol} {target : ε}
    (defined : spaces.function? layer name = some target) : spaces.contains layer = true := by
  obtain ⟨content, present, _⟩ := Option.bind_eq_some_iff.mp defined
  rw [contains_eq, present, Option.isSome_some]

/-- A search from a namespace finds what the newest active package puts in front of it. -/
theorem resolve?_newest {spaces : Namespaces ε} {package : Symbol}
    (newest : spaces.active.head? = some package) (base : Layer) {name : Symbol} {target : ε}
    (defined : spaces.function? ⟨base.space, some package⟩ name = some target)
    (withGlobal : Bool) :
    spaces.resolve? base name withGlobal = some ⟨⟨base.space, some package⟩, name, target⟩ := by
  obtain ⟨older, active⟩ := List.head?_eq_some_iff.mp newest
  have front : ∃ later, spaces.layersOf base = ⟨base.space, some package⟩ :: later := by
    unfold layersOf
    rw [active, List.map_cons, List.filter_cons_of_pos (contains_of_function? defined),
      List.cons_append]
    exact ⟨_, rfl⟩
  obtain ⟨later, front⟩ := front
  unfold resolve? layers chain walk findIn?
  simp only [List.flatMap_cons, front, List.cons_append, List.findSome?_cons, defined,
    Option.map_some]

end ScriptConsole.Namespaces
