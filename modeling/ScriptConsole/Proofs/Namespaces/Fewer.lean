import ScriptConsole.Proofs.Namespaces.Views
import ScriptConsole.Proofs.Walk

/-! # Tables with fewer links

Giving up links leaves functions and packages as they are
(`ScriptConsole.Namespaces.Fewer`), so a search that found nothing still finds nothing
(`ScriptConsole.Namespaces.Fewer.resolve?_eq_none`).
-/

namespace ScriptConsole.Namespaces

variable {ε : Type}

/-- A table has the same functions and packages as another one, and no other links. -/
structure Fewer (spaces after : Namespaces ε) : Prop where
  active : after.active = spaces.active
  size : after.content.size = spaces.content.size
  contains : ∀ layer, after.contains layer = spaces.contains layer
  function? : ∀ layer name, after.function? layer name = spaces.function? layer name
  parent? : ∀ layer parent,
    after.parent? layer = some parent → spaces.parent? layer = some parent

namespace Fewer

variable {spaces between after : Namespaces ε}

theorem refl (spaces : Namespaces ε) : Fewer spaces spaces :=
  ⟨rfl, rfl, fun _ => rfl, fun _ _ => rfl, fun _ _ above => above⟩

theorem trans (first : Fewer spaces between) (second : Fewer between after) :
    Fewer spaces after where
  active := second.active.trans first.active
  size := second.size.trans first.size
  contains := fun layer => (second.contains layer).trans (first.contains layer)
  function? := fun layer name => (second.function? layer name).trans (first.function? layer name)
  parent? := fun layer parent above =>
    first.parent? layer parent (second.parent? layer parent above)

/-- Giving up a hold of a link takes the link away at most. It touches no function and no package.
-/
theorem unlink (spaces : Namespaces ε) (child : Layer) : Fewer spaces (spaces.unlink child) := by
  constructor
  case active => rfl
  case size =>
    unfold Namespaces.unlink
    rw [size_update]
  case contains =>
    intro layer
    unfold Namespaces.unlink
    rw [contains_update]
  case function? =>
    intro layer name
    unfold Namespaces.function? Namespaces.unlink
    rw [content_update]
    split
    next =>
      cases spaces.content[layer]? with
      | none => rfl
      | some content =>
          by_cases last : content.holds = 1
          · simp only [Option.map_some, last, ↓reduceIte, Option.bind_some]
          · simp only [Option.map_some, last, ↓reduceIte, Option.bind_some]
    next => rfl
  case parent? =>
    intro layer parent above
    rw [parent?_unlink] at above
    split at above
    · contradiction
    · exact above

theorem foldl_unlink (linked : List Layer) (spaces : Namespaces ε) :
    Fewer spaces (linked.foldl Namespaces.unlink spaces) := by
  induction linked generalizing spaces with
  | nil => exact refl spaces
  | cons layer linked ih => exact (unlink spaces layer).trans (ih (spaces.unlink layer))

/-- With fewer links a search goes through no other layers. -/
theorem layers_subset (fewer : Fewer spaces after) (base : Layer) :
    after.layers base false ⊆ spaces.layers base false := by
  have own (layer : Layer) : after.layersOf layer = spaces.layersOf layer := by
    unfold layersOf
    rw [fewer.active, show after.contains = spaces.contains from funext fewer.contains]
  have chain : after.chain base ⊆ spaces.chain base := by
    unfold Namespaces.chain
    rw [fewer.size]
    exact walk_subset_of_fewer fewer.parent? (spaces.content.size + 1) base
  intro layer member
  simp only [layers, Bool.false_and, Bool.false_eq_true, ↓reduceIte, List.append_nil,
    List.mem_flatMap] at member ⊢
  obtain ⟨above, listed, inside⟩ := member
  exact ⟨above, chain listed, own above ▸ inside⟩

/-- With fewer links a search that found nothing finds nothing. -/
theorem resolve?_eq_none (fewer : Fewer spaces after) {base : Layer} {name : Symbol}
    (nothing : spaces.resolve? base name false = none) : after.resolve? base name false = none := by
  unfold resolve? findIn? at nothing ⊢
  rw [List.findSome?_eq_none_iff] at nothing ⊢
  intro layer member
  rw [fewer.function?]
  exact nothing layer (fewer.layers_subset base member)

end Fewer

end ScriptConsole.Namespaces
