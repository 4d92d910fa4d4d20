import Mathlib.Data.List.Chain
import ScriptConsole.Proofs.Namespaces.Links

/-! # Stacks of namespaces

Namespaces that are linked one in front of the other stand in a stack on the first one
(`ScriptConsole.Namespaces.IsStack`). A stack stays as long as each of its links is held,
however often its namespaces are linked and unlinked by others.
-/

namespace ScriptConsole.Namespaces

variable {ε : Type} {spaces after : Namespaces ε}

theorem ofSpace_ne_global (space : Symbol) : Layer.ofSpace space ≠ .global :=
  fun same => Option.some_ne_none space (congrArg Layer.space same)

/-- Each layer of a list is directly in front of the one before it, and the first one is
in front of the base. -/
def IsStack (spaces : Namespaces ε) (base : Layer) (stack : List Layer) : Prop :=
  (base :: stack).IsChain fun above below => spaces.parent? below = some above

/-- The layer at the front of a stack. -/
def front (base : Layer) (stack : List Layer) : Layer :=
  stack.getLastD base

theorem isStack_append {base : Layer} {stack : List Layer} {layer : Layer} :
    spaces.IsStack base (stack ++ [layer]) ↔
      spaces.IsStack base stack ∧ spaces.parent? layer = some (front base stack) := by
  unfold IsStack front
  rw [← List.cons_append, List.isChain_append]
  simp only [List.isChain_singleton, true_and, List.head?_cons, Option.mem_def,
    Option.some.injEq, forall_eq', List.getLast?_cons, List.getLastD_eq_getLast?]

theorem front_append (base : Layer) (stack : List Layer) (layer : Layer) :
    front base (stack ++ [layer]) = layer := by
  unfold front
  rw [List.getLastD_concat]

/-- A stack stays if its own layers keep their parents. -/
theorem IsStack.of_kept {base : Layer} {stack : List Layer} (isStack : spaces.IsStack base stack)
    (kept : ∀ layer ∈ stack, ∀ parent,
      spaces.parent? layer = some parent → after.parent? layer = some parent) :
    after.IsStack base stack := by
  induction stack using List.reverseRecOn with
  | nil => exact List.isChain_singleton base
  | append_singleton stack layer ih =>
      obtain ⟨lower, above⟩ := isStack_append.mp isStack
      have own := kept layer (List.mem_append_right stack (List.mem_singleton_self layer))
      refine isStack_append.mpr ⟨ih lower ?_, own _ above⟩
      exact fun other member => kept other (List.mem_append_left [layer] member)

/-- From the front of a stack a search comes down the whole stack to its base. -/
theorem chain_front (acyclic : Acyclic spaces.parent?) {base : Layer} {stack : List Layer}
    (isStack : spaces.IsStack base stack) :
    spaces.chain (front base stack) = stack.reverse ++ spaces.chain base := by
  induction stack using List.reverseRecOn with
  | nil => rfl
  | append_singleton stack layer ih =>
      obtain ⟨lower, above⟩ := isStack_append.mp isStack
      have tail := ih lower
      rw [front_append, chain_eq_cons acyclic, above, Option.elim_some, tail,
        List.reverse_append, List.reverse_singleton, List.singleton_append, List.cons_append]

/-- Giving up one hold of some links takes away what they are listed, and leaves a link
that is held more often than it is listed. -/
theorem Linked.foldl_unlink (linked : Linked spaces) (layers : List Layer) :
    Linked (layers.foldl Namespaces.unlink spaces) ∧
      (∀ layer, (layers.foldl Namespaces.unlink spaces).holds layer =
        spaces.holds layer - layers.count layer) ∧
      ∀ layer, layers.count layer < spaces.holds layer →
        (layers.foldl Namespaces.unlink spaces).parent? layer = spaces.parent? layer := by
  induction layers generalizing spaces with
  | nil => exact ⟨linked, fun _ => rfl, fun _ _ => rfl⟩
  | cons child layers ih =>
      obtain ⟨sound, holds, parents⟩ := ih (linked.unlink child)
      refine ⟨sound, ?_, ?_⟩
      · intro layer
        have rest := holds layer
        rw [holds_unlink] at rest
        simp only [List.foldl_cons, rest, List.count_cons, beq_iff_eq]
        split <;> omega
      · intro layer fewer
        simp only [List.count_cons, beq_iff_eq] at fewer
        have rest := parents layer
        rw [holds_unlink, parent?_unlink] at rest
        rw [List.foldl_cons]
        by_cases own : child = layer
        · subst own
          simp only [↓reduceIte, true_and] at fewer rest
          have more : spaces.holds child ≠ 1 := by omega
          rw [rest (by omega), if_neg more]
        · simp only [own, ↓reduceIte, Nat.add_zero, false_and] at fewer rest
          exact rest fewer

/-- A link below another layer than the global one is held once more and leaves all other
links. -/
theorem link_views {child parent : Layer} (linked : Linked spaces)
    (present : spaces.contains child = true) (below : parent ≠ .global)
    (made : spaces.link child parent = .ok after) :
    Linked after ∧ after.parent? child = some parent ∧
      (∀ layer above, spaces.parent? layer = some above → after.parent? layer = some above) ∧
      ∀ layer, after.holds layer = spaces.holds layer + [child].count layer := by
  obtain ⟨named, _, kinds⟩ := link_cases made
  rcases kinds with ⟨top, _⟩ | ⟨_, already, rfl⟩ | ⟨_, free, apart, rfl⟩
  · exact (below top).elim
  · refine ⟨linked.hold already, by rw [parent?_hold, already], ?_, ?_⟩
    · intro layer above found
      rw [parent?_hold, found]
    · intro layer
      simp only [holds_hold present, List.count_singleton, beq_iff_eq]
      split <;> rfl
  · refine ⟨linked.attach named present apart, by rw [parent?_attach present, if_pos rfl], ?_, ?_⟩
    · intro layer above found
      have other : child ≠ layer := by
        rintro rfl
        rw [free] at found
        contradiction
      rw [parent?_attach present, if_neg other, found]
    · intro layer
      have unheld : spaces.holds child = 0 := by
        have held := linked.held child
        rw [free] at held
        simpa using held
      simp only [holds_attach present, List.count_singleton, beq_iff_eq]
      by_cases own : child = layer
      · subst own
        simp only [↓reduceIte, unheld]
      · simp only [own, ↓reduceIte, Nat.add_zero]

end ScriptConsole.Namespaces
