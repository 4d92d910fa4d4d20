import Mathlib.Data.List.Perm.Subperm
import Mathlib.Logic.Relation
import ScriptConsole.Walk

/-! # Walks that end

If no item comes after itself and only finitely many items have one after them, then
every walk ends by itself: a bound above that number cuts off nothing
(`ScriptConsole.mem_walk_iff`). Adding one step between two items keeps that no item
comes after itself, unless the first of them already comes after the second
(`ScriptConsole.Acyclic.extend`).
-/

namespace ScriptConsole

variable {α : Type} {next? : α → Option α}

/-- One item comes directly after another one. -/
def Leads (next? : α → Option α) (item next : α) : Prop :=
  next? item = some next

/-- No item comes after itself, directly or over others. -/
def Acyclic (next? : α → Option α) : Prop :=
  ∀ item, ¬ Relation.TransGen (Leads next?) item item

/-- From an item one comes to an item with none after it. -/
def Ends (next? : α → Option α) (item : α) : Prop :=
  ∃ last, Relation.ReflTransGen (Leads next?) item last ∧ next? last = none

/-- Leaving out steps makes no cycle. -/
theorem Acyclic.mono {fewer : α → Option α} (acyclic : Acyclic next?)
    (kept : ∀ item next, fewer item = some next → next? item = some next) : Acyclic fewer := by
  intro item cycle
  have within : Leads fewer ≤ Leads next? := kept
  exact acyclic item (Relation.TransGen.mono within item item cycle)

/-- A path with one more step to take is a path without it, or goes to that step and on
from it. -/
private theorem path_extend {more : α → Option α} {child parent first last : α}
    (steps : ∀ item next, more item = some next →
      next? item = some next ∨ item = child ∧ next = parent)
    (path : Relation.TransGen (Leads more) first last) :
    Relation.TransGen (Leads next?) first last ∨
      Relation.ReflTransGen (Leads next?) first child ∧
        Relation.ReflTransGen (Leads next?) parent last := by
  induction path with
  | single step =>
      rcases steps _ _ step with old | ⟨rfl, rfl⟩
      · exact Or.inl (.single old)
      · exact Or.inr ⟨.refl, .refl⟩
  | tail _ step ih =>
      rcases steps _ _ step with old | ⟨rfl, rfl⟩
      · rcases ih with before | ⟨toChild, fromParent⟩
        · exact Or.inl (before.tail old)
        · exact Or.inr ⟨toChild, fromParent.tail old⟩
      · rcases ih with before | ⟨toChild, _⟩
        · exact Or.inr ⟨before.to_reflTransGen, .refl⟩
        · exact Or.inr ⟨toChild, .refl⟩

/-- One more step makes no cycle if its end does not lead back to its start. -/
theorem Acyclic.extend {more : α → Option α} {child parent : α} (acyclic : Acyclic next?)
    (apart : ¬ Relation.ReflTransGen (Leads next?) parent child)
    (steps : ∀ item next, more item = some next →
      next? item = some next ∨ item = child ∧ next = parent) : Acyclic more := by
  intro item cycle
  rcases path_extend steps cycle with old | ⟨toChild, fromParent⟩
  · exact acyclic item old
  · exact apart (fromParent.trans toChild)

/-- A walk is its start and the walk from what comes after that. -/
theorem walk_succ (next? : α → Option α) (steps : Nat) (item : α) :
    walk next? (steps + 1) item = item :: (next? item).elim [] (walk next? steps) := by
  refine congrArg (item :: ·) ?_
  cases next? item <;> rfl

/-- A walk takes no more steps than it is allowed. -/
theorem length_walk_le (next? : α → Option α) (steps : Nat) (item : α) :
    (walk next? steps item).length ≤ steps := by
  induction steps generalizing item with
  | zero => exact Nat.le_refl 0
  | succ steps ih =>
      rw [walk_succ]
      cases next? item with
      | none => exact Nat.succ_le_succ (Nat.zero_le steps)
      | some next => exact Nat.succ_le_succ (ih next)

/-- What a walk meets comes after its start. -/
theorem reaches_of_mem_walk {item met : α} {steps : Nat} (member : met ∈ walk next? steps item) :
    Relation.ReflTransGen (Leads next?) item met := by
  induction steps generalizing item with
  | zero => exact absurd member List.not_mem_nil
  | succ steps ih =>
      rw [walk_succ] at member
      cases next : next? item with
      | none =>
          rw [next, Option.elim_none, List.mem_singleton] at member
          rw [member]
      | some after =>
          rw [next, Option.elim_some, List.mem_cons] at member
          rcases member with rfl | later
          · rfl
          · exact .head next (ih later)

/-- Over fewer steps a walk meets nothing else. -/
theorem walk_subset_of_fewer {fewer : α → Option α}
    (kept : ∀ item next, fewer item = some next → next? item = some next) (steps : Nat)
    (item : α) : walk fewer steps item ⊆ walk next? steps item := by
  induction steps generalizing item with
  | zero => exact List.Subset.refl []
  | succ steps ih =>
      rw [walk_succ, walk_succ]
      cases step : fewer item with
      | none => exact List.cons_subset_cons item (List.nil_subset _)
      | some next =>
          rw [kept item next step]
          exact List.cons_subset_cons item (ih next)

/-- A walk in which no item comes after itself meets no item twice. -/
theorem Acyclic.nodup_walk (acyclic : Acyclic next?) (steps : Nat) (item : α) :
    (walk next? steps item).Nodup := by
  induction steps generalizing item with
  | zero => exact List.nodup_nil
  | succ steps ih =>
      rw [walk_succ]
      cases next : next? item with
      | none => exact List.nodup_cons.mpr ⟨List.not_mem_nil, List.nodup_nil⟩
      | some after =>
          refine List.nodup_cons.mpr ⟨?_, ih after⟩
          intro again
          exact acyclic item (.head' next (reaches_of_mem_walk again))

/-- A walk ends at an item with none after it, or takes all its steps. -/
private theorem walk_ends_or_full (next? : α → Option α) (steps : Nat) (item : α) :
    (∃ last ∈ walk next? steps item, next? last = none) ∨
      (walk next? steps item).length = steps ∧
        ∀ met ∈ walk next? steps item, (next? met).isSome := by
  induction steps generalizing item with
  | zero => exact Or.inr ⟨rfl, fun met member => absurd member List.not_mem_nil⟩
  | succ steps ih =>
      rw [walk_succ]
      cases next : next? item with
      | none => exact Or.inl ⟨item, List.mem_singleton_self item, next⟩
      | some after =>
          rcases ih after with ⟨last, member, ends⟩ | ⟨full, inner⟩
          · exact Or.inl ⟨last, List.mem_cons_of_mem item member, ends⟩
          · refine Or.inr ⟨by rw [Option.elim_some, List.length_cons, full], ?_⟩
            intro met member
            rcases List.mem_cons.mp member with rfl | later
            · rw [next, Option.isSome_some]
            · exact inner met later

/-- A walk that ends by itself meets everything that comes after its start. -/
private theorem mem_walk_of_ends {item met : α} {steps : Nat}
    (ends : ∃ last ∈ walk next? steps item, next? last = none)
    (reached : Relation.ReflTransGen (Leads next?) item met) : met ∈ walk next? steps item := by
  induction steps generalizing item with
  | zero =>
      obtain ⟨last, member, _⟩ := ends
      exact absurd member List.not_mem_nil
  | succ steps ih =>
      rw [walk_succ] at ends ⊢
      rcases Relation.ReflTransGen.cases_head reached with rfl | ⟨after, step, rest⟩
      · exact List.mem_cons_self
      · rw [show next? item = some after from step] at ends ⊢
        obtain ⟨last, member, none⟩ := ends
        refine List.mem_cons_of_mem item (ih ?_ rest)
        rcases List.mem_cons.mp member with rfl | later
        · rw [show next? last = some after from step] at none
          contradiction
        · exact ⟨last, later, none⟩

/-- A walk that ends by itself takes no step more if one more is allowed. -/
private theorem walk_succ_of_ends {item : α} {steps : Nat}
    (ends : ∃ last ∈ walk next? steps item, next? last = none) :
    walk next? (steps + 1) item = walk next? steps item := by
  induction steps generalizing item with
  | zero =>
      obtain ⟨last, member, _⟩ := ends
      exact absurd member List.not_mem_nil
  | succ steps ih =>
      rw [walk_succ] at ends
      rw [walk_succ, walk_succ]
      cases step : next? item with
      | none => rfl
      | some after =>
          rw [step] at ends
          obtain ⟨last, member, none⟩ := ends
          have later : last ∈ walk next? steps after := by
            rcases List.mem_cons.mp member with rfl | later
            · rw [step] at none
              contradiction
            · exact later
          exact congrArg (item :: ·) (ih ⟨last, later, none⟩)

section Finite

variable {items : List α}

/-- With more steps than there are items with one after them, a walk ends by itself. -/
private theorem walk_ends (acyclic : Acyclic next?)
    (inner : ∀ item, (next? item).isSome → item ∈ items) {steps : Nat}
    (enough : items.length < steps) (item : α) :
    ∃ last ∈ walk next? steps item, next? last = none := by
  rcases walk_ends_or_full next? steps item with ends | ⟨full, onward⟩
  · exact ends
  · have within : walk next? steps item ⊆ items := fun met member => inner met (onward met member)
    have fits := (List.subperm_of_subset (acyclic.nodup_walk steps item) within).length_le
    omega

/-- Without cycles and with finitely many items that have one after them, one always
comes to an end. -/
theorem Acyclic.ends (acyclic : Acyclic next?)
    (inner : ∀ item, (next? item).isSome → item ∈ items) (item : α) : Ends next? item := by
  obtain ⟨last, member, none⟩ := walk_ends acyclic inner (Nat.lt_succ_self items.length) item
  exact ⟨last, reaches_of_mem_walk member, none⟩

/-- A walk over enough steps meets exactly what comes after its start. -/
theorem mem_walk_iff (acyclic : Acyclic next?)
    (inner : ∀ item, (next? item).isSome → item ∈ items) {steps : Nat}
    (enough : items.length < steps) {item met : α} :
    met ∈ walk next? steps item ↔ Relation.ReflTransGen (Leads next?) item met :=
  ⟨reaches_of_mem_walk, mem_walk_of_ends (walk_ends acyclic inner enough item)⟩

/-- A walk over enough steps is its start and the walk from what comes after that. -/
theorem walk_eq_cons (acyclic : Acyclic next?)
    (inner : ∀ item, (next? item).isSome → item ∈ items) {steps : Nat}
    (enough : items.length < steps) (item : α) :
    walk next? steps item = item :: (next? item).elim [] (walk next? steps) := by
  obtain ⟨fewer, rfl⟩ := Nat.exists_eq_succ_of_ne_zero (Nat.ne_zero_of_lt enough)
  have ends := walk_ends acyclic inner enough item
  rw [walk_succ] at ends ⊢
  cases step : next? item with
  | none => rfl
  | some after =>
      rw [step] at ends
      obtain ⟨last, member, none⟩ := ends
      have later : last ∈ walk next? fewer after := by
        rcases List.mem_cons.mp member with rfl | later
        · rw [step] at none
          contradiction
        · exact later
      exact congrArg (item :: ·) (walk_succ_of_ends ⟨last, later, none⟩).symm

end Finite

end ScriptConsole
