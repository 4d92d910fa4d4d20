import ScriptConsole.Proofs.Objects.Deletion

/-! # Containment over histories

Whatever is done with the objects of a console, as long as no deletion runs a script,
containment stays a forest (`ScriptConsole.containment_over_history`).
-/

namespace ScriptConsole

/-- The console with another registry. -/
def Console.withRegistry (console : Console) (registry : Registry) : Console :=
  { console with world := { console.world with registry } }

/-- One operation on the objects of a console. Deletions are of objects that neither have
a function `onRemove` nor take anything along that has one. What is done elsewhere keeps
the ties of objects. -/
inductive Handles : Console → Console → Prop where
  | register (console : Console) (draft : Draft) (name : Option Symbol) :
      Handles console (console.withRegistry (console.world.registry.register draft name).2)
  | rename (console : Console) (id : Nat) (name : Option Symbol) :
      Handles console (console.withRegistry (console.world.registry.rename id name).2)
  | addChild (console : Console) (container child : Nat) :
      Handles console
        { console with world := ((World.addChild container child).run console.world).2 }
  | detach (console : Console) (child : Nat) :
      Handles console (console.withRegistry (console.world.registry.detach child))
  | delete {console final : Console} {bound id : Nat} {found : Bool}
      (quiet : console.world.Quiet id)
      (deleted : Eval.run bound (.delete id) console = .ok found final) : Handles console final
  | elsewhere {console final : Console}
      (same : console.world.registry.SameTies final.world.registry) : Handles console final

/-- Each operation keeps a forest. -/
theorem Handles.forest {console final : Console} (handled : Handles console final)
    (forest : console.world.registry.Forest) : final.world.registry.Forest := by
  cases handled with
  | register draft name => exact forest.register draft name
  | rename id name => exact forest.rename id name
  | addChild container child =>
      rw [World.addChild_run]
      cases put : console.world.registry.addChild container child with
      | error reason => exact forest
      | ok added => exact forest.addChild put
  | detach child => exact forest.detach child
  | delete quiet deleted => exact (Eval.run_delete_of_quiet _ forest quiet deleted).1.forest
  | elsewhere same => exact forest.of_sameTies same

/-- After any operations on objects, beginning without objects, containers and children
agree and form a forest. The walk up from an object ends and the walk that looks for
cycles meets all containers, and a refusal changes nothing. -/
theorem containment_over_history {start final : Console}
    (empty : ∀ id, start.world.registry.contains id = false)
    (history : Relation.ReflTransGen Handles start final) :
    (∀ group child, child ∈ final.world.registry.children group ↔
      final.world.registry.contains group = true ∧
        final.world.registry.group? child = some group) ∧
    (∀ group, (final.world.registry.children group).Nodup) ∧
    (∀ group child, child ∈ final.world.registry.children group →
      final.world.registry.contains child = true) ∧
    (∀ child group, final.world.registry.group? child = some group →
      final.world.registry.contains group = true) ∧
    (∀ group, final.world.registry.children group ≠ [] →
      final.world.registry.isContainer group = true) ∧
    Acyclic final.world.registry.group? ∧
    (∀ id, Ends final.world.registry.group? id) ∧
    (∀ id holder, holder ∈ final.world.registry.holders id ↔
      Relation.ReflTransGen (Leads final.world.registry.group?) id holder) ∧
    ∀ container child reason,
      ((World.addChild container child).run final.world).1 = .error reason →
      ((World.addChild container child).run final.world).2 = final.world := by
  have forest : final.world.registry.Forest := by
    induction history with
    | refl => exact .of_no_objects empty
    | tail _ handled ih => exact handled.forest ih
  refine ⟨?_, forest.nodup, ?_, forest.live, forest.holder, forest.acyclic,
    forest.acyclic.ends (Registry.mem_keys_of_group? _), Registry.mem_holders_iff forest.acyclic,
    ?_⟩
  · intro group child
    rw [forest.listed]
    exact ⟨fun inside => ⟨forest.live child group inside, inside⟩, fun both => both.2⟩
  · intro group child listed
    exact Registry.contains_of_group? ((forest.listed group child).mp listed)
  · intro container child reason refused
    rw [World.addChild_run] at refused ⊢
    cases put : final.world.registry.addChild container child with
    | ok added =>
        rw [put] at refused
        contradiction
    | error other => rfl

/-- A console with a number of new groups, none of them in another one. -/
private def newGroups : Nat → Console
  | 0 => ⟨.bare {} 0, .empty, 0⟩
  | count + 1 =>
    let info := ClassInfo.ofSpec ((ClassSpec.plain "Group").container true) ⟨0, false, "Group"⟩ none
    (newGroups count).withRegistry
      ((newGroups count).world.registry.register (.ofClass info) none).2

/-- A group that was put into another one and deleted is gone. -/
theorem containment_over_history_pair :
    ∃ final : Console,
      Relation.ReflTransGen Handles ⟨.bare {} 0, .empty, 0⟩ final ∧
      final.world.registry.contains 4097 = false ∧
      final.world.registry.children 4096 = [] ∧
      Acyclic final.world.registry.group? := by
  have none (id : Nat) : (World.bare {} 0).registry.contains id = false := rfl
  have groups : Relation.ReflTransGen Handles ⟨.bare {} 0, .empty, 0⟩ (newGroups 2) :=
    .tail (.single (.register _ _ _)) (.register _ _ _)
  have nested := groups.tail (.addChild (newGroups 2) 4096 4097)
  have quiet : ((World.addChild 4096 4097).run (newGroups 2).world).2.Quiet 4097 := by
    intro member _
    unfold World.methodOf?
    cases Registry.get? _ member <;> rfl
  have deleted : Eval.run 1 (.delete 4097)
      { newGroups 2 with world := ((World.addChild 4096 4097).run (newGroups 2).world).2 } =
        .ok true _ := rfl
  have history := nested.tail (.delete quiet deleted)
  obtain ⟨_, _, _, _, _, acyclic, _⟩ := containment_over_history none history
  exact ⟨_, history, rfl, rfl, acyclic⟩

end ScriptConsole
