import ScriptConsole.Proofs.Eval.Evolution
import ScriptConsole.Proofs.Objects.Sound

/-! # What is left of a deleted object

A deleted object is gone, no name leads to it, and nothing lists it as a child. It may
still be the container of an object: one that a function `onRemove` put into it after its
children were looked up, for then nothing takes that object out again
(`ScriptConsole.Eval.delete_leaves`).
-/

namespace ScriptConsole

namespace Registry.Sound

variable {registry : Registry} {id : Nat}

/-- No name leads to what is not live. -/
theorem unnamed (sound : Sound registry) (gone : registry.contains id = false) (name : Symbol) :
    registry.findName? name ≠ some id := by
  intro found
  obtain ⟨object, live, _⟩ := sound.named name id found
  rw [contains_of_get? live] at gone
  contradiction

/-- Nothing lists as a child what is not live. -/
theorem unlisted (sound : Sound registry) (gone : registry.contains id = false) (group : Nat) :
    id ∉ registry.children group := by
  intro member
  have inside := sound.listed group id member
  rw [contains_of_group? inside] at gone
  contradiction

end Registry.Sound

namespace World.Reachable

/-- The world of a new console comes about. -/
theorem console (config : Config) (serial : Nat) :
    (Console.new config serial).world.Reachable := by
  rw [Console.new_world]
  exact new config serial

variable {console : Console}

/-- What comes about is left by jobs as something that comes about. -/
theorem run (reachable : console.world.Reachable) (bound : Nat) (job : Job) :
    (Eval.ended (Eval.run bound job console)).world.Reachable :=
  reachable.evolves (Eval.run_evolves bound job console)

theorem perform (reachable : console.world.Reachable) (bound : Nat) (operation : Operation) :
    (Eval.ended (Eval.perform (Eval.run bound) operation console)).world.Reachable :=
  reachable.evolves (Eval.perform_evolves bound operation console)

end World.Reachable

namespace Eval

/-- An object that was deleted is gone, has no name and is nobody's child. The objects
that are still in it are those that were in it when it left the registry. -/
theorem delete_leaves {bound id : Nat} {console final : Console}
    (reachable : console.world.Reachable)
    (deleted : run (bound + 1) (.delete id) console = .ok true final) :
    final.world.registry.contains id = false ∧
      (∀ name, final.world.registry.findName? name ≠ some id) ∧
      (∀ group, id ∉ final.world.registry.children group) ∧
      ∃ left, leave (run bound) id console = .ok () left ∧
        ∀ child, final.world.registry.group? child = some id ↔
          child ≠ id ∧ left.world.registry.group? child = some id := by
  have after := reachable.run (bound + 1) (.delete id)
  rw [deleted] at after
  have sound := after.sound
  obtain ⟨_, _, removal⟩ := deleteObject_ok deleted
  obtain ⟨left, leaving, rfl⟩ := removal rfl
  have registry : ((World.remove id).run left.world).2.registry =
      left.world.registry.removed id := by
    rw [World.remove_run]
  change ((World.remove id).run left.world).2.registry.Sound at sound
  simp only [registry] at sound ⊢
  have gone : (left.world.registry.removed id).contains id = false := by
    simp only [Registry.contains_removed, decide_true, Bool.not_true, Bool.false_and]
  refine ⟨gone, sound.unnamed gone, sound.unlisted gone, left, leaving, ?_⟩
  intro child
  rw [Registry.group?_removed]
  split
  next same =>
    exact ⟨fun absurd => (nomatch absurd), fun both => (both.1 same.symm).elim⟩
  next different =>
    exact ⟨fun inside => ⟨fun same => different same.symm, inside⟩, fun both => both.2⟩

/-- A group with an object in it whose function `onRemove` puts a new object into the
group. -/
def straySource : String :=
  "function Item::onRemove(%this) \x7b %x = new ScriptObject(Stray); Box.add(%x); \x7d " ++
    "new SimGroup(Box) \x7b new ScriptObject(Thing) \x7b class = \"Item\"; \x7d; \x7d;"

/-- A new console that ran the source. -/
@[irreducible] def strayConsole : Console :=
  ended (perform (run 40) (.evaluate straySource) (.new {} 0))

private theorem strayConsole_reachable : strayConsole.world.Reachable := by
  unfold strayConsole
  exact .perform (.console {} 0) 40 (.evaluate straySource)

/-- The container of the new object once the group is deleted. -/
private def strayGroup? : EStateM.Result Abort Console Bool → Option Nat
  | .ok true final => final.world.registry.group? 4098
  | _ => none

/-- In the sample the object that was added while the group was told of the removal of a child keeps
the deleted group. -/
private theorem stray_stays :
    ∃ final, run 40 (.delete 4096) strayConsole = .ok true final ∧
      final.world.registry.group? 4098 = some 4096 := by
  have stays : strayGroup? (run 40 (.delete 4096) strayConsole) = some 4096 := by
    decide +kernel
  cases ran : run 40 (.delete 4096) strayConsole with
  | error abort final =>
      rw [ran] at stays
      exact nomatch stays
  | ok found final =>
      rw [ran] at stays
      cases found with
      | false => exact nomatch stays
      | true => exact ⟨final, rfl, stays⟩

/-- A deleted group that is still the container of a live object. -/
theorem delete_leaves_stray :
    ∃ (console final : Console), console.world.Reachable ∧
      run 40 (.delete 4096) console = .ok true final ∧
      ∃ child, final.world.registry.contains child = true ∧
        final.world.registry.group? child = some 4096 := by
  obtain ⟨final, deleted, stays⟩ := stray_stays
  exact ⟨strayConsole, final, strayConsole_reachable, deleted, 4098,
    Registry.contains_of_group? stays, stays⟩

/-- The deleted group is gone all the same, and the object was in it when it left the
registry. -/
theorem delete_leaves_box :
    ∃ final left, run 40 (.delete 4096) strayConsole = .ok true final ∧
      final.world.registry.contains 4096 = false ∧
      leave (run 39) 4096 strayConsole = .ok () left ∧
      left.world.registry.group? 4098 = some 4096 := by
  obtain ⟨final, deleted, stays⟩ := stray_stays
  obtain ⟨gone, _, _, left, leaving, inside⟩ := delete_leaves strayConsole_reachable deleted
  exact ⟨final, left, deleted, gone, leaving, ((inside 4098).mp stays).2⟩

end Eval

end ScriptConsole
