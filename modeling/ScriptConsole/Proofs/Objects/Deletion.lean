import ScriptConsole.Proofs.Eval.Results
import ScriptConsole.Proofs.Namespaces.Fewer
import ScriptConsole.Proofs.Objects.Forest

/-! # Deletion without scripts

If neither an object nor anything that goes with it has a function `onRemove`, deleting
it runs no scripts. It then only takes objects, children and links away
(`ScriptConsole.World.Shrinks`), so a forest stays one
(`ScriptConsole.Eval.run_delete_of_quiet`).
-/

namespace ScriptConsole

/-- An object is deleted together with another one. -/
def Registry.Takes (registry : Registry) (group child : Nat) : Prop :=
  ∃ object, registry.get? group = some object ∧ object.info.deletesChildren = true ∧
    child ∈ object.children

namespace World

/-- Neither an object nor anything that goes with it has a function `onRemove`. -/
def Quiet (world : World) (id : Nat) : Prop :=
  ∀ member, Relation.ReflTransGen world.registry.Takes id member →
    world.methodOf? member "onRemove" = none

/-- A world has nothing but what another one has: objects may be gone, and with them
children and links. -/
structure Shrinks (world after : World) : Prop where
  symbols : after.symbols = world.symbols
  spaces : world.spaces.Fewer after.spaces
  objects : ∀ id left, after.registry.get? id = some left →
    ∃ object, world.registry.get? id = some object ∧ left.info = object.info ∧
      left.layer = object.layer ∧ left.children ⊆ object.children

namespace Shrinks

variable {world between after : World}

theorem refl (world : World) : Shrinks world world :=
  ⟨rfl, .refl world.spaces, fun _ left found => ⟨left, found, rfl, rfl, List.Subset.refl _⟩⟩

theorem trans (first : Shrinks world between) (second : Shrinks between after) :
    Shrinks world after := by
  refine ⟨second.symbols.trans first.symbols, first.spaces.trans second.spaces, ?_⟩
  intro id left found
  obtain ⟨middle, foundMiddle, info, layer, children⟩ := second.objects id left found
  obtain ⟨object, foundFirst, infoFirst, layerFirst, childrenFirst⟩ :=
    first.objects id middle foundMiddle
  exact ⟨object, foundFirst, info.trans infoFirst, layer.trans layerFirst,
    fun _ member => childrenFirst (children member)⟩

theorem detach (world : World) (child : Nat) :
    Shrinks world ((World.detach child).run world).2 := by
  refine ⟨rfl, .refl world.spaces, ?_⟩
  intro id left found
  obtain ⟨change, kept, equal⟩ := world.registry.get?_detach child id
  obtain ⟨object, before, rfl⟩ := Option.map_eq_some_iff.mp (equal.symm.trans found)
  exact ⟨object, before, (kept object).1, (kept object).2.1, (kept object).2.2.2⟩

/-- What removing an object does to the world takes objects, links and names away and brings none
in. -/
theorem remove (world : World) (id : Nat) : Shrinks world ((World.remove id).run world).2 := by
  rw [remove_run]
  refine ⟨rfl, .foldl_unlink _ world.spaces, ?_⟩
  intro other left found
  simp only [Registry.get?_removed] at found
  split at found
  · contradiction
  · split at found
    · obtain ⟨object, before, rfl⟩ := Option.map_eq_some_iff.mp found
      exact ⟨object, before, rfl, rfl, List.filter_sublist.subset⟩
    · exact ⟨left, found, rfl, rfl, List.Subset.refl _⟩

/-- Objects have no functions that they did not have. -/
theorem methodOf?_eq_none (shrinks : Shrinks world after) {id : Nat} {name : String}
    (nothing : world.methodOf? id name = none) : after.methodOf? id name = none := by
  unfold methodOf? at nothing ⊢
  cases found : after.registry.get? id with
  | none => rfl
  | some left =>
      obtain ⟨object, before, _, layer, _⟩ := shrinks.objects id left found
      rw [before, Option.bind_some] at nothing
      rw [Option.bind_some, shrinks.symbols, layer]
      cases symbol : world.symbols.find? name with
      | none => rfl
      | some symbol' =>
          rw [symbol] at nothing
          exact shrinks.spaces.resolve?_eq_none nothing

/-- Nothing goes with an object that did not go with it. -/
theorem takes (shrinks : Shrinks world after) {group child : Nat}
    (taken : after.registry.Takes group child) : world.registry.Takes group child := by
  obtain ⟨left, found, deletes, listed⟩ := taken
  obtain ⟨object, before, info, _, children⟩ := shrinks.objects group left found
  exact ⟨object, before, info ▸ deletes, children listed⟩

theorem quiet (shrinks : Shrinks world after) {id : Nat} (quiet : world.Quiet id) :
    after.Quiet id := by
  intro member reached
  have fewer : after.registry.Takes ≤ world.registry.Takes := fun _ _ => shrinks.takes
  exact shrinks.methodOf?_eq_none
    (quiet member (Relation.ReflTransGen.mono fewer id member reached))

theorem children (shrinks : Shrinks world after) (id : Nat) :
    after.registry.children id ⊆ world.registry.children id := by
  intro child listed
  obtain ⟨left, found⟩ := Registry.get?_of_contains (Registry.contains_of_mem_children listed)
  obtain ⟨object, before, _, _, children⟩ := shrinks.objects id left found
  rw [Registry.children_of_get? found] at listed
  rw [Registry.children_of_get? before]
  exact children listed

/-- What is in no container is put into none. -/
theorem group? (shrinks : Shrinks world after) (before : world.registry.Forest)
    (forest : after.registry.Forest) {id : Nat} (outside : world.registry.group? id = none) :
    after.registry.group? id = none := by
  cases inside : after.registry.group? id with
  | none => rfl
  | some group =>
      have listed := shrinks.children group ((forest.listed group id).mpr inside)
      rw [before.listed, outside] at listed
      contradiction

end Shrinks

end World

namespace Eval

/-- Deletion of an object, as far as it runs no scripts, keeps the forest. -/
structure Cleared (console final : Console) : Prop where
  forest : final.world.registry.Forest
  shrinks : console.world.Shrinks final.world

/-- The children that an object loses before it is deleted end in no container. -/
private theorem releaseChildren_cleared {ev : Evaluator}
    (inner : ∀ {child console final found}, console.world.registry.Forest →
      console.world.Quiet child → ev (.delete child) console = .ok found final →
      Cleared console final ∧ final.world.registry.contains child = false)
    {deletes : Bool} {children : List Nat} {console final : Console}
    (forest : console.world.registry.Forest)
    (quiet : deletes = true → ∀ child ∈ children, console.world.Quiet child)
    (released : releaseChildren ev deletes children console = .ok () final) :
    Cleared console final ∧ ∀ child ∈ children, final.world.registry.group? child = none := by
  induction children generalizing console with
  | nil =>
      obtain ⟨_, rfl⟩ := pure_ok_iff.mp released
      exact ⟨⟨forest, .refl console.world⟩, fun child member => absurd member List.not_mem_nil⟩
  | cons child children ih =>
      rw [releaseChildren_cons] at released
      obtain ⟨_, between, first, rest⟩ := bind_ok_iff.mp released
      have step : Cleared console between ∧ between.world.registry.group? child = none := by
        cases deletes with
        | true =>
            obtain ⟨found, deleted⟩ := discard_ok_iff.mp first
            obtain ⟨cleared, dead⟩ :=
              inner forest (quiet rfl child List.mem_cons_self) deleted
            exact ⟨cleared, Registry.group?_of_not_contains dead⟩
        | false =>
            obtain ⟨_, rfl⟩ := EStateM.Result.ok.inj first
            refine ⟨⟨forest.detach child, .detach console.world child⟩, ?_⟩
            exact (console.world.registry.group?_detach child child).trans (if_pos rfl)
      obtain ⟨⟨forestBetween, shrinks⟩, outside⟩ := step
      obtain ⟨⟨forestFinal, shrinksRest⟩, outsideRest⟩ :=
        ih forestBetween
          (fun deletes other member =>
            shrinks.quiet (quiet deletes other (List.mem_cons_of_mem child member))) rest
      refine ⟨⟨forestFinal, shrinks.trans shrinksRest⟩, ?_⟩
      intro other member
      rcases List.mem_cons.mp member with rfl | later
      · exact shrinksRest.group? forestBetween forestFinal outside
      · exact outsideRest other later

/-- What leaves the registry quietly contains nothing any more. -/
private theorem leave_cleared {ev : Evaluator}
    (inner : ∀ {child console final found}, console.world.registry.Forest →
      console.world.Quiet child → ev (.delete child) console = .ok found final →
      Cleared console final ∧ final.world.registry.contains child = false)
    {id : Nat} {console final : Console} (forest : console.world.registry.Forest)
    (quiet : console.world.Quiet id) (left : leave ev id console = .ok () final) :
    Cleared console final ∧ final.world.registry.children id = [] := by
  obtain ⟨_, told, notified, rest⟩ := bind_ok_iff.mp left
  rw [notify_silent console (quiet id .refl) ev] at notified
  obtain rfl := (EStateM.Result.ok.inj notified).2.symm
  obtain ⟨before, between, read, rest⟩ := bind_ok_iff.mp rest
  obtain ⟨rfl, rfl⟩ := EStateM.Result.ok.inj read
  cases present : told.world.registry.get? id with
  | none =>
      simp only [present] at rest
      obtain ⟨_, rfl⟩ := pure_ok_iff.mp rest
      refine ⟨⟨forest, .refl told.world⟩, Registry.children_of_not_contains ?_⟩
      rw [Registry.contains_eq, present, Option.isSome_none]
  | some object =>
      simp only [present] at rest
      have members : told.world.registry.children id = object.children :=
        Registry.children_of_get? present
      obtain ⟨⟨forestFinal, shrinks⟩, outside⟩ := releaseChildren_cleared inner forest
        (fun deletes child member => fun other reached =>
          quiet other (.head ⟨object, present, deletes, member⟩ reached)) rest
      refine ⟨⟨forestFinal, shrinks⟩, List.eq_nil_iff_forall_not_mem.mpr ?_⟩
      intro child listed
      have before := shrinks.children id listed
      rw [members] at before
      rw [forestFinal.listed, outside child before] at listed
      contradiction

/-- Deleting an object that neither has a function `onRemove` nor takes anything along
that has one keeps the forest, and the object is gone. -/
theorem run_delete_of_quiet (bound : Nat) {id : Nat} {console final : Console} {found : Bool}
    (forest : console.world.registry.Forest) (quiet : console.world.Quiet id)
    (deleted : run bound (.delete id) console = .ok found final) :
    Cleared console final ∧ final.world.registry.contains id = false := by
  induction bound generalizing id console final found with
  | zero => contradiction
  | succ bound ih =>
      obtain ⟨live, dead, gone⟩ := deleteObject_ok deleted
      cases found with
      | false =>
          rw [dead rfl]
          exact ⟨⟨forest, .refl console.world⟩, live⟩
      | true =>
          obtain ⟨left, before, rfl⟩ := gone rfl
          obtain ⟨⟨forestLeft, shrinks⟩, childless⟩ := leave_cleared ih forest quiet before
          refine ⟨⟨?_, shrinks.trans (.remove left.world id)⟩, ?_⟩
          · rw [World.remove_run]
            exact forestLeft.removed childless
          · rw [World.remove_run, Registry.contains_removed, decide_eq_true rfl]
            rfl

end Eval

end ScriptConsole
