import ScriptConsole.Proofs.Console.Attachment
import ScriptConsole.Proofs.Objects.Pruning
import ScriptConsole.Proofs.Objects.Tidy

/-! # What a deletion takes away

If nothing that goes with an object has a function `onRemove`, deleting the object comes to an
end, and exactly what goes with it is gone afterwards, with the links that it held
(`ScriptConsole.Eval.run_delete_pruned`). What this leaves of the other objects, of names and of
namespaces is said by `ScriptConsole.World.Deletion`.
-/

namespace ScriptConsole

namespace World

/-- A world is another one without some objects and the links that these held. -/
structure Pruned (world : World) (gone : List Nat) (after : World) : Prop where
  registry : world.registry.Pruned gone after.registry
  spaces : after.spaces =
    (gone.flatMap world.registry.linked).foldl Namespaces.unlink world.spaces
  rest : after = { world with registry := after.registry, spaces := after.spaces }

/-- A world with a sound forest that has nothing but what a base has. -/
structure Within (base world : World) : Prop where
  shrinks : base.Shrinks world
  forest : world.registry.Forest
  sound : world.registry.Sound

variable {base world between after : World} {gone later : List Nat}

namespace Pruned

theorem refl (world : World) : Pruned world [] world :=
  ⟨.refl world.registry, rfl, rfl⟩

/-- First some objects go and then others, which had not gone before. -/
theorem trans (first : Pruned world gone between) (second : Pruned between later after)
    (apart : ∀ id ∈ later, id ∉ gone) : Pruned world (gone ++ later) after := by
  refine ⟨first.registry.trans second.registry, ?_, ?_⟩
  · have same : later.flatMap between.registry.linked = later.flatMap world.registry.linked := by
      rw [List.flatMap_congr fun id member => first.registry.linked (apart id member)]
    rw [second.spaces, first.spaces, same, List.flatMap_append, List.foldl_append]
  · rw [second.rest, first.rest]

theorem shrinks (pruned : Pruned world gone after) : world.Shrinks after := by
  refine ⟨by rw [pruned.rest], pruned.spaces ▸ .foldl_unlink _ world.spaces, ?_⟩
  intro id left found
  rw [pruned.registry.objects] at found
  split at found
  · contradiction
  · obtain ⟨object, present, rfl⟩ := Option.map_eq_some_iff.mp found
    exact ⟨object, present, rfl, rfl, List.filter_sublist.subset⟩

theorem within (pruned : Pruned world gone after) (within : Within base world) :
    Within base after :=
  ⟨within.shrinks.trans pruned.shrinks, pruned.registry.forest within.forest,
    pruned.registry.sound within.forest within.sound⟩

/-- A live object that contains nothing is removed alone. -/
theorem removed (forest : world.registry.Forest) (sound : world.registry.Sound) {id : Nat}
    (live : world.registry.contains id = true) (childless : world.registry.children id = []) :
    Pruned world [id] ((World.remove id).run world).2 := by
  obtain ⟨object, present⟩ := Registry.get?_of_contains live
  rw [remove_run]
  refine ⟨Registry.pruned_removed forest sound live childless, ?_, rfl⟩
  rw [List.flatMap_singleton, Registry.linked_of_get? present, present, Option.elim_some]

/-- A live object is removed alone if its children are taken out of it before. -/
theorem released (forest : world.registry.Forest) (sound : world.registry.Sound) {id : Nat}
    {object : Object} (present : world.registry.get? id = some object) :
    Pruned world [id] ((World.remove id).run
      { world with registry := object.children.foldl Registry.detach world.registry }).2 := by
  have left := Registry.get?_foldl_detach forest.lists object.children id
  rw [present, Option.map_some] at left
  rw [remove_run]
  refine ⟨?_, ?_, rfl⟩
  · rw [← Registry.children_of_get? present]
    exact Registry.pruned_released forest sound (Registry.contains_of_get? present)
  · rw [List.flatMap_singleton, Registry.linked_of_get? present, left, Option.elim_some]
    rfl

end Pruned

/-- What is left of a world when a deletion removed some objects. -/
structure Deletion (world : World) (removed : List Nat) (after : World) : Prop where
  gone : ∀ id ∈ removed,
    world.registry.contains id = true ∧ after.registry.contains id = false
  /-- What is in a removed container that keeps its children stays and is in none. -/
  released : ∀ group ∈ removed, ∀ object, world.registry.get? group = some object →
    object.info.deletesChildren = false → ∀ child ∈ object.children,
    after.registry.contains child = true ∧ after.registry.group? child = none
  /-- The other objects keep all but containers and children that were removed. -/
  kept : ∀ id ∉ removed, ∀ object, world.registry.get? id = some object →
    after.registry.get? id = some
      { object with
        group := object.group.filter (· ∉ removed)
        children := object.children.filter (· ∉ removed) }
  added : ∀ id, after.registry.contains id = true → world.registry.contains id = true
  freed : ∀ id ∈ removed, ∀ object name, world.registry.get? id = some object →
    object.name = some name → after.registry.findName? name = none
  named : ∀ name, (∀ id ∈ removed, world.registry.findName? name ≠ some id) →
    after.registry.findName? name = world.registry.findName? name
  /-- A link is held less often by as much as the removed objects held it. -/
  holds : ∀ layer, after.spaces.holds layer + (removed.flatMap world.registry.linked).count layer =
    world.spaces.holds layer
  parents : ∀ layer, after.spaces.parent? layer =
    if after.spaces.holds layer = 0 then none else world.spaces.parent? layer
  spaces : world.spaces.Fewer after.spaces
  numbers : after.registry.rest = world.registry.rest
  rest : after = { world with registry := after.registry, spaces := after.spaces }

/-- What a container keeps does not go with anything that its container goes with. -/
private theorem not_taken_of_kept (forest : world.registry.Forest) {id group child : Nat}
    {object : Object} (reached : Relation.ReflTransGen world.registry.Takes id group)
    (present : world.registry.get? group = some object)
    (keeps : object.info.deletesChildren = false) (member : child ∈ object.children) :
    ¬ Relation.ReflTransGen world.registry.Takes id child := by
  have inside := forest.lists group child (Registry.children_of_get? present ▸ member)
  intro taken
  rcases Relation.ReflTransGen.cases_tail taken with rfl | ⟨holder, _, last⟩
  · have up := Registry.Extent.leads_of_reached forest.lists reached
    exact forest.acyclic _ (.head' inside up)
  · have same := Registry.Extent.leads_of_takes forest.lists last
    obtain rfl : holder = group := Option.some.inj (same.symm.trans inside)
    obtain ⟨twin, found, deletes, _⟩ := last
    rw [present] at found
    rw [← Option.some.inj found, keeps] at deletes
    contradiction

/-- What is left when exactly what goes with an object is gone. -/
theorem Pruned.deletion (reachable : world.Reachable) (forest : world.registry.Forest) {id : Nat}
    (live : world.registry.contains id = true) (extent : world.registry.Extent [id] gone)
    (pruned : world.Pruned gone after) : world.Deletion gone after := by
  have objects := pruned.registry.objects
  obtain ⟨made, history⟩ := reachable.history
  have held := history.held
  obtain ⟨linked, holds, parents⟩ := held.linked.foldl_unlink (gone.flatMap world.registry.linked)
  rw [← pruned.spaces] at linked holds parents
  constructor
  case gone =>
    intro other member
    refine ⟨extent.live other member, ?_⟩
    rw [pruned.registry.contains, decide_eq_false (not_not_intro member)]
    rfl
  case released =>
    intro group member object present keeps child listed
    have reached := (extent.mem_iff live group).mp member
    have stays : child ∉ gone := by
      rw [extent.mem_iff live]
      exact not_taken_of_kept forest reached present keeps listed
    have inside := forest.lists group child (Registry.children_of_get? present ▸ listed)
    refine ⟨pruned.registry.live_iff.mpr ⟨stays, Registry.contains_of_group? inside⟩, ?_⟩
    rw [pruned.registry.group?, if_neg stays, inside, filter_gone member]
  case kept =>
    intro other stays object present
    rw [objects, if_neg stays, present]
    rfl
  case added =>
    exact fun other left => (pruned.registry.live_iff.mp left).2
  case freed =>
    intro other member object name present named
    rw [pruned.registry.names, reachable.tidy.owned other object name present named,
      filter_gone member]
  case named =>
    intro name elsewhere
    rw [pruned.registry.names]
    exact filter_not_gone fun owner leads member => elsewhere owner member leads
  case holds =>
    intro layer
    have most := Registry.count_flatMap_le_occurrences extent.nodup extent.live layer
    rw [holds, held.counted]
    omega
  case parents =>
    intro layer
    split
    next none =>
      rw [← Option.not_isSome_iff_eq_none, linked.held, none]
      exact Nat.lt_irrefl 0
    next some =>
      refine parents layer ?_
      rw [holds] at some
      omega
  case spaces => exact pruned.spaces ▸ .foldl_unlink _ world.spaces
  case numbers => exact pruned.registry.rest
  case rest => exact pruned.rest

end World

namespace Eval

variable {ev : Evaluator} {console : Console}

/-- Deleting what is not live does nothing. -/
theorem deleteObject_dead {id : Nat} (dead : console.world.registry.contains id = false) :
    deleteObject ev id console = .ok false console := by
  refine bind_ok_iff.mpr ⟨console.world, console, rfl, ?_⟩
  simp only [dead, Bool.not_false, ↓reduceIte]
  rfl

/-- A live object without a function `onRemove` is removed once its children are released. -/
theorem deleteObject_live {id : Nat} {object : Object} {left : World}
    (silent : console.world.methodOf? id "onRemove" = none)
    (present : console.world.registry.get? id = some object)
    (released : releaseChildren ev object.info.deletesChildren object.children console =
      .ok () { console with world := left }) :
    deleteObject ev id console =
      .ok true { console with world := ((World.remove id).run left).2 } := by
  refine bind_ok_iff.mpr ⟨console.world, console, rfl, ?_⟩
  simp only [Registry.contains_of_get? present, Bool.not_true, Bool.false_eq_true, ↓reduceIte]
  refine bind_ok_iff.mpr ⟨(), console, notify_silent console silent ev, ?_⟩
  refine bind_ok_iff.mpr ⟨console.world, console, rfl, ?_⟩
  simp only [present]
  refine bind_ok_iff.mpr ⟨(), { console with world := left }, released, ?_⟩
  exact bind_ok_iff.mpr ⟨(), _, rfl, rfl⟩

/-- Children that are let go are taken out of their container and stay. -/
theorem releaseChildren_keeps (children : List Nat) (console : Console) :
    releaseChildren ev false children console = .ok () { console with world :=
      { console.world with
        registry := children.foldl Registry.detach console.world.registry } } := by
  induction children generalizing console with
  | nil => rfl
  | cons child children ih =>
      rw [releaseChildren_cons]
      exact bind_ok_iff.mpr ⟨(), _, rfl, ih _⟩

/-- Children that are deleted go one after the other, each with what goes with it. -/
private theorem releaseChildren_deletes {base : World} {children : List Nat} (console : Console)
    (inner : ∀ child ∈ children, ∀ console : Console, base.Within console.world →
      ∃ gone after, ev (.delete child) console =
          .ok (console.world.registry.contains child) { console with world := after } ∧
        console.world.registry.Extent [child] gone ∧ console.world.Pruned gone after)
    (within : base.Within console.world) :
    ∃ gone after,
      releaseChildren ev true children console = .ok () { console with world := after } ∧
      console.world.registry.Extent children gone ∧ console.world.Pruned gone after := by
  induction children generalizing console with
  | nil => exact ⟨[], console.world, rfl, .nil console.world.registry, .refl console.world⟩
  | cons child children ih =>
      obtain ⟨gone, between, deleted, extent, pruned⟩ :=
        inner child List.mem_cons_self console within
      obtain ⟨later, after, released, rest, prunedRest⟩ :=
        ih { console with world := between }
          (fun other among => inner other (List.mem_cons_of_mem child among)) (pruned.within within)
      refine ⟨gone ++ later, after, ?_, extent.cons pruned.registry rest,
        pruned.trans prunedRest ?_⟩
      · rw [releaseChildren_cons]
        exact bind_ok_iff.mpr ⟨(), _, discard_ok_iff.mpr ⟨_, deleted⟩, released⟩
      · exact fun id member => pruned.registry.live_iff.mp (rest.live id member) |>.1

/-- If nothing that goes with an object has a function `onRemove`, deleting it comes to an end,
and exactly what goes with it is gone. The bound only has to allow for as many nested deletions as
there can be objects below this one. -/
theorem run_delete_pruned (bound : Nat) {base : World} {id : Nat} {console : Console}
    (tree : base.registry.Treelike) (quiet : base.Quiet id)
    (enough : base.registry.size + 1 < bound + (base.registry.holders id).length)
    (within : base.Within console.world) :
    ∃ gone after, run bound (.delete id) console =
        .ok (console.world.registry.contains id) { console with world := after } ∧
      console.world.registry.Extent [id] gone ∧ console.world.Pruned gone after := by
  induction bound generalizing id console with
  | zero =>
      have most := length_walk_le base.registry.group? (base.registry.size + 1) id
      unfold Registry.holders at enough
      omega
  | succ bound ih =>
      cases present : console.world.registry.get? id with
      | none =>
          have dead : console.world.registry.contains id = false := by
            rw [Registry.contains_eq, present, Option.isSome_none]
          refine ⟨[], console.world, ?_, .of_not_live dead, .refl console.world⟩
          rw [dead]
          exact deleteObject_dead dead
      | some object =>
          have live := Registry.contains_of_get? present
          have silent := within.shrinks.quiet quiet id .refl
          rw [live]
          cases deletes : object.info.deletesChildren with
          | false =>
              have kept : releaseChildren (run bound) false object.children console = _ :=
                releaseChildren_keeps object.children console
              refine ⟨[id], _, deleteObject_live silent present (deletes ▸ kept),
                .of_kept present deletes, .released within.forest within.sound present⟩
          | true =>
              have inner : ∀ child ∈ object.children, ∀ console : Console,
                  base.Within console.world →
                  ∃ gone after, run bound (.delete child) console =
                      .ok (console.world.registry.contains child) { console with world := after } ∧
                    console.world.registry.Extent [child] gone ∧
                    console.world.Pruned gone after := by
                intro child member other inside
                have taken : base.registry.Takes id child :=
                  within.shrinks.takes ⟨object, present, deletes, member⟩
                refine ih (fun below reached => quiet below (.head taken reached)) ?_ inside
                rw [tree.holders_child (Registry.Extent.leads_of_takes tree.listed taken),
                  List.length_cons]
                omega
              obtain ⟨gone, between, released, extent, pruned⟩ :=
                releaseChildren_deletes console inner within
              have stays := extent.not_mem_of_children within.forest.treelike present
              have left := pruned.within within
              have liveLeft : between.registry.contains id = true := by
                rw [pruned.registry.contains, live, decide_eq_true stays]
                rfl
              have childless : between.registry.children id = [] := by
                rw [pruned.registry.children, if_neg stays, Registry.children_of_get? present]
                refine filter_all_gone fun child member => ?_
                have inside := (within.forest.listed id child).mp
                  (Registry.children_of_get? present ▸ member)
                exact extent.included child member (Registry.contains_of_group? inside)
              refine ⟨gone ++ [id], _, deleteObject_live silent present (deletes ▸ released),
                .of_children within.forest.treelike present deletes extent,
                pruned.trans (.removed left.forest left.sound liveLeft childless) ?_⟩
              exact fun other own => List.mem_singleton.mp own ▸ stays

/-- In a console whose objects form a forest, deleting an object of which nothing that goes with
it has a function `onRemove` comes to an end. Exactly the objects that go with it are removed, and
nothing changes but what they were to others. Deleting what is not live changes nothing. -/
theorem deletion_exact (reachable : console.world.Reachable)
    (forest : console.world.registry.Forest) (id : Nat) :
    (console.world.registry.contains id = false →
      ∀ bound, run (bound + 1) (.delete id) console = .ok false console) ∧
    (console.world.registry.contains id = true → console.world.Quiet id →
      ∀ bound, console.world.registry.size < bound →
      ∃ removed after, run bound (.delete id) console = .ok true { console with world := after } ∧
        removed.Nodup ∧
        (∀ other, other ∈ removed ↔ Relation.ReflTransGen console.world.registry.Takes id other) ∧
        console.world.Deletion removed after) := by
  refine ⟨fun dead bound => deleteObject_dead dead, fun live quiet bound enough => ?_⟩
  have own : 0 < (console.world.registry.holders id).length := by
    unfold Registry.holders walk
    exact Nat.zero_lt_succ _
  obtain ⟨removed, after, deleted, extent, pruned⟩ :=
    run_delete_pruned bound forest.treelike quiet (by omega)
      ⟨.refl console.world, forest, reachable.sound⟩
  exact ⟨removed, after, live ▸ deleted, extent.nodup, extent.mem_iff live,
    pruned.deletion reachable forest live extent⟩

/-- A group with a set in it that has an object in it. -/
def boxSource : String :=
  "new SimGroup(Box) \x7b new SimSet(Tray) \x7b new ScriptObject(Pen) \x7b class = \"Item\"; " ++
    "\x7d; \x7d; \x7d;"

/-- A new console that ran the source. -/
@[irreducible] def boxConsole : Console :=
  ended (perform (run 40) (.evaluate boxSource) (.new {} 0))

private theorem boxConsole_reachable : boxConsole.world.Reachable := by
  unfold boxConsole
  exact .perform (.console {} 0) 40 (.evaluate boxSource)

/-- Whether every object in a container is listed there. -/
private def listsAll (registry : Registry) : Bool :=
  registry.objects.keys.all fun child =>
    (registry.group? child).all fun group => (registry.children group).contains child

/-- Whether an object deletes its children, and these. -/
private def ties? (registry : Registry) (id : Nat) : Option (Bool × List Nat) :=
  (registry.get? id).map fun object => (object.info.deletesChildren, object.children)

private theorem boxConsole_facts :
    listsAll boxConsole.world.registry = true ∧
      boxConsole.world.symbols.find? "onRemove" = none ∧
      ties? boxConsole.world.registry 4096 = some (true, [4097]) ∧
      ties? boxConsole.world.registry 4097 = some (false, [4098]) ∧
      boxConsole.world.registry.size = 3 := by
  decide +kernel

private theorem boxConsole_forest : boxConsole.world.registry.Forest := by
  have listed : ∀ group child, boxConsole.world.registry.group? child = some group →
      child ∈ boxConsole.world.registry.children group := by
    intro group child inside
    have live := Registry.mem_keys_of_group? _ child (Option.isSome_of_eq_some inside)
    have here := List.all_eq_true.mp boxConsole_facts.1 child live
    rw [inside, Option.all_some, List.contains_iff_mem] at here
    exact here
  exact .of_treelike boxConsole_reachable.tidy.toTreelike listed
    fun child group inside => Registry.contains_of_mem_children (listed group child inside)

private theorem boxConsole_quiet (id : Nat) : boxConsole.world.Quiet id := by
  intro member _
  unfold World.methodOf?
  rw [boxConsole_facts.2.1]
  cases boxConsole.world.registry.get? member <;> rfl

/-- The set goes with the group, and the object in it stays and is in no container. -/
theorem deletion_exact_box :
    ∃ (removed : List Nat) (after : World), run 4 (.delete 4096) boxConsole =
        .ok true { boxConsole with world := after } ∧
      4096 ∈ removed ∧ 4097 ∈ removed ∧
      boxConsole.world.registry.group? 4098 = some 4097 ∧
      after.registry.contains 4098 = true ∧ after.registry.group? 4098 = none := by
  obtain ⟨_, _, ofBox, ofTray, size⟩ := boxConsole_facts
  obtain ⟨box, boxLive, boxTies⟩ := Option.map_eq_some_iff.mp ofBox
  obtain ⟨tray, trayLive, trayTies⟩ := Option.map_eq_some_iff.mp ofTray
  obtain ⟨deletes, inBox⟩ := Prod.mk.inj boxTies
  obtain ⟨keeps, inTray⟩ := Prod.mk.inj trayTies
  obtain ⟨_, deletion⟩ := deletion_exact boxConsole_reachable boxConsole_forest 4096
  obtain ⟨removed, after, deleted, _, goes, effect⟩ :=
    deletion (Registry.contains_of_get? boxLive) (boxConsole_quiet 4096) 4 (by omega)
  have taken : boxConsole.world.registry.Takes 4096 4097 :=
    ⟨box, boxLive, deletes, inBox ▸ List.mem_cons_self⟩
  have gone := (goes 4097).mpr (.single taken)
  have pen : 4098 ∈ tray.children := inTray ▸ List.mem_cons_self
  obtain ⟨stays, free⟩ := effect.released 4097 gone tray trayLive keeps 4098 pen
  have inside := boxConsole_forest.lists 4097 4098 (Registry.children_of_get? trayLive ▸ pen)
  exact ⟨removed, after, deleted, (goes 4096).mpr .refl, gone, inside, stays, free⟩

end Eval

end ScriptConsole
