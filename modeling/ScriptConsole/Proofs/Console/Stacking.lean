import ScriptConsole.Proofs.Console.Keeping
import ScriptConsole.Proofs.Namespaces.Stacks
import ScriptConsole.Proofs.Objects.Links

/-! # Putting namespaces in front of a class

When an object is registered, namespaces are put in front of that of its class, one after
the other (`ScriptConsole.World.Stacking`). Every link that is made is held once more, and
a namespace whose link is refused is left out.
-/

namespace ScriptConsole.World

theorem bind_run {α β : Type} (first : WorldM α) (next : α → WorldM β) (world : World) :
    (first >>= next).run world = (next (first.run world).1).run (first.run world).2 :=
  rfl

/-- The registry and the namespaces of a world. -/
def tables (world : World) : Registry × Namespaces Callable :=
  (world.registry, world.spaces)

theorem plain_tables : Plain tables :=
  ⟨fun _ _ => rfl, fun _ _ => rfl⟩

/-- Namespaces that were put one in front of the other on a base. -/
structure Stacking (base : Layer) (before after : Namespaces Callable)
    (state : Layer × List Layer) : Prop where
  linked : after.Linked
  kept : ∀ layer parent, before.parent? layer = some parent → after.parent? layer = some parent
  holds : ∀ layer, after.holds layer = before.holds layer + state.2.count layer
  stack : after.IsStack base state.2
  front : state.1 = Namespaces.front base state.2
  named : state.1 ≠ .global

theorem link_run_ok {world : World} {child parent : Layer} {spaces : Namespaces Callable}
    (made : world.spaces.link child parent = .ok spaces) :
    (World.link child parent).run world = (.ok (), { world with spaces }) := by
  unfold World.link
  rw [StateT.run_bind, StateT.run_get]
  simp only [pure_bind, made]
  rfl

theorem link_run_error {world : World} {child parent : Layer} {reason : LinkError}
    (refused : world.spaces.link child parent = .error reason) :
    (World.link child parent).run world = (.error reason, world) := by
  unfold World.link
  rw [StateT.run_bind, StateT.run_get]
  simp only [pure_bind, refused]
  rfl

/-- Where its link is made, a step of the stack adds the namespace and goes on from it. -/
theorem linkStep_run_ok {world : World} {state : Layer × List Layer} {name : Symbol}
    {spaces : Namespaces Callable}
    (made : (world.spaces.create (.ofSpace name)).link (.ofSpace name) state.1 = .ok spaces)
    (id : Nat) :
    (linkStep id state name).run world =
      ((.ofSpace name, state.2 ++ [.ofSpace name]), { world with spaces }) := by
  let created : World := { world with spaces := world.spaces.create (.ofSpace name) }
  have linking : (World.link (.ofSpace name) state.1).run created =
      (.ok (), { created with spaces }) :=
    link_run_ok made
  unfold linkStep
  rw [StateT.run_bind]
  change (((World.link (.ofSpace name) state.1) >>= _).run created) = _
  rw [StateT.run_bind, linking]
  rfl

/-- Where its link is refused, a step warns and leaves the stack as it was. -/
theorem linkStep_run_error {world : World} {state : Layer × List Layer} {name : Symbol}
    {reason : LinkError}
    (refused : (world.spaces.create (.ofSpace name)).link (.ofSpace name) state.1 = .error reason)
    (id : Nat) :
    (linkStep id state name).run world =
      (state, ((warn ("cannot link namespace '" ++ name.text ++ "' for " ++ numbered id ++ ": " ++
        reason.message)).run { world with spaces := world.spaces.create (.ofSpace name) }).2) := by
  let created : World := { world with spaces := world.spaces.create (.ofSpace name) }
  have linking : (World.link (.ofSpace name) state.1).run created = (.error reason, created) :=
    link_run_error refused
  unfold linkStep
  rw [StateT.run_bind]
  change (((World.link (.ofSpace name) state.1) >>= _).run created) = _
  rw [StateT.run_bind, linking]
  rfl

theorem create_contains {ε : Type} (spaces : Namespaces ε) (layer : Layer) :
    (spaces.create layer).contains layer = true := by
  unfold Namespaces.create Namespaces.contains
  exact Std.TreeMap.contains_insertIfNew_self

namespace Stacking

variable {base : Layer} {before : Namespaces Callable} {world : World}
  {state : Layer × List Layer}

/-- Nothing is in front of the base at first. -/
theorem start (linked : before.Linked) (named : base ≠ .global) :
    Stacking base before before (base, []) where
  linked := linked
  kept := fun _ _ above => above
  holds := fun _ => rfl
  stack := List.isChain_singleton base
  front := rfl
  named := named

/-- A namespace more is put in front, or left out. -/
theorem step (stacking : Stacking base before world.spaces state) (id : Nat) (name : Symbol) :
    ((linkStep id state name).run world).2.registry = world.registry ∧
      Stacking base before ((linkStep id state name).run world).2.spaces
        ((linkStep id state name).run world).1 := by
  have parents := world.spaces.parent?_create (.ofSpace name)
  have holds := world.spaces.holds_create (.ofSpace name)
  have created : (world.spaces.create (.ofSpace name)).Linked :=
    stacking.linked.of_same parents holds
  cases made : (world.spaces.create (.ofSpace name)).link (.ofSpace name) state.1 with
  | error reason =>
      rw [linkStep_run_error made id]
      obtain ⟨registry, spaces⟩ := Prod.mk.inj (plain_tables.warn _ _)
      refine ⟨registry, ?_⟩
      rw [spaces]
      refine ⟨created, ?_, ?_, ?_, stacking.front, stacking.named⟩
      · intro layer parent above
        rw [parents]
        exact stacking.kept layer parent above
      · intro layer
        rw [holds]
        exact stacking.holds layer
      · refine stacking.stack.of_kept fun layer _ parent above => ?_
        rw [parents, above]
  | ok spaces =>
      rw [linkStep_run_ok made id]
      obtain ⟨sound, own, kept, more⟩ :=
        Namespaces.link_views created (create_contains _ _) stacking.named made
      have still (layer parent : Layer) (above : world.spaces.parent? layer = some parent) :
          spaces.parent? layer = some parent :=
        kept layer parent ((parents layer).trans above)
      refine ⟨rfl, sound, ?_, ?_, ?_, ?_, ?_⟩
      · intro layer parent above
        exact still layer parent (stacking.kept layer parent above)
      · intro layer
        rw [more, holds, stacking.holds, List.count_append]
        exact Nat.add_assoc _ _ _
      · refine Namespaces.isStack_append.mpr ⟨?_, ?_⟩
        · exact stacking.stack.of_kept fun layer _ => still layer
        · rw [own, stacking.front]
      · exact (Namespaces.front_append base state.2 _).symm
      · exact Namespaces.ofSpace_ne_global name

/-- A whole row of namespaces is put in front of a base. -/
theorem steps (stacking : Stacking base before world.spaces state) (id : Nat)
    (names : List Symbol) :
    ((names.foldlM (linkStep id) state).run world).2.registry = world.registry ∧
      Stacking base before ((names.foldlM (linkStep id) state).run world).2.spaces
        ((names.foldlM (linkStep id) state).run world).1 := by
  induction names generalizing world state with
  | nil => exact ⟨rfl, stacking⟩
  | cons name names ih =>
      obtain ⟨registry, first⟩ := stacking.step id name
      obtain ⟨rest, later⟩ := ih first
      rw [List.foldlM_cons, StateT.run_bind]
      exact ⟨rest.trans registry, later⟩

end Stacking

/-- Linking the namespaces of an object puts a stack in front of the one of its class and
notes it in the object. -/
theorem linkObject_run {world : World} {id : Nat} {object : Object}
    (found : world.registry.get? id = some object) (sound : world.spaces.Linked) :
    ∃ layer linked,
      Stacking object.info.layer world.spaces ((linkObject id).run world).2.spaces
          (layer, linked) ∧
        ((linkObject id).run world).2.registry =
          world.registry.update id fun object => { object with layer, linked } := by
  have named : object.info.layer ≠ .global := Namespaces.ofSpace_ne_global object.info.name
  obtain ⟨registry, spaces⟩ := Prod.mk.inj (plain_tables.linkNames object world)
  have start : Stacking object.info.layer world.spaces ((linkNames object).run world).2.spaces
      (object.info.layer, []) := by
    rw [spaces]
    exact .start sound named
  obtain ⟨same, stacking⟩ := start.steps id ((linkNames object).run world).1
  unfold linkObject
  rw [StateT.run_bind, StateT.run_get]
  simp only [pure_bind, found, bind_run]
  refine ⟨_, _, stacking, ?_⟩
  rw [← registry, ← same]
  rfl

/-- Registering an object enters it into the registry, under the symbol of its name, and then
links its namespaces. -/
theorem enter_run (draft : Draft) (name : String) (world : World) :
    ∃ symbol between, symbol = ((internNonempty name).run world).1 ∧
      tables between = ((world.registry.register draft symbol).2, world.spaces) ∧
      between.symbols = ((internNonempty name).run world).2.symbols ∧
      (enter draft name).run world =
        ((world.registry.register draft symbol).1.1,
          ((linkObject (world.registry.register draft symbol).1.1).run between).2) := by
  have kept := plain_tables.internNonempty name world
  rcases named : (internNonempty name).run world with ⟨symbol, interned⟩
  rw [named] at kept
  obtain ⟨registry, spaces⟩ := Prod.mk.inj kept
  unfold enter
  simp only [bind_run, named, ← registry, ← spaces]
  split
  · cases symbol with
    | none =>
        refine ⟨none, _, rfl, ?_, ?_, rfl⟩
        · rfl
        · rfl
    | some symbol =>
        refine ⟨some symbol, _, rfl, ?_, ?_, rfl⟩
        · exact plain_tables.warn _ _
        · exact warn_symbols _ _
  · refine ⟨symbol, _, rfl, ?_, ?_, rfl⟩
    · rfl
    · rfl

/-- A registered object is the draft with a number and the namespaces that were put in
front of its class. -/
theorem enter_views {world : World} (sound : world.spaces.Linked) (draft : Draft)
    (name : String) :
    ∃ id layer linked object, object.links = (draft.object.info.layer, layer, linked) ∧
      world.registry.links? id = none ∧
      ((enter draft name).run world).2.registry.get? id = some object ∧
      (∀ other, id ≠ other →
        ((enter draft name).run world).2.registry.links? other = world.registry.links? other) ∧
      Stacking draft.object.info.layer world.spaces ((enter draft name).run world).2.spaces
        (layer, linked) := by
  obtain ⟨symbol, between, _, same, _, ran⟩ := enter_run draft name world
  obtain ⟨registered, spaces⟩ := Prod.mk.inj same
  let id := (world.registry.register draft symbol).1.1
  have own := world.registry.get?_register draft symbol id
  rw [if_pos rfl, ← registered] at own
  obtain ⟨layer, linked, stacking, noted⟩ := linkObject_run own (spaces ▸ sound)
  rw [spaces] at stacking
  rw [ran, noted, registered]
  refine ⟨id, layer, linked,
    { draft.object with id, name := world.registry.givenName symbol, layer, linked }, rfl,
    world.registry.links?_free draft symbol, ?_, ?_, stacking⟩
  · rw [Registry.get?_update, if_pos rfl, ← registered, own]
    rfl
  · intro other different
    unfold Registry.links?
    rw [Registry.get?_update, if_neg different]
    exact world.registry.links?_register draft symbol different

end ScriptConsole.World
