import ScriptConsole.Proofs.Console.Keeping
import ScriptConsole.Proofs.Objects.Live

/-! # Soundness of registries

In every world that comes about, what is listed as a child is in the container that lists
it, and a name leads to the live object that has it (`ScriptConsole.World.Reachable.sound`).
The converse of the first fails: an object may be in a container that does not list it.
-/

namespace ScriptConsole

namespace Registry

/-- What holds of the children and the names of every registry. -/
structure Sound (registry : Registry) : Prop where
  listed : registry.Listed
  named : ∀ name id, registry.findName? name = some id →
    ∃ object, registry.get? id = some object ∧ object.name = some name

/-- Two registries have the same names and objects, apart from fields and namespaces. -/
structure Resembles (registry other : Registry) : Prop where
  names : other.names = registry.names
  objects : ∀ id, ∃ change : Object → Object, (∀ object, (change object).info = object.info ∧
      (change object).group = object.group ∧ (change object).children = object.children ∧
      (change object).name = object.name) ∧
    other.get? id = (registry.get? id).map change

theorem Resembles.refl (registry : Registry) : Resembles registry registry :=
  ⟨rfl, fun _ => ⟨fun object => object, fun _ => ⟨rfl, rfl, rfl, rfl⟩, by rw [Option.map_id']⟩⟩

theorem Resembles.sameTies {registry other : Registry} (resembles : Resembles registry other) :
    SameTies registry other := by
  apply sameTies_of_map
  intro id
  obtain ⟨change, kept, equal⟩ := resembles.objects id
  exact ⟨change, fun object => ⟨(kept object).1, (kept object).2.1, (kept object).2.2.1⟩, equal⟩

theorem resembles_update {change : Object → Object}
    (kept : ∀ object, (change object).info = object.info ∧ (change object).group = object.group ∧
      (change object).children = object.children ∧ (change object).name = object.name)
    (registry : Registry) (id : Nat) : Resembles registry (registry.update id change) := by
  refine ⟨rfl, ?_⟩
  intro other
  rw [get?_update]
  split
  · exact ⟨change, kept, rfl⟩
  · exact (Resembles.refl registry).objects other

/-- An object that is replaced by one that differs in fields and namespaces alone. -/
theorem resembles_replace {registry : Registry} {id : Nat} {object changed : Object}
    (found : registry.get? id = some object) (info : changed.info = object.info)
    (group : changed.group = object.group) (children : changed.children = object.children)
    (name : changed.name = object.name) :
    Resembles registry (registry.update id fun _ => changed) := by
  refine ⟨rfl, ?_⟩
  intro other
  rw [get?_update]
  split
  next same =>
    subst same
    refine ⟨fun before => { changed with
      info := before.info, group := before.group, children := before.children,
      name := before.name }, fun before => ⟨rfl, rfl, rfl, rfl⟩, ?_⟩
    rw [found, Option.map_some, Option.map_some]
    cases changed
    simp only at info group children name
    rw [← info, ← group, ← children, ← name]
  next => exact (Resembles.refl registry).objects other

namespace Sound

variable {registry : Registry}

/-- The new registry is sound. -/
theorem of_empty (firstObject firstDatablock : Nat) :
    Sound (.empty firstObject firstDatablock) := by
  have nothing (id : Nat) : (Registry.empty firstObject firstDatablock).contains id = false := rfl
  refine ⟨?_, ?_⟩
  · intro group child member
    rw [children_of_not_contains (nothing group)] at member
    contradiction
  · intro name id found
    exact nomatch found

/-- What resembles a sound registry is sound. -/
theorem of_resembles {other : Registry} (sound : Sound registry)
    (resembles : Resembles registry other) : Sound other := by
  have ties := resembles.sameTies
  refine ⟨?_, ?_⟩
  · intro group child member
    rw [ties.children] at member
    rw [ties.group?]
    exact sound.listed group child member
  · intro name id found
    unfold findName? at found
    rw [resembles.names] at found
    obtain ⟨object, live, own⟩ := sound.named name id found
    obtain ⟨change, kept, equal⟩ := resembles.objects id
    refine ⟨change object, ?_, ?_⟩
    · rw [equal, live, Option.map_some]
    · rw [(kept object).2.2.2, own]

/-- A registered object is in no list and takes a name only if no other object has it. -/
theorem register (sound : Sound registry) (draft : Draft) (name : Option Symbol) :
    Sound (registry.register draft name).2 := by
  refine ⟨?_, ?_⟩
  · obtain ⟨id, _, _, groups, children, _⟩ := registry.register_views draft name
    intro group child member
    rw [children] at member
    rw [groups]
    exact sound.listed group child member
  · have free := registry.not_contains_register draft name
    intro symbol owner found
    rw [findName?_register] at found
    rw [get?_register]
    split at found
    next given =>
      obtain rfl := Option.some.inj found
      exact ⟨_, if_pos rfl, given⟩
    next =>
      obtain ⟨object, live, own⟩ := sound.named symbol owner found
      have other : (registry.register draft name).1.1 ≠ owner := by
        rintro rfl
        rw [contains_of_get? live] at free
        contradiction
      exact ⟨object, (if_neg other).trans live, own⟩

/-- A name that is left when another one is freed leads to where it led. -/
private theorem found_of_freed {names : Std.TreeMap Symbol Nat} {old : Option Symbol}
    {name : Symbol} {id : Nat} (found : (old.elim names names.erase)[name]? = some id) :
    names[name]? = some id ∧ old ≠ some name := by
  cases old with
  | none => exact ⟨found, fun absurd => nomatch absurd⟩
  | some freed =>
      rw [Option.elim_some, Std.TreeMap.getElem?_erase] at found
      simp only [Std.compare_eq_iff_eq] at found
      split at found
      · contradiction
      next different => exact ⟨found, fun same => different (Option.some.inj same)⟩

/-- Renaming frees the old name, so that no name leads to an object that lost it. -/
theorem rename (sound : Sound registry) (id : Nat) (name : Option Symbol) :
    Sound (registry.rename id name).2 := by
  have ties := registry.sameTies_rename id name
  refine ⟨?_, ?_⟩
  · intro group child member
    rw [ties.children] at member
    rw [ties.group?]
    exact sound.listed group child member
  · intro symbol owner found
    unfold Registry.rename at found ⊢
    cases taken : name.bind registry.findName? with
    | some other =>
        simp only [taken] at found ⊢
        exact sound.named symbol owner found
    | none =>
        cases live : registry.get? id with
        | none =>
            simp only [taken, live] at found ⊢
            exact sound.named symbol owner found
        | some object =>
            simp only [taken, live, findName?] at found
            simp only [get?, Std.TreeMap.getElem?_insert, Std.compare_eq_iff_eq]
            -- A name that stays led to an object whose name stays, so not to this one.
            have kept (stays : (object.name.elim registry.names registry.names.erase)[symbol]? =
                some owner) : ∃ left, (if id = owner then some { object with name }
                  else registry.objects[owner]?) = some left ∧ left.name = some symbol := by
              obtain ⟨before, freed⟩ := found_of_freed stays
              obtain ⟨other, present, own⟩ := sound.named symbol owner before
              have different : id ≠ owner := by
                rintro rfl
                rw [live] at present
                exact freed (Option.some.inj present ▸ own)
              exact ⟨other, (if_neg different).trans present, own⟩
            cases name with
            | none => exact kept found
            | some given =>
                rw [Option.elim_some, Std.TreeMap.getElem?_insert] at found
                simp only [Std.compare_eq_iff_eq] at found
                split at found
                next same =>
                  obtain rfl := Option.some.inj found
                  exact ⟨_, if_pos rfl, congrArg some same⟩
                next => exact kept found

/-- Taking an object out of its container takes it from the list and from its group together, and
leaves the names. -/
theorem detach (sound : Sound registry) (child : Nat) : Sound (registry.detach child) := by
  refine ⟨?_, ?_⟩
  · intro group other member
    obtain ⟨before, different⟩ := (mem_children_detach sound.listed child group other).mp member
    rw [group?_detach, if_neg different.symm]
    exact sound.listed group other before
  · intro name id found
    unfold findName? at found
    rw [names_detach] at found
    obtain ⟨object, live, own⟩ := sound.named name id found
    obtain ⟨change, kept, equal⟩ := registry.get?_detach child id
    exact ⟨change object, by rw [equal, live, Option.map_some], (kept object).2.2.1.trans own⟩

/-- An object is taken out of its old container before it is listed in the new one, so each list
tells the truth. -/
theorem addChild (sound : Sound registry) {added : Registry} {container child : Nat}
    (put : registry.addChild container child = .ok added) : Sound added := by
  refine ⟨?_, ?_⟩
  · obtain ⟨_, _, _, kinds⟩ := addChild_cases put
    rcases kinds with ⟨_, rfl⟩ | ⟨outside, _⟩
    · exact sound.listed
    intro group other member
    obtain ⟨_, _, groups, _⟩ := addChild_views put outside other
    obtain ⟨_, _, _, children⟩ := addChild_views put outside group
    rw [children] at member
    rw [groups]
    split at member
    next holder =>
      subst holder
      rw [List.mem_append, List.mem_singleton] at member
      rcases member with before | rfl
      · have inside := sound.listed container other before
        split
        · rfl
        · exact inside
      · exact if_pos rfl
    next =>
      obtain ⟨before, different⟩ := (mem_children_detach sound.listed child group other).mp member
      rw [if_neg different.symm]
      exact sound.listed group other before
  · obtain ⟨names, objects⟩ := addChild_names put
    intro name id found
    unfold findName? at found
    rw [names] at found
    obtain ⟨object, live, own⟩ := sound.named name id found
    obtain ⟨change, kept, equal⟩ := objects id
    exact ⟨change object, by rw [equal, live, Option.map_some], (kept object).trans own⟩

/-- A removed object is in no list, and no name leads to it. -/
theorem removed (sound : Sound registry) (id : Nat) : Sound (registry.removed id) := by
  refine ⟨?_, ?_⟩
  · intro group child member
    obtain ⟨before, _, different⟩ := (mem_children_removed sound.listed id group child).mp member
    rw [group?_removed, if_neg different]
    exact sound.listed group child before
  · intro name owner found
    cases present : registry.get? id with
    | none =>
        rw [removed_of_none present] at found ⊢
        exact sound.named name owner found
    | some object =>
        obtain ⟨before, gone⟩ := findName?_removed present found
        obtain ⟨other, live, own⟩ := sound.named name owner before
        have different : id ≠ owner := by
          rintro rfl
          rw [present] at live
          obtain rfl := Option.some.inj live
          exact gone own rfl
        rw [get?_removed, if_neg different, live]
        split
        · exact ⟨_, rfl, own⟩
        · exact ⟨other, rfl, own⟩

end Sound

/-- All operations on registries keep a property. -/
structure Kept (property : Registry → Prop) : Prop where
  resembles {registry other : Registry} :
    registry.Resembles other → property registry → property other
  register {registry : Registry} (draft : Draft) (name : Option Symbol) :
    property registry → property (registry.register draft name).2
  rename {registry : Registry} (id : Nat) (name : Option Symbol) :
    property registry → property (registry.rename id name).2
  detach {registry : Registry} (child : Nat) : property registry → property (registry.detach child)
  addChild {registry added : Registry} {container child : Nat} :
    registry.addChild container child = .ok added → property registry → property added
  removed {registry : Registry} (id : Nat) : property registry → property (registry.removed id)

theorem kept_sound : Kept Sound where
  resembles resembles sound := sound.of_resembles resembles
  register draft name sound := sound.register draft name
  rename id name sound := sound.rename id name
  detach child sound := sound.detach child
  addChild put sound := sound.addChild put
  removed id sound := sound.removed id

end Registry

namespace World

/-- The objects and their names. -/
def contents (world : World) : Std.TreeMap Nat Object × Std.TreeMap Symbol Nat :=
  (world.registry.objects, world.registry.names)

theorem apart_contents : Apart contents :=
  ⟨⟨fun _ _ => rfl, fun _ _ => rfl⟩, fun _ _ => rfl⟩

/-- Registries with the same objects and names resemble each other. -/
theorem resembles_of_contents {world after : World} (same : contents after = contents world) :
    world.registry.Resembles after.registry := by
  obtain ⟨objects, names⟩ := Prod.mk.inj same
  refine ⟨names, fun id => ?_⟩
  obtain ⟨change, kept, equal⟩ := (Registry.Resembles.refl world.registry).objects id
  refine ⟨change, kept, equal ▸ ?_⟩
  unfold Registry.get?
  rw [objects]

section Kept

variable {property : Registry → Prop}

private theorem kept_enter (kept : Registry.Kept property) (draft : Draft) (name : String) :
    Preserves (fun world => property world.registry) (enter draft name) := by
  refine preserves_enter apart_contents ?_ draft ?_ ?_ name
  · exact fun world after same => kept.resembles (resembles_of_contents same)
  · exact fun world symbol holds => kept.register draft symbol holds
  · intro world id layer linked holds
    refine kept.resembles (Registry.resembles_update ?_ world.registry id) holds
    exact fun object => ⟨rfl, rfl, rfl, rfl⟩

/-- Every basic change keeps what all operations on registries keep. -/
theorem Basic.kept (kept : Registry.Kept property) {α : Type} {change : WorldM α}
    (basic : Basic change) : Preserves (fun world => property world.registry) change := by
  have apart {α : Type} {change : WorldM α} (keeps : Keeps contents change) :
      Preserves (fun world => property world.registry) change :=
    .of_keeps keeps fun _ _ same => kept.resembles (resembles_of_contents same)
  cases basic with
  | say text => exact apart (apart_contents.record _)
  | warn text => exact apart (apart_contents.warn text)
  | linkNamespaces child parent => exact apart (apart_contents.links.linkNamespaces child parent)
  | registerClass spec => exact apart (apart_contents.links.registerClass spec fun _ _ _ => rfl)
  | enter draft name => exact kept_enter kept draft name
  | remove id =>
      intro world holds
      rw [remove_run]
      exact kept.removed id holds
  | setField id field index value =>
      intro world holds
      rcases setField_cases world id field index value with
        ⟨reason, ran⟩ | ⟨object, changed, found, written, ran⟩
      · rw [ran]
        exact holds
      · obtain ⟨persistent, dynamic, rfl⟩ := Object.setField_eq written
        rw [ran]
        exact kept.resembles (Registry.resembles_replace found rfl rfl rfl rfl) holds
  | copyFields id source =>
      intro world holds
      refine kept.resembles (Registry.resembles_update ?_ world.registry id) holds
      intro object
      obtain ⟨persistent, dynamic, copied⟩ := object.copyFieldsFrom_eq source.object
      rw [copied]
      exact ⟨rfl, rfl, rfl, rfl⟩
  | rename id name =>
      refine .bind (apart (apart_contents.internNonempty name)) fun symbol => ?_
      exact .reading fun world holds => kept.rename id symbol holds
  | addChild container child =>
      intro world holds
      rw [addChild_run]
      cases put : world.registry.addChild container child with
      | ok added => exact kept.addChild put holds
      | error reason => exact holds
  | detach child => exact fun world holds => kept.detach child holds
  | _ => exact fun world holds => holds

end Kept

/-- A world that comes about from that of a new console. -/
def Reachable (world : World) : Prop :=
  ∃ config serial, (World.new config serial).Evolves world

namespace Reachable

theorem new (config : Config) (serial : Nat) : Reachable (.new config serial) :=
  ⟨config, serial, .refl⟩

theorem evolves {world after : World} (reachable : Reachable world)
    (evolves : world.Evolves after) : Reachable after := by
  obtain ⟨config, serial, before⟩ := reachable
  exact ⟨config, serial, before.trans evolves⟩

/-- What holds of the new registry and is kept by all operations holds in every world that
comes about. -/
theorem kept {property : Registry → Prop} {world : World} (reachable : Reachable world)
    (kept : Registry.Kept property)
    (empty : ∀ firstObject firstDatablock, property (.empty firstObject firstDatablock)) :
    property world.registry := by
  obtain ⟨config, serial, evolves⟩ := reachable
  have history : (World.bare config serial).Evolves world :=
    (built_registerLibrary.evolves (.bare config serial)).trans evolves
  clear evolves
  induction history with
  | refl => exact empty _ _
  | tail _ step ih =>
      obtain ⟨_, change, basic, rfl⟩ := step
      exact basic.kept kept _ ih

/-- In every world that comes about the registry is sound. -/
theorem sound {world : World} (reachable : Reachable world) : world.registry.Sound :=
  reachable.kept Registry.kept_sound Registry.Sound.of_empty

end Reachable

end World

end ScriptConsole
