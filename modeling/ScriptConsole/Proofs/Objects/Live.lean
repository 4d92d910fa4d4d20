import ScriptConsole.Console.Objects
import ScriptConsole.Proofs.Objects.Views

/-! # Objects that come and go

A new object gets a number that no live object has
(`ScriptConsole.Registry.not_contains_freeFrom`), so that registering it replaces nothing.
Removing an object takes it off the children of its container and leaves other objects
as they are.
-/

namespace ScriptConsole.Registry

section Allocation

/-- If no free number is found, all numbers that were tried are taken. -/
private theorem taken_of_contains_freeFrom {objects : Std.TreeMap Nat Object} {steps first : Nat}
    (taken : objects.contains (freeFrom objects steps first) = true) :
    ∀ id ∈ List.range' first steps, id ∈ objects.keys := by
  induction steps generalizing first with
  | zero => exact fun id member => absurd member List.not_mem_nil
  | succ steps ih =>
      rw [freeFrom] at taken
      split at taken
      next present =>
        intro id member
        rw [List.range'_succ, List.mem_cons] at member
        rcases member with rfl | later
        · exact Std.TreeMap.mem_keys.mpr (Std.TreeMap.contains_iff_mem.mp present)
        · exact ih taken id later
      next free => exact absurd taken free

/-- With more steps than there are objects, a free number is found. -/
theorem not_contains_freeFrom {objects : Std.TreeMap Nat Object} {steps : Nat}
    (enough : objects.size < steps) (first : Nat) :
    objects.contains (freeFrom objects steps first) = false := by
  rw [Bool.eq_false_iff]
  intro taken
  have within : List.range' first steps ⊆ objects.keys :=
    fun id member => taken_of_contains_freeFrom taken id member
  have fits := (List.subperm_of_subset List.nodup_range' within).length_le
  rw [List.length_range', Std.TreeMap.length_keys] at fits
  omega

/-- A number for a new object is free, and choosing it changes a counter alone. -/
theorem allocate_views (registry : Registry) (isDatablock : Bool) :
    registry.contains (registry.allocate isDatablock).1 = false ∧
      (registry.allocate isDatablock).2.objects = registry.objects ∧
      (registry.allocate isDatablock).2.names = registry.names ∧
      (registry.allocate isDatablock).2.classes = registry.classes := by
  unfold allocate
  have free := fun first => not_contains_freeFrom (Nat.lt_succ_self registry.objects.size) first
  cases isDatablock with
  | true => exact ⟨free registry.nextDatablock, rfl, rfl, rfl⟩
  | false => exact ⟨free registry.nextObject, rfl, rfl, rfl⟩

end Allocation

/-- The number of a new object was free. -/
theorem not_contains_register (registry : Registry) (draft : Draft) (name : Option Symbol) :
    registry.contains (registry.register draft name).1.1 = false :=
  (registry.allocate_views draft.object.info.isDatablock).1

/-- The name that a new object gets: the one that is asked for, unless it is taken. -/
def givenName (registry : Registry) (name : Option Symbol) : Option Symbol :=
  if name.any registry.names.contains then none else name

theorem contains_names (registry : Registry) (name : Symbol) :
    registry.names.contains name = (registry.findName? name).isSome := by
  unfold findName?
  exact Std.TreeMap.contains_eq_isSome_getElem?

/-- A name that is given was asked for, and it was free. -/
theorem givenName_eq_some {registry : Registry} {name : Option Symbol} {symbol : Symbol}
    (given : registry.givenName name = some symbol) :
    name = some symbol ∧ registry.findName? symbol = none := by
  unfold givenName at given
  split at given
  next => contradiction
  next untaken =>
    rw [given, Option.any_some, contains_names] at untaken
    exact ⟨given, Option.not_isSome_iff_eq_none.mp untaken⟩

/-- A name that is free is given. -/
theorem givenName_of_free {registry : Registry} {name : Option Symbol}
    (free : ∀ symbol, name = some symbol → registry.findName? symbol = none) :
    registry.givenName name = name := by
  refine if_neg fun taken => ?_
  obtain ⟨symbol, asked, there⟩ := (Option.any_eq_true _ _).mp taken
  rw [contains_names, free symbol asked] at there
  contradiction

/-- A registered object is the draft with its number and, if that was free, its name. -/
theorem get?_register (registry : Registry) (draft : Draft) (name : Option Symbol) (other : Nat) :
    (registry.register draft name).2.get? other =
      if (registry.register draft name).1.1 = other then
        some
          { draft.object with
            id := (registry.register draft name).1.1
            name := registry.givenName name }
      else registry.get? other := by
  obtain ⟨_, objects, names, _⟩ := registry.allocate_views draft.object.info.isDatablock
  unfold register get? givenName
  simp only [Std.TreeMap.getElem?_insert, Std.compare_eq_iff_eq, objects, names]

/-- The name that a new object gets leads to it. -/
theorem findName?_register (registry : Registry) (draft : Draft) (name : Option Symbol)
    (symbol : Symbol) :
    (registry.register draft name).2.findName? symbol =
      if registry.givenName name = some symbol then some (registry.register draft name).1.1
      else registry.findName? symbol := by
  obtain ⟨_, _, names, _⟩ := registry.allocate_views draft.object.info.isDatablock
  unfold register findName?
  simp only [names]
  change (Option.elim (registry.givenName name) _ _)[symbol]? = _
  cases registry.givenName name with
  | none => simp only [Option.elim_none, reduceCtorEq, ↓reduceIte]
  | some given =>
      simp only [Option.elim_some, Std.TreeMap.getElem?_insert, Std.compare_eq_iff_eq,
        Option.some.injEq]

/-- A registered object has no ties, and those of the other objects stay. -/
theorem register_views (registry : Registry) (draft : Draft) (name : Option Symbol) :
    ∃ id, registry.contains id = false ∧
      (∀ other, (registry.register draft name).2.contains other =
        (decide (id = other) || registry.contains other)) ∧
      (∀ other, (registry.register draft name).2.group? other = registry.group? other) ∧
      (∀ other, (registry.register draft name).2.children other = registry.children other) ∧
      ∀ other, id ≠ other →
        (registry.register draft name).2.isContainer other = registry.isContainer other := by
  have free := registry.not_contains_register draft name
  have absent := get?_of_not_contains free
  refine ⟨(registry.register draft name).1.1, free, ?_, ?_, ?_, ?_⟩
  · intro other
    rw [contains_eq, contains_eq, get?_register]
    by_cases same : (registry.register draft name).1.1 = other
    · simp only [same, ↓reduceIte, Option.isSome_some, decide_true, Bool.true_or]
    · simp only [same, ↓reduceIte, decide_false, Bool.false_or]
  · intro other
    unfold group?
    rw [get?_register]
    split
    next same => rw [← same, absent, Option.bind_some, draft.group_eq, Option.bind_none]
    next => rfl
  · intro other
    unfold children
    rw [get?_register]
    split
    next same =>
      rw [← same, absent, Option.map_some, Option.getD_some, draft.children_eq, Option.map_none,
        Option.getD_none]
    next => rfl
  · intro other different
    unfold isContainer
    rw [get?_register]
    simp only [different, ↓reduceIte]

/-- Renaming changes at most the name of one object. -/
theorem get?_rename (registry : Registry) (id : Nat) (name : Option Symbol) (other : Nat) :
    ∃ change : Object → Object, (∀ object, (change object).info = object.info ∧
        (change object).layer = object.layer ∧ (change object).group = object.group ∧
        (change object).children = object.children) ∧
      (registry.rename id name).2.get? other = (registry.get? other).map change := by
  have unchanged : ∃ change : Object → Object, (∀ object, (change object).info = object.info ∧
      (change object).layer = object.layer ∧ (change object).group = object.group ∧
      (change object).children = object.children) ∧
      registry.get? other = (registry.get? other).map change :=
    ⟨fun object => object, fun object => ⟨rfl, rfl, rfl, rfl⟩, by rw [Option.map_id']⟩
  unfold rename
  split
  next => exact unchanged
  next =>
    split
    next => exact unchanged
    next object found =>
      by_cases same : id = other
      · refine ⟨fun object => { object with name }, fun object => ⟨rfl, rfl, rfl, rfl⟩, ?_⟩
        rw [← same, found]
        unfold get?
        rw [Std.TreeMap.getElem?_insert_self]
        rfl
      · obtain ⟨change, kept, equal⟩ := unchanged
        refine ⟨change, kept, ?_⟩
        rw [← equal]
        unfold get?
        rw [Std.TreeMap.getElem?_insert]
        simp only [Std.compare_eq_iff_eq, same, ↓reduceIte]

/-- Changes of single objects that keep class, container and children keep all ties. -/
theorem sameTies_of_map {registry other : Registry}
    (changed : ∀ id, ∃ change : Object → Object, (∀ object, (change object).info = object.info ∧
        (change object).group = object.group ∧ (change object).children = object.children) ∧
      other.get? id = (registry.get? id).map change) : SameTies registry other := by
  refine ⟨?_, ?_, ?_, ?_⟩ <;> intro id <;> obtain ⟨change, kept, equal⟩ := changed id
  · rw [contains_eq, contains_eq, equal, Option.isSome_map]
  · unfold group?
    rw [equal]
    cases registry.get? id with
    | none => rfl
    | some object => exact (kept object).2.1
  · unfold children
    rw [equal]
    cases registry.get? id with
    | none => rfl
    | some object => exact (kept object).2.2
  · unfold isContainer
    rw [equal]
    cases registry.get? id with
    | none => rfl
    | some object => exact congrArg ClassInfo.isContainer (kept object).1

/-- Renaming keeps all ties. -/
theorem sameTies_rename (registry : Registry) (id : Nat) (name : Option Symbol) :
    SameTies registry (registry.rename id name).2 := by
  apply sameTies_of_map
  intro other
  obtain ⟨change, kept, equal⟩ := registry.get?_rename id name other
  exact ⟨change, fun object => ⟨(kept object).1, (kept object).2.2⟩, equal⟩

/-- The registry after an object left it and its container. -/
def removed (registry : Registry) (id : Nat) : Registry :=
  match registry.get? id with
  | none => registry
  | some object =>
    object.group.elim (registry.deregister id).2 fun group =>
      (registry.deregister id).2.forget group id

theorem removed_of_none {registry : Registry} {id : Nat} (absent : registry.get? id = none) :
    registry.removed id = registry := by
  unfold removed
  rw [absent]

theorem removed_of_some {registry : Registry} {id : Nat} {object : Object}
    (present : registry.get? id = some object) :
    registry.removed id =
      object.group.elim (registry.deregister id).2 fun group =>
        (registry.deregister id).2.forget group id := by
  unfold removed
  rw [present]

/-- Deregistering takes out one object and changes no other. -/
theorem get?_deregister (registry : Registry) (id other : Nat) :
    (registry.deregister id).2.get? other = if id = other then none else registry.get? other := by
  unfold deregister
  split
  next absent =>
    split
    next same => rw [← same, absent]
    next => rfl
  next object found =>
    unfold get?
    simp only [Std.TreeMap.getElem?_erase, Std.compare_eq_iff_eq]

theorem deregister_fst (registry : Registry) (id : Nat) :
    (registry.deregister id).1 = registry.get? id := by
  unfold deregister
  split
  next absent => exact absent.symm
  next object found => exact found.symm

/-- A removed object is gone, and its container loses it as a child. -/
theorem get?_removed (registry : Registry) (id other : Nat) :
    (registry.removed id).get? other =
      if id = other then none
      else if registry.group? id = some other then
        (registry.get? other).map fun object =>
          { object with children := object.children.filter (· ≠ id) }
      else registry.get? other := by
  cases present : registry.get? id with
  | none =>
      rw [removed_of_none present]
      unfold group?
      rw [present]
      simp only [Option.bind_none, reduceCtorEq, ↓reduceIte]
      split
      next same => rw [← same, present]
      next => rfl
  | some object =>
      have without := registry.get?_deregister id other
      rw [group?_of_get? present, removed_of_some present]
      cases object.group with
      | none => simp only [Option.elim_none, without, reduceCtorEq, ↓reduceIte]
      | some group =>
          unfold forget
          simp only [Option.elim_some, get?_update, without, Option.some.injEq]
          by_cases gone : id = other
          · simp only [gone, ↓reduceIte, Option.map_none, ite_self]
          · simp only [gone, ↓reduceIte]

theorem names_removed {registry : Registry} {id : Nat} {object : Object}
    (present : registry.get? id = some object) :
    (registry.removed id).names = (registry.deregister id).2.names := by
  rw [removed_of_some present]
  cases object.group <;> rfl

/-- A removed object takes its name along, and no name leads to it any more. -/
theorem findName?_removed {registry : Registry} {id owner : Nat} {object : Object} {name : Symbol}
    (present : registry.get? id = some object)
    (found : (registry.removed id).findName? name = some owner) :
    registry.findName? name = some owner ∧ (object.name = some name → owner ≠ id) := by
  unfold findName? at found ⊢
  rw [names_removed present] at found
  unfold deregister at found
  rw [present] at found
  simp only at found
  cases own : object.name with
  | none =>
      rw [own] at found
      exact ⟨found, fun absurd => nomatch absurd⟩
  | some symbol =>
      rw [own] at found
      simp only at found
      split at found
      next leads =>
        rw [Std.TreeMap.getElem?_erase] at found
        simp only [Std.compare_eq_iff_eq] at found
        split at found
        · contradiction
        next different =>
          refine ⟨found, fun same => ?_⟩
          exact (different (Option.some.inj same)).elim
      next elsewhere =>
        refine ⟨found, fun same => ?_⟩
        rintro rfl
        exact elsewhere (Option.some.inj same ▸ found)

theorem contains_removed (registry : Registry) (id other : Nat) :
    (registry.removed id).contains other = (!decide (id = other) && registry.contains other) := by
  rw [contains_eq, get?_removed, contains_eq]
  by_cases same : id = other
  · simp only [same, ↓reduceIte, Option.isSome_none, decide_true, Bool.not_true, Bool.false_and]
  · simp only [same, ↓reduceIte, decide_false, Bool.not_false, Bool.true_and]
    split
    · rw [Option.isSome_map]
    · rfl

theorem group?_removed (registry : Registry) (id other : Nat) :
    (registry.removed id).group? other = if id = other then none else registry.group? other := by
  unfold group?
  rw [get?_removed]
  split
  · rfl
  · split
    · cases registry.get? other <;> rfl
    · rfl

/-- A removed object has no children any more and is taken from the list of its container. -/
theorem children_removed (registry : Registry) (id other : Nat) :
    (registry.removed id).children other =
      if id = other then []
      else if registry.group? id = some other then (registry.children other).filter (· ≠ id)
      else registry.children other := by
  unfold children
  rw [get?_removed]
  split
  · rfl
  · split
    · cases registry.get? other <;> rfl
    · rfl

/-- An object that was removed is listed nowhere. -/
theorem mem_children_removed {registry : Registry} (listed : registry.Listed)
    (id group other : Nat) :
    other ∈ (registry.removed id).children group ↔
      other ∈ registry.children group ∧ id ≠ group ∧ id ≠ other := by
  rw [children_removed]
  by_cases own : id = group
  · simp only [own, ↓reduceIte, List.not_mem_nil, ne_eq, not_true_eq_false, false_and, and_false]
  · simp only [own, ↓reduceIte, ne_eq, not_false_eq_true, true_and]
    split
    next inside =>
      rw [List.mem_filter, decide_eq_true_eq, eq_comm]
    next outside =>
      constructor
      · intro member
        refine ⟨member, ?_⟩
        rintro rfl
        exact outside (listed group id member)
      · exact fun both => both.1

theorem isContainer_removed (registry : Registry) {id other : Nat} (different : id ≠ other) :
    (registry.removed id).isContainer other = registry.isContainer other := by
  unfold isContainer
  rw [get?_removed]
  simp only [different, ↓reduceIte]
  split
  · cases registry.get? other <;> rfl
  · rfl

end ScriptConsole.Registry

namespace ScriptConsole.World

/-- Removing an object changes the registry and the namespaces that the object held. -/
theorem remove_run (world : World) (id : Nat) :
    ((remove id).run world).2 =
      { world with
        registry := world.registry.removed id
        spaces := ((world.registry.get? id).elim [] fun object => object.linked).foldl
          Namespaces.unlink world.spaces } := by
  have first := world.registry.deregister_fst id
  unfold remove Registry.removed
  rw [StateT.run_bind, StateT.run_get]
  rcases equal : world.registry.deregister id with ⟨_ | object, rest⟩
  · rw [equal] at first
    simp only [pure_bind, equal, ← first]
    rfl
  · rw [equal] at first
    simp only [pure_bind, equal, ← first]
    rfl

/-- Putting an object into a container replaces the registry or is refused, and then
changes nothing. -/
theorem addChild_run (world : World) (container child : Nat) :
    (addChild container child).run world =
      match world.registry.addChild container child with
      | .ok registry => (.ok (), { world with registry })
      | .error reason => (.error reason, world) := by
  unfold addChild
  rw [StateT.run_bind, StateT.run_get]
  simp only [pure_bind]
  cases world.registry.addChild container child <;> rfl

section Writing

variable {world : World} {id : Nat} {object changed : Object} {name : String}
  {index : Option String} {value : Value}

/-- A write that an object refuses leaves the world as it is. -/
theorem setField_run_error (live : world.registry.get? id = some object) {reason : SetFieldError}
    (refused : object.setField name index value = .error reason) :
    (setField id name index value).run world = (.error reason, world) := by
  unfold setField
  rw [StateT.run_bind, StateT.run_get]
  simp only [pure_bind, live, refused]
  rfl

/-- A write that an object accepts replaces it. -/
theorem setField_run_ok (live : world.registry.get? id = some object)
    (written : object.setField name index value = .ok changed) :
    (setField id name index value).run world =
      (.ok (), { world with registry := world.registry.update id fun _ => changed }) := by
  unfold setField
  rw [StateT.run_bind, StateT.run_get]
  simp only [pure_bind, live, written]
  rfl

/-- Writing a field is refused and changes nothing, or it replaces a live object that accepts the
value. -/
theorem setField_cases (world : World) (id : Nat) (name : String) (index : Option String)
    (value : Value) :
    (∃ reason, (setField id name index value).run world = (.error reason, world)) ∨
      ∃ object changed, world.registry.get? id = some object ∧
        object.setField name index value = .ok changed ∧
        (setField id name index value).run world =
          (.ok (), { world with registry := world.registry.update id fun _ => changed }) := by
  cases live : world.registry.get? id with
  | none =>
      refine .inl ⟨.unknownObject, ?_⟩
      unfold setField
      rw [StateT.run_bind, StateT.run_get]
      simp only [pure_bind, live]
      rfl
  | some object =>
      cases written : object.setField name index value with
      | error reason => exact .inl ⟨reason, setField_run_error live written⟩
      | ok changed => exact .inr ⟨object, changed, rfl, written, setField_run_ok live written⟩

end Writing

end ScriptConsole.World
