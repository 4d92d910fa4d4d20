import Mathlib.Data.List.Perm.Subperm
import ScriptConsole.Object.Registry

/-! # What changes of a registry change

A registry is seen through which objects are live, what contains them, and what they
contain. Operations on containers change nothing else, and all other operations leave
these alone (`ScriptConsole.Registry.SameTies`) or add an object without ties.
-/

namespace ScriptConsole.Registry

/-- The children of an object; a number that is not live has none. -/
def children (registry : Registry) (id : Nat) : List Nat :=
  ((registry.get? id).map fun object => object.children).getD []

/-- Whether a number is that of a live object of a container class. -/
def isContainer (registry : Registry) (id : Nat) : Bool :=
  (registry.get? id).any fun object => object.info.isContainer

/-- Two registries have the same live objects with the same containers and children. -/
structure SameTies (registry other : Registry) : Prop where
  contains : ∀ id, other.contains id = registry.contains id
  group? : ∀ id, other.group? id = registry.group? id
  children : ∀ id, other.children id = registry.children id
  isContainer : ∀ id, other.isContainer id = registry.isContainer id

variable {registry : Registry}

theorem contains_eq (registry : Registry) (id : Nat) :
    registry.contains id = (registry.get? id).isSome := by
  unfold contains get?
  exact Std.TreeMap.contains_eq_isSome_getElem?

theorem contains_of_get? {id : Nat} {object : Object} (found : registry.get? id = some object) :
    registry.contains id = true := by
  rw [contains_eq, found, Option.isSome_some]

theorem get?_of_contains {id : Nat} (live : registry.contains id = true) :
    ∃ object, registry.get? id = some object := by
  rw [contains_eq] at live
  exact Option.isSome_iff_exists.mp live

theorem get?_of_not_contains {id : Nat} (dead : registry.contains id = false) :
    registry.get? id = none := by
  rw [contains_eq] at dead
  exact Option.not_isSome_iff_eq_none.mp (Bool.eq_false_iff.mp dead)

/-- Only live objects are in a container. -/
theorem contains_of_group? {id group : Nat} (inside : registry.group? id = some group) :
    registry.contains id = true := by
  unfold group? at inside
  rw [contains_eq]
  cases found : registry.get? id with
  | none => simp only [found, Option.bind_none, reduceCtorEq] at inside
  | some object => rfl

/-- Only live objects have children. -/
theorem contains_of_mem_children {id child : Nat} (listed : child ∈ registry.children id) :
    registry.contains id = true := by
  unfold children at listed
  rw [contains_eq]
  cases found : registry.get? id with
  | none => simp only [found, Option.map_none, Option.getD_none, List.not_mem_nil] at listed
  | some object => rfl

theorem group?_of_get? {id : Nat} {object : Object} (found : registry.get? id = some object) :
    registry.group? id = object.group := by
  unfold group?
  rw [found, Option.bind_some]

theorem children_of_get? {id : Nat} {object : Object} (found : registry.get? id = some object) :
    registry.children id = object.children := by
  unfold children
  rw [found, Option.map_some, Option.getD_some]

theorem isContainer_of_get? {id : Nat} {object : Object}
    (found : registry.get? id = some object) :
    registry.isContainer id = object.info.isContainer := by
  unfold isContainer
  rw [found, Option.any_some]

theorem children_of_not_contains {id : Nat} (dead : registry.contains id = false) :
    registry.children id = [] := by
  unfold children
  rw [get?_of_not_contains dead, Option.map_none, Option.getD_none]

theorem group?_of_not_contains {id : Nat} (dead : registry.contains id = false) :
    registry.group? id = none := by
  unfold group?
  rw [get?_of_not_contains dead, Option.bind_none]

section Update

theorem get?_update (registry : Registry) (id other : Nat) (change : Object → Object) :
    (registry.update id change).get? other =
      if id = other then (registry.get? other).map change else registry.get? other := by
  unfold get? update
  rw [Std.TreeMap.getElem?_modify]
  simp only [Std.compare_eq_iff_eq]
  by_cases same : id = other
  · subst same
    rfl
  · simp only [same, ↓reduceIte]

theorem get?_update_map (registry : Registry) (id other : Nat) (change : Object → Object) :
    (registry.update id change).get? other =
      (registry.get? other).map (if id = other then change else fun object => object) := by
  rw [get?_update]
  split
  · rfl
  · rw [Option.map_id']

@[simp] theorem contains_update (registry : Registry) (id other : Nat)
    (change : Object → Object) :
    (registry.update id change).contains other = registry.contains other := by
  unfold contains update
  exact Std.TreeMap.contains_modify

/-- What a change of an object keeps can be read as before. -/
theorem map_get?_update {α : Type} (view : Object → α) {change : Object → Object}
    (kept : ∀ object, view (change object) = view object) (registry : Registry) (id other : Nat) :
    ((registry.update id change).get? other).map view = (registry.get? other).map view := by
  rw [get?_update]
  split
  next =>
    cases registry.get? other with
    | none => rfl
    | some object => exact congrArg some (kept object)
  next => rfl

theorem group?_eq_map (registry : Registry) (id : Nat) :
    registry.group? id = ((registry.get? id).map fun object => object.group).join := by
  unfold group?
  cases registry.get? id <;> rfl

theorem isContainer_eq_map (registry : Registry) (id : Nat) :
    registry.isContainer id =
      ((registry.get? id).map fun object => object.info.isContainer).getD false := by
  unfold isContainer
  cases registry.get? id <;> rfl

theorem group?_update_of_group {change : Object → Object}
    (kept : ∀ object, (change object).group = object.group) (registry : Registry)
    (id other : Nat) : (registry.update id change).group? other = registry.group? other := by
  rw [group?_eq_map, group?_eq_map, map_get?_update (fun object => object.group) kept]

theorem children_update_of_children {change : Object → Object}
    (kept : ∀ object, (change object).children = object.children) (registry : Registry)
    (id other : Nat) : (registry.update id change).children other = registry.children other := by
  unfold children
  rw [map_get?_update (fun object => object.children) kept]

theorem isContainer_update_of_info {change : Object → Object}
    (kept : ∀ object, (change object).info = object.info) (registry : Registry)
    (id other : Nat) :
    (registry.update id change).isContainer other = registry.isContainer other := by
  rw [isContainer_eq_map, isContainer_eq_map]
  apply congrArg (Option.getD · false)
  apply map_get?_update (fun object => object.info.isContainer)
  intro object
  rw [kept]

/-- A new list of children is what a live object has from then on. -/
theorem children_update_list (registry : Registry) (id other : Nat)
    (change : List Nat → List Nat) (nothing : registry.contains id = false → change [] = []) :
    (registry.update id fun object => { object with children := change object.children }).children
        other =
      if id = other then change (registry.children other) else registry.children other := by
  unfold children
  rw [get?_update]
  by_cases same : id = other
  · subst same
    simp only [↓reduceIte]
    cases found : registry.get? id with
    | none =>
        rw [contains_eq, found] at nothing
        exact (nothing rfl).symm
    | some object => rfl
  · simp only [same, ↓reduceIte]

end Update

section Containers

theorem children_forget (registry : Registry) (group child other : Nat) :
    (registry.forget group child).children other =
      if group = other then (registry.children other).filter (· ≠ child)
      else registry.children other := by
  unfold forget
  exact registry.children_update_list group other (List.filter (· ≠ child)) fun _ => rfl

@[simp] theorem contains_forget (registry : Registry) (group child other : Nat) :
    (registry.forget group child).contains other = registry.contains other :=
  registry.contains_update group other _

@[simp] theorem group?_forget (registry : Registry) (group child other : Nat) :
    (registry.forget group child).group? other = registry.group? other := by
  unfold forget
  apply group?_update_of_group
  intro object
  rfl

@[simp] theorem isContainer_forget (registry : Registry) (group child other : Nat) :
    (registry.forget group child).isContainer other = registry.isContainer other := by
  unfold forget
  apply isContainer_update_of_info
  intro object
  rfl

@[simp] theorem contains_detach (registry : Registry) (child other : Nat) :
    (registry.detach child).contains other = registry.contains other := by
  unfold detach
  split
  · rfl
  · rw [contains_forget, contains_update]

@[simp] theorem isContainer_detach (registry : Registry) (child other : Nat) :
    (registry.detach child).isContainer other = registry.isContainer other := by
  unfold detach
  split
  · rfl
  · rw [isContainer_forget]
    apply isContainer_update_of_info
    intro object
    rfl

theorem group?_update_group (registry : Registry) (child other : Nat) (group : Option Nat) :
    (registry.update child fun object => { object with group }).group? other =
      if child = other ∧ registry.contains child = true then group else registry.group? other := by
  unfold group?
  rw [get?_update, contains_eq]
  by_cases same : child = other
  · subst same
    simp only [↓reduceIte, true_and]
    cases registry.get? child <;> rfl
  · simp only [same, false_and, ↓reduceIte]

/-- An object that is taken out of its container is in none. -/
theorem group?_detach (registry : Registry) (child other : Nat) :
    (registry.detach child).group? other =
      if child = other then none else registry.group? other := by
  unfold detach
  split
  next none =>
    split
    next same => rw [← same, none]
    next => rfl
  next group inside =>
    rw [group?_forget, group?_update_group, contains_of_group? inside]
    simp only [and_true]

/-- An object that is taken out of its container is taken off the children of that. -/
theorem children_detach (registry : Registry) (child other : Nat) :
    (registry.detach child).children other =
      if registry.group? child = some other then (registry.children other).filter (· ≠ child)
      else registry.children other := by
  unfold detach
  split
  next none => simp only [none, reduceCtorEq, ↓reduceIte]
  next group inside =>
    have kept : (registry.update child fun object => { object with group := none }).children other =
        registry.children other := by
      apply children_update_of_children
      intro object
      rfl
    rw [children_forget, kept]
    simp only [inside, Option.some.injEq]

/-- What is listed as a child is in the container that lists it. -/
def Listed (registry : Registry) : Prop :=
  ∀ group child, child ∈ registry.children group → registry.group? child = some group

/-- An object that was taken out of its container is listed nowhere. -/
theorem mem_children_detach (listed : registry.Listed) (child group other : Nat) :
    other ∈ (registry.detach child).children group ↔
      other ∈ registry.children group ∧ other ≠ child := by
  rw [children_detach]
  split
  next inside => rw [List.mem_filter, decide_eq_true_eq]
  next outside =>
    constructor
    · intro member
      refine ⟨member, ?_⟩
      rintro rfl
      exact outside (listed group other member)
    · exact fun both => both.1

/-- Taking an object out of its container keeps of every object what is no tie, and
adds no children. -/
theorem get?_detach (registry : Registry) (child id : Nat) :
    ∃ change : Object → Object, (∀ object, (change object).info = object.info ∧
        (change object).layer = object.layer ∧ (change object).name = object.name ∧
        (change object).children ⊆ object.children) ∧
      (registry.detach child).get? id = (registry.get? id).map change := by
  unfold detach
  split
  next none =>
    refine ⟨fun object => object, fun object => ⟨rfl, rfl, rfl, List.Subset.refl _⟩, ?_⟩
    rw [Option.map_id']
  next group inside =>
    unfold forget
    rw [get?_update_map, get?_update_map, Option.map_map]
    refine ⟨_, ?_, rfl⟩
    intro object
    by_cases owner : group = id <;> by_cases own : child = id <;>
      simp only [Function.comp_apply, owner, own, ↓reduceIte, true_and]
    · exact List.filter_sublist.subset
    · exact List.filter_sublist.subset
    · exact List.Subset.refl _
    · exact List.Subset.refl _

theorem names_detach (registry : Registry) (child : Nat) :
    (registry.detach child).names = registry.names := by
  unfold detach
  split <;> rfl

/-- An object is put into a live container that is not below it: nothing changes if it is
in there already, and otherwise it leaves the container it is in and comes last in the
new one. -/
theorem addChild_cases {added : Registry} {container child : Nat}
    (put : registry.addChild container child = .ok added) :
    registry.contains child = true ∧ registry.isContainer container = true ∧
      child ∉ registry.holders container ∧
      (registry.group? child = some container ∧ added = registry ∨
        registry.group? child ≠ some container ∧
          added = ((registry.detach child).update container fun object =>
            { object with children := object.children ++ [child] }).update child fun object =>
              { object with group := some container }) := by
  unfold addChild at put
  split at put
  next holder object foundHolder found =>
    split at put
    next => contradiction
    next isContainer =>
      split at put
      next => contradiction
      next apart =>
        refine ⟨contains_of_get? found, ?_, apart, ?_⟩
        · rw [isContainer_of_get? foundHolder]
          simpa using isContainer
        · rw [group?_of_get? found]
          split at put
          next already => exact Or.inl ⟨already, (Except.ok.inj put).symm⟩
          next outside => exact Or.inr ⟨outside, (Except.ok.inj put).symm⟩
  next => contradiction

variable {container child : Nat}

/-- What moving an object to another container changes. -/
theorem addChild_views {added : Registry} (put : registry.addChild container child = .ok added)
    (outside : registry.group? child ≠ some container) (other : Nat) :
    added.contains other = registry.contains other ∧
      added.isContainer other = registry.isContainer other ∧
      added.group? other = (if child = other then some container else registry.group? other) ∧
      added.children other =
        if container = other then registry.children other ++ [child]
        else (registry.detach child).children other := by
  obtain ⟨live, isContainer, _, kinds⟩ := addChild_cases put
  have holds : registry.contains container = true := by
    rw [contains_eq]
    unfold Registry.isContainer at isContainer
    cases found : registry.get? container with
    | none => simp only [found, Option.any_none, Bool.false_eq_true] at isContainer
    | some holder => rfl
  rcases kinds with ⟨inside, _⟩ | ⟨_, rfl⟩
  · exact (outside inside).elim
  · refine ⟨?_, ?_, ?_, ?_⟩
    · rw [contains_update, contains_update, contains_detach]
    · rw [isContainer_update_of_info, isContainer_update_of_info, isContainer_detach]
      · exact fun object => rfl
      · exact fun object => rfl
    · rw [group?_update_group, contains_update, contains_detach, live]
      rw [group?_update_of_group, group?_detach]
      by_cases own : child = other
      · simp only [own, and_self, ↓reduceIte]
      · simp only [own, false_and, ↓reduceIte]
      · exact fun object => rfl
    · rw [children_update_of_children]
      swap
      · exact fun object => rfl
      rw [children_update_list _ _ _ (· ++ [child])]
      · by_cases own : container = other
        · subst own
          rw [children_detach]
          simp only [↓reduceIte, outside]
        · simp only [own, ↓reduceIte]
      · rw [contains_detach, holds]
        exact fun absurd => Bool.noConfusion absurd

/-- Putting an object into a container changes no names. -/
theorem addChild_names {added : Registry} (put : registry.addChild container child = .ok added) :
    added.names = registry.names ∧ ∀ id, ∃ change : Object → Object,
      (∀ object, (change object).name = object.name) ∧
        added.get? id = (registry.get? id).map change := by
  obtain ⟨_, _, _, kinds⟩ := addChild_cases put
  rcases kinds with ⟨_, rfl⟩ | ⟨_, rfl⟩
  · exact ⟨rfl, fun id => ⟨fun object => object, fun _ => rfl, by rw [Option.map_id']⟩⟩
  · refine ⟨registry.names_detach child, ?_⟩
    intro id
    obtain ⟨change, kept, equal⟩ := registry.get?_detach child id
    rw [get?_update_map, get?_update_map, equal, Option.map_map, Option.map_map]
    refine ⟨_, ?_, rfl⟩
    intro object
    rw [← (kept object).2.2.1]
    by_cases holder : container = id <;> by_cases own : child = id <;>
      simp only [Function.comp_apply, holder, own, ↓reduceIte]

end Containers

end ScriptConsole.Registry
