import ScriptConsole.Proofs.Objects.Live
import ScriptConsole.Proofs.Walk

/-! # Containment is a forest

Containers list exactly the objects that are in them, and no object contains itself,
directly or over others (`ScriptConsole.Registry.Forest`). Registering, renaming and
moving objects keep this, and so does removing an object that contains nothing. After any
removal, what is listed still forms trees (`ScriptConsole.Registry.Treelike`).
-/

namespace ScriptConsole.Registry

/-- The containers of objects and the lists of children agree, and form a forest. -/
structure Forest (registry : Registry) : Prop where
  listed : ∀ group child, child ∈ registry.children group ↔ registry.group? child = some group
  live : ∀ child group, registry.group? child = some group → registry.contains group = true
  nodup : ∀ group, (registry.children group).Nodup
  holder : ∀ group, registry.children group ≠ [] → registry.isContainer group = true
  acyclic : Acyclic registry.group?

/-- What is listed as a child is in the container that lists it, and is listed once. Only
containers list children, and no object contains itself. -/
structure Treelike (registry : Registry) : Prop where
  listed : registry.Listed
  nodup : ∀ group, (registry.children group).Nodup
  holder : ∀ group, registry.children group ≠ [] → registry.isContainer group = true
  acyclic : Acyclic registry.group?

theorem mem_keys_of_group? (registry : Registry) (id : Nat)
    (inside : (registry.group? id).isSome) : id ∈ registry.objects.keys := by
  obtain ⟨group, equal⟩ := Option.isSome_iff_exists.mp inside
  exact Std.TreeMap.mem_keys.mpr (Std.TreeMap.contains_iff_mem.mp (contains_of_group? equal))

/-- The containers of an object are all found: no bound cuts them off. -/
theorem mem_holders_iff {registry : Registry} (acyclic : Acyclic registry.group?)
    (id holder : Nat) :
    holder ∈ registry.holders id ↔
      Relation.ReflTransGen (Leads registry.group?) id holder := by
  unfold holders
  apply mem_walk_iff acyclic registry.mem_keys_of_group?
  rw [Std.TreeMap.length_keys]
  exact Nat.lt_succ_self _

/-- An object that is put into a container comes behind the children that are left there. -/
theorem children_addChild {registry added : Registry} {container child : Nat}
    (put : registry.addChild container child = .ok added)
    (outside : registry.group? child ≠ some container) (group : Nat) :
    added.children group =
      if container = group then (registry.detach child).children group ++ [child]
      else (registry.detach child).children group := by
  rw [(addChild_views put outside group).2.2.2, children_detach]
  by_cases own : container = group
  · simp only [← own, outside, ↓reduceIte]
  · simp only [own, ↓reduceIte]

namespace Treelike

variable {registry : Registry}

/-- The containers of a child are the child and those of what contains it. -/
theorem holders_child (treelike : Treelike registry) {id child : Nat}
    (inside : registry.group? child = some id) :
    registry.holders child = child :: registry.holders id := by
  unfold holders
  have enough : registry.objects.keys.length < registry.size + 1 := by
    rw [Std.TreeMap.length_keys]
    exact Nat.lt_succ_self _
  rw [walk_eq_cons treelike.acyclic registry.mem_keys_of_group? enough child, inside,
    Option.elim_some]

/-- Without objects there is nothing to contain. -/
theorem of_no_objects (none : ∀ id, registry.contains id = false) : Treelike registry := by
  have outside (id : Nat) : registry.group? id = .none := group?_of_not_contains (none id)
  have childless (id : Nat) : registry.children id = [] := children_of_not_contains (none id)
  constructor
  case listed =>
    intro group child member
    rw [childless] at member
    contradiction
  case nodup =>
    intro group
    rw [childless]
    exact List.nodup_nil
  case holder =>
    intro group some
    exact absurd (childless group) some
  case acyclic =>
    intro id cycle
    obtain ⟨group, step, _⟩ := Relation.TransGen.head'_iff.mp cycle
    rw [Leads, outside] at step
    contradiction

/-- Registries with the same ties are treelike together. -/
theorem of_sameTies {other : Registry} (treelike : Treelike registry)
    (same : SameTies registry other) : Treelike other := by
  have groups : other.group? = registry.group? := funext same.group?
  have children : other.children = registry.children := funext same.children
  have holders : other.isContainer = registry.isContainer := funext same.isContainer
  constructor
  case listed =>
    unfold Listed
    rw [groups, children]
    exact treelike.listed
  case nodup =>
    rw [children]
    exact treelike.nodup
  case holder =>
    rw [children, holders]
    exact treelike.holder
  case acyclic =>
    rw [groups]
    exact treelike.acyclic

/-- A new object is in no container and has no children, as its number was free. -/
theorem register (treelike : Treelike registry) (draft : Draft) (name : Option Symbol) :
    Treelike (registry.register draft name).2 := by
  obtain ⟨id, free, _, groups, children, holders⟩ := registry.register_views draft name
  have same : (registry.register draft name).2.group? = registry.group? := funext groups
  constructor
  case listed =>
    intro group child member
    rw [children] at member
    rw [groups]
    exact treelike.listed group child member
  case nodup =>
    intro group
    rw [children]
    exact treelike.nodup group
  case holder =>
    intro group some
    rw [children] at some
    have other : id ≠ group := by
      rintro rfl
      exact some (children_of_not_contains free)
    rw [holders group other]
    exact treelike.holder group some
  case acyclic => exact same ▸ treelike.acyclic

theorem rename (treelike : Treelike registry) (id : Nat) (name : Option Symbol) :
    Treelike (registry.rename id name).2 :=
  treelike.of_sameTies (registry.sameTies_rename id name)

/-- An object that is taken out of its container leaves a tree behind: there is one child less, and
no tie is new. -/
theorem detach (treelike : Treelike registry) (child : Nat) : Treelike (registry.detach child) := by
  constructor
  case listed =>
    intro group other member
    obtain ⟨before, different⟩ :=
      (mem_children_detach treelike.listed child group other).mp member
    rw [group?_detach, if_neg different.symm]
    exact treelike.listed group other before
  case nodup =>
    intro group
    rw [children_detach]
    split
    · exact (treelike.nodup group).filter _
    · exact treelike.nodup group
  case holder =>
    intro group some
    rw [isContainer_detach]
    apply treelike.holder
    intro none
    obtain ⟨member, listed⟩ := List.exists_mem_of_ne_nil _ some
    have before := ((mem_children_detach treelike.listed child group member).mp listed).1
    rw [none] at before
    contradiction
  case acyclic =>
    refine treelike.acyclic.mono fun other group inside => ?_
    rw [group?_detach] at inside
    split at inside
    · contradiction
    · exact inside

/-- Moving an object into another container makes no cycle: the walk up from the container did
not come to the object, so the object does not contain the container. -/
theorem addChild (treelike : Treelike registry) {added : Registry} {container child : Nat}
    (put : registry.addChild container child = .ok added) : Treelike added := by
  obtain ⟨_, isContainer, apart, kinds⟩ := addChild_cases put
  rcases kinds with ⟨_, rfl⟩ | ⟨outside, _⟩
  · exact treelike
  have views := addChild_views put outside
  have children := children_addChild put outside
  have detached := treelike.detach child
  rw [mem_holders_iff treelike.acyclic] at apart
  constructor
  case listed =>
    intro group other member
    rw [children] at member
    rw [(views other).2.2.1]
    split at member
    next own =>
      rw [List.mem_append, List.mem_singleton] at member
      rcases member with before | rfl
      · have inside := detached.listed group other before
        split
        · exact congrArg some own
        next different => rwa [group?_detach, if_neg different] at inside
      · rw [if_pos rfl, own]
    next =>
      have inside := detached.listed group other member
      rw [group?_detach] at inside
      split at inside
      · contradiction
      next different => rwa [if_neg different]
  case nodup =>
    intro group
    rw [children]
    split
    · refine List.nodup_append.mpr ⟨detached.nodup group, List.pairwise_singleton _ child, ?_⟩
      intro other member own single
      rw [List.mem_singleton] at single
      rintro rfl
      exact ((mem_children_detach treelike.listed child group other).mp member).2 single
    · exact detached.nodup group
  case holder =>
    intro group some
    rw [(views group).2.1]
    by_cases own : container = group
    · exact own ▸ isContainer
    · rw [children] at some
      simp only [own, ↓reduceIte] at some
      rw [← isContainer_detach registry child]
      exact detached.holder group some
  case acyclic =>
    refine treelike.acyclic.extend apart ?_
    intro other group inside
    rw [(views other).2.2.1] at inside
    split at inside
    next same => exact Or.inr ⟨same.symm, (Option.some.inj inside).symm⟩
    next => exact Or.inl inside

/-- A removed object leaves the list of its container, and its own list goes with it. Children that
it had stay in it by their groups, which no list contradicts. -/
theorem removed (treelike : Treelike registry) (id : Nat) : Treelike (registry.removed id) := by
  constructor
  case listed =>
    intro group child member
    obtain ⟨before, _, different⟩ :=
      (mem_children_removed treelike.listed id group child).mp member
    rw [group?_removed, if_neg different]
    exact treelike.listed group child before
  case nodup =>
    intro group
    rw [children_removed]
    split
    · exact List.nodup_nil
    · split
      · exact (treelike.nodup group).filter _
      · exact treelike.nodup group
  case holder =>
    intro group some
    have different : id ≠ group := by
      rintro rfl
      rw [children_removed] at some
      simp only [↓reduceIte, ne_eq, not_true_eq_false] at some
    rw [isContainer_removed registry different]
    apply treelike.holder
    intro none
    obtain ⟨member, listed⟩ := List.exists_mem_of_ne_nil _ some
    have before := ((mem_children_removed treelike.listed id group member).mp listed).1
    rw [none] at before
    contradiction
  case acyclic =>
    refine treelike.acyclic.mono fun other group inside => ?_
    rw [group?_removed] at inside
    split at inside
    · contradiction
    · exact inside

end Treelike

namespace Forest

variable {registry : Registry}

/-- What is listed as a child is in the container that lists it. -/
theorem lists (forest : Forest registry) : registry.Listed :=
  fun group child => (forest.listed group child).mp

theorem treelike (forest : Forest registry) : Treelike registry :=
  ⟨forest.lists, forest.nodup, forest.holder, forest.acyclic⟩

/-- A registry is a forest if containers list all that is in them besides. -/
theorem of_treelike (treelike : Treelike registry)
    (listed : ∀ group child, registry.group? child = some group → child ∈ registry.children group)
    (live : ∀ child group, registry.group? child = some group → registry.contains group = true) :
    Forest registry :=
  ⟨fun group child => ⟨treelike.listed group child, listed group child⟩, live, treelike.nodup,
    treelike.holder, treelike.acyclic⟩

/-- Without objects there is nothing to contain. -/
theorem of_no_objects (none : ∀ id, registry.contains id = false) : Forest registry := by
  have outside (id : Nat) : registry.group? id = .none := group?_of_not_contains (none id)
  refine .of_treelike (.of_no_objects none) ?_ ?_
  · intro group child inside
    rw [outside] at inside
    contradiction
  · intro child group inside
    rw [outside] at inside
    contradiction

/-- Registries with the same ties are forests together. -/
theorem of_sameTies {other : Registry} (forest : Forest registry)
    (same : SameTies registry other) : Forest other := by
  have groups : other.group? = registry.group? := funext same.group?
  have children : other.children = registry.children := funext same.children
  have live : other.contains = registry.contains := funext same.contains
  refine .of_treelike (forest.treelike.of_sameTies same) ?_ ?_
  · rw [groups, children]
    exact fun group child => (forest.listed group child).mpr
  · rw [groups, live]
    exact forest.live

/-- A new object lists no children and is in no container, so both directions still match. -/
theorem register (forest : Forest registry) (draft : Draft) (name : Option Symbol) :
    Forest (registry.register draft name).2 := by
  obtain ⟨id, _, live, groups, children, _⟩ := registry.register_views draft name
  refine .of_treelike (forest.treelike.register draft name) ?_ ?_
  · intro group child inside
    rw [groups] at inside
    rw [children]
    exact (forest.listed group child).mpr inside
  · intro child group inside
    rw [groups] at inside
    rw [live, forest.live child group inside, Bool.or_true]

theorem rename (forest : Forest registry) (id : Nat) (name : Option Symbol) :
    Forest (registry.rename id name).2 :=
  forest.of_sameTies (registry.sameTies_rename id name)

/-- An object that is taken out of its container is in no list then. -/
theorem detach (forest : Forest registry) (child : Nat) : Forest (registry.detach child) := by
  refine .of_treelike (forest.treelike.detach child) ?_ ?_
  · intro group other inside
    rw [group?_detach] at inside
    split at inside
    · contradiction
    next different =>
      refine (mem_children_detach forest.lists child group other).mpr ⟨?_, Ne.symm different⟩
      exact (forest.listed group other).mpr inside
  · intro other group inside
    rw [group?_detach] at inside
    split at inside
    · contradiction
    · rw [contains_detach]
      exact forest.live other group inside

/-- Moving an object into another container keeps a forest. -/
theorem addChild (forest : Forest registry) {added : Registry} {container child : Nat}
    (put : registry.addChild container child = .ok added) : Forest added := by
  obtain ⟨_, isContainer, _, kinds⟩ := addChild_cases put
  rcases kinds with ⟨_, rfl⟩ | ⟨outside, _⟩
  · exact forest
  have views := addChild_views put outside
  refine .of_treelike (forest.treelike.addChild put) ?_ ?_
  · intro group other inside
    rw [(views other).2.2.1] at inside
    rw [children_addChild put outside]
    split at inside
    next own =>
      rw [if_pos (Option.some.inj inside), own]
      exact List.mem_append_right _ (List.mem_singleton_self other)
    next different =>
      have before := (mem_children_detach forest.lists child group other).mpr
        ⟨(forest.listed group other).mpr inside, Ne.symm different⟩
      split
      · exact List.mem_append_left _ before
      · exact before
  · intro other group inside
    rw [(views other).2.2.1] at inside
    rw [(views group).1]
    split at inside
    · obtain rfl := Option.some.inj inside
      unfold Registry.isContainer at isContainer
      rw [contains_eq]
      cases found : registry.get? container with
      | none => simp only [found, Option.any_none, Bool.false_eq_true] at isContainer
      | some holder => rfl
    · exact forest.live other group inside

/-- Removing an object that contains nothing keeps a forest. -/
theorem removed (forest : Forest registry) {id : Nat} (childless : registry.children id = []) :
    Forest (registry.removed id) := by
  have outside (child : Nat) : registry.group? child ≠ some id := by
    rw [Ne, ← forest.listed, childless]
    exact List.not_mem_nil
  refine .of_treelike (forest.treelike.removed id) ?_ ?_
  · intro group child inside
    rw [group?_removed] at inside
    split at inside
    · contradiction
    next different =>
      refine (mem_children_removed forest.lists id group child).mpr ⟨?_, ?_, different⟩
      · exact (forest.listed group child).mpr inside
      · rintro rfl
        exact outside child inside
  · intro child group inside
    rw [group?_removed] at inside
    split at inside
    · contradiction
    · have different : id ≠ group := by
        rintro rfl
        exact outside child inside
      rw [contains_removed, forest.live child group inside, decide_eq_false different]
      rfl

end Forest

end ScriptConsole.Registry
