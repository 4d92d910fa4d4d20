import Mathlib.Algebra.Order.BigOperators.Group.Finset
import ScriptConsole.Proofs.Objects.Live

/-! # The namespaces that objects hold

An object holds the links of the namespaces that it put in front of the one of its class.
How often a namespace is held by objects (`ScriptConsole.Registry.occurrences`) changes
with the links of single objects (`ScriptConsole.Registry.occurrences_add`); containers,
names and fields have no part in it.
-/

namespace ScriptConsole

/-- What an object has to do with namespaces: the one of its class, the one where searches
start, and those that it linked. -/
def Object.links (object : Object) : Layer × Layer × List Layer :=
  (object.info.layer, object.layer, object.linked)

namespace Registry

/-- What the object of a number has to do with namespaces. -/
def links? (registry : Registry) (id : Nat) : Option (Layer × Layer × List Layer) :=
  (registry.get? id).map Object.links

/-- The namespaces that the object of a number linked; a number that is not live has
linked none. -/
def linked (registry : Registry) (id : Nat) : List Layer :=
  ((registry.links? id).map fun links => links.2.2).getD []

/-- How often a namespace occurs among those that live objects linked. -/
def occurrences (registry : Registry) (layer : Layer) : Nat :=
  ∑ id ∈ registry.objects.keys.toFinset, (registry.linked id).count layer

variable {registry after : Registry} {id : Nat}

theorem links?_of_get? {object : Object} (found : registry.get? id = some object) :
    registry.links? id = some object.links := by
  unfold links?
  rw [found, Option.map_some]

theorem linked_of_get? {object : Object} (found : registry.get? id = some object) :
    registry.linked id = object.linked := by
  unfold linked
  rw [links?_of_get? found]
  rfl

theorem linked_of_not_live (dead : registry.links? id = none) : registry.linked id = [] := by
  unfold linked
  rw [dead]
  rfl

section Count

/-- Numbers that are not live can be counted in. -/
theorem occurrences_eq_sum {ids : Finset Nat} (within : registry.objects.keys.toFinset ⊆ ids)
    (layer : Layer) :
    registry.occurrences layer = ∑ id ∈ ids, (registry.linked id).count layer := by
  refine Finset.sum_subset within ?_
  intro id _ outside
  have absent : registry.get? id = none := by
    apply get?_of_not_contains
    rw [Bool.eq_false_iff]
    intro live
    rw [List.mem_toFinset, Std.TreeMap.mem_keys] at outside
    exact outside (Std.TreeMap.contains_iff_mem.mp live)
  have nothing : registry.links? id = none := by
    unfold links?
    rw [absent, Option.map_none]
  rw [linked_of_not_live nothing, List.count_nil]

/-- If only the links of one object change, occurrences change by these. -/
theorem occurrences_add (same : ∀ other, id ≠ other → after.links? other = registry.links? other)
    (layer : Layer) :
    after.occurrences layer + (registry.linked id).count layer =
      registry.occurrences layer + (after.linked id).count layer := by
  let ids := insert id (registry.objects.keys.toFinset ∪ after.objects.keys.toFinset)
  have member : id ∈ ids := Finset.mem_insert_self id _
  have before : registry.occurrences layer = ∑ id ∈ ids, (registry.linked id).count layer :=
    occurrences_eq_sum (Finset.subset_union_left.trans (Finset.subset_insert id _)) layer
  have later : after.occurrences layer = ∑ id ∈ ids, (after.linked id).count layer :=
    occurrences_eq_sum (Finset.subset_union_right.trans (Finset.subset_insert id _)) layer
  have rest : ∑ other ∈ ids.erase id, (after.linked other).count layer =
      ∑ other ∈ ids.erase id, (registry.linked other).count layer := by
    apply Finset.sum_congr rfl
    intro other inside
    unfold linked
    rw [same other (Finset.ne_of_mem_erase inside).symm]
  rw [← Finset.add_sum_erase ids _ member] at before later
  omega

theorem occurrences_congr (same : ∀ other, after.links? other = registry.links? other)
    (layer : Layer) : after.occurrences layer = registry.occurrences layer := by
  have total : after.occurrences layer + (registry.linked 0).count layer =
      registry.occurrences layer + (after.linked 0).count layer :=
    occurrences_add (fun other _ => same other) layer
  have own : after.linked 0 = registry.linked 0 := by
    unfold linked
    rw [same 0]
  rw [own] at total
  omega

/-- What different live objects hold is counted in. -/
theorem count_flatMap_le_occurrences {ids : List Nat} (nodup : ids.Nodup)
    (live : ∀ id ∈ ids, registry.contains id = true) (layer : Layer) :
    (ids.flatMap registry.linked).count layer ≤ registry.occurrences layer := by
  have within : ids.toFinset ⊆ registry.objects.keys.toFinset := by
    intro id member
    rw [List.mem_toFinset, Std.TreeMap.mem_keys]
    exact Std.TreeMap.contains_iff_mem.mp (live id (List.mem_toFinset.mp member))
  calc (ids.flatMap registry.linked).count layer
      = ∑ id ∈ ids.toFinset, (registry.linked id).count layer := by
        rw [List.count_flatMap, List.sum_toFinset _ nodup]
        rfl
    _ ≤ registry.occurrences layer := Finset.sum_le_sum_of_subset within

/-- What one object holds is counted in. -/
theorem count_le_occurrences {object : Object} (found : registry.get? id = some object)
    (layer : Layer) : object.linked.count layer ≤ registry.occurrences layer := by
  have live : id ∈ registry.objects.keys.toFinset := by
    rw [List.mem_toFinset, Std.TreeMap.mem_keys]
    exact Std.TreeMap.contains_iff_mem.mp (contains_of_get? found)
  rw [← linked_of_get? found]
  exact Finset.single_le_sum_of_canonicallyOrdered
    (f := fun other => (registry.linked other).count layer) live

end Count

section Kept

/-- A change of an object that keeps its links keeps all links. -/
theorem links?_update {change : Object → Object}
    (kept : ∀ object, (change object).links = object.links) (registry : Registry)
    (id other : Nat) : (registry.update id change).links? other = registry.links? other :=
  registry.map_get?_update Object.links kept id other

/-- An object that is replaced by one with the same links. -/
theorem links?_replace {object changed : Object} (found : registry.get? id = some object)
    (kept : changed.links = object.links) (other : Nat) :
    (registry.update id fun _ => changed).links? other = registry.links? other := by
  unfold links?
  rw [get?_update]
  split
  next same =>
    subst same
    rw [found, Option.map_some, Option.map_some, Option.map_some, kept]
  next => rfl

theorem links?_detach (registry : Registry) (child other : Nat) :
    (registry.detach child).links? other = registry.links? other := by
  unfold detach
  split
  · rfl
  · unfold forget
    rw [links?_update, links?_update]
    · exact fun object => rfl
    · exact fun object => rfl

theorem links?_addChild {container child : Nat}
    (put : registry.addChild container child = .ok after) (other : Nat) :
    after.links? other = registry.links? other := by
  obtain ⟨_, _, _, kinds⟩ := addChild_cases put
  rcases kinds with ⟨_, rfl⟩ | ⟨_, rfl⟩
  · rfl
  · rw [links?_update, links?_update, links?_detach]
    · exact fun object => rfl
    · exact fun object => rfl

/-- A renamed object keeps its links, those to the namespace of its first name among them. -/
theorem links?_rename (registry : Registry) (id : Nat) (name : Option Symbol) (other : Nat) :
    (registry.rename id name).2.links? other = registry.links? other := by
  unfold rename
  split
  · rfl
  · split
    · rfl
    next object found =>
      unfold get? at found
      unfold links? get?
      simp only [Std.TreeMap.getElem?_insert, Std.compare_eq_iff_eq]
      split
      next same =>
        rw [← same, found]
        rfl
      next => rfl

/-- A removed object holds nothing, and the other objects hold what they held. -/
theorem links?_removed (registry : Registry) (id other : Nat) :
    (registry.removed id).links? other = if id = other then none else registry.links? other := by
  unfold links?
  rw [get?_removed]
  split
  · rfl
  · split
    · cases registry.get? other <;> rfl
    · rfl

theorem links?_register (registry : Registry) (draft : Draft) (name : Option Symbol)
    {other : Nat} (different : (registry.register draft name).1.1 ≠ other) :
    (registry.register draft name).2.links? other = registry.links? other := by
  unfold links?
  rw [get?_register, if_neg different]

/-- The number of a new object stood for nothing before. -/
theorem links?_free (registry : Registry) (draft : Draft) (name : Option Symbol) :
    registry.links? (registry.register draft name).1.1 = none := by
  unfold links?
  rw [get?_of_not_contains (registry.not_contains_register draft name), Option.map_none]

end Kept

end Registry

end ScriptConsole
