import ScriptConsole.Proofs.Objects.Deletion
import ScriptConsole.Proofs.Objects.Histories
import ScriptConsole.Proofs.Objects.Links
import ScriptConsole.Proofs.Objects.Sound

/-! # Registries without some objects

When objects are gone, nothing of the others changes but that they are in no container that is
gone and list nothing that is gone (`ScriptConsole.Registry.Pruned`). In a forest this is what is
left when an object leaves that contains nothing, and when one leaves that let its children go
before. The objects that go with some others are collected one after the other
(`ScriptConsole.Registry.Extent`).
-/

namespace ScriptConsole

/-- What an object is when others are gone. -/
def Object.without (object : Object) (gone : List Nat) : Object :=
  { object with
    group := object.group.filter (· ∉ gone)
    children := object.children.filter (· ∉ gone) }

/-- What the object of a number is when others, or it itself, are let go by their containers. -/
def Object.loosened (object : Object) (id : Nat) (loose : List Nat) : Object :=
  { object with
    group := if id ∈ loose then none else object.group
    children := object.children.filter (· ∉ loose) }

/-- What is not gone stays. -/
theorem filter_not_gone {option : Option Nat} {gone : List Nat}
    (stays : ∀ id, option = some id → id ∉ gone) : option.filter (· ∉ gone) = option := by
  cases option with
  | none => rfl
  | some id => rw [Option.filter_some, if_pos (decide_eq_true (stays id rfl))]

theorem filter_gone {id : Nat} {gone : List Nat} (member : id ∈ gone) :
    (some id).filter (· ∉ gone) = none := by
  rw [Option.filter_some, if_neg (ne_true_of_eq_false (decide_eq_false (not_not_intro member)))]

/-- If all of a list is gone, nothing of it is left. -/
theorem filter_all_gone {ids gone : List Nat} (all : ∀ id ∈ ids, id ∈ gone) :
    ids.filter (· ∉ gone) = [] :=
  List.filter_eq_nil_iff.mpr fun id member =>
    ne_true_of_eq_false (decide_eq_false (not_not_intro (all id member)))

/-- An object that a container let go before it is gone is what it would be without that, if no
other object is in the container. -/
theorem Object.without_loosened {object : Object} {id container : Nat} {loose : List Nat}
    (inside : id ∈ loose → object.group = some container)
    (apart : ∀ child ∈ object.children, child ∉ loose) :
    (object.loosened id loose).without [container] = object.without [container] := by
  have children : object.children.filter (· ∉ loose) = object.children :=
    List.filter_eq_self.mpr fun child member => decide_eq_true (apart child member)
  have group : (if id ∈ loose then none else object.group).filter (· ∉ [container]) =
      object.group.filter (· ∉ [container]) := by
    split
    next listed =>
      rw [inside listed, filter_gone List.mem_cons_self]
      rfl
    next => rfl
  unfold loosened without
  rw [children, group]

namespace Registry

/-- The classes of a registry and the numbers that come next. -/
def rest (registry : Registry) : Std.TreeMap Symbol ClassInfo × Nat × Nat :=
  (registry.classes, registry.nextObject, registry.nextDatablock)

/-- A registry is another one without some objects. -/
structure Pruned (registry : Registry) (gone : List Nat) (after : Registry) : Prop where
  rest : after.rest = registry.rest
  objects : ∀ id, after.get? id =
    if id ∈ gone then none else (registry.get? id).map fun object => object.without gone
  names : ∀ name, after.findName? name = (registry.findName? name).filter (· ∉ gone)

/-- Some objects are gone with others: they are live, and they are all that is deleted together
with these. -/
structure Extent (registry : Registry) (roots gone : List Nat) : Prop where
  nodup : gone.Nodup
  live : ∀ id ∈ gone, registry.contains id = true
  included : ∀ root ∈ roots, registry.contains root = true → root ∈ gone
  reached : ∀ id ∈ gone, ∃ root ∈ roots, Relation.ReflTransGen registry.Takes root id
  closed : ∀ id ∈ gone, ∀ child, registry.Takes id child → child ∈ gone

variable {registry between after : Registry} {gone later : List Nat}

namespace Pruned

theorem refl (registry : Registry) : Pruned registry [] registry := by
  refine ⟨rfl, fun id => ?_, fun name => ?_⟩
  · have same (object : Object) : object.without [] = object := by
      unfold Object.without
      rw [filter_not_gone fun _ _ => List.not_mem_nil,
        List.filter_eq_self.mpr fun _ _ => decide_eq_true List.not_mem_nil]
    simp only [List.not_mem_nil, ↓reduceIte, same, Option.map_id']
  · exact (filter_not_gone fun _ _ => List.not_mem_nil).symm

/-- First some objects go and then others. -/
theorem trans (first : Pruned registry gone between) (second : Pruned between later after) :
    Pruned registry (gone ++ later) after := by
  refine ⟨second.rest.trans first.rest, fun id => ?_, fun name => ?_⟩
  · have both (object : Object) :
        (object.without gone).without later = object.without (gone ++ later) := by
      simp [Object.without, List.filter_filter, Option.filter_filter, Bool.and_comm]
    rw [second.objects, first.objects]
    simp only [List.mem_append]
    by_cases before : id ∈ gone
    · simp [before]
    · by_cases then' : id ∈ later
      · simp [then']
      · simp only [before, then', or_self, ↓reduceIte, Option.map_map]
        congr 1
        funext object
        exact both object
  · rw [second.names, first.names, Option.filter_filter]
    simp

variable (pruned : Pruned registry gone after)
include pruned

theorem contains (id : Nat) : after.contains id = (decide (id ∉ gone) && registry.contains id) := by
  rw [contains_eq, contains_eq, pruned.objects]
  by_cases left : id ∈ gone
  · simp [left]
  · simp [left]

/-- What is live stayed. -/
theorem live_iff {id : Nat} :
    after.contains id = true ↔ id ∉ gone ∧ registry.contains id = true := by
  rw [pruned.contains, Bool.and_eq_true, decide_eq_true_eq]

theorem group? (id : Nat) : after.group? id =
    if id ∈ gone then none else (registry.group? id).filter (· ∉ gone) := by
  unfold Registry.group?
  rw [pruned.objects]
  split
  · rfl
  · cases registry.get? id <;> rfl

theorem children (id : Nat) : after.children id =
    if id ∈ gone then [] else (registry.children id).filter (· ∉ gone) := by
  unfold Registry.children
  rw [pruned.objects]
  split
  · rfl
  · cases registry.get? id <;> rfl

theorem linked {id : Nat} (stays : id ∉ gone) : after.linked id = registry.linked id := by
  unfold Registry.linked links?
  rw [pruned.objects, if_neg stays]
  cases registry.get? id <;> rfl

/-- What goes with an object that stayed went with it before, and it stayed as well. -/
theorem takes_iff {group child : Nat} : after.Takes group child ↔
    registry.Takes group child ∧ group ∉ gone ∧ child ∉ gone := by
  unfold Takes
  rw [pruned.objects]
  by_cases left : group ∈ gone
  · simp [left]
  · cases registry.get? group with
    | none => simp
    | some object => simp [left, Object.without, and_assoc]

theorem isContainer {id : Nat} (stays : id ∉ gone) :
    after.isContainer id = registry.isContainer id := by
  unfold Registry.isContainer
  rw [pruned.objects, if_neg stays]
  cases registry.get? id <;> rfl

/-- What stays of a forest is a forest. -/
theorem forest (forest : registry.Forest) : after.Forest := by
  have inside (child group : Nat) : after.group? child = some group ↔
      registry.group? child = some group ∧ child ∉ gone ∧ group ∉ gone := by
    rw [pruned.group?]
    by_cases left : child ∈ gone
    · simp [left]
    · simp [left, Option.filter_eq_some_iff]
  constructor
  case listed =>
    intro group child
    rw [inside, ← forest.listed, pruned.children]
    by_cases left : group ∈ gone
    · simp [left]
    · simp [left]
  case live =>
    intro child group above
    obtain ⟨before, _, stays⟩ := (inside child group).mp above
    rw [pruned.contains, forest.live child group before, decide_eq_true stays]
    rfl
  case nodup =>
    intro group
    rw [pruned.children]
    split
    · exact List.nodup_nil
    · exact (forest.nodup group).filter _
  case holder =>
    intro group some
    rw [pruned.children] at some
    have stays : group ∉ gone := fun left => some (if_pos left)
    rw [if_neg stays] at some
    rw [pruned.isContainer stays]
    refine forest.holder group fun none => some ?_
    rw [none, List.filter_nil]
  case acyclic => exact forest.acyclic.mono fun child group above => ((inside _ _).mp above).1

/-- What stays of a sound registry is sound. -/
theorem sound (forest : registry.Forest) (sound : registry.Sound) : after.Sound := by
  refine ⟨(pruned.forest forest).lists, fun name id found => ?_⟩
  rw [pruned.names, Option.filter_eq_some_iff, decide_eq_true_eq] at found
  obtain ⟨object, present, named⟩ := sound.named name id found.1
  refine ⟨object.without gone, ?_, named⟩
  rw [pruned.objects, if_neg found.2, present, Option.map_some]

end Pruned

section Leaving

/-- Taking an object out of its container changes its container and the children of that. -/
theorem get?_detach_of_listed (listed : registry.Listed) (child id : Nat) :
    (registry.detach child).get? id = (registry.get? id).map fun object =>
      { object with
        group := if child = id then none else object.group
        children := object.children.filter (· ≠ child) } := by
  cases found : registry.get? id with
  | none =>
      obtain ⟨change, _, equal⟩ := registry.get?_detach child id
      rw [equal, found, Option.map_none, Option.map_none]
  | some object =>
      -- Only the container lists the child, so the filter does nothing elsewhere.
      have unlisted : registry.group? child ≠ some id →
          object.children.filter (· ≠ child) = object.children := by
        intro outside
        refine List.filter_eq_self.mpr fun other member => decide_eq_true ?_
        rintro rfl
        rw [← children_of_get? found] at member
        exact outside (listed id other member)
      rw [Option.map_some]
      unfold detach
      cases own : registry.group? child with
      | none =>
          have free : (if child = id then none else object.group) = object.group := by
            rw [ite_eq_right_iff]
            rintro rfl
            rw [← group?_of_get? found, own]
          rw [unlisted (own ▸ nofun), free]
          exact found
      | some group =>
          unfold forget
          simp only [get?_update, found, Option.map_some]
          by_cases holder : group = id
          · subst holder
            simp only [↓reduceIte]
            split <;> rfl
          · rw [unlisted (own ▸ fun same => holder (Option.some.inj same))]
            simp only [holder, ↓reduceIte]
            split <;> rfl

/-- Objects that are taken out of their containers one after the other. -/
theorem get?_foldl_detach (listed : registry.Listed) (loose : List Nat) (id : Nat) :
    (loose.foldl detach registry).get? id =
      (registry.get? id).map fun object => object.loosened id loose := by
  induction loose generalizing registry with
  | nil =>
      have same (object : Object) : object.loosened id [] = object := by
        unfold Object.loosened
        rw [if_neg List.not_mem_nil,
          List.filter_eq_self.mpr fun _ _ => decide_eq_true List.not_mem_nil]
      simp only [List.foldl_nil, same, Option.map_id']
  | cons child loose ih =>
      have kept : (registry.detach child).Listed := by
        intro group other member
        obtain ⟨before, different⟩ := (mem_children_detach listed child group other).mp member
        rw [group?_detach, if_neg different.symm]
        exact listed group other before
      rw [List.foldl_cons, ih kept, get?_detach_of_listed listed, Option.map_map]
      congr 1
      funext object
      simp only [Function.comp_apply, Object.loosened, List.filter_filter, List.mem_cons, not_or,
        Bool.decide_and, Bool.and_comm, eq_comm (a := child)]
      by_cases own : id = child
      · simp [own]
      · simp [own]

/-- Leaving the registry or a container changes neither classes nor counters. -/
theorem rest_detach (registry : Registry) (child : Nat) :
    (registry.detach child).rest = registry.rest := by
  unfold detach
  split <;> rfl

theorem rest_removed (registry : Registry) (id : Nat) :
    (registry.removed id).rest = registry.rest := by
  unfold removed deregister
  cases present : registry.get? id with
  | none => rfl
  | some object =>
      simp only
      cases object.group <;> rfl

/-- The name of an object that leaves is free again, and no other one is. -/
theorem findName?_removed_eq (sound : registry.Sound) {id : Nat} {object : Object}
    (present : registry.get? id = some object) (name : Symbol) :
    (registry.removed id).findName? name = (registry.findName? name).filter (· ∉ [id]) := by
  have names : (registry.removed id).findName? name =
      (registry.deregister id).2.findName? name := by
    unfold findName?
    rw [names_removed present]
  rw [names, findName?_deregister, present, Option.bind_some]
  cases leads : registry.findName? name with
  | none => simp
  | some owner =>
      by_cases own : owner = id
      · subst own
        obtain ⟨twin, same, named⟩ := sound.named name owner leads
        obtain rfl := Option.some.inj (present.symm.trans same)
        rw [if_pos ⟨named, rfl⟩, filter_gone List.mem_cons_self]
      · simp only [Option.some.injEq, own, and_false, ↓reduceIte, List.mem_singleton,
          Option.filter_some, not_false_eq_true, decide_true]

/-- Nothing but the object goes if it contains nothing. -/
theorem pruned_removed (forest : registry.Forest) (sound : registry.Sound) {id : Nat}
    (live : registry.contains id = true) (childless : registry.children id = []) :
    Pruned registry [id] (registry.removed id) := by
  obtain ⟨object, present⟩ := get?_of_contains live
  refine ⟨registry.rest_removed id, fun other => ?_, fun name => ?_⟩
  · rw [get?_removed]
    simp only [List.mem_singleton, eq_comm (a := other)]
    by_cases own : id = other
    · rw [if_pos own, if_pos own]
    · rw [if_neg own, if_neg own]
      cases found : registry.get? other with
      | none => simp only [Option.map_none, ite_self]
      | some left =>
          -- Nothing is in the object, and only its container lists it.
          have grouped : left.group.filter (· ∉ [id]) = left.group := by
            refine filter_not_gone fun group inside => ?_
            rw [List.mem_singleton]
            rintro rfl
            have listed := (forest.listed group other).mpr ((group?_of_get? found).trans inside)
            rw [childless] at listed
            exact List.not_mem_nil listed
          unfold Object.without
          rw [Option.map_some, Option.map_some, grouped]
          simp only [List.mem_singleton]
          split
          · rfl
          next outside =>
            rw [List.filter_eq_self.mpr fun child member => decide_eq_true ?_]
            rintro rfl
            rw [← children_of_get? found] at member
            exact outside (forest.lists other child member)
  · exact findName?_removed_eq sound present name

/-- Taking objects out of their containers leaves a sound forest with the names that there were. -/
theorem foldl_detach (forest : registry.Forest) (sound : registry.Sound) (loose : List Nat) :
    (loose.foldl detach registry).Forest ∧ (loose.foldl detach registry).Sound ∧
      (loose.foldl detach registry).rest = registry.rest ∧
      (loose.foldl detach registry).names = registry.names := by
  induction loose generalizing registry with
  | nil => exact ⟨forest, sound, rfl, rfl⟩
  | cons child loose ih =>
      obtain ⟨forestLeft, soundLeft, rest, names⟩ := ih (forest.detach child) (sound.detach child)
      exact ⟨forestLeft, soundLeft, rest.trans (registry.rest_detach child),
        names.trans (registry.names_detach child)⟩

/-- Nothing but the object goes if it lets its children go before. -/
theorem pruned_released (forest : registry.Forest) (sound : registry.Sound) {id : Nat}
    (live : registry.contains id = true) :
    Pruned registry [id] (((registry.children id).foldl detach registry).removed id) := by
  obtain ⟨forestLeft, soundLeft, rest, names⟩ := foldl_detach forest sound (registry.children id)
  have objects := get?_foldl_detach forest.lists (registry.children id)
  obtain ⟨object, present⟩ := get?_of_contains live
  have childless : ((registry.children id).foldl detach registry).children id = [] := by
    have left := objects id
    rw [present, Option.map_some] at left
    rw [children_of_get? left]
    exact filter_all_gone fun child member => children_of_get? present ▸ member
  have liveLeft : ((registry.children id).foldl detach registry).contains id = true := by
    rw [contains_eq, objects, present]
    rfl
  have pruned := pruned_removed forestLeft soundLeft liveLeft childless
  refine ⟨pruned.rest.trans rest, fun other => ?_, fun name => ?_⟩
  · rw [pruned.objects, objects, Option.map_map]
    by_cases own : other ∈ [id]
    · rw [if_pos own, if_pos own]
    rw [if_neg own, if_neg own]
    cases found : registry.get? other with
    | none => rfl
    | some left =>
        rw [Option.map_some, Option.map_some, Function.comp_apply, Object.without_loosened]
        · exact fun listed => (group?_of_get? found).symm.trans (forest.lists id other listed)
        · -- What is in the object is in nothing else.
          intro child member listed
          rw [← children_of_get? found] at member
          have both := (forest.lists other child member).symm.trans (forest.lists id child listed)
          exact own (List.mem_singleton.mpr (Option.some.inj both))
  · rw [pruned.names]
    unfold findName?
    rw [names]

end Leaving

namespace Extent

/-- What goes with an object is in it. -/
theorem leads_of_takes (listed : registry.Listed) {group child : Nat}
    (taken : registry.Takes group child) : Leads registry.group? child group := by
  obtain ⟨object, present, _, member⟩ := taken
  rw [← children_of_get? present] at member
  exact listed group child member

/-- What goes with an object, directly or over others, is below it. -/
theorem leads_of_reached (listed : registry.Listed) {id other : Nat}
    (reached : Relation.ReflTransGen registry.Takes id other) :
    Relation.ReflTransGen (Leads registry.group?) other id := by
  have above : Function.swap registry.Takes ≤ Leads registry.group? :=
    fun _ _ => leads_of_takes listed
  exact Relation.ReflTransGen.mono above other id (Relation.ReflTransGen.swap _ _ reached)

theorem nil (registry : Registry) : Extent registry [] [] :=
  ⟨List.nodup_nil, nofun, nofun, nofun, nofun⟩

/-- Nothing goes with an object that is not live. -/
theorem of_not_live {id : Nat} (dead : registry.contains id = false) : Extent registry [id] [] := by
  refine ⟨List.nodup_nil, nofun, fun root member live => ?_, nofun, nofun⟩
  rw [List.mem_singleton.mp member, dead] at live
  contradiction

/-- First what goes with an object is gone, and then what goes with some others. -/
theorem cons {root : Nat} {roots : List Nat} (first : Extent registry [root] gone)
    (pruned : Pruned registry gone between) (rest : Extent between roots later) :
    Extent registry (root :: roots) (gone ++ later) := by
  have left : ∀ id ∈ later, id ∉ gone ∧ registry.contains id = true :=
    fun id member => pruned.live_iff.mp (rest.live id member)
  constructor
  case nodup =>
    refine List.nodup_append.mpr ⟨first.nodup, rest.nodup, fun id before other after same => ?_⟩
    exact (left other after).1 (same ▸ before)
  case live =>
    intro id member
    rcases List.mem_append.mp member with before | after
    · exact first.live id before
    · exact (left id after).2
  case included =>
    intro id member live
    by_cases before : id ∈ gone
    · exact List.mem_append_left later before
    rcases List.mem_cons.mp member with rfl | among
    · exact absurd (first.included id List.mem_cons_self live) before
    · refine List.mem_append_right gone (rest.included id among ?_)
      rw [pruned.contains, live, decide_eq_true before]
      rfl
  case reached =>
    intro id member
    rcases List.mem_append.mp member with before | after
    · obtain ⟨origin, single, reached⟩ := first.reached id before
      exact ⟨origin, List.mem_singleton.mp single ▸ List.mem_cons_self, reached⟩
    · obtain ⟨origin, among, reached⟩ := rest.reached id after
      have fewer : between.Takes ≤ registry.Takes := fun _ _ taken => (pruned.takes_iff.mp taken).1
      exact ⟨origin, List.mem_cons_of_mem root among,
        Relation.ReflTransGen.mono fewer origin id reached⟩
  case closed =>
    intro id member child taken
    by_cases before : child ∈ gone
    · exact List.mem_append_left later before
    rcases List.mem_append.mp member with inside | after
    · exact absurd (first.closed id inside child taken) before
    · exact List.mem_append_right gone
        (rest.closed id after child (pruned.takes_iff.mpr ⟨taken, (left id after).1, before⟩))

/-- What goes with its children does not have a live object itself among it. -/
theorem not_mem_of_children (treelike : registry.Treelike) {id : Nat} {object : Object}
    (present : registry.get? id = some object) (inner : Extent registry object.children gone) :
    id ∉ gone := by
  intro member
  obtain ⟨child, listed, reached⟩ := inner.reached id member
  rw [← children_of_get? present] at listed
  have up := leads_of_reached treelike.listed reached
  exact treelike.acyclic id (.tail' up (treelike.listed id child listed))

/-- An object that deletes its children goes after what goes with them. -/
theorem of_children (treelike : registry.Treelike) {id : Nat} {object : Object}
    (present : registry.get? id = some object) (deletes : object.info.deletesChildren = true)
    (inner : Extent registry object.children gone) : Extent registry [id] (gone ++ [id]) := by
  have takes : ∀ child, registry.Takes id child ↔ child ∈ object.children := by
    intro child
    constructor
    · rintro ⟨twin, same, _, listed⟩
      exact Option.some.inj (present.symm.trans same) ▸ listed
    · exact fun listed => ⟨object, present, deletes, listed⟩
  constructor
  case nodup =>
    refine List.nodup_append.mpr ⟨inner.nodup, List.nodup_singleton id, ?_⟩
    intro other member own single
    rw [List.mem_singleton.mp single]
    rintro rfl
    exact inner.not_mem_of_children treelike present member
  case live =>
    intro other member
    rcases List.mem_append.mp member with inside | own
    · exact inner.live other inside
    · rw [List.mem_singleton.mp own]
      exact contains_of_get? present
  case included =>
    intro root own _
    exact List.mem_append_right gone own
  case reached =>
    intro other member
    refine ⟨id, List.mem_cons_self, ?_⟩
    rcases List.mem_append.mp member with inside | own
    · obtain ⟨child, listed, reached⟩ := inner.reached other inside
      exact .head ((takes child).mpr listed) reached
    · rw [List.mem_singleton.mp own]
  case closed =>
    intro other member child taken
    refine List.mem_append_left [id] ?_
    rcases List.mem_append.mp member with inside | own
    · exact inner.closed other inside child taken
    · rw [List.mem_singleton.mp own, takes] at taken
      have inside := treelike.listed id child (children_of_get? present ▸ taken)
      exact inner.included child taken (contains_of_group? inside)

/-- An object that lets its children go is gone alone. -/
theorem of_kept {id : Nat} {object : Object} (present : registry.get? id = some object)
    (keeps : object.info.deletesChildren = false) : Extent registry [id] [id] := by
  refine ⟨List.nodup_singleton id, fun other own => ?_, fun root own _ => own,
    fun other own => ⟨other, own, .refl⟩, fun other own child taken => ?_⟩
  · rw [List.mem_singleton.mp own]
    exact contains_of_get? present
  · obtain ⟨twin, same, deletes, _⟩ := taken
    rw [List.mem_singleton.mp own, present] at same
    rw [← Option.some.inj same, keeps] at deletes
    contradiction

/-- What is gone with a live object is what goes with it, directly or over others. -/
theorem mem_iff {id : Nat} (extent : Extent registry [id] gone)
    (live : registry.contains id = true) (other : Nat) :
    other ∈ gone ↔ Relation.ReflTransGen registry.Takes id other := by
  constructor
  · intro member
    obtain ⟨root, own, reached⟩ := extent.reached other member
    exact List.mem_singleton.mp own ▸ reached
  · intro reached
    induction reached with
    | refl => exact extent.included id List.mem_cons_self live
    | tail _ taken ih => exact extent.closed _ ih _ taken

end Extent

end Registry

end ScriptConsole
