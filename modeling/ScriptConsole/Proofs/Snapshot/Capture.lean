import ScriptConsole.Proofs.Objects.Tidy
import ScriptConsole.Proofs.Symbol
import ScriptConsole.Snapshot.Basic

/-! # What a snapshot shows

A snapshot shows a live object and all objects below it (`ScriptConsole.Snapshot.Shows`). In a
registry of trees every live object has exactly one snapshot that does, and this is the one that
is captured (`ScriptConsole.Snapshot.capture?_eq_some_iff`): its bound cuts off nothing.
-/

namespace ScriptConsole

/-- What a snapshot shows of an object. -/
def Object.shown (object : Object) :
    ClassInfo × Option Symbol × List (List Value) × Option (Std.TreeMap String DynamicField) ×
      List Nat :=
  (object.info, object.name, object.persistent, object.dynamic, object.children)

/-- An object is another one or contained in it, directly or over others. -/
def Registry.Below (registry : Registry) (id holder : Nat) : Prop :=
  Relation.ReflTransGen (Leads registry.group?) id holder

/-- A table knows the names of all live objects, and none of them is empty. -/
def Registry.Spelled (registry : Registry) (symbols : SymbolTable) : Prop :=
  ∀ id object name, registry.get? id = some object → object.name = some name →
    symbols.Knows name ∧ name.text ≠ ""

namespace Snapshot

mutual

/-- A snapshot shows a live object and the objects below it, all of which are of some kind. -/
def Shows (registry : Registry) (kind : Nat → Prop) : Snapshot → Nat → Prop
  | ⟨className, name, fields, children⟩, id =>
    kind id ∧ ∃ object, registry.get? id = some object ∧ object.info.name.text = className ∧
      object.name.map Symbol.text = name ∧ fieldsOf object = fields ∧
      ShowsAll registry kind children object.children

/-- Snapshots show objects in order. -/
def ShowsAll (registry : Registry) (kind : Nat → Prop) : List Snapshot → List Nat → Prop
  | [], ids => ids = []
  | snapshot :: snapshots, ids =>
    ∃ id rest, ids = id :: rest ∧ Shows registry kind snapshot id ∧
      ShowsAll registry kind snapshots rest

end

mutual

/-- The names in a snapshot in order. -/
def names : Snapshot → List String
  | ⟨_, name, _, children⟩ => name.toList ++ namesAll children

/-- The names in some snapshots in order. -/
def namesAll : List Snapshot → List String
  | [] => []
  | snapshot :: snapshots => names snapshot ++ namesAll snapshots

end

variable {registry other : Registry} {kind : Nat → Prop}

/-- What is shown is a live object of the kind. -/
theorem Shows.root {snapshot : Snapshot} {id : Nat} (shows : Shows registry kind snapshot id) :
    kind id ∧ registry.contains id = true := by
  obtain ⟨className, name, fields, children⟩ := snapshot
  unfold Shows at shows
  obtain ⟨isKind, object, found, _⟩ := shows
  exact ⟨isKind, Registry.contains_of_get? found⟩

section Same

mutual

/-- An object is shown by one snapshot alone. -/
theorem Shows.unique {weaker : Nat → Prop} :
    (first second : Snapshot) → (id : Nat) → Shows registry kind first id →
      Shows registry weaker second id → first = second
  | ⟨className, name, fields, children⟩, ⟨className', name', fields', children'⟩, id => by
    intro first second
    unfold Shows at first second
    obtain ⟨_, object, found, rfl, rfl, rfl, all⟩ := first
    obtain ⟨_, same, again, rfl, rfl, rfl, others⟩ := second
    obtain rfl := Option.some.inj (found.symm.trans again)
    rw [ShowsAll.unique children children' _ all others]

/-- The same objects are shown by one row of snapshots alone. -/
theorem ShowsAll.unique {weaker : Nat → Prop} :
    (firsts seconds : List Snapshot) → (ids : List Nat) → ShowsAll registry kind firsts ids →
      ShowsAll registry weaker seconds ids → firsts = seconds
  | [], [], _ => fun _ _ => rfl
  | [], second :: seconds, ids => by
    intro first second
    unfold ShowsAll at first second
    obtain ⟨_, _, rfl, _⟩ := second
    contradiction
  | first :: firsts, [], ids => by
    intro first second
    unfold ShowsAll at first second
    obtain ⟨_, _, rfl, _⟩ := first
    contradiction
  | first :: firsts, second :: seconds, ids => by
    intro left right
    unfold ShowsAll at left right
    obtain ⟨id, rest, rfl, shows, all⟩ := left
    obtain ⟨_, _, same, again, others⟩ := right
    obtain ⟨rfl, rfl⟩ := List.cons.inj same
    rw [Shows.unique first second id shows again, ShowsAll.unique firsts seconds rest all others]

end

mutual

/-- What is shown stays so if nothing of it changes in the objects. -/
theorem Shows.later {weaker : Nat → Prop} (implies : ∀ id, kind id → weaker id)
    (same : ∀ id, kind id →
      (other.get? id).map Object.shown = (registry.get? id).map Object.shown) :
    (snapshot : Snapshot) → (id : Nat) → Shows registry kind snapshot id →
      Shows other weaker snapshot id
  | ⟨className, name, fields, children⟩, id => by
    intro shows
    unfold Shows at shows ⊢
    obtain ⟨isKind, object, found, rfl, rfl, rfl, all⟩ := shows
    have still := same id isKind
    rw [found] at still
    obtain ⟨after, there, equal⟩ := Option.map_eq_some_iff.mp still
    simp only [Object.shown, Prod.mk.injEq] at equal
    obtain ⟨info, named, persistent, dynamic, inside⟩ := equal
    refine ⟨implies id isKind, after, there, ?_, ?_, ?_, ?_⟩
    · rw [info]
    · rw [named]
    · simp only [fieldsOf, Object.persistentFields, Object.dynamicFields, info, persistent, dynamic]
    · rw [inside]
      exact ShowsAll.later implies same children object.children all

/-- Snapshots show their objects in another registry too, if what is shown of the objects is the
same there. -/
theorem ShowsAll.later {weaker : Nat → Prop} (implies : ∀ id, kind id → weaker id)
    (same : ∀ id, kind id →
      (other.get? id).map Object.shown = (registry.get? id).map Object.shown) :
    (snapshots : List Snapshot) → (ids : List Nat) → ShowsAll registry kind snapshots ids →
      ShowsAll other weaker snapshots ids
  | [], ids => by
    intro all
    unfold ShowsAll at all ⊢
    exact all
  | snapshot :: snapshots, ids => by
    intro all
    unfold ShowsAll at all ⊢
    obtain ⟨id, rest, rfl, shows, all⟩ := all
    exact ⟨id, rest, rfl, Shows.later implies same snapshot id shows,
      ShowsAll.later implies same snapshots rest all⟩

end

end Same

section Capture

variable (treelike : registry.Treelike)
include treelike

omit treelike in
/-- Objects that are captured one by one are captured in order. -/
theorem captured_all {bound : Nat} {ids : List Nat}
    (each : ∀ id ∈ ids, ∃ snapshot, captureWithin registry bound id = some snapshot ∧
      Shows registry kind snapshot id) :
    ShowsAll registry kind (ids.filterMap (captureWithin registry bound)) ids := by
  induction ids with
  | nil =>
      rw [List.filterMap_nil]
      unfold ShowsAll
      rfl
  | cons id ids ih =>
      obtain ⟨first, rest⟩ := List.forall_mem_cons.mp each
      obtain ⟨snapshot, captured, shows⟩ := first
      rw [List.filterMap_cons_some captured]
      unfold ShowsAll
      exact ⟨id, ids, rfl, shows, ih rest⟩

/-- An object is captured with all that is below it, if the bound and the number of its
containers exceed the number of objects. -/
theorem captured_within {root : Nat} (bound : Nat) {id : Nat}
    (live : registry.contains id = true) (below : registry.Below id root)
    (enough : registry.size + 2 ≤ bound + (registry.holders id).length) :
    ∃ snapshot, captureWithin registry bound id = some snapshot ∧
      Shows registry (registry.Below · root) snapshot id := by
  induction bound generalizing id with
  | zero =>
      have few : (registry.holders id).length ≤ registry.size + 1 := length_walk_le _ _ _
      omega
  | succ bound ih =>
      obtain ⟨object, found⟩ := Registry.get?_of_contains live
      have each : ∀ child ∈ object.children, ∃ snapshot,
          captureWithin registry bound child = some snapshot ∧
            Shows registry (registry.Below · root) snapshot child := by
        intro child member
        rw [← Registry.children_of_get? found] at member
        have inside := treelike.listed id child member
        refine ih (Registry.contains_of_group? inside) (.head inside below) ?_
        rw [treelike.holders_child inside, List.length_cons]
        omega
      have all := captured_all each
      unfold captureWithin
      rw [found, Option.map_some]
      refine ⟨_, rfl, ?_⟩
      unfold Shows
      exact ⟨below, object, found, rfl, rfl, rfl, all⟩

/-- A live object is captured with all that is below it. -/
theorem exists_capture? {id : Nat} (live : registry.contains id = true) :
    ∃ snapshot, capture? registry id = some snapshot ∧
      Shows registry (registry.Below · id) snapshot id := by
  have some : 0 < (registry.holders id).length := by
    unfold Registry.holders
    rw [walk]
    exact Nat.succ_pos _
  exact captured_within treelike _ live .refl (by omega)

/-- What is captured of an object is what shows it. -/
theorem capture?_eq_some_iff {id : Nat} {snapshot : Snapshot} :
    capture? registry id = some snapshot ↔ Shows registry (fun _ => True) snapshot id := by
  constructor
  · intro captured
    have live : registry.contains id = true := by
      cases found : registry.get? id with
      | none =>
          unfold capture? captureWithin at captured
          rw [found] at captured
          contradiction
      | some object => exact Registry.contains_of_get? found
    obtain ⟨other, again, shows⟩ := exists_capture? treelike live
    obtain rfl := Option.some.inj (captured.symm.trans again)
    exact Shows.later (fun _ _ => trivial) (fun _ _ => rfl) _ _ shows
  · intro shows
    obtain ⟨other, captured, again⟩ := exists_capture? treelike shows.root.2
    rw [captured, Shows.unique _ _ _ again shows]

end Capture

section Names

mutual

/-- The names in a snapshot are those of the objects that it shows. -/
theorem Shows.exists_of_mem_names (listed : registry.Listed) : (snapshot : Snapshot) → (id : Nat) →
    Shows registry kind snapshot id → ∀ name ∈ snapshot.names,
      ∃ lower object symbol, registry.Below lower id ∧ registry.get? lower = some object ∧
        object.name = some symbol ∧ symbol.text = name
  | ⟨className, name, fields, children⟩, id => by
    intro shows text member
    unfold Shows at shows
    unfold names at member
    obtain ⟨_, object, found, _, rfl, _, all⟩ := shows
    rcases List.mem_append.mp member with own | inside
    · obtain ⟨symbol, named, spelled⟩ := Option.map_eq_some_iff.mp (Option.mem_toList.mp own)
      exact ⟨id, object, symbol, .refl, found, named, spelled⟩
    · obtain ⟨child, isChild, lower, rest⟩ :=
        ShowsAll.exists_of_mem_names listed children object.children all text inside
      obtain ⟨other, symbol, below, rest⟩ := rest
      rw [← Registry.children_of_get? found] at isChild
      exact ⟨lower, other, symbol, .tail below (listed id child isChild), rest⟩

/-- A name in some snapshots is the name of one of their objects or of an object below one of them.
-/
theorem ShowsAll.exists_of_mem_names (listed : registry.Listed) : (snapshots : List Snapshot) →
    (ids : List Nat) → ShowsAll registry kind snapshots ids → ∀ name ∈ namesAll snapshots,
      ∃ id ∈ ids, ∃ lower object symbol, registry.Below lower id ∧
        registry.get? lower = some object ∧ object.name = some symbol ∧ symbol.text = name
  | [], ids => by
    intro _ text member
    unfold namesAll at member
    contradiction
  | snapshot :: snapshots, ids => by
    intro all text member
    unfold ShowsAll at all
    unfold namesAll at member
    obtain ⟨id, rest, rfl, shows, all⟩ := all
    rcases List.mem_append.mp member with first | later
    · exact ⟨id, List.mem_cons_self,
        Shows.exists_of_mem_names listed snapshot id shows text first⟩
    · obtain ⟨other, isRest, found⟩ :=
        ShowsAll.exists_of_mem_names listed snapshots rest all text later
      exact ⟨other, List.mem_cons_of_mem id isRest, found⟩

end

/-- What is below two children of one object is below one child. -/
theorem eq_of_below_children (treelike : registry.Treelike) {id first second lower : Nat}
    (firstInside : registry.group? first = some id)
    (secondInside : registry.group? second = some id)
    (belowFirst : registry.Below lower first) (belowSecond : registry.Below lower second) :
    first = second := by
  have unique : Relator.RightUnique (Leads registry.group?) :=
    fun _ _ _ left right => Option.some.inj (left.symm.trans right)
  -- One child would be below the other one, and so the object below itself.
  have apart {one other : Nat} (oneInside : registry.group? one = some id)
      (otherInside : registry.group? other = some id) (below : registry.Below one other) :
      one = other := by
    rcases Relation.ReflTransGen.cases_head below with same | ⟨between, step, rest⟩
    · exact same
    · obtain rfl := Option.some.inj (oneInside.symm.trans step)
      exact absurd (Relation.TransGen.tail' rest otherInside) (treelike.acyclic id)
  rcases Relation.ReflTransGen.total_of_right_unique unique belowFirst belowSecond with
    below | below
  · exact apart firstInside secondInside below
  · exact (apart secondInside firstInside below).symm

end Names

section Distinct

variable {symbols : SymbolTable} (tidy : registry.Tidy) (spelled : registry.Spelled symbols)
include tidy spelled

/-- Objects whose names differ in letter case alone are the same. -/
theorem eq_of_fold_eq {id other : Nat} {object another : Object} {name symbol : Symbol}
    (found : registry.get? id = some object) (named : object.name = some name)
    (again : registry.get? other = some another) (called : another.name = some symbol)
    (same : Text.fold name.text = Text.fold symbol.text) : id = other := by
  have known := (spelled id object name found named).1
  have equal : name = symbol := by
    have also : symbols.find? name.text = some symbol :=
      (SymbolTable.find?_congr same).trans (spelled other another symbol again called).1
    exact Option.some.inj (known.symm.trans also)
  have owner := tidy.owned id object name found named
  rw [equal, tidy.owned other another symbol again called] at owner
  exact (Option.some.inj owner).symm

mutual

/-- No two names in a snapshot of a live object differ in letter case alone. -/
theorem Shows.nodup_names : (snapshot : Snapshot) → (id : Nat) →
    Shows registry kind snapshot id → (snapshot.names.map Text.fold).Nodup
  | ⟨className, name, fields, children⟩, id => by
    intro shows
    unfold Shows at shows
    obtain ⟨_, object, found, _, rfl, _, all⟩ := shows
    have listed : ∀ child ∈ object.children, registry.group? child = some id := by
      intro child member
      rw [← Registry.children_of_get? found] at member
      exact tidy.listed id child member
    have apart : object.children.Nodup := by
      rw [← Registry.children_of_get? found]
      exact tidy.nodup id
    have inside := ShowsAll.nodup_names children object.children all apart id listed
    unfold names
    cases own : object.name with
    | none => exact inside
    | some symbol =>
        refine List.nodup_cons.mpr ⟨?_, inside⟩
        intro member
        obtain ⟨text, member, same⟩ := List.mem_map.mp member
        obtain ⟨child, isChild, lower, other, name, below, there, named, rfl⟩ :=
          ShowsAll.exists_of_mem_names tidy.listed children object.children all text member
        obtain rfl := eq_of_fold_eq tidy spelled there named found own same
        exact tidy.acyclic lower (Relation.TransGen.tail' below (listed child isChild))

/-- The names in the snapshots of siblings differ, also up to letter case: live objects have names
of their own, and no object is below two siblings. -/
theorem ShowsAll.nodup_names : (snapshots : List Snapshot) → (ids : List Nat) →
    ShowsAll registry kind snapshots ids → ids.Nodup → (container : Nat) →
      (∀ id ∈ ids, registry.group? id = some container) →
        ((namesAll snapshots).map Text.fold).Nodup
  | [], ids => by
    intro _ _ _ _
    exact List.nodup_nil
  | snapshot :: snapshots, ids => by
    intro all apart container listed
    unfold ShowsAll at all
    obtain ⟨id, rest, rfl, shows, all⟩ := all
    obtain ⟨first, others⟩ := List.forall_mem_cons.mp listed
    obtain ⟨different, apart⟩ := List.nodup_cons.mp apart
    unfold namesAll
    rw [List.map_append]
    refine List.nodup_append.mpr ⟨Shows.nodup_names snapshot id shows,
      ShowsAll.nodup_names snapshots rest all apart container others, ?_⟩
    intro one ofFirst other ofLater same
    obtain ⟨text, isFirst, rfl⟩ := List.mem_map.mp ofFirst
    obtain ⟨again, isLater, rfl⟩ := List.mem_map.mp ofLater
    obtain ⟨lower, object, name, below, found, named, rfl⟩ :=
      Shows.exists_of_mem_names tidy.listed snapshot id shows text isFirst
    obtain ⟨later, isRest, lower', object', name', below', found', named', rfl⟩ :=
      ShowsAll.exists_of_mem_names tidy.listed snapshots rest all again isLater
    obtain rfl := eq_of_fold_eq tidy spelled found named found' named' same
    obtain rfl := eq_of_below_children tidy.toTreelike first (others later isRest) below below'
    exact different isRest

end

end Distinct

end Snapshot

end ScriptConsole
