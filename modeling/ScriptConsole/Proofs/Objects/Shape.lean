import ScriptConsole.Proofs.Objects.Live

/-! # The elements of persistent fields

An object stores for every persistent field of its class as many elements as the class says,
however it came about (`ScriptConsole.Object.Arises.shaped`). So an access that selects a
persistent field finds its elements, and a write that is accepted replaces one of them
(`ScriptConsole.Object.InRange`).
-/

namespace ScriptConsole

namespace Object

/-- Objects come about as new ones of a class, by writing fields and by taking over those of
other objects. Nothing else changes what is stored in fields. -/
inductive Arises : Object → Prop where
  | ofClass (info : ClassInfo) : Arises (.ofClass info)
  | setField {object changed : Object} {name : String} {index : Option String} {value : Value}
      (arises : Arises object) (written : object.setField name index value = .ok changed) :
      Arises changed
  | copyFieldsFrom {object source : Object} (arises : Arises object) (copied : Arises source) :
      Arises (object.copyFieldsFrom source)
  | elsewhere {object : Object} (arises : Arises object) (id : Nat) (name : Option Symbol)
      (layer : Layer) (linked : List Layer) (group : Option Nat) (children : List Nat) :
      Arises { object with id, name, layer, linked, group, children }

/-- Every persistent field has as many elements as the class says. -/
def Shaped (object : Object) : Prop :=
  object.persistent.map List.length = object.info.fields.map PersistentField.count

/-- An access that selects a persistent field finds its elements. A read is of one of them, or
of none if the index is past the last one, and a write that is accepted is to one of them. -/
def InRange (object : Object) : Prop :=
  ∀ name index position field element,
    object.slot? name index = some (position, field, element) →
      ∃ elements, object.persistent[position]? = some elements ∧
        elements.length = field.count ∧
        object.getField name index =
          field.present object.toObjectBody (elements[element]?.getD .empty) ∧
        ∀ value changed, object.setField name index value = .ok changed →
          element < elements.length

/-- An access selects a field of the class at its position. -/
theorem slot?_field {object : Object} {name : String} {index : Option String}
    {position element : Nat} {field : PersistentField}
    (selects : object.slot? name index = some (position, field, element)) :
    object.info.fields[position]? = some field := by
  unfold slot? at selects
  simp only [Option.bind_eq_bind, Option.bind_eq_some_iff] at selects
  obtain ⟨place, _, found, there, selects⟩ := selects
  split at selects
  · cases selects
    exact there
  · split at selects
    · obtain ⟨_, _, selects⟩ := Option.bind_eq_some_iff.mp selects
      cases selects
      exact there
    · contradiction

namespace Shaped

variable {object : Object}

theorem ofClass (info : ClassInfo) : Shaped (.ofClass info) := by
  unfold Shaped Object.ofClass
  rw [List.map_map]
  refine List.map_congr_left fun field _ => ?_
  exact List.length_replicate

/-- The elements that an access selects are those of its field. -/
theorem elements (shaped : object.Shaped) {position : Nat} {field : PersistentField}
    (there : object.info.fields[position]? = some field) :
    ∃ elements, object.persistent[position]? = some elements ∧ elements.length = field.count := by
  have counts : (object.persistent.map List.length)[position]? = some field.count := by
    rw [shaped, List.getElem?_map, there]
    rfl
  rw [List.getElem?_map, Option.map_eq_some_iff] at counts
  exact counts

/-- Storing an element leaves all fields with as many elements as they have. -/
theorem store (shaped : object.Shaped) (position element : Nat) (value : Value) :
    (object.store position element value).Shaped := by
  have same : (object.store position element value).persistent.map List.length =
      object.persistent.map List.length := by
    refine List.ext_getElem? fun place => ?_
    unfold Object.store
    rw [List.getElem?_map, List.getElem?_map, List.getElem?_modify]
    split
    · cases object.persistent[place]? with
      | none => rfl
      | some elements => exact congrArg some List.length_set
    · cases object.persistent[place]? <;> rfl
  exact same.trans shaped

/-- A write goes to one element or to a dynamic field, so it keeps the shape. -/
theorem setField {changed : Object} {name : String} {index : Option String} {value : Value}
    (shaped : object.Shaped) (written : object.setField name index value = .ok changed) :
    changed.Shaped := by
  unfold Object.setField at written
  split at written
  · split at written
    · contradiction
    · split at written
      · obtain rfl := Except.ok.inj written
        exact shaped.store _ _ _
      · contradiction
  · obtain rfl := Except.ok.inj written
    unfold setDynamic
    split
    · exact shaped
    · exact shaped

/-- A field that is copied brings as many elements as it has itself, wherever it goes. -/
theorem copyField (shaped : object.Shaped) {entry : PersistentField × List Value}
    (length : entry.2.length = entry.1.count) : (object.copyField entry).Shaped := by
  unfold Object.copyField
  split
  · exact shaped
  next position _ =>
      split
      next same =>
          obtain ⟨field, there, equal⟩ := (Option.any_eq_true _ _).mp same
          have equal := of_decide_eq_true equal
          change (object.persistent.set position entry.2).map List.length = _
          have counts : (object.persistent.map List.length)[position]? = some entry.2.length := by
            rw [shaped, List.getElem?_map, there, length]
            exact congrArg some equal
          obtain ⟨within, equal⟩ := List.getElem?_eq_some_iff.mp counts
          rw [List.map_set, ← equal, List.set_getElem_self]
          exact shaped
      next => exact shaped

/-- Copying from an object of proper shape keeps the shape. -/
theorem copyFieldsFrom {source : Object} (shaped : object.Shaped) (other : source.Shaped) :
    (object.copyFieldsFrom source).Shaped := by
  have entries (rest : List (PersistentField × List Value))
      (lengths : ∀ entry ∈ rest, entry.2.length = entry.1.count) (start : Object)
      (isShaped : start.Shaped) : (rest.foldl Object.copyField start).Shaped := by
    induction rest generalizing start with
    | nil => exact isShaped
    | cons entry rest ih =>
        obtain ⟨first, lengths⟩ := List.forall_mem_cons.mp lengths
        exact ih lengths _ (isShaped.copyField first)
  refine entries (source.info.fields.zip source.persistent) ?_ object shaped
  intro entry member
  obtain ⟨place, found⟩ := List.mem_iff_getElem?.mp member
  obtain ⟨there, stored⟩ := List.getElem?_zip_eq_some.mp found
  obtain ⟨elements, same, length⟩ := other.elements there
  obtain rfl := Option.some.inj (stored.symm.trans same)
  exact length

/-- The elements that are stored are those that the field has. -/
theorem lt_count_iff (shaped : object.Shaped) {position : Nat} (element : Nat)
    {field : PersistentField} (there : object.info.fields[position]? = some field) :
    element < field.count ↔ (object.stored? position element).isSome = true := by
  obtain ⟨elements, found, length⟩ := shaped.elements there
  unfold stored?
  rw [found, Option.bind_some, ← length]
  simp

/-- Accesses to what has its elements are in range. -/
theorem inRange (shaped : object.Shaped) : object.InRange := by
  intro name index position field element selects
  obtain ⟨elements, stored, length⟩ := shaped.elements (slot?_field selects)
  refine ⟨elements, stored, length, ?_, ?_⟩
  · unfold getField
    rw [selects]
    simp only [stored?, stored, Option.bind_some]
  · intro value changed written
    unfold Object.setField at written
    rw [selects] at written
    simp only at written
    split at written
    · contradiction
    next within => omega

end Shaped

/-- Storing an element replaces it, if it is there, and leaves all others. -/
theorem stored?_store (object : Object) (position element other another : Nat) (value : Value) :
    (object.store position element value).stored? other another =
      if position = other ∧ element = another then (object.stored? other another).map fun _ => value
      else object.stored? other another := by
  unfold store stored?
  rw [List.getElem?_modify]
  cases object.persistent[other]? with
  | none => simp
  | some elements =>
      by_cases here : position = other
      · by_cases own : element = another
        · subst own
          simp only [here, and_self, ↓reduceIte, Option.map_eq_map, Option.map_some,
            Option.bind_some, List.getElem?_set]
          cases found : elements[element]? with
          | none =>
              rw [List.getElem?_eq_none_iff] at found
              rw [if_neg (Nat.not_lt.mpr found)]
              rfl
          | some before =>
              obtain ⟨within, _⟩ := List.getElem?_eq_some_iff.mp found
              rw [if_pos within]
              rfl
        · simp only [here, own, and_false, ↓reduceIte, Option.map_eq_map, Option.map_some,
            Option.bind_some, List.getElem?_set]
      · simp only [here, ↓reduceIte, Option.map_eq_map, Option.map_some, false_and]

/-- What came about by writing and taking over fields has its elements. -/
theorem Arises.shaped {object : Object} (arises : object.Arises) : object.Shaped := by
  induction arises with
  | ofClass info => exact .ofClass info
  | setField arises written ih => exact ih.setField written
  | copyFieldsFrom arises copied ih ihSource => exact ih.copyFieldsFrom ihSource
  | elsewhere arises id name layer linked group children ih => exact ih

/-- Accesses to what came about by writing and taking over fields are in range. -/
theorem Arises.inRange {object : Object} (arises : object.Arises) : object.InRange :=
  arises.shaped.inRange

end Object

/-- A field of a draft is written in the object, or refused by it. -/
theorem Draft.map_setField (draft : Draft) (name : String) (index : Option String)
    (value : Value) : (draft.setField name index value).map Draft.object =
      draft.object.setField name index value := by
  unfold Draft.setField
  split
  next reason refused => exact refused.symm
  next changed written => exact written.symm

theorem Draft.setField_object {draft changed : Draft} {name : String} {index : Option String}
    {value : Value} (written : draft.setField name index value = .ok changed) :
    draft.object.setField name index value = .ok changed.object := by
  rw [← draft.map_setField, written]
  rfl

/-- A property of objects lasts if writing fields keeps it, and if it is one of the class and of
what is stored in fields alone. -/
structure Object.Lasting (property : Object → Prop) : Prop where
  setField {object changed : Object} {name : String} {index : Option String} {value : Value} :
    property object → object.setField name index value = .ok changed → property changed
  elsewhere {object : Object} (holds : property object) (id : Nat) (name : Option Symbol)
    (layer : Layer) (linked : List Layer) (group : Option Nat) (children : List Nat) :
    property { object with id, name, layer, linked, group, children }

theorem Object.lasting_arises : Object.Lasting Object.Arises :=
  ⟨.setField, .elsewhere⟩

namespace Registry

variable {registry : Registry} {property : Object → Prop}

/-- Every live object has a property. -/
def Each (property : Object → Prop) (registry : Registry) : Prop :=
  ∀ id object, registry.get? id = some object → property object

namespace Each

theorem of_objects {other : Registry} (each : registry.Each property)
    (same : other.objects = registry.objects) : other.Each property := by
  intro id object found
  refine each id object ?_
  unfold get? at found ⊢
  rw [← same]
  exact found

theorem update (each : registry.Each property) (id : Nat) {change : Object → Object}
    (kept : ∀ object, property object → property (change object)) :
    (registry.update id change).Each property := by
  intro other object found
  rw [get?_update] at found
  split at found
  · obtain ⟨before, there, rfl⟩ := Option.map_eq_some_iff.mp found
    exact kept before (each other before there)
  · exact each other object found

section Lasting

variable (lasting : Object.Lasting property)
include lasting

theorem register (each : registry.Each property) {draft : Draft} (holds : property draft.object)
    (name : Option Symbol) : (registry.register draft name).2.Each property := by
  intro other object found
  rw [get?_register] at found
  split at found
  · obtain rfl := Option.some.inj found
    exact lasting.elsewhere holds _ _ draft.object.layer draft.object.linked draft.object.group
      draft.object.children
  · exact each other object found

/-- What holds of all objects holds of those that are left after a removal, if it depends neither on
children nor on groups. -/
theorem removed (each : registry.Each property) (id : Nat) :
    (registry.removed id).Each property := by
  intro other object found
  rw [get?_removed] at found
  split at found
  · contradiction
  · split at found
    · obtain ⟨before, there, rfl⟩ := Option.map_eq_some_iff.mp found
      exact lasting.elsewhere (each other before there) before.id before.name before.layer
        before.linked before.group _
    · exact each other object found

/-- What holds of all objects holds after one was renamed, if it does not depend on names. -/
theorem rename (each : registry.Each property) (id : Nat) (name : Option Symbol) :
    (registry.rename id name).2.Each property := by
  unfold Registry.rename
  split
  · exact each
  · cases there : registry.get? id with
    | none => exact each
    | some before =>
        intro other object found
        unfold get? at found
        simp only [Std.TreeMap.getElem?_insert] at found
        split at found
        · obtain rfl := Option.some.inj found
          exact lasting.elsewhere (each id before there) before.id name before.layer before.linked
            before.group before.children
        · exact each other object found

/-- What holds of all objects holds after one was taken out of its container. -/
theorem detach (each : registry.Each property) (child : Nat) :
    (registry.detach child).Each property := by
  unfold Registry.detach
  split
  · exact each
  · unfold forget
    refine (each.update child ?_).update _ ?_
    · exact fun object holds => lasting.elsewhere holds object.id object.name object.layer
        object.linked none object.children
    · exact fun object holds => lasting.elsewhere holds object.id object.name object.layer
        object.linked object.group _

theorem addChild {added : Registry} {container child : Nat} (each : registry.Each property)
    (put : registry.addChild container child = .ok added) : added.Each property := by
  obtain ⟨_, _, _, ⟨_, rfl⟩ | ⟨_, rfl⟩⟩ := addChild_cases put
  · exact each
  · refine ((each.detach lasting child).update container ?_).update child ?_
    · exact fun object holds => lasting.elsewhere holds object.id object.name object.layer
        object.linked object.group _
    · exact fun object holds => lasting.elsewhere holds object.id object.name object.layer
        object.linked (some container) object.children

end Lasting

end Each

end Registry

end ScriptConsole
