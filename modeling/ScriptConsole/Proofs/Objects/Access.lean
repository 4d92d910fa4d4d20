import ScriptConsole.Console.Objects
import ScriptConsole.Proofs.Objects.Shape

/-! # Where accesses to fields go

Reads and writes of a field go to the same place (`ScriptConsole.Object.placeOf`): an element of a
persistent field, or the dynamic field of a folded name. A write changes what is held in its place
and in no other one (`ScriptConsole.Object.held_setField`), and a write that is refused changes
nothing (`ScriptConsole.Object.write_then_read`).
-/

namespace ScriptConsole

/-- What an access to a field goes to. -/
inductive FieldPlace where
  | element (position element : Nat)
  /-- The dynamic field of a folded name. -/
  | dynamic (key : String)
  deriving DecidableEq

/-- The text in lower case is made part by part. -/
theorem Text.fold_append (first second : String) :
    fold (first ++ second) = fold first ++ fold second := by
  unfold fold
  rw [String.toList_append, List.map_append, String.ofList_append]

/-- The field of a name does not depend on the case of its letters. -/
theorem ClassInfo.fieldIndex?_congr (info : ClassInfo) {name other : String}
    (same : Text.fold name = Text.fold other) : info.fieldIndex? name = info.fieldIndex? other := by
  unfold fieldIndex? Text.sameFolded
  rw [same]

namespace Object

variable {object changed : Object} {name other : String} {index : Option String} {value : Value}

/-- The place that an access by name and index goes to. -/
def placeOf (object : Object) (name : String) (index : Option String) : FieldPlace :=
  match object.slot? name index with
  | some (position, _, element) => .element position element
  | none => .dynamic (Text.fold (dynamicName name index))

/-- What an object holds in a place. -/
def held (object : Object) : FieldPlace → Option Value
  | .element position element => object.stored? position element
  | .dynamic key =>
    (object.dynamic.bind fun fields => fields[key]?).map DynamicField.value

/-- The element of a field with several elements that an index selects. No index selects the
first one. -/
def selected? : Option String → Option Nat
  | none => some 0
  | some index => elementIndex? index

section Spelling

theorem slot?_congr (object : Object) (same : Text.fold name = Text.fold other)
    (index : Option String) : object.slot? name index = object.slot? other index := by
  unfold slot?
  rw [object.info.fieldIndex?_congr same]

/-- The case of letters of a name does not matter. -/
theorem placeOf_congr (object : Object) (same : Text.fold name = Text.fold other)
    (index : Option String) : object.placeOf name index = object.placeOf other index := by
  have key : Text.fold (dynamicName name index) = Text.fold (dynamicName other index) := by
    unfold dynamicName
    rw [Text.fold_append, Text.fold_append, same]
  unfold placeOf
  rw [object.slot?_congr same, key]

/-- An access to a field with several elements goes to the one that the index selects. -/
theorem placeOf_selected {position element : Nat} {field : PersistentField}
    (found : object.info.fieldIndex? name = some position)
    (there : object.info.fields[position]? = some field) (several : 1 < field.count)
    (selects : selected? index = some element) :
    object.placeOf name index = .element position element := by
  have slot : object.slot? name index = some (position, field, element) := by
    unfold slot?
    simp only [found, there, Option.bind_eq_bind, Option.bind_some]
    cases index with
    | none =>
        obtain rfl := Option.some.inj selects
        rfl
    | some text =>
        simp only [several, ↓reduceIte, show elementIndex? text = some element from selects]
        rfl
  unfold placeOf
  rw [slot]

end Spelling

section Reading

/-- A persistent field presents what is held in the place of an access. -/
theorem getField_of_slot {position element : Nat} {field : PersistentField}
    (selects : object.slot? name index = some (position, field, element)) :
    object.getField name index = field.present object.toObjectBody
      ((object.held (object.placeOf name index)).getD .empty) := by
  unfold getField placeOf
  rw [selects]
  rfl

/-- Otherwise what is held in the place of an access is read. -/
theorem getField_of_no_slot (dynamic : object.slot? name index = none) :
    object.getField name index = (object.held (object.placeOf name index)).getD .empty := by
  unfold getField placeOf
  rw [dynamic]
  rfl

end Reading

section Writing

/-- What is stored for a value that is written: nothing for an empty dynamic field. -/
def written? (object : Object) (name : String) (index : Option String) (value : Value) :
    Option Value :=
  match object.slot? name index with
  | some (_, field, _) => field.accept? object.toObjectBody value
  | none => if value.isEmpty then none else some value

theorem slot?_setField (written : object.setField name index value = .ok changed)
    (other : String) (another : Option String) :
    changed.slot? other another = object.slot? other another := by
  obtain ⟨persistent, dynamic, rfl⟩ := setField_eq written
  rfl

theorem placeOf_setField (written : object.setField name index value = .ok changed)
    (other : String) (another : Option String) :
    changed.placeOf other another = object.placeOf other another := by
  unfold placeOf
  rw [slot?_setField written]

/-- Storing an element changes the element, if the object has it, and no other place. -/
theorem held_store (object : Object) (position element : Nat) (value : Value) (place : FieldPlace) :
    (object.store position element value).held place =
      if place = .element position element then (object.held place).map fun _ => value
      else object.held place := by
  cases place with
  | element other another =>
      change (object.store position element value).stored? other another = _
      rw [stored?_store]
      simp only [FieldPlace.element.injEq, eq_comm]
      rfl
  | dynamic key => rfl

/-- Setting a dynamic field changes the field of the folded name alone. An empty value takes it
away. -/
theorem held_setDynamic (object : Object) (name : String) (value : Value) (place : FieldPlace) :
    (object.setDynamic name value).held place =
      if place = .dynamic (Text.fold name) then if value.isEmpty then none else some value
      else object.held place := by
  cases place with
  | element position element =>
      unfold setDynamic
      split <;> rfl
  | dynamic key =>
      unfold setDynamic held
      simp only [FieldPlace.dynamic.injEq]
      by_cases same : key = Text.fold name
      · subst same
        split
        · cases object.dynamic <;> simp
        · simp
      · have apart : ¬ Text.fold name = key := fun equal => same equal.symm
        simp only [same, ↓reduceIte]
        split
        · cases object.dynamic <;> simp [Std.TreeMap.getElem?_erase, apart]
        · cases object.dynamic <;> simp [Std.TreeMap.getElem?_insert, apart]

/-- A write changes what is held in its place, and in no other one. -/
theorem held_setField (shaped : object.Shaped)
    (written : object.setField name index value = .ok changed) (place : FieldPlace) :
    changed.held place =
      if place = object.placeOf name index then object.written? name index value
      else object.held place := by
  unfold setField at written
  unfold placeOf written?
  cases selects : object.slot? name index with
  | none =>
      simp only [selects] at written ⊢
      obtain rfl := Except.ok.inj written
      exact object.held_setDynamic _ value place
  | some slot =>
      obtain ⟨position, field, element⟩ := slot
      simp only [selects] at written ⊢
      split at written
      · contradiction
      next within =>
        split at written
        next accepted is =>
          obtain rfl := Except.ok.inj written
          rw [held_store, is]
          split
          next here =>
            -- The element is one of those that the object has.
            have present := (shaped.lt_count_iff element (slot?_field selects)).mp
              (Nat.lt_of_not_le within)
            obtain ⟨before, found⟩ := Option.isSome_iff_exists.mp present
            rw [here]
            exact congrArg (Option.map fun _ => accepted) found
          next => rfl
        next => contradiction

/-- A write is refused if it is to an element that there is not, or if the setter of the field
refuses the value. -/
theorem setField_refused_iff : (∃ reason, object.setField name index value = .error reason) ↔
    ∃ position field element, object.slot? name index = some (position, field, element) ∧
      (field.count ≤ element ∨ field.accept? object.toObjectBody value = none) := by
  unfold setField
  cases object.slot? name index with
  | none =>
      refine iff_of_false ?_ ?_
      · rintro ⟨reason, absurd⟩
        exact nomatch absurd
      · rintro ⟨position, field, element, absurd, _⟩
        exact nomatch absurd
  | some slot =>
      obtain ⟨position, field, element⟩ := slot
      simp only [Option.some.injEq, Prod.mk.injEq]
      by_cases past : field.count ≤ element
      · simp only [past, ↓reduceIte]
        exact iff_of_true ⟨_, rfl⟩ ⟨_, _, _, ⟨rfl, rfl, rfl⟩, .inl past⟩
      · simp only [past, ↓reduceIte]
        cases accepted : field.accept? object.toObjectBody value with
        | none => exact iff_of_true ⟨_, rfl⟩ ⟨_, _, _, ⟨rfl, rfl, rfl⟩, .inr accepted⟩
        | some stored =>
            refine iff_of_false ?_ ?_
            · rintro ⟨reason, absurd⟩
              exact nomatch absurd
            · rintro ⟨_, _, _, ⟨rfl, rfl, rfl⟩, beyond | refused⟩
              · exact past beyond
              · rw [accepted] at refused
                contradiction

/-- What is written to a persistent field was accepted by it. -/
theorem accept?_of_setField {position element : Nat} {field : PersistentField}
    (selects : object.slot? name index = some (position, field, element))
    (written : object.setField name index value = .ok changed) :
    ∃ stored, field.accept? object.toObjectBody value = some stored := by
  cases accepted : field.accept? object.toObjectBody value with
  | some stored => exact ⟨stored, rfl⟩
  | none =>
      obtain ⟨reason, refused⟩ :=
        setField_refused_iff.mpr ⟨position, field, element, selects, .inr accepted⟩
      rw [written] at refused
      contradiction

/-- Accesses that go to one place select the same element. -/
theorem slot?_of_placeOf {position element : Nat} {field : PersistentField}
    (selects : object.slot? name index = some (position, field, element)) {another : Option String}
    (same : object.placeOf other another = object.placeOf name index) :
    object.slot? other another = some (position, field, element) := by
  unfold placeOf at same
  rw [selects] at same
  cases found : object.slot? other another with
  | none => simp only [found, reduceCtorEq] at same
  | some slot =>
      obtain ⟨place, kind, number⟩ := slot
      simp only [found, FieldPlace.element.injEq] at same
      obtain ⟨rfl, rfl⟩ := same
      rw [← Option.some.inj ((slot?_field found).symm.trans (slot?_field selects))]

/-- Accesses that go to one place are all to dynamic fields, or none is. -/
theorem no_slot_of_placeOf (dynamic : object.slot? name index = none) {another : Option String}
    (same : object.placeOf other another = object.placeOf name index) :
    object.slot? other another = none := by
  cases found : object.slot? other another with
  | none => rfl
  | some slot =>
      have selects := slot?_of_placeOf found same.symm
      rw [dynamic] at selects
      contradiction

end Writing

end Object

/-- Writing a field of an object, however it came about. A write is refused if it is to an
element that there is not or the setter refuses the value, and then nothing changes. Otherwise
every access that goes to the same place reads what was accepted, as long as no getter replaces
it: for a persistent field the coerced value, or what the setter made of it, and for a dynamic
field the value, or nothing if that is empty. All other places hold what they held. The case of
letters has no part in where an access goes, and for a field with several elements only the number
does that the index stands for. -/
theorem Object.write_then_read {object : Object} (arises : object.Arises) (name : String)
    (index : Option String) (value : Value) :
    ((∃ reason, object.setField name index value = .error reason) ↔
      ∃ position field element, object.slot? name index = some (position, field, element) ∧
        (field.count ≤ element ∨ field.accept? object.toObjectBody value = none)) ∧
    (∀ reason, object.setField name index value = .error reason →
      ∀ (world : World) id, world.registry.get? id = some object →
        (World.setField id name index value).run world = (.error reason, world)) ∧
    (∀ changed, object.setField name index value = .ok changed →
      (∀ (world : World) id, world.registry.get? id = some object →
        ((World.setField id name index value).run world).1 = .ok () ∧
        ((World.setField id name index value).run world).2.registry.get? id = some changed) ∧
      (∀ other another, object.placeOf other another = object.placeOf name index →
        (∀ position field element, object.slot? name index = some (position, field, element) →
          field.getter = none →
            field.accept? object.toObjectBody value = some (changed.getField other another)) ∧
        (object.slot? name index = none →
          changed.getField other another = if value.isEmpty then .empty else value)) ∧
      ∀ place, place ≠ object.placeOf name index → changed.held place = object.held place) ∧
    (∀ other, Text.fold other = Text.fold name →
      object.placeOf other index = object.placeOf name index) ∧
    ∀ position field, object.info.fieldIndex? name = some position →
      object.info.fields[position]? = some field → 1 < field.count →
        ∀ another element, selected? another = some element → selected? index = some element →
          object.placeOf name another = object.placeOf name index := by
  refine ⟨setField_refused_iff, fun reason refused world id live =>
    World.setField_run_error live refused, fun changed written => ⟨?_, ?_, ?_⟩,
    fun other same => object.placeOf_congr same index, ?_⟩
  · intro world id live
    rw [World.setField_run_ok live written]
    refine ⟨rfl, ?_⟩
    rw [Registry.get?_update, if_pos rfl, live, Option.map_some]
  · intro other another same
    have held := held_setField arises.shaped written (object.placeOf name index)
    rw [if_pos rfl] at held
    refine ⟨fun position field element selects plain => ?_, fun dynamic => ?_⟩
    · have slot : changed.slot? other another = some (position, field, element) := by
        rw [slot?_setField written, slot?_of_placeOf selects same]
      obtain ⟨stored, accepted⟩ := accept?_of_setField selects written
      rw [getField_of_slot slot, placeOf_setField written, same, held]
      unfold PersistentField.present written?
      simp only [plain, selects, accepted, Option.getD_some]
    · have slot : changed.slot? other another = none := by
        rw [slot?_setField written, no_slot_of_placeOf dynamic same]
      rw [getField_of_no_slot slot, placeOf_setField written, same, held]
      unfold written?
      rw [dynamic]
      simp only
      split <;> rfl
  · intro place different
    rw [held_setField arises.shaped written, if_neg different]
  · intro position field found there several another element first second
    rw [placeOf_selected found there several first, placeOf_selected found there several second]

/-- A class with a field of two elements. -/
def rackClass : ClassInfo :=
  ⟨⟨0, false, "Rack"⟩, [], [.array "slots" .text 2], false, false, false, false⟩

/-- An element that is written by one spelling is read by another one, and the other element
stays. -/
theorem Object.write_then_read_rack :
    ∃ changed, (Object.ofClass rackClass).Arises ∧
      (Object.ofClass rackClass).setField "Slots" (some " 1") (.text "b") = .ok changed ∧
      changed.getField "slots" (some "+1") = .text "b" ∧
      changed.held (.element 0 0) = (Object.ofClass rackClass).held (.element 0 0) := by
  obtain ⟨_, _, accepted, _, _⟩ :=
    Object.write_then_read (.ofClass rackClass) "Slots" (some " 1") (.text "b")
  have fits :
      ((Object.ofClass rackClass).setField "Slots" (some " 1") (.text "b")).isOk = true := by
    decide +kernel
  cases written : (Object.ofClass rackClass).setField "Slots" (some " 1") (.text "b") with
  | error reason =>
      rw [written] at fits
      contradiction
  | ok changed =>
      obtain ⟨_, reads, others⟩ := accepted changed written
      obtain ⟨persistent, _⟩ := reads "slots" (some "+1") (by decide +kernel)
      have stored := persistent 0 (.array "slots" .text 2) 1 rfl rfl
      refine ⟨changed, .ofClass rackClass, rfl, (Option.some.inj stored).symm, ?_⟩
      exact others (.element 0 0) (by decide +kernel)

end ScriptConsole
