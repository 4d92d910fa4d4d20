import ScriptConsole.Proofs.Objects.Shape

/-! # The values of persistent fields

A persistent field admits its default and what is stored in it when it is written
(`ScriptConsole.PersistentField.Admits`). An object also takes over the values of fields that have
the name and the number of elements of its own, and those are admitted by the fields that they come
from (`ScriptConsole.Object.Conforms`).
-/

namespace ScriptConsole

/-- A value of a type is brought to it as it is. -/
@[simp] theorem FieldType.coerce_coerce (type : FieldType) (value : Value) :
    type.coerce (type.coerce value) = type.coerce value := by
  cases type with
  | int => rfl
  | float => rfl
  | bool =>
      change Value.ofBool (Value.ofBool value.toBool).toBool = Value.ofBool value.toBool
      cases value.toBool <;> rfl
  | text => cases value <;> rfl

namespace PersistentField

/-- The default, if there is one, was brought to the type of the field. -/
def Sound (field : PersistentField) : Prop :=
  field.default = .empty ∨ ∃ given, field.default = field.type.coerce given

/-- What a field stores of its own: without a setter, values of its type, and nothing as long as it
has no default; with a setter, the default and what the setter accepted. -/
def Admits (field : PersistentField) (value : Value) : Prop :=
  match field.setter with
  | none => field.type.coerce value = value ∨ value = .empty ∧ field.default = .empty
  | some setter =>
    value = field.default ∨ ∃ body given, setter body (field.type.coerce given) = some value

/-- Another field has the name of a field, up to letter case, and as many elements. -/
structure Alike (field other : PersistentField) : Prop where
  name : Text.sameFolded other.name field.name = true
  count : other.count = field.count

/-- A value is admitted by one of the declared fields that have the name of a field and as many
elements. -/
def Receives (declared : PersistentField → Prop) (field : PersistentField) (value : Value) : Prop :=
  ∃ other, declared other ∧ field.Alike other ∧ other.Admits value

/-- Declared fields receive what they start with. -/
def Starting (declared : PersistentField → Prop) : Prop :=
  ∀ field, declared field → field.Receives declared field.default

section Sound

variable {field : PersistentField}

theorem sound_single (name : String) (type : FieldType) : (single name type).Sound :=
  .inl rfl

theorem sound_array (name : String) (type : FieldType) (count : Nat) :
    (array name type count).Sound :=
  .inl rfl

theorem sound_withDefault (field : PersistentField) (default : Value) :
    (field.withDefault default).Sound :=
  .inr ⟨default, rfl⟩

theorem Sound.withSetter (sound : field.Sound) (setter : ObjectBody → Value → Option Value) :
    (field.withSetter setter).Sound :=
  sound

theorem Sound.withGetter (sound : field.Sound) (getter : ObjectBody → Value → Value) :
    (field.withGetter getter).Sound :=
  sound

/-- A field admits what it starts with. -/
theorem Sound.admits_default (sound : field.Sound) : field.Admits field.default := by
  unfold Admits
  split
  · rcases sound with nothing | ⟨given, same⟩
    · exact .inr ⟨nothing, nothing⟩
    · exact .inl (by rw [same, FieldType.coerce_coerce])
  · exact .inl rfl

end Sound

/-- A field admits what is stored when it is written. -/
theorem admits_of_accept? {field : PersistentField} {body : ObjectBody} {value stored : Value}
    (accepted : field.accept? body value = some stored) : field.Admits stored := by
  unfold accept? at accepted
  unfold Admits
  split
  next without =>
    rw [without] at accepted
    obtain rfl := Option.some.inj accepted
    exact .inl (field.type.coerce_coerce value)
  next setter given =>
    rw [given] at accepted
    exact .inr ⟨body, value, accepted⟩

@[refl] theorem Alike.refl (field : PersistentField) : field.Alike field :=
  ⟨beq_self_eq_true _, rfl⟩

theorem Alike.trans {first second third : PersistentField} (alike : first.Alike second)
    (further : second.Alike third) : first.Alike third where
  name := beq_iff_eq.mpr ((beq_iff_eq.mp further.name).trans (beq_iff_eq.mp alike.name))
  count := further.count.trans alike.count

theorem Receives.of_alike {declared : PersistentField → Prop} {field other : PersistentField}
    {value : Value} (alike : field.Alike other) (receives : other.Receives declared value) :
    field.Receives declared value := by
  obtain ⟨source, known, further, admits⟩ := receives
  exact ⟨source, known, alike.trans further, admits⟩

/-- If all fields are declared, one of them has a setter that accepts the default. -/
theorem starting_of_all {declared : PersistentField → Prop} (all : ∀ field, declared field) :
    Starting declared :=
  fun field _ => ⟨{ field with setter := some fun _ _ => some field.default }, all _,
    ⟨beq_self_eq_true _, rfl⟩, .inl rfl⟩

end PersistentField

/-- The first field of a name has the name. -/
theorem ClassInfo.fieldIndex?_name {info : ClassInfo} {name : String} {position : Nat}
    {field : PersistentField} (found : info.fieldIndex? name = some position)
    (there : info.fields[position]? = some field) : Text.sameFolded field.name name = true := by
  obtain ⟨within, holds, _⟩ := List.findIdx?_eq_some_iff_getElem.mp found
  rw [List.getElem?_eq_getElem within, Option.some.injEq] at there
  exact there ▸ holds

namespace Object

/-- All fields of an object are declared ones, and hold values that they received. -/
structure Conforms (declared : PersistentField → Prop) (object : Object) : Prop where
  fields : ∀ field ∈ object.info.fields, declared field
  shaped : object.Shaped
  receives : ∀ (position : Nat) (field : PersistentField) (elements : List Value),
    object.info.fields[position]? = some field →
      object.persistent[position]? = some elements →
        ∀ value ∈ elements, field.Receives declared value

namespace Conforms

variable {declared : PersistentField → Prop} {object : Object}

theorem stored (conforms : object.Conforms declared) {position element : Nat}
    {field : PersistentField} {value : Value} (there : object.info.fields[position]? = some field)
    (stored : object.stored? position element = some value) : field.Receives declared value := by
  obtain ⟨elements, found, at'⟩ := Option.bind_eq_some_iff.mp stored
  exact conforms.receives position field elements there found value (List.mem_of_getElem? at')

/-- A new object holds the defaults of its fields. -/
theorem ofClass (starting : PersistentField.Starting declared) {info : ClassInfo}
    (fields : ∀ field ∈ info.fields, declared field) : Conforms declared (.ofClass info) := by
  refine ⟨fields, .ofClass info, fun position field elements there found value member => ?_⟩
  change (info.fields.map fun field => List.replicate field.count field.default)[position]? =
    some elements at found
  change info.fields[position]? = some field at there
  rw [List.getElem?_map, there] at found
  obtain rfl := Option.some.inj found
  obtain rfl := List.eq_of_mem_replicate member
  exact starting field (fields field (List.mem_of_getElem? there))

/-- What is stored in an element is received if the field admits it. -/
theorem store (conforms : object.Conforms declared) {position : Nat} {field : PersistentField}
    (there : object.info.fields[position]? = some field) {value : Value}
    (admits : field.Admits value) (element : Nat) :
    (object.store position element value).Conforms declared := by
  refine ⟨conforms.fields, conforms.shaped.store position element value, ?_⟩
  intro place other elements at' found stored member
  change (object.persistent.modify position fun elements => elements.set element value)[place]? =
    some elements at found
  rw [List.getElem?_modify] at found
  obtain ⟨before, held, rfl⟩ := Option.map_eq_some_iff.mp found
  split at member
  next same =>
    subst same
    rcases List.mem_or_eq_of_mem_set member with old | rfl
    · exact conforms.receives position other before at' held stored old
    · obtain rfl := Option.some.inj (there.symm.trans at')
      exact ⟨field, conforms.fields field (List.mem_of_getElem? there), .refl field, admits⟩
  next => exact conforms.receives place other before at' held stored member

/-- Fields receive what is written. -/
theorem setField {changed : Object} {name : String} {index : Option String} {value : Value}
    (conforms : object.Conforms declared)
    (written : object.setField name index value = .ok changed) : changed.Conforms declared := by
  unfold Object.setField at written
  split at written
  next position field element selects =>
    split at written
    · contradiction
    · split at written
      next accepted is =>
        obtain rfl := Except.ok.inj written
        exact conforms.store (slot?_field selects) (PersistentField.admits_of_accept? is) element
      next => contradiction
  next =>
    obtain rfl := Except.ok.inj written
    unfold setDynamic
    split
    · exact ⟨conforms.fields, conforms.shaped, conforms.receives⟩
    · exact ⟨conforms.fields, conforms.shaped, conforms.receives⟩

/-- A field receives what the field of another object received. -/
theorem copyField (conforms : object.Conforms declared) {entry : PersistentField × List Value}
    (length : entry.2.length = entry.1.count)
    (receives : ∀ value ∈ entry.2, entry.1.Receives declared value) :
    (object.copyField entry).Conforms declared := by
  have shaped := conforms.shaped.copyField length
  unfold Object.copyField at shaped ⊢
  split
  · exact conforms
  next position found =>
    split
    next same =>
      obtain ⟨own, there, equal⟩ := (Option.any_eq_true _ _).mp same
      simp only [found, same, ↓reduceIte] at shaped
      refine ⟨conforms.fields, shaped, fun place field elements at' held value member => ?_⟩
      change (object.persistent.set position entry.2)[place]? = some elements at held
      rw [List.getElem?_set] at held
      split at held
      next here =>
        subst here
        obtain rfl := Option.some.inj (there.symm.trans at')
        split at held
        · obtain rfl := Option.some.inj held
          have name := ClassInfo.fieldIndex?_name found there
          have alike : own.Alike entry.1 :=
            ⟨beq_iff_eq.mpr (beq_iff_eq.mp name).symm, (of_decide_eq_true equal).symm⟩
          exact (receives value member).of_alike alike
        · contradiction
      next => exact conforms.receives place field elements at' held value member
    next => exact conforms

/-- Fields receive what those of another object received. -/
theorem copyFieldsFrom {source : Object} (conforms : object.Conforms declared)
    (other : source.Conforms declared) : (object.copyFieldsFrom source).Conforms declared := by
  have entries (rest : List (PersistentField × List Value))
      (each : ∀ entry ∈ rest, entry.2.length = entry.1.count ∧
        ∀ value ∈ entry.2, entry.1.Receives declared value)
      (start : Object) (conforms : start.Conforms declared) :
      (rest.foldl Object.copyField start).Conforms declared := by
    induction rest generalizing start with
    | nil => exact conforms
    | cons entry rest ih =>
        obtain ⟨⟨length, receives⟩, others⟩ := List.forall_mem_cons.mp each
        exact ih others _ (conforms.copyField length receives)
  have copied := entries (source.info.fields.zip source.persistent) ?_ object conforms
  · exact ⟨copied.fields, copied.shaped, copied.receives⟩
  · intro entry member
    obtain ⟨place, found⟩ := List.mem_iff_getElem?.mp member
    obtain ⟨there, stored⟩ := List.getElem?_zip_eq_some.mp found
    obtain ⟨elements, same, length⟩ := other.shaped.elements there
    obtain rfl := Option.some.inj (stored.symm.trans same)
    exact ⟨length, other.receives place entry.1 entry.2 there stored⟩

end Conforms

theorem lasting_conforms (declared : PersistentField → Prop) : Lasting (Conforms declared) where
  setField := .setField
  elsewhere conforms _ _ _ _ _ _ := ⟨conforms.fields, conforms.shaped, conforms.receives⟩

end Object

/-- What a host makes of classes: new objects, with fields that it wrote. -/
inductive Draft.Made (declared : PersistentField → Prop) : Draft → Prop where
  | ofClass {info : ClassInfo} (fields : ∀ field ∈ info.fields, declared field) :
      Made declared (.ofClass info)
  | setField {draft changed : Draft} {name : String} {index : Option String} {value : Value}
      (made : Made declared draft) (written : draft.setField name index value = .ok changed) :
      Made declared changed

theorem Draft.Made.conforms {declared : PersistentField → Prop}
    (starting : PersistentField.Starting declared) {draft : Draft} (made : draft.Made declared) :
    draft.object.Conforms declared := by
  induction made with
  | ofClass fields => exact .ofClass starting fields
  | setField made written ih => exact ih.setField (Draft.setField_object written)

end ScriptConsole
