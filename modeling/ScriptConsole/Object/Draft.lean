import ScriptConsole.Object.Basic

/-! # Drafts of objects

Before it is registered, an object is in no container and contains nothing. Its fields
can already be set.
-/

namespace ScriptConsole

namespace Object

/-- Taking over a persistent field changes stored elements alone. -/
theorem copyField_eq (object : Object) (entry : PersistentField × List Value) :
    ∃ persistent, object.copyField entry = { object with persistent } := by
  unfold copyField
  split
  · exact ⟨object.persistent, rfl⟩
  · split
    · exact ⟨_, rfl⟩
    · exact ⟨object.persistent, rfl⟩

/-- Taking over persistent fields changes stored elements alone. -/
theorem foldl_copyField_eq (entries : List (PersistentField × List Value)) (object : Object) :
    ∃ persistent, entries.foldl copyField object = { object with persistent } := by
  induction entries generalizing object with
  | nil => exact ⟨object.persistent, rfl⟩
  | cons entry entries ih =>
    obtain ⟨first, copied⟩ := object.copyField_eq entry
    obtain ⟨rest, folded⟩ := ih { object with persistent := first }
    exact ⟨rest, by rw [List.foldl_cons, copied, folded]⟩

/-- Taking over the fields of another object changes what is stored in fields alone. -/
theorem copyFieldsFrom_eq (object source : Object) :
    ∃ persistent dynamic,
      object.copyFieldsFrom source = { object with persistent, dynamic } := by
  obtain ⟨persistent, folded⟩ :=
    foldl_copyField_eq (source.info.fields.zip source.persistent) object
  exact ⟨persistent, source.dynamic.or object.dynamic, by simp only [copyFieldsFrom, folded]⟩

/-- Writing a field changes what is stored in fields alone. -/
theorem setField_eq {object changed : Object} {name : String} {index : Option String}
    {value : Value} (written : object.setField name index value = .ok changed) :
    ∃ persistent dynamic, changed = { object with persistent, dynamic } := by
  unfold setField at written
  split at written
  · split at written
    · contradiction
    · split at written
      · obtain rfl := Except.ok.inj written
        exact ⟨_, object.dynamic, rfl⟩
      · contradiction
  · obtain rfl := Except.ok.inj written
    unfold setDynamic
    split
    · exact ⟨object.persistent, _, rfl⟩
    · exact ⟨object.persistent, _, rfl⟩

end Object

/-- An object that is not registered yet. -/
structure Draft where
  object : Object
  group_eq : object.group = none
  children_eq : object.children = []

namespace Draft

/-- A new object of a class. -/
def ofClass (info : ClassInfo) : Draft :=
  ⟨.ofClass info, rfl, rfl⟩

/-- Writes a field. -/
def setField (draft : Draft) (name : String) (index : Option String) (value : Value) :
    Except SetFieldError Draft :=
  match written : draft.object.setField name index value with
  | .error reason => .error reason
  | .ok changed =>
    .ok
      { object := changed
        group_eq := by
          obtain ⟨persistent, dynamic, rfl⟩ := Object.setField_eq written
          exact draft.group_eq
        children_eq := by
          obtain ⟨persistent, dynamic, rfl⟩ := Object.setField_eq written
          exact draft.children_eq }

/-- Takes over the fields of another object. -/
def copyFieldsFrom (draft : Draft) (source : Object) : Draft :=
  { object := draft.object.copyFieldsFrom source
    group_eq := by
      obtain ⟨persistent, dynamic, copied⟩ := draft.object.copyFieldsFrom_eq source
      rw [copied]
      exact draft.group_eq
    children_eq := by
      obtain ⟨persistent, dynamic, copied⟩ := draft.object.copyFieldsFrom_eq source
      rw [copied]
      exact draft.children_eq }

end Draft

end ScriptConsole
