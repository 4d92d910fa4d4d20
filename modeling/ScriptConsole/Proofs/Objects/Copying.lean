import Mathlib.Data.Nat.Find
import ScriptConsole.Proofs.Objects.Access
import ScriptConsole.Proofs.Objects.Conformance

/-! # Fields that are taken over within a class

An object that takes over the fields of another one of its class gets, in a field that accesses by
name go to, the elements of the last field of that name with as many elements
(`ScriptConsole.Object.stored?_copyFieldsFrom`). Its dynamic fields become those of the other
object if that ever had one, and stay as they are otherwise. So it reads as the other object does
apart from dynamic fields that stay and fields that share a name (`ScriptConsole.Object.Replaced`).
-/

namespace ScriptConsole

/-- The last field of a class that has the name and the number of elements of a field. -/
structure ClassInfo.LastAlike (info : ClassInfo) (field : PersistentField) (last : Nat) : Prop where
  alike : ∃ other, info.fields[last]? = some other ∧ field.Alike other
  latest : ∀ later other, last < later → info.fields[later]? = some other → ¬ field.Alike other

namespace ClassInfo

variable {info : ClassInfo} {name : String} {position : Nat} {field : PersistentField}

/-- Every field has a last one that is like it. -/
theorem exists_lastAlike (there : info.fields[position]? = some field) :
    ∃ last, info.LastAlike field last := by
  classical
  let alikeAt (place : Nat) : Prop := ∃ other, info.fields[place]? = some other ∧ field.Alike other
  have within : position ≤ info.fields.length := by
    obtain ⟨inside, _⟩ := List.getElem?_eq_some_iff.mp there
    omega
  have own : alikeAt position := ⟨field, there, .refl field⟩
  refine ⟨Nat.findGreatest alikeAt info.fields.length, Nat.findGreatest_spec within own, ?_⟩
  intro later other past found alike
  obtain ⟨inside, _⟩ := List.getElem?_eq_some_iff.mp found
  exact Nat.findGreatest_is_greatest past (Nat.le_of_lt inside) ⟨other, found, alike⟩

/-- Fields with the name and the number of elements of the one that a name leads to are taken over
by it, and no others are. -/
theorem alike_iff (found : info.fieldIndex? name = some position)
    (there : info.fields[position]? = some field) (other : PersistentField) :
    field.Alike other ↔
      info.fieldIndex? other.name = some position ∧ field.count = other.count := by
  constructor
  · intro alike
    have called := beq_iff_eq.mp (fieldIndex?_name found there)
    rw [info.fieldIndex?_congr ((beq_iff_eq.mp alike.name).trans called)]
    exact ⟨found, alike.count.symm⟩
  · rintro ⟨leads, count⟩
    have called := beq_iff_eq.mp (fieldIndex?_name leads there)
    exact ⟨beq_iff_eq.mpr called.symm, count.symm⟩

end ClassInfo

namespace Object

variable {object source : Object} {name : String} {index : Option String} {position : Nat}
  {field : PersistentField}

/-- An element that a name and an index lead to is one of the first field of the name. -/
theorem slot?_fieldIndex? {element : Nat}
    (selects : object.slot? name index = some (position, field, element)) :
    object.info.fieldIndex? name = some position := by
  unfold slot? at selects
  simp only [Option.bind_eq_bind, Option.bind_eq_some_iff] at selects
  obtain ⟨place, found, other, there, selects⟩ := selects
  split at selects
  · cases selects
    exact found
  · split at selects
    · obtain ⟨_, _, selects⟩ := Option.bind_eq_some_iff.mp selects
      cases selects
      exact found
    · contradiction

section Entries

theorem info_copyField (object : Object) (entry : PersistentField × List Value) :
    (object.copyField entry).info = object.info := by
  obtain ⟨persistent, copied⟩ := object.copyField_eq entry
  rw [copied]

theorem info_foldl_copyField (entries : List (PersistentField × List Value)) (object : Object) :
    (entries.foldl copyField object).info = object.info := by
  obtain ⟨persistent, copied⟩ := foldl_copyField_eq entries object
  rw [copied]

/-- Copying fields leaves as many persistent fields as there were. -/
theorem length_foldl_copyField (entries : List (PersistentField × List Value)) (object : Object) :
    (entries.foldl copyField object).persistent.length = object.persistent.length := by
  induction entries generalizing object with
  | nil => rfl
  | cons entry entries ih =>
      rw [List.foldl_cons, ih]
      unfold copyField
      split
      · rfl
      · split
        · exact List.length_set
        · rfl

variable (found : object.info.fieldIndex? name = some position)
  (there : object.info.fields[position]? = some field)
include found there

/-- A field takes over the elements of a field that is like it. -/
theorem copyField_of_alike {entry : PersistentField × List Value} (alike : field.Alike entry.1)
    (within : position < object.persistent.length) :
    (object.copyField entry).persistent[position]? = some entry.2 := by
  obtain ⟨leads, count⟩ := (ClassInfo.alike_iff found there entry.1).mp alike
  unfold copyField
  simp only [leads, there, Option.any_some, count, decide_true, ↓reduceIte]
  exact List.getElem?_set_self within

/-- A field does not take over the elements of other fields. -/
theorem copyField_of_not_alike {entry : PersistentField × List Value}
    (different : ¬ field.Alike entry.1) :
    (object.copyField entry).persistent[position]? = object.persistent[position]? := by
  rw [ClassInfo.alike_iff found there entry.1] at different
  unfold copyField
  split
  · rfl
  next place leads =>
    by_cases here : place = position
    · subst here
      have count : field.count ≠ entry.1.count := fun same => different ⟨leads, same⟩
      simp only [there, Option.any_some, count, decide_false, Bool.false_eq_true, ↓reduceIte]
    · split
      · exact List.getElem?_set_ne here
      · rfl

theorem foldl_copyField_of_not_alike {entries : List (PersistentField × List Value)}
    (different : ∀ entry ∈ entries, ¬ field.Alike entry.1) :
    (entries.foldl copyField object).persistent[position]? = object.persistent[position]? := by
  induction entries generalizing object with
  | nil => rfl
  | cons entry entries ih =>
      obtain ⟨first, others⟩ := List.forall_mem_cons.mp different
      have kept := object.info_copyField entry
      rw [List.foldl_cons, ih (kept ▸ found) (kept ▸ there) others,
        copyField_of_not_alike found there first]

end Entries

/-- A field that a name leads to takes over the elements of the last field that is like it. -/
theorem stored?_copyFieldsFrom (same : source.info = object.info) (shaped : object.Shaped)
    (shapedSource : source.Shaped) (found : object.info.fieldIndex? name = some position)
    (there : object.info.fields[position]? = some field) {last : Nat}
    (lastAlike : object.info.LastAlike field last) (element : Nat) :
    (object.copyFieldsFrom source).stored? position element = source.stored? last element := by
  let entries := source.info.fields.zip source.persistent
  obtain ⟨other, at', alike⟩ := lastAlike.alike
  obtain ⟨elements, held, _⟩ := shapedSource.elements (same ▸ at')
  have entry : entries[last]? = some (other, elements) :=
    List.getElem?_zip_eq_some.mpr ⟨same ▸ at', held⟩
  obtain ⟨inside, is⟩ := List.getElem?_eq_some_iff.mp entry
  have parts : entries = entries.take last ++ (other, elements) :: entries.drop (last + 1) := by
    rw [← is, ← List.drop_eq_getElem_cons inside, List.take_append_drop]
  have later : ∀ entry ∈ entries.drop (last + 1), ¬ field.Alike entry.1 := by
    intro entry member
    obtain ⟨place, found⟩ := List.mem_iff_getElem?.mp member
    rw [List.getElem?_drop] at found
    obtain ⟨behind, _⟩ := List.getElem?_zip_eq_some.mp found
    exact lastAlike.latest _ entry.1 (by omega) (same ▸ behind)
  have within : position < object.persistent.length := by
    obtain ⟨stored, present, _⟩ := shaped.elements there
    exact (List.getElem?_eq_some_iff.mp present).1
  have copied : (entries.foldl copyField object).persistent[position]? = some elements := by
    have front := info_foldl_copyField (entries.take last) object
    have whole := info_copyField ((entries.take last).foldl copyField object) (other, elements)
    rw [parts, List.foldl_append, List.foldl_cons,
      foldl_copyField_of_not_alike (whole.trans front ▸ found) (whole.trans front ▸ there) later]
    refine copyField_of_alike (front ▸ found) (front ▸ there) alike ?_
    rw [length_foldl_copyField]
    exact within
  have stored : (object.copyFieldsFrom source).stored? position element =
      ((entries.foldl copyField object).persistent[position]?).bind fun elements =>
        elements[element]? := rfl
  rw [stored, copied]
  unfold stored?
  rw [held]

theorem info_copyFieldsFrom (object source : Object) :
    (object.copyFieldsFrom source).info = object.info := by
  obtain ⟨persistent, dynamic, copied⟩ := object.copyFieldsFrom_eq source
  rw [copied]

/-- Dynamic fields are taken over if the other object ever had one. -/
theorem dynamic_copyFieldsFrom (object source : Object) :
    (object.copyFieldsFrom source).dynamic = source.dynamic.or object.dynamic := by
  obtain ⟨persistent, copied⟩ :=
    foldl_copyField_eq (source.info.fields.zip source.persistent) object
  simp only [copyFieldsFrom, copied]

theorem slot?_of_info (same : source.info = object.info) (name : String) (index : Option String) :
    source.slot? name index = object.slot? name index := by
  unfold slot?
  rw [same]

/-- An object is read as a new one, where it does not keep dynamic fields of its own and where no
two fields of its class share a name. -/
structure Replaced (before updated fresh : Object) : Prop where
  /-- All dynamic fields are replaced, or none is. -/
  dynamic : ∀ name index, before.slot? name index = none →
    updated.getField name index =
      if fresh.dynamic.isSome then fresh.getField name index else before.getField name index
  /-- An element is that of the last field with the name and the number of elements. -/
  element : ∀ name index position field element,
    before.slot? name index = some (position, field, element) →
      ∃ last, before.info.LastAlike field last ∧
        updated.stored? position element = fresh.stored? last element
  persistent : ∀ name index position field element,
    before.slot? name index = some (position, field, element) →
      before.info.LastAlike field position → field.getter = none →
        updated.getField name index = fresh.getField name index

/-- What takes over the fields of an object of its class is read as an object that has them. -/
theorem replaced_copyFieldsFrom {fresh : Object} (same : source.info = object.info)
    (shaped : object.Shaped) (shapedSource : source.Shaped) (info : fresh.info = source.info)
    (persistent : fresh.persistent = source.persistent) (dynamic : fresh.dynamic = source.dynamic) :
    object.Replaced (object.copyFieldsFrom source) fresh := by
  have stored (position element : Nat) :
      fresh.stored? position element = source.stored? position element := by
    unfold stored?
    rw [persistent]
  have elements : ∀ name index position field element last,
      object.slot? name index = some (position, field, element) →
        object.info.LastAlike field last →
          (object.copyFieldsFrom source).stored? position element = fresh.stored? last element := by
    intro name index position field element last selects lastAlike
    rw [stored]
    exact stored?_copyFieldsFrom same shaped shapedSource (slot?_fieldIndex? selects)
      (slot?_field selects) lastAlike element
  have ownSlot := slot?_of_info (object.info_copyFieldsFrom source)
  have freshSlot := slot?_of_info (info.trans same)
  refine ⟨fun name index unselected => ?_, fun name index position field element selects => ?_,
    fun name index position field element selects only plain => ?_⟩
  · unfold getField dynamicField?
    rw [ownSlot, freshSlot, unselected, dynamic_copyFieldsFrom, dynamic]
    cases source.dynamic with
    | none => rfl
    | some fields => rfl
  · obtain ⟨last, lastAlike⟩ := ClassInfo.exists_lastAlike (slot?_field selects)
    exact ⟨last, lastAlike, elements name index position field element last selects lastAlike⟩
  · have read := elements name index position field element position selects only
    unfold getField
    rw [ownSlot, freshSlot, selects]
    simp only [PersistentField.present, plain, read]

/-- All dynamic fields are read as those of the new object exactly if this ever had one, or there
were none before. -/
theorem Replaced.dynamic_iff {before updated fresh : Object}
    (replaced : before.Replaced updated fresh) (same : fresh.info = before.info) :
    (∀ name index, before.slot? name index = none →
      updated.getField name index = fresh.getField name index) ↔
    fresh.dynamic.isSome = true ∨ ∀ name index, before.slot? name index = none →
      before.getField name index = .empty := by
  have reads := replaced.dynamic
  cases given : fresh.dynamic with
  | some fields =>
      simp only [given, Option.isSome_some, ↓reduceIte] at reads
      exact iff_of_true reads (.inl rfl)
  | none =>
      have nothing : ∀ name index, before.slot? name index = none →
          fresh.getField name index = .empty := by
        intro name index unselected
        unfold getField dynamicField?
        rw [slot?_of_info same, unselected, given]
        rfl
      simp only [given, Option.isSome_none, Bool.false_eq_true, ↓reduceIte] at reads
      simp only [Option.isSome_none, Bool.false_eq_true, false_or]
      refine forall_congr' fun name => forall_congr' fun index => forall_congr' fun unselected => ?_
      rw [reads name index unselected, nothing name index unselected]

end Object

end ScriptConsole
