import Mathlib.Data.List.Basic
import ScriptConsole.Proofs.Objects.Shape
import ScriptConsole.Proofs.Token.Spelling
import ScriptConsole.Snapshot.Basic

/-! # Persistent fields that are written from a snapshot

The fields of an object are shown as texts. Written into a new object of a class with the same
fields, those that the class declares show the same texts again if the object is faithful
(`ScriptConsole.Object.texts_readBack`): names of fields can be told apart, a field without a
value has no default, and every value is brought back from its text
(`ScriptConsole.Object.Faithful`).
-/

namespace ScriptConsole

namespace Value

theorem isEmpty_toString (n : Int) : (toString n).isEmpty = false := by
  rw [← Bool.not_eq_true, String.isEmpty_iff]
  cases n with
  | ofNat n => exact Nat.repr_ne_empty
  | negSucc n =>
      intro none
      have chars : ("-" ++ toString n.succ).toList = [] := congrArg String.toList none
      rw [String.toList_append] at chars
      exact nomatch chars

theorem positional_ne_nil {whole fraction : List Char} (some : whole ≠ []) :
    FloatText.positional whole fraction ≠ [] := by
  unfold FloatText.positional
  split
  · exact some
  · exact fun none => some (List.append_eq_nil_iff.mp none).1

/-- The text of a ratio has at least one digit. -/
theorem renderRatio_ne_nil (num den : Nat) : FloatText.renderRatio num den ≠ [] := by
  have first (digits : Nat) (count : Nat) : (Nat.toDigits 10 digits).take (count + 1) ≠ [] := by
    intro none
    rcases List.take_eq_nil_iff.mp none with zero | none
    · contradiction
    · exact Nat.toDigits_ne_nil none
  unfold FloatText.renderRatio
  simp only
  split
  · exact fun none => positional_ne_nil (first _ 0) (List.append_eq_nil_iff.mp none).1
  · split
    · exact positional_ne_nil (List.cons_ne_nil _ _)
    · exact positional_ne_nil (first _ _)

/-- A float has a text that is not empty. -/
theorem isEmpty_render (x : Float) : (FloatText.render x).isEmpty = false := by
  unfold FloatText.render
  simp only
  split
  · rfl
  · split
    · split <;> rfl
    · split
      · exact isEmpty_toString _
      · rw [← Bool.not_eq_true, String.isEmpty_iff]
        intro none
        have chars := congrArg String.toList none
        rw [String.toList_ofList] at chars
        exact renderRatio_ne_nil _ _ (List.append_eq_nil_iff.mp chars).2

/-- A value has a text without characters only if there is nothing to read. -/
theorem isEmpty_toText (value : Value) : value.toText.isEmpty = value.isEmpty := by
  cases value with
  | empty => rfl
  | text s => rfl
  | int n => exact isEmpty_toString n.toInt
  | float x => exact isEmpty_render x

end Value

/-- A text that was shown of a value of a field is brought back to a value with that text. -/
def PersistentField.ReadsBack (field : PersistentField) (value : Value) : Prop :=
  ∀ body : ObjectBody, body.isRegistered = false → ∃ again,
    field.accept? body (.text value.toText) = some again ∧ again.toText = value.toText

namespace Object

/-- The texts of the fields of an object bring all of them back. -/
structure Faithful (object : Object) : Prop where
  distinct : (object.info.fields.map fun field => Text.fold field.name).Nodup
  counts : ∀ field ∈ object.info.fields, field.count ≤ Nat.pow 2 64
  default : ∀ position field element value, object.info.fields[position]? = some field →
    object.stored? position element = some value → value.isEmpty = true →
      field.default.isEmpty = true
  value : ∀ position field element value, object.info.fields[position]? = some field →
    object.stored? position element = some value → value.isEmpty = false → field.ReadsBack value
  dynamic : ∀ field ∈ object.dynamicFields, object.info.fieldIndex? field.name = none

/-- An object after the fields of a snapshot were written one after the other. Those that are
refused are left out. -/
def readBack (object : Object) (fields : List FieldSnapshot) : Object :=
  fields.foldl
    (fun object field =>
      (object.setField field.name field.index (.text field.value)).toOption.getD object)
    object

theorem readBack_append (object : Object) (first second : List FieldSnapshot) :
    object.readBack (first ++ second) = (object.readBack first).readBack second :=
  List.foldl_append

/-- Writing fields does not change the class. -/
theorem info_readBack (object : Object) (fields : List FieldSnapshot) :
    (object.readBack fields).info = object.info := by
  unfold readBack
  induction fields generalizing object with
  | nil => rfl
  | cons field fields ih =>
      rw [List.foldl_cons, ih]
      cases written : object.setField field.name field.index (.text field.value) with
      | error reason => rfl
      | ok changed =>
          obtain ⟨persistent, dynamic, rfl⟩ := setField_eq written
          rfl

end Object

namespace Draft

/-- A draft after the fields of a snapshot were written one after the other. Those that are
refused are left out. -/
def readBack (draft : Draft) (fields : List FieldSnapshot) : Draft :=
  fields.foldl
    (fun draft field =>
      (draft.setField field.name field.index (.text field.value)).toOption.getD draft)
    draft

/-- Fields are written into the object of a draft. -/
theorem object_readBack (draft : Draft) (fields : List FieldSnapshot) :
    (draft.readBack fields).object = draft.object.readBack fields := by
  unfold readBack Object.readBack
  induction fields generalizing draft with
  | nil => rfl
  | cons field fields ih =>
      rw [List.foldl_cons, List.foldl_cons, ih, ← draft.map_setField]
      cases draft.setField field.name field.index (.text field.value) <;> rfl

end Draft

namespace Object

section Index

/-- The number of an element is read back from its text. -/
theorem elementIndex?_toString {n : Nat} (below : n < Nat.pow 2 64) :
    elementIndex? (toString n) = some n := by
  have trimmed : Text.trim (Nat.toDigits 10 n) = Nat.toDigits 10 n := by
    refine Text.trim_blankless fun c member => ?_
    obtain ⟨low, high⟩ := bounds_of_mem_toDigits member
    rw [← Bool.not_eq_true]
    unfold Text.isBlank
    simp only [Bool.or_eq_true, Bool.and_eq_true, decide_eq_true_eq, beq_iff_eq]
    omega
  unfold elementIndex?
  rw [Nat.toString_eq_ofList_toDigits, String.toList_ofList, trimmed, parseNat?_toDigits below]

end Index

section Persistent

variable {object now : Object}

/-- The field of a position is found by its name. -/
theorem fieldIndex?_of_nodup {info : ClassInfo} {position : Nat} {field : PersistentField}
    (distinct : (info.fields.map fun field => Text.fold field.name).Nodup)
    (there : info.fields[position]? = some field) :
    info.fieldIndex? field.name = some position := by
  obtain ⟨within, rfl⟩ := List.getElem?_eq_some_iff.mp there
  unfold ClassInfo.fieldIndex?
  rw [List.findIdx?_eq_some_iff_getElem]
  refine ⟨within, ?_, fun other before => ?_⟩
  · unfold Text.sameFolded
    exact beq_self_eq_true _
  · unfold Text.sameFolded
    rw [Bool.not_eq_true, beq_eq_false_iff_ne]
    intro same
    have equal : (info.fields.map fun field => Text.fold field.name)[other]? =
        (info.fields.map fun field => Text.fold field.name)[position]? := by
      rw [List.getElem?_map, List.getElem?_map, List.getElem?_eq_getElem within,
        List.getElem?_eq_getElem (Nat.lt_trans before within)]
      exact congrArg some same
    have lengths : other < (info.fields.map fun field => Text.fold field.name).length := by
      rw [List.length_map]
      exact Nat.lt_trans before within
    exact absurd ((List.getElem?_inj lengths distinct).mp equal) (Nat.ne_of_lt before)

/-- How an element of a persistent field is shown. -/
def shownElement (field : PersistentField) (element : Nat) (text : String) : FieldSnapshot :=
  ⟨field.name, if 1 < field.count then some (toString element) else none, text⟩

/-- Elements of a persistent field that hold something, from their texts. -/
def shownElements (field : PersistentField) (texts : List String) : List FieldSnapshot :=
  (texts.zipIdx.filter fun element => !element.1.isEmpty).map fun element =>
    shownElement field element.2 element.1

/-- How persistent fields are shown, from the texts of their elements. -/
def shownFields (fields : List PersistentField) (texts : List (List String)) :
    List FieldSnapshot :=
  (fields.zip texts).flatMap fun entry => shownElements entry.1 entry.2

/-- The texts of the elements of all persistent fields. -/
def texts (object : Object) : List (List String) :=
  object.persistent.map fun elements => elements.map Value.toText

/-- What a snapshot shows of persistent fields are the texts of their elements, without the empty
ones. -/
theorem persistent_shown (object : Object) :
    (object.persistentFields.map fun (name, index, value) =>
      (⟨name, index.map fun index => toString index, value.toText⟩ : FieldSnapshot)) =
      shownFields object.info.fields object.texts := by
  unfold persistentFields shownFields texts
  rw [List.zip_map_right, List.flatMap_map, List.map_flatMap]
  congr 1
  funext entry
  have filled : (fun element : String × Nat => !element.1.isEmpty) ∘ Prod.map Value.toText id =
      fun element : Value × Nat => !element.1.isEmpty := by
    funext element
    exact congrArg (!·) element.1.isEmpty_toText
  have index (field : PersistentField) (element : Nat) :
      (if 1 < field.count then some element else none).map (fun index => toString index) =
        if 1 < field.count then some (toString element) else none := by
    split <;> rfl
  unfold elementsOf shownElements shownElement
  rw [Prod.map_snd, List.zipIdx_map, List.filter_map, filled, List.map_map, List.map_map]
  refine List.map_congr_left fun element _ => ?_
  simp only [Function.comp_apply, index]
  rfl

/-- The text of a stored element. -/
def text? (object : Object) (position element : Nat) : Option String :=
  (object.stored? position element).map Value.toText

/-- A field of a snapshot shows an element of an object. -/
def ShowsElement (object : Object) (item : FieldSnapshot) (position element : Nat) : Prop :=
  ∃ field value, object.info.fields[position]? = some field ∧
    object.stored? position element = some value ∧ value.isEmpty = false ∧
    item = shownElement field element value.toText

/-- What is written of an object into a new one: its elements are the default, or show what those
of the object show. -/
structure Partly (object now : Object) : Prop where
  fields : now.info.fields = object.info.fields
  free : now.isRegistered = false
  shaped : now.Shaped
  dynamic : now.dynamic = none
  stored : ∀ position element field value, object.info.fields[position]? = some field →
    now.stored? position element = some value →
      value = field.default ∨
        object.text? position element = some value.toText ∧ value.isEmpty = false

/-- Storing a value changes the text of its element, if there is one, and no other. -/
theorem text?_store (object : Object) (position element other another : Nat) (value : Value) :
    (object.store position element value).text? other another =
      if position = other ∧ element = another then
        (object.text? other another).map fun _ => value.toText
      else object.text? other another := by
  unfold text?
  rw [stored?_store]
  split
  · rw [Option.map_map, Option.map_map]
    rfl
  · rfl

/-- An element that is shown is written back. -/
theorem setField_shown (faithful : object.Faithful) (shaped : object.Shaped)
    (partly : object.Partly now) {item : FieldSnapshot} {position element : Nat}
    (shows : object.ShowsElement item position element) :
    ∃ again, now.setField item.name item.index (.text item.value) =
        .ok (now.store position element again) ∧
      object.text? position element = some again.toText ∧ again.isEmpty = false := by
  obtain ⟨field, value, there, stored, filled, rfl⟩ := shows
  have member := List.mem_of_getElem? there
  have below := (shaped.lt_count_iff _ there).mpr (Option.isSome_of_eq_some stored)
  have found : now.info.fieldIndex? field.name = some position := by
    unfold ClassInfo.fieldIndex?
    rw [partly.fields]
    exact fieldIndex?_of_nodup faithful.distinct there
  have selects : now.slot? field.name (if 1 < field.count then some (toString element) else none) =
      some (position, field, element) := by
    unfold slot?
    rw [found, partly.fields]
    simp only [Option.bind_eq_bind, Option.bind_some, there]
    split
    next single =>
      split at single
      · contradiction
      · have zero : element = 0 := by omega
        rw [zero]
        rfl
    next index several =>
      split at several
      next more =>
        obtain rfl := Option.some.inj several
        have bound := faithful.counts field member
        rw [if_pos more, elementIndex?_toString (Nat.lt_of_lt_of_le below bound)]
        rfl
      next => contradiction
  obtain ⟨again, accepted, same⟩ :=
    faithful.value position field element value there stored filled now.toObjectBody partly.free
  refine ⟨again, ?_, ?_, ?_⟩
  · unfold setField shownElement
    simp only [selects, if_neg (Nat.not_le.mpr below), accepted]
  · unfold text?
    rw [stored, same]
    rfl
  · rw [← again.isEmpty_toText, same, value.isEmpty_toText]
    exact filled

/-- Writing one more element that is shown keeps all elements at the default or as shown. -/
theorem Partly.store (partly : object.Partly now) {position element : Nat} {value : Value}
    (shown : object.text? position element = some value.toText) (filled : value.isEmpty = false) :
    object.Partly (now.store position element value) where
  fields := partly.fields
  free := partly.free
  shaped := partly.shaped.store position element value
  dynamic := partly.dynamic
  stored other another field found there is := by
    rw [stored?_store] at is
    split at is
    next own =>
      obtain ⟨rfl, rfl⟩ := own
      obtain ⟨_, _, rfl⟩ := Option.map_eq_some_iff.mp is
      exact .inr ⟨shown, filled⟩
    next => exact partly.stored other another field found there is

/-- Elements that are written back stay so. -/
theorem readBack_shown (faithful : object.Faithful) (shaped : object.Shaped)
    (items : List FieldSnapshot)
    (shown : ∀ item ∈ items, ∃ position element, object.ShowsElement item position element)
    (partly : object.Partly now) :
    object.Partly (now.readBack items) ∧
      (∀ position element, object.text? position element = now.text? position element →
        object.text? position element = (now.readBack items).text? position element) ∧
      ∀ item ∈ items, ∀ position element, object.ShowsElement item position element →
        object.text? position element = (now.readBack items).text? position element := by
  induction items generalizing now with
  | nil => exact ⟨partly, fun _ _ => id, fun _ absent => nomatch absent⟩
  | cons item items ih =>
      obtain ⟨⟨position, element, shows⟩, others⟩ := List.forall_mem_cons.mp shown
      obtain ⟨again, written, text, filled⟩ := setField_shown faithful shaped partly shows
      obtain ⟨after, still, done⟩ := ih others (partly.store text filled)
      have step : now.readBack (item :: items) =
          (now.store position element again).readBack items := by
        unfold readBack
        rw [List.foldl_cons, written]
        rfl
      rw [step]
      have kept (other another : Nat)
          (same : object.text? other another = now.text? other another) :
          object.text? other another = (now.store position element again).text? other another := by
        rw [text?_store]
        split
        next own =>
          obtain ⟨rfl, rfl⟩ := own
          rw [← same, text]
          rfl
        next => exact same
      refine ⟨after, fun other another same => still other another (kept other another same), ?_⟩
      refine List.forall_mem_cons.mpr ⟨fun other another shows => still other another ?_, done⟩
      -- The item is written to the same element, whichever one it is taken to show.
      obtain ⟨value, writtenHere, textHere, _⟩ := setField_shown faithful shaped partly shows
      have equal := Except.ok.inj (written.symm.trans writtenHere)
      obtain ⟨field, _, there, stored, _⟩ := shows
      have below := (shaped.lt_count_iff _ there).mpr (Option.isSome_of_eq_some stored)
      obtain ⟨before, present⟩ := Option.isSome_iff_exists.mp
        ((partly.shaped.lt_count_iff _ (partly.fields ▸ there)).mp below)
      rw [equal, textHere, text?_store, if_pos ⟨rfl, rfl⟩]
      unfold text?
      rw [present]
      rfl

/-- Persistent fields are shown element by element. -/
theorem mem_shownFields {item : FieldSnapshot} :
    item ∈ shownFields object.info.fields object.texts ↔
      ∃ position element, object.ShowsElement item position element := by
  unfold shownFields shownElements
  rw [List.mem_flatMap]
  constructor
  · rintro ⟨entry, member, listed⟩
    obtain ⟨position, found⟩ := List.mem_iff_getElem?.mp member
    obtain ⟨there, shown⟩ := List.getElem?_zip_eq_some.mp found
    obtain ⟨⟨text, element⟩, within, rfl⟩ := List.mem_map.mp listed
    obtain ⟨within, filled⟩ := List.mem_filter.mp within
    have is := List.mem_zipIdx_iff_getElem?.mp within
    unfold texts at shown
    rw [List.getElem?_map] at shown
    obtain ⟨elements, stored, same⟩ := Option.map_eq_some_iff.mp shown
    rw [← same, List.getElem?_map] at is
    obtain ⟨value, holds, rfl⟩ := Option.map_eq_some_iff.mp is
    refine ⟨position, element, entry.1, value, there, ?_, ?_, rfl⟩
    · unfold stored?
      rw [stored]
      exact holds
    · rw [← value.isEmpty_toText]
      exact Bool.not_eq_true' _ |>.mp filled
  · rintro ⟨position, element, field, value, there, stored, filled, rfl⟩
    obtain ⟨elements, found, holds⟩ := Option.bind_eq_some_iff.mp stored
    refine ⟨(field, elements.map Value.toText), ?_, ?_⟩
    · refine List.mem_iff_getElem?.mpr ⟨position, List.getElem?_zip_eq_some.mpr ⟨there, ?_⟩⟩
      unfold texts
      rw [List.getElem?_map, found]
      rfl
    · refine List.mem_map.mpr ⟨(value.toText, element), List.mem_filter.mpr ⟨?_, ?_⟩, rfl⟩
      · refine List.mem_zipIdx_iff_getElem?.mpr ?_
        rw [List.getElem?_map, holds]
        rfl
      · rw [value.isEmpty_toText, filled]
        rfl

theorem text?_eq (object : Object) (position element : Nat) :
    object.text? position element = (object.texts[position]?).bind (·[element]?) := by
  unfold text? stored? texts
  rw [List.getElem?_map]
  cases object.persistent[position]? with
  | none => rfl
  | some elements =>
      rw [Option.bind_some, Option.map_some, Option.bind_some, List.getElem?_map]

/-- Objects with as many fields show the same texts if they do element by element. -/
theorem texts_eq (length : now.persistent.length = object.persistent.length)
    (same : ∀ position element, object.text? position element = now.text? position element) :
    now.texts = object.texts := by
  refine List.ext_getElem? fun position => ?_
  have same (element : Nat) := same position element
  simp only [text?_eq] at same
  have lengths : now.texts.length = object.texts.length := by
    unfold texts
    rw [List.length_map, List.length_map, length]
  rcases Nat.lt_or_ge position now.texts.length with within | beyond
  · rw [List.getElem?_eq_getElem within, List.getElem?_eq_getElem (lengths ▸ within)] at same ⊢
    exact congrArg some (List.ext_getElem? fun element => (same element).symm)
  · rw [List.getElem?_eq_none beyond, List.getElem?_eq_none (lengths ▸ beyond)]

theorem Shaped.length (shaped : object.Shaped) :
    object.persistent.length = object.info.fields.length := by
  have counts := congrArg List.length shaped
  rw [List.length_map, List.length_map] at counts
  exact counts

/-- A new object of a class with the same fields holds nothing of an object yet. -/
theorem Partly.ofClass {info : ClassInfo} (same : info.fields = object.info.fields) :
    object.Partly (.ofClass info) where
  fields := same
  free := rfl
  shaped := .ofClass info
  dynamic := rfl
  stored position element field value there is := by
    unfold stored? Object.ofClass at is
    rw [List.getElem?_map, same, there] at is
    exact .inl (List.eq_of_mem_replicate (List.mem_of_getElem? is))

/-- The persistent fields of a faithful object are all written back. -/
theorem texts_readBack (faithful : object.Faithful) (shaped : object.Shaped) {info : ClassInfo}
    (same : info.fields = object.info.fields) :
    object.Partly ((Object.ofClass info).readBack (shownFields object.info.fields object.texts)) ∧
      ((Object.ofClass info).readBack (shownFields object.info.fields object.texts)).texts =
        object.texts := by
  obtain ⟨partly, _, shown⟩ := readBack_shown faithful shaped _
    (fun item member => mem_shownFields.mp member) (.ofClass same)
  generalize (Object.ofClass info).readBack _ = now at partly shown ⊢
  refine ⟨partly, texts_eq ?_ fun position element => ?_⟩
  · rw [partly.shaped.length, shaped.length, partly.fields]
  cases there : object.info.fields[position]? with
  | none =>
      have beyond := List.getElem?_eq_none_iff.mp there
      have nothing (one : Object) (length : one.persistent.length = object.info.fields.length) :
          one.text? position element = none := by
        unfold text? stored?
        rw [List.getElem?_eq_none (length ▸ beyond)]
        rfl
      rw [nothing object shaped.length, nothing now (partly.fields ▸ partly.shaped.length)]
  | some field =>
      have both := (shaped.lt_count_iff element there).symm.trans
        (partly.shaped.lt_count_iff _ (partly.fields ▸ there))
      cases stored : object.stored? position element with
      | none =>
          have absent : now.stored? position element = none := by
            rw [← Option.not_isSome_iff_eq_none, ← both, stored]
            exact Bool.false_ne_true
          unfold text?
          rw [stored, absent]
      | some value =>
          obtain ⟨again, is⟩ := Option.isSome_iff_exists.mp
            (both.mp (Option.isSome_of_eq_some stored))
          cases filled : value.isEmpty with
          | false =>
              have shows : object.ShowsElement (shownElement field element value.toText)
                  position element := ⟨field, value, there, stored, filled, rfl⟩
              exact shown _ (mem_shownFields.mpr ⟨position, element, shows⟩) position element shows
          | true =>
              rcases partly.stored position element field again there is with initial | ⟨same, _⟩
              · have empty : again.isEmpty = true :=
                  initial ▸ faithful.default position field element value there stored filled
                rw [← value.isEmpty_toText, String.isEmpty_iff] at filled
                rw [← again.isEmpty_toText, String.isEmpty_iff] at empty
                unfold text?
                rw [stored, is, Option.map_some, Option.map_some, filled, empty]
              · rw [same]
                unfold text?
                rw [is]
                rfl

end Persistent

end Object

end ScriptConsole
