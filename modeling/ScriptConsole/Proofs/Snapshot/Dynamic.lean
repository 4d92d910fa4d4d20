import ScriptConsole.Proofs.Snapshot.Fields

/-! # Dynamic fields that are written from a snapshot

The dynamic fields of an object are held in order of their folded names, so that they are in the
same order after they are written into a new object. With its persistent fields, all fields of a
faithful object are shown again (`ScriptConsole.Object.fieldsOf_readBack`).
-/

namespace ScriptConsole.Object

variable {object now : Object}

/-- Dynamic fields are held under their folded names, and hold something. -/
theorem Arises.dynamic (arises : object.Arises) {fields : Std.TreeMap String DynamicField}
    (has : object.dynamic = some fields) {key : String} {field : DynamicField}
    (found : fields[key]? = some field) :
    Text.fold field.name = key ∧ field.value.isEmpty = false := by
  induction arises generalizing fields key field with
  | ofClass info => exact nomatch has
  | @setField object changed name index value arises written ih =>
      unfold Object.setField at written
      split at written
      · split at written
        · contradiction
        · split at written
          · obtain rfl := Except.ok.inj written
            exact ih has found
          · contradiction
      · obtain rfl := Except.ok.inj written
        unfold setDynamic at has
        split at has
        · obtain ⟨before, old, rfl⟩ := Option.map_eq_some_iff.mp has
          rw [Std.TreeMap.getElem?_erase] at found
          split at found
          · contradiction
          · exact ih old found
        next filled =>
          obtain rfl := Option.some.inj has
          rw [Std.TreeMap.getElem?_insert] at found
          split at found
          next same =>
            obtain rfl := Option.some.inj found
            exact ⟨Std.compare_eq_iff_eq.mp same, Bool.not_eq_true _ |>.mp filled⟩
          next =>
            cases old : object.dynamic with
            | none =>
                rw [old] at found
                exact nomatch found
            | some before =>
                rw [old] at found
                exact ih old found
  | @copyFieldsFrom object source arises copied ih ihSource =>
      have dynamic : (object.copyFieldsFrom source).dynamic = source.dynamic.or object.dynamic := by
        obtain ⟨persistent, folded⟩ :=
          foldl_copyField_eq (source.info.fields.zip source.persistent) object
        unfold Object.copyFieldsFrom
        rw [folded]
      rw [dynamic] at has
      rcases Option.or_eq_some_iff.mp has with own | ⟨_, old⟩
      · exact ihSource own found
      · exact ih old found
  | elsewhere arises id name layer linked group children ih => exact ih has found

/-- The values of a map in order are those of its entries. -/
theorem values_eq_map_toList {α : Type} (map : Std.TreeMap String α) :
    map.values = map.toList.map Prod.snd := by
  have folded : map.values = map.foldr (fun _ value values => value :: values) [] := rfl
  rw [folded, Std.TreeMap.foldr_eq_foldr_toList]
  induction map.toList with
  | nil => rfl
  | cons entry entries ih => exact congrArg _ ih

/-- Entries with different keys are all found in a map that they are put into. -/
theorem getElem?_foldl_insert {α β : Type} (view : α → β) (entries : List (String × α))
    (distinct : entries.Pairwise fun entry other => entry.1 ≠ other.1)
    (made : Std.TreeMap String β) (key : String) :
    (∀ value, (key, value) ∈ entries →
      (entries.foldl (fun made entry => made.insert entry.1 (view entry.2)) made)[key]? =
        some (view value)) ∧
    ((∀ value, (key, value) ∉ entries) →
      (entries.foldl (fun made entry => made.insert entry.1 (view entry.2)) made)[key]? =
        made[key]?) := by
  induction entries generalizing made with
  | nil => exact ⟨fun _ absent => (List.not_mem_nil absent).elim, fun _ => rfl⟩
  | cons entry entries ih =>
      obtain ⟨apart, distinct⟩ := List.pairwise_cons.mp distinct
      obtain ⟨inside, outside⟩ := ih distinct (made.insert entry.1 (view entry.2))
      rw [List.foldl_cons]
      constructor
      · intro value member
        rcases List.mem_cons.mp member with rfl | later
        · rw [outside fun value member => apart _ member rfl, Std.TreeMap.getElem?_insert_self]
        · exact inside value later
      · intro absent
        have other : entry.1 ≠ key := by
          rintro rfl
          exact absent entry.2 List.mem_cons_self
        rw [outside fun value member => absent value (List.mem_cons_of_mem _ member),
          Std.TreeMap.getElem?_insert, if_neg (mt Std.compare_eq_iff_eq.mp other)]

/-- A map is made anew from its entries with their values replaced. -/
theorem values_foldl_insert {α β : Type} (map : Std.TreeMap String α) (view : α → β) :
    (map.toList.foldl (fun made entry => made.insert entry.1 (view entry.2))
      (∅ : Std.TreeMap String β)).values = map.values.map view := by
  have distinct : map.toList.Pairwise fun entry other => entry.1 ≠ other.1 :=
    map.distinct_keys_toList.imp fun apart same => apart (Std.compare_eq_iff_eq.mpr same)
  have equiv : (map.toList.foldl (fun made entry => made.insert entry.1 (view entry.2))
      (∅ : Std.TreeMap String β)).Equiv (map.map fun _ => view) := by
    refine .of_forall_constGet?_eq fun key => ?_
    obtain ⟨inside, outside⟩ := getElem?_foldl_insert view map.toList distinct ∅ key
    rw [Std.TreeMap.getElem?_map]
    cases found : map[key]? with
    | some value =>
        exact inside value (Std.TreeMap.mem_toList_iff_getElem?_eq_some.mpr found)
    | none =>
        rw [outside, Std.TreeMap.getElem?_emptyc]
        · rfl
        · intro value member
          rw [Std.TreeMap.mem_toList_iff_getElem?_eq_some.mp member] at found
          contradiction
  rw [equiv.values_eq, values_eq_map_toList, values_eq_map_toList, Std.TreeMap.toList_map,
    List.map_map, List.map_map]
  rfl

/-- How a dynamic field is shown. -/
def shownDynamic (field : DynamicField) : FieldSnapshot :=
  ⟨field.name, none, field.value.toText⟩

/-- A dynamic field as it is read back: its value is the text that was shown. -/
def asText (field : DynamicField) : DynamicField :=
  ⟨field.name, .text field.value.toText⟩

/-- An object with a dynamic field set to the text that was shown. -/
def withText (object : Object) (field : DynamicField) : Object :=
  { object with
    dynamic := some ((object.dynamic.getD {}).insert (Text.fold field.name) (asText field)) }

/-- Dynamic fields are written back one after the other. -/
theorem readBack_dynamic (fields : List DynamicField)
    (apart : ∀ field ∈ fields, now.info.fieldIndex? field.name = none)
    (filled : ∀ field ∈ fields, field.value.isEmpty = false) :
    now.readBack (fields.map shownDynamic) = fields.foldl withText now := by
  unfold readBack
  induction fields generalizing now with
  | nil => rfl
  | cons field fields ih =>
      obtain ⟨first, apart⟩ := List.forall_mem_cons.mp apart
      obtain ⟨holds, filled⟩ := List.forall_mem_cons.mp filled
      have written : now.setField field.name none (.text field.value.toText) =
          .ok (now.withText field) := by
        have selects : now.slot? field.name none = none := by
          unfold slot?
          rw [first]
          rfl
        have name : dynamicName field.name none = field.name := String.append_empty
        have some : (Value.text field.value.toText).isEmpty = false :=
          field.value.isEmpty_toText.trans holds
        unfold setField
        simp only [selects, name]
        unfold setDynamic
        rw [some]
        rfl
      rw [List.map_cons, List.foldl_cons, List.foldl_cons]
      have step : ((now.setField field.name none (.text field.value.toText)).toOption.getD now) =
          now.withText field := by
        rw [written]
        rfl
      unfold shownDynamic at ih ⊢
      rw [step]
      exact ih apart filled

/-- Writing texts to dynamic fields changes nothing but these, and leaves no table where there is
nothing to write. -/
theorem foldl_withText (fields : List DynamicField) (object : Object) :
    ∃ dynamic, fields.foldl withText object = { object with dynamic } ∧
      (fields = [] ∧ dynamic = object.dynamic ∨ dynamic = some (fields.foldl
        (fun made field => made.insert (Text.fold field.name) (asText field))
        (object.dynamic.getD {}))) := by
  induction fields generalizing object with
  | nil => exact ⟨object.dynamic, rfl, .inl ⟨rfl, rfl⟩⟩
  | cons field fields ih =>
      obtain ⟨dynamic, folded, is⟩ := ih (object.withText field)
      refine ⟨dynamic, folded, .inr ?_⟩
      rcases is with ⟨rfl, rfl⟩ | rfl <;> rfl

/-- The dynamic fields of a faithful object are all written back. -/
theorem dynamicFields_readBack (arises : object.Arises)
    (apart : ∀ field ∈ object.dynamicFields, now.info.fieldIndex? field.name = none)
    (initial : now.dynamic = none) :
    ∃ dynamic, now.readBack (object.dynamicFields.map shownDynamic) = { now with dynamic } ∧
      dynamic.elim [] Std.TreeMap.values = object.dynamicFields.map asText := by
  have entry {fields : Std.TreeMap String DynamicField} (has : object.dynamic = some fields)
      {field : String × DynamicField} (member : field ∈ fields.toList) :
      Text.fold field.2.name = field.1 ∧ field.2.value.isEmpty = false :=
    arises.dynamic has (Std.TreeMap.mem_toList_iff_getElem?_eq_some.mp member)
  have filled : ∀ field ∈ object.dynamicFields, field.value.isEmpty = false := by
    intro field member
    unfold dynamicFields at member
    cases has : object.dynamic with
    | none =>
        rw [has] at member
        exact nomatch member
    | some fields =>
        rw [has, Option.elim_some, values_eq_map_toList] at member
        obtain ⟨found, listed, rfl⟩ := List.mem_map.mp member
        exact (entry has listed).2
  obtain ⟨dynamic, folded, is⟩ := foldl_withText object.dynamicFields now
  refine ⟨dynamic, (readBack_dynamic _ apart filled).trans folded, ?_⟩
  rcases is with ⟨nothing, rfl⟩ | rfl
  · rw [nothing, initial]
    rfl
  · rw [initial]
    unfold dynamicFields
    cases has : object.dynamic with
    | none => rfl
    | some fields =>
        rw [Option.elim_some, Option.elim_some, ← values_foldl_insert fields asText]
        congr 1
        rw [values_eq_map_toList, List.foldl_map]
        refine List.foldl_ext _ _ _ fun made field member => ?_
        rw [(entry has member).1]

theorem fieldsOf_eq (object : Object) : Snapshot.fieldsOf object =
    shownFields object.info.fields object.texts ++ object.dynamicFields.map shownDynamic := by
  rw [← persistent_shown]
  rfl

/-- The fields of a faithful object are all shown again after they are written into a new object
of a class with the same fields. -/
theorem fieldsOf_readBack {object : Object} (faithful : object.Faithful) (arises : object.Arises)
    {info : ClassInfo} (same : info.fields = object.info.fields) :
    Snapshot.fieldsOf ((Object.ofClass info).readBack (Snapshot.fieldsOf object)) =
      Snapshot.fieldsOf object := by
  obtain ⟨partly, texts⟩ := texts_readBack faithful arises.shaped same
  rw [fieldsOf_eq object, readBack_append]
  generalize (Object.ofClass info).readBack (shownFields _ _) = now at partly texts
  have apart (field : DynamicField) (member : field ∈ object.dynamicFields) :
      now.info.fieldIndex? field.name = none := by
    unfold ClassInfo.fieldIndex?
    rw [partly.fields]
    exact faithful.dynamic field member
  obtain ⟨dynamic, readBack, values⟩ := dynamicFields_readBack arises apart partly.dynamic
  rw [readBack, fieldsOf_eq]
  have persistent : shownFields now.info.fields ({ now with dynamic } : Object).texts =
      shownFields object.info.fields object.texts := by
    rw [partly.fields]
    exact congrArg _ texts
  have shown : ({ now with dynamic } : Object).dynamicFields.map shownDynamic =
      object.dynamicFields.map shownDynamic := by
    unfold dynamicFields at values ⊢
    rw [values, List.map_map]
    rfl
  rw [shown]
  exact congrArg (· ++ _) persistent

end ScriptConsole.Object
