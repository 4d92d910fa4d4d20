import ScriptConsole.Proofs.Eval.Sessions
import ScriptConsole.Proofs.Objects.Tidy
import ScriptConsole.Proofs.Snapshot.Restore

/-! # Objects that move from one console to another

The snapshot of a live object can be restored in a new console where the same classes were
registered in the same order. The restored objects show the same classes, names and children, and
of the fields what is left after each is written into a new object
(`ScriptConsole.Eval.session_transfers`). So the snapshot comes back if and only if its fields do,
as those of faithful objects.
-/

namespace ScriptConsole

/-- A new console where classes were registered in order. -/
def Console.withClasses (config : Config) (serial : Nat) (specs : List ClassSpec) : Console :=
  { Console.new config serial with world := (World.new config serial).registered specs }

namespace Snapshot

variable {kind : Nat → Prop} {world other : World}

/-- A class that an object is of is found in a world with the same classes. -/
theorem exists_classInfo? (labelled : world.Labelled) (same : world.SameClasses other) {id : Nat}
    {object : Object} (found : world.registry.get? id = some object) :
    ∃ info, other.classInfo? object.info.name.text = some info ∧ object.info.Alike info := by
  have held := labelled.classed id object found
  have here : world.classInfo? object.info.name.text = some object.info := by
    unfold World.classInfo?
    rw [labelled.known object.info.name object.info held]
    exact held
  have rel := same object.info.name.text
  rw [here] at rel
  generalize other.classInfo? object.info.name.text = there at rel
  cases rel with
  | some alike => exact ⟨_, rfl, alike⟩

mutual

/-- What a snapshot shows can be restored where there are the same classes. -/
theorem Shows.restorable (labelled : world.Labelled) (same : world.SameClasses other)
    (treelike : world.registry.Treelike) : (snapshot : Snapshot) → (id : Nat) →
      Shows world.registry kind snapshot id → snapshot.Restorable other.classInfo?
  | ⟨className, name, fields, children⟩, id => by
    intro shows
    unfold Shows at shows
    unfold Restorable
    obtain ⟨_, object, found, rfl, rfl, rfl, all⟩ := shows
    obtain ⟨info, there, alike⟩ := exists_classInfo? labelled same found
    refine ⟨⟨info, there, alike.name.symm, fun some => ?_⟩, ?_,
      ShowsAll.restorable labelled same treelike children object.children all⟩
    · have holds : world.registry.children id ≠ [] := by
        rw [Registry.children_of_get? found]
        intro empty
        rw [empty] at all
        cases children with
        | nil => exact some rfl
        | cons snapshot snapshots =>
            unfold ShowsAll at all
            obtain ⟨_, _, absurd, _⟩ := all
            contradiction
      have isContainer := treelike.holder id holds
      unfold Registry.isContainer at isContainer
      rw [found] at isContainer
      exact alike.isContainer.symm.trans isContainer
    · intro empty
      obtain ⟨symbol, named, text⟩ := Option.map_eq_some_iff.mp empty
      exact (labelled.spelled id object symbol found named).2 text

/-- What shows objects of a world can be restored in a world with the same classes: their classes
are there, and their containers can hold what is in them. -/
theorem ShowsAll.restorable (labelled : world.Labelled) (same : world.SameClasses other)
    (treelike : world.registry.Treelike) : (snapshots : List Snapshot) → (ids : List Nat) →
      ShowsAll world.registry kind snapshots ids → RestorableAll other.classInfo? snapshots
  | [], ids => by
    intro _
    unfold RestorableAll
    trivial
  | snapshot :: snapshots, ids => by
    intro all
    unfold ShowsAll at all
    unfold RestorableAll
    obtain ⟨id, rest, rfl, shows, all⟩ := all
    exact ⟨Shows.restorable labelled same treelike snapshot id shows,
      ShowsAll.restorable labelled same treelike snapshots rest all⟩

end

mutual

/-- The fields of a snapshot are read back if it shows faithful objects. -/
theorem Shows.readBack_eq (labelled : world.Labelled) (same : world.SameClasses other)
    (faithful : ∀ id object, kind id → world.registry.get? id = some object →
      object.Faithful ∧ object.Arises) : (snapshot : Snapshot) → (id : Nat) →
      Shows world.registry kind snapshot id → snapshot.readBack other.classInfo? = snapshot
  | ⟨className, name, fields, children⟩, id => by
    intro shows
    unfold Shows at shows
    unfold readBack
    obtain ⟨isKind, object, found, rfl, rfl, rfl, all⟩ := shows
    obtain ⟨info, there, alike⟩ := exists_classInfo? labelled same found
    obtain ⟨faithfully, arises⟩ := faithful id object isKind found
    have fields : fieldsOf ((Draft.ofClass info).readBack (fieldsOf object)).object =
        fieldsOf object := by
      rw [Draft.object_readBack]
      exact Object.fieldsOf_readBack faithfully arises alike.fields.symm
    rw [there, Option.elim_some, fields,
      ShowsAll.readBackAll_eq labelled same faithful children object.children all]

/-- Where all objects are faithful, the fields of their snapshots read back as they are. -/
theorem ShowsAll.readBackAll_eq (labelled : world.Labelled) (same : world.SameClasses other)
    (faithful : ∀ id object, kind id → world.registry.get? id = some object →
      object.Faithful ∧ object.Arises) : (snapshots : List Snapshot) → (ids : List Nat) →
      ShowsAll world.registry kind snapshots ids →
      readBackAll other.classInfo? snapshots = snapshots
  | [], ids => by
    intro _
    unfold readBackAll
    rfl
  | snapshot :: snapshots, ids => by
    intro all
    unfold ShowsAll at all
    unfold readBackAll
    obtain ⟨id, rest, rfl, shows, all⟩ := all
    rw [Shows.readBack_eq labelled same faithful snapshot id shows,
      ShowsAll.readBackAll_eq labelled same faithful snapshots rest all]

end

mutual

/-- A snapshot that is like another one and like it with its fields read back has those fields. -/
theorem Alike.readBack_eq {info? : String → Option ClassInfo} : (t snapshot : Snapshot) →
    t.Alike snapshot → t.Alike (snapshot.readBack info?) → snapshot.readBack info? = snapshot
  | ⟨_, _, _, inner⟩, ⟨className, name, fields, children⟩ => by
    unfold readBack
    intro alike again
    unfold Alike at alike again
    obtain ⟨_, _, rfl, all⟩ := alike
    obtain ⟨_, _, same, allAgain⟩ := again
    rw [← same, AlikeAll.readBackAll_eq inner children all allAgain]

/-- Snapshots that are alike the same ones before and after reading back read back as they are. -/
theorem AlikeAll.readBackAll_eq {info? : String → Option ClassInfo} :
    (ts snapshots : List Snapshot) → AlikeAll ts snapshots →
      AlikeAll ts (readBackAll info? snapshots) → readBackAll info? snapshots = snapshots
  | ts, [] => by
    intro _ _
    unfold readBackAll
    rfl
  | [], snapshot :: snapshots => by
    intro all
    unfold AlikeAll at all
    contradiction
  | t :: ts, snapshot :: snapshots => by
    unfold readBackAll
    intro all again
    unfold AlikeAll at all again
    obtain ⟨_, _, same, first, rest⟩ := all
    obtain ⟨rfl, rfl⟩ := List.cons.inj same
    obtain ⟨_, _, equal, firstAgain, restAgain⟩ := again
    obtain ⟨rfl, rfl⟩ := List.cons.inj equal
    rw [Alike.readBack_eq t snapshot first firstAgain,
      AlikeAll.readBackAll_eq ts snapshots rest restAgain]

end

end Snapshot

namespace Eval

variable {specs : List ClassSpec} {console : Console}

/-- A new console where classes were registered has a world that comes about. -/
theorem reachable_withClasses (config : Config) (serial : Nat) (specs : List ClassSpec) :
    (Console.withClasses config serial specs).world.Reachable := by
  refine World.registered_induct (World.Reachable.new config serial) ?_ specs
  intro spec world reachable
  exact reachable.evolves (.single ⟨_, _, .registerClass spec, rfl⟩)

/-- A live object has a snapshot, and restoring it in a new console with the same classes
succeeds. What is restored has a snapshot like that one with its fields read back, so like that
one just if its fields come back, as those of faithful objects do. -/
theorem session_transfers (session : Session True specs console) {id : Nat}
    (live : console.world.registry.contains id = true) (config : Config) (serial bound : Nat) :
    ∃ snapshot root t final, Snapshot.capture? console.world.registry id = some snapshot ∧
      perform (run bound) (.restore snapshot) (.withClasses config serial specs) =
        .ok (.ok root) final ∧
      Snapshot.capture? final.world.registry root = some t ∧
      t.Alike (snapshot.readBack (Console.withClasses config serial specs).world.classInfo?) ∧
      (t.Alike snapshot ↔ snapshot.readBack
        (Console.withClasses config serial specs).world.classInfo? = snapshot) ∧
      ((∀ lower object, console.world.registry.Below lower id →
          console.world.registry.get? lower = some object → object.Faithful) →
        t.Alike snapshot) := by
  have labelled := session.labelled
  have same : console.world.SameClasses (Console.withClasses config serial specs).world :=
    session.sameClasses config serial
  have tidy := session.reachable.tidy
  obtain ⟨snapshot, captured, shows⟩ := Snapshot.exists_capture? tidy.toTreelike live
  have restorable := shows.restorable labelled same tidy.toTreelike
  have room : (Console.withClasses config serial specs).world.Room snapshot.names := by
    refine ⟨World.ready_new config serial specs, shows.nodup_names tidy labelled.spelled, ?_⟩
    intro symbol taken
    rw [Console.withClasses, World.findName?_new] at taken
    contradiction
  obtain ⟨root, t, after, restored, _, _, _, again, alike⟩ :=
    Snapshot.restores (run bound) snapshot (.withClasses config serial specs) restorable room
  have performed : perform (run bound) (.restore snapshot) (.withClasses config serial specs) =
      .ok (.ok root) { Console.withClasses config serial specs with world := after } := restored
  have reachable : after.Reachable := by
    have evolves := perform_evolves bound (.restore snapshot) (.withClasses config serial specs)
    rw [performed] at evolves
    exact (reachable_withClasses config serial specs).evolves evolves
  refine ⟨snapshot, root, t, _, captured, performed, ?_, alike, ⟨fun equal => ?_, fun back => ?_⟩,
    fun faithful => ?_⟩
  · exact (Snapshot.capture?_eq_some_iff reachable.tidy.toTreelike).mpr
      (again.later (fun _ _ => trivial) (fun _ _ => rfl) t root)
  · exact equal.readBack_eq t snapshot alike
  · rw [back] at alike
    exact alike
  · have back := shows.readBack_eq labelled same (fun lower object below found =>
      ⟨faithful lower object below found, session.sane.objects lower object found⟩) snapshot id
    rw [back] at alike
    exact alike

/-- A class of notes, which have a text from the start. -/
def noteClass : ClassSpec :=
  (ClassSpec.plain "Note").withField ((PersistentField.single "text" .text).withDefault (.text "x"))

/-- Creates a note with a text. -/
def noteSource (text : String) : String :=
  "new Note(Memo) \x7b text = \"" ++ text ++ "\"; \x7d;"

/-- A console with the class and a note. -/
@[irreducible] def noteConsole (text : String) : Console :=
  ended (perform (run 40) (.evaluate (noteSource text))
    (ended (perform (run 0) (.registerClass noteClass) (.new {} 0))))

private theorem session_note (text : String) : Session True [noteClass] (noteConsole text) := by
  have proper : (Operation.evaluate (noteSource text)).Proper True
      (ended (perform (run 0) (.registerClass noteClass) (.new {} 0))).world := trivial
  unfold noteConsole
  exact .perform (.registerClass (.new {} 0) noteClass 0) proper (fun _ => nofun) 40

/-- What is shown of the note: its fields, those that come back, and how many objects are in
it. -/
private def noteFields? (text : String) :
    Option (List FieldSnapshot × List FieldSnapshot × Nat) :=
  (Snapshot.capture? (noteConsole text).world.registry 4096).bind fun snapshot =>
    match perform (run 40) (.restore snapshot) (.withClasses {} 0 [noteClass]) with
    | .ok (.ok root) final => (Snapshot.capture? final.world.registry root).map fun t =>
        (snapshot.fields, t.fields, snapshot.children.length)
    | _ => none

/-- A note with a text of its own comes back as it was. -/
theorem session_transfers_note :
    ∃ snapshot root t final,
      Snapshot.capture? (noteConsole "y").world.registry 4096 = some snapshot ∧
      perform (run 40) (.restore snapshot) (.withClasses {} 0 [noteClass]) =
        .ok (.ok root) final ∧
      Snapshot.capture? final.world.registry root = some t ∧
      snapshot.fields = [⟨"text", none, "y"⟩] ∧ t.Alike snapshot := by
  have live : (noteConsole "y").world.registry.contains 4096 = true := by
    decide +kernel
  obtain ⟨⟨className, name, fields, children⟩, root, ⟨className', name', fields', children'⟩,
    final, captured, restored, again, alike, -, -⟩ :=
    session_transfers (session_note "y") live {} 0 40
  have shown : noteFields? "y" = some ([⟨"text", none, "y"⟩], [⟨"text", none, "y"⟩], 0) := by
    decide +kernel
  unfold noteFields? at shown
  rw [captured, Option.bind_some, restored] at shown
  simp only [again, Option.map_some, Option.some.injEq, Prod.mk.injEq,
    List.length_eq_zero_iff] at shown
  obtain ⟨rfl, rfl, rfl⟩ := shown
  refine ⟨_, root, _, final, captured, restored, again, rfl, ?_⟩
  unfold Snapshot.readBack Snapshot.readBackAll Snapshot.Alike at alike
  unfold Snapshot.Alike
  exact ⟨alike.1, alike.2.1, rfl, alike.2.2.2⟩

/-- A note whose text was emptied comes back with the text that notes have from the start. -/
theorem session_transfers_emptied :
    ∃ specs console id snapshot root t final, Session True specs console ∧
      Snapshot.capture? console.world.registry id = some snapshot ∧
      perform (run 40) (.restore snapshot) (.withClasses {} 0 specs) = .ok (.ok root) final ∧
      Snapshot.capture? final.world.registry root = some t ∧ ¬t.Alike snapshot := by
  have shown : noteFields? "" = some ([], [⟨"text", none, "x"⟩], 0) := by
    decide +kernel
  unfold noteFields? at shown
  obtain ⟨snapshot, captured, shown⟩ := Option.bind_eq_some_iff.mp shown
  split at shown
  case h_1 root final restored =>
    obtain ⟨t, again, shown⟩ := Option.map_eq_some_iff.mp shown
    refine ⟨_, _, _, snapshot, root, t, final, session_note "", captured, restored, again, ?_⟩
    obtain ⟨className, name, fields, children⟩ := snapshot
    obtain ⟨className', name', fields', children'⟩ := t
    simp only [Prod.mk.injEq] at shown
    obtain ⟨rfl, rfl, -⟩ := shown
    intro alike
    unfold Snapshot.Alike at alike
    exact nomatch alike.2.2.1
  case h_2 => contradiction

end Eval

end ScriptConsole
