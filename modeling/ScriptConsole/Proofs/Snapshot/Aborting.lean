import ScriptConsole.Proofs.Console.Attachment
import ScriptConsole.Proofs.Objects.Histories
import ScriptConsole.Proofs.Snapshot.Restore

/-! # Restoring that stops half way

The objects of a snapshot are created in order, each before its children, up to the first one of
a class that there is not. Then restoring fails, and what was created by then stays: each object
whose children were being created, with those that are complete
(`ScriptConsole.Snapshot.leftovers`). So nothing has changed after a failure just if the class of
the outermost object is the unknown one (`ScriptConsole.Snapshot.restore_aborts`).
-/

namespace ScriptConsole

namespace Snapshot

variable (info? : String → Option ClassInfo)

mutual

/-- The classes of the objects of a snapshot, in the order in which objects are created. -/
def classNames : Snapshot → List String
  | ⟨className, _, _, children⟩ => className :: classNamesAll children

/-- The classes of the objects of several snapshots. -/
def classNamesAll : List Snapshot → List String
  | [] => []
  | snapshot :: snapshots => classNames snapshot ++ classNamesAll snapshots

end

/-- The first of some classes that there is not. -/
def unknown? (names : List String) : Option String :=
  names.find? fun name => (info? name).isNone

/-- The classes in front of the first one that there is not. -/
def known (names : List String) : List String :=
  names.takeWhile fun name => (info? name).isSome

/-- There are all classes of a snapshot. -/
def complete (snapshot : Snapshot) : Bool :=
  (unknown? info? snapshot.classNames).isNone

mutual

/-- What is created of a snapshot of which not all classes are there: every object that is still
to get children, with the complete ones that it has. The outermost one is the first. -/
def leftovers : Snapshot → List Snapshot
  | ⟨className, name, fields, children⟩ =>
    if (info? className).isNone then []
    else ⟨className, name, fields, children.takeWhile (complete info?)⟩ :: leftoversAll children

/-- What is created of the first of several snapshots of which not all classes are there. -/
def leftoversAll : List Snapshot → List Snapshot
  | [] => []
  | snapshot :: snapshots =>
    if complete info? snapshot then leftoversAll snapshots else leftovers snapshot

end

/-- Restores several snapshots, each by itself. -/
def restoreEach (ev : Evaluator) (snapshots : List Snapshot) : Eval Unit :=
  snapshots.forM fun snapshot => discard (snapshot.restore ev)

section Names

variable {info?} {name : String} {names more : List String}

theorem unknown?_cons (info : (info? name).isSome = true) :
    unknown? info? (name :: names) = unknown? info? names := by
  unfold unknown?
  rw [List.find?_cons, Option.isNone_eq_false_iff.mpr info]

theorem known_cons (info : (info? name).isSome = true) :
    known info? (name :: names) = name :: known info? names := by
  unfold known
  rw [List.takeWhile_cons, if_pos info]

theorem unknown?_cons_of_unknown (nothing : info? name = none) :
    unknown? info? (name :: names) = some name := by
  unfold unknown?
  exact List.find?_cons_of_pos (Option.isNone_iff_eq_none.mpr nothing)

theorem known_cons_of_unknown (nothing : info? name = none) :
    known info? (name :: names) = [] := by
  unfold known
  exact List.takeWhile_cons_of_neg (Option.not_isSome_iff_eq_none.mpr nothing)

theorem unknown?_append :
    unknown? info? (names ++ more) = (unknown? info? names).or (unknown? info? more) :=
  List.find?_append

/-- What comes after an unknown class does not count. -/
theorem known_append : known info? (names ++ more) =
    if (unknown? info? names).isNone then known info? names ++ known info? more
    else known info? names := by
  induction names with
  | nil => rfl
  | cons name names ih =>
      rw [List.cons_append]
      cases info : (info? name).isSome with
      | true =>
          rw [known_cons info, known_cons info, unknown?_cons info, ih]
          split <;> rfl
      | false =>
          have none := Option.isSome_eq_false_iff.mp info
          unfold known unknown?
          simp only [List.takeWhile_cons, info, none, List.find?_cons_of_pos, Option.isNone_some,
            Bool.false_eq_true, ↓reduceIte]

/-- If there are all of some classes, then all of them come before an unknown one. -/
theorem known_of_complete (all : unknown? info? names = none) : known info? names = names := by
  induction names with
  | nil => rfl
  | cons name names ih =>
      cases info : info? name with
      | none =>
          rw [unknown?_cons_of_unknown info] at all
          contradiction
      | some _ =>
          have isKnown : (info? name).isSome = true := by rw [info]; rfl
          rw [unknown?_cons isKnown] at all
          rw [known_cons isKnown, ih all]

end Names

mutual

/-- What is created of a snapshot in which a class is unknown are the objects in front of the first
one of such a class. -/
theorem classNamesAll_leftovers {info? : String → Option ClassInfo} : (snapshot : Snapshot) →
    snapshot.complete info? = false →
      classNamesAll (snapshot.leftovers info?) = known info? snapshot.classNames
  | ⟨className, name, fields, children⟩ => by
    intro stops
    unfold complete classNames at stops
    unfold leftovers classNames
    cases info : info? className with
    | none =>
        rw [known_cons_of_unknown info]
        rfl
    | some _ =>
        have known : (info? className).isSome = true := by rw [info]; rfl
        rw [unknown?_cons known] at stops
        rw [known_cons known]
        simp only [Option.isNone_some, Bool.false_eq_true, ↓reduceIte]
        rw [classNamesAll, classNames, List.cons_append, classNamesAll_leftoversAll children stops]

/-- So are the objects that are created of several snapshots. -/
theorem classNamesAll_leftoversAll {info? : String → Option ClassInfo} :
    (snapshots : List Snapshot) → (unknown? info? (classNamesAll snapshots)).isNone = false →
      classNamesAll (snapshots.takeWhile (complete info?)) ++
          classNamesAll (leftoversAll info? snapshots) =
        known info? (classNamesAll snapshots)
  | [] => fun stops => Bool.noConfusion stops
  | snapshot :: snapshots => by
    intro stops
    unfold classNamesAll at stops
    rw [unknown?_append] at stops
    rw [leftoversAll, List.takeWhile_cons, classNamesAll.eq_def (snapshot :: snapshots)]
    simp only
    rw [known_append]
    cases all : unknown? info? snapshot.classNames with
    | none =>
        have isComplete : snapshot.complete info? = true := by
          unfold complete
          rw [all]
          rfl
        rw [all, Option.none_or] at stops
        simp only [isComplete, Option.isNone_none, ↓reduceIte]
        rw [classNamesAll, List.append_assoc, classNamesAll_leftoversAll snapshots stops,
          known_of_complete all]
    | some name =>
        have stopsHere : snapshot.complete info? = false := by
          unfold complete
          rw [all]
          rfl
        simp only [stopsHere, Option.isNone_some, Bool.false_eq_true, ↓reduceIte]
        exact classNamesAll_leftovers snapshot stopsHere

end

end Snapshot

namespace World

variable {world between after : World} {changed other : Nat → Prop} {added more : Nat}

/-- Objects were added to a world. Of those that were there, only some got further children. All
names, functions, classes and links are still there. -/
structure Enlarged (world : World) (changed : Nat → Prop) (added : Nat) (after : World) : Prop where
  evolves : world.Evolves after
  classes : after.classes = world.classes
  functions : after.functions = world.functions
  size : after.registry.size = world.registry.size + added
  objects : ∀ id object, world.registry.get? id = some object →
    ∃ children, after.registry.get? id = some { object with children } ∧
      (¬ changed id → children = object.children)
  names : ∀ name id, world.registry.findName? name = some id →
    after.registry.findName? name = some id
  parents : ∀ layer parent, world.spaces.parent? layer = some parent →
    after.spaces.parent? layer = some parent
  holds : ∀ layer, world.spaces.holds layer ≤ after.spaces.holds layer

namespace Enlarged

/-- What is logged adds no objects. -/
theorem of_log (log : List Message) (evolves : world.Evolves { world with log }) :
    world.Enlarged changed 0 { world with log } where
  evolves := evolves
  classes := rfl
  functions := rfl
  size := rfl
  objects _ object found := ⟨object.children, found, fun _ => rfl⟩
  names _ _ found := found
  parents _ _ above := above
  holds _ := le_rfl

theorem refl (world : World) : world.Enlarged changed 0 world :=
  .of_log world.log .refl

/-- What was changed by the second of two additions was changed by both, or new to the first. -/
theorem trans (first : world.Enlarged changed added between)
    (second : between.Enlarged other more after)
    (still : ∀ id, world.registry.contains id = true → other id → changed id) :
    world.Enlarged changed (added + more) after where
  evolves := first.evolves.trans second.evolves
  classes := second.classes.trans first.classes
  functions := second.functions.trans first.functions
  size := by rw [second.size, first.size, Nat.add_assoc]
  objects id object found := by
    obtain ⟨children, there, same⟩ := first.objects id object found
    obtain ⟨children', there', same'⟩ := second.objects id _ there
    refine ⟨children', there', fun unchanged => ?_⟩
    have live := Registry.contains_of_get? found
    rw [same' fun isOther => unchanged (still id live isOther), same unchanged]
  names name id found := second.names name id (first.names name id found)
  parents layer parent above := second.parents layer parent (first.parents layer parent above)
  holds layer := (first.holds layer).trans (second.holds layer)

theorem mono (enlarged : world.Enlarged changed added after)
    (implies : ∀ id, changed id → other id) : world.Enlarged other added after :=
  { enlarged with
    objects := fun id object found => by
      obtain ⟨children, there, same⟩ := enlarged.objects id object found
      exact ⟨children, there, fun unchanged => same fun isChanged =>
        unchanged (implies id isChanged)⟩ }

/-- No object that was there is put into another container. -/
theorem group?_eq (enlarged : world.Enlarged changed added after) {id : Nat}
    (there : world.registry.contains id = true) :
    after.registry.group? id = world.registry.group? id := by
  obtain ⟨object, found⟩ := Registry.get?_of_contains there
  obtain ⟨_, still, _⟩ := enlarged.objects id object found
  rw [Registry.group?_of_get? found, Registry.group?_of_get? still]

theorem info?_eq (enlarged : world.Enlarged changed added after) (keyed : world.Keyed) :
    after.classInfo? = world.classInfo? := by
  exact funext (keyed.classInfo?_eq after enlarged.evolves.grows enlarged.classes)

end Enlarged

/-- The live objects, their names and children and the links of namespaces are what they were. -/
structure Undisturbed (world after : World) : Prop where
  live : ∀ id, after.registry.contains id = world.registry.contains id
  names : ∀ name, after.registry.findName? name = world.registry.findName? name
  children : ∀ id, after.registry.children id = world.registry.children id
  parents : ∀ layer, after.spaces.parent? layer = world.spaces.parent? layer
  holds : ∀ layer, after.spaces.holds layer = world.spaces.holds layer

theorem Undisturbed.refl (world : World) : world.Undisturbed world :=
  ⟨fun _ => rfl, fun _ => rfl, fun _ => rfl, fun _ => rfl, fun _ => rfl⟩

/-- A world to which any object was added is not what it was. -/
theorem Enlarged.not_undisturbed (enlarged : world.Enlarged changed added after)
    (any : added ≠ 0) : ¬ world.Undisturbed after := by
  intro undisturbed
  have within : after.registry.objects.keys ⊆ world.registry.objects.keys := by
    intro id member
    rw [Std.TreeMap.mem_keys, ← Std.TreeMap.contains_iff_mem] at member ⊢
    exact (undisturbed.live id).symm.trans member
  have fits := (List.subperm_of_subset Std.TreeMap.nodup_keys within).length_le
  have size := enlarged.size
  unfold Registry.size at size
  rw [Std.TreeMap.length_keys, Std.TreeMap.length_keys] at fits
  omega

/-- An object more is registered. -/
theorem enlarged_enter (world : World) (sound : world.spaces.Linked) (draft : Draft)
    (name : String) :
    ∃ id after, (enter draft name).run world = (id, after) ∧
      world.Enlarged (fun _ => False) 1 after ∧
      world.registry.contains id = false ∧ after.registry.contains id = true ∧
      after.registry.group? id = none := by
  obtain ⟨symbol, layer, linked, -, number, registry⟩ := enter_registry draft name world
  obtain ⟨_, _, _, _, _, _, _, _, stacking⟩ := enter_views sound draft name
  have absent := world.registry.not_contains_register draft symbol
  have found (other : Nat) : ((enter draft name).run world).2.registry.get? other =
      if (world.registry.register draft symbol).1.1 = other then
        some { draft.object with
          id := (world.registry.register draft symbol).1.1
          name := world.registry.givenName symbol
          layer
          linked }
      else world.registry.get? other := by
    rw [registry, Registry.get?_update, Registry.get?_register]
    split <;> rfl
  have own := (found _).trans (if_pos rfl)
  refine ⟨_, _, Prod.ext number rfl, ⟨.single ⟨_, _, .enter draft name, rfl⟩,
    enter_classes draft name world, enter_functions draft name world, ?_, ?_, ?_,
    stacking.kept, ?_⟩, absent, Registry.contains_of_get? own, ?_⟩
  · rw [registry]
    refine Eq.trans ?_ (world.registry.size_register draft symbol)
    exact Std.TreeMap.size_modify
  · intro id object there
    refine ⟨object.children, ?_, fun _ => rfl⟩
    rw [found, if_neg]
    · exact there
    · rintro rfl
      rw [Registry.contains_of_get? there] at absent
      contradiction
  · intro name id there
    rw [registry]
    change (world.registry.register draft symbol).2.findName? name = some id
    rw [Registry.findName?_register, if_neg]
    · exact there
    · intro given
      rw [(Registry.givenName_eq_some given).2] at there
      contradiction
  · intro layer
    rw [stacking.holds]
    exact Nat.le_add_right _ _
  · rw [Registry.group?_of_get? own]
    exact draft.group_eq

/-- An object that is in no container is put into one that was there before it. -/
theorem Enlarged.link (enlarged : world.Enlarged changed added between) {container child : Nat}
    (absent : world.registry.contains child = false)
    (alone : between.registry.group? child = none) (isChanged : changed container) :
    world.Enlarged changed added ((Snapshot.restoreLink container child).run between).2 := by
  have evolves := (gentle_restoreLink container child).built.evolves between
  unfold Snapshot.restoreLink at evolves ⊢
  rw [bind_run, addChild_run] at evolves ⊢
  cases put : between.registry.addChild container child with
  | error reason =>
      rw [put] at evolves
      obtain ⟨log, warned⟩ := exists_log_warn ("restore: cannot add " ++ numbered child ++ " to " ++
        toString container ++ ": " ++ reason.message) between
      simp only [warned] at evolves ⊢
      exact enlarged.trans (.of_log log evolves) fun _ _ => id
  | ok registry =>
      rw [put] at evolves
      obtain ⟨_, _, _, ⟨inside, _⟩ | ⟨_, rfl⟩⟩ := Registry.addChild_cases put
      · rw [alone] at inside
        contradiction
      · have outside : between.registry.detach child = between.registry := by
          unfold Registry.detach
          rw [alone]
        rw [outside] at evolves ⊢
        refine ⟨enlarged.evolves.trans evolves, enlarged.classes, enlarged.functions, ?_, ?_,
          enlarged.names, enlarged.parents, enlarged.holds⟩
        · refine Eq.trans ?_ enlarged.size
          exact Std.TreeMap.size_modify.trans Std.TreeMap.size_modify
        · intro id object found
          obtain ⟨children, there, same⟩ := enlarged.objects id object found
          have apart : child ≠ id := by
            rintro rfl
            rw [Registry.contains_of_get? found] at absent
            contradiction
          change ∃ children, ((between.registry.update container _).update child _).get? id = _ ∧ _
          rw [Registry.get?_update, if_neg apart, Registry.get?_update]
          split
          next own =>
            subst own
            rw [there]
            exact ⟨_, rfl, fun unchanged => absurd isChanged unchanged⟩
          next => exact ⟨children, there, same⟩

end World

namespace Snapshot

open World Eval

variable {console : Console}

/-- Nothing is created of a snapshot of an unknown class. -/
theorem restore_unknown (ev : Evaluator) {className : String}
    (unknown : console.world.classInfo? className = none) (name : Option String)
    (fields : List FieldSnapshot) (children : List Snapshot) :
    restore ev ⟨className, name, fields, children⟩ console =
      .ok (.error (.unknownClass className)) console := by
  have read : Eval.world console = .ok console.world console := rfl
  have drafted : console.world.newObject? className = none :=
    congrArg (Option.map Draft.ofClass) unknown
  unfold restore
  rw [bind_apply, read]
  simp only [drafted]
  rfl

/-- The outermost object of a snapshot is created before its children, whatever they are. -/
theorem restore_known (ev : Evaluator) (reachable : console.world.Reachable)
    (silent : console.world.Lacks "onAdd") {className : String}
    (known : (console.world.classInfo? className).isSome = true) (name : Option String)
    (fields : List FieldSnapshot) :
    ∃ id between, console.world.Enlarged (fun _ => False) 1 between ∧
      console.world.registry.contains id = false ∧ between.registry.contains id = true ∧
      between.registry.group? id = none ∧
      ∀ children answer final,
        restoreChildren ev id children { console with world := between } = .ok answer final →
        restore ev ⟨className, name, fields, children⟩ console =
          .ok (answer.map fun _ => id) final := by
  obtain ⟨info, found⟩ := Option.isSome_iff_exists.mp known
  have drafted : console.world.newObject? className = some (.ofClass info) :=
    congrArg (Option.map Draft.ofClass) found
  obtain ⟨log, written⟩ := restoreFields_run className fields (.ofClass info) console.world
  have writes : Gentle (fields.foldlM (restoreField className) (.ofClass info) : WorldM Draft) :=
    .foldlM (gentle_restoreField className) _
  have evolves := writes.built.evolves console.world
  rw [written] at evolves
  have ready : World.Ready { console.world with log } :=
    ⟨reachable.keyed.later (.refl _) rfl, silent⟩
  obtain ⟨_, history⟩ := reachable.history
  obtain ⟨id, between, entered, enlarged, absent, live, alone⟩ :=
    enlarged_enter { console.world with log } history.held.linked
      ((Draft.ofClass info).readBack fields) (name.getD "")
  have first : console.world.Enlarged (fun _ => False) (0 + 1) between :=
    (Enlarged.of_log log evolves).trans enlarged fun _ _ => False.elim
  refine ⟨id, between, first, absent, live, alone, fun children answer final ran => ?_⟩
  have read : Eval.world console = .ok console.world console := rfl
  have lifted : ((fields.foldlM (restoreField className) (.ofClass info) : WorldM Draft) :
      Eval Draft) console = .ok ((Draft.ofClass info).readBack fields)
        { console with world := { console.world with log } } := by
    rw [lift_apply, written]
  have registered : Eval.registerObject ev ((Draft.ofClass info).readBack fields) (name.getD "")
      { console with world := { console.world with log } } =
        .ok id { console with world := between } := by
    rw [registerObject_silent _ ready, lift_apply, entered]
  unfold restore
  rw [bind_apply, read]
  simp only [drafted, bind_apply, lifted, registered, ran]
  cases answer <;> rfl

mutual

/-- Restoring a snapshot always comes to an end: either all of its objects are created, or some
are left behind. -/
theorem restore_outcome (ev : Evaluator) : (snapshot : Snapshot) → (console : Console) →
    console.world.Reachable → console.world.Lacks "onAdd" →
    ∃ answer after, snapshot.restore ev console = .ok answer { console with world := after } ∧
      console.world.Enlarged (fun _ => False)
        (known console.world.classInfo? snapshot.classNames).length after ∧
      ((∃ id, answer = .ok id ∧
          unknown? console.world.classInfo? snapshot.classNames = none ∧
          console.world.registry.contains id = false ∧ after.registry.group? id = none) ∨
        ∃ name, answer = .error (.unknownClass name) ∧
          unknown? console.world.classInfo? snapshot.classNames = some name ∧
          restoreEach ev (snapshot.leftovers console.world.classInfo?) console =
            .ok () { console with world := after })
  | ⟨className, name, fields, children⟩, console => by
    intro reachable silent
    unfold classNames leftovers
    cases info : (console.world.classInfo? className).isSome with
    | false =>
        have nothing := Option.not_isSome_iff_eq_none.mp (Bool.eq_false_iff.mp info)
        rw [nothing, known_cons_of_unknown nothing, unknown?_cons_of_unknown nothing]
        exact ⟨_, _, restore_unknown ev nothing name fields children, .refl _,
          .inr ⟨className, rfl, rfl, rfl⟩⟩
    | true =>
        obtain ⟨id, between, entered, absent, live, alone, created⟩ :=
          restore_known ev reachable silent info name fields
        obtain ⟨answer, after, ran, more, outcome⟩ :=
          restoreChildren_outcome ev children { console with world := between } id
            (reachable.evolves entered.evolves) (silent.of_functions entered.functions)
        have same := entered.info?_eq reachable.keyed
        simp only [same] at more outcome
        rw [known_cons info, unknown?_cons info, Option.isNone_eq_false_iff.mpr info,
          if_neg Bool.false_ne_true, List.length_cons, Nat.add_comm]
        refine ⟨_, after, created children answer _ ran, entered.trans more ?_, ?_⟩
        -- the children change their container alone, which was not there before
        · rintro other there rfl
          rw [absent] at there
          contradiction
        · rcases outcome with ⟨rfl, all⟩ | ⟨first, middle, rfl, found, part, rest⟩
          · exact .inl ⟨id, rfl, all, absent, (more.group?_eq live).trans alone⟩
          · refine .inr ⟨first, rfl, found, ?_⟩
            have begun := created _ _ _ part
            exact bind_ok_iff.mpr ⟨(), _, discard_ok_iff.mpr ⟨_, begun⟩, rest⟩

/-- So does restoring several snapshots inside a container. -/
theorem restoreChildren_outcome (ev : Evaluator) : (snapshots : List Snapshot) →
    (console : Console) → (container : Nat) →
    console.world.Reachable → console.world.Lacks "onAdd" →
    ∃ answer after, restoreChildren ev container snapshots console =
        .ok answer { console with world := after } ∧
      console.world.Enlarged (· = container)
        (known console.world.classInfo? (classNamesAll snapshots)).length after ∧
      ((answer = .ok () ∧ unknown? console.world.classInfo? (classNamesAll snapshots) = none) ∨
        ∃ name between, answer = .error (.unknownClass name) ∧
          unknown? console.world.classInfo? (classNamesAll snapshots) = some name ∧
          restoreChildren ev container
              (snapshots.takeWhile (complete console.world.classInfo?)) console =
            .ok (.ok ()) { console with world := between } ∧
          restoreEach ev (leftoversAll console.world.classInfo? snapshots)
              { console with world := between } =
            .ok () { console with world := after })
  | [], console, container => by
    intro reachable silent
    exact ⟨.ok (), console.world, rfl, .refl _, .inl ⟨rfl, rfl⟩⟩
  | snapshot :: snapshots, console, container => by
    intro reachable silent
    unfold classNamesAll leftoversAll
    obtain ⟨answer, between, ran, first, outcome⟩ :=
      restore_outcome ev snapshot console reachable silent
    rw [unknown?_append, known_append, List.takeWhile_cons]
    unfold complete
    rcases outcome with ⟨child, rfl, all, absent, alone⟩ | ⟨name, rfl, found, rest⟩
    · have wider : console.world.Enlarged (· = container) _ between :=
        first.mono fun _ => False.elim
      have linked := wider.link absent alone rfl
      rcases link : (restoreLink container child).run between with ⟨⟨⟩, after⟩
      rw [link] at linked
      obtain ⟨answer, final, more, enlarged, outcome⟩ :=
        restoreChildren_outcome ev snapshots { console with world := after } container
          (reachable.evolves linked.evolves) (silent.of_functions linked.functions)
      have same := linked.info?_eq reachable.keyed
      simp only [same] at enlarged outcome
      have goesOn (others : List Snapshot) :
          restoreChildren ev container (snapshot :: others) console =
            restoreChildren ev container others { console with world := after } := by
        have lifted : (restoreLink container child : Eval Unit) { console with world := between } =
            .ok () { console with world := after } := by
          rw [lift_apply, link]
        rw [restoreChildren]
        simp only [bind_apply, ran, lifted]
      simp only [all, Option.isNone_none, Option.none_or, ↓reduceIte, List.length_append]
      -- the whole row and its part in front of the failure go on from the same console
      refine ⟨answer, final, (goesOn snapshots).trans more,
        linked.trans enlarged fun _ _ => id, ?_⟩
      rcases outcome with ended | ⟨name, middle, failed, found, part, rest⟩
      · exact .inl ended
      · exact .inr ⟨name, middle, failed, found, (goesOn _).trans part, rest⟩
    · simp only [found, Option.isNone_some, Option.some_or, Bool.false_eq_true, ↓reduceIte]
      refine ⟨_, between, ?_, first.mono fun _ => False.elim,
        .inr ⟨name, console.world, rfl, rfl, rfl, rest⟩⟩
      rw [restoreChildren]
      simp only [bind_apply, ran]
      rfl

end

/-- Where no object calls a function, restoring a snapshot comes to an end. It fails just if a class
in the snapshot is unknown, with the first such class, and has then created the objects in front of
it and nothing else: all that was there is still there, and what is left is the same as after
restoring the leftovers, whose classes there are. So a failure leaves the objects, their names and
children and the links of namespaces alone just if the outermost object has the unknown class. -/
theorem restore_aborts (reachable : console.world.Reachable)
    (silent : console.world.Lacks "onAdd") (ev : Evaluator) (snapshot : Snapshot) :
    ∃ answer after, snapshot.restore ev console = .ok answer { console with world := after } ∧
      (∀ name, answer = .error (.unknownClass name) ↔
        unknown? console.world.classInfo? snapshot.classNames = some name) ∧
      console.world.Enlarged (fun _ => False)
        (known console.world.classInfo? snapshot.classNames).length after ∧
      ∀ reason, answer = .error reason →
        restoreEach ev (snapshot.leftovers console.world.classInfo?) console =
            .ok () { console with world := after } ∧
          classNamesAll (snapshot.leftovers console.world.classInfo?) =
            known console.world.classInfo? snapshot.classNames ∧
          (console.world.Undisturbed after ↔
            console.world.classInfo? snapshot.className = none) := by
  obtain ⟨answer, after, ran, enlarged, outcome⟩ :=
    restore_outcome ev snapshot console reachable silent
  refine ⟨answer, after, ran, ?_, enlarged, ?_⟩
  · intro name
    rcases outcome with ⟨id, rfl, all, -⟩ | ⟨first, rfl, found, -⟩
    · rw [all]
      exact ⟨nofun, nofun⟩
    · rw [found]
      simp only [Except.error.injEq, RestoreError.unknownClass.injEq, Option.some.injEq]
  · rintro reason rfl
    obtain ⟨_, failed, -⟩ | ⟨first, -, found, rest⟩ := outcome
    · exact nomatch failed
    · have stops : snapshot.complete console.world.classInfo? = false := by
        unfold complete
        rw [found]
        rfl
      refine ⟨rest, classNamesAll_leftovers snapshot stops,
        fun undisturbed => ?_, fun unknown => ?_⟩
      · obtain ⟨className, name, fields, children⟩ := snapshot
        by_contra there
        have isKnown := Option.isSome_iff_ne_none.mpr there
        refine enlarged.not_undisturbed ?_ undisturbed
        rw [classNames, known_cons isKnown]
        exact Nat.succ_ne_zero _
      · obtain ⟨className, name, fields, children⟩ := snapshot
        have nothing := restore_unknown ev unknown name fields children
        rw [ran] at nothing
        have same : after = console.world :=
          congrArg Console.world (EStateM.Result.ok.inj nothing).2
        rw [same]
        exact .refl _

/-- A group with an object of a class that there is not. -/
def brokenGroup : Snapshot :=
  ⟨"SimGroup", some "Root", [], [⟨"NoSuch", none, [], []⟩]⟩

/-- A console with the built-in classes. -/
@[irreducible] def plainConsole : Console :=
  .new {} 0

private theorem plainConsole_facts :
    plainConsole.world.Reachable ∧ plainConsole.world.Lacks "onAdd" := by
  unfold plainConsole
  rw [Console.new_world]
  exact ⟨.new {} 0, (World.ready_new {} 0 []).lacks⟩

private theorem plainConsole_classes :
    (plainConsole.world.classInfo? "SimGroup").isSome = true ∧
      (plainConsole.world.classInfo? "NoSuch").isNone = true := by
  decide +kernel

private theorem brokenGroup_unknown :
    unknown? plainConsole.world.classInfo? brokenGroup.classNames = some "NoSuch" := by
  obtain ⟨group, none⟩ := plainConsole_classes
  change unknown? _ ["SimGroup", "NoSuch"] = _
  rw [unknown?_cons group, unknown?_cons_of_unknown (Option.isNone_iff_eq_none.mp none)]

private theorem brokenGroup_known :
    known plainConsole.world.classInfo? brokenGroup.classNames = ["SimGroup"] := by
  obtain ⟨group, none⟩ := plainConsole_classes
  change known _ ["SimGroup", "NoSuch"] = _
  rw [known_cons group, known_cons_of_unknown (Option.isNone_iff_eq_none.mp none)]

/-- The group fails to be restored, and is there afterwards without the object. -/
theorem restore_aborts_group :
    ∃ after, brokenGroup.restore (run 0) plainConsole =
        .ok (.error (.unknownClass "NoSuch")) { plainConsole with world := after } ∧
      after.registry.size = plainConsole.world.registry.size + 1 ∧
      ¬ plainConsole.world.Undisturbed after := by
  obtain ⟨reachable, silent⟩ := plainConsole_facts
  obtain ⟨answer, after, ran, failed, enlarged, rest⟩ :=
    restore_aborts reachable silent (run 0) brokenGroup
  obtain rfl := (failed "NoSuch").mpr brokenGroup_unknown
  rw [brokenGroup_known] at enlarged
  refine ⟨after, ran, enlarged.size, fun undisturbed => ?_⟩
  have none := (rest _ rfl).2.2.mp undisturbed
  have group := plainConsole_classes.1
  rw [show brokenGroup.className = "SimGroup" from rfl] at none
  rw [none] at group
  contradiction

/-- A failure to restore may leave objects behind. -/
theorem restore_leaves_group :
    ∃ console final snapshot reason, console.world.Reachable ∧ console.world.Lacks "onAdd" ∧
      Snapshot.restore (run 0) snapshot console = .ok (.error reason) final ∧
      ¬ console.world.Undisturbed final.world := by
  obtain ⟨reachable, silent⟩ := plainConsole_facts
  obtain ⟨answer, after, ran, enlarged, outcome⟩ :=
    restore_outcome (run 0) brokenGroup plainConsole reachable silent
  rw [brokenGroup_known] at enlarged
  rw [brokenGroup_unknown] at outcome
  obtain ⟨_, _, all, -⟩ | ⟨name, rfl, -⟩ := outcome
  · exact nomatch all
  · exact ⟨plainConsole, _, brokenGroup, _, reachable, silent, ran,
      enlarged.not_undisturbed (Nat.succ_ne_zero 0)⟩

end Snapshot

end ScriptConsole
