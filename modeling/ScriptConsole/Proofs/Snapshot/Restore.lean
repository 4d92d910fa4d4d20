import ScriptConsole.Proofs.Console.Fresh
import ScriptConsole.Proofs.Console.Labels
import ScriptConsole.Proofs.Eval.Results
import ScriptConsole.Proofs.Snapshot.Dynamic

/-! # What restoring a snapshot brings back

Where no object calls a function and the names in a snapshot are free, restoring it succeeds, and
the objects that come about are shown by a snapshot of their own. That one has the same classes,
names and children, and of the fields what is left after each is written into a new object
(`ScriptConsole.Snapshot.restores`). Objects that were there stay as they are.
-/

namespace ScriptConsole

/-- An object is in a registry that was not in another one. -/
def Registry.New (before after : Registry) (id : Nat) : Prop :=
  before.contains id = false ∧ after.contains id = true

namespace Snapshot

mutual

/-- A snapshot with what is left of its fields after they are written into new objects. -/
def readBack (info? : String → Option ClassInfo) : Snapshot → Snapshot
  | ⟨className, name, fields, children⟩ =>
    { className
      name
      fields := (info? className).elim [] fun info =>
        fieldsOf ((Draft.ofClass info).readBack fields).object
      children := readBackAll info? children }

/-- Several snapshots with what is left of their fields. -/
def readBackAll (info? : String → Option ClassInfo) : List Snapshot → List Snapshot
  | [] => []
  | snapshot :: snapshots => readBack info? snapshot :: readBackAll info? snapshots

end

mutual

/-- Snapshots with the same fields and children in order, and with the same classes and names up
to letter case. -/
def Alike : Snapshot → Snapshot → Prop
  | ⟨className, name, fields, children⟩, ⟨className', name', fields', children'⟩ =>
    Text.fold className = Text.fold className' ∧ name.map Text.fold = name'.map Text.fold ∧
      fields = fields' ∧ AlikeAll children children'

/-- Snapshots that are alike in order. -/
def AlikeAll : List Snapshot → List Snapshot → Prop
  | [], others => others = []
  | snapshot :: snapshots, others =>
    ∃ other rest, others = other :: rest ∧ Alike snapshot other ∧ AlikeAll snapshots rest

end

mutual

/-- The objects of a snapshot are of classes that there are, only containers contain others, and
no name is empty. -/
def Restorable (info? : String → Option ClassInfo) : Snapshot → Prop
  | ⟨className, name, _, children⟩ =>
    (∃ info, info? className = some info ∧ Text.fold info.name.text = Text.fold className ∧
      (children ≠ [] → info.isContainer = true)) ∧
    name ≠ some "" ∧ RestorableAll info? children

/-- The objects of several snapshots are so. -/
def RestorableAll (info? : String → Option ClassInfo) : List Snapshot → Prop
  | [] => True
  | snapshot :: snapshots => Restorable info? snapshot ∧ RestorableAll info? snapshots

end

end Snapshot

namespace Registry

variable {registry : Registry}

/-- An object without a container goes into a container that is in none itself. -/
theorem addChild_free {container child : Nat} {holder object : Object}
    (found : registry.get? container = some holder) (isContainer : holder.info.isContainer = true)
    (outer : holder.group = none) (there : registry.get? child = some object)
    (free : object.group = none) (apart : container ≠ child) :
    ∃ added, registry.addChild container child = .ok added ∧
      added.get? container = some { holder with children := holder.children ++ [child] } ∧
      added.get? child = some { object with group := some container } ∧
      (∀ other, other ≠ container → other ≠ child → added.get? other = registry.get? other) ∧
      added.names = registry.names ∧ added.classes = registry.classes := by
  have outside : registry.group? child = none := by
    unfold group?
    rw [there]
    exact free
  have detached : registry.detach child = registry := by
    unfold detach
    rw [outside]
  have holders : registry.holders container = [container] := by
    unfold holders group?
    rw [walk]
    simp only [found, Option.bind_some, outer]
  let held := registry.update container fun object =>
    { object with children := object.children ++ [child] }
  refine ⟨held.update child fun object => { object with group := some container },
    ?_, ?_, ?_, ?_, rfl, rfl⟩
  · unfold addChild
    rw [found, there]
    simp only [isContainer, Bool.not_true, Bool.false_eq_true, ↓reduceIte, holders,
      List.mem_singleton, apart.symm, free, reduceCtorEq, detached]
    rfl
  · rw [get?_update, if_neg apart.symm, get?_update, if_pos rfl, found, Option.map_some]
  · rw [get?_update, if_pos rfl, get?_update, if_neg apart, there, Option.map_some]
  · intro other notHolder notChild
    rw [get?_update, if_neg notChild.symm, get?_update, if_neg notHolder.symm]

end Registry

namespace World

variable {world after : World}

/-- The fields of a snapshot are written into a draft, with warnings of those that are refused. -/
theorem restoreFields_run (className : String) (fields : List FieldSnapshot) (draft : Draft)
    (world : World) : ∃ log,
      (fields.foldlM (Snapshot.restoreField className) draft : WorldM Draft).run world =
        (draft.readBack fields, { world with log }) := by
  induction fields generalizing draft world with
  | nil => exact ⟨world.log, rfl⟩
  | cons field fields ih =>
      rw [List.foldlM_cons, bind_run]
      have first : ∃ log, (Snapshot.restoreField className draft field).run world =
          (draft.readBack [field], { world with log }) := by
        unfold Snapshot.restoreField
        cases written : draft.setField field.name field.index (.text field.value) with
        | ok changed =>
            refine ⟨world.log, ?_⟩
            unfold Draft.readBack
            rw [List.foldl_cons, written]
            rfl
        | error reason =>
            obtain ⟨log, warned⟩ := exists_log_warn ("restore: cannot set field '" ++ field.name ++
              "' of '" ++ className ++ "': " ++ reason.message) world
            refine ⟨log, ?_⟩
            unfold Draft.readBack
            rw [List.foldl_cons, written]
            simp only [bind_run, warned]
            rfl
      obtain ⟨log, ran⟩ := first
      rw [ran]
      exact ih (draft.readBack [field]) { world with log }

/-- A draft is registered under a name that is free, or under none. -/
theorem enter_free (lawful : world.symbols.Lawful) (draft : Draft) {name : Option String}
    (nonempty : name ≠ some "")
    (free : ∀ text, name = some text → ∀ symbol, Text.fold symbol.text = Text.fold text →
      world.registry.findName? symbol = none) :
    ∃ id symbol layer linked, ((enter draft (name.getD "")).run world).1 = id ∧
      (symbol.map Symbol.text).map Text.fold = name.map Text.fold ∧
      world.registry.contains id = false ∧
      ((enter draft (name.getD "")).run world).2.registry.get? id =
        some { draft.object with id, name := symbol, layer, linked } ∧
      (∀ other, other ≠ id → ((enter draft (name.getD "")).run world).2.registry.get? other =
        world.registry.get? other) ∧
      ∀ other, (((enter draft (name.getD "")).run world).2.registry.findName? other).isSome = true →
        (world.registry.findName? other).isSome = true ∨ symbol = some other := by
  obtain ⟨symbol, layer, linked, is, number, registry⟩ := enter_registry draft (name.getD "") world
  have spelled : (symbol.map Symbol.text).map Text.fold = name.map Text.fold :=
    is ▸ internNonempty_spelled lawful nonempty
  have given : world.registry.givenName symbol = symbol := by
    refine Registry.givenName_of_free fun asked same => ?_
    rw [same] at spelled
    obtain ⟨text, named, folded⟩ := Option.map_eq_some_iff.mp spelled.symm
    exact free text named asked folded.symm
  refine ⟨_, symbol, layer, linked, number, spelled,
    world.registry.not_contains_register draft symbol, ?_, ?_, ?_⟩
  · rw [registry, Registry.get?_update, if_pos rfl, Registry.get?_register, if_pos rfl, given]
    rfl
  · intro other different
    rw [registry, Registry.get?_update, if_neg different.symm, Registry.get?_register,
      if_neg different.symm]
  · intro other found
    rw [registry] at found
    change ((world.registry.register draft symbol).2.findName? other).isSome = true at found
    rw [Registry.findName?_register, given] at found
    split at found
    next same => exact .inr same
    next => exact .inl found

/-- Objects with some names were added to a world. All others are as they were, but for those that
were changed on purpose. -/
structure Added (world : World) (changed : Nat → Prop) (names : List String) (after : World) :
    Prop where
  ready : after.Ready
  classes : after.classInfo? = world.classInfo?
  live : ∀ id, world.registry.contains id = true → after.registry.contains id = true
  objects : ∀ id, world.registry.contains id = true → ¬ changed id →
    after.registry.get? id = world.registry.get? id
  names : ∀ symbol, (after.registry.findName? symbol).isSome = true →
    (world.registry.findName? symbol).isSome = true ∨
      Text.fold symbol.text ∈ names.map Text.fold

namespace Added

variable {changed other : Nat → Prop} {names more : List String} {between : World}

theorem refl (ready : world.Ready) : world.Added changed [] world :=
  ⟨ready, rfl, fun _ => id, fun _ _ _ => rfl, fun _ => .inl⟩

theorem mono (added : world.Added changed names after) (implies : ∀ id, changed id → other id) :
    world.Added other names after :=
  { added with objects := fun id there same => added.objects id there (mt (implies id) same) }

/-- What is changed by the second of two additions is changed by both, or new to the first. -/
theorem trans (first : world.Added changed names between) (second : between.Added other more after)
    (still : ∀ id, world.registry.contains id = true → ¬ changed id → ¬ other id) :
    world.Added changed (names ++ more) after where
  ready := second.ready
  classes := second.classes.trans first.classes
  live id there := second.live id (first.live id there)
  objects id there same := (second.objects id (first.live id there) (still id there same)).trans
    (first.objects id there same)
  names symbol found := by
    rw [List.map_append, List.mem_append]
    rcases second.names symbol found with before | new
    · rcases first.names symbol before with old | new
      · exact .inl old
      · exact .inr (.inl new)
    · exact .inr (.inr new)

/-- When a new object was put into a container, objects were added and the container was changed. -/
theorem linked {container child : Nat} (first : world.Added (fun _ => False) names between)
    (second : between.Added (fun id => id = container ∨ id = child) [] after)
    (absent : world.registry.contains child = false) :
    world.Added (· = container) names after := by
  have wider : world.Added (· = container) names between := first.mono fun _ => False.elim
  have both := wider.trans second ?_
  · rw [List.append_nil] at both
    exact both
  · intro id live notContainer
    refine not_or.mpr ⟨notContainer, ?_⟩
    rintro rfl
    rw [absent] at live
    contradiction

end Added

/-- Objects of some names can be restored: none of the names is taken or occurs twice. -/
structure Room (names : List String) (world : World) : Prop where
  ready : world.Ready
  nodup : (names.map Text.fold).Nodup
  free : ∀ symbol, (world.registry.findName? symbol).isSome = true →
    Text.fold symbol.text ∉ names.map Text.fold

namespace Room

variable {names more : List String}

theorem left (room : world.Room (names ++ more)) : world.Room names where
  ready := room.ready
  nodup := by
    have nodup := room.nodup
    rw [List.map_append] at nodup
    exact nodup.of_append_left
  free symbol taken member := by
    refine room.free symbol taken ?_
    rw [List.map_append]
    exact List.mem_append_left _ member

/-- When objects of the first names were added, the others are still free. -/
theorem right (room : world.Room (names ++ more)) {changed : Nat → Prop}
    (added : world.Added changed names after) : after.Room more := by
  have nodup := room.nodup
  rw [List.map_append] at nodup
  obtain ⟨_, rest, apart⟩ := List.nodup_append.mp nodup
  refine ⟨added.ready, rest, fun symbol taken member => ?_⟩
  rcases added.names symbol taken with before | new
  · refine room.free symbol before ?_
    rw [List.map_append]
    exact List.mem_append_right _ member
  · exact apart _ new _ member rfl

end Room


end World

namespace Snapshot

open World Eval

variable {kind : Nat → Prop}

/-- What is shown of new objects stays so when others are added. -/
theorem Shows.added {changed : Nat → Prop} {names : List String} {world between after : World}
    (added : between.Added changed names after)
    (old : ∀ id, changed id → world.registry.contains id = true) {snapshot : Snapshot} {id : Nat}
    (shows : Shows between.registry (world.registry.New between.registry) snapshot id) :
    Shows after.registry (world.registry.New after.registry) snapshot id := by
  refine shows.later (fun id new => ⟨new.1, added.live id new.2⟩) (fun id new => ?_) snapshot id
  have unchanged : ¬ changed id := by
    intro isChanged
    have before := old id isChanged
    rw [new.1] at before
    contradiction
  rw [added.objects id new.2 unchanged]

theorem lift_apply {α : Type} (change : WorldM α) (console : Console) :
    (change : Eval α) console =
      .ok (change.run console.world).1 { console with world := (change.run console.world).2 } :=
  rfl

/-- Where no object calls a function, a draft that is registered is only entered. -/
theorem registerObject_silent (console : Console) (ready : console.world.Ready) (ev : Evaluator)
    (draft : Draft) (name : String) :
    Eval.registerObject ev draft name console = (World.enter draft name : Eval Nat) console := by
  have basic : Basic (World.enter draft name) := .enter draft name
  have after : ((World.enter draft name).run console.world).2.Ready :=
    ready.later (basic.grows console.world) (enter_classes draft name console.world)
      (enter_functions draft name console.world)
  have silent := after.lacks.methodOf? after.lawful ((World.enter draft name).run console.world).1
  unfold Eval.registerObject
  rw [bind_apply, lift_apply]
  simp only [bind_apply,
    notify_silent { console with world := ((World.enter draft name).run console.world).2 } silent]
  rfl

/-- A draft is registered where no object calls a function. -/
theorem registers (console : Console) (ev : Evaluator) (draft : Draft) {name : Option String}
    (nonempty : name ≠ some "") (room : console.world.Room name.toList) :
    ∃ id symbol layer linked after,
      Eval.registerObject ev draft (name.getD "") console = .ok id { console with world := after } ∧
      console.world.Added (fun _ => False) name.toList after ∧
      console.world.registry.contains id = false ∧
      (symbol.map Symbol.text).map Text.fold = name.map Text.fold ∧
      after.registry.get? id = some { draft.object with id, name := symbol, layer, linked } := by
  have free (text : String) (named : name = some text) (symbol : Symbol)
      (same : Text.fold symbol.text = Text.fold text) :
      console.world.registry.findName? symbol = none := by
    rw [← Option.not_isSome_iff_eq_none]
    intro taken
    refine room.free symbol taken ?_
    rw [same, named]
    exact List.mem_singleton_self _
  obtain ⟨id, symbol, layer, linked, number, spelled, absent, own, others, taken⟩ :=
    enter_free room.ready.lawful draft nonempty free
  have basic : Basic (World.enter draft (name.getD "")) := .enter draft _
  have grows := basic.grows console.world
  have classes := enter_classes draft (name.getD "") console.world
  have functions := enter_functions draft (name.getD "") console.world
  rcases entered : (World.enter draft (name.getD "")).run console.world with ⟨number', after⟩
  rw [entered] at number own others taken grows classes functions
  obtain rfl : number' = id := number
  have ready := room.ready.later grows classes functions
  refine ⟨number', symbol, layer, linked, after, ?_, ⟨ready, ?_, ?_, ?_, ?_⟩, absent, spelled, own⟩
  · rw [registerObject_silent _ room.ready, lift_apply, entered]
  · exact funext (room.ready.toKeyed.classInfo?_eq _ grows classes)
  · intro other there
    by_cases same : other = number'
    · rw [same, absent] at there
      contradiction
    · obtain ⟨object, found⟩ := Registry.get?_of_contains there
      exact Registry.contains_of_get? ((others other same).trans found)
  · intro other there _
    refine others other ?_
    rintro rfl
    rw [absent] at there
    contradiction
  · intro other found
    rcases taken other found with before | same
    · exact .inl before
    · refine .inr ?_
      rw [same] at spelled
      obtain ⟨text, named, folded⟩ := Option.map_eq_some_iff.mp spelled.symm
      rw [named, ← folded]
      exact List.mem_singleton_self _

/-- What is new after an addition was not there before it. -/
theorem absent_of_new {world between after : World} {changed : Nat → Prop} {names : List String}
    (added : world.Added changed names between) {id : Nat}
    (new : between.registry.New after.registry id) : world.registry.contains id = false := by
  rw [← Bool.not_eq_true]
  intro there
  have still := added.live id there
  rw [new.1] at still
  contradiction

/-- A restored object is put into a container. -/
theorem links {world : World} (ready : world.Ready) {container child : Nat}
    {holder object : Object} (found : world.registry.get? container = some holder)
    (isContainer : holder.info.isContainer = true) (outer : holder.group = none)
    (there : world.registry.get? child = some object) (free : object.group = none)
    (apart : container ≠ child) :
    ∃ after, (restoreLink container child).run world = ((), after) ∧
      world.Added (fun id => id = container ∨ id = child) [] after ∧
      after.registry.get? container =
        some { holder with children := holder.children ++ [child] } ∧
      after.registry.get? child = some { object with group := some container } := by
  obtain ⟨added, put, own, inside, others, names, classes⟩ :=
    Registry.addChild_free found isContainer outer there free apart
  have same : Registry.classes added = world.classes := classes
  refine ⟨{ world with registry := added }, ?_, ⟨?_, ?_, ?_, ?_, ?_⟩, own, inside⟩
  · unfold restoreLink
    rw [bind_run, addChild_run, put]
    rfl
  · exact ready.later (.refl world.symbols) same rfl
  · exact funext (ready.toKeyed.classInfo?_eq _ (.refl world.symbols) same)
  · intro id live
    by_cases isContainer : id = container
    · exact Registry.contains_of_get? (isContainer ▸ own)
    · by_cases isChild : id = child
      · exact Registry.contains_of_get? (isChild ▸ inside)
      · obtain ⟨object, before⟩ := Registry.get?_of_contains live
        exact Registry.contains_of_get? ((others id isContainer isChild).trans before)
  · intro id _ unchanged
    obtain ⟨notContainer, notChild⟩ := not_or.mp unchanged
    exact others id notContainer notChild
  · intro symbol taken
    unfold Registry.findName? at taken ⊢
    rw [← names]
    exact .inl taken

/-- What is shown of a new object stays so when it is put into a container that was there. -/
theorem Shows.linked {world between after : World} {container child : Nat} {object : Object}
    {snapshot : Snapshot}
    (shows : Shows between.registry (world.registry.New between.registry) snapshot child)
    (added : between.Added (fun id => id = container ∨ id = child) [] after)
    (held : world.registry.contains container = true)
    (there : between.registry.get? child = some object)
    (inside : after.registry.get? child = some { object with group := some container }) :
    Shows after.registry (world.registry.New after.registry) snapshot child := by
  refine shows.later (fun id new => ⟨new.1, added.live id new.2⟩) (fun id new => ?_) snapshot child
  by_cases own : id = child
  · rw [own, inside, there]
    rfl
  · have notContainer : id ≠ container := by
      rintro rfl
      rw [new.1] at held
      contradiction
    rw [added.objects id new.2 (not_or.mpr ⟨notContainer, own⟩)]

mutual

/-- A snapshot that can be restored is restored. -/
theorem restores (ev : Evaluator) : (snapshot : Snapshot) → (console : Console) →
    snapshot.Restorable console.world.classInfo? → console.world.Room snapshot.names →
      ∃ id t after, snapshot.restore ev console = .ok (.ok id) { console with world := after } ∧
        console.world.Added (fun _ => False) snapshot.names after ∧
        console.world.registry.contains id = false ∧ after.registry.group? id = none ∧
        Shows after.registry (console.world.registry.New after.registry) t id ∧
        t.Alike (snapshot.readBack console.world.classInfo?)
  | ⟨className, name, fields, children⟩, console => by
    intro restorable room
    unfold Restorable at restorable
    obtain ⟨⟨info, found, spelled, holds⟩, nonempty, restorableAll⟩ := restorable
    unfold names at room ⊢
    obtain ⟨log, written⟩ := restoreFields_run className fields (.ofClass info) console.world
    have start : { console.world with log }.Room name.toList :=
      ⟨⟨⟨room.ready.lawful, room.ready.known⟩, room.ready.lacks⟩, room.left.nodup, room.left.free⟩
    obtain ⟨id, symbol, layer, linked, between, entered, added, absent, named, own⟩ :=
      registers { console with world := { console.world with log } } ev
        ((Draft.ofClass info).readBack fields) nonempty start
    have first : console.world.Added (fun _ => False) name.toList between :=
      ⟨added.ready, added.classes, added.live, added.objects, added.names⟩
    have isInfo : ((Draft.ofClass info).readBack fields).object.info = info := by
      rw [Draft.object_readBack, Object.info_readBack]
      rfl
    have lifted : ((fields.foldlM (restoreField className) (.ofClass info) : WorldM Draft) :
        Eval Draft) console = .ok ((Draft.ofClass info).readBack fields)
          { console with world := { console.world with log } } := by
      rw [lift_apply, written]
    generalize isDraft : (Draft.ofClass info).readBack fields = draft at lifted entered own isInfo
    have inside : children ≠ [] → draft.object.info.isContainer = true :=
      fun some => (congrArg ClassInfo.isContainer isInfo).trans (holds some)
    obtain ⟨ids, ts, after, ran, more, holder, shows, alike⟩ :=
      restoresAll ev children { console with world := between } id _ own draft.group_eq inside
        (first.classes ▸ restorableAll) (room.right first)
    refine ⟨id, ⟨info.name.text, symbol.map Symbol.text, fieldsOf draft.object, ts⟩, after, ?_,
      first.trans more ?_, absent, ?_, ?_, ?_⟩
    · have read : Eval.world console = .ok console.world console := rfl
      have drafted : console.world.newObject? className = some (.ofClass info) :=
        congrArg (Option.map Draft.ofClass) found
      unfold restore
      rw [bind_apply, read]
      simp only [drafted, bind_apply, lifted, entered, ran]
      rfl
    · rintro other there - rfl
      rw [absent] at there
      contradiction
    · unfold Registry.group?
      rw [holder]
      exact draft.group_eq
    · unfold Shows
      refine ⟨⟨absent, Registry.contains_of_get? holder⟩, _, holder,
        congrArg (fun info => info.name.text) isInfo, rfl, rfl, ?_⟩
      have inner : draft.object.children ++ ids = ids := by rw [draft.children_eq, List.nil_append]
      rw [inner]
      exact shows.later (fun other new => ⟨absent_of_new first new, new.2⟩) (fun _ _ => rfl) ts ids
    · unfold Alike readBack
      refine ⟨spelled, named, ?_, first.classes ▸ alike⟩
      rw [found, Option.elim_some, isDraft]

/-- Several snapshots are restored inside a container that is in none itself. -/
theorem restoresAll (ev : Evaluator) : (snapshots : List Snapshot) → (console : Console) →
    (container : Nat) → (object : Object) →
    console.world.registry.get? container = some object → object.group = none →
      (snapshots ≠ [] → object.info.isContainer = true) →
      RestorableAll console.world.classInfo? snapshots → console.world.Room (namesAll snapshots) →
      ∃ ids ts after, restoreChildren ev container snapshots console =
          .ok (.ok ()) { console with world := after } ∧
        console.world.Added (· = container) (namesAll snapshots) after ∧
        after.registry.get? container = some { object with children := object.children ++ ids } ∧
        ShowsAll after.registry (console.world.registry.New after.registry) ts ids ∧
        AlikeAll ts (readBackAll console.world.classInfo? snapshots)
  | [], console, container, object => by
    intro found outer holds restorable room
    refine ⟨[], [], console.world, rfl, .refl room.ready, ?_, ?_, ?_⟩
    · rw [List.append_nil]
      exact found
    · unfold ShowsAll
      rfl
    · unfold AlikeAll readBackAll
      rfl
  | snapshot :: snapshots, console, container, object => by
    intro found outer holds restorable room
    unfold RestorableAll at restorable
    unfold namesAll at room ⊢
    obtain ⟨child, t, between, ran, first, absent, alone, shows, alike⟩ :=
      restores ev snapshot console restorable.1 room.left
    have apart : container ≠ child := by
      rintro rfl
      rw [Registry.contains_of_get? found] at absent
      contradiction
    have holder := (first.objects container (Registry.contains_of_get? found) id).trans found
    obtain ⟨other, there⟩ := Registry.get?_of_contains shows.root.2
    have free : other.group = none := by
      unfold Registry.group? at alone
      rw [there] at alone
      exact alone
    obtain ⟨linked, link, second, holder', there'⟩ := links first.ready holder
      (holds (List.cons_ne_nil _ _)) outer there free apart
    have joined := first.linked second absent
    have still := shows.linked second (Registry.contains_of_get? found) there there'
    obtain ⟨ids, ts, after, ranAll, third, holder'', showsAll, alikeAll⟩ :=
      restoresAll ev snapshots { console with world := linked } container _ holder' outer
        (fun _ => holds (List.cons_ne_nil _ _)) (joined.classes ▸ restorable.2) (room.right joined)
    refine ⟨child :: ids, t :: ts, after, ?_, joined.trans third fun _ _ other => other, ?_, ?_, ?_⟩
    · have lifted : (restoreLink container child : Eval Unit) { console with world := between } =
          .ok () { console with world := linked } := by
        rw [lift_apply, link]
      unfold restoreChildren
      simp only [bind_apply, ran, lifted, ranAll]
    · rw [holder'', List.append_assoc]
      rfl
    · unfold ShowsAll
      refine ⟨child, ids, rfl, still.added third ?_, ?_⟩
      · rintro id rfl
        exact Registry.contains_of_get? found
      · exact showsAll.later (fun other new => ⟨absent_of_new joined new, new.2⟩) (fun _ _ => rfl)
          ts ids
    · unfold AlikeAll readBackAll
      exact ⟨_, _, rfl, alike, joined.classes ▸ alikeAll⟩

end

end Snapshot

end ScriptConsole
