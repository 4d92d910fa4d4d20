import ScriptConsole.Proofs.Console.Fresh
import ScriptConsole.Proofs.Snapshot.Capture

/-! # Names and classes of objects

In every world that comes about, the table of symbols knows the names of all objects
(`ScriptConsole.World.Reachable.spelled`). In the worlds of strict terms objects are also of classes
that the world has (`ScriptConsole.World.Labelled`).
-/

namespace ScriptConsole

namespace Text

theorem fold_eq_empty {text : String} (empty : fold text = "") : text = "" := by
  have chars := congrArg String.toList empty
  unfold fold at chars
  rw [String.toList_ofList] at chars
  exact String.toList_eq_nil_iff.mp (List.map_eq_nil_iff.mp chars)

end Text

namespace Registry

/-- The objects of a registry are those of another one or some of them, with the same classes.
Their names are as before, or new. -/
def Inherits (registry other : Registry) (isNew : Symbol → Prop) : Prop :=
  ∀ id object, other.get? id = some object → ∃ before, registry.get? id = some before ∧
    object.info = before.info ∧
    ∀ name, object.name = some name → before.name = some name ∨ isNew name

namespace Inherits

variable {registry : Registry} {isNew : Symbol → Prop}

theorem of_objects {other : Registry} (same : other.objects = registry.objects) :
    Inherits registry other isNew := by
  intro id object found
  unfold get? at found
  rw [same] at found
  exact ⟨object, found, rfl, fun _ => .inl⟩

/-- Changes of single objects that keep class and name. -/
theorem of_map {other : Registry}
    (changed : ∀ id, ∃ change : Object → Object, (∀ object, (change object).info = object.info ∧
      (change object).name = object.name) ∧ other.get? id = (registry.get? id).map change) :
    Inherits registry other isNew := by
  intro id object found
  obtain ⟨change, kept, equal⟩ := changed id
  rw [equal] at found
  obtain ⟨before, there, rfl⟩ := Option.map_eq_some_iff.mp found
  exact ⟨before, there, (kept before).1, fun name named => .inl ((kept before).2 ▸ named)⟩

theorem of_resembles {other : Registry} (resembles : registry.Resembles other) :
    Inherits registry other isNew := by
  refine .of_map fun id => ?_
  obtain ⟨change, kept, equal⟩ := resembles.objects id
  exact ⟨change, fun object => ⟨(kept object).1, (kept object).2.2.2⟩, equal⟩

theorem detach (registry : Registry) (child : Nat) :
    Inherits registry (registry.detach child) isNew := by
  refine .of_map fun id => ?_
  obtain ⟨change, kept, equal⟩ := registry.get?_detach child id
  exact ⟨change, fun object => ⟨(kept object).1, (kept object).2.2.1⟩, equal⟩

/-- Putting an object into a container changes no class and no name, neither where it goes nor where
it was taken from. -/
theorem addChild {added : Registry} {container child : Nat}
    (put : registry.addChild container child = .ok added) : Inherits registry added isNew := by
  obtain ⟨_, _, _, ⟨_, rfl⟩ | ⟨_, rfl⟩⟩ := addChild_cases put
  · exact .of_objects rfl
  · refine .of_map fun id => ?_
    obtain ⟨change, kept, equal⟩ := registry.get?_detach child id
    rw [get?_update_map, get?_update_map, equal, Option.map_map, Option.map_map]
    refine ⟨_, fun object => ?_, rfl⟩
    rw [← (kept object).1, ← (kept object).2.2.1]
    by_cases holder : container = id <;> by_cases own : child = id <;>
      simp only [Function.comp_apply, holder, own, ↓reduceIte, and_self]

theorem removed (registry : Registry) (id : Nat) :
    Inherits registry (registry.removed id) isNew := by
  intro other object found
  rw [get?_removed] at found
  split at found
  · contradiction
  · split at found
    · obtain ⟨before, there, rfl⟩ := Option.map_eq_some_iff.mp found
      exact ⟨before, there, rfl, fun _ => .inl⟩
    · exact ⟨object, found, rfl, fun _ => .inl⟩

/-- A renamed object keeps its class, and its name is the given one. All others keep both. -/
theorem rename (registry : Registry) (id : Nat) {name : Option Symbol}
    (given : ∀ symbol, name = some symbol → isNew symbol) :
    Inherits registry (registry.rename id name).2 isNew := by
  unfold Registry.rename
  split
  · exact .of_objects rfl
  · split
    · exact .of_objects rfl
    next object live =>
      intro other changed found
      unfold get? at found live
      simp only [Std.TreeMap.getElem?_insert, Std.compare_eq_iff_eq] at found
      split at found
      next own =>
        obtain rfl := Option.some.inj found
        exact ⟨object, own ▸ live, rfl, fun symbol named => .inr (given symbol named)⟩
      next => exact ⟨changed, found, rfl, fun _ => .inl⟩

/-- Names that were known stay known as the table of symbols grows. -/
theorem spelled {other : Registry} {symbols later : SymbolTable}
    (inherits : registry.Inherits other fun name => later.Knows name ∧ name.text ≠ "")
    (grows : symbols.Grows later) (spelled : registry.Spelled symbols) : other.Spelled later := by
  intro id object name found named
  obtain ⟨before, there, -, names⟩ := inherits id object found
  rcases names name named with old | new
  · obtain ⟨known, some⟩ := spelled id before name there old
    exact ⟨grows.keeps.names known, some⟩
  · exact new

end Inherits

end Registry

namespace World

variable {α : Type} {world after : World}

/-- The symbol of a name that is not empty is one that the table knows from then on. -/
theorem internNonempty_run (lawful : world.symbols.Lawful) (name : String) :
    ∀ symbol, ((internNonempty name).run world).1 = some symbol →
      ((internNonempty name).run world).2.symbols.Knows symbol ∧ symbol.text ≠ "" ∧
        Text.fold symbol.text = Text.fold name := by
  cases given : name.isEmpty with
  | true =>
      intro symbol named
      unfold internNonempty at named
      rw [given] at named
      exact nomatch named
  | false =>
      have later := lawful.intern name
      have found := world.symbols.find?_intern name
      have same := later.fold_text found
      intro symbol named
      unfold internNonempty at named ⊢
      rw [given] at named ⊢
      obtain rfl := Option.some.inj named
      refine ⟨later.knows found, ?_, same⟩
      intro empty
      have folded : Text.fold name = "" := by
        rw [← same]
        exact congrArg Text.fold empty
      rw [Text.fold_eq_empty folded] at given
      contradiction

/-- A name is interned with its spelling up to letter case, and no name as none. -/
theorem internNonempty_spelled (lawful : world.symbols.Lawful) {name : Option String}
    (nonempty : name ≠ some "") :
    (((internNonempty (name.getD "")).run world).1.map Symbol.text).map Text.fold =
      name.map Text.fold := by
  cases name with
  | none => rfl
  | some text =>
      have given : text.isEmpty = false := by
        rw [← Bool.not_eq_true, String.isEmpty_iff]
        exact fun empty => nonempty (congrArg some empty)
      rw [Option.getD_some]
      cases interned : ((internNonempty text).run world).1 with
      | none =>
          unfold internNonempty at interned
          rw [given] at interned
          exact nomatch interned
      | some symbol => exact congrArg some (internNonempty_run lawful text symbol interned).2.2

/-- Linking the namespaces of an object notes them in the object. -/
theorem linkObject_registry {id : Nat} {object : Object}
    (found : world.registry.get? id = some object) :
    ∃ layer linked, ((linkObject id).run world).2.registry =
      world.registry.update id fun object => { object with layer, linked } := by
  have names := apart_registry.linkNames object world
  rcases named : (linkNames object).run world with ⟨symbols, between⟩
  rw [named] at names
  have keeps : Keeps World.registry (symbols.foldlM (linkStep id) (object.info.layer, [])) :=
    Keeps.composes.foldlM (apart_registry.links.linkStep id) _
  have linking := keeps between
  rcases linked : (symbols.foldlM (linkStep id) (object.info.layer, [])).run between with
    ⟨state, after⟩
  rw [linked] at linking
  refine ⟨state.1, state.2, ?_⟩
  rw [← names, ← linking]
  unfold linkObject
  rw [StateT.run_bind, StateT.run_get]
  simp only [pure_bind, found, bind_run, named, linked]
  rfl

/-- An object that is entered is registered under the symbol of its name, and its namespaces are
noted in it. -/
theorem enter_registry (draft : Draft) (name : String) (world : World) :
    ∃ symbol layer linked, symbol = ((internNonempty name).run world).1 ∧
      ((enter draft name).run world).1 = (world.registry.register draft symbol).1.1 ∧
      ((enter draft name).run world).2.registry =
        (world.registry.register draft symbol).2.update (world.registry.register draft symbol).1.1
          fun object => { object with layer, linked } := by
  obtain ⟨symbol, between, is, same, _, ran⟩ := enter_run draft name world
  obtain ⟨registered, _⟩ := Prod.mk.inj same
  have own := world.registry.get?_register draft symbol (world.registry.register draft symbol).1.1
  rw [if_pos rfl, ← registered] at own
  obtain ⟨layer, linked, noted⟩ := linkObject_registry own
  refine ⟨symbol, layer, linked, is, ?_, ?_⟩
  · rw [ran]
  · rw [ran, noted, registered]

/-- An object is renamed to the symbol of a name. -/
theorem rename_run (id : Nat) (name : String) (world : World) :
    ((rename id name).run world).2 =
      { ((internNonempty name).run world).2 with
        registry := (((internNonempty name).run world).2.registry.rename id
          ((internNonempty name).run world).1).2 } :=
  rfl

/-- A mild change leaves the objects or some of them, with their classes. Names that it gives are
known from then on. -/
theorem Mild.inherits {change : WorldM α} (mild : Mild change) (lawful : world.symbols.Lawful) :
    world.registry.Inherits (change.run world).2.registry
      fun name => (change.run world).2.symbols.Knows name ∧ name.text ≠ "" := by
  have same {β : Type} {change : WorldM β} (keeps : Keeps World.registry change) :
      world.registry.Inherits (change.run world).2.registry
        fun name => (change.run world).2.symbols.Knows name ∧ name.text ≠ "" :=
    .of_objects (congrArg Registry.objects (keeps world))
  cases mild with
  | say text => exact same (apart_registry.record _)
  | warn text => exact same (apart_registry.warn text)
  | linkNamespaces child parent => exact same (apart_registry.links.linkNamespaces child parent)
  | remove id =>
      rw [remove_run]
      exact .removed world.registry id
  | setField id field index value =>
      rcases setField_cases world id field index value with
        ⟨reason, ran⟩ | ⟨object, changed, found, written, ran⟩
      · rw [ran]
        exact .of_objects rfl
      · obtain ⟨persistent, dynamic, rfl⟩ := Object.setField_eq written
        rw [ran]
        exact .of_resembles (Registry.resembles_replace found rfl rfl rfl rfl)
  | rename id name =>
      have given := internNonempty_run lawful name
      rw [rename_run, apart_registry.internNonempty name world]
      exact .rename world.registry id fun symbol named =>
        ⟨(given symbol named).1, (given symbol named).2.1⟩
  | addChild container child =>
      rw [addChild_run]
      cases put : world.registry.addChild container child with
      | ok added => exact .addChild put
      | error reason => exact .of_objects rfl
  | detach child => exact .detach world.registry child
  | _ => exact .of_objects rfl

/-- An object that is there after another one was entered is the new one, or was there before. -/
theorem enter_cases {draft : Draft} {name : String} {id : Nat} {object : Object}
    (found : ((enter draft name).run world).2.registry.get? id = some object) :
    (object.info = draft.object.info ∧ ∀ symbol, object.name = some symbol →
      ((internNonempty name).run world).1 = some symbol) ∨
    ∃ before, world.registry.get? id = some before ∧ object.info = before.info ∧
      object.name = before.name := by
  obtain ⟨symbol, layer, linked, is, _, registry⟩ := enter_registry draft name world
  rw [registry, Registry.get?_update] at found
  obtain ⟨before, there, info, named⟩ : ∃ before,
      (world.registry.register draft symbol).2.get? id = some before ∧
        object.info = before.info ∧ object.name = before.name := by
    split at found
    · obtain ⟨before, there, rfl⟩ := Option.map_eq_some_iff.mp found
      exact ⟨before, there, rfl, rfl⟩
    · exact ⟨object, found, rfl, rfl⟩
  rw [info, named, ← is]
  rw [Registry.get?_register] at there
  split at there
  · obtain rfl := Option.some.inj there
    exact .inl ⟨rfl, fun given is => (Registry.givenName_eq_some is).1⟩
  · exact .inr ⟨before, there, rfl, rfl⟩

theorem registerClass_get? (spec : ClassSpec) (world : World) :
    ((registerClass spec).run world).2.registry.get? = world.registry.get? := by
  have contents := apart_contents.links.registerClass spec (fun _ _ _ => rfl) world
  funext id
  exact congrArg (fun objects : Std.TreeMap Nat Object => objects[id]?)
    (congrArg Prod.fst contents)

theorem resembles_copyFields (id : Nat) (source : Draft) (world : World) :
    world.registry.Resembles ((copyFields id source).run world).2.registry := by
  refine Registry.resembles_update (fun object => ?_) world.registry id
  obtain ⟨persistent, dynamic, copied⟩ := object.copyFieldsFrom_eq source.object
  rw [copied]
  exact ⟨rfl, rfl, rfl, rfl⟩

/-- Whatever basic change is made, the table knows the names of objects. -/
theorem Basic.spelled {change : WorldM α} (basic : Basic change) (lawful : world.symbols.Lawful)
    (spelled : world.registry.Spelled world.symbols) :
    (change.run world).2.registry.Spelled (change.run world).2.symbols := by
  have grows := basic.grows world
  rcases basic.mild_or_major with mild | major
  · exact (mild.inherits lawful).spelled grows spelled
  cases major with
  | define layer name target => exact Registry.Inherits.spelled (.of_objects rfl) grows spelled
  | copyFields id source =>
      exact Registry.Inherits.spelled (.of_resembles (resembles_copyFields id source world)) grows
        spelled
  | registerClass spec =>
      intro id object name found named
      rw [registerClass_get?] at found
      obtain ⟨known, some⟩ := spelled id object name found named
      exact ⟨grows.keeps.names known, some⟩
  | enter draft name =>
      intro id object symbol found named
      rcases enter_cases found with ⟨_, given⟩ | ⟨before, there, _, same⟩
      · obtain ⟨known, some, _⟩ := internNonempty_run lawful name symbol (given symbol named)
        exact ⟨(grows_enter draft name world).keeps.names known, some⟩
      · obtain ⟨known, some⟩ := spelled id before symbol there (same ▸ named)
        exact ⟨grows.keeps.names known, some⟩

/-- The table of symbols knows the names of classes and objects, and objects are of classes of the
world. -/
structure Labelled (world : World) : Prop extends world.Keyed where
  classed : ∀ id object, world.registry.get? id = some object →
    world.registry.classes[object.info.name]? = some object.info
  spelled : world.registry.Spelled world.symbols

/-- Orderly changes under strict terms keep all labels. -/
theorem Orderly.labelled {change : WorldM α} (orderly : Orderly True world change)
    (labelled : world.Labelled) : (change.run world).2.Labelled where
  toKeyed := labelled.later (orderly.basic.grows world) orderly.classes
  spelled := orderly.basic.spelled labelled.lawful labelled.spelled
  classed id object found := by
    refine (congrArg (·[object.info.name]?) orderly.classes).trans ?_
    have inherited {isNew : Symbol → Prop}
        (inherits : world.registry.Inherits (change.run world).2.registry isNew) :
        world.registry.classes[object.info.name]? = some object.info := by
      obtain ⟨before, there, info, _⟩ := inherits id object found
      rw [info]
      exact labelled.classed id before there
    cases orderly with
    | mild mild => exact inherited (mild.inherits labelled.lawful)
    | define layer name proper => exact @inherited (fun _ => False) (.of_objects rfl)
    | copyFields fits name =>
        exact @inherited (fun _ => False) (.of_resembles (resembles_copyFields _ _ world))
    | enter fits name =>
        rcases enter_cases found with ⟨info, _⟩ | ⟨before, there, info, _⟩
        · rw [info]
          exact fits.known trivial
        · rw [info]
          exact labelled.classed id before there

theorem Ordered.labelled (ordered : world.Ordered True after) (labelled : world.Labelled) :
    after.Labelled := by
  induction ordered with
  | refl => exact labelled
  | tail _ step ih =>
      obtain ⟨_, change, orderly, rfl⟩ := step
      exact orderly.labelled ih

/-- Registering a class keeps all labels. -/
theorem labelled_registerClass (spec : ClassSpec) : Preserves Labelled (registerClass spec) := by
  intro world labelled
  have basic : Basic (registerClass spec) := .registerClass spec
  have classed (name : Symbol) (info : ClassInfo)
      (found : world.registry.classes[name]? = some info) :
      ((registerClass spec).run world).2.classes[name]? = some info := by
    rcases registerClass_cases labelled.toKeyed spec with ⟨_, same⟩ | ⟨admits, inserted⟩
    · rw [same]
      exact found
    · have own := labelled.classes_intern spec.name
      rw [inserted, Std.TreeMap.getElem?_insert]
      split
      next equal =>
        obtain rfl := Std.compare_eq_iff_eq.mp equal
        rw [admits.1] at own
        exact nomatch found.symm.trans own
      next => exact found
  refine ⟨keyed_registerClass spec world labelled.toKeyed, fun id object found => ?_,
    basic.spelled labelled.lawful labelled.spelled⟩
  rw [registerClass_get?] at found
  exact classed _ _ (labelled.classed id object found)

/-- The world of a new console is labelled. -/
theorem labelled_new (config : Config) (serial : Nat) : (World.new config serial).Labelled := by
  refine (ordered_new True config serial).labelled (registered_induct ?_ labelled_registerClass _)
  refine ⟨keyed_bare config serial, ?_, ?_⟩
  · intro id object found
    exact absurd found (by simp [bare, Registry.empty, Registry.get?])
  · intro id object name found
    exact absurd found (by simp [bare, Registry.empty, Registry.get?])

/-- In every world that comes about the table knows the names of objects. -/
theorem Reachable.spelled (reachable : world.Reachable) :
    world.registry.Spelled world.symbols := by
  obtain ⟨config, serial, evolves⟩ := reachable
  induction evolves with
  | refl => exact (labelled_new config serial).spelled
  | @tail middle _ before step ih =>
      obtain ⟨_, change, basic, rfl⟩ := step
      have reached : middle.Reachable := ⟨config, serial, before⟩
      exact basic.spelled reached.keyed.lawful ih

end World

end ScriptConsole
