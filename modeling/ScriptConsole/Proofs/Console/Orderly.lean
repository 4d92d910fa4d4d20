import ScriptConsole.Proofs.Console.Functions
import ScriptConsole.Proofs.Objects.Shape
import ScriptConsole.Proofs.Parse.Compiled

/-! # Orderly changes of a world

Where there are no functions of the host, a world changes in an orderly way: functions are
defined in compiled scripts, and objects are registered and redefined with fields that came
about by writing and copying (`ScriptConsole.World.Ordered`). Such changes keep all functions
and all objects proper (`ScriptConsole.World.Ordered.sane`) and leave the classes.
-/

namespace ScriptConsole

/-- A heap is that of a script that a compilation made. -/
def Heap.Compiled (heap : Heap) : Prop :=
  ∃ source symbols script,
    (compileSource source symbols).1 = .ok script ∧ heap.OfScript script

theorem Heap.Compiled.closed {heap : Heap} (compiled : heap.Compiled) : heap.Closed := by
  obtain ⟨_, _, _, _, ofScript⟩ := compiled
  exact ofScript.closed

/-- A function is defined in a compiled script or comes with the console. -/
def Callable.Proper : Callable → Prop
  | .script _ definition => ∃ heap : Heap, heap.Compiled ∧ heap.HasDefinition definition
  | .native _ _ code => ∃ builtin, code = .builtin builtin

/-- A draft came about by writing and copying fields. Under strict terms its class is one that
the world has. -/
structure Draft.Fits (strict : Prop) (world : World) (draft : Draft) : Prop where
  arises : draft.object.Arises
  known : strict → world.registry.classes[draft.object.info.name]? = some draft.object.info

namespace World

/-- The basic changes of a world where there are no functions of the host, and no further
classes. -/
inductive Orderly (strict : Prop) (world : World) : {α : Type} → WorldM α → Prop where
  | mild {α : Type} {change : WorldM α} (mild : Mild change) : Orderly strict world change
  | define (layer : Layer) (name : Symbol) {target : Callable} (proper : target.Proper) :
      Orderly strict world (World.define layer name target)
  | enter {draft : Draft} (fits : draft.Fits strict world) (name : String) :
      Orderly strict world (World.enter draft name)
  | copyFields (id : Nat) {source : Draft} (fits : source.Fits strict world) :
      Orderly strict world (World.copyFields id source)

/-- A world becomes another one by an orderly change. -/
def OrderlyStep (strict : Prop) (world after : World) : Prop :=
  ∃ (α : Type) (change : WorldM α), Orderly strict world change ∧ (change.run world).2 = after

/-- A world becomes another one by orderly changes. -/
def Ordered (strict : Prop) : World → World → Prop :=
  Relation.ReflTransGen (OrderlyStep strict)

variable {α β : Type} {strict : Prop} {world after : World}

/-- What is put together from mild changes is orderly in every world. -/
theorem Gentle.ordered {change : WorldM α} (gentle : Gentle change) (strict : Prop)
    (world : World) : world.Ordered strict (change.run world).2 := by
  induction gentle generalizing world with
  | mild mild => exact .single ⟨_, _, .mild mild, rfl⟩
  | pure result => exact .refl
  | bind start rest ihStart ihRest => exact (ihStart world).trans (ihRest _ _)
  | reading same rest ih => exact ih world world

/-- Orderly changes are basic ones. -/
theorem Orderly.basic {change : WorldM α} (orderly : Orderly strict world change) :
    Basic change := by
  cases orderly with
  | mild mild => exact mild.basic
  | define layer name proper => exact .define layer name _
  | enter fits name => exact .enter _ name
  | copyFields id fits => exact .copyFields id _

section Library

/-- Built-in functions are defined in an orderly way. -/
theorem ordered_registerBuiltin (strict : Prop) (spec : BuiltinSpec) (world : World) :
    world.Ordered strict ((registerBuiltin spec).run world).2 := by
  have rest (space : Option Symbol) (isMethod : Bool) (world : World) : world.Ordered strict ((do
      World.define ⟨space, none⟩ (← World.intern spec.name)
        (.native isMethod spec.arity (.builtin spec.builtin)) : WorldM Unit).run world).2 := by
    have proper : (Callable.native isMethod spec.arity (.builtin spec.builtin)).Proper :=
      ⟨spec.builtin, rfl⟩
    exact .tail (.single ⟨_, _, .mild (.intern spec.name), rfl⟩) ⟨_, _, .define _ _ proper, rfl⟩
  unfold registerBuiltin registerNative
  rw [bind_run]
  cases spec.className with
  | none => exact rest none _ world
  | some space => exact .head ⟨_, _, .mild (.intern space), rfl⟩ (rest (some _) _ _)

/-- A world after classes were registered in order. -/
def registered (world : World) (specs : List ClassSpec) : World :=
  specs.foldl (fun world spec => ((registerClass spec).run world).2) world

/-- What is kept by registering each of several classes holds after they were registered. -/
theorem registered_induct_mem {property : World → Prop} (holds : property world)
    {specs : List ClassSpec} (each : ∀ spec ∈ specs, Preserves property (registerClass spec)) :
    property (world.registered specs) := by
  induction specs generalizing world with
  | nil => exact holds
  | cons spec specs ih =>
      obtain ⟨first, others⟩ := List.forall_mem_cons.mp each
      exact ih (first world holds) others

/-- What is kept by registering a class holds after several were registered. -/
theorem registered_induct {property : World → Prop} (holds : property world)
    (each : ∀ spec, Preserves property (registerClass spec)) (specs : List ClassSpec) :
    property (world.registered specs) :=
  registered_induct_mem holds fun spec _ => each spec

/-- A new console starts with the built-in classes and functions. -/
theorem new_eq (config : Config) (serial : Nat) :
    World.new config serial = (builtinFunctions ++ builtinMethods).foldl
      (fun world spec => ((registerBuiltin spec).run world).2)
      ((bare config serial).registered builtinClasses) := by
  have classes (specs : List ClassSpec) (world : World) :
      ((specs.forM fun spec => discard (registerClass spec) : WorldM PUnit).run world).2 =
        world.registered specs := by
    induction specs generalizing world with
    | nil => rfl
    | cons spec specs ih => exact ih _
  have functions (specs : List BuiltinSpec) (world : World) :
      ((specs.forM registerBuiltin : WorldM PUnit).run world).2 =
        specs.foldl (fun world spec => ((registerBuiltin spec).run world).2) world := by
    induction specs generalizing world with
    | nil => rfl
    | cons spec specs ih => exact ih _
  unfold World.new registerLibrary
  simp only [bind_run]
  rw [classes, functions, functions, List.foldl_append]

/-- What is kept by registering each built-in class and each built-in function holds of the world
of a new console. -/
theorem new_induct {property : World → Prop} (config : Config) (serial : Nat)
    (holds : property (bare config serial))
    (classes : ∀ spec ∈ builtinClasses, Preserves property (registerClass spec))
    (functions : ∀ spec, Preserves property (registerBuiltin spec)) :
    property (.new config serial) := by
  rw [new_eq]
  have registered : property ((bare config serial).registered builtinClasses) :=
    registered_induct_mem holds classes
  generalize (bare config serial).registered builtinClasses = world at registered
  induction builtinFunctions ++ builtinMethods generalizing world with
  | nil => exact registered
  | cons spec specs ih => exact ih _ (functions spec world registered)

/-- The world of a new console comes about in an orderly way from one in which the built-in
classes were registered. -/
theorem ordered_new (strict : Prop) (config : Config) (serial : Nat) :
    ((bare config serial).registered builtinClasses).Ordered strict (.new config serial) := by
  rw [new_eq]
  generalize (bare config serial).registered builtinClasses = world
  induction builtinFunctions ++ builtinMethods generalizing world with
  | nil => exact .refl
  | cons spec specs ih => exact (ordered_registerBuiltin strict spec world).trans (ih _)

end Library

section Classes

/-- The classes of a world. -/
def classes (world : World) : Std.TreeMap Symbol ClassInfo :=
  world.registry.classes

theorem apart_classes : Apart classes :=
  ⟨⟨fun _ _ => rfl, fun _ _ => rfl⟩, fun _ _ => rfl⟩

private theorem classes_register (registry : Registry) (draft : Draft) (name : Option Symbol) :
    (registry.register draft name).2.classes = registry.classes := by
  unfold Registry.register Registry.allocate
  simp only
  split <;> rfl

private theorem classes_removed (registry : Registry) (id : Nat) :
    (registry.removed id).classes = registry.classes := by
  have deregister : (registry.deregister id).2.classes = registry.classes := by
    unfold Registry.deregister
    split <;> rfl
  cases found : registry.get? id with
  | none => rw [Registry.removed_of_none found]
  | some object =>
      rw [Registry.removed_of_some found]
      cases object.group <;> exact deregister

private theorem classes_detach (registry : Registry) (child : Nat) :
    (registry.detach child).classes = registry.classes := by
  unfold Registry.detach
  split <;> rfl

private theorem classes_addChild {registry added : Registry} {container child : Nat}
    (put : registry.addChild container child = .ok added) : added.classes = registry.classes := by
  obtain ⟨_, _, _, ⟨_, rfl⟩ | ⟨_, rfl⟩⟩ := Registry.addChild_cases put
  · rfl
  · exact classes_detach registry child

/-- Registering an object leaves the classes. -/
theorem enter_classes (draft : Draft) (name : String) :
    Keeps classes (World.enter draft name) := by
  intro world
  have preserved : Preserves (fun after => after.classes = world.classes)
      (World.enter draft name) :=
    preserves_enter apart_classes (fun _ _ same => same.trans) draft
      (fun world _ => (classes_register world.registry draft _).trans) (fun _ _ _ _ => id) name
  exact preserved world rfl

/-- Mild changes leave the classes. -/
theorem Mild.classes {change : WorldM α} (mild : Mild change) : Keeps World.classes change := by
  cases mild with
  | say text => exact apart_classes.record _
  | warn text => exact apart_classes.warn text
  | linkNamespaces child parent => exact apart_classes.links.linkNamespaces child parent
  | remove id =>
      intro world
      rw [remove_run]
      exact classes_removed world.registry id
  | setField id field index value => exact .setField (fun _ _ _ => rfl) id field index value
  | rename id name =>
      have renamed (registry : Registry) (name : Option Symbol) :
          (registry.rename id name).2.classes = registry.classes := by
        unfold Registry.rename
        split
        · rfl
        · split <;> rfl
      refine .bind (apart_classes.internNonempty name) fun symbol => ?_
      exact fun world => renamed world.registry symbol
  | addChild container child =>
      intro world
      rw [addChild_run]
      cases put : world.registry.addChild container child with
      | error reason => rfl
      | ok added => exact classes_addChild put
  | detach child => exact fun world => classes_detach world.registry child
  | _ => exact fun world => rfl

/-- Orderly changes leave the classes. -/
theorem Orderly.classes {change : WorldM α} (orderly : Orderly strict world change) :
    (change.run world).2.classes = world.classes := by
  cases orderly with
  | mild mild => exact mild.classes world
  | define layer name proper => rfl
  | enter fits name => exact enter_classes _ name world
  | copyFields id fits => rfl

theorem Ordered.classes (ordered : world.Ordered strict after) : after.classes = world.classes := by
  induction ordered with
  | refl => rfl
  | tail _ step ih =>
      obtain ⟨_, change, orderly, rfl⟩ := step
      exact orderly.classes.trans ih

end Classes

section Sane

/-- All functions and all objects of a world are proper, and classes go by their names. -/
structure Sane (world : World) : Prop where
  functions : world.spaces.Each Callable.Proper
  objects : world.registry.Each Object.Arises
  classes : ∀ (name : Symbol) (info : ClassInfo),
    world.registry.classes[name]? = some info → info.name = name

/-- Orderly changes keep all functions proper. -/
theorem Orderly.functions {change : WorldM α} (orderly : Orderly strict world change)
    (each : world.spaces.Each Callable.Proper) :
    (change.run world).2.spaces.Each Callable.Proper := by
  cases orderly with
  | mild mild => exact each.of_functions (mild.functions world)
  | define layer name proper => exact (each.create layer).define layer name proper
  | enter fits name => exact each.of_functions (enter_functions _ name world)
  | copyFields id fits => exact each

section Objects

variable {property : Object → Prop}

private theorem each_of_registry (world after : World) (same : after.registry = world.registry)
    (each : world.registry.Each property) : after.registry.Each property :=
  same ▸ each

/-- A registered object has what lasts of the draft. -/
theorem enter_objects (lasting : Object.Lasting property) {draft : Draft}
    (holds : property draft.object) (name : String) :
    Preserves (fun world => world.registry.Each property) (World.enter draft name) :=
  preserves_enter apart_registry each_of_registry draft
    (fun _ symbol each => each.register lasting holds symbol)
    (fun _ id layer linked each => each.update id fun object holds =>
      lasting.elsewhere holds object.id object.name layer linked object.group object.children)
    name

/-- What lasts of all objects is kept by mild changes. -/
theorem Mild.objects (lasting : Object.Lasting property) {change : WorldM α} (mild : Mild change) :
    Preserves (fun world => world.registry.Each property) change := by
  have keeping {α : Type} {change : WorldM α} (keeps : Keeps World.registry change) :
      Preserves (fun world => world.registry.Each property) change :=
    .of_keeps keeps each_of_registry
  cases mild with
  | say text => exact keeping (apart_registry.record _)
  | warn text => exact keeping (apart_registry.warn text)
  | linkNamespaces child parent => exact keeping (apart_registry.links.linkNamespaces child parent)
  | remove id =>
      intro world each
      rw [remove_run]
      exact each.removed lasting id
  | setField id field index value =>
      refine .reading fun world each => ?_
      cases found : world.registry.get? id with
      | none => exact each
      | some object =>
          simp only
          cases written : object.setField field index value with
          | error reason => exact each
          | ok changed =>
              exact each.update id fun _ _ => lasting.setField (each id object found) written
  | rename id name =>
      exact .bind (keeping (apart_registry.internNonempty name)) fun symbol world each =>
        each.rename lasting id symbol
  | addChild container child =>
      intro world each
      rw [addChild_run]
      cases put : world.registry.addChild container child with
      | error reason => exact each
      | ok added => exact each.addChild lasting put
  | detach child => exact fun world each => each.detach lasting child
  | _ => exact fun world each => each

end Objects

/-- Orderly changes keep all objects proper. -/
theorem Orderly.arisen {change : WorldM α} (orderly : Orderly strict world change)
    (arisen : world.registry.Each Object.Arises) :
    (change.run world).2.registry.Each Object.Arises := by
  cases orderly with
  | mild mild => exact mild.objects Object.lasting_arises world arisen
  | define layer name proper => exact arisen
  | enter fits name => exact enter_objects Object.lasting_arises fits.arises name world arisen
  | copyFields id fits =>
      exact arisen.update id fun object arises => arises.copyFieldsFrom fits.arises

/-- Orderly changes keep a world sane. -/
theorem Ordered.sane (ordered : world.Ordered strict after) (sane : world.Sane) : after.Sane := by
  induction ordered with
  | refl => exact sane
  | tail before step ih =>
      obtain ⟨_, change, orderly, rfl⟩ := step
      refine ⟨orderly.functions ih.functions, orderly.arisen ih.objects, fun name info found => ?_⟩
      exact ih.classes name info ((congrArg (·[name]?) orderly.classes).symm.trans found)

theorem sane_of_tables (world after : World) (same : tables after = tables world)
    (sane : Sane world) : Sane after := by
  obtain ⟨registry, spaces⟩ := Prod.mk.inj same
  exact ⟨spaces ▸ sane.functions, registry ▸ sane.objects, registry ▸ sane.classes⟩

private theorem preserves_sane {change : WorldM α} (keeps : Keeps tables change) :
    Preserves Sane change :=
  .of_keeps keeps sane_of_tables

/-- A class that is registered goes by its name. -/
theorem sane_registerClass (spec : ClassSpec) : Preserves Sane (World.registerClass spec) := by
  have links : Links (Preserves Sane) :=
    { Preserves.composes with
      reading := fun _ rest world => rest world world
      intern := fun name => preserves_sane (plain_tables.intern name)
      warn := fun text => preserves_sane (plain_tables.warn text)
      createLayer := fun layer world sane =>
        ⟨sane.functions.create layer, sane.objects, sane.classes⟩
      link := by
        intro child parent
        refine .reading fun world sane => ?_
        cases made : world.spaces.link child parent with
        | error reason => exact sane
        | ok spaces => exact ⟨sane.functions.link made, sane.objects, sane.classes⟩ }
  refine links.registerClass spec fun name parent world sane => ?_
  refine ⟨sane.functions, sane.objects.of_objects rfl, fun other found is => ?_⟩
  change (world.registry.classes.insert name _)[other]? = some found at is
  rw [Std.TreeMap.getElem?_insert] at is
  split at is
  next same =>
      obtain rfl := Option.some.inj is
      exact Std.compare_eq_iff_eq.mp same
  next => exact sane.classes other found is

/-- The world of a new console is sane. -/
theorem sane_new (config : Config) (serial : Nat) : (World.new config serial).Sane := by
  refine (ordered_new False config serial).sane (registered_induct ?_ sane_registerClass _)
  refine ⟨.empty, ?_, ?_⟩
  · intro id object found
    exact absurd found (by simp [World.bare, Registry.empty, Registry.get?])
  · intro name info found
    exact absurd found (by simp [World.bare, Registry.empty])

end Sane

end World

end ScriptConsole
