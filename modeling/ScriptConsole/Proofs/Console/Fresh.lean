import ScriptConsole.Proofs.Console.Classes
import ScriptConsole.Proofs.Objects.Sound

/-! # Worlds of new consoles

Where classes were registered in a new console, the classes are the same as in any other console
in which they were registered in the same order (`ScriptConsole.World.sameClasses_new`). There are
no objects, and no functions but the built-in ones, so none that objects call when they are
registered (`ScriptConsole.World.ready_new`).
-/

namespace ScriptConsole.World

variable {world after : World}

section Classes

/-- Classes that are registered in the same order keep classes the same. -/
theorem SameClasses.registered {other : World} (same : world.SameClasses other)
    (keyed : world.Keyed) (keyedOther : other.Keyed) (specs : List ClassSpec) :
    (world.registered specs).SameClasses (other.registered specs) := by
  induction specs generalizing world other with
  | nil => exact same
  | cons spec specs ih =>
      exact ih (same.registerClass keyed keyedOther spec)
        (keyed_registerClass spec world keyed)
        (keyed_registerClass spec other keyedOther)

/-- New consoles have the same classes. -/
theorem sameClasses_new (config config' : Config) (serial serial' : Nat) :
    (World.new config serial).SameClasses (.new config' serial') := by
  have start : (bare config serial).SameClasses (bare config' serial') := fun _ => .none
  have same := start.registered (keyed_bare config serial) (keyed_bare config' serial')
    builtinClasses
  have left := (ordered_new False config serial).classInfo?_eq
    (registered_induct (keyed_bare config serial) keyed_registerClass _)
  have right := (ordered_new False config' serial').classInfo?_eq
    (registered_induct (keyed_bare config' serial') keyed_registerClass _)
  unfold SameClasses
  rw [left, right]
  exact same

end Classes

section Lacks

/-- No function goes by a name. -/
def Lacks (name : String) (world : World) : Prop :=
  ∀ layer symbol target, world.spaces.function? layer symbol = some target →
    Text.fold symbol.text ≠ Text.fold name

variable {name : String}

theorem Lacks.of_functions (lacks : world.Lacks name)
    (same : after.spaces.function? = world.spaces.function?) : after.Lacks name := by
  unfold Lacks
  rw [same]
  exact lacks

/-- An object has no function of a name that no function goes by. -/
theorem Lacks.methodOf? (lacks : world.Lacks name) (lawful : world.symbols.Lawful) (id : Nat) :
    world.methodOf? id name = none := by
  unfold World.methodOf?
  cases world.registry.get? id with
  | none => rfl
  | some object =>
      rw [Option.bind_some]
      cases known : world.symbols.find? name with
      | none => rfl
      | some symbol =>
          rw [Option.bind_some]
          cases found : world.spaces.resolve? object.layer symbol false with
          | none => rfl
          | some entry =>
              obtain ⟨_, _, _, _, defined, _⟩ := Namespaces.findIn?_eq_some_iff.mp found
              exact absurd (lawful.fold_text known) (lacks entry.layer symbol entry.target defined)

/-- Built-in functions go by their names. -/
theorem Lacks.registerBuiltin (lacks : world.Lacks name) (lawful : world.symbols.Lawful)
    {spec : BuiltinSpec} (other : Text.fold spec.name ≠ Text.fold name) :
    ((World.registerBuiltin spec).run world).2.Lacks name := by
  have rest (space : Option Symbol) (isMethod : Bool) {world : World} (lacks : world.Lacks name)
      (lawful : world.symbols.Lawful) : Lacks name ((do
        World.define ⟨space, none⟩ (← World.intern spec.name)
          (.native isMethod spec.arity (.builtin spec.builtin)) : WorldM Unit).run world).2 := by
    intro layer symbol target found
    have text := (lawful.intern spec.name).fold_text (world.symbols.find?_intern spec.name)
    rcases Namespaces.function?_define_cases found with ⟨same, _⟩ | before
    · rw [← same]
      exact fun equal => other (text.symm.trans equal)
    · rw [Namespaces.function?_create] at before
      exact lacks layer symbol target before
  unfold World.registerBuiltin registerNative
  rw [bind_run]
  cases spec.className with
  | none => exact rest none _ lacks lawful
  | some space => exact rest (some _) _ (lacks.of_functions rfl) (lawful.intern space)

/-- In a new console no function goes by a name that is not one of the built-in functions. -/
theorem lacks_new (config : Config) (serial : Nat)
    (other : ∀ spec ∈ builtinFunctions ++ builtinMethods, Text.fold spec.name ≠ Text.fold name) :
    (World.new config serial).Lacks name := by
  have start : (bare config serial).Lacks name ∧ (bare config serial).symbols.Lawful := by
    refine ⟨fun layer symbol target found => ?_, SymbolTable.lawful_empty serial⟩
    have none : (Namespaces.empty : Namespaces Callable).Each fun _ => False := .empty
    exact (none layer symbol target found).elim
  have each (spec : ClassSpec) : Preserves (fun world => world.Lacks name ∧ world.symbols.Lawful)
      (registerClass spec) := fun world holds =>
    ⟨holds.1.of_functions (registerClass_functions spec world),
      ((Basic.registerClass spec).grows world).lawful holds.2⟩
  have registered := registered_induct start each builtinClasses
  rw [new_eq]
  generalize (bare config serial).registered builtinClasses = world at registered ⊢
  generalize builtinFunctions ++ builtinMethods = specs at other ⊢
  induction specs generalizing world with
  | nil => exact registered.1
  | cons spec specs ih =>
      obtain ⟨first, others⟩ := List.forall_mem_cons.mp other
      exact ih _ ⟨registered.1.registerBuiltin registered.2 first,
        (ordered_registerBuiltin False spec world).grows.lawful registered.2⟩ others

end Lacks

section Ready

/-- A world in which no object calls a function when it is registered. -/
structure Ready (world : World) : Prop extends world.Keyed where
  lacks : world.Lacks "onAdd"

theorem Ready.later (ready : world.Ready) (grows : world.symbols.Grows after.symbols)
    (classes : after.classes = world.classes) (functions : after.functions = world.functions) :
    after.Ready :=
  ⟨ready.toKeyed.later grows classes, ready.lacks.of_functions functions⟩

theorem Ready.registerClass (spec : ClassSpec) : Preserves Ready (registerClass spec) :=
  fun world ready => ⟨keyed_registerClass spec world ready.toKeyed,
    ready.lacks.of_functions (registerClass_functions spec world)⟩

/-- No object of a new console calls a function when it is registered, for no built-in function
goes by the name. -/
theorem ready_new (config : Config) (serial : Nat) (specs : List ClassSpec) :
    ((World.new config serial).registered specs).Ready := by
  have other : ∀ spec ∈ builtinFunctions ++ builtinMethods,
      Text.fold spec.name ≠ Text.fold "onAdd" := by
    decide
  have keyed : (World.new config serial).Keyed :=
    (ordered_new False config serial).keyed
      (registered_induct (keyed_bare config serial) keyed_registerClass _)
  exact registered_induct ⟨keyed, lacks_new config serial other⟩ Ready.registerClass specs

/-- In every world that comes about the names of classes are known. -/
theorem Reachable.keyed (reachable : world.Reachable) : world.Keyed := by
  obtain ⟨config, serial, evolves⟩ := reachable
  induction evolves with
  | refl => exact (ready_new config serial []).toKeyed
  | tail _ step ih =>
      obtain ⟨_, change, basic, rfl⟩ := step
      exact basic.keyed _ ih

/-- What shows neither the log nor names nor namespaces, and what registering classes keeps, is in
a new console as it is before anything is registered. -/
theorem Apart.new {β : Type} {view : World → β} (apart : Apart view)
    (classes : ∀ spec, Keeps view (registerClass spec)) (config : Config) (serial : Nat) :
    view (.new config serial) = view (bare config serial) := by
  have builtin (spec : BuiltinSpec) : Keeps view (registerBuiltin spec) := by
    have rest (space : Option Symbol) : Keeps view (do
        World.define ⟨space, none⟩ (← World.intern spec.name)
          (.native spec.className.isSome spec.arity (.builtin spec.builtin)) : WorldM Unit) :=
      .bind (apart.intern _) fun _ world => apart.spaces world _
    refine .bind ?_ rest
    cases spec.className with
    | none => exact .pure none
    | some space => exact .bind (apart.intern space) fun _ => .pure _
  refine @new_induct (fun world => view world = view (bare config serial)) config serial rfl ?_ ?_
  · exact fun spec _ world same => (classes spec world).trans same
  · exact fun spec world same => (builtin spec world).trans same

/-- No name leads to an object of a new console. -/
theorem findName?_new (config : Config) (serial : Nat) (specs : List ClassSpec) (name : Symbol) :
    ((World.new config serial).registered specs).registry.findName? name = none := by
  have register (spec : ClassSpec) : Keeps contents (registerClass spec) :=
    apart_contents.links.registerClass spec fun _ _ _ => rfl
  have same : contents ((World.new config serial).registered specs) =
      contents (bare config serial) := by
    refine @registered_induct _ (fun world => contents world = contents (bare config serial))
      (apart_contents.new register config serial) ?_ specs
    exact fun spec world same => (register spec world).trans same
  have names := (Prod.mk.inj same).2
  unfold Registry.findName?
  rw [names]
  exact Std.TreeMap.getElem?_emptyc

end Ready

end ScriptConsole.World
