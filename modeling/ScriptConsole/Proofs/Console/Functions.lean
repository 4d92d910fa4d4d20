import ScriptConsole.Proofs.Console.Stacking
import ScriptConsole.Proofs.Namespaces.Functions

/-! # The functions of a world

Nothing but a definition brings in a function: all other changes leave the functions of all
layers as they are (`ScriptConsole.World.Gentle.functions`). So where there are no functions of
the host, none comes about unless it is defined (`ScriptConsole.World.HostedIf`).
-/

namespace ScriptConsole

/-- Code that the host brought in. -/
def NativeCode.IsHosted : NativeCode → Prop
  | .host _ => True
  | .builtin _ => False

/-- A function of the host. -/
def Callable.IsHosted : Callable → Prop
  | .native _ _ code => code.IsHosted
  | .script _ _ => False

namespace World

variable {α : Type} {world after : World}

section Functions

/-- The functions of a world. -/
def functions (world : World) : Layer → Symbol → Option Callable :=
  world.spaces.function?

theorem plain_functions : Plain functions :=
  ⟨fun _ _ => rfl, fun _ _ => rfl⟩

/-- Interning, creating and linking namespaces bring in no function. -/
private theorem links_functions : Links (Keeps functions) :=
  { Keeps.composes with
    reading := fun _ rest => .reading rest
    intern := plain_functions.intern
    warn := plain_functions.warn
    createLayer := fun layer world => world.spaces.function?_create layer
    link := by
      intro child parent world
      cases made : world.spaces.link child parent with
      | error reason => rw [link_run_error made]
      | ok spaces =>
          rw [link_run_ok made]
          exact Namespaces.function?_link made }

/-- Registering an object brings in no function. -/
theorem enter_functions (draft : Draft) (name : String) : Keeps functions (enter draft name) :=
  links_functions.enter draft name (fun _ _ => rfl) fun _ _ _ _ => rfl

/-- Registering a class brings in no function. -/
theorem registerClass_functions (spec : ClassSpec) : Keeps functions (registerClass spec) :=
  links_functions.registerClass spec fun _ _ _ => rfl

/-- A mild change brings in no function. -/
theorem Mild.functions {change : WorldM α} (mild : Mild change) : Keeps functions change := by
  cases mild with
  | say text => exact plain_functions.record _
  | warn text => exact plain_functions.warn text
  | linkNamespaces child parent => exact links_functions.linkNamespaces child parent
  | activate package =>
      exact fun world => Namespaces.function?_of_content (world.spaces.content_activate package)
  | deactivate package =>
      exact fun world => Namespaces.function?_of_content (world.spaces.content_deactivate package)
  | remove id =>
      intro world
      rw [remove_run]
      exact world.spaces.function?_foldl_unlink _
  | setField id field index value => exact .setField (fun _ _ _ => rfl) id field index value
  | rename id name =>
      exact .bind (plain_functions.internNonempty name) fun symbol => fun world => rfl
  | addChild container child =>
      refine .reading fun world => ?_
      split
      · exact .bind (fun world => rfl) fun _ => .pure _
      · exact .pure _
  | _ => exact fun world => rfl

theorem Gentle.functions {change : WorldM α} (gentle : Gentle change) : Keeps functions change := by
  induction gentle with
  | mild mild => exact mild.functions
  | pure result => exact .pure result
  | bind start rest ihStart ihRest => exact .bind ihStart ihRest
  | reading same rest ih => exact .reading ih

end Functions

section Lookup

variable {property : Callable → Prop} {entry : Entry Callable}

/-- A function that is found has what all functions have. -/
theorem functionIn?_each (each : world.spaces.Each property) {base : Layer} {name : Symbol}
    (found : world.functionIn? base name = some entry) : property entry.target :=
  each.resolve? found

theorem methodOf?_each (each : world.spaces.Each property) {id : Nat} {name : String}
    (found : world.methodOf? id name = some entry) : property entry.target := by
  obtain ⟨object, _, found⟩ := Option.bind_eq_some_iff.mp found
  obtain ⟨symbol, _, found⟩ := Option.bind_eq_some_iff.mp found
  exact each.resolve? found

/-- A function that is found by its name, in a namespace or globally, is one of the functions of the
world. -/
theorem functionNamed?_each (each : world.spaces.Each property) {space : Option String}
    {name : String} (found : world.functionNamed? space name = some entry) :
    property entry.target := by
  have within (base : Layer)
      (found : ((world.symbols.find? name).bind fun name => world.functionIn? base name) =
        some entry) : property entry.target := by
    obtain ⟨symbol, _, found⟩ := Option.bind_eq_some_iff.mp found
    exact functionIn?_each each found
  unfold World.functionNamed? at found
  cases space with
  | none => exact within .global found
  | some space =>
      obtain ⟨base, _, found⟩ := Option.bind_eq_some_iff.mp found
      exact within base found

end Lookup

section Each

variable {property : Callable → Prop}

/-- What brings in no function keeps what all functions have. -/
theorem preserves_each {change : WorldM α} (keeps : Keeps functions change) :
    Preserves (fun world => world.spaces.Each property) change :=
  .of_keeps keeps fun _ _ same each => each.of_functions same

theorem define_each (layer : Layer) (name : Symbol) {target : Callable} (proper : property target) :
    Preserves (fun world => world.spaces.Each property) (World.define layer name target) :=
  fun _ each => (each.create layer).define layer name proper

theorem registerNative_each (space : Option String) (name : String) {isMethod : Bool}
    {arity : Arity} {code : NativeCode} (proper : property (.native isMethod arity code)) :
    Preserves (fun world => world.spaces.Each property)
      (registerNative space name isMethod arity code) :=
  Preserves.composes.registerNative (fun name => preserves_each (plain_functions.intern name))
    space name fun layer symbol => define_each layer symbol proper

end Each

/-- Only if a proposition holds, there may be functions of the host in a world. -/
def HostedIf (hosted : Prop) (world : World) : Prop :=
  world.spaces.Each fun target => target.IsHosted → hosted

theorem hostedIf_true (world : World) : world.HostedIf True :=
  fun _ _ _ _ _ => trivial

end World

end ScriptConsole
