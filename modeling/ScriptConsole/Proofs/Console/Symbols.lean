import ScriptConsole.Proofs.Console.Stacking
import ScriptConsole.Proofs.Parse.Compiled

/-! # Symbols are not lost

Whatever is done to a world, its table of symbols at most grows
(`ScriptConsole.World.Basic.grows`).
-/

namespace ScriptConsole.World

variable {α : Type}

/-- The symbols of a world are those of a table, and possibly more. -/
def Extends (symbols : SymbolTable) (world : World) : Prop :=
  symbols.Grows world.symbols

variable {symbols : SymbolTable}

section Parts

theorem extends_intern (name : String) : Preserves (Extends symbols) (World.intern name) :=
  fun world grows => grows.trans (world.symbols.grows_intern name)

theorem extends_warn (text : String) : Preserves (Extends symbols) (World.warn text) := by
  refine .reading fun world grows => ?_
  split
  · unfold World.record
    rw [StateT.run_modify]
    cases world.sink <;> exact grows
  · exact grows

/-- Interning, creating and linking namespaces keep all symbols that were known. -/
theorem links_extends : Links (Preserves (Extends symbols)) :=
  { Preserves.composes with
    reading := fun _ rest world => rest world world
    intern := extends_intern
    warn := extends_warn
    createLayer := fun _ _ grows => grows
    link := by
      intro child parent
      refine .reading fun world grows => ?_
      cases world.spaces.link child parent with
      | error reason => exact grows
      | ok spaces => exact grows }

theorem extends_internNonempty (name : String) :
    Preserves (Extends symbols) (World.internNonempty name) :=
  links_extends.internNonempty extends_intern name

end Parts

/-- An object is entered after its name is interned. -/
theorem grows_enter (draft : Draft) (name : String) (world : World) :
    ((internNonempty name).run world).2.symbols.Grows
      ((World.enter draft name).run world).2.symbols :=
  have links : Links (Preserves (Extends ((internNonempty name).run world).2.symbols)) :=
    links_extends
  links.enter_of (fun change => Extends _ (change.run world).2)
    (fun _ rest => rest _ _ (.refl ((internNonempty name).run world).2.symbols))
    (fun _ _ rest _ grows => rest _ _ grows) fun _ _ _ _ grows => grows

private theorem extends_enter (draft : Draft) (name : String) :
    Preserves (Extends symbols) (World.enter draft name) :=
  fun world grows => (extends_internNonempty name world grows).trans (grows_enter draft name world)

/-- A class is registered after its name is interned. -/
theorem grows_registerClass (spec : ClassSpec) (world : World) :
    (world.symbols.intern spec.name).2.Grows
      ((World.registerClass spec).run world).2.symbols :=
  have links : Links (Preserves (Extends (world.symbols.intern spec.name).2)) := links_extends
  links.registerClass_of (fun change => Extends _ (change.run world).2)
    (fun _ rest => rest _ _ (.refl (world.symbols.intern spec.name).2)) fun _ _ _ grows => grows

private theorem extends_registerClass (spec : ClassSpec) :
    Preserves (Extends symbols) (World.registerClass spec) :=
  fun world grows =>
    (grows.trans (world.symbols.grows_intern spec.name)).trans (grows_registerClass spec world)

/-- No basic change loses a symbol. -/
theorem Basic.extends {change : WorldM α} (basic : Basic change) :
    Preserves (Extends symbols) change := by
  cases basic with
  | say text =>
      intro world grows
      unfold World.say World.record
      rw [StateT.run_modify]
      cases world.sink <;> exact grows
  | warn text => exact extends_warn text
  | intern name => exact extends_intern name
  | compile filename text =>
      exact fun world grows => grows.trans (grows_compileSource _ world.symbols)
  | linkNamespaces child parent => exact links_extends.linkNamespaces child parent
  | registerClass spec => exact extends_registerClass spec
  | enter draft name => exact extends_enter draft name
  | remove id =>
      intro world grows
      rw [remove_run]
      exact grows
  | setField id field index value =>
      intro world grows
      rcases setField_cases world id field index value with ⟨reason, ran⟩ | ⟨_, changed, _, _, ran⟩
      · rw [ran]
        exact grows
      · rw [ran]
        exact grows
  | rename id name =>
      exact .bind (extends_internNonempty name) fun symbol => .reading fun world grows => grows
  | addChild container child =>
      intro world grows
      rw [addChild_run]
      cases world.registry.addChild container child with
      | ok added => exact grows
      | error reason => exact grows
  | _ => exact fun world grows => grows

/-- No basic change loses a symbol. -/
theorem Basic.grows {change : WorldM α} (basic : Basic change) (world : World) :
    world.symbols.Grows (change.run world).2.symbols :=
  basic.extends world (.refl world.symbols)

/-- Whatever happens to a world, no symbol is lost. -/
theorem Evolves.grows {world after : World} (evolves : world.Evolves after) :
    world.symbols.Grows after.symbols := by
  induction evolves with
  | refl => exact .refl world.symbols
  | tail _ step ih =>
      obtain ⟨_, change, basic, rfl⟩ := step
      exact ih.trans (basic.grows _)

end ScriptConsole.World
