import ScriptConsole.Proofs.Console.Functions
import ScriptConsole.Proofs.Namespaces.Packages

/-! # Definitions over histories

Whatever happens to a world, what a layer holds under a name is what was defined there last
(`ScriptConsole.World.Makes.functions`). No function is ever taken away.
-/

namespace ScriptConsole

/-- A function that was put into a layer under a name. -/
structure Definition where
  layer : Layer
  name : Symbol
  target : Callable

/-- What the newest of some definitions, with the newest first, put into a layer under a name. -/
def lastDefined? (made : List Definition) (layer : Layer) (name : Symbol) : Option Callable :=
  (made.find? fun definition => definition.layer = layer ∧ definition.name = name).map
    Definition.target

theorem lastDefined?_cons (definition : Definition) (made : List Definition) (layer : Layer)
    (name : Symbol) :
    lastDefined? (definition :: made) layer name =
      if definition.layer = layer ∧ definition.name = name then some definition.target
      else lastDefined? made layer name := by
  unfold lastDefined?
  rw [List.find?_cons]
  by_cases same : definition.layer = layer ∧ definition.name = name
  · simp only [same, and_self, decide_true, Option.map_some, ↓reduceIte]
  · simp only [same, decide_false, ↓reduceIte]

/-- What was defined at all was defined last by one of the definitions. -/
theorem exists_lastDefined? {definition : Definition} {made : List Definition}
    (member : definition ∈ made) :
    ∃ target, lastDefined? made definition.layer definition.name = some target := by
  rw [← Option.isSome_iff_exists]
  unfold lastDefined?
  rw [Option.isSome_map, List.find?_isSome]
  exact ⟨definition, member, by simp only [and_self, decide_true]⟩

namespace World

/-- The basic change that puts a function into a layer. -/
inductive Defining : {α : Type} → WorldM α → Definition → Prop where
  | define (layer : Layer) (name : Symbol) (target : Callable) :
      Defining (World.define layer name target) ⟨layer, name, target⟩

/-- A world becomes another one by basic changes, which make the given definitions, the newest
first. -/
inductive Makes (world : World) : List Definition → World → Prop where
  | refl : Makes world [] world
  | defining {after : World} {made : List Definition} {α : Type} {change : WorldM α}
      {definition : Definition} (earlier : Makes world made after)
      (defining : Defining change definition) :
      Makes world (definition :: made) (change.run after).2
  | other {after : World} {made : List Definition} {α : Type} {change : WorldM α}
      (earlier : Makes world made after) (basic : Basic change)
      (other : ∀ definition, ¬ Defining change definition) : Makes world made (change.run after).2

/-- Whatever happens to a world makes some definitions. -/
theorem Evolves.makes {world after : World} (evolves : world.Evolves after) :
    ∃ made, Makes world made after := by
  induction evolves with
  | refl => exact ⟨[], .refl⟩
  | tail _ step ih =>
      obtain ⟨made, earlier⟩ := ih
      obtain ⟨_, change, basic, rfl⟩ := step
      by_cases defining : ∃ definition, Defining change definition
      · obtain ⟨definition, defining⟩ := defining
        exact ⟨definition :: made, earlier.defining defining⟩
      · exact ⟨made, earlier.other basic fun definition defined => defining ⟨definition, defined⟩⟩

/-- A basic change that puts no function into a layer brings in none. -/
theorem Basic.functions {α : Type} {change : WorldM α} (basic : Basic change)
    (other : ∀ definition, ¬ Defining change definition) : Keeps functions change := by
  rcases basic.mild_or_major with mild | major
  · exact mild.functions
  · cases major with
    | define layer name target => exact (other _ (.define layer name target)).elim
    | registerClass spec => exact registerClass_functions spec
    | enter draft name => exact enter_functions draft name
    | copyFields id source => exact fun world => rfl

/-- A change that brings in no function puts none into a layer. -/
theorem not_defining {α : Type} {change : WorldM α} (keeps : Keeps functions change)
    (definition : Definition) : ¬ Defining change definition := by
  intro defining
  cases defining with
  | define layer name target =>
      have same := congrFun (congrFun (keeps (.bare {} 0)) layer) name
      have none : (Namespaces.empty : Namespaces Callable).Each fun _ => False := .empty
      refine none layer name target (same.symm.trans ?_)
      refine (Namespaces.function?_define _ layer layer name name target).trans ?_
      rw [if_pos ⟨rfl, rfl⟩]

namespace Makes

variable {world middle after : World} {made more : List Definition}

theorem trans (first : Makes world made middle) (second : Makes middle more after) :
    Makes world (more ++ made) after := by
  induction second with
  | refl => exact first
  | defining _ defining ih => exact ih.defining defining
  | other _ basic other ih => exact ih.other basic other

/-- A layer holds what was defined in it last, and else what it held before. -/
theorem functions (makes : Makes world made after) (layer : Layer) (name : Symbol) :
    after.functions layer name =
      (lastDefined? made layer name).or (world.functions layer name) := by
  induction makes with
  | refl => rfl
  | defining _ defining ih =>
      cases defining with
      | define place symbol target =>
          rw [lastDefined?_cons]
          refine (Namespaces.function?_define _ place layer symbol name target).trans ?_
          split
          · rfl
          · exact ih
  | other _ basic other ih => rw [basic.functions other, ih]

end Makes

end World

end ScriptConsole
