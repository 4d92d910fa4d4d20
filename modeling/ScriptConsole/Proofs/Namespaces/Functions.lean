import ScriptConsole.Proofs.Namespaces.Search

/-! # The functions of a namespace table

A property of all functions of a table is kept by all changes that define none, and whatever a
search finds has it (`ScriptConsole.Namespaces.Each`).
-/

namespace ScriptConsole.Namespaces

variable {ε : Type} {property : ε → Prop} {spaces : Namespaces ε}

section Views

/-- Creating a layer defines no function in it. -/
@[simp] theorem function?_create (spaces : Namespaces ε) (layer : Layer) :
    (spaces.create layer).function? = spaces.function? := by
  funext other name
  unfold function?
  rw [content_create]
  split
  next fresh =>
    obtain ⟨rfl, absent⟩ := fresh
    have nothing : spaces.content[layer]? = none := by
      rw [contains_eq] at absent
      exact Option.isSome_eq_false_iff.mp absent |> Option.isNone_iff_eq_none.mp
    rw [nothing, Option.bind_some, Option.bind_none, LayerContent.empty,
      Std.TreeMap.getElem?_emptyc]
  next => rfl

/-- What is changed in a layer besides functions leaves them. -/
theorem function?_update (spaces : Namespaces ε) (layer : Layer)
    {change : LayerContent ε → LayerContent ε}
    (kept : ∀ content, (change content).functions = content.functions) :
    (spaces.update layer change).function? = spaces.function? := by
  funext other name
  unfold function?
  rw [content_update]
  split
  next =>
    cases spaces.content[other]? with
    | none => rfl
    | some content => rw [Option.map_some, Option.bind_some, Option.bind_some, kept]
  next => rfl

theorem function?_link {linked : Namespaces ε} {child parent : Layer}
    (made : spaces.link child parent = .ok linked) : linked.function? = spaces.function? := by
  obtain ⟨_, _, ⟨_, rfl⟩ | ⟨_, _, rfl⟩ | ⟨_, _, _, rfl⟩⟩ := link_cases made
  · rfl
  · exact spaces.function?_update child fun _ => rfl
  · exact spaces.function?_update child fun _ => rfl

theorem function?_foldl_unlink (layers : List Layer) (spaces : Namespaces ε) :
    (layers.foldl Namespaces.unlink spaces).function? = spaces.function? := by
  induction layers generalizing spaces with
  | nil => rfl
  | cons layer layers ih =>
      refine (ih (spaces.unlink layer)).trans (spaces.function?_update layer fun content => ?_)
      split <;> rfl

theorem function?_of_content {other : Namespaces ε} (same : other.content = spaces.content) :
    other.function? = spaces.function? := by
  unfold function?
  rw [same]

/-- Where a function is defined, all others are as before. -/
theorem function?_define_cases {layer other : Layer} {name symbol : Symbol} {target found : ε}
    (there : (spaces.define layer name target).function? other symbol = some found) :
    name = symbol ∧ target = found ∨ spaces.function? other symbol = some found := by
  unfold define function? at there
  rw [content_update] at there
  split at there
  · obtain ⟨changed, isChanged, there⟩ := Option.bind_eq_some_iff.mp there
    obtain ⟨content, before, rfl⟩ := Option.map_eq_some_iff.mp isChanged
    simp only [Std.TreeMap.getElem?_insert, Std.compare_eq_iff_eq] at there
    split at there
    next same => exact .inl ⟨same, Option.some.inj there⟩
    next => exact .inr (Option.bind_eq_some_iff.mpr ⟨content, before, there⟩)
  · exact .inr there

end Views

/-- All functions of all layers have a property. -/
def Each (property : ε → Prop) (spaces : Namespaces ε) : Prop :=
  ∀ layer name target, spaces.function? layer name = some target → property target

namespace Each

theorem empty : Each property .empty := by
  intro layer name target found
  unfold function? at found
  rw [content_empty] at found
  split at found
  · rw [Option.bind_some, LayerContent.empty, Std.TreeMap.getElem?_emptyc] at found
    contradiction
  · contradiction

theorem of_functions {other : Namespaces ε} (each : Each property spaces)
    (same : other.function? = spaces.function?) : Each property other := by
  unfold Each
  rw [same]
  exact each

theorem create (each : Each property spaces) (layer : Layer) :
    Each property (spaces.create layer) :=
  each.of_functions (spaces.function?_create layer)

theorem define (each : Each property spaces) (layer : Layer) (name : Symbol) {target : ε}
    (proper : property target) : Each property (spaces.define layer name target) := by
  intro other symbol found there
  rcases function?_define_cases there with ⟨_, rfl⟩ | before
  · exact proper
  · exact each other symbol found before

theorem link {linked : Namespaces ε} {child parent : Layer} (each : Each property spaces)
    (made : spaces.link child parent = .ok linked) : Each property linked :=
  each.of_functions (function?_link made)

theorem findIn? (each : Each property spaces) {name : Symbol} {layers : List Layer}
    {entry : Entry ε} (found : spaces.findIn? name layers = some entry) :
    property entry.target := by
  obtain ⟨_, _, _, _, defined, _⟩ := findIn?_eq_some_iff.mp found
  exact each entry.layer name entry.target defined

theorem resolve? (each : Each property spaces) {base : Layer} {name : Symbol} {withGlobal : Bool}
    {entry : Entry ε} (found : spaces.resolve? base name withGlobal = some entry) :
    property entry.target :=
  each.findIn? found

theorem resolveAfter? (each : Each property spaces) {layer : Layer} {name : Symbol}
    {entry : Entry ε} (found : spaces.resolveAfter? layer name = some entry) :
    property entry.target := by
  unfold Namespaces.resolveAfter? at found
  simp only at found
  split at found
  · exact each.findIn? found
  · contradiction

end Each

end ScriptConsole.Namespaces
