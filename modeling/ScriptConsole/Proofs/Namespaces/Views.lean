import ScriptConsole.Namespace.Resolve

/-! # What changes of a namespace table change

A table is seen through which layers it has, their parents, how often the links to them
are held, and the active packages. Each change touches few of these.
-/

namespace ScriptConsole.Namespaces

variable {ε : Type}

/-- The new table has the global namespace alone. -/
theorem content_empty (layer : Layer) :
    (.empty : Namespaces ε).content[layer]? =
      if Layer.global = layer then some .empty else none := by
  have blank : (Std.TreeMap.empty : Std.TreeMap Layer (LayerContent ε))[layer]? = none :=
    Std.TreeMap.getElem?_emptyc
  unfold Namespaces.empty
  rw [Std.TreeMap.getElem?_insert, blank]
  simp only [Std.compare_eq_iff_eq]

theorem parent?_empty (layer : Layer) : (.empty : Namespaces ε).parent? layer = none := by
  unfold parent?
  rw [content_empty]
  split <;> rfl

theorem holds_empty (layer : Layer) : (.empty : Namespaces ε).holds layer = 0 := by
  unfold holds
  rw [content_empty]
  split <;> rfl

/-- Updating a layer changes that layer alone, and only if it is in the table. -/
theorem content_update (spaces : Namespaces ε) (layer other : Layer)
    (change : LayerContent ε → LayerContent ε) :
    (spaces.update layer change).content[other]? =
      if layer = other then (spaces.content[other]?).map change else spaces.content[other]? := by
  unfold update
  rw [Std.TreeMap.getElem?_modify]
  simp only [Std.compare_eq_iff_eq]
  by_cases same : layer = other
  · subst same
    rfl
  · simp only [same, ↓reduceIte]

theorem content_create (spaces : Namespaces ε) (layer other : Layer) :
    (spaces.create layer).content[other]? =
      if layer = other ∧ spaces.contains layer = false then some .empty
      else spaces.content[other]? := by
  unfold create contains
  rw [Std.TreeMap.getElem?_insertIfNew]
  simp only [Std.compare_eq_iff_eq, ← Std.TreeMap.contains_iff_mem, Bool.not_eq_true]

@[simp] theorem contains_update (spaces : Namespaces ε) (layer other : Layer)
    (change : LayerContent ε → LayerContent ε) :
    (spaces.update layer change).contains other = spaces.contains other := by
  unfold contains update
  exact Std.TreeMap.contains_modify

@[simp] theorem size_update (spaces : Namespaces ε) (layer : Layer)
    (change : LayerContent ε → LayerContent ε) :
    (spaces.update layer change).content.size = spaces.content.size := by
  unfold update
  exact Std.TreeMap.size_modify

theorem contains_eq (spaces : Namespaces ε) (layer : Layer) :
    spaces.contains layer = (spaces.content[layer]?).isSome := by
  unfold contains
  exact Std.TreeMap.contains_eq_isSome_getElem?

/-- Only layers that exist have a parent. -/
theorem contains_of_parent? {spaces : Namespaces ε} {layer parent : Layer}
    (above : spaces.parent? layer = some parent) : spaces.contains layer = true := by
  unfold parent? at above
  rw [contains_eq]
  cases content : spaces.content[layer]? with
  | none => simp [content] at above
  | some held => rfl

/-- A layer that is created has no parent, and one that was there keeps its own. -/
@[simp] theorem parent?_create (spaces : Namespaces ε) (layer other : Layer) :
    (spaces.create layer).parent? other = spaces.parent? other := by
  unfold parent?
  rw [content_create]
  split
  next new =>
    obtain ⟨rfl, absent⟩ := new
    rw [contains_eq, Option.isSome_eq_false_iff, Option.isNone_iff_eq_none] at absent
    rw [absent]
    rfl
  next => rfl

/-- Creating a layer holds no link. -/
@[simp] theorem holds_create (spaces : Namespaces ε) (layer other : Layer) :
    (spaces.create layer).holds other = spaces.holds other := by
  unfold holds
  rw [content_create]
  split
  next new =>
    obtain ⟨rfl, absent⟩ := new
    rw [contains_eq, Option.isSome_eq_false_iff, Option.isNone_iff_eq_none] at absent
    rw [absent]
    rfl
  next => rfl

/-- A change of a layer that leaves its parent leaves all parents. -/
theorem parent?_update_of_parent {change : LayerContent ε → LayerContent ε}
    (kept : ∀ content, (change content).parent = content.parent) (spaces : Namespaces ε)
    (layer other : Layer) : (spaces.update layer change).parent? other = spaces.parent? other := by
  unfold parent?
  rw [content_update]
  split
  next =>
    cases spaces.content[other]? with
    | none => rfl
    | some content => exact kept content
  next => rfl

@[simp] theorem parent?_define (spaces : Namespaces ε) (layer other : Layer) (name : Symbol)
    (target : ε) : (spaces.define layer name target).parent? other = spaces.parent? other := by
  unfold define
  apply parent?_update_of_parent
  intro content
  rfl

@[simp] theorem holds_define (spaces : Namespaces ε) (layer other : Layer) (name : Symbol)
    (target : ε) : (spaces.define layer name target).holds other = spaces.holds other := by
  unfold holds define
  rw [content_update]
  split
  next => rw [Option.map_map]; rfl
  next => rfl

@[simp] theorem parent?_hold (spaces : Namespaces ε) (child other : Layer) :
    (spaces.hold child).parent? other = spaces.parent? other := by
  unfold hold
  apply parent?_update_of_parent
  intro content
  rfl

/-- A change of a layer that exists replaces what the layer holds. -/
theorem content_update_of_contains {spaces : Namespaces ε} {layer : Layer}
    (present : spaces.contains layer = true) :
    ∃ content, spaces.content[layer]? = some content ∧
      ∀ (change : LayerContent ε → LayerContent ε) (other : Layer),
        (spaces.update layer change).content[other]? =
          if layer = other then some (change content) else spaces.content[other]? := by
  rw [contains_eq] at present
  obtain ⟨content, found⟩ := Option.isSome_iff_exists.mp present
  refine ⟨content, found, ?_⟩
  intro change other
  rw [content_update]
  by_cases same : layer = other
  · subst same
    simp only [↓reduceIte, found, Option.map_some]
  · simp only [same, ↓reduceIte]

/-- A hold counts for the link of one layer, which has to be in the table. -/
theorem holds_hold {spaces : Namespaces ε} {child : Layer} (present : spaces.contains child = true)
    (other : Layer) :
    (spaces.hold child).holds other =
      if child = other then spaces.holds other + 1 else spaces.holds other := by
  obtain ⟨content, found, updated⟩ := content_update_of_contains present
  unfold holds hold
  rw [updated]
  by_cases same : child = other
  · subst same
    simp only [↓reduceIte, found, Option.map_some, Option.getD_some]
  · simp only [same, ↓reduceIte]

theorem parent?_attach {spaces : Namespaces ε} {child : Layer}
    (present : spaces.contains child = true) (parent other : Layer) :
    (spaces.attach child parent).parent? other =
      if child = other then some parent else spaces.parent? other := by
  obtain ⟨content, _, updated⟩ := content_update_of_contains present
  unfold parent? attach
  rw [updated]
  by_cases same : child = other
  · simp only [same, ↓reduceIte, Option.bind_some]
  · simp only [same, ↓reduceIte]

theorem holds_attach {spaces : Namespaces ε} {child : Layer}
    (present : spaces.contains child = true) (parent other : Layer) :
    (spaces.attach child parent).holds other =
      if child = other then 1 else spaces.holds other := by
  obtain ⟨content, _, updated⟩ := content_update_of_contains present
  unfold holds attach
  rw [updated]
  by_cases same : child = other
  · simp only [same, ↓reduceIte, Option.map_some, Option.getD_some]
  · simp only [same, ↓reduceIte]

/-- Giving up the last hold of a link removes it. -/
theorem parent?_unlink (spaces : Namespaces ε) (child other : Layer) :
    (spaces.unlink child).parent? other =
      if child = other ∧ spaces.holds child = 1 then none else spaces.parent? other := by
  unfold parent? holds unlink
  rw [content_update]
  by_cases same : child = other
  · subst same
    simp only [↓reduceIte, true_and]
    cases spaces.content[child]? with
    | none => rfl
    | some content =>
        by_cases last : content.holds = 1
        · simp [last]
        · simp [last]
  · simp only [same, false_and, ↓reduceIte]

/-- Giving up a hold counts for the link of one layer. Where there is none it counts for nothing. -/
theorem holds_unlink (spaces : Namespaces ε) (child other : Layer) :
    (spaces.unlink child).holds other =
      if child = other then spaces.holds other - 1 else spaces.holds other := by
  unfold holds unlink
  rw [content_update]
  split
  next same =>
    subst same
    cases spaces.content[child]? with
    | none => rfl
    | some content =>
        by_cases last : content.holds = 1
        · simp [last]
        · simp [last]
  next => rfl

@[simp] theorem content_activate (spaces : Namespaces ε) (package : Symbol) :
    (spaces.activate package).2.content = spaces.content := by
  unfold activate
  split
  · rfl
  · split <;> rfl

@[simp] theorem content_deactivate (spaces : Namespaces ε) (package : Symbol) :
    (spaces.deactivate package).2.content = spaces.content := by
  unfold deactivate
  split <;> rfl

/-- What a link that is made does: nothing below the global namespace, one hold more of
a link that is there, or a new link to what does not lead back. -/
theorem link_cases {spaces linked : Namespaces ε} {child parent : Layer}
    (made : spaces.link child parent = .ok linked) :
    child ≠ .global ∧ child ≠ parent ∧
      (parent = .global ∧ linked = spaces ∨
        parent ≠ .global ∧ spaces.parent? child = some parent ∧ linked = spaces.hold child ∨
        parent ≠ .global ∧ spaces.parent? child = none ∧ child ∉ spaces.chain parent ∧
          linked = spaces.attach child parent) := by
  unfold link at made
  split at made
  · contradiction
  next different =>
    simp only [Bool.or_eq_true, decide_eq_true_eq, not_or] at different
    refine ⟨different.1, different.2, ?_⟩
    split at made
    next top =>
      exact Or.inl ⟨top, (Except.ok.inj made).symm⟩
    next below =>
      split at made
      next current above =>
        split at made
        next same =>
          subst same
          exact Or.inr (Or.inl ⟨below, above, (Except.ok.inj made).symm⟩)
        next => contradiction
      next free =>
        split at made
        next => contradiction
        next apart =>
          exact Or.inr (Or.inr ⟨below, free, apart, (Except.ok.inj made).symm⟩)

end ScriptConsole.Namespaces
