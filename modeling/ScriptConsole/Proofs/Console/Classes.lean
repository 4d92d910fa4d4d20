import ScriptConsole.Proofs.Console.Orderly
import ScriptConsole.Proofs.Console.Symbols

/-! # The classes of consoles

Whether a class is registered, and with what fields and flags, depends on the classes of the world
alone (`ScriptConsole.World.registerClass_cases`). So worlds in which the same classes were
registered in the same order have the same ones, whatever else happened in them
(`ScriptConsole.World.SameClasses`). They may differ in the spelling of the names, which is the
one that was seen first.
-/

namespace ScriptConsole

/-- Classes with names that differ in letter case alone, and the same fields and flags. -/
structure ClassInfo.Alike (info other : ClassInfo) : Prop where
  name : Text.fold info.name.text = Text.fold other.name.text
  fields : info.fields = other.fields
  isContainer : info.isContainer = other.isContainer
  deletesChildren : info.deletesChildren = other.deletesChildren
  isDatablock : info.isDatablock = other.isDatablock
  linksClassFields : info.linksClassFields = other.linksClassFields

/-- Classes of one description are alike if their parents are. -/
theorem ClassInfo.Alike.ofSpec (spec : ClassSpec) {name symbol : Symbol}
    (same : Text.fold name.text = Text.fold symbol.text) {parent other : Option ClassInfo}
    (parents : Option.Rel ClassInfo.Alike parent other) :
    (ClassInfo.ofSpec spec name parent).Alike (.ofSpec spec symbol other) := by
  cases parents with
  | none => exact ⟨same, rfl, rfl, rfl, rfl, rfl⟩
  | some alike =>
      refine ⟨same, ?_, ?_, ?_, ?_, ?_⟩
      · exact congrArg (· ++ spec.fields) alike.fields
      · exact congrArg (spec.isContainer || ·) alike.isContainer
      · exact congrArg (spec.deletesChildren || ·) alike.deletesChildren
      · exact congrArg (spec.isDatablock || ·) alike.isDatablock
      · exact congrArg (spec.linksClassFields || ·) alike.linksClassFields

namespace World

/-- The table of symbols knows the names of all classes. -/
structure Keyed (world : World) : Prop where
  lawful : world.symbols.Lawful
  known : ∀ (name : Symbol) (info : ClassInfo), world.registry.classes[name]? = some info →
    world.symbols.Knows name

variable {world after : World}

theorem keyed_bare (config : Config) (serial : Nat) : (bare config serial).Keyed := by
  refine ⟨SymbolTable.lawful_empty serial, fun name info found => ?_⟩
  exact absurd found (by simp [bare, Registry.empty])

theorem Keyed.later (keyed : world.Keyed) (grows : world.symbols.Grows after.symbols)
    (classes : after.classes = world.classes) : after.Keyed where
  lawful := grows.lawful keyed.lawful
  known name info found :=
    grows.keeps.names (keyed.known name info ((congrArg (·[name]?) classes).symm.trans found))

theorem Ordered.grows {strict : Prop} (ordered : world.Ordered strict after) :
    world.symbols.Grows after.symbols := by
  induction ordered with
  | refl => exact .refl world.symbols
  | tail _ step ih =>
      obtain ⟨_, change, orderly, rfl⟩ := step
      exact ih.trans (orderly.basic.grows _)

theorem Ordered.keyed {strict : Prop} (ordered : world.Ordered strict after)
    (keyed : world.Keyed) : after.Keyed :=
  keyed.later ordered.grows ordered.classes

section Lookup

/-- More symbols do not change what class a name is of. -/
theorem Keyed.classInfo?_eq (keyed : world.Keyed) (after : World)
    (grows : world.symbols.Grows after.symbols) (classes : after.classes = world.classes)
    (name : String) : after.classInfo? name = world.classInfo? name := by
  have same (symbol : Symbol) : after.registry.classes[symbol]? = world.registry.classes[symbol]? :=
    congrArg (·[symbol]?) classes
  unfold classInfo?
  simp only [same]
  cases before : world.symbols.find? name with
  | some symbol => rw [grows.keeps.names before]
  | none =>
      cases now : after.symbols.find? name with
      | none => rfl
      | some symbol =>
          rw [Option.bind_some, Option.bind_none]
          -- A symbol of a class would have been known before.
          cases found : world.registry.classes[symbol]? with
          | none => rfl
          | some info =>
              have text := (grows.lawful keyed.lawful).fold_text now
              have known := keyed.known symbol info found
              rw [SymbolTable.Knows, SymbolTable.find?_congr text, before] at known
              contradiction

theorem Keyed.intern (keyed : world.Keyed) (name : String) :
    Keyed { world with symbols := (world.symbols.intern name).2 } :=
  keyed.later (world.symbols.grows_intern name) rfl

/-- Orderly changes leave what names are of classes. -/
theorem Ordered.classInfo?_eq {strict : Prop} (ordered : world.Ordered strict after)
    (keyed : world.Keyed) : after.classInfo? = world.classInfo? :=
  funext (keyed.classInfo?_eq after ordered.grows ordered.classes)

/-- The class of a name is that of its symbol, also of one that it is only just given. -/
theorem Keyed.classes_intern (keyed : world.Keyed) (name : String) :
    world.registry.classes[(world.symbols.intern name).1]? = world.classInfo? name := by
  have same := keyed.classInfo?_eq { world with symbols := (world.symbols.intern name).2 }
    (world.symbols.grows_intern name) rfl name
  unfold classInfo? at same
  rw [SymbolTable.find?_intern] at same
  exact same

end Lookup

section Register

/-- Whether a class can be registered: it is not there, and its parent is. -/
def Admits (world : World) (spec : ClassSpec) : Prop :=
  world.classInfo? spec.name = none ∧
    ∀ parent, spec.parent = some parent → (world.classInfo? parent).isSome = true

/-- The class of a description in a world. -/
def classOf (world : World) (spec : ClassSpec) : ClassInfo :=
  .ofSpec spec (world.symbols.intern spec.name).1 (spec.parent.bind world.classInfo?)

/-- Entering a class puts it under its name. -/
theorem addClass_classes (spec : ClassSpec) (name : Symbol) (parent : Option ClassInfo)
    (world : World) : ((addClass spec name parent).run world).2.classes =
      world.classes.insert name (.ofSpec spec name parent) := by
  let Enters (change : WorldM Unit) : Prop :=
    ∀ world, (change.run world).2.classes = world.classes.insert name (.ofSpec spec name parent)
  have entered : Enters (modify fun world => { world with
      registry.classes := world.registry.classes.insert name (.ofSpec spec name parent) }) :=
    fun _ => rfl
  have behind {α : Type} {first : WorldM α} {next : α → WorldM Unit} (keeps : Keeps classes first)
      (rest : ∀ value, Enters (next value)) : Enters (first >>= next) :=
    fun world => (rest _ _).trans
      (congrArg (fun held : Std.TreeMap Symbol ClassInfo => held.insert name _) (keeps world))
  refine behind (apart_classes.createLayer _) (fun _ => ?_) world
  cases parent with
  | none => exact entered
  | some parent =>
      refine behind (apart_classes.link _ _) fun linked => ?_
      cases linked with
      | ok _ => exact entered
      | error reason => exact behind (apart_classes.warn _) fun _ => entered

/-- Registering a class enters it if it can be registered. -/
theorem registerClass_cases (keyed : world.Keyed) (spec : ClassSpec) :
    (¬ world.Admits spec ∧ ((registerClass spec).run world).2.classes = world.classes) ∨
      (world.Admits spec ∧ ((registerClass spec).run world).2.classes =
        world.classes.insert (world.classOf spec).name (world.classOf spec)) := by
  let interned : World := { world with symbols := (world.symbols.intern spec.name).2 }
  have keyedThere : interned.Keyed := keyed.intern spec.name
  have same : interned.classInfo? = world.classInfo? :=
    funext (keyed.classInfo?_eq _ (world.symbols.grows_intern spec.name) rfl)
  have own := keyed.classes_intern spec.name
  have contains : world.registry.classes.contains (world.symbols.intern spec.name).1 =
      (world.classInfo? spec.name).isSome := by
    rw [← own, Std.TreeMap.contains_eq_isSome_getElem?]
  have ran : (World.intern spec.name).run world = ((world.symbols.intern spec.name).1, interned) :=
    rfl
  unfold registerClass
  simp only [bind_run, ran]
  split
  next taken =>
    refine .inl ⟨fun admits => ?_, rfl⟩
    have held : world.registry.classes.contains (world.symbols.intern spec.name).1 = true := taken
    rw [contains, admits.1] at held
    contradiction
  next free =>
    have free : world.classInfo? spec.name = none := by
      rw [← Option.not_isSome_iff_eq_none, ← contains]
      exact free
    cases parent : spec.parent with
    | none =>
        have admits : world.Admits spec := ⟨free, fun _ given => nomatch parent.symm.trans given⟩
        refine .inr ⟨admits, ?_⟩
        unfold classOf
        rw [parent]
        exact addClass_classes spec _ none interned
    | some parentName =>
        have above : interned.registry.classes[(interned.symbols.intern parentName).1]? =
            world.classInfo? parentName :=
          (keyedThere.classes_intern parentName).trans (congrFun same parentName)
        simp only [bind_run]
        split
        next missing =>
          have missing : world.classInfo? parentName = none := above.symm.trans missing
          refine .inl ⟨fun admits => ?_, rfl⟩
          have there := admits.2 parentName parent
          rw [missing] at there
          contradiction
        next info found =>
          have found : world.classInfo? parentName = some info := above.symm.trans found
          have admits : world.Admits spec := by
            refine ⟨free, fun other given => ?_⟩
            obtain rfl := Option.some.inj (parent.symm.trans given)
            rw [found]
            rfl
          refine .inr ⟨admits, ?_⟩
          unfold classOf
          rw [parent, Option.bind_some, found]
          exact addClass_classes spec _ (some info) _

/-- A class that is registered is known by its name. -/
theorem Keyed.knows_classOf (keyed : world.Keyed) (spec : ClassSpec) :
    ((registerClass spec).run world).2.symbols.Knows (world.classOf spec).name := by
  have found := world.symbols.find?_intern spec.name
  exact (grows_registerClass spec world).keeps.names ((keyed.lawful.intern spec.name).knows found)

theorem Keyed.fold_classOf (keyed : world.Keyed) (spec : ClassSpec) :
    Text.fold (world.classOf spec).name.text = Text.fold spec.name :=
  (keyed.lawful.intern spec.name).fold_text (world.symbols.find?_intern spec.name)

/-- Registering a class keeps the names of classes known. -/
theorem keyed_registerClass (spec : ClassSpec) : Preserves Keyed (registerClass spec) := by
  intro world keyed
  have basic : Basic (registerClass spec) := .registerClass spec
  have grows := basic.grows world
  rcases registerClass_cases keyed spec with ⟨_, same⟩ | ⟨_, inserted⟩
  · exact keyed.later grows same
  · refine ⟨grows.lawful keyed.lawful, fun name info found => ?_⟩
    have found := (congrArg (·[name]?) inserted).symm.trans found
    rw [Std.TreeMap.getElem?_insert] at found
    split at found
    next equal =>
      obtain rfl := Std.compare_eq_iff_eq.mp equal
      exact keyed.knows_classOf spec
    next => exact grows.keeps.names (keyed.known name info found)

/-- No basic change makes the name of a class unknown. -/
theorem Basic.keyed {α : Type} {change : WorldM α} (basic : Basic change) :
    Preserves Keyed change := by
  rcases basic.mild_or_major with mild | major
  · exact fun world keyed => keyed.later (basic.grows world) (mild.classes world)
  · cases major with
    | define layer name target => exact fun world keyed => keyed.later (basic.grows world) rfl
    | registerClass spec => exact keyed_registerClass spec
    | enter draft name =>
        exact fun world keyed => keyed.later (basic.grows world) (enter_classes draft name world)
    | copyFields id source => exact fun world keyed => keyed.later (basic.grows world) rfl

open Classical in
/-- After a class is registered, its name is of it and all other names are of the classes they
were of before. -/
theorem classInfo?_registerClass (keyed : world.Keyed) (spec : ClassSpec) (name : String) :
    ((registerClass spec).run world).2.classInfo? name =
      if world.Admits spec ∧ Text.fold name = Text.fold spec.name then some (world.classOf spec)
      else world.classInfo? name := by
  have basic : Basic (registerClass spec) := .registerClass spec
  have grows := basic.grows world
  rcases registerClass_cases keyed spec with ⟨refused, same⟩ | ⟨admits, inserted⟩
  · rw [if_neg fun both => refused both.1]
    exact keyed.classInfo?_eq _ grows same name
  · have lookup : ((registerClass spec).run world).2.classInfo? name =
        (((registerClass spec).run world).2.symbols.find? name).bind fun symbol =>
          (world.classes.insert (world.classOf spec).name (world.classOf spec))[symbol]? := by
      rw [← inserted]
      rfl
    have before := keyed.classInfo?_eq
      { world with symbols := ((registerClass spec).run world).2.symbols } grows rfl name
    rw [lookup]
    by_cases own : Text.fold name = Text.fold spec.name
    · have found := (SymbolTable.find?_congr (own.trans (keyed.fold_classOf spec).symm)).trans
        (keyed.knows_classOf spec)
      rw [if_pos ⟨admits, own⟩, found, Option.bind_some, Std.TreeMap.getElem?_insert_self]
    · rw [if_neg fun both => own both.2, ← before]
      unfold classInfo?
      cases found : ((registerClass spec).run world).2.symbols.find? name with
      | none => rfl
      | some symbol =>
          have text := (grows.lawful keyed.lawful).fold_text found
          have other : (world.classOf spec).name ≠ symbol := by
            rintro rfl
            exact own (text.symm.trans (keyed.fold_classOf spec))
          rw [Option.bind_some, Option.bind_some, Std.TreeMap.getElem?_insert,
            if_neg (mt Std.compare_eq_iff_eq.mp other)]
          rfl

end Register

section Same

/-- Names are of classes that are alike. -/
def SameClasses (world other : World) : Prop :=
  ∀ name, Option.Rel ClassInfo.Alike (world.classInfo? name) (other.classInfo? name)

variable {other : World}

theorem SameClasses.isSome_eq (same : world.SameClasses other) (name : String) :
    (world.classInfo? name).isSome = (other.classInfo? name).isSome := by
  have rel := same name
  generalize world.classInfo? name = info, other.classInfo? name = another at rel
  cases rel with
  | none => rfl
  | some alike => rfl

theorem SameClasses.admits_iff (same : world.SameClasses other) (spec : ClassSpec) :
    world.Admits spec ↔ other.Admits spec := by
  unfold Admits
  rw [← Option.not_isSome_iff_eq_none, ← Option.not_isSome_iff_eq_none, same.isSome_eq]
  simp only [same.isSome_eq]

/-- Registering the same class keeps classes the same. -/
theorem SameClasses.registerClass (same : world.SameClasses other) (keyed : world.Keyed)
    (keyedOther : other.Keyed) (spec : ClassSpec) :
    ((World.registerClass spec).run world).2.SameClasses
      ((World.registerClass spec).run other).2 := by
  intro name
  rw [classInfo?_registerClass keyed, classInfo?_registerClass keyedOther,
    same.admits_iff spec]
  split
  · refine .some (.ofSpec spec ?_ ?_)
    · exact (keyed.fold_classOf spec).trans (keyedOther.fold_classOf spec).symm
    · cases spec.parent with
      | none => exact .none
      | some parent => exact same parent
  · exact same name

end Same

end World

end ScriptConsole
