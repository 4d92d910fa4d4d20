import ScriptConsole.Console.Objects

/-! # Properties of changes in order

What holds of doing nothing, and of changes in order if it holds of each, holds of loops
(`ScriptConsole.World.Composes`). What holds of the steps of linking namespaces too holds of all
that links them: of registering a class, and of registering an object
(`ScriptConsole.World.Links`).
-/

namespace ScriptConsole.World

/-- A property of changes holds where nothing is done, and of changes in order if it holds of
each. -/
structure Composes (property : {α : Type} → WorldM α → Prop) : Prop where
  pure {α : Type} (result : α) : property (Pure.pure result)
  bind {α β : Type} {first : WorldM α} {next : α → WorldM β} : property first →
    (∀ value, property (next value)) → property (first >>= next)

namespace Composes

variable {property : {α : Type} → WorldM α → Prop} (composes : Composes property) {α β : Type}
include composes

theorem forM {items : List α} {change : α → WorldM PUnit}
    (each : ∀ item, property (change item)) : property (items.forM change) := by
  induction items with
  | nil => exact composes.pure ()
  | cons item items ih => exact composes.bind (each item) fun _ => ih

theorem foldlM {items : List α} {change : β → α → WorldM β}
    (each : ∀ state item, property (change state item)) (state : β) :
    property (items.foldlM change state) := by
  induction items generalizing state with
  | nil => exact composes.pure state
  | cons item items ih =>
      rw [List.foldlM_cons]
      exact composes.bind (each state item) ih

theorem mapM {items : List α} {change : α → WorldM β} (each : ∀ item, property (change item)) :
    property (items.mapM change) := by
  rw [← List.mapM'_eq_mapM]
  induction items with
  | nil => exact composes.pure _
  | cons item items ih =>
      rw [List.mapM'_cons]
      exact composes.bind (each item) fun _ => composes.bind ih fun _ => composes.pure _

theorem internNonempty (intern : ∀ name, property (World.intern name)) (name : String) :
    property (World.internNonempty name) := by
  unfold World.internNonempty
  split
  · exact composes.pure none
  · exact composes.bind (intern name) fun symbol => composes.pure (some symbol)

theorem linkNames (intern : ∀ name, property (World.intern name)) (object : Object) :
    property (World.linkNames object) :=
  composes.bind (composes.mapM intern) fun _ => composes.pure _

/-- A native function is registered by interning its names and defining it. -/
theorem registerNative (intern : ∀ name, property (World.intern name)) (space : Option String)
    (name : String) {isMethod : Bool} {arity : Arity} {code : NativeCode}
    (define : ∀ layer symbol,
      property (World.define layer symbol (.native isMethod arity code))) :
    property (World.registerNative space name isMethod arity code) := by
  have rest (space : Option Symbol) : property (do
      World.define ⟨space, none⟩ (← World.intern name) (.native isMethod arity code)) :=
    composes.bind (intern name) fun symbol => define ⟨space, none⟩ symbol
  refine composes.bind ?_ rest
  cases space with
  | none => exact composes.pure none
  | some space => exact composes.bind (intern space) fun symbol => composes.pure (some symbol)

end Composes

/-- A property of changes that composes holds of the steps of linking namespaces, and of what reads
the world in between, if that is neither a setting nor the log. -/
structure Links (property : {α : Type} → WorldM α → Prop) : Prop extends Composes property where
  reading {α : Type} {next : World → WorldM α}
    (same : ∀ world config sink log, next { world with config, sink, log } = next world)
    (rest : ∀ world, property (next world)) : property (get >>= next)
  intern (name : String) : property (World.intern name)
  warn (text : String) : property (World.warn text)
  createLayer (layer : Layer) : property (World.createLayer layer)
  link (child parent : Layer) : property (World.link child parent)

/-- Links the namespaces of an object that was entered. -/
def linkEntered (id : Nat) : WorldM Nat := do
  linkObject id
  return id

/-- Links the namespaces of an object that was entered without its name, which is taken. -/
def linkUnnamed (name : Symbol) (id : Nat) : WorldM Nat := do
  warn ("object name '" ++ name.text ++ "' is already in use, " ++ numbered id ++ " stays unnamed")
  linkEntered id

/-- Enters a class into the registry. -/
abbrev insertClass (spec : ClassSpec) (name : Symbol) (parent : Option ClassInfo) : WorldM Unit :=
  modify fun world => { world with
    registry.classes := world.registry.classes.insert name (.ofSpec spec name parent) }

namespace Links

variable {property : {α : Type} → WorldM α → Prop} (links : Links property)
include links

theorem linkNamespaces (child parent : String) :
    property (World.linkNamespaces child parent) := by
  refine links.bind (links.intern child) fun child =>
    links.bind (links.intern parent) fun parent => ?_
  exact links.bind (links.createLayer _) fun _ =>
    links.bind (links.createLayer _) fun _ => links.link _ _

theorem linkStep (id : Nat) (state : Layer × List Layer) (name : Symbol) :
    property (World.linkStep id state name) := by
  refine links.bind (links.createLayer _) fun _ => links.bind (links.link _ _) fun linked => ?_
  cases linked with
  | ok _ => exact links.pure _
  | error reason => exact links.bind (links.warn _) fun _ => links.pure state

/-- Linking the namespaces of an object ends with a note of them in the object. -/
theorem linkObject (id : Nat) (noted : ∀ layer linked,
      property (changeObject id fun object => { object with layer, linked })) :
    property (World.linkObject id) := by
  refine links.reading (fun _ _ _ _ => rfl) fun world => ?_
  cases world.registry.get? id with
  | none => exact links.pure ()
  | some object =>
      refine links.bind (links.linkNames links.intern object) fun names => ?_
      exact links.bind (links.foldlM (links.linkStep id) _) fun linked => noted linked.1 linked.2

/-- A class is entered after its namespace is linked. -/
theorem addClass {spec : ClassSpec} {name : Symbol} {parent : Option ClassInfo}
    (inserted : property (insertClass spec name parent)) :
    property (World.addClass spec name parent) := by
  refine links.bind (links.createLayer _) fun _ => ?_
  cases parent with
  | none => exact inserted
  | some parent =>
      refine links.bind (links.link _ _) fun linked => ?_
      cases linked with
      | ok _ => exact inserted
      | error reason => exact links.bind (links.warn _) fun _ => inserted

/-- Whatever holds once a class's name is interned and the property holds of the rest holds of
registering the class. -/
theorem registerClass_of {spec : ClassSpec} (final : WorldM (Except ClassError Unit) → Prop)
    (begun : ∀ next, (∀ name, property (next name)) → final (World.intern spec.name >>= next))
    (inserted : ∀ name parent, property (insertClass spec name parent)) :
    final (World.registerClass spec) := by
  refine begun _ fun name => links.reading (fun _ _ _ _ => rfl) fun world => ?_
  split
  · exact links.pure _
  · split
    · exact links.bind (links.addClass (inserted name none)) fun _ => links.pure _
    · refine links.bind (links.intern _) fun parent => ?_
      refine links.reading (fun _ _ _ _ => rfl) fun world => ?_
      split
      · exact links.pure _
      · exact links.bind (links.addClass (inserted name _)) fun _ => links.pure _

theorem registerClass (spec : ClassSpec)
    (inserted : ∀ name parent, property (insertClass spec name parent)) :
    property (World.registerClass spec) :=
  links.registerClass_of property (fun _ => links.bind (links.intern spec.name)) inserted

/-- Whatever holds once an object's name is interned and the property holds of the rest holds of
registering the object. -/
theorem enter_of {draft : Draft} {name : String} (final : WorldM Nat → Prop)
    (begun : ∀ next, (∀ symbol, property (next symbol)) →
      final (World.internNonempty name >>= next))
    (entered : ∀ symbol (next : Nat × Bool → WorldM Nat), (∀ given, property (next given)) →
      property (get >>= fun world =>
        setRegistry (world.registry.register draft symbol).2 >>= fun _ =>
          next (world.registry.register draft symbol).1))
    (noted : ∀ id layer linked,
      property (changeObject id fun object => { object with layer, linked })) :
    final (World.enter draft name) := by
  have rest (id : Nat) : property (linkEntered id) :=
    links.bind (links.linkObject id (noted id)) fun _ => links.pure id
  refine begun _ fun symbol => ?_
  cases symbol with
  | none =>
      refine entered none (fun given =>
        if !given.2 then linkEntered given.1 else linkEntered given.1)
        fun given => ?_
      simp only [ite_self]
      exact rest given.1
  | some symbol =>
      refine entered (some symbol)
        (fun given => if !given.2 then linkUnnamed symbol given.1 else linkEntered given.1)
        fun given => ?_
      split
      · exact links.bind (links.warn _) fun _ => rest given.1
      · exact rest given.1

theorem enter (draft : Draft) (name : String)
    (entered : ∀ registry, property (setRegistry registry))
    (noted : ∀ id layer linked,
      property (changeObject id fun object => { object with layer, linked })) :
    property (World.enter draft name) :=
  links.enter_of property (fun _ => links.bind (links.internNonempty links.intern name))
    (fun _ _ rest => links.reading (fun _ _ _ _ => rfl) fun _ =>
      links.bind (entered _) fun _ => rest _)
    noted

end Links

end ScriptConsole.World
