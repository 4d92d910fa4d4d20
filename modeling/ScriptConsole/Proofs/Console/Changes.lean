import Mathlib.Logic.Relation
import ScriptConsole.Library.OnConsole
import ScriptConsole.Library.OnObjects
import ScriptConsole.Proofs.Console.Composing
import ScriptConsole.Snapshot.Restore

/-! # Changes of a world

All that scripts and hosts do to a world is put together from few changes
(`ScriptConsole.World.Basic`), and does not depend on the settings or on what was logged
(`ScriptConsole.World.Built`). What all these changes keep is kept by everything. The
built-in functions do without the changes that bring in functions, classes and objects
(`ScriptConsole.World.Gentle`).
-/

namespace ScriptConsole.World

/-- The changes that all others are put together from. -/
inductive Basic : {α : Type} → WorldM α → Prop where
  | say (text : String) : Basic (World.say text)
  | warn (text : String) : Basic (World.warn text)
  | setSink (sink : Sink) : Basic (World.setSink sink)
  | intern (name : String) : Basic (World.intern name)
  | compile (filename text : String) : Basic (World.compile filename text)
  | setGlobal (name : Symbol) (value : Value) : Basic (World.setGlobal name value)
  | define (layer : Layer) (name : Symbol) (target : Callable) :
      Basic (World.define layer name target)
  | linkNamespaces (child parent : String) : Basic (World.linkNamespaces child parent)
  | activate (package : Symbol) : Basic (World.activate package)
  | deactivate (package : Symbol) : Basic (World.deactivate package)
  | registerClass (spec : ClassSpec) : Basic (World.registerClass spec)
  | enter (draft : Draft) (name : String) : Basic (World.enter draft name)
  | remove (id : Nat) : Basic (World.remove id)
  | setField (id : Nat) (field : String) (index : Option String) (value : Value) :
      Basic (World.setField id field index value)
  | copyFields (id : Nat) (source : Draft) : Basic (World.copyFields id source)
  | rename (id : Nat) (name : String) : Basic (World.rename id name)
  | addChild (container child : Nat) : Basic (World.addChild container child)
  | detach (child : Nat) : Basic (World.detach child)
  | tag (text : String) : Basic (World.tag text)
  | releaseTag (id : Nat) : Basic (World.releaseTag id)

/-- A change that is put together from the basic ones. What it reads of the world in
between is neither a setting nor the log. -/
inductive Built : {α : Type} → WorldM α → Prop where
  | basic {α : Type} {change : WorldM α} (basic : Basic change) : Built change
  | pure {α : Type} (result : α) : Built (Pure.pure result)
  | bind {α β : Type} {first : WorldM α} {next : α → WorldM β} (start : Built first)
      (rest : ∀ value, Built (next value)) : Built (first >>= next)
  | reading {α : Type} {next : World → WorldM α}
      (same : ∀ world config sink log, next { world with config, sink, log } = next world)
      (rest : ∀ world, Built (next world)) : Built (get >>= next)

namespace Built

variable {α β : Type}

theorem map {change : WorldM α} (built : Built change) (view : α → β) : Built (view <$> change) :=
  .bind built fun value => .pure (view value)

theorem composes : Composes Built :=
  ⟨.pure, .bind⟩

theorem forM {items : List α} {change : α → WorldM PUnit} (each : ∀ item, Built (change item)) :
    Built (items.forM change) :=
  composes.forM each

end Built

/-- A world becomes another one by a basic change. -/
def Step (world after : World) : Prop :=
  ∃ (α : Type) (change : WorldM α), Basic change ∧ (change.run world).2 = after

/-- A world becomes another one by basic changes. -/
def Evolves : World → World → Prop :=
  Relation.ReflTransGen Step

/-- What is put together from basic changes is a row of them. -/
theorem Built.evolves {α : Type} {change : WorldM α} (built : Built change) (world : World) :
    Evolves world (change.run world).2 := by
  induction built generalizing world with
  | basic basic => exact .single ⟨_, _, basic, rfl⟩
  | pure result => exact .refl
  | bind start rest first next =>
      exact (first world).trans (next _ _)
  | reading same rest next => exact next world world

/-- A basic change that brings in no function, no class and no object. -/
inductive Mild : {α : Type} → WorldM α → Prop where
  | say (text : String) : Mild (World.say text)
  | warn (text : String) : Mild (World.warn text)
  | setSink (sink : Sink) : Mild (World.setSink sink)
  | intern (name : String) : Mild (World.intern name)
  | compile (filename text : String) : Mild (World.compile filename text)
  | setGlobal (name : Symbol) (value : Value) : Mild (World.setGlobal name value)
  | linkNamespaces (child parent : String) : Mild (World.linkNamespaces child parent)
  | activate (package : Symbol) : Mild (World.activate package)
  | deactivate (package : Symbol) : Mild (World.deactivate package)
  | remove (id : Nat) : Mild (World.remove id)
  | setField (id : Nat) (field : String) (index : Option String) (value : Value) :
      Mild (World.setField id field index value)
  | rename (id : Nat) (name : String) : Mild (World.rename id name)
  | addChild (container child : Nat) : Mild (World.addChild container child)
  | detach (child : Nat) : Mild (World.detach child)
  | tag (text : String) : Mild (World.tag text)
  | releaseTag (id : Nat) : Mild (World.releaseTag id)

/-- The mild changes are among the basic ones. -/
theorem Mild.basic {α : Type} {change : WorldM α} (mild : Mild change) : Basic change := by
  cases mild with
  | say text => exact .say text
  | warn text => exact .warn text
  | setSink sink => exact .setSink sink
  | intern name => exact .intern name
  | compile filename text => exact .compile filename text
  | setGlobal name value => exact .setGlobal name value
  | linkNamespaces child parent => exact .linkNamespaces child parent
  | activate package => exact .activate package
  | deactivate package => exact .deactivate package
  | remove id => exact .remove id
  | setField id field index value => exact .setField id field index value
  | rename id name => exact .rename id name
  | addChild container child => exact .addChild container child
  | detach child => exact .detach child
  | tag text => exact .tag text
  | releaseTag id => exact .releaseTag id

/-- A basic change that brings in a function, a class, an object or all fields of one. -/
inductive Major : {α : Type} → WorldM α → Prop where
  | define (layer : Layer) (name : Symbol) (target : Callable) :
      Major (World.define layer name target)
  | registerClass (spec : ClassSpec) : Major (World.registerClass spec)
  | enter (draft : Draft) (name : String) : Major (World.enter draft name)
  | copyFields (id : Nat) (source : Draft) : Major (World.copyFields id source)

/-- A basic change that is not mild brings something in, so a proof about all basic changes may take
the mild ones together. -/
theorem Basic.mild_or_major {α : Type} {change : WorldM α} (basic : Basic change) :
    Mild change ∨ Major change := by
  cases basic with
  | define layer name target => exact .inr (.define layer name target)
  | registerClass spec => exact .inr (.registerClass spec)
  | enter draft name => exact .inr (.enter draft name)
  | copyFields id source => exact .inr (.copyFields id source)
  | say text => exact .inl (.say text)
  | warn text => exact .inl (.warn text)
  | setSink sink => exact .inl (.setSink sink)
  | intern name => exact .inl (.intern name)
  | compile filename text => exact .inl (.compile filename text)
  | setGlobal name value => exact .inl (.setGlobal name value)
  | linkNamespaces child parent => exact .inl (.linkNamespaces child parent)
  | activate package => exact .inl (.activate package)
  | deactivate package => exact .inl (.deactivate package)
  | remove id => exact .inl (.remove id)
  | setField id field index value => exact .inl (.setField id field index value)
  | rename id name => exact .inl (.rename id name)
  | addChild container child => exact .inl (.addChild container child)
  | detach child => exact .inl (.detach child)
  | tag text => exact .inl (.tag text)
  | releaseTag id => exact .inl (.releaseTag id)

/-- A change that is put together from mild ones. What it reads of the world in between is
neither a setting nor the log. -/
inductive Gentle : {α : Type} → WorldM α → Prop where
  | mild {α : Type} {change : WorldM α} (mild : Mild change) : Gentle change
  | pure {α : Type} (result : α) : Gentle (Pure.pure result)
  | bind {α β : Type} {first : WorldM α} {next : α → WorldM β} (start : Gentle first)
      (rest : ∀ value, Gentle (next value)) : Gentle (first >>= next)
  | reading {α : Type} {next : World → WorldM α}
      (same : ∀ world config sink log, next { world with config, sink, log } = next world)
      (rest : ∀ world, Gentle (next world)) : Gentle (get >>= next)

namespace Gentle

variable {α β : Type}

theorem built {change : WorldM α} (gentle : Gentle change) : Built change := by
  induction gentle with
  | mild mild => exact .basic mild.basic
  | pure result => exact .pure result
  | bind start rest ihStart ihRest => exact .bind ihStart ihRest
  | reading same rest ih => exact .reading same ih

theorem composes : Composes Gentle :=
  ⟨.pure, .bind⟩

theorem forM {items : List α} {change : α → WorldM PUnit} (each : ∀ item, Gentle (change item)) :
    Gentle (items.forM change) :=
  composes.forM each

theorem foldlM {items : List α} {change : β → α → WorldM β}
    (each : ∀ state item, Gentle (change state item)) (state : β) :
    Gentle (items.foldlM change state) :=
  composes.foldlM each state

end Gentle

section Composite

theorem gentle_setGlobalNamed (name : String) (value : Value) :
    Gentle (setGlobalNamed name value) :=
  .bind (.mild (.intern (bareName name))) fun symbol => .mild (.setGlobal symbol value)

theorem built_registerNative (space : Option String) (name : String) (isMethod : Bool)
    (arity : Arity) (code : NativeCode) :
    Built (registerNative space name isMethod arity code) :=
  Built.composes.registerNative (fun name => .basic (.intern name)) space name fun layer symbol =>
    .basic (.define layer symbol _)

theorem built_registerLibrary : Built registerLibrary := by
  refine .bind (.forM fun spec => (Built.basic (.registerClass spec)).map _) fun _ => ?_
  refine .bind (.forM fun spec => ?_) fun _ => .forM fun spec => ?_
  · exact built_registerNative spec.className spec.name _ spec.arity _
  · exact built_registerNative spec.className spec.name _ spec.arity _

theorem gentle_removeChild (container child : Nat) : Gentle (removeChild container child) := by
  refine .reading (fun _ _ _ _ => rfl) fun world => ?_
  split
  · exact .bind (.mild (.detach child)) fun _ => .pure true
  · exact .pure false

end Composite

section Library

theorem gentle_activatePackage (name : String) : Gentle (activatePackage name) := by
  refine .bind (.mild (.intern name)) fun symbol => ?_
  refine .bind (.mild (.activate symbol)) fun declared => ?_
  cases declared with
  | false => exact .mild (.warn _)
  | true => exact .pure ()

theorem gentle_deactivatePackage (name : String) : Gentle (deactivatePackage name) := by
  refine .bind (.mild (.intern name)) fun symbol => ?_
  refine .bind (.mild (.deactivate symbol)) fun wasActive => ?_
  cases wasActive with
  | false => exact .mild (.warn _)
  | true => exact .pure ()

theorem gentle_removeTag (text : String) : Gentle (removeTag text) := by
  have rest (released : Bool) : Gentle (do
      if !released then
        World.warn ("removeTaggedString: '" ++ text ++ "' is not a tagged string")) := by
    cases released with
    | false => exact .mild (.warn _)
    | true => exact .pure ()
  unfold removeTag
  cases Tag.parse? text with
  | none => exact .bind (.pure false) rest
  | some id => exact .bind (.mild (.releaseTag id)) rest

theorem gentle_linkByName (child parent : String) : Gentle (linkByName child parent) := by
  refine .bind (.mild (.linkNamespaces child parent)) fun linked => ?_
  cases linked with
  | ok _ => exact .pure _
  | error reason => exact .bind (.mild (.warn _)) fun _ => .pure _

/-- Built-in functions that work on the console make mild changes alone: they log, link namespaces,
switch packages and hold tags. -/
theorem gentle_consoleFunction (function : ConsoleFunction) (arguments : List Value) :
    Gentle (function.apply arguments) := by
  refine .reading ?_ fun world => ?_
  · intro world config sink log
    cases function <;> rfl
  · cases function with
    | echo => exact .bind (.mild (.say _)) fun _ => .pure _
    | warn => exact .bind (.mild (.say _)) fun _ => .pure _
    | error => exact .bind (.mild (.say _)) fun _ => .pure _
    | isObject => exact .pure _
    | nameToId => exact .pure _
    | isFunction => exact .pure _
    | isMethod => exact .pure _
    | linkNamespaces => exact gentle_linkByName _ _
    | isPackage => exact .pure _
    | activatePackage => exact .bind (gentle_activatePackage _) fun _ => .pure _
    | deactivatePackage => exact .bind (gentle_deactivatePackage _) fun _ => .pure _
    | addTag => exact .bind (.mild (.tag _)) fun _ => .pure _
    | removeTag => exact .bind (gentle_removeTag _) fun _ => .pure _
    | tagText => exact .pure _

theorem gentle_addByValue (container : Nat) (value : Value) :
    Gentle (addByValue container value) := by
  refine .reading (fun _ _ _ _ => rfl) fun world => ?_
  cases world.findByValue? value with
  | none => exact .mild (.warn _)
  | some child =>
      refine .bind (.mild (.addChild container child)) fun added => ?_
      cases added with
      | ok _ => exact .pure ()
      | error reason => exact .mild (.warn _)

/-- Taking an object out of a container by the values that name both is a mild change, or a warning
where there is no such object. -/
theorem gentle_removeByValue (container : Nat) (value : Value) :
    Gentle (removeByValue container value) := by
  have rest (removed : Bool) : Gentle (do
      if !removed then
        World.warn ("SimSet::remove: '" ++ value.toText ++ "' is not a member")) := by
    cases removed with
    | false => exact .mild (.warn _)
    | true => exact .pure ()
  refine .reading (fun _ _ _ _ => rfl) fun world => ?_
  cases world.findByValue? value with
  | none => exact .bind (.pure false) rest
  | some child => exact .bind (gentle_removeChild container child) rest

theorem gentle_setObjectName (id : Nat) (name : String) : Gentle (setObjectName id name) := by
  refine .bind (.mild (.rename id name)) fun renamed => ?_
  cases renamed with
  | false => exact .mild (.warn _)
  | true => exact .pure ()

theorem gentle_setFieldByName (id : Nat) (field : String) (value : Value) :
    Gentle (setFieldByName id field value) := by
  refine .bind (.mild (.setField id field none value)) fun written => ?_
  cases written with
  | ok _ => exact .pure _
  | error reason => exact .bind (.mild (.warn _)) fun _ => .pure _

/-- Built-in methods of objects make mild changes alone. Those that run scripts or delete objects
are not among them. -/
theorem gentle_objectMethod (method : ObjectMethod) (self : Nat) (arguments : List Value) :
    Gentle (method.apply self arguments) := by
  refine .reading ?_ fun world => ?_
  · intro world config sink log
    cases method <;> rfl
  · cases method with
    | id => exact .pure _
    | name => exact .pure _
    | setName => exact .bind (gentle_setObjectName _ _) fun _ => .pure _
    | className => exact .pure _
    | group => exact .pure _
    | fieldValue => exact .pure _
    | setFieldValue => exact gentle_setFieldByName _ _ _
    | dynamicFieldCount => exact .pure _
    | isMemberOfClass => exact .pure _
    | dump => exact .bind (.forM fun line => .mild (.say line)) fun _ => .pure _
    | add => exact .bind (.forM fun value => gentle_addByValue self value) fun _ => .pure _
    | remove => exact .bind (.forM fun value => gentle_removeByValue self value) fun _ => .pure _
    | count => exact .pure _
    | child => exact .pure _
    | isMember => exact .pure _

end Library

section Snapshot

theorem gentle_restoreField (className : String) (draft : Draft) (field : FieldSnapshot) :
    Gentle (Snapshot.restoreField className draft field) := by
  unfold Snapshot.restoreField
  cases draft.setField field.name field.index (.text field.value) with
  | ok changed => exact .pure changed
  | error reason => exact .bind (.mild (.warn _)) fun _ => .pure draft

theorem gentle_restoreLink (container child : Nat) :
    Gentle (Snapshot.restoreLink container child) := by
  refine .bind (.mild (.addChild container child)) fun added => ?_
  cases added with
  | ok _ => exact .pure ()
  | error reason => exact .mild (.warn _)

end Snapshot

end ScriptConsole.World
