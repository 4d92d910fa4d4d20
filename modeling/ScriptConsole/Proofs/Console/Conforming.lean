import ScriptConsole.Proofs.Console.Classes
import ScriptConsole.Proofs.Objects.Conformance

/-! # Worlds whose objects conform

A host is fair if its classes have declared fields and it registers objects that were made of such
classes alone, also in functions that scripts call (`ScriptConsole.HostProgram.Fair`). Where all
functions are those of a fair host and all classes have declared fields, objects conform, and what
evaluation does to the world keeps it so (`ScriptConsole.World.Conforming`).
-/

namespace ScriptConsole

namespace PersistentField

/-- The fields of a host and those of the built-in classes. -/
def Declared (own : PersistentField → Prop) (field : PersistentField) : Prop :=
  own field ∨ ∃ spec ∈ builtinClasses, field ∈ spec.fields

/-- The defaults of the built-in classes are of their types. -/
theorem sound_builtin {spec : ClassSpec} (builtin : spec ∈ builtinClasses)
    {field : PersistentField} (member : field ∈ spec.fields) : field.Sound := by
  have linkFields : ∀ field ∈ [linkField "class", linkField "superClass"], field.Sound := by
    intro field member
    rcases List.mem_pair.mp member with rfl | rfl
    · exact (sound_single "class" .text).withSetter _
    · exact (sound_single "superClass" .text).withSetter _
  have objectFields : ∀ field ∈ objectClass.fields, field.Sound := by
    intro field member
    rcases List.mem_pair.mp member with rfl | rfl
    · exact sound_single "internalName" .text
    · exact sound_withDefault (.single "canSave" .bool) (.int 1)
  simp only [builtinClasses, List.mem_cons, List.not_mem_nil, or_false] at builtin
  rcases builtin with rfl | rfl | rfl | rfl | rfl | rfl
  · exact objectFields field member
  · exact linkFields field member
  · exact nomatch member
  · exact nomatch member
  · exact linkFields field member
  · exact nomatch member

/-- If all defaults of the host's fields are of their types, declared fields receive theirs. -/
theorem sound_declared {own : PersistentField → Prop} (sound : ∀ field, own field → field.Sound) :
    Starting (Declared own) := by
  intro field known
  have holds : field.Sound := by
    rcases known with mine | ⟨spec, builtin, member⟩
    · exact sound field mine
    · exact sound_builtin builtin member
  exact ⟨field, known, .refl field, holds.admits_default⟩

end PersistentField

/-- An operation of a fair host. -/
def Operation.Fair (declared : PersistentField → Prop) : Operation → Prop
  | .registerClass spec => ∀ field ∈ spec.fields, declared field
  | .register draft _ => draft.Made declared
  | _ => True

/-- What a host may rely on in an answer: new objects are made of classes with declared fields. -/
def Operation.Gives (declared : PersistentField → Prop) :
    (operation : Operation) → operation.Answer → Prop
  | .newObject _, draft? => ∀ draft ∈ draft?, draft.Made declared
  | _, _ => True

/-- A program of a fair host. -/
def HostProgram.Fair (declared : PersistentField → Prop) : HostProgram → Prop
  | .done _ => True
  | .fail _ => True
  | .ask operation next =>
    operation.Fair declared ∧ ∀ result,
      (∀ answer, result = .ok answer → operation.Gives declared answer) →
        (next result).Fair declared
  | .register _ _ _ _ code next => (∀ call, (code call).Fair declared) ∧ next.Fair declared

/-- A function of a script, a built-in one, or one of a fair host. -/
def Callable.Fair (declared : PersistentField → Prop) : Callable → Prop
  | .native _ _ (.host program) => ∀ call, (program call).Fair declared
  | _ => True

namespace World

/-- All functions are those of a fair host, all classes have declared fields, and all objects
conform. -/
structure Conforming (declared : PersistentField → Prop) (world : World) : Prop where
  functions : world.spaces.Each (Callable.Fair declared)
  classes : ∀ (name : Symbol) (info : ClassInfo), world.registry.classes[name]? = some info →
    ∀ field ∈ info.fields, declared field
  objects : world.registry.Each (Object.Conforms declared)

/-- Registering a class leaves the classes, or enters the one of the description under a parent
that is registered. -/
theorem registerClass_enters (spec : ClassSpec) (world : World) :
    ((registerClass spec).run world).2.classes = world.classes ∨
      ∃ name parent, (∀ info ∈ parent, ∃ symbol : Symbol, world.classes[symbol]? = some info) ∧
        ((registerClass spec).run world).2.classes =
          world.classes.insert name (.ofSpec spec name parent) := by
  unfold registerClass
  simp only [bind_run]
  split
  · exact .inl rfl
  · cases spec.parent with
    | none => exact .inr ⟨_, none, nofun, addClass_classes spec _ none _⟩
    | some parent =>
        simp only [bind_run]
        split
        · exact .inl rfl
        next info found =>
          refine .inr ⟨_, some info, ?_, addClass_classes spec _ (some info) _⟩
          rintro _ ⟨⟩
          exact ⟨_, found⟩

namespace Conforming

variable {declared : PersistentField → Prop} {world : World} {α : Type}

theorem classInfo? (conforming : world.Conforming declared) {name : String} {info : ClassInfo}
    (found : world.classInfo? name = some info) : ∀ field ∈ info.fields, declared field := by
  obtain ⟨symbol, _, is⟩ := Option.bind_eq_some_iff.mp found
  exact conforming.classes symbol info is

/-- Objects that a host asks for are made of declared fields. -/
theorem newObject? (conforming : world.Conforming declared) {name : String} {draft : Draft}
    (found : world.newObject? name = some draft) : draft.Made declared := by
  obtain ⟨info, is, rfl⟩ := Option.map_eq_some_iff.mp found
  exact .ofClass (conforming.classInfo? is)

/-- What brings in neither functions nor classes keeps worlds conforming if all objects still
do. -/
theorem of_objects {change : WorldM α} (functions : Keeps World.functions change)
    (classes : Keeps World.classes change)
    (objects : Preserves (fun world => world.registry.Each (Object.Conforms declared)) change) :
    Preserves (Conforming declared) change := by
  refine fun world conforming => ⟨?_, fun name info found => ?_, ?_⟩
  · exact conforming.functions.of_functions (functions world)
  · exact conforming.classes name info ((congrArg (·[name]?) (classes world)).symm.trans found)
  · exact objects world conforming.objects

theorem gentle {change : WorldM α} (gentle : Gentle change) :
    Preserves (Conforming declared) change :=
  .of_gentle (fun mild => of_objects mild.functions mild.classes
    (mild.objects (Object.lasting_conforms declared))) gentle

theorem enter {draft : Draft} (conforms : draft.object.Conforms declared) (name : String) :
    Preserves (Conforming declared) (World.enter draft name) :=
  of_objects (enter_functions draft name) (enter_classes draft name)
    (enter_objects (Object.lasting_conforms declared) conforms name)

theorem copyFields (id : Nat) {source : Draft} (conforms : source.object.Conforms declared) :
    Preserves (Conforming declared) (World.copyFields id source) :=
  of_objects (fun _ => rfl) (fun _ => rfl) fun _ each =>
    each.update id fun _ own => own.copyFieldsFrom conforms

theorem define (layer : Layer) (name : Symbol) {target : Callable} (fair : target.Fair declared) :
    Preserves (Conforming declared) (World.define layer name target) :=
  fun _ conforming =>
    ⟨(conforming.functions.create layer).define layer name fair, conforming.classes,
      conforming.objects⟩

theorem registerNative (space : Option String) (name : String) (isMethod : Bool) (arity : Arity)
    {code : NativeCode} (fair : (Callable.native isMethod arity code).Fair declared) :
    Preserves (Conforming declared) (World.registerNative space name isMethod arity code) :=
  Preserves.composes.registerNative (fun name => gentle (.mild (.intern name))) space name
    fun layer symbol => define layer symbol fair

/-- A class has the fields of its parent and its own. -/
theorem ofSpec {spec : ClassSpec} (own : ∀ field ∈ spec.fields, declared field)
    {parent : Option ClassInfo}
    (inherited : ∀ info ∈ parent, ∀ field ∈ info.fields, declared field) (name : Symbol) :
    ∀ field ∈ (ClassInfo.ofSpec spec name parent).fields, declared field := by
  intro field member
  rcases List.mem_append.mp member with above | member
  · cases parent with
    | none => exact nomatch above
    | some info => exact inherited info rfl field above
  · exact own field member

/-- A class whose own fields are declared keeps the world conforming: what it inherits comes from a
class that conforms already. -/
theorem registerClass {spec : ClassSpec} (own : ∀ field ∈ spec.fields, declared field) :
    Preserves (Conforming declared) (World.registerClass spec) := by
  intro world conforming
  have apart : Apart fun world : World => world.registry.objects :=
    ⟨⟨fun _ _ => rfl, fun _ _ => rfl⟩, fun _ _ => rfl⟩
  refine ⟨?_, fun name info found => ?_, ?_⟩
  · exact conforming.functions.of_functions (registerClass_functions spec world)
  · change ((World.registerClass spec).run world).2.classes[name]? = some info at found
    rcases registerClass_enters spec world with same | ⟨symbol, parent, above, entered⟩
    · exact conforming.classes name info ((congrArg (·[name]?) same).symm.trans found)
    · rw [entered, Std.TreeMap.getElem?_insert] at found
      split at found
      next =>
        obtain rfl := Option.some.inj found
        refine ofSpec own (fun info is => ?_) symbol
        obtain ⟨key, there⟩ := above info is
        exact conforming.classes key info there
      next => exact conforming.classes name info found
  · exact conforming.objects.of_objects (apart.links.registerClass spec (fun _ _ _ => rfl) world)

/-- The world of a new console conforms if the fields of the built-in classes are declared. -/
theorem new (builtin : ∀ spec ∈ builtinClasses, ∀ field ∈ spec.fields, declared field)
    (config : Config) (serial : Nat) : (World.new config serial).Conforming declared := by
  refine new_induct config serial ?_ (fun spec member => registerClass (builtin spec member))
    fun spec => registerNative _ _ _ _ trivial
  refine ⟨.empty, fun name info found => ?_, fun id object found => ?_⟩
  · exact absurd found (by simp [bare, Registry.empty])
  · exact absurd found (by simp [bare, Registry.empty, Registry.get?])

end Conforming

end World

end ScriptConsole
