import ScriptConsole.Proofs.Console.Conforming
import ScriptConsole.Proofs.Eval.Silence
import ScriptConsole.Proofs.Eval.Upholding

/-! # What fields hold in the consoles of a host

Objects come about in declarations, in snapshots and by a host, and in each case they start with the
defaults of declared fields. What is written to them is admitted by the field that it is written to,
and what is copied was admitted by the field that it comes from. So whatever a fair host does, each
value in a field was admitted by a declared field of the same name and number of elements
(`ScriptConsole.Eval.stored_received`), which need not be the field that holds it
(`ScriptConsole.Eval.stored_stray`).
-/

namespace ScriptConsole

/-- A step of a fair host. -/
def HostStep.Fair (declared : PersistentField → Prop) : HostStep → Prop
  | .ask operation => operation.Fair declared
  | .register _ _ _ _ code => ∀ call, (code call).Fair declared

namespace Eval

variable {α : Type} {declared : PersistentField → Prop}

/-- Functions are those of a fair host, and changes keep all objects conforming. -/
def Terms.conforming (declared : PersistentField → Prop) : Terms where
  callable := Callable.Fair declared
  changes := World.Preserves (World.Conforming declared)
  catches := True
  notes := True
  gentle := World.Conforming.gentle
  define layer name _ _ := World.Conforming.define layer name trivial

/-- A computation keeps all objects conforming if fair functions do. -/
abbrev Conforms (declared : PersistentField → Prop) (program : Evaluator → Eval α)
    (demand : α → Prop) : Prop :=
  Upholds (World.Conforming declared) (Job.Calls (Callable.Fair declared)) program demand

theorem Composed.conforms {inside : Bool} {program : Evaluator → Eval α}
    (composed : Composed (.conforming declared) inside program) :
    Conforms declared program fun _ => True :=
  composed.upholds (fun _ conforming => conforming.functions) id

section Declarations

theorem conforms_declaredClass? (declaration : ObjectDecl) :
    Conforms declared (fun _ => (declaredClass? declaration : Eval (Option ClassInfo)))
      fun class? => ∀ info ∈ class?, ∀ field ∈ info.fields, declared field :=
  .change (World.Conforming.gentle (gentle_declaredClass? declaration))
    fun _ conforming _ is => conforming.classInfo? (classInfo?_of_declaredClass? is)

theorem conforms_copied {draft : Draft} (conforms : draft.object.Conforms declared)
    (source : Option Symbol) :
    Conforms declared (fun _ => (copied draft source : Eval Draft))
      fun draft => draft.object.Conforms declared := by
  refine .change (World.Conforming.gentle (gentle_copied draft source)) fun world conforming => ?_
  rcases copied_cases draft source world with same | ⟨id, object, live, same⟩
  · rw [same]
    exact conforms
  · rw [same]
    exact conforms.copyFieldsFrom (conforming.objects id object live)

/-- A field of a declaration is set through the draft, which admits what its fields hold. A refused
value leaves the draft as it was. -/
theorem conforms_initField (className : Symbol) {draft : Draft}
    (conforms : draft.object.Conforms declared) (field : FieldInit) :
    Conforms declared (fun ev => initField ev className draft field)
      fun draft => draft.object.Conforms declared := by
  refine .bind (composed_expression_job field.value).conforms fun value _ => ?_
  refine .bind (composed_indexText? field.indices).conforms fun index _ => ?_
  cases written : draft.setField field.field.text index value with
  | ok changed => exact .pure (conforms.setField (Draft.setField_object written))
  | error reason =>
      have warned (text : String) : World.Preserves (World.Conforming declared) (World.warn text) :=
        World.Conforming.gentle (.mild (.warn text))
      exact .bind (.keeping (warned _)) fun _ _ => .pure conforms

theorem conforms_initFields (className : Symbol) (fields : List FieldInit) {draft : Draft}
    (conforms : draft.object.Conforms declared) :
    Conforms declared (fun ev => initFields ev className draft fields)
      fun draft => draft.object.Conforms declared := by
  induction fields generalizing draft with
  | nil => exact .pure conforms
  | cons field fields ih => exact .bind (conforms_initField className conforms field) fun _ => ih

theorem conforms_registerObject {draft : Draft} (conforms : draft.object.Conforms declared)
    (name : String) :
    Conforms declared (fun ev => registerObject ev draft name) fun _ => True := by
  refine .bind (.keeping (World.Conforming.enter conforms name)) fun id _ => ?_
  have notified : Composed (.conforming declared) true fun ev => notify ev id "onAdd" :=
    composed_notify id "onAdd"
  exact .bind notified.conforms fun _ _ => .pure trivial

theorem conforms_enterDeclared (isDatablock : Bool) (name : String) {draft : Draft}
    (conforms : draft.object.Conforms declared) :
    Conforms declared (fun ev => enterDeclared ev isDatablock name draft) fun _ => True := by
  refine .reading fun world _ => ?_
  cases redefined? world isDatablock name draft.object.info with
  | none => exact conforms_registerObject conforms name
  | some id =>
      exact .bind (.keeping (World.Conforming.copyFields id conforms)) fun _ _ => .pure trivial

/-- A declared object starts with defaults, takes over the fields of a live one, and gets the values
that are written in the declaration. -/
theorem conforms_drafted (starting : PersistentField.Starting declared)
    (declaration : ObjectDecl) :
    Conforms declared (fun ev => drafted ev declaration)
      fun drafted => ∀ entry ∈ drafted, entry.2.object.Conforms declared := by
  refine .bind (composed_declaredName declaration.name).conforms fun name _ => ?_
  refine .bind (conforms_declaredClass? declaration) fun class? known => ?_
  cases class? with
  | none => exact .pure fun _ absurd => nomatch absurd
  | some info =>
      have start : (Draft.ofClass info).object.Conforms declared :=
        .ofClass starting (known info rfl)
      refine .bind (conforms_copied start declaration.copySource) fun draft conforms => ?_
      refine .bind (conforms_initFields _ declaration.fields conforms) fun draft conforms => ?_
      exact .pure fun entry is => Option.some.inj is ▸ conforms

/-- The object of a declaration starts with the defaults of declared fields, and what is copied or
set later was admitted. -/
theorem conforms_declare (starting : PersistentField.Starting declared)
    (declaration : ObjectDecl) :
    Conforms declared (fun ev => declare ev declaration) fun _ => True := by
  simp only [declare_eq]
  refine .bind (conforms_drafted starting declaration) fun drafted conforms => ?_
  cases drafted with
  | none => exact .pure trivial
  | some entry =>
      refine .bind (conforms_enterDeclared declaration.isDatablock entry.1 (conforms entry rfl))
        fun id _ => ?_
      exact .bind (composed_declareChildren id declaration.children).conforms
        fun _ _ => .pure trivial

end Declarations

section Host

/-- Fields of a snapshot are written like any others, so what they hold was admitted. -/
theorem conforms_restoreFields (className : String) (fields : List FieldSnapshot) {draft : Draft}
    (conforms : draft.object.Conforms declared) :
    Conforms declared
      (fun _ => (fields.foldlM (Snapshot.restoreField className) draft : WorldM Draft))
      fun draft => draft.object.Conforms declared := by
  have restored : World.Gentle (fields.foldlM (Snapshot.restoreField className) draft) :=
    .foldlM (World.gentle_restoreField className) draft
  refine .change (World.Conforming.gentle restored) fun world _ => ?_
  exact restoreFields_induct (fun draft => draft.object.Conforms declared)
    (fun conforms written => conforms.setField (Draft.setField_object written)) className fields
    conforms world

mutual

/-- Restoring a snapshot keeps the world conforming, with the snapshots inside it. -/
theorem conforms_restore (starting : PersistentField.Starting declared) : (snapshot : Snapshot) →
    Conforms declared (fun ev => snapshot.restore ev) fun _ => True
  | ⟨className, name, fields, children⟩ => by
    unfold Snapshot.restore
    refine .reading fun world conforming => ?_
    cases found : world.newObject? className with
    | none => exact .pure trivial
    | some draft =>
        have start := (conforming.newObject? found).conforms starting
        refine .bind (conforms_restoreFields className fields start) fun draft conforms => ?_
        refine .bind (conforms_registerObject conforms _) fun id _ => ?_
        refine .bind (conforms_restoreChildren starting id children) fun restored _ => ?_
        cases restored with
        | ok _ => exact .pure trivial
        | error reason => exact .pure trivial

/-- Restoring the children of a snapshot one after the other keeps the world conforming. -/
theorem conforms_restoreChildren (starting : PersistentField.Starting declared)
    (container : Nat) : (snapshots : List Snapshot) →
      Conforms declared (fun ev => Snapshot.restoreChildren ev container snapshots) fun _ => True
  | [] => by
    unfold Snapshot.restoreChildren
    exact .pure trivial
  | snapshot :: snapshots => by
    unfold Snapshot.restoreChildren
    refine .bind (conforms_restore starting snapshot) fun restored _ => ?_
    cases restored with
    | error reason => exact .pure trivial
    | ok child =>
        have linked : World.Preserves (World.Conforming declared) _ :=
          World.Conforming.gentle (World.gentle_restoreLink container child)
        exact .bind (.keeping linked) fun _ _ =>
          conforms_restoreChildren starting container snapshots

end

variable (starting : PersistentField.Starting declared)
include starting

/-- A fair operation keeps all objects conforming, and gives what a host may rely on. -/
theorem conforms_perform {operation : Operation} (fair : operation.Fair declared) :
    Conforms declared (fun ev => perform ev operation) (operation.Gives declared) := by
  have plain (gives : ∀ answer, operation.Gives declared answer)
      (conforms : Conforms declared (fun ev => perform ev operation) fun _ => True) :
      Conforms declared (fun ev => perform ev operation) (operation.Gives declared) :=
    conforms.weaken fun answer _ => gives answer
  have free (brings : ¬ operation.Brings) :
      Conforms declared (fun ev => perform ev operation) fun _ => True :=
    (composed_operation trivial fun brought => absurd brought brings : Composed _ true _).conforms
  cases operation with
  | registerClass spec =>
      exact .change (World.Conforming.registerClass fair) fun _ _ => trivial
  | register draft name =>
      exact plain (fun _ => trivial) (conforms_registerObject (fair.conforms starting) name)
  | restore snapshot => exact plain (fun _ => trivial) (conforms_restore starting snapshot)
  | newObject className =>
      exact .reading fun world conforming => .pure fun draft is => conforming.newObject? is
  | _ => exact plain (fun _ => trivial) (free id)

/-- A fair program keeps all objects conforming. -/
theorem conforms_runHost {program : HostProgram} (fair : program.Fair declared) :
    Conforms declared (fun ev => runHost ev program) fun _ => True := by
  induction program with
  | done result => exact .pure trivial
  | fail error => exact .throw (.error error)
  | ask operation next ih =>
      obtain ⟨first, rest⟩ := fair
      exact .bind (conforms_perform starting first).attempt fun result gives =>
        ih result (rest result gives)
  | register space name isMethod arity code next _ ih =>
      obtain ⟨calls, rest⟩ := fair
      have registered : World.Preserves (World.Conforming declared)
          (World.registerNative space name isMethod arity (.host code)) :=
        .registerNative space name isMethod arity calls
      exact .bind (.keeping registered) fun _ _ => ih rest

/-- Every job that calls none but fair functions keeps all objects conforming. -/
theorem conforms_step (bound : Nat) (job : Job)
    (fair : job.Calls (Callable.Fair declared)) :
    Conforms declared (fun ev => step bound ev job) fun _ => True := by
  cases job with
  | declare declaration => exact conforms_declare starting declaration
  | call entry arguments =>
      exact upholds_callEntry (.conforming declared) trivial
        (fun _ conforming => conforming.functions) id
        (fun fair call => conforms_runHost starting (fair call)) fair arguments
  | sequence body => exact (composed_statements trivial body).conforms
  | statement stmt => exact (composed_statement trivial bound stmt).conforms
  | expression expr =>
      exact (Composed.withNesting (.node (.evaluation expr) rfl nofun)).conforms
  | evaluation expr => exact (composed_expression expr).conforms
  | delete id => exact (composed_deleteObject id : Composed _ true _).conforms

theorem conforms_take {step : HostStep} (fair : step.Fair declared) :
    Conforms declared (fun ev => take ev step) fun _ => True := by
  cases step with
  | ask operation => exact (conforms_perform starting fair).weaken fun _ _ => trivial
  | register space name isMethod arity code =>
      exact .keeping (.registerNative space name isMethod arity fair)

end Host

section Hosting

variable {own : PersistentField → Prop}

/-- The consoles that a fair host comes to. -/
inductive Hosting (own : PersistentField → Prop) : Console → Prop where
  | new (config : Config) (serial : Nat) : Hosting own (.new config serial)
  | take {console : Console} (hosting : Hosting own console) {step : HostStep}
      (fair : step.Fair (PersistentField.Declared own)) (bound : Nat) :
      Hosting own (ended (take (run bound) step console))

/-- All objects conform in the consoles of a fair host whose fields receive their defaults. -/
theorem Hosting.conforming_of (starting : PersistentField.Starting (PersistentField.Declared own))
    {console : Console} (hosting : Hosting own console) :
    console.world.Conforming (PersistentField.Declared own) := by
  induction hosting with
  | new config serial =>
      rw [Console.new_world]
      exact .new (fun spec builtin field member => .inr ⟨spec, builtin, member⟩) config serial
  | @take console hosting step fair bound ih =>
      have finish := Passes.finish bound (fun ev => Eval.take ev step) console
      exact finish.upheld (conforms_step starting) (conforms_take starting fair) ih

variable (sound : ∀ field, own field → field.Sound)
include sound

/-- If defaults are of their types, all objects conform. -/
theorem Hosting.conforming {console : Console} (hosting : Hosting own console) :
    console.world.Conforming (PersistentField.Declared own) :=
  hosting.conforming_of (PersistentField.sound_declared sound)

/-- At every point of what a fair host does, a value in a field of an object was admitted by a
declared field of the same name and number of elements. The field itself admits it if it admits
all that such fields do. -/
theorem stored_received {console : Console} (hosting : Hosting own console) {step : HostStep}
    (fair : step.Fair (PersistentField.Declared own)) {bound : Nat} {point : Console}
    (passes : Passes bound (fun ev => take ev step) console point) {id : Nat} {object : Object}
    (live : point.world.registry.get? id = some object) {position element : Nat}
    {field : PersistentField} {value : Value}
    (there : object.info.fields[position]? = some field)
    (stored : object.stored? position element = some value) :
    field.Receives (PersistentField.Declared own) value ∧
      ((∀ other : PersistentField, other.Declared own → field.Alike other →
        ∀ value, other.Admits value → field.Admits value) → field.Admits value) := by
  have upholds := conforms_take (PersistentField.sound_declared sound) fair
  have conforming : point.world.Conforming (PersistentField.Declared own) :=
    passes.upheld (conforms_step (PersistentField.sound_declared sound)) upholds
      (hosting.conforming sound)
  have receives := (conforming.objects id object live).stored there stored
  refine ⟨receives, fun admits => ?_⟩
  obtain ⟨other, known, alike, given⟩ := receives
  exact admits other known alike value given

end Hosting

section Copies

/-- A class with a field for texts. -/
def textClass : ClassSpec :=
  (ClassSpec.plain "Src").withField (.single "x" .text)

/-- A class with a field of the same name for integers. -/
def numberClass : ClassSpec :=
  (ClassSpec.plain "Dst").withField (.single "x" .int)

/-- The fields of the two classes. -/
def copiedFields (field : PersistentField) : Prop :=
  field ∈ textClass.fields ++ numberClass.fields

/-- An object of one class is declared as a copy of an object of the other. -/
def copyStep : HostStep :=
  .ask (.evaluate "new Src(B) \x7b x = \"abc\"; \x7d; new Dst(A : B);")

/-- A new console with the two classes. -/
@[irreducible] def copyingConsole : Console :=
  ended (take (run 40) (.ask (.registerClass numberClass))
    (ended (take (run 40) (.ask (.registerClass textClass)) (.new {} 0))))

/-- The console after the objects were declared. -/
@[irreducible] def copiedConsole : Console :=
  ended (take (run 40) copyStep copyingConsole)

private theorem sound_copiedFields (field : PersistentField) (known : copiedFields field) :
    field.Sound := by
  rcases List.mem_pair.mp known with rfl | rfl
  · exact PersistentField.sound_single "x" .text
  · exact PersistentField.sound_single "x" .int

private theorem hosting_copyingConsole : Hosting copiedFields copyingConsole := by
  have text :
      (HostStep.ask (.registerClass textClass)).Fair (PersistentField.Declared copiedFields) :=
    fun _ member => .inl (List.mem_append_left _ member)
  have number :
      (HostStep.ask (.registerClass numberClass)).Fair (PersistentField.Declared copiedFields) :=
    fun _ member => .inl (List.mem_append_right _ member)
  unfold copyingConsole
  exact .take (.take (.new {} 0) text 40) number 40

/-- Whether the copy holds a text in a field for integers. -/
private def holdsText (console : Console) : Bool :=
  ((console.world.findObject? "A").bind console.world.registry.get?).any fun object =>
    (object.info.fields[0]?).any (fun field => field.type = .int ∧ field.setter.isNone) &&
      object.stored? 0 0 = some (.text "abc")

/-- The console of the sample holds a text in a field of integers that has no setter. -/
private theorem copied_holds :
    ∃ id object field, copiedConsole.world.registry.get? id = some object ∧
      object.info.fields[0]? = some field ∧ field.type = .int ∧ field.setter = none ∧
        object.stored? 0 0 = some (.text "abc") := by
  have holds : holdsText copiedConsole = true := by decide +kernel
  obtain ⟨object, found, holds⟩ := (Option.any_eq_true _ _).mp holds
  obtain ⟨id, _, live⟩ := Option.bind_eq_some_iff.mp found
  obtain ⟨typed, stored⟩ := (Bool.and_eq_true _ _).mp holds
  obtain ⟨field, there, typed⟩ := (Option.any_eq_true _ _).mp typed
  obtain ⟨type, setter⟩ := of_decide_eq_true typed
  exact ⟨id, object, field, live, there, type, Option.isNone_iff_eq_none.mp setter,
    of_decide_eq_true stored⟩

/-- The text in the copy was admitted by the field for texts. -/
theorem stored_received_copied :
    ∃ id object field, copiedConsole.world.registry.get? id = some object ∧
      object.info.fields[0]? = some field ∧
        field.Receives (PersistentField.Declared copiedFields) (.text "abc") := by
  obtain ⟨id, object, field, live, there, _, _, stored⟩ := copied_holds
  have fair : copyStep.Fair (PersistentField.Declared copiedFields) := trivial
  have finish := Passes.finish 40 (fun ev => take ev copyStep) copyingConsole
  have ends := live
  unfold copiedConsole at ends
  refine ⟨id, object, field, live, there, ?_⟩
  exact (stored_received sound_copiedFields hosting_copyingConsole fair finish ends there stored).1

/-- In a console of a fair host, a field for integers without a setter holds a text that it does
not admit. -/
theorem stored_stray :
    Hosting copiedFields copiedConsole ∧
      ∃ id object field, copiedConsole.world.registry.get? id = some object ∧
        object.info.fields[0]? = some field ∧ field.type = .int ∧ field.setter = none ∧
          object.stored? 0 0 = some (.text "abc") ∧ ¬ field.Admits (.text "abc") := by
  have fair : copyStep.Fair (PersistentField.Declared copiedFields) := trivial
  refine ⟨?_, ?_⟩
  · unfold copiedConsole
    exact .take hosting_copyingConsole fair 40
  · obtain ⟨id, object, field, live, there, type, setter, stored⟩ := copied_holds
    refine ⟨id, object, field, live, there, type, setter, stored, ?_⟩
    unfold PersistentField.Admits
    rw [setter, type]
    simp [FieldType.coerce]

end Copies

end Eval

end ScriptConsole
