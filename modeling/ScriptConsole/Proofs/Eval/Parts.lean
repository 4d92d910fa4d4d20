import ScriptConsole.Proofs.Eval.Composition

/-! # The parts of evaluation

All parts of evaluation are put together from the constructs, one part from the other, up
to the step that does a job (`ScriptConsole.Eval.composed_step`) and the operations of
the host (`ScriptConsole.Eval.composed_perform`).
-/

namespace ScriptConsole

/-- An operation of the host brings in classes or objects itself. -/
def Operation.Brings : Operation → Prop
  | .registerClass _ | .register _ _ | .restore _ => True
  | _ => False

namespace Eval

variable {terms : Terms} {inside : Bool} {α : Type}

theorem composed_expression_job (expr : Expr) :
    Composed terms true fun ev => ev (.expression expr) :=
  .node (.expression expr) rfl nofun

theorem composed_warn (text : String) :
    Composed terms inside fun _ => (World.warn text : Eval Unit) :=
  .mild (.warn text)

section Places

theorem composed_values (exprs : List Expr) : Composed terms true fun ev => values ev exprs := by
  induction exprs with
  | nil => exact .pure []
  | cons expr exprs ih =>
      exact .bind (composed_expression_job expr) fun value => .bind ih fun rest => .pure _

theorem composed_indexText (indices : List Expr) :
    Composed terms true fun ev => indexText ev indices :=
  .bind (composed_values indices) fun _ => .pure _

theorem composed_indexText? (indices : List Expr) :
    Composed terms true fun ev => indexText? ev indices := by
  unfold indexText?
  split
  · exact .pure none
  · exact .bind (composed_indexText indices) fun text => .pure (some text)

theorem composed_variableName (name : Symbol) (indices : List Expr) :
    Composed terms true fun ev => variableName ev name indices := by
  refine .bind (composed_indexText? indices) fun index => ?_
  cases index with
  | none => exact .pure name
  | some index => exact .mild ((.intern (name.text ++ index)))

/-- Places are found by evaluating the indices and the object of the target. -/
theorem composed_place (target : Expr) : Composed terms true fun ev => place ev target := by
  cases target with
  | «variable» mark scope name indices =>
      refine .bind (composed_variableName name indices) fun name => ?_
      cases scope with
      | ofCall => exact .pure _
      | ofConsole => exact .pure _
  | slot mark object field indices =>
      refine .bind (composed_expression_job object) fun object => ?_
      exact .bind (composed_indexText? indices) fun index => .pure _
  | _ => exact .fail .notAssignable

theorem gentle_readField (object : Value) (field : Symbol) (index : Option String) :
    World.Gentle (readField object field index) := by
  refine .reading (fun _ _ _ _ => rfl) fun world => ?_
  cases world.findByValue? object with
  | none => exact .bind (.mild (.warn _)) fun _ => .pure _
  | some id => exact .pure _

theorem gentle_writeField (object : Value) (field : Symbol) (index : Option String)
    (value : Value) : World.Gentle (writeField object field index value) := by
  refine .reading (fun _ _ _ _ => rfl) fun world => ?_
  cases world.findByValue? object with
  | none => exact .mild (.warn _)
  | some id =>
      refine .bind (.mild (.setField id field.text index value)) fun written => ?_
      cases written with
      | ok _ => exact .pure ()
      | error reason => exact .mild (.warn _)

theorem composed_read (target : Place) : Composed terms true fun _ => read target := by
  cases target with
  | ofCall name =>
      refine .readingCall ?_ fun console _ => .pure (console.getLocal name)
      intro console other config sink log top same
      unfold Console.getLocal
      rw [top]
  | ofConsole name =>
      exact .reading (fun _ _ _ _ => rfl) fun world _ => .pure (world.getGlobal name)
  | field object field index => exact .gentle (gentle_readField object field index)

theorem composed_write (value : Value) (target : Place) :
    Composed terms true fun _ => write value target := by
  cases target with
  | ofCall name => exact .updateCall _ (.inr fun _ => rfl)
  | ofConsole name => exact .mild (.setGlobal name value)
  | field object field index => exact .gentle (gentle_writeField object field index value)

end Places

section Calls

theorem composed_bodyResult (name : String) (completion : Completion) :
    Composed terms inside fun _ => (bodyResult name completion : Eval Value) := by
  cases completion with
  | «return» value => exact .pure value
  | normal => exact .pure _
  | «break» => exact .gentle (.bind (.mild (.warn _)) fun _ => .pure _)
  | «continue» => exact .gentle (.bind (.mild (.warn _)) fun _ => .pure _)

theorem composed_execute (notes : terms.notes) (script : Script) :
    Composed terms inside fun ev => execute ev script :=
  .bind (.withFrame _ (.node (.sequence script.root) rfl fun _ => notes)) fun completion =>
    composed_bodyResult script.filename completion

theorem composed_evaluate (notes : terms.notes) (source : String) :
    Composed terms inside fun ev => evaluate ev source := by
  refine .bind (.mild (.compile unnamedFile source)) fun compiled => ?_
  cases compiled with
  | error diagnostic => exact .pure _
  | ok script => exact .bind (composed_execute notes script) fun result => .pure _

theorem composed_callScript (notes : terms.notes) (entry : Entry Callable) (filename : String)
    (definition : FunctionDef) (arguments : List Value) :
    Composed terms inside fun ev => callScript ev entry filename definition arguments :=
  .bind (.withFrame _ (.node (.statement (.block definition.body)) rfl fun _ => notes))
    fun completion => composed_bodyResult _ completion

/-- Functions that there may be are called. -/
theorem composed_calling {entry : Entry Callable} (allowed : terms.callable entry.target)
    (arguments : List Value) : Composed terms inside fun ev => ev (.call entry arguments) :=
  .job (.call entry arguments) (fun absurd => Bool.noConfusion absurd) allowed nofun

theorem composed_call_job {hosted : Prop} {entry : Entry Callable}
    (allowed : entry.target.IsHosted → hosted) (arguments : List Value) :
    Composed (.hosted hosted) inside fun ev => ev (.call entry arguments) :=
  composed_calling allowed arguments

theorem composed_delete_job (id : Nat) : Composed terms inside fun ev => ev (.delete id) :=
  .job (.delete id) (fun absurd => Bool.noConfusion absurd) trivial nofun

theorem composed_callFunction (name : String) (arguments : List Value) :
    Composed terms inside fun ev => callFunction ev name arguments := by
  refine .reading (fun _ _ _ _ => rfl) fun world allowed => ?_
  split
  next entry found => exact composed_calling (World.functionNamed?_each allowed found) arguments
  next => exact .bind (composed_warn _) fun _ => .pure _

theorem composed_sendTo (id : Nat) (method : Symbol) (arguments : List Value) :
    Composed terms inside fun ev => sendTo ev id method arguments := by
  refine .reading (fun _ _ _ _ => rfl) fun world allowed => ?_
  cases world.registry.get? id with
  | none => exact .pure _
  | some object =>
      simp only
      cases found : world.functionIn? object.layer method with
      | none => exact .bind (composed_warn _) fun _ => .pure _
      | some entry => exact composed_calling (World.functionIn?_each allowed found) arguments

theorem composed_callMethod (id : Nat) (method : String) (arguments : List Value) :
    Composed terms inside fun ev => callMethod ev id method arguments := by
  refine .reading (fun _ _ _ _ => rfl) fun world _ => ?_
  split
  · exact .bind (.mild (.intern method)) fun method => composed_sendTo id method _
  · exact .bind (composed_warn _) fun _ => .pure _

end Calls

section Objects

theorem composed_notify (id : Nat) (name : String) :
    Composed terms inside fun ev => notify ev id name := by
  refine .reading (fun _ _ _ _ => rfl) fun world allowed => ?_
  cases found : world.methodOf? id name with
  | none => exact .pure ()
  | some entry => exact (composed_calling (World.methodOf?_each allowed found) _).discard

theorem composed_registerObject (free : terms.Open) (draft : Draft) (name : String) :
    Composed terms inside fun ev => registerObject ev draft name :=
  .bind (.change (free.enter draft name)) fun id =>
    .bind (composed_notify id "onAdd") fun _ => .pure id

theorem composed_releaseChildren (deletes : Bool) (children : List Nat) :
    Composed terms inside fun ev => releaseChildren ev deletes children := by
  induction children with
  | nil => exact .pure ()
  | cons child children ih =>
      cases deletes with
      | true => exact .bind (composed_delete_job child).discard fun _ => ih
      | false => exact .bind (.mild (.detach child)) fun _ => ih

/-- Deleting an object is put together from its calls, the deletions of its children and changes of
the world. -/
theorem composed_deleteObject (id : Nat) : Composed terms inside fun ev => deleteObject ev id := by
  refine .reading (fun _ _ _ _ => rfl) fun world _ => ?_
  split
  · exact .pure false
  · refine .bind (composed_notify id "onRemove") fun _ => ?_
    refine .reading (fun _ _ _ _ => rfl) fun world _ => ?_
    cases world.registry.get? id with
    | none => exact .pure true
    | some object =>
        refine .bind (composed_releaseChildren _ _) fun _ => ?_
        exact .bind (.mild (.remove id)) fun _ => .pure true

theorem gentle_declaredClass? (declaration : ObjectDecl) :
    World.Gentle (declaredClass? declaration) := by
  refine .reading (fun _ _ _ _ => rfl) fun world => ?_
  cases world.classInfo? declaration.className.text with
  | none => exact .bind (.mild (.warn _)) fun _ => .pure none
  | some info =>
      simp only
      split
      · exact .bind (.mild (.warn _)) fun _ => .pure none
      · exact .pure (some info)

/-- A declaration is of a class that is found by its name. -/
theorem classInfo?_of_declaredClass? {declaration : ObjectDecl} {world : World} {info : ClassInfo}
    (declares : ((declaredClass? declaration).run world).1 = some info) :
    world.classInfo? declaration.className.text = some info := by
  unfold declaredClass? at declares
  rw [StateT.run_bind, StateT.run_get] at declares
  simp only [pure_bind] at declares
  cases found : world.classInfo? declaration.className.text with
  | none =>
      rw [found] at declares
      cases declares
  | some other =>
      rw [found] at declares
      simp only at declares
      split at declares
      · cases declares
      · exact declares

theorem gentle_copied (draft : Draft) (source : Option Symbol) :
    World.Gentle (copied draft source) := by
  cases source with
  | none => exact .pure draft
  | some source =>
      refine .reading (fun _ _ _ _ => rfl) fun world => ?_
      cases (world.findObject? source.text).bind world.registry.get? with
      | none => exact .bind (.mild (.warn _)) fun _ => .pure draft
      | some object => exact .pure _

/-- What a declaration copies from is a live object. -/
theorem copied_cases (draft : Draft) (source : Option Symbol) (world : World) :
    ((copied draft source).run world).1 = draft ∨
      ∃ id object, world.registry.get? id = some object ∧
        ((copied draft source).run world).1 = draft.copyFieldsFrom object := by
  cases source with
  | none => exact .inl rfl
  | some source =>
      unfold copied
      rw [StateT.run_bind, StateT.run_get]
      simp only [pure_bind]
      cases found : (world.findObject? source.text).bind world.registry.get? with
      | none => exact .inl rfl
      | some object =>
          obtain ⟨id, _, live⟩ := Option.bind_eq_some_iff.mp found
          exact .inr ⟨id, object, live, rfl⟩

theorem composed_initField (className : Symbol) (draft : Draft) (field : FieldInit) :
    Composed terms true fun ev => initField ev className draft field := by
  refine .bind (composed_expression_job field.value) fun value => ?_
  refine .bind (composed_indexText? field.indices) fun index => ?_
  cases draft.setField field.field.text index value with
  | ok changed => exact .pure changed
  | error reason => exact .bind (composed_warn _) fun _ => .pure draft

theorem composed_initFields (className : Symbol) (fields : List FieldInit) (draft : Draft) :
    Composed terms true fun ev => initFields ev className draft fields := by
  induction fields generalizing draft with
  | nil => exact .pure draft
  | cons field fields ih => exact .bind (composed_initField className draft field) ih

theorem composed_enterDeclared (free : terms.Open) (isDatablock : Bool) (name : String)
    (draft : Draft) :
    Composed terms inside fun ev => enterDeclared ev isDatablock name draft := by
  refine .reading (fun _ _ _ _ => rfl) fun world allowed => ?_
  cases redefined? world isDatablock name draft.object.info with
  | none => exact composed_registerObject free draft name
  | some id =>
      exact .bind (.change (free.copyFields id draft)) fun _ => .pure id

/-- The declarations inside of a declaration are done one after the other, and each child goes into
the container if it can. -/
theorem composed_declareChildren (container : Nat) (declarations : List ObjectDecl) :
    Composed terms true fun ev => declareChildren ev container declarations := by
  induction declarations with
  | nil => exact .pure ()
  | cons declaration declarations ih =>
      refine .bind (.node (.declare declaration) rfl nofun) fun child => ?_
      cases child with
      | none => exact ih
      | some child =>
          refine .bind (.mild (.addChild container child)) fun added => ?_
          cases added with
          | ok _ => exact ih
          | error reason => exact .bind (composed_warn _) fun _ => ih

theorem composed_declaredName (name : Option Expr) :
    Composed terms true fun ev => declaredName ev name := by
  cases name with
  | none => exact .pure _
  | some name => exact .bind (composed_expression_job name) fun value => .pure _

/-- A declaration evaluates its name and fields, enters the draft and goes on with the declarations
inside it. -/
theorem composed_declare (free : terms.Open) (declaration : ObjectDecl) :
    Composed terms true fun ev => declare ev declaration := by
  refine .bind (composed_declaredName declaration.name) fun name => ?_
  refine .bind (.gentle (gentle_declaredClass? declaration)) fun class? => ?_
  cases class? with
  | none => exact .pure none
  | some info =>
      refine .bind (.gentle (gentle_copied _ declaration.copySource)) fun draft => ?_
      refine .bind (composed_initFields _ declaration.fields draft) fun draft => ?_
      refine .bind (composed_enterDeclared free declaration.isDatablock name draft) fun id => ?_
      exact .bind (composed_declareChildren id declaration.children) fun _ => .pure (some id)

end Objects

section Expressions

/-- An assignment finds its place first, reads it if it is a compound one, and then evaluates its
value. -/
theorem composed_assign (op : AssignOp) (target value : Expr) :
    Composed terms true fun ev => assign ev op target value := by
  refine .bind (composed_place target) fun target => ?_
  cases op.combines? with
  | none =>
      refine .bind (composed_expression_job value) fun result => ?_
      exact .bind (composed_write result target) fun _ => .pure result
  | some op =>
      refine .bind (composed_read target) fun current => ?_
      refine .bind (composed_expression_job value) fun value => ?_
      refine .bind (.pure _) fun result => ?_
      exact .bind (composed_write result target) fun _ => .pure result

theorem composed_truth (expr : Expr) : Composed terms true fun ev => truth ev expr :=
  .bind (composed_expression_job expr) fun value => .pure value.toBool

/-- The logical operators evaluate their second operand only where the first leaves the result open.
-/
theorem composed_binary (op : BinaryOp) (left right : Expr) :
    Composed terms true fun ev => binary ev op left right := by
  unfold binary
  split
  · refine .bind (composed_truth left) fun passed => ?_
    cases passed with
    | true => exact .bind (composed_truth right) fun result => .pure _
    | false => exact .pure _
  · refine .bind (composed_truth left) fun passed => ?_
    cases passed with
    | true => exact .pure _
    | false => exact .bind (composed_truth right) fun result => .pure _
  · refine .bind (composed_expression_job left) fun left => ?_
    exact .bind (composed_expression_job right) fun right => .pure _

theorem composed_unary (op : UnaryOp) (operand : Expr) :
    Composed terms true fun ev => unary ev op operand := by
  unfold unary
  split
  · refine .bind (composed_place operand) fun target => ?_
    refine .bind (composed_read target) fun old => ?_
    refine .bind (composed_write _ target) fun _ => ?_
    split <;> exact .pure _
  · exact .bind (composed_expression_job operand) fun value => .pure _

theorem gentle_literal (value : Literal) : World.Gentle (literal value) := by
  cases value with
  | tagged constant =>
      refine .reading (fun _ _ _ _ => rfl) fun world => ?_
      cases world.tags.find? constant.text with
      | none => exact .bind (.mild (.tag constant.text)) fun id => .pure _
      | some id => exact .pure _
  | _ => exact .pure _

/-- A function that a callee names has what all functions have. -/
theorem callee?_each {property : Callable → Prop} {console : Console} {callee : Callee}
    {entry : Entry Callable} (each : console.world.spaces.Each property)
    (found : callee? console callee = some entry) : property entry.target := by
  cases callee with
  | global name => exact World.functionIn?_each each found
  | qualified space name =>
      obtain ⟨layer, _, found⟩ := Option.bind_eq_some_iff.mp found
      exact World.functionIn?_each each found
  | parent name =>
      obtain ⟨layer, _, found⟩ := Option.bind_eq_some_iff.mp found
      exact each.resolveAfter? found

/-- A call depends on the innermost one through the layer that runs alone, so that is all that is
read of it. -/
theorem composed_call (callee : Callee) (arguments : List Expr) :
    Composed terms true fun ev => call ev callee arguments := by
  refine .bind (composed_values arguments) fun arguments => ?_
  refine .readingCall ?_ fun console allowed => ?_
  · intro console other config sink log top same
    have found : callee? other callee = callee? console callee := by
      unfold callee? Console.currentLayer?
      rw [top, same]
      rfl
    rw [found]
  · cases found : callee? console callee with
    | none => exact .bind (composed_warn _) fun _ => .pure _
    | some entry => exact composed_calling (callee?_each allowed found) arguments

theorem composed_send (object : Expr) (method : Symbol) (arguments : List Expr) :
    Composed terms true fun ev => send ev object method arguments := by
  refine .bind (composed_expression_job object) fun object => ?_
  refine .bind (composed_values arguments) fun arguments => ?_
  refine .reading (fun _ _ _ _ => rfl) fun world _ => ?_
  cases world.findByValue? object with
  | none => exact .bind (composed_warn _) fun _ => .pure _
  | some id => exact composed_sendTo id method _

/-- Every expression is put together from the constructs inside the innermost call. -/
theorem composed_expression (expr : Expr) : Composed terms true fun ev => expression ev expr := by
  cases expr with
  | assign mark op target value => exact composed_assign op target value
  | conditional mark test yes no =>
      refine .bind (composed_truth test) fun passed => ?_
      cases passed with
      | true => exact composed_expression_job yes
      | false => exact composed_expression_job no
  | binary mark op left right => exact composed_binary op left right
  | unary mark op operand => exact composed_unary op operand
  | literal mark value => exact .gentle (gentle_literal value)
  | «variable» mark scope name indices =>
      exact .bind (composed_place (.variable mark scope name indices)) composed_read
  | slot mark object field indices =>
      exact .bind (composed_place (.slot mark object field indices)) composed_read
  | call mark callee arguments => exact composed_call callee arguments
  | send mark object method arguments => exact composed_send object method arguments
  | object declaration =>
      exact .bind (.node (.declare declaration) rfl nofun) fun id => .pure _
  | detag mark operand =>
      refine .bind (composed_expression_job operand) fun value => ?_
      exact .reading (fun _ _ _ _ => rfl) fun world _ => .pure _

end Expressions

section Statements

theorem composed_statement_job (notes : terms.notes) (stmt : Stmt) :
    Composed terms true fun ev => ev (.statement stmt) :=
  .node (.statement stmt) rfl fun _ => notes

theorem composed_statements (notes : terms.notes) (body : List Stmt) :
    Composed terms true fun ev => statements ev body := by
  induction body with
  | nil => exact .pure Completion.normal
  | cons stmt rest ih =>
      refine .bind (composed_statement_job notes stmt) fun completion => ?_
      cases completion with
      | normal => exact ih
      | _ => exact .pure _

theorem composed_passes (test : Option Expr) : Composed terms true fun ev => passes ev test := by
  cases test with
  | none => exact .pure true
  | some test => exact composed_truth test

theorem composed_runBody (notes : terms.notes) (body : Stmt) :
    Composed terms true fun ev => runBody ev body := by
  refine .bind (composed_statement_job notes body) fun completion => ?_
  cases completion with
  | _ => exact .pure _

/-- A round of a loop is its test, unless it is skipped, and its body. -/
theorem composed_loopRound (notes : terms.notes) (test : Expr) (body : Stmt) (skipsTest : Bool) :
    Composed terms true fun ev => loopRound ev test body skipsTest := by
  have begun {next : Bool → Evaluator → Eval (Round Bool Completion)}
      (rest : ∀ goesOn, Composed terms true (next goesOn)) : Composed terms true fun ev =>
        if skipsTest then pure true >>= fun goesOn => next goesOn ev
        else truth ev test >>= fun goesOn => next goesOn ev := by
    cases skipsTest with
    | true => exact .bind (.pure true) rest
    | false => exact .bind (composed_truth test) rest
  refine begun fun goesOn => ?_
  cases goesOn with
  | true =>
      refine .bind (composed_runBody notes body) fun ended => ?_
      cases ended with
      | none => exact .pure _
      | some completion => exact .pure _
  | false => exact .pure _

theorem composed_effect (expr : Option Expr) : Composed terms true fun ev => effect ev expr := by
  cases expr with
  | none => exact .pure ()
  | some expr => exact (composed_expression_job expr).discard

theorem composed_countRound (notes : terms.notes) (test step : Option Expr) (body : Stmt)
    (state : Unit) :
    Composed terms true fun ev => countRound ev test step body state := by
  refine .bind (composed_passes test) fun passed => ?_
  cases passed with
  | true =>
      refine .bind (composed_runBody notes body) fun ended => ?_
      cases ended with
      | none => exact .bind (composed_effect step) fun _ => .pure _
      | some completion => exact .pure _
  | false => exact .pure _

theorem composed_anyMatches (byText : Bool) (subject : Value) (exprs : List Expr) :
    Composed terms true fun ev => anyMatches ev byText subject exprs := by
  induction exprs with
  | nil => exact .pure false
  | cons expr exprs ih =>
      refine .bind (composed_expression_job expr) fun candidate => ?_
      split
      · exact .pure true
      · exact ih

theorem composed_chosen (byText : Bool) (subject : Value) (default : List Stmt)
    (cases : List SwitchCase) :
    Composed terms true fun ev => chosen ev byText subject default cases := by
  induction cases with
  | nil => exact .pure default
  | cons case rest ih =>
      refine .bind (composed_anyMatches byText subject case.values) fun found => ?_
      cases found with
      | true => exact .pure case.body
      | false => exact ih

theorem composed_defineFunction (package : Option Symbol) (definition : FunctionDef) :
    Composed terms true fun _ => defineFunction package definition := by
  refine .readingCall ?_ fun console _ =>
    .change (terms.define _ _ _ _)
  intro console other config sink log top same
  unfold Console.currentFile
  rw [top]

/-- Every statement is put together from the constructs. The loops come to as many rounds as the
bound allows. -/
theorem composed_runStatement (notes : terms.notes) (bound : Nat) (stmt : Stmt) :
    Composed terms true fun ev => runStatement bound ev stmt := by
  cases stmt with
  | block body => exact composed_statements notes body.statements
  | expression mark value =>
      exact .bind (composed_expression_job value) fun _ => .pure Completion.normal
  | branch mark test yes no =>
      refine .bind (composed_truth test) fun passed => ?_
      cases passed with
      | true => exact composed_statement_job notes yes
      | false =>
          cases no with
          | none => exact .pure Completion.normal
          | some no => exact composed_statement_job notes no
  | loop mark testsLast test body =>
      exact .rounds (composed_loopRound notes test body) bound testsLast
  | count mark initial test step body =>
      refine .bind (composed_effect initial) fun _ => ?_
      exact .rounds (composed_countRound notes test step body) bound ()
  | «break» mark => exact .pure _
  | «continue» mark => exact .pure _
  | «return» mark value =>
      cases value with
      | none => exact .pure _
      | some value => exact .bind (composed_expression_job value) fun value => .pure _
  | switch mark byText subject cases default =>
      refine .bind (composed_expression_job subject) fun subject => ?_
      exact .bind (composed_chosen byText subject (default.getD []) cases)
        (composed_statements notes)
  | function mark definition =>
      exact .bind (composed_defineFunction none definition) fun _ => .pure _
  | package mark name definitions =>
      refine .bind (.forM fun definition => ?_) fun _ => .pure _
      exact composed_defineFunction (some name) definition

theorem composed_statement (notes : terms.notes) (bound : Nat) (stmt : Stmt) :
    Composed terms true fun ev => statement bound ev stmt :=
  .bind (.updateCall _ (.inl notes)) fun _ => composed_runStatement notes bound stmt

end Statements

section Host

/-- What writing fields keeps of a draft holds after fields were restored. -/
theorem restoreFields_induct (property : Draft → Prop)
    (each : ∀ {draft changed : Draft} {name : String} {index : Option String} {value : Value},
      property draft → draft.setField name index value = .ok changed → property changed)
    (className : String) (fields : List FieldSnapshot) {draft : Draft} (holds : property draft)
    (world : World) :
    property
      ((fields.foldlM (Snapshot.restoreField className) draft : WorldM Draft).run world).1 := by
  induction fields generalizing draft world with
  | nil => exact holds
  | cons field fields ih =>
      have first : property ((Snapshot.restoreField className draft field).run world).1 := by
        unfold Snapshot.restoreField
        cases written : draft.setField field.name field.index (.text field.value) with
        | ok changed => exact each holds written
        | error reason => exact holds
      rw [List.foldlM_cons]
      exact ih first _

mutual

/-- Restoring a snapshot is put together from changes of the world and the calls of the objects that
come about. -/
theorem composed_restore (free : terms.Open) : (snapshot : Snapshot) →
    Composed terms inside fun ev => snapshot.restore ev
  | ⟨className, name, fields, children⟩ => by
    unfold Snapshot.restore
    refine .reading (fun _ _ _ _ => rfl) fun world _ => ?_
    cases world.newObject? className with
    | none => exact .pure _
    | some draft =>
        have written : World.Gentle (fields.foldlM (Snapshot.restoreField className) draft) :=
          .foldlM (World.gentle_restoreField className) draft
        refine .bind (.gentle written) fun draft => ?_
        refine .bind (composed_registerObject free draft (name.getD "")) fun id => ?_
        refine .bind (composed_restoreChildren free id children) fun restored => ?_
        cases restored with
        | ok _ => exact .pure _
        | error reason => exact .pure _

/-- The children of a snapshot are restored in order and put into their container. -/
theorem composed_restoreChildren (free : terms.Open) (container : Nat) :
    (snapshots : List Snapshot) →
      Composed terms inside fun ev => Snapshot.restoreChildren ev container snapshots
  | [] => by
    unfold Snapshot.restoreChildren
    exact .pure _
  | snapshot :: snapshots => by
    unfold Snapshot.restoreChildren
    refine .bind (composed_restore free snapshot) fun restored => ?_
    cases restored with
    | error reason => exact .pure _
    | ok child =>
        refine .bind (.gentle (World.gentle_restoreLink container child)) fun _ => ?_
        exact composed_restoreChildren free container snapshots

end

/-- All operations of the host leave the calls in progress alone. -/
theorem composed_operation (notes : terms.notes) {operation : Operation}
    (free : operation.Brings → terms.Open) :
    Composed terms inside fun ev => perform ev operation := by
  cases operation with
  | evaluate source => exact composed_evaluate notes source
  | compile filename text => exact .mild (.compile filename text)
  | execute script => exact composed_execute notes script
  | callFunction name arguments => exact composed_callFunction name arguments
  | callMethod id method arguments => exact composed_callMethod id method arguments
  | setGlobal name value => exact .gentle (World.gentle_setGlobalNamed name value)
  | intern name => exact .mild (.intern name)
  | linkNamespaces child parent => exact .mild (.linkNamespaces child parent)
  | registerClass spec => exact .change ((free trivial).registerClass spec)
  | register draft name => exact composed_registerObject (free trivial) draft name
  | delete id => exact composed_delete_job id
  | setField id field index value => exact .mild (.setField id field index value)
  | rename id name => exact .mild (.rename id name)
  | addChild container child => exact .mild (.addChild container child)
  | removeChild container child => exact .gentle (World.gentle_removeChild container child)
  | restore snapshot => exact composed_restore (free trivial) snapshot
  | tag text => exact .mild (.tag text)
  | releaseTag id => exact .mild (.releaseTag id)
  | say text => exact .mild (.say text)
  | setSink sink => exact .mild (.setSink sink)
  | _ => exact .reading (fun _ _ _ _ => rfl) fun world _ => .pure _

theorem composed_perform {hosted : Prop} (operation : Operation) :
    Composed (.hosted hosted) inside fun ev => perform ev operation :=
  composed_operation trivial fun _ => (Terms.free_hosted hosted).toOpen

theorem composed_runHost (free : terms.Free) (caught : terms.catches) (program : HostProgram) :
    Composed terms inside fun ev => runHost ev program := by
  induction program with
  | done result => exact .pure result
  | fail error => exact .throw (.error error)
  | ask operation next ih =>
      exact .bind (.attempt caught (composed_operation free.notes fun _ => free.toOpen)) ih
  | register space name isMethod arity code next _ ih =>
      exact .bind (.change (free.registerNative caught space name isMethod arity code)) fun _ => ih

end Host

section Native

theorem composed_evaluateForScript (notes : terms.notes) (source : String) :
    Composed terms inside fun ev => evaluateForScript ev source := by
  refine .bind (composed_evaluate notes source) fun evaluated => ?_
  cases evaluated with
  | ok result => exact .pure result
  | error diagnostic => exact .bind (composed_warn _) fun _ => .pure _

/-- The children of a container are deleted, or taken out of it, one after the other. -/
theorem composed_clearChildren (container : Nat) (deletes : Bool) (children : List Nat) :
    Composed terms inside fun ev => clearChildren ev container deletes children := by
  induction children with
  | nil => exact .pure ()
  | cons child children ih =>
      cases deletes with
      | true => exact .bind (composed_delete_job child).discard fun _ => ih
      | false =>
          have removed : World.Gentle (World.removeChild container child) :=
            World.gentle_removeChild container child
          exact .bind (Composed.gentle removed).discard fun _ => ih

theorem composed_clear (container : Nat) : Composed terms inside fun ev => clear ev container := by
  refine .reading (fun _ _ _ _ => rfl) fun world _ => ?_
  cases world.registry.get? container with
  | none => exact .pure ()
  | some object => exact composed_clearChildren container _ _

theorem composed_runScriptFunction (notes : terms.notes) (function : ScriptFunction)
    (call : NativeCall) :
    Composed terms inside fun ev => runScriptFunction ev function call := by
  cases function with
  | evaluate => exact composed_evaluateForScript notes _
  | delete => exact .bind (composed_delete_job _) fun _ => .pure _
  | clear => exact .bind (composed_clear _) fun _ => .pure _

theorem composed_runBuiltin (notes : terms.notes) (builtin : Builtin) (call : NativeCall) :
    Composed terms inside fun ev => runNative ev (.builtin builtin) call := by
  cases builtin with
  | onValues function => exact .pure _
  | onConsole function => exact .gentle (World.gentle_consoleFunction function call.arguments)
  | onObject method => exact .gentle (World.gentle_objectMethod method _ call.arguments)
  | onScripts function => exact composed_runScriptFunction notes function call

/-- A native function runs if the object and the number of arguments suit it, and is warned about
otherwise. -/
theorem composed_callNative (name : String) (isMethod : Bool) (arity : Arity) {code : NativeCode}
    (runs : ∀ call, Composed terms inside fun ev => runNative ev code call)
    (arguments : List Value) :
    Composed terms inside fun ev => callNative ev name isMethod arity code arguments := by
  refine .reading ?_ fun world _ => ?_
  · intro world config sink log
    have same : nativeCall? { world with config, sink, log } isMethod arguments =
        nativeCall? world isMethod arguments := rfl
    rw [same]
  · cases nativeCall? world isMethod arguments with
    | none => exact .bind (composed_warn _) fun _ => .pure _
    | some call =>
        simp only
        split
        · exact runs call
        · exact .bind (composed_warn _) fun _ => .pure _

/-- A call of a function that is not one of the host. -/
theorem composed_callOwn (notes : terms.notes) {entry : Entry Callable}
    (own : ¬ entry.target.IsHosted) (arguments : List Value) :
    Composed terms inside fun ev => callEntry ev entry arguments := by
  obtain ⟨layer, name, target⟩ := entry
  cases target with
  | script filename definition => exact composed_callScript notes _ filename definition arguments
  | native isMethod arity code =>
      cases code with
      | builtin builtin =>
          exact composed_callNative _ isMethod arity (composed_runBuiltin notes builtin) arguments
      | host program => exact absurd trivial own

/-- A call of any function that there may be. Those of scripts and built-in ones need no leave to
catch errors, and those of the host have it. -/
theorem composed_callEntry (free : terms.Free) {entry : Entry Callable}
    (allowed : terms.callable entry.target) (arguments : List Value) :
    Composed terms inside fun ev => callEntry ev entry arguments := by
  obtain ⟨layer, name, target⟩ := entry
  cases target with
  | script filename definition => exact composed_callOwn free.notes id arguments
  | native isMethod arity code =>
      cases code with
      | builtin builtin => exact composed_callOwn free.notes id arguments
      | host program =>
          have runs (call : NativeCall) : Composed terms inside fun ev =>
              runHost ev (program call) :=
            composed_runHost free (free.catches allowed) (program call)
          exact composed_callNative _ isMethod arity runs arguments

end Native

/-- A step that does not call a function of the host is put together from the constructs. Calls and
deletions leave the calls in progress alone, and all other jobs work inside the innermost one. -/
theorem composed_step_own (notes : terms.notes) (free : terms.Open) (bound : Nat) {job : Job}
    (own : job.Calls fun target => ¬ target.IsHosted) :
    Composed terms job.isInside fun ev => step bound ev job := by
  cases job with
  | sequence body => exact composed_statements notes body
  | statement stmt => exact composed_statement notes bound stmt
  | expression expr => exact .withNesting (.node (.evaluation expr) rfl nofun)
  | evaluation expr => exact composed_expression expr
  | call entry arguments => exact composed_callOwn notes own arguments
  | declare declaration => exact composed_declare free declaration
  | delete id => exact composed_deleteObject id

/-- Only a call of a function of the host runs one. -/
theorem composed_step_of (free : terms.Free) (bound : Nat) {job : Job}
    (allowed : job.Calls terms.callable) :
    Composed terms job.isInside fun ev => step bound ev job := by
  cases job with
  | call entry arguments => exact composed_callEntry free allowed arguments
  | _ => exact composed_step_own free.notes free.toOpen bound trivial

/-- Without terms on functions, all jobs are allowed. -/
theorem calls_hosted (job : Job) : job.Calls (Terms.hosted True).callable := by
  cases job with
  | call entry arguments => exact fun _ => trivial
  | _ => exact trivial

theorem composed_step (bound : Nat) (job : Job) :
    Composed (.hosted True) job.isInside fun ev => step bound ev job :=
  composed_step_of (Terms.free_hosted True) bound (calls_hosted job)

end Eval

end ScriptConsole
