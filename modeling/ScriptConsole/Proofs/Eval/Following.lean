import ScriptConsole.Proofs.Eval.Guarded
import ScriptConsole.Proofs.Eval.Parts

/-! # Following the nodes of a script

Doing a job whose node is in a closed heap leads to jobs whose nodes are in the same heap, to
calls of proper functions and to deletions (`ScriptConsole.Eval.follows_step`). No expression
that is to be written fails to be a place (`ScriptConsole.Eval.follows_place`).
-/

namespace ScriptConsole

namespace Draft

namespace Fits

variable {strict : Prop} {world : World} {draft : Draft}

/-- What fits in a world fits later. -/
theorem later {after : World} (fits : draft.Fits strict world)
    (ordered : world.Ordered strict after) : draft.Fits strict after where
  arises := fits.arises
  known terms := (congrArg (·[draft.object.info.name]?) ordered.classes).trans (fits.known terms)

theorem setField {changed : Draft} {name : String} {index : Option String} {value : Value}
    (fits : draft.Fits strict world) (written : draft.setField name index value = .ok changed) :
    changed.Fits strict world := by
  have written := setField_object written
  obtain ⟨persistent, dynamic, same⟩ := Object.setField_eq written
  exact ⟨fits.arises.setField written, fun terms => same ▸ fits.known terms⟩

theorem copyFieldsFrom {source : Object} (fits : draft.Fits strict world)
    (arises : source.Arises) : (draft.copyFieldsFrom source).Fits strict world := by
  refine ⟨fits.arises.copyFieldsFrom arises, fun terms => ?_⟩
  obtain ⟨persistent, dynamic, same⟩ := draft.object.copyFieldsFrom_eq source
  change world.registry.classes[(draft.object.copyFieldsFrom source).info.name]? =
    some (draft.object.copyFieldsFrom source).info
  rw [same]
  exact fits.known terms

/-- A new object of a class that is found by name fits. -/
theorem ofClass (sane : world.Sane) {name : String} {info : ClassInfo}
    (found : world.classInfo? name = some info) : (Draft.ofClass info).Fits strict world := by
  refine ⟨.ofClass info, fun _ => ?_⟩
  obtain ⟨symbol, _, is⟩ := Option.bind_eq_some_iff.mp found
  change world.registry.classes[info.name]? = some info
  rw [sane.classes symbol info is]
  exact is

end Fits

end Draft

namespace Eval

variable {strict : Prop} {base : World} {fits : Job → Prop} {heap : Heap}

/-- Whatever else fits, calls of proper functions and deletions do. -/
structure Calling (fits : Job → Prop) : Prop where
  call (entry : Entry Callable) (arguments : List Value) :
    entry.target.Proper → fits (.call entry arguments)
  delete (id : Nat) : fits (.delete id)

theorem calling_fits (heap : Heap) : Calling (Job.Fits heap) :=
  ⟨fun _ _ proper => proper, fun _ => trivial⟩

theorem calling_proper : Calling Job.Proper :=
  ⟨fun _ _ proper => proper, fun _ => trivial⟩

section Calls

variable (calling : Calling fits)
include calling

theorem follows_callFunction (name : String) (arguments : List Value) :
    Follows strict fits base fun ev => callFunction ev name arguments := by
  refine .of_sane fun sane => .reading ?_
  split
  next entry found =>
      exact .job _ (calling.call _ _ (World.functionNamed?_each sane.functions found))
  next => exact .andThen (.warn _) fun _ _ _ => .pure trivial

theorem follows_sendTo (id : Nat) (method : Symbol) (arguments : List Value) :
    Follows strict fits base fun ev => sendTo ev id method arguments := by
  refine .of_sane fun sane => .reading ?_
  cases base.registry.get? id with
  | none => exact .pure trivial
  | some object =>
      simp only
      cases found : base.functionIn? object.layer method with
      | none => exact .andThen (.warn _) fun _ _ _ => .pure trivial
      | some entry => exact .job _ (calling.call _ _ (World.functionIn?_each sane.functions found))

theorem follows_callMethod (id : Nat) (method : String) (arguments : List Value) :
    Follows strict fits base fun ev => callMethod ev id method arguments := by
  refine .reading ?_
  split
  · exact .andThen (.gentle (.mild (.intern method))) fun method _ _ =>
      follows_sendTo calling id method _
  · exact .andThen (.warn _) fun _ _ _ => .pure trivial

omit calling in
/-- The result of a body is read off at once. Only a jump that was taken up by no loop is warned
about. -/
theorem follows_bodyResult (name : String) (completion : Completion) :
    Follows strict fits base fun _ => (bodyResult name completion : Eval Value) := by
  have outside : World.Gentle (do
      World.warn (name ++ ": break or continue outside of a loop")
      return Value.empty) :=
    .bind (.mild (.warn _)) fun _ => .pure _
  cases completion with
  | «return» value => exact .pure trivial
  | normal => exact .pure trivial
  | «break» => exact .gentle outside
  | «continue» => exact .gentle outside

theorem follows_notify (id : Nat) (name : String) :
    Follows strict fits base fun ev => notify ev id name := by
  refine .of_sane fun sane => .reading ?_
  cases found : base.methodOf? id name with
  | none => exact .pure trivial
  | some entry =>
      exact (Guarded.job _ (calling.call _ _ (World.methodOf?_each sane.functions found))).discard

theorem follows_registerObject {draft : Draft} (fitting : draft.Fits strict base) (name : String) :
    Follows strict fits base fun ev => registerObject ev draft name := by
  have entered : Follows strict fits base fun _ => (World.enter draft name : Eval Nat) :=
    .change (.single ⟨_, _, .enter fitting name, rfl⟩) trivial
  refine .andThen entered fun id later _ => ?_
  exact .andThen (follows_notify calling id "onAdd") fun _ _ _ => .pure trivial

theorem follows_releaseChildren (deletes : Bool) (children : List Nat) :
    Follows strict fits base fun ev => releaseChildren ev deletes children := by
  induction children generalizing base with
  | nil => exact .pure trivial
  | cons child children ih =>
      cases deletes with
      | true => exact .andThen (Guarded.job _ (calling.delete child)).discard fun _ _ _ => ih
      | false => exact .andThen (.gentle (.mild (.detach child))) fun _ _ _ => ih

/-- Deleting an object tells it, deletes or releases its children and takes it out of the world. -/
theorem follows_deleteObject (id : Nat) :
    Follows strict fits base fun ev => deleteObject ev id := by
  refine .reading ?_
  split
  · exact .pure trivial
  · refine .andThen (follows_notify calling id "onRemove") fun _ later _ => .reading ?_
    cases later.registry.get? id with
    | none => exact .pure trivial
    | some object =>
        refine .andThen (follows_releaseChildren calling _ _) fun _ _ _ => ?_
        exact .andThen (.gentle (.mild (.remove id))) fun _ _ _ => .pure trivial

theorem follows_enterDeclared (isDatablock : Bool) (name : String) {draft : Draft}
    (fitting : draft.Fits strict base) :
    Follows strict fits base fun ev => enterDeclared ev isDatablock name draft := by
  refine .reading ?_
  cases redefined? base isDatablock name draft.object.info with
  | none => exact follows_registerObject calling fitting name
  | some id =>
      have copied : Follows strict fits base fun _ => (World.copyFields id draft : Eval Unit) :=
        .change (.single ⟨_, _, .copyFields id fitting, rfl⟩) trivial
      exact .andThen copied fun _ _ _ => .pure trivial

end Calls

section Nodes

variable (closed : heap.Closed)

/-- A computation in which all further nodes are in the heap. -/
abbrev Stays (strict : Prop) (heap : Heap) (base : World) {α : Type}
    (program : Evaluator → Eval α) : Prop :=
  Follows strict (Job.Fits heap) base program

theorem stays_expression_job {expr : Expr} (has : heap.HasExpr expr) :
    Stays strict heap base fun ev => ev (.expression expr) :=
  .job (.expression expr) has

theorem stays_values {exprs : List Expr} (has : ∀ expr ∈ exprs, heap.HasExpr expr) :
    Stays strict heap base fun ev => values ev exprs := by
  induction exprs generalizing base with
  | nil => exact .pure trivial
  | cons expr exprs ih =>
      obtain ⟨first, rest⟩ := List.forall_mem_cons.mp has
      exact .andThen (stays_expression_job first) fun _ _ _ =>
        .andThen (ih rest) fun _ _ _ => .pure trivial

theorem stays_indexText? {indices : List Expr} (has : ∀ expr ∈ indices, heap.HasExpr expr) :
    Stays strict heap base fun ev => indexText? ev indices := by
  unfold indexText?
  split
  · exact .pure trivial
  · have text : Stays strict heap base fun ev => indexText ev indices :=
      .andThen (stays_values has) fun _ _ _ => .pure trivial
    exact .andThen text fun _ _ _ => .pure trivial

theorem stays_variableName (name : Symbol) {indices : List Expr}
    (has : ∀ expr ∈ indices, heap.HasExpr expr) :
    Stays strict heap base fun ev => variableName ev name indices := by
  refine .andThen (stays_indexText? has) fun index _ _ => ?_
  cases index with
  | none => exact .pure trivial
  | some index => exact .gentle (.mild (.intern (name.text ++ index)))

theorem stays_read (target : Place) : Stays strict heap base fun _ => read target := by
  cases target with
  | ofCall name => exact .readingCall fun console _ => .pure trivial
  | ofConsole name => exact .reading (.pure trivial)
  | field object field index => exact .gentle (gentle_readField object field index)

theorem stays_write (value : Value) (target : Place) :
    Stays strict heap base fun _ => write value target := by
  cases target with
  | ofCall name => exact .updateCall _
  | ofConsole name => exact .gentle (.mild (.setGlobal name value))
  | field object field index => exact .gentle (gentle_writeField object field index value)

include closed

/-- What is a place is found to be one. -/
theorem stays_place {target : Expr} (has : heap.HasExpr target) (isPlace : target.isPlace = true) :
    Stays strict heap base fun ev => place ev target := by
  have parts := closed.expr has
  cases target with
  | «variable» mark scope name indices =>
      refine .andThen (stays_variableName name parts) fun name _ _ => ?_
      cases scope with
      | ofCall => exact .pure trivial
      | ofConsole => exact .pure trivial
  | slot mark object field indices =>
      obtain ⟨hasObject, hasIndices⟩ := parts
      refine .andThen (stays_expression_job hasObject) fun object _ _ => ?_
      exact .andThen (stays_indexText? hasIndices) fun index _ _ => .pure trivial
  | _ => contradiction

omit closed in
theorem stays_truth {expr : Expr} (has : heap.HasExpr expr) :
    Stays strict heap base fun ev => truth ev expr :=
  .andThen (stays_expression_job has) fun _ _ _ => .pure trivial

/-- An assignment whose target is a place stays in the heap: target and value are the only nodes
that it comes to. -/
theorem stays_assign (op : AssignOp) {target value : Expr} (hasTarget : heap.HasExpr target)
    (hasValue : heap.HasExpr value) (isPlace : target.isPlace = true) :
    Stays strict heap base fun ev => assign ev op target value := by
  refine .andThen (stays_place closed hasTarget isPlace) fun target _ _ => ?_
  cases op.combines? with
  | none =>
      refine .andThen (stays_expression_job hasValue) fun result _ _ => ?_
      exact .andThen (stays_write result target) fun _ _ _ => .pure trivial
  | some op =>
      refine .andThen (stays_read target) fun current _ _ => ?_
      refine .andThen (stays_expression_job hasValue) fun value _ _ => ?_
      refine .andThen (.pure trivial) fun result _ _ => ?_
      exact .andThen (stays_write result target) fun _ _ _ => .pure trivial

omit closed in
/-- An operator stays in the heap, whether it evaluates both of its operands or only the first. -/
theorem stays_binary (op : BinaryOp) {left right : Expr} (hasLeft : heap.HasExpr left)
    (hasRight : heap.HasExpr right) :
    Stays strict heap base fun ev => binary ev op left right := by
  unfold binary
  split
  · refine .andThen (stays_truth hasLeft) fun passed _ _ => ?_
    cases passed with
    | true => exact .andThen (stays_truth hasRight) fun _ _ _ => .pure trivial
    | false => exact .pure trivial
  · refine .andThen (stays_truth hasLeft) fun passed _ _ => ?_
    cases passed with
    | true => exact .pure trivial
    | false => exact .andThen (stays_truth hasRight) fun _ _ _ => .pure trivial
  · refine .andThen (stays_expression_job hasLeft) fun left _ _ => ?_
    exact .andThen (stays_expression_job hasRight) fun right _ _ => .pure trivial

/-- An operator on one expression stays in the heap. One that writes needs a place. -/
theorem stays_unary (op : UnaryOp) {operand : Expr} (has : heap.HasExpr operand)
    (isPlace : op.writes = true → operand.isPlace = true) :
    Stays strict heap base fun ev => unary ev op operand := by
  unfold unary
  split
  next writes =>
      refine .andThen (stays_place closed has (isPlace writes)) fun target _ _ => ?_
      refine .andThen (stays_read target) fun old _ _ => ?_
      refine .andThen (stays_write _ target) fun _ _ _ => ?_
      split
      · exact .pure trivial
      · exact .pure trivial
      · exact .pure trivial
  next => exact .andThen (stays_expression_job has) fun value _ _ => .pure trivial

omit closed in
/-- A call evaluates its arguments in the heap, and the function that it finds is proper, as all
functions of a sane world are. -/
theorem stays_call (callee : Callee) {arguments : List Expr}
    (has : ∀ argument ∈ arguments, heap.HasExpr argument) :
    Stays strict heap base fun ev => call ev callee arguments := by
  refine .andThen (stays_values has) fun arguments later _ => .of_sane fun sane => ?_
  refine .readingCall fun console same => ?_
  cases found : callee? console callee with
  | none => exact .andThen (.warn _) fun _ _ _ => .pure trivial
  | some entry =>
      refine .job (.call entry arguments) ?_
      change entry.target.Proper
      subst same
      exact callee?_each sane.functions found

omit closed in
theorem stays_send {object : Expr} (method : Symbol) {arguments : List Expr}
    (hasObject : heap.HasExpr object) (has : ∀ argument ∈ arguments, heap.HasExpr argument) :
    Stays strict heap base fun ev => send ev object method arguments := by
  refine .andThen (stays_expression_job hasObject) fun object _ _ => ?_
  refine .andThen (stays_values has) fun arguments later _ => .reading ?_
  cases later.findByValue? object with
  | none => exact .andThen (.warn _) fun _ _ _ => .pure trivial
  | some id => exact follows_sendTo (calling_fits heap) id method _

/-- Evaluating an expression leads to its parts. -/
theorem stays_expression {expr : Expr} (has : heap.HasExpr expr) :
    Stays strict heap base fun ev => expression ev expr := by
  have parts := closed.expr has
  cases expr with
  | assign mark op target value =>
      obtain ⟨hasTarget, hasValue, isPlace⟩ := parts
      exact stays_assign closed op hasTarget hasValue isPlace
  | conditional mark test yes no =>
      obtain ⟨hasTest, hasYes, hasNo⟩ := parts
      refine .andThen (stays_truth hasTest) fun passed _ _ => ?_
      cases passed with
      | true => exact stays_expression_job hasYes
      | false => exact stays_expression_job hasNo
  | binary mark op left right => exact stays_binary op parts.1 parts.2
  | unary mark op operand => exact stays_unary closed op parts.1 parts.2
  | literal mark value => exact .gentle (gentle_literal value)
  | «variable» mark scope name indices =>
      exact .andThen (stays_place closed has rfl) fun target _ _ => stays_read target
  | slot mark object field indices =>
      exact .andThen (stays_place closed has rfl) fun target _ _ => stays_read target
  | call mark callee arguments => exact stays_call callee parts
  | send mark object method arguments => exact stays_send method parts.1 parts.2
  | object declaration =>
      have declared : Stays strict heap base fun ev => ev (.declare declaration) :=
        .job (.declare declaration) has
      exact .andThen declared fun _ _ _ => .pure trivial
  | detag mark operand =>
      have value : Stays strict heap base fun ev => ev (.expression operand) :=
        stays_expression_job parts
      exact .andThen value fun _ _ _ => .reading (.pure trivial)

end Nodes

section Objects

omit heap in
/-- A declaration is of a class that is found by name. -/
theorem guarded_declaredClass? (declaration : ObjectDecl) :
    Guarded strict fits base (fun _ => (declaredClass? declaration : Eval (Option ClassInfo)))
      fun class? later => ∀ info ∈ class?, (Draft.ofClass info).Fits strict later := by
  refine .of_sane fun sane => ?_
  have ordered := (gentle_declaredClass? declaration).ordered strict base
  refine .change ordered fun info is => Draft.Fits.later ?_ ordered
  exact Draft.Fits.ofClass sane (classInfo?_of_declaredClass? is)

omit heap in
/-- A draft still fits after fields were copied from another object, if there is one of the name. -/
theorem guarded_copied {draft : Draft} (source : Option Symbol) (fitting : draft.Fits strict base) :
    Guarded strict fits base (fun _ => (copied draft source : Eval Draft))
      fun draft later => draft.Fits strict later := by
  refine .of_sane fun sane => ?_
  have ordered := (gentle_copied draft source).ordered strict base
  refine .change ordered (Draft.Fits.later ?_ ordered)
  rcases copied_cases draft source base with same | ⟨id, object, live, same⟩
  · rw [same]
    exact fitting
  · rw [same]
    exact fitting.copyFieldsFrom (sane.objects id object live)

theorem guarded_initField (className : Symbol) {draft : Draft} {field : FieldInit}
    (has : heap.HasField field) (fitting : draft.Fits strict base) :
    Guarded strict (Job.Fits heap) base (fun ev => initField ev className draft field)
      fun draft later => draft.Fits strict later := by
  refine .andThen (stays_expression_job has.value) fun value first before => ?_
  refine .andThen (stays_indexText? has.indices) fun index second between => ?_
  have fitting := fitting.later (before.trans between)
  cases written : draft.setField field.field.text index value with
  | ok changed => exact .pure (fitting.setField written)
  | error reason => exact .andThen (.warn _) fun _ _ after => .pure (fitting.later after)

theorem guarded_initFields (className : Symbol) {fields : List FieldInit} {draft : Draft}
    (has : ∀ field ∈ fields, heap.HasField field) (fitting : draft.Fits strict base) :
    Guarded strict (Job.Fits heap) base (fun ev => initFields ev className draft fields)
      fun draft later => draft.Fits strict later := by
  induction fields generalizing base draft with
  | nil => exact .pure fitting
  | cons field fields ih =>
      obtain ⟨first, rest⟩ := List.forall_mem_cons.mp has
      exact .bind (guarded_initField className first fitting) fun draft _ _ fitting =>
        ih rest fitting

/-- The declarations inside of a declaration are done in order, each in the heap. -/
theorem stays_declareChildren (container : Nat) {declarations : List ObjectDecl}
    (has : ∀ declaration ∈ declarations, heap.HasObject declaration) :
    Stays strict heap base fun ev => declareChildren ev container declarations := by
  induction declarations generalizing base with
  | nil => exact .pure trivial
  | cons declaration declarations ih =>
      obtain ⟨first, rest⟩ := List.forall_mem_cons.mp has
      refine .andThen (.job (.declare declaration) first) fun child? _ _ => ?_
      cases child? with
      | none => exact ih rest
      | some child =>
          refine .andThen (.gentle (.mild (.addChild container child))) fun added _ _ => ?_
          cases added with
          | ok _ => exact ih rest
          | error reason => exact .andThen (.warn _) fun _ _ _ => ih rest

theorem stays_declaredName {name : Option Expr} (has : ∀ expr ∈ name, heap.HasExpr expr) :
    Stays strict heap base fun ev => declaredName ev name := by
  cases name with
  | none => exact .pure trivial
  | some name => exact .andThen (stays_expression_job (has name rfl)) fun _ _ _ => .pure trivial

/-- Declaring an object leads to its parts. -/
theorem stays_declare (closed : heap.Closed) {declaration : ObjectDecl}
    (has : heap.HasObject declaration) :
    Stays strict heap base fun ev => declare ev declaration := by
  have parts := closed.object has
  refine .andThen (stays_declaredName parts.name) fun name _ _ => ?_
  refine .bind (guarded_declaredClass? declaration) fun class? _ _ found => ?_
  cases class? with
  | none => exact .pure trivial
  | some info =>
      refine .bind (guarded_copied declaration.copySource (found info rfl))
        fun draft _ _ fitting => ?_
      refine .bind (guarded_initFields _ parts.fields fitting) fun draft _ _ fitting => ?_
      refine .andThen (follows_enterDeclared (calling_fits heap) _ name fitting) fun id _ _ => ?_
      exact .andThen (stays_declareChildren id parts.children) fun _ _ _ => .pure trivial

end Objects

section Statements

theorem stays_statement_job {stmt : Stmt} (has : heap.HasStmt stmt) :
    Stays strict heap base fun ev => ev (.statement stmt) :=
  .job (.statement stmt) has

theorem stays_statements {stmts : List Stmt} (has : ∀ stmt ∈ stmts, heap.HasStmt stmt) :
    Stays strict heap base fun ev => statements ev stmts := by
  induction stmts generalizing base with
  | nil => exact .pure trivial
  | cons stmt rest ih =>
      obtain ⟨first, others⟩ := List.forall_mem_cons.mp has
      refine .andThen (stays_statement_job first) fun completion _ _ => ?_
      cases completion with
      | normal => exact ih others
      | _ => exact .pure trivial

theorem stays_passes {test : Option Expr} (has : ∀ expr ∈ test, heap.HasExpr expr) :
    Stays strict heap base fun ev => passes ev test := by
  cases test with
  | none => exact .pure trivial
  | some test => exact stays_truth (has test rfl)

theorem stays_runBody {body : Stmt} (has : heap.HasStmt body) :
    Stays strict heap base fun ev => runBody ev body := by
  refine .andThen (stays_statement_job has) fun completion _ _ => ?_
  cases completion with
  | _ => exact .pure trivial

/-- A round of a loop comes to its test and its body alone. -/
theorem stays_loopRound {test : Expr} {body : Stmt} (hasTest : heap.HasExpr test)
    (hasBody : heap.HasStmt body) (skipsTest : Bool) :
    Stays strict heap base fun ev => loopRound ev test body skipsTest := by
  have begun {next : Bool → Evaluator → Eval (Round Bool Completion)}
      (rest : ∀ goesOn later, Stays strict heap later (next goesOn)) :
      Stays strict heap base fun ev =>
        if skipsTest then pure true >>= fun goesOn => next goesOn ev
        else truth ev test >>= fun goesOn => next goesOn ev := by
    cases skipsTest with
    | true => exact .andThen (.pure trivial) fun goesOn later _ => rest goesOn later
    | false => exact .andThen (stays_truth hasTest) fun goesOn later _ => rest goesOn later
  refine begun fun goesOn later => ?_
  cases goesOn with
  | false => exact .pure trivial
  | true =>
      refine .andThen (stays_runBody hasBody) fun ended _ _ => ?_
      cases ended with
      | none => exact .pure trivial
      | some completion => exact .pure trivial

theorem stays_effect {expr : Option Expr} (has : ∀ found ∈ expr, heap.HasExpr found) :
    Stays strict heap base fun ev => effect ev expr := by
  cases expr with
  | none => exact .pure trivial
  | some expr => exact (stays_expression_job (has expr rfl)).discard

/-- A round of a counting loop comes to its test, its body and its step alone. -/
theorem stays_countRound {test step : Option Expr} {body : Stmt}
    (hasTest : ∀ expr ∈ test, heap.HasExpr expr) (hasStep : ∀ expr ∈ step, heap.HasExpr expr)
    (hasBody : heap.HasStmt body) (state : Unit) :
    Stays strict heap base fun ev => countRound ev test step body state := by
  refine .andThen (stays_passes hasTest) fun passed _ _ => ?_
  cases passed with
  | false => exact .pure trivial
  | true =>
      refine .andThen (stays_runBody hasBody) fun ended _ _ => ?_
      cases ended with
      | none => exact .andThen (stays_effect hasStep) fun _ _ _ => .pure trivial
      | some completion => exact .pure trivial

/-- The values of a case are evaluated in the heap, up to the first that matches. -/
theorem stays_anyMatches (byText : Bool) (subject : Value) {exprs : List Expr}
    (has : ∀ expr ∈ exprs, heap.HasExpr expr) :
    Stays strict heap base fun ev => anyMatches ev byText subject exprs := by
  induction exprs generalizing base with
  | nil => exact .pure trivial
  | cons expr exprs ih =>
      obtain ⟨first, rest⟩ := List.forall_mem_cons.mp has
      refine .andThen (stays_expression_job first) fun candidate _ _ => ?_
      split
      · exact .pure trivial
      · exact ih rest

/-- The statements that a switch chooses are its own. -/
theorem guarded_chosen (byText : Bool) (subject : Value) {default : List Stmt}
    {cases : List SwitchCase} (hasDefault : ∀ stmt ∈ default, heap.HasStmt stmt)
    (hasCases : ∀ case ∈ cases, heap.HasCase case) :
    Guarded strict (Job.Fits heap) base (fun ev => chosen ev byText subject default cases)
      fun stmts _ => ∀ stmt ∈ stmts, heap.HasStmt stmt := by
  induction cases generalizing base with
  | nil => exact .pure hasDefault
  | cons case rest ih =>
      obtain ⟨first, others⟩ := List.forall_mem_cons.mp hasCases
      refine .andThen (stays_anyMatches byText subject first.values) fun found _ _ => ?_
      cases found with
      | true => exact .pure first.body
      | false => exact ih others

/-- A function that a statement defines is one of its script. -/
theorem stays_defineFunction (compiled : heap.Compiled) (package : Option Symbol)
    {definition : FunctionDef} (has : heap.HasDefinition definition) :
    Stays strict heap base fun _ => defineFunction package definition := by
  refine .readingCall fun console _ => .change (.single ⟨_, _, ?_, rfl⟩) trivial
  exact .define _ _ ⟨heap, compiled, has⟩

/-- Running a statement leads to its parts. -/
theorem stays_statement (compiled : heap.Compiled) (bound : Nat) {stmt : Stmt}
    (has : heap.HasStmt stmt) : Stays strict heap base fun ev => statement bound ev stmt := by
  have parts := compiled.closed.stmt has
  refine .andThen (.updateCall _) fun _ _ _ => ?_
  cases stmt with
  | block body => exact stays_statements parts
  | expression mark value =>
      exact .andThen (stays_expression_job parts) fun _ _ _ => .pure trivial
  | branch mark test yes no =>
      obtain ⟨hasTest, hasYes, hasNo⟩ := parts
      refine .andThen (stays_truth hasTest) fun passed _ _ => ?_
      cases passed with
      | true => exact stays_statement_job hasYes
      | false =>
          cases no with
          | none => exact .pure trivial
          | some no => exact stays_statement_job (hasNo no rfl)
  | loop mark testsLast test body =>
      exact .rounds (fun skips _ => stays_loopRound parts.1 parts.2 skips) bound testsLast
  | count mark initial test step body =>
      obtain ⟨hasInitial, hasTest, hasStep, hasBody⟩ := parts
      refine .andThen (stays_effect hasInitial) fun _ _ _ => ?_
      exact .rounds (fun state _ => stays_countRound hasTest hasStep hasBody state) bound ()
  | «break» mark => exact .pure trivial
  | «continue» mark => exact .pure trivial
  | «return» mark value =>
      cases value with
      | none => exact .pure trivial
      | some value =>
          exact .andThen (stays_expression_job (parts value rfl)) fun _ _ _ => .pure trivial
  | switch mark byText subject cases default =>
      obtain ⟨hasSubject, hasCases, hasDefault⟩ := parts
      refine .andThen (stays_expression_job hasSubject) fun subject _ _ => ?_
      have hasOthers : ∀ stmt ∈ default.getD [], heap.HasStmt stmt := by
        cases default with
        | none => exact nofun
        | some body => exact hasDefault body rfl
      exact .bind (guarded_chosen byText subject hasOthers hasCases) fun _ _ _ chosen =>
        stays_statements chosen
  | function mark definition =>
      exact .andThen (stays_defineFunction compiled none parts) fun _ _ _ => .pure trivial
  | package mark name definitions =>
      refine .andThen (.forM fun definition member _ => ?_) fun _ _ _ => .pure trivial
      exact stays_defineFunction compiled (some name) (parts definition member)

end Statements

section Native

/-- A script that was compiled is run from its root. -/
theorem follows_execute {script : Script} {source : Source} {symbols : SymbolTable}
    (compiled : (compileSource source symbols).1 = .ok script) :
    Follows strict Job.Proper base fun ev => execute ev script := by
  obtain ⟨heap, ofScript⟩ := compileSource_heap compiled
  have root : Follows strict Job.Proper base fun ev => ev (.sequence script.root) :=
    .job (.sequence script.root)
      ⟨heap, ⟨source, symbols, script, compiled, ofScript⟩, ofScript.root⟩
  exact .andThen (.withFrame _ root) fun completion _ _ => follows_bodyResult _ completion

/-- A source that compiles gives a heap of its own, in which its root is. One that does not compile
runs nothing. -/
theorem follows_evaluate (source : String) :
    Follows strict Job.Proper base fun ev => evaluate ev source := by
  have compiled : Guarded strict Job.Proper base
      (fun _ => (World.compile unnamedFile source : Eval (Except Diagnostic Script)))
      fun result _ => ∃ symbols,
        (compileSource (.ofText unnamedFile source) symbols).1 = result :=
    .change (.single ⟨_, _, .mild (.compile unnamedFile source), rfl⟩) ⟨base.symbols, rfl⟩
  refine .bind compiled fun result _ _ is => ?_
  obtain ⟨symbols, is⟩ := is
  cases result with
  | error diagnostic => exact .pure trivial
  | ok script => exact .andThen (follows_execute is) fun _ _ _ => .pure trivial

/-- Clearing a container deletes or releases its children, which are calls and changes but no nodes.
-/
theorem follows_clear (container : Nat) :
    Follows strict Job.Proper base fun ev => clear ev container := by
  have children (deletes : Bool) (members : List Nat) (later : World) :
      Follows strict Job.Proper later fun ev => clearChildren ev container deletes members := by
    induction members generalizing later with
    | nil => exact .pure trivial
    | cons member members ih =>
        cases deletes with
        | true =>
            exact .andThen (Guarded.job (.delete member) trivial).discard fun _ last _ => ih last
        | false =>
            have removed : Follows strict Job.Proper later
                fun _ => (World.removeChild container member : Eval Bool) :=
              .gentle (World.gentle_removeChild container member)
            exact .andThen removed.discard fun _ last _ => ih last
  refine .reading ?_
  cases base.registry.get? container with
  | none => exact .pure trivial
  | some object => exact children _ _ base

/-- Built-in functions do not ask for jobs other than proper ones. -/
theorem follows_runNative (builtin : Builtin) (call : NativeCall) :
    Follows strict Job.Proper base fun ev => runNative ev (.builtin builtin) call := by
  cases builtin with
  | onValues function => exact .pure trivial
  | onConsole function => exact .gentle (World.gentle_consoleFunction function call.arguments)
  | onObject method => exact .gentle (World.gentle_objectMethod method _ call.arguments)
  | onScripts function =>
      cases function with
      | evaluate =>
          refine .andThen (follows_evaluate _) fun evaluated _ _ => ?_
          cases evaluated with
          | ok result => exact .pure trivial
          | error diagnostic => exact .andThen (.warn _) fun _ _ _ => .pure trivial
      | delete =>
          have deleted : Follows strict Job.Proper base fun ev =>
              ev (.delete (call.object.getD 0)) :=
            .job (.delete _) trivial
          exact .andThen deleted fun _ _ _ => .pure trivial
      | clear => exact .andThen (follows_clear _) fun _ _ _ => .pure trivial

/-- A proper function of a script has its body in the heap that it was compiled to. Built-in ones
and those of the host follow by their parts. -/
theorem follows_callEntry {entry : Entry Callable} (proper : entry.target.Proper)
    (arguments : List Value) :
    Follows strict Job.Proper base fun ev => callEntry ev entry arguments := by
  obtain ⟨layer, name, target⟩ := entry
  cases target with
  | script filename definition =>
      obtain ⟨heap, compiled, has⟩ := proper
      have body : Follows strict Job.Proper base
          fun ev => ev (.statement (.block definition.body)) :=
        .job (.statement (.block definition.body)) ⟨heap, compiled, compiled.closed.definition has⟩
      exact .andThen (.withFrame _ body) fun completion _ _ => follows_bodyResult _ completion
  | native isMethod arity code =>
      obtain ⟨builtin, rfl⟩ := proper
      refine .reading ?_
      cases nativeCall? base isMethod arguments with
      | none => exact .andThen (.warn _) fun _ _ _ => .pure trivial
      | some call =>
          simp only
          split
          · exact follows_runNative builtin call
          · exact .andThen (.warn _) fun _ _ _ => .pure trivial

end Native

/-- A job whose node is in the heap of a script leads to nodes in the same heap. -/
theorem stays_step (compiled : heap.Compiled) (bound : Nat) {job : Job} (has : job.Fits heap)
    (inside : job.isInside = true) : Stays strict heap base fun ev => step bound ev job := by
  cases job with
  | sequence stmts => exact stays_statements has
  | statement stmt => exact stays_statement compiled bound has
  | expression expr => exact .withNesting (.job (.evaluation expr) has)
  | evaluation expr => exact stays_expression compiled.closed has
  | declare declaration => exact stays_declare compiled.closed has
  | call entry arguments => exact nomatch inside
  | delete id => exact nomatch inside

/-- A proper job leads to proper jobs. -/
theorem follows_step (bound : Nat) {job : Job} (proper : job.Proper) :
    Follows strict Job.Proper base fun ev => step bound ev job := by
  have node (inside : job.isInside = true) (placed : ∃ heap : Heap, heap.Compiled ∧ job.Fits heap) :
      Follows strict Job.Proper base fun ev => step bound ev job := by
    obtain ⟨heap, compiled, has⟩ := placed
    exact (stays_step compiled bound has inside).widen fun _ fits => fits.proper compiled
  cases job with
  | call entry arguments => exact follows_callEntry proper arguments
  | delete id => exact follows_deleteObject calling_proper id
  | _ => exact node rfl proper

end Eval

end ScriptConsole
