import ScriptConsole.Eval.Run
import ScriptConsole.Proofs.Console.Functions

/-! # What evaluation is put together from

Every job is done by a computation that is put together from few constructs: changes of
the world, changes of the innermost call, errors, jobs inside it, and further calls and
expressions around them (`ScriptConsole.Eval.Composed`). A job either works inside the
innermost call or leaves all calls in progress alone. What all constructs keep is kept by
every run. Which functions may be called and which changes may be made is left to the terms
(`ScriptConsole.Eval.Terms`) that a result is about.
-/

namespace ScriptConsole

/-- Whether a job works inside the innermost call: on its local variables and its line. -/
def Job.isInside : Job → Bool
  | .call _ _ | .delete _ => false
  | .sequence _ | .statement _ | .expression _ | .evaluation _ | .declare _ => true

/-- Whether a job runs statements inside the innermost call, which note their lines. -/
def Job.isStatement : Job → Bool
  | .sequence _ | .statement _ => true
  | .expression _ | .evaluation _ | .call _ _ | .declare _ | .delete _ => false

/-- A call in progress without its local variables. -/
def Frame.outline (frame : Frame) : Frame :=
  { frame with locals := {} }

/-- A function that a job calls has a property. -/
def Job.Calls (property : Callable → Prop) : Job → Prop
  | .call entry _ => property entry.target
  | _ => True

namespace Eval

/-- What computations may come upon and do: the functions that there are, the changes of the world
that are made, and whether errors are caught and lines of statements are noted. Gentle changes are
always among them, and so are definitions of functions in scripts. -/
structure Terms where
  callable : Callable → Prop
  changes : {α : Type} → WorldM α → Prop
  catches : Prop
  notes : Prop
  gentle {α : Type} {change : WorldM α} : World.Gentle change → changes change
  define (layer : Layer) (name : Symbol) (filename : String) (definition : FunctionDef) :
    changes (World.define layer name (.script filename definition))

/-- Unless the proposition holds, there are no functions of the host, and none come about. -/
def Terms.hosted (hosted : Prop) : Terms where
  callable target := target.IsHosted → hosted
  changes change := World.Built change ∧ World.Preserves (World.HostedIf hosted) change
  catches := hosted
  notes := True
  gentle gentle := ⟨gentle.built, World.preserves_each gentle.functions⟩
  define layer name _ _ := ⟨.basic (.define layer name _), World.define_each layer name nofun⟩

/-- Objects and classes of all kinds may come about. -/
structure Terms.Open (terms : Terms) : Prop where
  enter (draft : Draft) (name : String) : terms.changes (World.enter draft name)
  copyFields (id : Nat) (source : Draft) : terms.changes (World.copyFields id source)
  registerClass (spec : ClassSpec) : terms.changes (World.registerClass spec)

/-- Objects and classes of all kinds may come about, and functions of the host are run. -/
structure Terms.Free (terms : Terms) : Prop extends terms.Open where
  notes : terms.notes
  catches {isMethod : Bool} {arity : Arity} {program : NativeCall → HostProgram} :
    terms.callable (.native isMethod arity (.host program)) → terms.catches
  registerNative (caught : terms.catches) (space : Option String) (name : String) (isMethod : Bool)
    (arity : Arity) (program : NativeCall → HostProgram) :
    terms.changes (World.registerNative space name isMethod arity (.host program))

/-- Objects and classes of all kinds come about by basic changes, which bring in no function of the
host. -/
theorem Terms.free_hosted (hosted : Prop) : (Terms.hosted hosted).Free where
  enter draft name :=
    ⟨.basic (.enter draft name), World.preserves_each (World.enter_functions draft name)⟩
  copyFields id source := ⟨.basic (.copyFields id source), fun _ hosts => hosts⟩
  registerClass spec :=
    ⟨.basic (.registerClass spec), World.preserves_each (World.registerClass_functions spec)⟩
  notes := trivial
  catches allowed := allowed trivial
  registerNative caught space name isMethod arity program :=
    ⟨World.built_registerNative space name isMethod arity (.host program),
      World.registerNative_each space name fun _ => caught⟩

/-- A computation with an evaluator for the jobs inside it, put together from the
constructs of evaluation on terms. The flag tells whether it works inside the innermost call. -/
inductive Composed (terms : Terms) : Bool → {α : Type} → (Evaluator → Eval α) → Prop where
  | pure {inside : Bool} {α : Type} (result : α) : Composed terms inside fun _ => Pure.pure result
  | bind {inside : Bool} {α β : Type} {first : Evaluator → Eval α}
      {next : α → Evaluator → Eval β} (start : Composed terms inside first)
      (rest : ∀ value, Composed terms inside (next value)) :
      Composed terms inside fun ev => first ev >>= fun value => next value ev
  /-- A job that works inside the innermost call is done only from inside of it. -/
  | job {inside : Bool} (job : Job) (within : job.isInside = true → inside = true)
      (allowed : job.Calls terms.callable) (noted : job.isStatement = true → terms.notes) :
      Composed terms inside fun ev => ev job
  | change {inside : Bool} {α : Type} {change : WorldM α} (allowed : terms.changes change) :
      Composed terms inside fun _ => (change : Eval α)
  /-- What is read of the world is neither a setting nor the log. -/
  | reading {inside : Bool} {α : Type} {next : World → Evaluator → Eval α}
      (same : ∀ world config sink log, next { world with config, sink, log } = next world)
      (rest : ∀ world : World, world.spaces.Each terms.callable →
        Composed terms inside (next world)) :
      Composed terms inside fun ev => world >>= fun world => next world ev
  /-- What is read of the calls in progress is the innermost one. -/
  | readingCall {α : Type} {next : Console → Evaluator → Eval α}
      (same : ∀ console other config sink log, other.calls.top? = console.calls.top? →
        other.world = { console.world with config, sink, log } → next other = next console)
      (rest : ∀ console : Console, console.world.spaces.Each terms.callable →
        Composed terms true (next console)) :
      Composed terms true fun ev => get >>= fun console => next console ev
  /-- Where no lines are noted, local variables of the innermost call are all that changes of it. -/
  | updateCall (change : Frame → Frame)
      (noted : terms.notes ∨ ∀ frame, (change frame).outline = frame.outline) :
      Composed terms true fun _ => modify fun console => console.updateFrame change
  | fail {inside : Bool} {α : Type} (fault : EvalFault) :
      Composed terms inside fun _ => (Eval.fail fault : Eval α)
  | throw {inside : Bool} {α : Type} (abort : Abort) :
      Composed terms inside fun _ => (MonadExcept.throw abort : Eval α)
  | withFrame {inside : Bool} {α : Type} {body : Evaluator → Eval α} (frame : Frame)
      (composed : Composed terms true body) :
      Composed terms inside fun ev => Eval.withFrame frame (body ev)
  | withNesting {inside : Bool} {α : Type} {body : Evaluator → Eval α}
      (composed : Composed terms inside body) :
      Composed terms inside fun ev => Eval.withNesting (body ev)
  /-- Errors go to functions of the host alone. -/
  | attempt {inside : Bool} {α : Type} {body : Evaluator → Eval α} (allowed : terms.catches)
      (composed : Composed terms inside body) :
      Composed terms inside fun ev => Eval.attempt (body ev)

namespace Composed

variable {terms : Terms} {inside : Bool} {α β : Type}

theorem map {body : Evaluator → Eval α} (composed : Composed terms inside body) (view : α → β) :
    Composed terms inside fun ev => view <$> body ev := by
  simp only [map_eq_pure_bind]
  exact .bind composed fun value => .pure (view value)

/-- A job that works inside the innermost call calls no function itself. -/
theorem node (job : Job) (isInside : job.isInside = true)
    (noted : job.isStatement = true → terms.notes) : Composed terms true fun ev => ev job := by
  refine .job job (fun _ => rfl) ?_ noted
  cases job with
  | call entry arguments => exact nomatch isInside
  | _ => exact trivial

theorem gentle {change : WorldM α} (gentle : World.Gentle change) :
    Composed terms inside fun _ => (change : Eval α) :=
  .change (terms.gentle gentle)

theorem mild {change : WorldM α} (mild : World.Mild change) :
    Composed terms inside fun _ => (change : Eval α) :=
  .gentle (.mild mild)

theorem discard {body : Evaluator → Eval α} (composed : Composed terms inside body) :
    Composed terms inside fun ev => discard (body ev) :=
  composed.map _

theorem forM {items : List α} {body : α → Evaluator → Eval PUnit}
    (each : ∀ item, Composed terms inside (body item)) :
    Composed terms inside fun ev => items.forM fun item => body item ev := by
  induction items with
  | nil => exact .pure ()
  | cons item items ih => exact .bind (each item) fun _ => ih

/-- A loop is put together from its rounds. -/
theorem rounds {σ : Type} {round : Evaluator → σ → Eval (Round σ β)}
    (each : ∀ state, Composed terms inside fun ev => round ev state) (bound : Nat) (state : σ) :
    Composed terms inside fun ev => ScriptConsole.rounds .outOfSteps (round ev) bound state := by
  induction bound generalizing state with
  | zero => exact .throw .outOfSteps
  | succ bound ih =>
      refine .bind (each state) fun outcome => ?_
      cases outcome with
      | again state => exact ih state
      | done result => exact .pure result

end Composed

end Eval

end ScriptConsole
