import ScriptConsole.Proofs.Eval.Raising
import ScriptConsole.Proofs.Eval.Upholding

/-! # Runs with more room

A run may begin on the same console with fewer expressions in evaluation, and go further. Where the
first run comes to a result, so does the second, and the consoles are the same in the end but for
the expressions in evaluation (`ScriptConsole.Eval.run_eased`). Functions of the host see the errors
of their operations, and one that goes on where there was no room for a further expression may tell
the two runs apart. So the first run has to be one in which none does so, that is, one that is the
same if such a function ends with the error (`ScriptConsole.Eval.Unbroken`).
-/

namespace ScriptConsole

/-- Whether there was no room for a further expression. -/
def EvalFault.isNesting : EvalFault → Bool
  | expressionDepth _ => true
  | callDepth _ | notAssignable => false

/-- The error of an operation that ended because there was no room for a further expression. -/
def nestingError? {α : Type} : Except EvalError α → Option EvalError
  | .ok _ => none
  | .error error => if error.fault.isNesting then some error else none

/-- The program, except that it ends with the error of an operation that had no room for a further
expression. -/
def HostProgram.yielding : HostProgram → HostProgram
  | done result => done result
  | fail error => fail error
  | ask operation next => ask operation fun answer =>
    match nestingError? answer with
    | some error => fail error
    | none => (next answer).yielding
  | register space name isMethod arity code next =>
    register space name isMethod arity code next.yielding

/-- The function, with a yielding program if it is one of the host. -/
def Callable.yielding : Callable → Callable
  | native isMethod arity (.host program) =>
    native isMethod arity (.host fun call => (program call).yielding)
  | native isMethod arity (.builtin builtin) => native isMethod arity (.builtin builtin)
  | script filename definition => script filename definition

/-- A console is another one that may have fewer expressions in evaluation. -/
structure Console.Eased (console eased : Console) : Prop where
  world : eased.world = console.world
  calls : eased.calls = console.calls
  nesting : eased.nesting ≤ console.nesting

namespace Console.Eased

variable {console eased : Console}

theorem refl (console : Console) : console.Eased console :=
  ⟨rfl, rfl, Nat.le_refl _⟩

theorem push (easing : console.Eased eased) (frame : Frame) :
    Console.Eased { console with calls := console.calls.push frame }
      { eased with calls := eased.calls.push frame } :=
  { easing with calls := congrArg (CallStack.push · frame) easing.calls }

theorem popFrame (easing : console.Eased eased) :
    (Eval.popFrame console).Eased (Eval.popFrame eased) :=
  { easing with calls := congrArg CallStack.pop easing.calls }

theorem enterExpression (easing : console.Eased eased) :
    Console.Eased { console with nesting := console.nesting + 1 }
      { eased with nesting := eased.nesting + 1 } :=
  { easing with nesting := Nat.succ_le_succ easing.nesting }

theorem leaveExpression (easing : console.Eased eased) :
    (Eval.leaveExpression console).Eased (Eval.leaveExpression eased) :=
  { easing with nesting := Nat.sub_le_sub_right easing.nesting 1 }

theorem updateFrame (easing : console.Eased eased) (change : Frame → Frame) :
    (console.updateFrame change).Eased (eased.updateFrame change) :=
  { easing with calls := congrArg (CallStack.modifyTop · change) easing.calls }

end Console.Eased

namespace Eval

variable {α β σ : Type}

/-- Does a job as `run` does, except that functions of the host yield. -/
def runYielding : Nat → Evaluator
  | 0, _ => throw .outOfSteps
  | bound + 1, .call entry arguments =>
    step bound (runYielding bound) (.call { entry with target := entry.target.yielding } arguments)
  | bound + 1, job => step bound (runYielding bound) job

/-- The calls in progress and the expressions in evaluation are restored in all runs. -/
theorem runYielding_restored (bound : Nat) (job : Job) (console : Console) :
    Restored job.isInside console (ended (runYielding bound job console)) := by
  induction bound generalizing job console with
  | zero => exact .refl _ console
  | succ bound ih =>
      cases job with
      | call entry arguments =>
          exact (composed_step bound
            (.call { entry with target := entry.target.yielding } arguments)).restored ih console
      | sequence body => exact (composed_step bound (.sequence body)).restored ih console
      | statement stmt => exact (composed_step bound (.statement stmt)).restored ih console
      | expression expr => exact (composed_step bound (.expression expr)).restored ih console
      | evaluation expr => exact (composed_step bound (.evaluation expr)).restored ih console
      | declare declaration =>
          exact (composed_step bound (.declare declaration)).restored ih console
      | delete id => exact (composed_step bound (.delete id)).restored ih console

/-- No function of the host goes on in a run after there was no room for a further expression: the
run is the same if they all yield. -/
def Unbroken (bound : Nat) (job : Job) (console : Console) : Prop :=
  runYielding bound job console = run bound job console

/-- What a run came to carries over to a run with more room: its result, and any error that was not
for want of this room. -/
def Carried : EStateM.Result Abort Console α → EStateM.Result Abort Console α → Prop
  | .ok value after, second => ∃ later, second = .ok value later ∧ after.Eased later
  | .error (.error error) after, second =>
      error.fault.isNesting = false →
        ∃ later, second = .error (.error error) later ∧ after.Eased later
  | .error .outOfSteps _, _ => True

/-- What the runs of a computation come to carries over to those of another one with more room. -/
def CarriesOver (first second : Eval α) : Prop :=
  ∀ console eased, console.Eased eased → Carried (first console) (second eased)

/-- What closes a call or an expression on both sides keeps what is carried over. -/
theorem Carried.closing {first second : EStateM.Result Abort Console α}
    (carried : Carried first second) {close : Console → Console}
    (closed : ∀ after later, after.Eased later → (close after).Eased (close later)) :
    Carried (closing close first) (closing close second) := by
  cases first with
  | ok value after =>
      obtain ⟨later, rfl, easing⟩ := carried
      exact ⟨close later, rfl, closed after later easing⟩
  | error abort after =>
      cases abort with
      | outOfSteps => exact trivial
      | error error =>
          intro roomy
          obtain ⟨later, rfl, easing⟩ := carried roomy
          exact ⟨close later, rfl, closed after later easing⟩

namespace CarriesOver

theorem pure (result : α) : CarriesOver (Pure.pure result) (Pure.pure result) :=
  fun _ eased easing => ⟨eased, rfl, easing⟩

theorem throw (abort : Abort) :
    CarriesOver (MonadExcept.throw abort : Eval α) (MonadExcept.throw abort) := by
  intro console eased easing
  cases abort with
  | outOfSteps => exact trivial
  | error error => exact fun _ => ⟨eased, rfl, easing⟩

/-- An error tells about the same calls. -/
theorem fail (fault : EvalFault) : CarriesOver (Eval.fail fault : Eval α) (Eval.fail fault) := by
  intro console eased easing _
  refine ⟨eased, ?_, easing⟩
  unfold Eval.fail
  rw [easing.calls]

/-- What the first parts come to carries over, and with it what follows them, as both go on from the
same value. -/
theorem bind {first second : Eval α} {next after : α → Eval β} (start : CarriesOver first second)
    (rest : ∀ value, CarriesOver (next value) (after value)) :
    CarriesOver (first >>= next) (second >>= after) := by
  intro console eased easing
  have begun := start console eased easing
  simp only [bind_apply]
  cases ran : first console with
  | ok value between =>
      rw [ran] at begun
      obtain ⟨amid, same, easing⟩ := begun
      rw [same]
      exact rest value between amid easing
  | error abort between =>
      rw [ran] at begun
      cases abort with
      | outOfSteps => exact trivial
      | error error =>
          intro roomy
          obtain ⟨amid, same, easing⟩ := begun roomy
          rw [same]
          exact ⟨amid, rfl, easing⟩

theorem change (change : WorldM α) : CarriesOver (change : Eval α) (change : Eval α) := by
  intro console eased easing
  refine ⟨{ eased with world := (change.run console.world).2 }, ?_, { easing with world := rfl }⟩
  change EStateM.Result.ok (change.run eased.world).1
    { eased with world := (change.run eased.world).2 } = _
  rw [easing.world]
  rfl

theorem reading {next after : World → Eval α}
    (rest : ∀ world, CarriesOver (next world) (after world)) :
    CarriesOver (world >>= next) (world >>= after) := by
  intro console eased easing
  change Carried (next console.world console) (after eased.world eased)
  rw [easing.world]
  exact rest console.world console eased easing

/-- What is read of the innermost call is the same. -/
theorem readingCall {next after : Console → Eval α}
    (same : ∀ console other : Console, other.calls.top? = console.calls.top? →
      other.world = console.world → after other = after console)
    (rest : ∀ console, CarriesOver (next console) (after console)) :
    CarriesOver (get >>= next) (get >>= after) := by
  intro console eased easing
  change Carried (next console console) (after eased eased)
  rw [same console eased (congrArg CallStack.top? easing.calls) easing.world]
  exact rest console console eased easing

theorem updateCall (change : Frame → Frame) :
    CarriesOver (modify fun console : Console => console.updateFrame change : Eval PUnit)
      (modify fun console => console.updateFrame change) :=
  fun _ eased easing => ⟨eased.updateFrame change, rfl, easing.updateFrame change⟩

/-- A further call is refused to both or to none. -/
theorem withFrame {first second : Eval α} (frame : Frame) (body : CarriesOver first second) :
    CarriesOver (Eval.withFrame frame first) (Eval.withFrame frame second) := by
  intro console eased easing
  simp only [withFrame_apply, easing.world, easing.calls]
  split
  · exact fail _ console eased easing
  · have runs := body _ _ (easing.push frame)
    rw [easing.world, easing.calls] at runs
    exact runs.closing fun _ _ => .popFrame

/-- A further expression may be refused to the first run alone, which ends for want of room then. -/
theorem withNesting {first second : Eval α} (body : CarriesOver first second) :
    CarriesOver (Eval.withNesting first) (Eval.withNesting second) := by
  intro console eased easing
  simp only [withNesting_apply, easing.world]
  by_cases full : console.world.config.maxExpressionDepth ≤ console.nesting
  · rw [if_pos full]
    exact fun roomy => nomatch roomy
  · have room : ¬ console.world.config.maxExpressionDepth ≤ eased.nesting :=
      fun absurd => full (absurd.trans easing.nesting)
    rw [if_neg full, if_neg room]
    have runs := body _ _ easing.enterExpression
    rw [easing.world] at runs
    exact runs.closing fun _ _ => .leaveExpression

/-- A loop may go on for more rounds. -/
theorem rounds {first second : σ → Eval (Round σ β)}
    (round : ∀ state, CarriesOver (first state) (second state)) {bound further : Nat}
    (le : bound ≤ further) (state : σ) :
    CarriesOver (ScriptConsole.rounds .outOfSteps first bound state)
      (ScriptConsole.rounds .outOfSteps second further state) := by
  induction bound generalizing further state with
  | zero => exact fun _ _ _ => trivial
  | succ bound ih =>
      obtain ⟨further, rfl⟩ := Nat.exists_eq_add_one_of_ne_zero (Nat.ne_zero_of_lt le)
      refine .bind (round state) fun outcome => ?_
      cases outcome with
      | again state => exact ih (Nat.le_of_succ_le_succ le) state
      | done result => exact .pure result

end CarriesOver

/-- Terms without errors that are caught. -/
def Terms.uncaught : Terms where
  callable _ := True
  changes _ := True
  catches := False
  notes := True
  gentle _ := trivial
  define _ _ _ _ := trivial

theorem Terms.open_uncaught : Terms.uncaught.Open :=
  ⟨fun _ _ => trivial, fun _ _ => trivial, fun _ => trivial⟩

/-- What is put together from the constructs carries over, if the jobs inside it do. -/
theorem Composed.carriesOver {inside : Bool} {program : Evaluator → Eval α}
    (composed : Composed .uncaught inside program) {ev other : Evaluator}
    (inner : ∀ job, CarriesOver (ev job) (other job)) :
    CarriesOver (program ev) (program other) := by
  induction composed with
  | pure result => exact .pure result
  | bind start rest ihStart ihRest => exact .bind ihStart ihRest
  | job job within allowed => exact inner job
  | change allowed => exact .change _
  | reading same rest ih => exact .reading fun world => ih world fun _ _ _ _ => trivial
  | readingCall same rest ih =>
      exact .readingCall
        (fun console twin top world => congrFun (same console twin console.world.config
          console.world.sink console.world.log top world) other)
        fun console => ih console fun _ _ _ _ => trivial
  | updateCall change => exact .updateCall change
  | fail fault => exact .fail fault
  | throw abort => exact .throw abort
  | withFrame frame composed ih => exact .withFrame frame ih
  | withNesting composed ih => exact .withNesting ih
  | attempt allowed composed ih => exact allowed.elim

section Steps

variable {ev other : Evaluator} (inner : ∀ job, CarriesOver (ev job) (other job))
include inner

/-- Statements go on for more rounds. -/
theorem carriesOver_runStatement {bound further : Nat} (le : bound ≤ further) (stmt : Stmt) :
    CarriesOver (runStatement bound ev stmt) (runStatement further other stmt) := by
  cases stmt with
  | loop mark testsLast test body =>
      exact .rounds
        (fun state => (composed_loopRound trivial test body state).carriesOver inner) le testsLast
  | count mark initial test next body =>
      refine .bind ((composed_effect initial).carriesOver inner) fun _ => ?_
      exact .rounds
        (fun state => (composed_countRound trivial test next body state).carriesOver inner) le ()
  | «switch» mark byText subject cases default =>
      exact (composed_runStatement trivial further
        (.switch mark byText subject cases default)).carriesOver inner
  | block body => exact (composed_runStatement trivial further (.block body)).carriesOver inner
  | expression mark value =>
      exact (composed_runStatement trivial further (.expression mark value)).carriesOver inner
  | branch mark test yes no =>
      exact (composed_runStatement trivial further (.branch mark test yes no)).carriesOver inner
  | «break» mark => exact .pure _
  | «continue» mark => exact .pure _
  | «return» mark value =>
      cases value with
      | none => exact .pure _
      | some value =>
          exact (composed_runStatement trivial further
            (.return mark (some value))).carriesOver inner
  | function mark definition =>
      exact (composed_runStatement trivial further (.function mark definition)).carriesOver inner
  | package mark name definitions =>
      exact (composed_runStatement trivial further
        (.package mark name definitions)).carriesOver inner

/-- A yielding function of the host carries over to one that may go on after all errors: as long as
it did not yield, it was told the same. -/
theorem carriesOver_runHost (program : HostProgram) :
    CarriesOver (runHost ev program.yielding) (runHost other program) := by
  induction program with
  | done result => exact .pure result
  | fail error => exact .throw (.error error)
  | register space name isMethod arity code next _ ih =>
      exact .bind (.change (World.registerNative space name isMethod arity (.host code)))
        fun _ => ih
  | ask operation next ih =>
      intro console eased easing
      have composed : Composed .uncaught true fun ev => perform ev operation :=
        composed_operation trivial fun _ => Terms.open_uncaught
      have asked := composed.carriesOver inner console eased easing
      simp only [HostProgram.yielding, runHost, bind_apply, attempt]
      cases ran : perform ev operation console with
      | ok answer after =>
          rw [ran] at asked
          obtain ⟨later, same, easing⟩ := asked
          rw [same]
          exact ih (.ok answer) after later easing
      | error abort after =>
          rw [ran] at asked
          cases abort with
          | outOfSteps => exact trivial
          | error error =>
              cases nests : error.fault.isNesting with
              | true =>
                  simp only [nestingError?, nests, ↓reduceIte]
                  intro roomy
                  exact nomatch nests.symm.trans roomy
              | false =>
                  obtain ⟨later, same, easing⟩ := asked nests
                  rw [same]
                  simp only [nestingError?, nests, Bool.false_eq_true, ↓reduceIte]
                  exact ih (.error error) after later easing

/-- What a function of the host comes to where it yields carries over to a run with more room. -/
theorem carriesOver_callNative (name : String) (isMethod : Bool) (arity : Arity)
    (program : NativeCall → HostProgram) (arguments : List Value) :
    CarriesOver
      (callNative ev name isMethod arity (.host fun call => (program call).yielding) arguments)
      (callNative other name isMethod arity (.host program) arguments) := by
  refine .reading fun world => ?_
  cases nativeCall? world isMethod arguments with
  | none => exact .bind (.change (World.warn _)) fun _ => .pure _
  | some call =>
      simp only
      split
      · exact carriesOver_runHost inner (program call)
      · exact .bind (.change (World.warn _)) fun _ => .pure _

/-- A call of a function that yields if it is one of the host. -/
theorem carriesOver_callEntry (entry : Entry Callable) (arguments : List Value) :
    CarriesOver (callEntry ev { entry with target := entry.target.yielding } arguments)
      (callEntry other entry arguments) := by
  obtain ⟨layer, name, target⟩ := entry
  cases target with
  | script filename definition =>
      have composed : Composed .uncaught true fun ev =>
          callEntry ev ⟨layer, name, .script filename definition⟩ arguments :=
        composed_callOwn trivial id arguments
      exact composed.carriesOver inner
  | native isMethod arity code =>
      cases code with
      | builtin builtin =>
          have composed : Composed .uncaught true fun ev =>
              callEntry ev ⟨layer, name, .native isMethod arity (.builtin builtin)⟩ arguments :=
            composed_callOwn trivial id arguments
          exact composed.carriesOver inner
      | host program => exact carriesOver_callNative inner _ isMethod arity program arguments

end Steps

/-- What a run came to in which functions of the host yield carries over to one that may go
further. -/
theorem carriesOver_run {bound further : Nat} (le : bound ≤ further) (job : Job) :
    CarriesOver (runYielding bound job) (run further job) := by
  -- only calls differ between the two runs, all other jobs are one computation over both
  induction bound generalizing further job with
  | zero => exact fun _ _ _ => trivial
  | succ bound ih =>
      obtain ⟨further, rfl⟩ := Nat.exists_eq_add_one_of_ne_zero (Nat.ne_zero_of_lt le)
      have fewer := Nat.le_of_succ_le_succ le
      have inner (job : Job) : CarriesOver (runYielding bound job) (run further job) := ih fewer job
      have own (job : Job) (own : job.Calls fun target => ¬ target.IsHosted) :
          CarriesOver (step further (runYielding bound) job) (step further (run further) job) :=
        (composed_step_own trivial Terms.open_uncaught further own).carriesOver inner
      cases job with
      | statement stmt =>
          exact .bind (.updateCall _) fun _ => carriesOver_runStatement inner fewer stmt
      | call entry arguments => exact carriesOver_callEntry inner entry arguments
      | sequence body => exact own (.sequence body) trivial
      | expression expr => exact own (.expression expr) trivial
      | evaluation expr => exact own (.evaluation expr) trivial
      | declare declaration => exact own (.declare declaration) trivial
      | delete id => exact own (.delete id) trivial

/-- Where a yielding run comes to a result, a run from the same console with fewer expressions in
evaluation that may go further comes to it too. The consoles are the same in the end, but for the
expressions in evaluation. -/
theorem run_eased {bound further : Nat} (le : bound ≤ further) {job : Job}
    {console eased after : Console} {value : job.Result} (easing : console.Eased eased)
    (ran : runYielding bound job console = .ok value after) :
    ∃ later, run further job eased = .ok value later ∧ after.Eased later := by
  have carried := carriesOver_run le job console eased easing
  rw [ran] at carried
  exact carried

end Eval

end ScriptConsole
