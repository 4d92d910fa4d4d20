import ScriptConsole.Proofs.Eval.Parts
import ScriptConsole.Proofs.Eval.Results

/-! # Calls in progress

However a computation ends, the calls in progress and the expressions in evaluation are
those of its start (`ScriptConsole.Eval.run_restored`). Inside of the innermost call, statements
alone note a line: all other jobs change its local variables at most
(`ScriptConsole.Eval.run_outlines`).
-/

namespace ScriptConsole

/-- A call stack is determined by its calls. -/
theorem CallStack.eq_of_frames {first second : CallStack} (frames : first.frames = second.frames) :
    first = second := by
  have depth : first.depth = second.depth := by rw [first.depth_eq, second.depth_eq, frames]
  cases first
  cases second
  cases frames
  cases depth
  rfl

namespace Eval

variable {α : Type}

/-- The calls in progress and the expressions in evaluation are as they were, up to the
innermost call if the flag says so. -/
structure Restored (inside : Bool) (console final : Console) : Prop where
  nesting : final.nesting = console.nesting
  depth : final.calls.depth = console.calls.depth
  outer : final.calls.frames.tail = console.calls.frames.tail
  calls : inside = false → final.calls = console.calls

namespace Restored

variable {inside : Bool} {console between final : Console}

theorem refl (inside : Bool) (console : Console) : Restored inside console console :=
  ⟨rfl, rfl, rfl, fun _ => rfl⟩

/-- What leaves the innermost call alone may work inside of it as well. -/
theorem widen {wider : Bool} (restored : Restored inside console final)
    (within : inside = true → wider = true) : Restored wider console final where
  nesting := restored.nesting
  depth := restored.depth
  outer := restored.outer
  calls outside := restored.calls <| by
    cases inside with
    | false => rfl
    | true => exact (within rfl).symm.trans outside

theorem trans (first : Restored inside console between) (second : Restored inside between final) :
    Restored inside console final where
  nesting := second.nesting.trans first.nesting
  depth := second.depth.trans first.depth
  outer := second.outer.trans first.outer
  calls := fun outside => (second.calls outside).trans (first.calls outside)

/-- A call that ended is gone, and the calls around it are as they were. -/
theorem popFrame {frame : Frame}
    (body : Restored true { console with calls := console.calls.push frame } final) :
    Restored inside console (popFrame final) := by
  have same : final.calls.pop = console.calls := by
    apply CallStack.eq_of_frames
    exact body.outer
  refine ⟨body.nesting, ?_, ?_, fun _ => same⟩
  · exact congrArg CallStack.depth same
  · exact congrArg (fun calls => calls.frames.tail) same

/-- Changing the innermost call leaves those around it. -/
theorem updateFrame (console : Console) (change : Frame → Frame) :
    Restored true console (console.updateFrame change) := by
  refine ⟨rfl, rfl, ?_, fun absurd => Bool.noConfusion absurd⟩
  change (console.calls.frames.modifyHead change).tail = console.calls.frames.tail
  cases console.calls.frames <;> rfl

theorem leaveExpression
    (body : Restored inside { console with nesting := console.nesting + 1 } final) :
    Restored inside console (leaveExpression final) := by
  refine ⟨?_, body.depth, body.outer, body.calls⟩
  change final.nesting - 1 = console.nesting
  rw [body.nesting]
  rfl

end Restored

/-- Whatever is put together from the constructs restores the calls, if the jobs inside
it do. -/
theorem Composed.restored {inside : Bool} {program : Evaluator → Eval α}
    (composed : Composed (.hosted True) inside program) {ev : Evaluator}
    (inner : ∀ job console, Restored job.isInside console (ended (ev job console)))
    (console : Console) : Restored inside console (ended (program ev console)) := by
  induction composed generalizing console with
  | pure result => exact .refl _ console
  | @bind inside α β first next start rest ihStart ihRest =>
      have head := ihStart console
      simp only [bind_apply]
      cases ran : first ev console with
      | ok value between =>
          rw [ran] at head
          exact head.trans (ihRest value between)
      | error abort between =>
          rw [ran] at head
          exact head
  | job job within => exact (inner job console).widen within
  | change allowed => exact ⟨rfl, rfl, rfl, fun _ => rfl⟩
  | reading same rest ih => exact ih console.world console.world.hostedIf_true console
  | readingCall same rest ih => exact ih console console.world.hostedIf_true console
  | updateCall change => exact .updateFrame console change
  | fail fault => exact .refl _ console
  | throw abort => exact .refl _ console
  | @withFrame inside α body frame composed ih =>
      simp only [withFrame_apply]
      split
      · exact .refl _ console
      · rw [ended_closing]
        exact (ih { console with calls := console.calls.push frame }).popFrame
  | @withNesting inside α body composed ih =>
      simp only [withNesting_apply]
      split
      · exact .refl _ console
      · rw [ended_closing]
        exact (ih { console with nesting := console.nesting + 1 }).leaveExpression
  | attempt allowed composed ih =>
      simp only [ended_attempt]
      exact ih console

/-- Every job restores the calls, up to the innermost one if it works inside of it. -/
theorem run_restored (bound : Nat) (job : Job) (console : Console) :
    Restored job.isInside console (ended (run bound job console)) := by
  induction bound generalizing job console with
  | zero => exact .refl _ console
  | succ bound ih => exact (composed_step bound job).restored ih console

section Outlines

/-- The calls in progress without their local variables. -/
def outlines (console : Console) : List Frame :=
  console.calls.frames.map Frame.outline

/-- No lines are noted. -/
def Terms.steady : Terms where
  callable _ := True
  changes _ := True
  catches := True
  notes := False
  gentle _ := trivial
  define _ _ _ _ := trivial

theorem Terms.open_steady : Terms.steady.Open :=
  ⟨fun _ _ => trivial, fun _ _ => trivial, fun _ => trivial⟩

theorem outlines_popFrame {console final : Console} {frame : Frame}
    (body : outlines final = outlines { console with calls := console.calls.push frame }) :
    outlines (popFrame final) = outlines console := by
  have tail : (outlines (popFrame final)) = (outlines final).tail := by
    unfold outlines
    rw [← List.map_tail]
    rfl
  rw [tail, body]
  rfl

theorem outlines_updateFrame (change : Frame → Frame)
    (same : ∀ frame, (change frame).outline = frame.outline) (console : Console) :
    outlines (console.updateFrame change) = outlines console := by
  change (console.calls.frames.modifyHead change).map Frame.outline = _
  unfold outlines
  cases console.calls.frames with
  | nil => rfl
  | cons frame rest => exact congrArg (· :: rest.map Frame.outline) (same frame)

/-- Where no lines are noted, local variables of calls in progress are all that changes of them. -/
theorem Composed.outlines {inside : Bool} {program : Evaluator → Eval α}
    (composed : Composed .steady inside program) {ev : Evaluator}
    (inner : ∀ job, job.isStatement = false → ∀ console,
      outlines (ended (ev job console)) = outlines console)
    (console : Console) : Eval.outlines (ended (program ev console)) = Eval.outlines console := by
  induction composed generalizing console with
  | pure result => rfl
  | @bind inside α β first next start rest ihStart ihRest =>
      have head := ihStart console
      simp only [bind_apply]
      cases ran : first ev console with
      | ok value between =>
          rw [ran] at head
          exact (ihRest value between).trans head
      | error abort between =>
          rw [ran] at head
          exact head
  | job job within allowed noted => exact inner job (Bool.eq_false_iff.mpr noted) console
  | change allowed => rfl
  | reading same rest ih => exact ih console.world (fun _ _ _ _ => trivial) console
  | readingCall same rest ih => exact ih console (fun _ _ _ _ => trivial) console
  | updateCall change noted =>
      exact outlines_updateFrame change (noted.resolve_left id) console
  | fail fault => rfl
  | throw abort => rfl
  | withFrame frame composed ih =>
      simp only [withFrame_apply]
      split
      · rfl
      · rw [ended_closing]
        exact outlines_popFrame (ih { console with calls := console.calls.push frame })
  | withNesting composed ih =>
      simp only [withNesting_apply]
      split
      · rfl
      · rw [ended_closing]
        exact ih { console with nesting := console.nesting + 1 }
  | attempt allowed composed ih =>
      simp only [ended_attempt]
      exact ih console

/-- All jobs but statements leave the lines of the calls in progress as they are. -/
theorem run_outlines (bound : Nat) {job : Job} (other : job.isStatement = false)
    (console : Console) : outlines (ended (run bound job console)) = outlines console := by
  induction bound generalizing job console with
  | zero => rfl
  | succ bound ih =>
      have inner (job : Job) (other : job.isStatement = false) (console : Console) :
          outlines (ended (run bound job console)) = outlines console :=
        ih other console
      cases job with
      | sequence body => exact nomatch other
      | statement stmt => exact nomatch other
      | expression expr =>
          exact (Composed.withNesting (.node (.evaluation expr) rfl nofun)).outlines inner console
      | evaluation expr => exact (composed_expression expr).outlines inner console
      | declare declaration =>
          exact (composed_declare Terms.open_steady declaration).outlines inner console
      | call entry arguments =>
          have restored := run_restored (bound + 1) (.call entry arguments) console
          exact congrArg (·.frames.map Frame.outline) (restored.calls rfl)
      | delete id =>
          have restored := run_restored (bound + 1) (.delete id) console
          exact congrArg (·.frames.map Frame.outline) (restored.calls rfl)

end Outlines

end Eval

end ScriptConsole
