import ScriptConsole.Proofs.Console.Keeping
import ScriptConsole.Proofs.Eval.Calls
import ScriptConsole.Proofs.Eval.Evolution

/-! # Limits of calls and expressions

At no point of a run there are more calls in progress, or more expressions in evaluation,
than the settings allow or were there before, and in the end there are as many as before
(`ScriptConsole.Eval.operations_disciplined`). The points of a run are where it begins and ends,
and where the jobs inside it do (`ScriptConsole.Eval.Passes`).
-/

namespace ScriptConsole.Eval

variable {α : Type}

/-- A computation comes to a job on a console: what it does depends on what the evaluator
does there. -/
def ComesTo (program : Evaluator → Eval α) (ev : Evaluator) (console : Console) (job : Job)
    (start : Console) : Prop :=
  ∃ other : Evaluator,
    (∀ job' start', (job', start') ≠ (job, start) → other job' start' = ev job' start') ∧
      program other console ≠ program ev console

/-- A computation comes to jobs of a kind alone if it depends on no others. -/
theorem ComesTo.holds {program : Evaluator → Eval α} {ev : Evaluator} {console start : Console}
    {job : Job} (comes : ComesTo program ev console job start) (kind : Job → Console → Prop)
    (agree : ∀ other : Evaluator,
      (∀ job start, kind job start → other job start = ev job start) →
        program other console = program ev console) : kind job start := by
  obtain ⟨other, same, differs⟩ := comes
  apply Classical.byContradiction
  intro outside
  refine differs (agree other fun job' start' inside => same job' start' ?_)
  intro equal
  obtain ⟨rfl, rfl⟩ := Prod.mk.inj equal
  exact outside inside

/-- A computation that is run on a console passes another one: it begins or ends there,
or a job does that is done in it. Calls and expressions begin with a job, so they are in
progress at a point as soon as they began. -/
inductive Passes : {α : Type} → Nat → (Evaluator → Eval α) → Console → Console → Prop where
  | start {α : Type} (bound : Nat) (program : Evaluator → Eval α) (console : Console) :
      Passes bound program console console
  | finish {α : Type} (bound : Nat) (program : Evaluator → Eval α) (console : Console) :
      Passes bound program console (ended (program (run bound) console))
  | reach {α : Type} {bound : Nat} {program : Evaluator → Eval α} {console : Console} {job : Job}
      {start : Console} (comes : ComesTo program (run bound) console job start) :
      Passes bound program console start
  | inside {α : Type} {bound : Nat} {program : Evaluator → Eval α} {console : Console} {job : Job}
      {start point : Console} (comes : ComesTo program (run (bound + 1)) console job start)
      (passes : Passes bound (fun ev => step bound ev job) start point) :
      Passes (bound + 1) program console point

section Begin

variable {ev : Evaluator} {console start : Console} {job : Job}

/-- A computation that ends at once if a job in it does comes to that job. -/
theorem comesTo_of_abort {program : Evaluator → Eval α}
    (abort : ∀ (other : Evaluator) final, other job start = .error .outOfSteps final →
      (ended (program other console)).world = final.world) :
    ComesTo program ev console job start := by
  classical
  let usual := (ended (program ev console)).world
  -- The job ends in a world that the computation does not end in otherwise.
  let final : Console :=
    { start with world := { usual with config.maxCallDepth := usual.config.maxCallDepth + 1 } }
  let other : Evaluator := fun job' start' =>
    if (job', start') = (job, start) then .error .outOfSteps final else ev job' start'
  refine ⟨other, fun job' start' different => if_neg different, ?_⟩
  intro same
  have ends : (ended (program other console)).world = final.world :=
    abort other final (if_pos rfl)
  rw [same] at ends
  have limits := congrArg (fun world => world.config.maxCallDepth) ends
  exact absurd limits (Nat.ne_of_lt (Nat.lt_succ_self _))

/-- A call that is not refused comes to a job with the call in progress. -/
theorem comesTo_withFrame {frame : Frame} {next : job.Result → Eval α}
    (room : console.calls.depth < console.world.config.maxCallDepth) :
    ComesTo (fun ev => withFrame frame (ev job) >>= next) ev console job
      { console with calls := console.calls.push frame } := by
  refine comesTo_of_abort fun other final aborted => ?_
  simp only [bind_apply, withFrame_apply, Nat.not_le.mpr room, ↓reduceIte, aborted]
  rfl

/-- An expression that is not refused comes to its evaluation with itself in progress. -/
theorem comesTo_evaluation {bound : Nat} {expr : Expr}
    (room : console.nesting < console.world.config.maxExpressionDepth) :
    ComesTo (fun ev => step bound ev (.expression expr)) ev console (.evaluation expr)
      { console with nesting := console.nesting + 1 } := by
  refine comesTo_of_abort fun other final aborted => ?_
  simp only [step, withNesting_apply, Nat.not_le.mpr room, ↓reduceIte, aborted]
  rfl

end Begin

/-- Limits of calls in progress and expressions in evaluation. -/
structure Limits where
  calls : Nat
  nesting : Nat

/-- A console is within limits, and its settings allow no more. -/
structure Limits.Allow (limits : Limits) (console : Console) : Prop where
  calls : console.calls.depth ≤ limits.calls
  nesting : console.nesting ≤ limits.nesting
  maxCalls : console.world.config.maxCallDepth ≤ limits.calls
  maxNesting : console.world.config.maxExpressionDepth ≤ limits.nesting

namespace Limits.Allow

variable {limits : Limits} {console final : Console}

/-- What restores the calls and keeps the settings stays within limits. -/
theorem restored {inside : Bool} (allowed : limits.Allow console)
    (restored : Restored inside console final) (evolves : console.world.Evolves final.world) :
    limits.Allow final := by
  constructor
  case calls =>
    exact restored.depth ▸ allowed.calls
  case nesting =>
    exact restored.nesting ▸ allowed.nesting
  case maxCalls =>
    exact evolves.config ▸ allowed.maxCalls
  case maxNesting =>
    exact evolves.config ▸ allowed.maxNesting

end Limits.Allow

section Bounds

variable {limits : Limits}

/-- What an evaluator does outside of limits does not matter to what is put together from
the constructs. -/
theorem Composed.agree {inside : Bool} {program : Evaluator → Eval α}
    (composed : Composed (.hosted True) inside program) {ev other : Evaluator}
    (restored : ∀ (job : Job) console, Restored job.isInside console (ended (ev job console)))
    (evolves : ∀ (job : Job) (console : Console),
      console.world.Evolves (ended (ev job console)).world)
    (same : ∀ job console, limits.Allow console → other job console = ev job console)
    {console : Console} (allowed : limits.Allow console) :
    program other console = program ev console := by
  induction composed generalizing console with
  | pure result => rfl
  | @bind inside α β first next start rest ihStart ihRest =>
      simp only [bind_apply, ihStart allowed]
      have kept := start.restored restored console
      have changed := start.evolves evolves console
      cases ran : first ev console with
      | ok value between =>
          rw [ran] at kept changed
          exact ihRest value (allowed.restored kept changed)
      | error abort between => rfl
  | job job within => exact same job console allowed
  | change allowed => rfl
  | reading next rest ih => exact ih console.world console.world.hostedIf_true allowed
  | readingCall next rest ih => exact ih console console.world.hostedIf_true allowed
  | updateCall change => rfl
  | fail fault => rfl
  | throw abort => rfl
  | withFrame frame composed ih =>
      simp only [withFrame_apply]
      split
      · rfl
      · rw [ih]
        have room := allowed.maxCalls
        refine ⟨?_, allowed.nesting, room, allowed.maxNesting⟩
        change console.calls.depth + 1 ≤ limits.calls
        omega
  | withNesting composed ih =>
      simp only [withNesting_apply]
      split
      · rfl
      · rw [ih]
        have room := allowed.maxNesting
        refine ⟨allowed.calls, ?_, allowed.maxCalls, room⟩
        change console.nesting + 1 ≤ limits.nesting
        omega
  | @attempt inside α body _ composed ih =>
      change Eval.attempt (body other) console = Eval.attempt (body ev) console
      unfold Eval.attempt
      rw [ih allowed]

/-- A computation within limits comes to jobs within limits alone. -/
theorem Composed.allowed_of_comesTo {inside : Bool} {program : Evaluator → Eval α}
    (composed : Composed (.hosted True) inside program) {bound : Nat} {console start : Console}
    {job : Job} (comes : ComesTo program (run bound) console job start)
    (allowed : limits.Allow console) : limits.Allow start :=
  comes.holds (fun _ start => limits.Allow start) fun _ same =>
    composed.agree (run_restored bound) (run_evolves bound) same allowed

/-- Every point of a run that begins within limits is within them. -/
theorem Passes.allowed {inside : Bool} {program : Evaluator → Eval α}
    (composed : Composed (.hosted True) inside program) {bound : Nat} {console point : Console}
    (passes : Passes bound program console point) (allowed : limits.Allow console) :
    limits.Allow point := by
  induction passes generalizing inside with
  | start bound program console => exact allowed
  | finish bound program console =>
      exact allowed.restored (composed.restored (run_restored bound) console)
        (composed.evolves (run_evolves bound) console)
  | reach comes => exact composed.allowed_of_comesTo comes allowed
  | @inside α bound program console job start point comes passes ih =>
      exact ih (composed_step bound job) (composed.allowed_of_comesTo comes allowed)

end Bounds

/-- A computation that is run on a console ends with the calls in progress and the
expressions in evaluation of its start, and at no point there are more of them than the
settings allow or were there at its start. -/
structure Disciplined (bound : Nat) (program : Evaluator → Eval α) (console : Console) :
    Prop where
  calls : (ended (program (run bound) console)).calls = console.calls
  nesting : (ended (program (run bound) console)).nesting = console.nesting
  depth_le : ∀ point, Passes bound program console point →
    point.calls.frames.length ≤
      max console.calls.frames.length console.world.config.maxCallDepth
  nesting_le : ∀ point, Passes bound program console point →
    point.nesting ≤ max console.nesting console.world.config.maxExpressionDepth

/-- What is put together from the constructs and does not work inside the innermost call
is disciplined. -/
theorem Composed.disciplined {program : Evaluator → Eval α}
    (composed : Composed (.hosted True) false program)
    (bound : Nat) (console : Console) : Disciplined bound program console := by
  have restored := composed.restored (run_restored bound) console
  have allowed : Limits.Allow
      ⟨max console.calls.depth console.world.config.maxCallDepth,
        max console.nesting console.world.config.maxExpressionDepth⟩ console :=
    ⟨Nat.le_max_left _ _, Nat.le_max_left _ _, Nat.le_max_right _ _, Nat.le_max_right _ _⟩
  refine ⟨restored.calls rfl, restored.nesting, ?_, ?_⟩
  · intro point passes
    rw [← point.calls.depth_eq, ← console.calls.depth_eq]
    exact (passes.allowed composed allowed).calls
  · intro point passes
    exact (passes.allowed composed allowed).nesting

/-- All operations of the host and all calls of functions leave the calls in progress and
the expressions in evaluation as they found them, whether they come to a result or end in
an error, and stay within the limits in between. -/
theorem operations_disciplined (bound : Nat) (console : Console) :
    (∀ operation : Operation, Disciplined bound (fun ev => perform ev operation) console) ∧
      ∀ (entry : Entry Callable) (arguments : List Value),
        Disciplined bound (fun ev => ev (.call entry arguments)) console :=
  ⟨fun operation => (composed_perform operation).disciplined bound console,
    fun _ arguments => (composed_call_job (fun _ => trivial) arguments).disciplined bound console⟩

end ScriptConsole.Eval
