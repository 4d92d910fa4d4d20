import ScriptConsole.Proofs.Eval.Easing

/-! # Hosts that yield

A function of the host yields if it never goes on after an operation that had no room for a further
expression (`ScriptConsole.HostProgram.Yields`). One that passes on whatever error an operation ends
with does (`ScriptConsole.HostProgram.Yields.ask_of_fail`). Where all functions of the host yield,
and register none but such functions, all runs are unbroken
(`ScriptConsole.Eval.unbroken_of_yielding`).
-/

namespace ScriptConsole

/-- The program ends with the error of an operation that had no room for a further expression, and
the functions that it registers do so too. -/
def HostProgram.Yields : HostProgram → Prop
  | .done _ => True
  | .fail _ => True
  | .ask _ next => ∀ answer,
    (next answer).Yields ∧ ∀ error, nestingError? answer = some error → next answer = .fail error
  | .register _ _ _ _ code next => (∀ call, (code call).Yields) ∧ next.Yields

/-- A function of a script, a built-in one, or one of the host that yields. -/
def Callable.Yields : Callable → Prop
  | .native _ _ (.host program) => ∀ call, (program call).Yields
  | _ => True

/-- A world in which all functions of the host yield. -/
def World.Yields (world : World) : Prop :=
  world.spaces.Each Callable.Yields

namespace HostProgram.Yields

/-- A program that passes on whatever error its operation ends with yields if the rest does. -/
theorem ask_of_fail {operation : Operation} {next : Except EvalError operation.Answer → HostProgram}
    (fails : ∀ error, next (.error error) = .fail error)
    (rest : ∀ answer, (next (.ok answer)).Yields) : (HostProgram.ask operation next).Yields := by
  intro answer
  cases answer with
  | ok answer => exact ⟨rest answer, nofun⟩
  | error reason =>
      rw [fails reason]
      refine ⟨trivial, fun error failed => ?_⟩
      obtain ⟨_, same⟩ := Option.ite_none_right_eq_some.mp failed
      exact congrArg HostProgram.fail (Option.some.inj same)

/-- A program that yields does the same when it is made to. -/
theorem yielding_eq {program : HostProgram} (yields : program.Yields) :
    program.yielding = program := by
  induction program with
  | done result => rfl
  | fail error => rfl
  | ask operation next ih =>
      refine congrArg (HostProgram.ask operation) (funext fun answer => ?_)
      obtain ⟨rest, ends⟩ := yields answer
      split
      next error failed => exact (ends error failed).symm
      next => exact ih answer rest
  | register space name isMethod arity code next _ ih =>
      exact congrArg (HostProgram.register space name isMethod arity code) (ih yields.2)

end HostProgram.Yields

namespace Callable.Yields

theorem yielding_eq {target : Callable} (yields : target.Yields) : target.yielding = target := by
  cases target with
  | script filename definition => rfl
  | native isMethod arity code =>
      cases code with
      | builtin builtin => rfl
      | host program =>
          have same : (fun call => (program call).yielding) = program :=
            funext fun call => (yields call).yielding_eq
          exact congrArg (fun program => Callable.native isMethod arity (.host program)) same

theorem of_own {target : Callable} (own : ¬ target.IsHosted) : target.Yields := by
  cases target with
  | script filename definition => exact trivial
  | native isMethod arity code =>
      cases code with
      | builtin builtin => exact trivial
      | host program => exact absurd trivial own

end Callable.Yields

namespace Eval

variable {α : Type} {inside : Bool}

/-- All functions of the host yield, also those that come about. -/
def Terms.yielding : Terms where
  callable := Callable.Yields
  changes := World.Preserves World.Yields
  catches := True
  notes := True
  gentle gentle := World.preserves_each gentle.functions
  define layer name _ _ := World.define_each layer name trivial

theorem Terms.open_yielding : Terms.yielding.Open where
  enter draft name := World.preserves_each (World.enter_functions draft name)
  copyFields _ _ := fun _ yields => yields
  registerClass spec := World.preserves_each (World.registerClass_functions spec)

/-- A computation keeps all functions of the host yielding. -/
abbrev KeepsYielding (program : Evaluator → Eval α) : Prop :=
  Upholds World.Yields (Job.Calls Callable.Yields) program fun _ => True

theorem Composed.keepsYielding {program : Evaluator → Eval α}
    (composed : Composed .yielding inside program) : KeepsYielding program :=
  composed.upholds (fun _ yields => yields) id

/-- A program that yields keeps all functions of the host yielding: its operations bring none in,
and those that it registers yield by themselves. -/
theorem keepsYielding_runHost {program : HostProgram} (yields : program.Yields) :
    KeepsYielding fun ev => runHost ev program := by
  induction program with
  | done result => exact .pure trivial
  | fail error => exact .throw (.error error)
  | ask operation next ih =>
      have asked : Composed .yielding true fun ev => perform ev operation :=
        composed_operation trivial fun _ => Terms.open_yielding
      exact .bind asked.keepsYielding.attempt fun answer _ => ih answer (yields answer).1
  | register space name isMethod arity code next _ ih =>
      obtain ⟨calls, rest⟩ := yields
      have registered : World.Preserves World.Yields
          (World.registerNative space name isMethod arity (.host code)) :=
        World.registerNative_each space name calls
      exact .bind (.keeping registered) fun _ _ => ih rest

theorem keepsYielding_step (bound : Nat) (job : Job) (calls : job.Calls Callable.Yields) :
    KeepsYielding fun ev => step bound ev job := by
  have others {job : Job} (own : job.Calls fun target => ¬ target.IsHosted) :
      KeepsYielding fun ev => step bound ev job :=
    (composed_step_own trivial Terms.open_yielding bound own).keepsYielding
  cases job with
  | call entry arguments =>
      exact upholds_callEntry .yielding trivial (fun _ yields => yields) id
        (fun yields call => keepsYielding_runHost (yields call)) calls arguments
  | _ => exact others trivial

/-- Where all functions of the host yield, none goes on after there was no room for a further
expression. -/
theorem unbroken_of_yielding (bound : Nat) (job : Job) (calls : job.Calls Callable.Yields)
    {console : Console} (yields : console.world.Yields) : Unbroken bound job console := by
  -- the run depends on what the evaluator does with such jobs in such worlds alone, and there it
  -- does the same if functions of the host yield
  induction bound generalizing job console with
  | zero => rfl
  | succ bound ih =>
      have loyal := loyal_run keepsYielding_step bound
      have same := (keepsYielding_step bound job calls (run bound) console loyal yields).2
        (runYielding bound) fun _ _ allowed => ih _ allowed.1 allowed.2
      cases job with
      | call entry arguments =>
          unfold Unbroken runYielding
          rw [calls.yielding_eq]
          exact same
      | _ => exact same

/-- Where there are no functions of the host, none goes on after an error. -/
theorem unbroken_of_hostless (bound : Nat) (job : Job)
    (own : job.Calls fun target => ¬ target.IsHosted) {console : Console}
    (hostless : console.world.Hostless) : Unbroken bound job console := by
  refine unbroken_of_yielding bound job ?_ fun layer name target found =>
    .of_own (hostless layer name target found)
  cases job with
  | call entry arguments => exact .of_own own
  | _ => exact trivial

end Eval

section Probe

/-- A function of the host that has a source evaluated and answers what it came to. It is left open
what the function does where the evaluation ends with an error. -/
def HostProgram.probe (otherwise : EvalError → HostProgram) : HostProgram :=
  .ask (.evaluate "return 1;") fun
    | .ok (.ok value) => .done value
    | .ok (.error _) => .done .empty
    | .error error => otherwise error

/-- The function yields if it passes errors on. -/
theorem HostProgram.probe_yields : (HostProgram.probe .fail).Yields := by
  refine .ask_of_fail (fun _ => rfl) fun answer => ?_
  cases answer with
  | ok value => exact trivial
  | error diagnostic => exact trivial

/-- A new world with the function and room for some expressions. -/
@[irreducible] def World.probed (room : Nat) (otherwise : EvalError → HostProgram) : World :=
  ((registerNative none "probe" false (.exactly 0) (.host fun _ => .probe otherwise)).run
    (new { maxExpressionDepth := room } 0)).2

/-- A new console in a call, with the function and room for some expressions. -/
@[irreducible] def Console.probed (room : Nat) (otherwise : EvalError → HostProgram) : Console :=
  ⟨.probed room otherwise, CallStack.empty.push (.ofScript "main.cs"), 0⟩

/-- A call of the function. -/
def Expr.probe : Expr :=
  .call ⟨0, .start, .start⟩ (.global ⟨0, false, "probe"⟩) []

theorem World.probed_yields (room : Nat) : (World.probed room .fail).Yields := by
  have own : (World.new { maxExpressionDepth := room } 0).Yields := fun layer name target found =>
    .of_own (World.hostless_new _ _ layer name target found)
  have registered : World.Preserves World.Yields
      (World.registerNative none "probe" false (.exactly 0) (.host fun _ => .probe .fail)) :=
    World.registerNative_each none "probe" fun _ => HostProgram.probe_yields
  unfold World.probed
  exact registered _ own

/-- The only function of the host in the console yields if it passes errors on. -/
theorem Console.probed_yields (room : Nat) : (Console.probed room .fail).world.Yields := by
  unfold Console.probed
  exact World.probed_yields room

end Probe

end ScriptConsole
