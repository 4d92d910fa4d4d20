import ScriptConsole.Proofs.Console.Orderly
import ScriptConsole.Proofs.Eval.Evolution
import ScriptConsole.Proofs.Eval.Twins

/-! # Raising the limits

Where there are no functions of the host, an operation that comes to a result comes to the same
one, on a console that is the same in the end, if more calls may be in progress and more
expressions in evaluation (`ScriptConsole.Eval.perform_raised`). No part of evaluation goes on
after an error for want of room, so whatever came to a result was never refused.
-/

namespace ScriptConsole

/-- A world without functions of the host. -/
def World.Hostless (world : World) : Prop :=
  world.spaces.Each fun target => ¬ target.IsHosted

attribute [ext] Console

/-- The settings with other limits of calls and expressions. -/
def Config.withLimits (config : Config) (calls expressions : Nat) : Config :=
  { config with maxCallDepth := calls, maxExpressionDepth := expressions }

/-- The console with other limits of calls and expressions. -/
def Console.withLimits (console : Console) (calls expressions : Nat) : Console :=
  { console with world.config := console.world.config.withLimits calls expressions }

/-- A journal is another one with limits that are not lower. -/
structure Journal.Raised (calls expressions : Nat) (first second : Journal) : Prop where
  second_eq : second = { first with config := first.config.withLimits calls expressions }
  calls_le : first.config.maxCallDepth ≤ calls
  expressions_le : first.config.maxExpressionDepth ≤ expressions

namespace Journal

/-- What is put down does not depend on the limits. -/
theorem add_withLimits (journal : Journal) (note : Note) (calls expressions : Nat) :
    Journal.add { journal with config := journal.config.withLimits calls expressions } note =
      { journal.add note with
        config := (journal.add note).config.withLimits calls expressions } := by
  obtain ⟨config, sink, log⟩ := journal
  cases note with
  | sendTo sink => rfl
  | say text => cases sink <;> rfl
  | warn text =>
      obtain ⟨_, _, _, _, echo⟩ := config
      cases sink <;> cases echo <;> rfl

theorem add_config (journal : Journal) (note : Note) :
    (journal.add note).config = journal.config := by
  obtain ⟨⟨_, _, _, _, echo⟩, sink, log⟩ := journal
  cases note <;> cases sink <;> cases echo <;> rfl

/-- No error has to match where there are no functions of the host. -/
theorem kept_raised (calls expressions : Nat) : Kept False (Raised calls expressions) where
  add note raised := by
    obtain ⟨rfl, callsLe, expressionsLe⟩ := raised
    refine ⟨add_withLimits _ note calls expressions, ?_, ?_⟩
    · rw [add_config]
      exact callsLe
    · rw [add_config]
      exact expressionsLe
  calls_le raised := by
    obtain ⟨rfl, callsLe, _⟩ := raised
    exact callsLe
  nesting_le raised := by
    obtain ⟨rfl, _, expressionsLe⟩ := raised
    exact expressionsLe
  calls_eq := nofun
  nesting_eq := nofun

end Journal

/-- The built-in functions are not those of a host. -/
theorem World.hostless_new (config : Config) (serial : Nat) :
    (World.new config serial).Hostless := by
  intro layer name target found
  have proper := (sane_new config serial).functions layer name target found
  cases target with
  | script filename definition => exact id
  | native isMethod arity code =>
      obtain ⟨builtin, rfl⟩ := proper
      exact id

namespace Eval

/-- An operation that comes to a result comes to the same one under higher limits, and everything
else is the same after it. -/
theorem perform_raised (bound : Nat) (operation : Operation) {console final : Console}
    (hostless : console.world.Hostless) {calls calls' expressions expressions' : Nat}
    (moreCalls : calls ≤ calls') (moreExpressions : expressions ≤ expressions')
    {answer : operation.Answer}
    (done : perform (run bound) operation (console.withLimits calls expressions) =
      .ok answer final) :
    perform (run bound) operation (console.withLimits calls' expressions') =
      .ok answer (final.withLimits calls' expressions') := by
  have twins : Console.Twins (Journal.Raised calls' expressions') False false
      (console.withLimits calls expressions) (console.withLimits calls' expressions') :=
    ⟨⟨rfl, moreCalls, moreExpressions⟩, rfl, hostless, rfl, nofun, rfl⟩
  have kept := Journal.kept_raised calls' expressions'
  have runs := (composed_perform operation).run_mirrors kept bound _ _ twins
  rw [done] at runs
  obtain ⟨later, same, paired⟩ := runs
  have world : later.world = (final.withLimits calls' expressions').world := by
    rw [paired.twins.world, paired.twins.journals.second_eq]
    rfl
  have calls : later.calls = final.calls :=
    (paired.second.calls rfl).trans (paired.first.calls rfl).symm
  rw [same]
  exact congrArg (EStateM.Result.ok answer) (Console.ext world calls paired.twins.nesting)

/-- A function that adds up the numbers up to its argument. -/
def sumSource : String :=
  "function sum(%n) \x7b if (%n < 1) return 0; return %n + sum(%n - 1); \x7d return sum(3);"

/-- The sum needs room for five calls and nine expressions, and is the same if there is more. -/
theorem perform_raised_sum :
    ∃ answer final,
      perform (run 60) (.evaluate sumSource) ((Console.new {} 0).withLimits 5 9) =
        .ok answer final ∧
      perform (run 60) (.evaluate sumSource) ((Console.new {} 0).withLimits 1000 10000) =
        .ok answer (final.withLimits 1000 10000) := by
  have succeeded : (result? (perform (run 60) (.evaluate sumSource)
      ((Console.new {} 0).withLimits 5 9))).isSome = true := by
    decide +kernel
  obtain ⟨answer, came⟩ := Option.isSome_iff_exists.mp succeeded
  obtain ⟨final, ran⟩ := result?_eq_some_iff.mp came
  have hostless : (Console.new {} 0).world.Hostless := by
    rw [Console.new_world]
    exact World.hostless_new _ _
  exact ⟨answer, final, ran,
    perform_raised 60 (.evaluate sumSource) hostless (by decide) (by decide) ran⟩

end Eval

end ScriptConsole
