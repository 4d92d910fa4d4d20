import ScriptConsole.Proofs.Eval.Parts
import ScriptConsole.Proofs.Eval.Results

/-! # What runs do to worlds

Whatever a run does to the world, by scripts, built-ins and the host, it does by basic
changes (`ScriptConsole.Eval.run_evolves`). So what basic changes keep holds at the end of
every run, however it ends.
-/

namespace ScriptConsole

/-- A new console has the world of new consoles. -/
theorem Console.new_world (config : Config) (serial : Nat) :
    (Console.new config serial).world = World.new config serial := by
  unfold Console.new
  with_reducible rfl

namespace Eval

variable {α : Type}

/-- Whatever is put together from the constructs changes the world by basic changes, if
the jobs inside it do. -/
theorem Composed.evolves {inside : Bool} {program : Evaluator → Eval α}
    (composed : Composed (.hosted True) inside program) {ev : Evaluator}
    (inner : ∀ (job : Job) (console : Console),
      console.world.Evolves (ended (ev job console)).world)
    (console : Console) : console.world.Evolves (ended (program ev console)).world := by
  induction composed generalizing console with
  | pure result => exact .refl
  | @bind inside α β first next start rest ihStart ihRest =>
      have head := ihStart console
      simp only [bind_apply]
      cases ran : first ev console with
      | ok value between =>
          rw [ran] at head
          exact head.trans (ihRest value between)
      | error abort between =>
          rw [ran] at head
          exact head
  | job job within => exact inner job console
  | change allowed => exact allowed.1.evolves console.world
  | reading same rest ih => exact ih console.world console.world.hostedIf_true console
  | readingCall same rest ih => exact ih console console.world.hostedIf_true console
  | updateCall change => exact .refl
  | fail fault => exact .refl
  | throw abort => exact .refl
  | withFrame frame composed ih =>
      simp only [withFrame_apply]
      split
      · exact .refl
      · rw [ended_closing]
        exact ih { console with calls := console.calls.push frame }
  | withNesting composed ih =>
      simp only [withNesting_apply]
      split
      · exact .refl
      · rw [ended_closing]
        exact ih { console with nesting := console.nesting + 1 }
  | attempt allowed composed ih =>
      simp only [ended_attempt]
      exact ih console

/-- Every job changes the world by basic changes. -/
theorem run_evolves (bound : Nat) (job : Job) (console : Console) :
    console.world.Evolves (ended (run bound job console)).world := by
  induction bound generalizing job console with
  | zero => exact .refl
  | succ bound ih => exact (composed_step bound job).evolves ih console

/-- Every operation of the host changes the world by basic changes. -/
theorem perform_evolves (bound : Nat) (operation : Operation) (console : Console) :
    console.world.Evolves (ended (perform (run bound) operation console)).world :=
  (composed_perform operation : Composed (.hosted True) false _).evolves (run_evolves bound) console

end Eval

end ScriptConsole
