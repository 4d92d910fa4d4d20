import ScriptConsole.Proofs.Eval.Evolution
import ScriptConsole.Proofs.Eval.Twins

/-! # Calls and the local variables of their callers

What a call does depends on the local variables of no other call in progress, and changes none of
them (`ScriptConsole.Eval.calls_isolated`). The same holds of sources, of scripts, of the functions
that objects call when they come and go, and of all that the host asks for.
-/

namespace ScriptConsole

/-- Two consoles differ only in the local variables of the calls in progress. -/
structure Console.SameButLocals (console twin : Console) : Prop where
  world : twin.world = console.world
  calls : twin.calls.frames.map Frame.outline = console.calls.frames.map Frame.outline
  nesting : twin.nesting = console.nesting

namespace Eval

variable {α : Type} {console twin : Console}

/-- On two consoles a computation comes to the same outcome and leaves the same world, and each
console keeps the calls that were in progress and the number of expressions in evaluation. -/
structure Isolated (program : Eval α) (console twin : Console) : Prop where
  outcome : outcome (program twin) = outcome (program console)
  world : (ended (program twin)).world = (ended (program console)).world
  calls : (ended (program console)).calls = console.calls
  callsOfTwin : (ended (program twin)).calls = twin.calls
  nesting : (ended (program console)).nesting = console.nesting
  nestingOfTwin : (ended (program twin)).nesting = twin.nesting

/-- Notes keep journals the same. -/
theorem kept_eq : Journal.Kept True Eq where
  add _ same := same ▸ rfl
  calls_le same := same ▸ Nat.le_refl _
  nesting_le same := same ▸ Nat.le_refl _
  calls_eq _ same := same ▸ rfl
  nesting_eq _ same := same ▸ rfl

/-- What is put together from the constructs and does not work inside the innermost call depends
on no local variables. -/
theorem Composed.isolated {program : Evaluator → Eval α}
    (composed : Composed (.hosted True) false program) (bound : Nat)
    (same : console.SameButLocals twin) :
    Isolated (program (run bound)) console twin := by
  have twins : Console.Twins Eq True false console twin :=
    ⟨congrArg World.journal same.world.symm, by rw [same.world]; rfl,
      console.world.hostedIf_true, same.calls, nofun, same.nesting⟩
  obtain ⟨outcome, paired⟩ := (composed.run_mirrors kept_eq bound console twin twins).outcome
  refine ⟨outcome, ?_, paired.first.calls rfl, paired.second.calls rfl, paired.first.nesting,
    paired.second.nesting⟩
  rw [paired.twins.world, ← paired.twins.journals]
  rfl

/-- Calls of functions, sources that scripts evaluate, scripts, functions that objects call when
they come and go, and operations of the host depend on no local variables of the calls in
progress and change none. -/
theorem calls_isolated (bound : Nat) (same : console.SameButLocals twin) :
    (∀ (entry : Entry Callable) (arguments : List Value),
        Isolated (run bound (.call entry arguments)) console twin) ∧
      (∀ source : String, Isolated (evaluateForScript (run bound) source) console twin) ∧
      (∀ script : Script, Isolated (execute (run bound) script) console twin) ∧
      (∀ (id : Nat) (name : String), Isolated (notify (run bound) id name) console twin) ∧
      ∀ operation : Operation, Isolated (perform (run bound) operation) console twin :=
  ⟨fun _ arguments => (composed_call_job (fun _ => trivial) arguments).isolated bound same,
    fun source => (composed_evaluateForScript trivial source).isolated bound same,
    fun script => (composed_execute trivial script).isolated bound same,
    fun id name => (composed_notify id name).isolated bound same,
    fun operation => (composed_perform operation).isolated bound same⟩

/-- A new console in which a function was called whose parameter `x` took an argument. -/
def callingConsole (argument : Value) : Console :=
  let call : Frame := .ofCall ⟨⟨0, false, "f"⟩, .global⟩ "main.cs" [⟨0, false, "x"⟩] [argument]
  { Console.new {} 0 with calls := .push .empty call }

/-- A source that scripts evaluate in the function has a variable of its own by that name. -/
theorem calls_isolated_source :
    Isolated (evaluateForScript (run 40) "%x = %x + 1; return %x;") (callingConsole (.int 1))
      (callingConsole (.int 2)) := by
  have same : (callingConsole (.int 1)).SameButLocals (callingConsole (.int 2)) :=
    ⟨rfl, rfl, rfl⟩
  exact (calls_isolated 40 same).2.1 "%x = %x + 1; return %x;"

end Eval

end ScriptConsole
