/-! # Loops in rounds

A loop repeats a round until the round says it is done. The number of rounds is
bounded; running out of them is a failure of its own.
-/

namespace ScriptConsole

/-- How a round ends: with a state for the next one, or with the result of the loop. -/
inductive Round (σ β : Type) where
  | again (state : σ)
  | done (result : β)

/-- Runs rounds from a state, at most as many as the bound says. -/
def rounds {ε κ σ β : Type} (exhausted : ε) (round : σ → EStateM ε κ (Round σ β)) :
    Nat → σ → EStateM ε κ β
  | 0, _ => throw exhausted
  | bound + 1, state => do
    match ← round state with
    | .done result => return result
    | .again state => rounds exhausted round bound state

end ScriptConsole
