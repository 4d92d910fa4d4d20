/-! # Walks

A walk goes from an item to the one after it for as long as there is one. The number of
steps is bounded.
-/

namespace ScriptConsole

/-- An item, the one after it, the one after that and so on, over at most so many
steps. -/
def walk {α : Type} (next? : α → Option α) : Nat → α → List α
  | 0, _ => []
  | steps + 1, item =>
    item :: match next? item with
      | none => []
      | some next => walk next? steps next

end ScriptConsole
