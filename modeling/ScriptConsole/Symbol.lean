import Std.Data.TreeMap
import ScriptConsole.Text.Fold

/-! # Symbols

Names that scripts use are compared by identity. A symbol table gives equal names,
up to the case of letters, the same symbol, which keeps the spelling that was seen
first. String constants have symbols too, one for each exact text, and a symbol of
one kind is never a symbol of the other. Symbols of different tables differ.
-/

namespace ScriptConsole

/-- An interned string: the serial number of its table, whether it stands for a
string constant, and its spelling. -/
structure Symbol where
  table : Nat
  exact : Bool
  text : String
  deriving DecidableEq

namespace Symbol

/-- Symbols are ordered by table, kind and spelling. -/
instance : Ord Symbol where
  compare := compareLex (compareOn table)
    (compareLex (compareOn fun symbol => symbol.exact.toNat) (compareOn text))

theorem compare_eq (first second : Symbol) :
    compare first second = (compare first.table second.table).then
      ((compare first.exact.toNat second.exact.toNat).then (compare first.text second.text)) :=
  rfl

instance : Std.TransOrd Symbol :=
  inferInstanceAs (Std.TransCmp (compareLex (compareOn table)
    (compareLex (compareOn fun symbol => symbol.exact.toNat) (compareOn text))))

instance : Std.LawfulEqOrd Symbol where
  eq_of_compare {first second} equal := by
    rw [compare_eq] at equal
    simp only [Ordering.then_eq_eq, Std.compare_eq_iff_eq] at equal
    obtain ⟨tables, kinds, texts⟩ := equal
    cases first with | mk table exact text =>
    cases second with | mk table' exact' text' =>
    cases exact <;> cases exact' <;> simp_all

end Symbol

/-- The names seen so far: for each folded name the spelling it keeps. -/
structure SymbolTable where
  serial : Nat
  names : Std.TreeMap String String

namespace SymbolTable

/-- The table of a given serial number before any name is seen. -/
def empty (serial : Nat) : SymbolTable :=
  ⟨serial, {}⟩

/-- The symbol of a name that was seen before. -/
def find? (symbols : SymbolTable) (name : String) : Option Symbol :=
  (symbols.names[Text.fold name]?).map fun spelling => ⟨symbols.serial, false, spelling⟩

/-- The symbol of a name, which from now on counts as seen. -/
def intern (symbols : SymbolTable) (name : String) : Symbol × SymbolTable :=
  match symbols.find? name with
  | some symbol => (symbol, symbols)
  | none =>
    (⟨symbols.serial, false, name⟩,
      { symbols with names := symbols.names.insert (Text.fold name) name })

/-- The symbol of a string constant. -/
def constant (symbols : SymbolTable) (text : String) : Symbol :=
  ⟨symbols.serial, true, text⟩

/-- Interns several names in order. -/
def internAll (symbols : SymbolTable) : List String → List Symbol × SymbolTable
  | [] => ([], symbols)
  | name :: names =>
    let (symbol, symbols) := symbols.intern name
    let (rest, symbols) := symbols.internAll names
    (symbol :: rest, symbols)

end SymbolTable

end ScriptConsole
