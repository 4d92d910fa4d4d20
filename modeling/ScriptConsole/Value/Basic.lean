import ScriptConsole.Numeric.Numeral
import ScriptConsole.Numeric.FloatText
import ScriptConsole.Text.Fold

/-! # Script values

Scripts are weakly typed: every value reads as a number, an integer, a text and a
truth value, and reading never fails.
-/

namespace ScriptConsole

/-- A value that scripts compute with. -/
inductive Value where
  /-- An unassigned variable, a missing field or argument, a call that failed. -/
  | empty
  | int (value : Int64)
  | float (value : Float)
  | text (value : String)
  deriving DecidableEq, Inhabited

namespace Value

/-- Whether there is nothing to read: no value, or a text without characters. -/
def isEmpty : Value → Bool
  | empty => true
  | text s => s.isEmpty
  | _ => false

/-- The value as a number; a text counts as the numeral it starts with. -/
def toNumber : Value → Float
  | empty => 0
  | int n => Binary64.ofInt n.toInt
  | float x => x
  | text s => parseNumber s

/-- The value as an integer: fractions are cut off and large numbers held at the
bounds of 64 bits. -/
def toInt : Value → Int64
  | int n => n
  | value => Binary64.toInt64 value.toNumber

/-- The value as a text. -/
def toText : Value → String
  | empty => ""
  | int n => toString n.toInt
  | float x => FloatText.render x
  | text s => s

/-- The truth of a text: a numeral is true unless it is zero, and any other text
unless it is empty or the word `false`. -/
def textIsTrue (s : String) : Bool :=
  if isNumeric s then parseNumber s != 0
  else !(s.isEmpty || Text.sameFolded s "false")

/-- The value as a truth value. -/
def toBool : Value → Bool
  | empty => false
  | int n => n != 0
  | float x => x != 0
  | text s => textIsTrue s

/-- Truth as a value. -/
def ofBool (b : Bool) : Value :=
  int (if b then 1 else 0)

/-- A count or an object id as a value. -/
def ofNat (n : Nat) : Value :=
  int (Int64.ofNat n)

end Value

end ScriptConsole
