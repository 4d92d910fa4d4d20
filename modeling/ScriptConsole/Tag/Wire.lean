import ScriptConsole.Numeric.Numeral

/-! # The text form of tags

Where texts are expected, a tag travels as a marker character followed by its number
in decimal digits.
-/

namespace ScriptConsole.Tag

/-- The character that marks a text as a tag. -/
def marker : Char := '\x01'

/-- Tag numbers are below this bound. -/
def bound : Nat := Nat.pow 2 32

/-- The text form of a tag. -/
def encode (id : Nat) : String :=
  String.ofList (marker :: Nat.toDigits 10 id)

/-- The number that a nonempty run of digits writes, if it can be a tag. -/
def digits? : List Char → Option Nat
  | [] => none
  | '+' :: _ => none
  | text => parseNat? bound text

/-- The text without the marker, if it starts with it. -/
def unmark? : List Char → Option (List Char)
  | [] => none
  | c :: rest => if c = marker then some rest else none

/-- The tag that a text is the form of. -/
def decode? (text : String) : Option Nat :=
  (unmark? text.toList).bind digits?

/-- The tag that a text names: its text form or the bare number. -/
def parse? (text : String) : Option Nat :=
  digits? ((unmark? text.toList).getD text.toList)

end ScriptConsole.Tag
