import ScriptConsole.Script.Operator
import ScriptConsole.Value.Basic

/-! # Operators on values

Arithmetic and comparison read their operands as floats, bitwise operators and the
remainder as 64-bit integers that wrap, and the rest as texts. Division and
remainder by zero give zero.
-/

namespace ScriptConsole.Value

/-- Two texts with a separator between them. -/
def joinTexts (separator : String) (left right : Value) : Value :=
  text (left.toText ++ separator ++ right.toText)

/-- Whether two values have the same text up to letter case. -/
def sameText (left right : Value) : Bool :=
  Text.sameFolded left.toText right.toText

/-- Whether two values are the same number. -/
def sameNumber (left right : Value) : Bool :=
  left.toNumber == right.toNumber

/-- The number of places a shift moves by. -/
def shiftCount (value : Value) : Int64 :=
  value.toInt &&& 63

/-- The result of an operator between two operands that are both evaluated. -/
def applyBinary (op : BinaryOp) (left right : Value) : Value :=
  match op with
  | .logicalOr => ofBool (left.toBool || right.toBool)
  | .logicalAnd => ofBool (left.toBool && right.toBool)
  | .bitOr => int (left.toInt ||| right.toInt)
  | .bitXor => int (left.toInt ^^^ right.toInt)
  | .bitAnd => int (left.toInt &&& right.toInt)
  | .equal => ofBool (sameNumber left right)
  | .notEqual => ofBool !(sameNumber left right)
  | .less => ofBool (left.toNumber < right.toNumber)
  | .greater => ofBool (right.toNumber < left.toNumber)
  | .lessEqual => ofBool (left.toNumber ≤ right.toNumber)
  | .greaterEqual => ofBool (right.toNumber ≤ left.toNumber)
  | .join => joinTexts "" left right
  | .joinSpace => joinTexts " " left right
  | .joinTab => joinTexts "\t" left right
  | .joinNewline => joinTexts "\n" left right
  | .sameText => ofBool (sameText left right)
  | .differentText => ofBool !(sameText left right)
  | .shiftLeft => int (left.toInt <<< right.shiftCount)
  | .shiftRight => int (left.toInt >>> right.shiftCount)
  | .add => float (left.toNumber + right.toNumber)
  | .subtract => float (left.toNumber - right.toNumber)
  | .multiply => float (left.toNumber * right.toNumber)
  | .divide =>
    let divisor := right.toNumber
    if divisor == 0 then int 0 else float (left.toNumber / divisor)
  | .remainder =>
    let divisor := right.toInt
    if divisor = 0 then int 0 else int (left.toInt % divisor)

/-- Adds a step to a number, in 64 bits if it is an integer. -/
def stepBy (step : Int64) : Value → Value
  | int n => int (n + step)
  | value => float (value.toNumber + Binary64.ofInt step.toInt)

/-- The result of an operator on one operand. For operators that write back this is
the value to be written. -/
def applyUnary (op : UnaryOp) (value : Value) : Value :=
  match op with
  | .logicalNot => ofBool !value.toBool
  | .bitNot => int (~~~value.toInt)
  | .negate =>
    match value with
    | int n => int (-n)
    | value => float (-value.toNumber)
  | .preIncrement | .postIncrement => stepBy 1 value
  | .preDecrement | .postDecrement => stepBy (-1) value

end ScriptConsole.Value
