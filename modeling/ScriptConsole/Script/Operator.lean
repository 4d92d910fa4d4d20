/-! # Operators of the script language -/

namespace ScriptConsole

/-- Operators between two operands, from the loosest to the tightest. -/
inductive BinaryOp where
  | logicalOr
  | logicalAnd
  | bitOr
  | bitXor
  | bitAnd
  | equal
  | notEqual
  | less
  | greater
  | lessEqual
  | greaterEqual
  /-- Texts joined without a separator. -/
  | join
  | joinSpace
  | joinTab
  | joinNewline
  | sameText
  | differentText
  | shiftLeft
  | shiftRight
  | add
  | subtract
  | multiply
  | divide
  | remainder
  deriving DecidableEq

/-- Operators on one operand. The last four write their result back. -/
inductive UnaryOp where
  | logicalNot
  | bitNot
  | negate
  | preIncrement
  | preDecrement
  | postIncrement
  | postDecrement
  deriving DecidableEq

/-- Whether the operator writes to its operand. -/
def UnaryOp.writes : UnaryOp → Bool
  | preIncrement | preDecrement | postIncrement | postDecrement => true
  | _ => false

/-- Assignments: the plain one and those that combine the old value with the new. -/
inductive AssignOp where
  | set
  | add
  | subtract
  | multiply
  | divide
  | remainder
  | bitAnd
  | bitOr
  | bitXor
  | shiftLeft
  | shiftRight
  deriving DecidableEq

/-- The operator with which a compound assignment combines the old value and the
assigned one. -/
def AssignOp.combines? : AssignOp → Option BinaryOp
  | set => none
  | add => some .add
  | subtract => some .subtract
  | multiply => some .multiply
  | divide => some .divide
  | remainder => some .remainder
  | bitAnd => some .bitAnd
  | bitOr => some .bitOr
  | bitXor => some .bitXor
  | shiftLeft => some .shiftLeft
  | shiftRight => some .shiftRight

end ScriptConsole
