import ScriptConsole.Parse.Basic

/-! # What parsers read inside one another

Statements, expressions, operands of prefix operators and declared objects contain one
another. A parser for one of them is given a parser for what it may contain.
-/

namespace ScriptConsole.Parse

/-- The parts of a script that contain one another. -/
inductive Goal where
  | statement
  | expression
  /-- An operand with the prefix operators in front of it. -/
  | operand
  | newObject
  | datablock

/-- What reading a part gives. -/
@[reducible] def Goal.Result : Goal → Type
  | statement => Stmt
  | expression => Expr
  | operand => Expr
  | newObject => ObjectDecl
  | datablock => ObjectDecl

/-- A parser for every part. -/
abbrev Parser := (goal : Goal) → Parse goal.Result

end ScriptConsole.Parse
