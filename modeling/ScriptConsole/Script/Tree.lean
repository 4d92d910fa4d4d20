import ScriptConsole.Script.Operator
import ScriptConsole.Source.Position
import ScriptConsole.Symbol

/-! # Scripts as trees

A compiled script is a list of statements. Definitions, statements and expressions are
numbered in the order in which they are completed, each sort on its own, so a node has
a greater number than the nodes of its sort inside it.
-/

namespace ScriptConsole

/-- The number of a node among those of its sort, and the stretch of source that
stands for it. -/
structure Mark where
  number : Nat
  span : Span
  deriving DecidableEq

/-- A constant in a script. -/
inductive Literal where
  | int (value : Int64)
  | float (value : Float)
  | text (constant : Symbol)
  /-- A text that becomes a tag when it is evaluated. -/
  | tagged (constant : Symbol)
  deriving DecidableEq

/-- Where a variable lives. -/
inductive Scope where
  | ofCall
  | ofConsole
  deriving DecidableEq

/-- The function that a call without an object names. -/
inductive Callee where
  | global (name : Symbol)
  | qualified (space name : Symbol)
  /-- The function that the calling one overrides. -/
  | parent (name : Symbol)
  deriving DecidableEq

mutual

/-- An expression. -/
inductive Expr where
  | assign (mark : Mark) (op : AssignOp) (target value : Expr)
  | conditional (mark : Mark) (test yes no : Expr)
  | binary (mark : Mark) (op : BinaryOp) (left right : Expr)
  | unary (mark : Mark) (op : UnaryOp) (operand : Expr)
  | literal (mark : Mark) (value : Literal)
  /-- A variable; with indices, the variable of the joined name. -/
  | variable (mark : Mark) (scope : Scope) (name : Symbol) (indices : List Expr)
  | slot (mark : Mark) (object : Expr) (field : Symbol) (indices : List Expr)
  | call (mark : Mark) (callee : Callee) (arguments : List Expr)
  | send (mark : Mark) (object : Expr) (method : Symbol) (arguments : List Expr)
  | object (declaration : ObjectDecl)
  | detag (mark : Mark) (operand : Expr)

/-- A field that an object declaration sets. -/
structure FieldInit where
  span : Span
  field : Symbol
  indices : List Expr
  value : Expr

/-- The declaration of an object, or of a datablock. -/
structure ObjectDecl where
  mark : Mark
  isDatablock : Bool
  className : Symbol
  name : Option Expr
  copySource : Option Symbol
  fields : List FieldInit
  children : List ObjectDecl

end

mutual

/-- A statement. -/
inductive Stmt where
  | block (body : Block)
  | expression (mark : Mark) (value : Expr)
  | branch (mark : Mark) (test : Expr) (yes : Stmt) (no : Option Stmt)
  /-- A loop that tests before each round, or after it. -/
  | loop (mark : Mark) (testsLast : Bool) (test : Expr) (body : Stmt)
  | count (mark : Mark) (initial test step : Option Expr) (body : Stmt)
  | break (mark : Mark)
  | continue (mark : Mark)
  | return (mark : Mark) (value : Option Expr)
  /-- A choice by number or by text. -/
  | switch (mark : Mark) (byText : Bool) (subject : Expr) (cases : List SwitchCase)
    (default : Option (List Stmt))
  | function (mark : Mark) (definition : FunctionDef)
  | package (mark : Mark) (name : Symbol) (definitions : List FunctionDef)

/-- A case of a switch: the values it is for, and what it does. -/
structure SwitchCase where
  span : Span
  values : List Expr
  body : List Stmt

/-- Statements in braces. -/
structure Block where
  mark : Mark
  statements : List Stmt

/-- The definition of a function, in a namespace if it names one. -/
structure FunctionDef where
  mark : Mark
  space : Option Symbol
  name : Symbol
  parameters : List Symbol
  body : Block

end

/-- The mark of an expression. -/
def Expr.mark : Expr → Mark
  | .assign mark .. | .conditional mark .. | .binary mark .. | .unary mark .. | .literal mark ..
  | .variable mark .. | .slot mark .. | .call mark .. | .send mark .. | .detag mark .. => mark
  | .object declaration => declaration.mark

/-- Whether an expression names a place that can be written. -/
def Expr.isPlace : Expr → Bool
  | .variable .. | .slot .. => true
  | _ => false

/-- The mark of a statement. -/
def Stmt.mark : Stmt → Mark
  | .block body => body.mark
  | .expression mark .. | .branch mark .. | .loop mark .. | .count mark .. | .break mark
  | .continue mark | .return mark .. | .switch mark .. | .function mark ..
  | .package mark .. => mark

/-- How many nodes of each sort there are. -/
structure NodeCounts where
  definitions : Nat
  statements : Nat
  expressions : Nat
  deriving DecidableEq

/-- How many nodes there are. -/
def NodeCounts.total (counts : NodeCounts) : Nat :=
  counts.definitions + counts.statements + counts.expressions

/-- A script that compiled: the name of its file, its statements and their nodes. -/
structure Script where
  filename : String
  root : List Stmt
  counts : NodeCounts

end ScriptConsole
