import ScriptConsole.Script.Tree

/-! # Outlines of scripts

An outline is a script seen as one uniform tree: every part has a role in the part
around it, a label that says what it is, and parts of its own in the order in which
they are written. Walking an outline in order gives the parts of a script before what
they consist of.
-/

namespace ScriptConsole

/-- What a part is to the part around it. -/
inductive Role where
  | root
  | body
  | expression
  | test
  | whenTrue
  | whenFalse
  | initial
  | step
  | subject
  | case
  | default
  | value
  | definition
  | left
  | right
  | operand
  | index
  | object
  | argument
  | name
  | field
  | child
  deriving DecidableEq

/-- What a part is, apart from the parts it consists of. -/
inductive Label where
  | block
  | expression
  | branch
  | loop (testsLast : Bool)
  | count
  | break
  | continue
  | return
  | switch (byText : Bool)
  | case
  | default
  | function
  | definition (space : Option Symbol) (name : Symbol) (parameters : List Symbol)
  | package (name : Symbol)
  | assign (op : AssignOp)
  | conditional
  | binary (op : BinaryOp)
  | unary (op : UnaryOp)
  | literal (value : Literal)
  | variable (scope : Scope) (name : Symbol)
  | slot (field : Symbol)
  | call (callee : Callee)
  | send (method : Symbol)
  | object (isDatablock : Bool) (className : Symbol) (copySource : Option Symbol)
  | field (name : Symbol)
  | detag
  deriving DecidableEq

/-- The sorts of parts that are numbered. -/
inductive NodeSort where
  | definition
  | statement
  | expression
  deriving DecidableEq

/-- The head of a part: its role, its label, its span, and its sort and number if it is
numbered. -/
structure PartHead where
  role : Role
  label : Label
  span : Span
  number : Option (NodeSort × Nat)
  deriving DecidableEq

/-- A part with the parts it consists of. -/
inductive Outline where
  | part (head : PartHead) (parts : List Outline)

namespace Outline

/-- A part of a numbered sort. -/
def node (role : Role) (sort : NodeSort) (label : Label) (mark : Mark) (parts : List Outline) :
    Outline :=
  .part ⟨role, label, mark.span, some (sort, mark.number)⟩ parts

mutual

/-- The heads of a part and of everything in it, with their depths, in order. -/
def walk (depth : Nat) : Outline → List (Nat × PartHead)
  | .part head parts => (depth, head) :: walkAll (depth + 1) parts

/-- The heads of several parts in order. -/
def walkAll (depth : Nat) : List Outline → List (Nat × PartHead)
  | [] => []
  | outline :: outlines => outline.walk depth ++ walkAll depth outlines

end

end Outline

mutual

/-- The outline of an expression. -/
def Expr.outline (role : Role) : Expr → Outline
  | .assign mark op target value =>
    .node role .expression (.assign op) mark [target.outline .left, value.outline .right]
  | .conditional mark test yes no =>
    .node role .expression .conditional mark
      [test.outline .test, yes.outline .whenTrue, no.outline .whenFalse]
  | .binary mark op left right =>
    .node role .expression (.binary op) mark [left.outline .left, right.outline .right]
  | .unary mark op operand =>
    .node role .expression (.unary op) mark [operand.outline .operand]
  | .literal mark value => .node role .expression (.literal value) mark []
  | .variable mark scope name indices =>
    .node role .expression (.variable scope name) mark (Expr.outlines .index indices)
  | .slot mark object field indices =>
    .node role .expression (.slot field) mark
      (object.outline .object :: Expr.outlines .index indices)
  | .call mark callee arguments =>
    .node role .expression (.call callee) mark (Expr.outlines .argument arguments)
  | .send mark object method arguments =>
    .node role .expression (.send method) mark
      (object.outline .object :: Expr.outlines .argument arguments)
  | .object declaration => declaration.outline role
  | .detag mark operand => .node role .expression .detag mark [operand.outline .operand]

/-- The outlines of expressions in the same role. -/
def Expr.outlines (role : Role) : List Expr → List Outline
  | [] => []
  | expr :: exprs => expr.outline role :: Expr.outlines role exprs

/-- The outline of an expression that may be missing. -/
def Expr.outline? (role : Role) : Option Expr → List Outline
  | none => []
  | some expr => [expr.outline role]

/-- The outline of a field that an object declaration sets. -/
def FieldInit.outline : FieldInit → Outline
  | ⟨span, field, indices, value⟩ =>
    .part ⟨.field, .field field, span, none⟩
      (Expr.outlines .index indices ++ [value.outline .value])

/-- The outlines of fields. -/
def FieldInit.outlines : List FieldInit → List Outline
  | [] => []
  | field :: fields => field.outline :: FieldInit.outlines fields

/-- The outline of an object declaration. -/
def ObjectDecl.outline (role : Role) : ObjectDecl → Outline
  | ⟨mark, isDatablock, className, name, copySource, fields, children⟩ =>
    .node role .expression (.object isDatablock className copySource) mark
      (Expr.outline? .name name ++ FieldInit.outlines fields ++ ObjectDecl.outlines children)

/-- The outlines of the objects declared inside another one. -/
def ObjectDecl.outlines : List ObjectDecl → List Outline
  | [] => []
  | declaration :: declarations => declaration.outline .child :: ObjectDecl.outlines declarations

end

mutual

/-- The outline of a statement. -/
def Stmt.outline (role : Role) : Stmt → Outline
  | .block body => body.outline role
  | .expression mark value =>
    .node role .statement .expression mark [value.outline .expression]
  | .branch mark test yes no =>
    .node role .statement .branch mark
      (test.outline .test :: yes.outline .whenTrue :: Stmt.outline? .whenFalse no)
  | .loop mark testsLast test body =>
    .node role .statement (.loop testsLast) mark [test.outline .test, body.outline .body]
  | .count mark initial test step body =>
    .node role .statement .count mark
      (Expr.outline? .initial initial ++ Expr.outline? .test test ++ Expr.outline? .step step ++
        [body.outline .body])
  | .break mark => .node role .statement .break mark []
  | .continue mark => .node role .statement .continue mark []
  | .return mark value => .node role .statement .return mark (Expr.outline? .expression value)
  | .switch mark byText subject cases default =>
    .node role .statement (.switch byText) mark
      (subject.outline .subject ::
        SwitchCase.outlines cases ++ Stmt.outlineDefault mark.span default)
  | .function mark definition => .node role .statement .function mark [definition.outline]
  | .package mark name definitions =>
    .node role .statement (.package name) mark (FunctionDef.outlines definitions)

/-- The outlines of statements in the same role. -/
def Stmt.outlines (role : Role) : List Stmt → List Outline
  | [] => []
  | stmt :: stmts => stmt.outline role :: Stmt.outlines role stmts

/-- The outline of a statement that may be missing. -/
def Stmt.outline? (role : Role) : Option Stmt → List Outline
  | none => []
  | some stmt => [stmt.outline role]

/-- The outline of what a switch does when no case applies. -/
def Stmt.outlineDefault (span : Span) : Option (List Stmt) → List Outline
  | none => []
  | some stmts => [.part ⟨.default, .default, span, none⟩ (Stmt.outlines .body stmts)]

/-- The outline of a case. -/
def SwitchCase.outline : SwitchCase → Outline
  | ⟨span, values, body⟩ =>
    .part ⟨.case, .case, span, none⟩ (Expr.outlines .value values ++ Stmt.outlines .body body)

/-- The outlines of cases. -/
def SwitchCase.outlines : List SwitchCase → List Outline
  | [] => []
  | case :: cases => case.outline :: SwitchCase.outlines cases

/-- The outline of statements in braces. -/
def Block.outline (role : Role) : Block → Outline
  | ⟨mark, statements⟩ => .node role .statement .block mark (Stmt.outlines .body statements)

/-- The outline of a definition. -/
def FunctionDef.outline : FunctionDef → Outline
  | ⟨mark, space, name, parameters, body⟩ =>
    .node .definition .definition (.definition space name parameters) mark [body.outline .body]

/-- The outlines of definitions. -/
def FunctionDef.outlines : List FunctionDef → List Outline
  | [] => []
  | definition :: definitions => definition.outline :: FunctionDef.outlines definitions

end

/-- The parts of a script with their depths, each before what it consists of. -/
def Script.parts (script : Script) : List (Nat × PartHead) :=
  Outline.walkAll 0 (Stmt.outlines .root script.root)

end ScriptConsole
