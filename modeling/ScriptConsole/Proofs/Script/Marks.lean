import ScriptConsole.Script.Tree

/-! # Trees without their spans

Two trees are the same up to spans if they become equal once every span is replaced by the
same one (`ScriptConsole.Expr.bare`, `ScriptConsole.Stmt.bare`). Nodes keep their numbers.
-/

namespace ScriptConsole

/-- The span that stands for every other one. -/
def Span.blank : Span :=
  ⟨.start, .start⟩

/-- The number of a node without its span. -/
def Mark.bare (mark : Mark) : Mark :=
  ⟨mark.number, .blank⟩

mutual

/-- An expression with other marks. -/
def Expr.remark (change : Mark → Mark) : Expr → Expr
  | .assign mark op target value =>
    .assign (change mark) op (target.remark change) (value.remark change)
  | .conditional mark test yes no =>
    .conditional (change mark) (test.remark change) (yes.remark change) (no.remark change)
  | .binary mark op left right =>
    .binary (change mark) op (left.remark change) (right.remark change)
  | .unary mark op operand => .unary (change mark) op (operand.remark change)
  | .literal mark value => .literal (change mark) value
  | .variable mark scope name indices =>
    .variable (change mark) scope name (Expr.remarkAll change indices)
  | .slot mark object field indices =>
    .slot (change mark) (object.remark change) field (Expr.remarkAll change indices)
  | .call mark callee arguments =>
    .call (change mark) callee (Expr.remarkAll change arguments)
  | .send mark object method arguments =>
    .send (change mark) (object.remark change) method (Expr.remarkAll change arguments)
  | .object declaration => .object (declaration.remark change)
  | .detag mark operand => .detag (change mark) (operand.remark change)

/-- Expressions with other marks. -/
def Expr.remarkAll (change : Mark → Mark) : List Expr → List Expr
  | [] => []
  | expr :: exprs => expr.remark change :: Expr.remarkAll change exprs

/-- An expression that may be missing, with other marks. -/
def Expr.remark? (change : Mark → Mark) : Option Expr → Option Expr
  | none => none
  | some expr => some (expr.remark change)

/-- A field of an object declaration with other marks. -/
def FieldInit.remark (change : Mark → Mark) : FieldInit → FieldInit
  | ⟨_, field, indices, value⟩ =>
    ⟨.blank, field, Expr.remarkAll change indices, value.remark change⟩

/-- Fields with other marks. -/
def FieldInit.remarkAll (change : Mark → Mark) : List FieldInit → List FieldInit
  | [] => []
  | field :: fields => field.remark change :: FieldInit.remarkAll change fields

/-- An object declaration with other marks. -/
def ObjectDecl.remark (change : Mark → Mark) : ObjectDecl → ObjectDecl
  | ⟨mark, isDatablock, className, name, copySource, fields, children⟩ =>
    ⟨change mark, isDatablock, className, Expr.remark? change name, copySource,
      FieldInit.remarkAll change fields, ObjectDecl.remarkAll change children⟩

/-- Object declarations with other marks. -/
def ObjectDecl.remarkAll (change : Mark → Mark) : List ObjectDecl → List ObjectDecl
  | [] => []
  | declaration :: declarations =>
    declaration.remark change :: ObjectDecl.remarkAll change declarations

end

mutual

/-- A statement with other marks. -/
def Stmt.remark (change : Mark → Mark) : Stmt → Stmt
  | .block body => .block (body.remark change)
  | .expression mark value => .expression (change mark) (value.remark change)
  | .branch mark test yes no =>
    .branch (change mark) (test.remark change) (yes.remark change) (Stmt.remark? change no)
  | .loop mark testsLast test body =>
    .loop (change mark) testsLast (test.remark change) (body.remark change)
  | .count mark initial test step body =>
    .count (change mark) (Expr.remark? change initial) (Expr.remark? change test)
      (Expr.remark? change step) (body.remark change)
  | .break mark => .break (change mark)
  | .continue mark => .continue (change mark)
  | .return mark value => .return (change mark) (Expr.remark? change value)
  | .switch mark byText subject cases default =>
    .switch (change mark) byText (subject.remark change) (SwitchCase.remarkAll change cases)
      (Stmt.remarkDefault change default)
  | .function mark definition => .function (change mark) (definition.remark change)
  | .package mark name definitions =>
    .package (change mark) name (FunctionDef.remarkAll change definitions)

/-- Statements with other marks. -/
def Stmt.remarkAll (change : Mark → Mark) : List Stmt → List Stmt
  | [] => []
  | stmt :: stmts => stmt.remark change :: Stmt.remarkAll change stmts

/-- A statement that may be missing, with other marks. -/
def Stmt.remark? (change : Mark → Mark) : Option Stmt → Option Stmt
  | none => none
  | some stmt => some (stmt.remark change)

/-- What a switch does when no case applies, with other marks. -/
def Stmt.remarkDefault (change : Mark → Mark) : Option (List Stmt) → Option (List Stmt)
  | none => none
  | some stmts => some (Stmt.remarkAll change stmts)

/-- A case with other marks. -/
def SwitchCase.remark (change : Mark → Mark) : SwitchCase → SwitchCase
  | ⟨_, values, body⟩ =>
    ⟨.blank, Expr.remarkAll change values, Stmt.remarkAll change body⟩

/-- Cases with other marks. -/
def SwitchCase.remarkAll (change : Mark → Mark) : List SwitchCase → List SwitchCase
  | [] => []
  | case :: cases => case.remark change :: SwitchCase.remarkAll change cases

/-- Statements in braces with other marks. -/
def Block.remark (change : Mark → Mark) : Block → Block
  | ⟨mark, statements⟩ => ⟨change mark, Stmt.remarkAll change statements⟩

/-- The definition of a function with other marks. -/
def FunctionDef.remark (change : Mark → Mark) : FunctionDef → FunctionDef
  | ⟨mark, space, name, parameters, body⟩ =>
    ⟨change mark, space, name, parameters, body.remark change⟩

/-- Definitions with other marks. -/
def FunctionDef.remarkAll (change : Mark → Mark) : List FunctionDef → List FunctionDef
  | [] => []
  | definition :: definitions =>
    definition.remark change :: FunctionDef.remarkAll change definitions

end

section Lists

variable (change : Mark → Mark)

@[simp] theorem Expr.remarkAll_eq_map (exprs : List Expr) :
    Expr.remarkAll change exprs = exprs.map (Expr.remark change) := by
  induction exprs with
  | nil => rfl
  | cons expr exprs ih => rw [Expr.remarkAll, ih, List.map_cons]

@[simp] theorem Expr.remark?_eq_map (expr : Option Expr) :
    Expr.remark? change expr = expr.map (Expr.remark change) := by
  cases expr <;> rfl

@[simp] theorem FieldInit.remarkAll_eq_map (fields : List FieldInit) :
    FieldInit.remarkAll change fields = fields.map (FieldInit.remark change) := by
  induction fields with
  | nil => rfl
  | cons field fields ih => rw [FieldInit.remarkAll, ih, List.map_cons]

@[simp] theorem ObjectDecl.remarkAll_eq_map (declarations : List ObjectDecl) :
    ObjectDecl.remarkAll change declarations = declarations.map (ObjectDecl.remark change) := by
  induction declarations with
  | nil => rfl
  | cons declaration declarations ih => rw [ObjectDecl.remarkAll, ih, List.map_cons]

@[simp] theorem Stmt.remarkAll_eq_map (stmts : List Stmt) :
    Stmt.remarkAll change stmts = stmts.map (Stmt.remark change) := by
  induction stmts with
  | nil => rfl
  | cons stmt stmts ih => rw [Stmt.remarkAll, ih, List.map_cons]

@[simp] theorem Stmt.remark?_eq_map (stmt : Option Stmt) :
    Stmt.remark? change stmt = stmt.map (Stmt.remark change) := by
  cases stmt <;> rfl

@[simp] theorem Stmt.remarkDefault_eq_map (default : Option (List Stmt)) :
    Stmt.remarkDefault change default = default.map (List.map (Stmt.remark change)) := by
  cases default with
  | none => rfl
  | some stmts => rw [Stmt.remarkDefault, Stmt.remarkAll_eq_map, Option.map_some]

@[simp] theorem SwitchCase.remarkAll_eq_map (cases : List SwitchCase) :
    SwitchCase.remarkAll change cases = cases.map (SwitchCase.remark change) := by
  induction cases with
  | nil => rfl
  | cons case cases ih => rw [SwitchCase.remarkAll, ih, List.map_cons]

@[simp] theorem FunctionDef.remarkAll_eq_map (definitions : List FunctionDef) :
    FunctionDef.remarkAll change definitions = definitions.map (FunctionDef.remark change) := by
  induction definitions with
  | nil => rfl
  | cons definition definitions ih => rw [FunctionDef.remarkAll, ih, List.map_cons]

end Lists

/-- Other marks leave what is a place. -/
theorem Expr.isPlace_remark (change : Mark → Mark) (expr : Expr) :
    (expr.remark change).isPlace = expr.isPlace := by
  cases expr <;> rfl

/-- An expression without its spans. -/
abbrev Expr.bare : Expr → Expr :=
  Expr.remark Mark.bare

/-- An object declaration without its spans. -/
abbrev ObjectDecl.bare : ObjectDecl → ObjectDecl :=
  ObjectDecl.remark Mark.bare

/-- A statement without its spans. -/
abbrev Stmt.bare : Stmt → Stmt :=
  Stmt.remark Mark.bare

/-- Expressions that differ in spans alone are places alike. -/
theorem Expr.isPlace_of_bare_eq {expr other : Expr} (same : expr.bare = other.bare) :
    expr.isPlace = other.isPlace := by
  have places := congrArg Expr.isPlace same
  rwa [Expr.isPlace_remark, Expr.isPlace_remark] at places

end ScriptConsole
