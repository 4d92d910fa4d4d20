import ScriptConsole.Script.Tree

/-! # The nodes of a script by number

The nodes of a script form a heap: each has the place of its number among the nodes of its
sort. In a closed heap the parts of every node are at their places, and what an assignment or
a step writes is a place (`ScriptConsole.Heap.Closed`).
-/

namespace ScriptConsole

/-- Nodes of each sort in the order of their numbers. -/
structure Heap where
  definitions : List FunctionDef
  statements : List Stmt
  expressions : List Expr

namespace Heap

/-- The heap without nodes. -/
def empty : Heap :=
  ⟨[], [], []⟩

/-- How many nodes of each sort there are. -/
def counts (heap : Heap) : NodeCounts :=
  ⟨heap.definitions.length, heap.statements.length, heap.expressions.length⟩

/-- The number of an expression is that of the expression itself. -/
def HasExpr (heap : Heap) (expr : Expr) : Prop :=
  heap.expressions[expr.mark.number]? = some expr

/-- The number of a statement is that of the statement itself. -/
def HasStmt (heap : Heap) (stmt : Stmt) : Prop :=
  heap.statements[stmt.mark.number]? = some stmt

/-- The number of a definition is that of the definition itself. -/
def HasDefinition (heap : Heap) (definition : FunctionDef) : Prop :=
  heap.definitions[definition.mark.number]? = some definition

/-- A declared object is an expression like any other. -/
abbrev HasObject (heap : Heap) (declaration : ObjectDecl) : Prop :=
  heap.HasExpr (.object declaration)

/-- Statements in braces are a statement like any other. -/
abbrev HasBlock (heap : Heap) (body : Block) : Prop :=
  heap.HasStmt (.block body)

/-- The expressions of a field that an object declaration sets are at their places. -/
structure HasField (heap : Heap) (field : FieldInit) : Prop where
  indices : ∀ index ∈ field.indices, heap.HasExpr index
  value : heap.HasExpr field.value

/-- The parts of a case are at their places. -/
structure HasCase (heap : Heap) (case : SwitchCase) : Prop where
  values : ∀ value ∈ case.values, heap.HasExpr value
  body : ∀ stmt ∈ case.body, heap.HasStmt stmt

/-- A heap has the nodes of another one at the same places. -/
structure Within (heap later : Heap) : Prop where
  definitions : heap.definitions <+: later.definitions
  statements : heap.statements <+: later.statements
  expressions : heap.expressions <+: later.expressions

end Heap

/-- The parts of a declared object are at their places. -/
structure ObjectDecl.PartsIn (heap : Heap) (declaration : ObjectDecl) : Prop where
  name : ∀ name ∈ declaration.name, heap.HasExpr name
  fields : ∀ field ∈ declaration.fields, heap.HasField field
  children : ∀ child ∈ declaration.children, heap.HasObject child

/-- The parts of an expression are at their places, and what it writes is a place. -/
def Expr.PartsIn (heap : Heap) : Expr → Prop
  | .assign _ _ target value =>
    heap.HasExpr target ∧ heap.HasExpr value ∧ target.isPlace = true
  | .conditional _ test yes no => heap.HasExpr test ∧ heap.HasExpr yes ∧ heap.HasExpr no
  | .binary _ _ left right => heap.HasExpr left ∧ heap.HasExpr right
  | .unary _ op operand => heap.HasExpr operand ∧ (op.writes = true → operand.isPlace = true)
  | .literal _ _ => True
  | .variable _ _ _ indices => ∀ index ∈ indices, heap.HasExpr index
  | .slot _ owner _ indices => heap.HasExpr owner ∧ ∀ index ∈ indices, heap.HasExpr index
  | .call _ _ arguments => ∀ argument ∈ arguments, heap.HasExpr argument
  | .send _ owner _ arguments => heap.HasExpr owner ∧ ∀ argument ∈ arguments, heap.HasExpr argument
  | .object declaration => declaration.PartsIn heap
  | .detag _ operand => heap.HasExpr operand

/-- The parts of a definition are at their places. -/
def FunctionDef.PartsIn (heap : Heap) (definition : FunctionDef) : Prop :=
  heap.HasBlock definition.body

/-- The parts of a statement are at their places. -/
def Stmt.PartsIn (heap : Heap) : Stmt → Prop
  | .block body => ∀ stmt ∈ body.statements, heap.HasStmt stmt
  | .expression _ value => heap.HasExpr value
  | .branch _ test yes no =>
    heap.HasExpr test ∧ heap.HasStmt yes ∧ ∀ stmt ∈ no, heap.HasStmt stmt
  | .loop _ _ test body => heap.HasExpr test ∧ heap.HasStmt body
  | .count _ initial test step body =>
    (∀ expr ∈ initial, heap.HasExpr expr) ∧ (∀ expr ∈ test, heap.HasExpr expr) ∧
      (∀ expr ∈ step, heap.HasExpr expr) ∧ heap.HasStmt body
  | .break _ | .continue _ => True
  | .return _ value => ∀ expr ∈ value, heap.HasExpr expr
  | .switch _ _ subject cases default =>
    heap.HasExpr subject ∧ (∀ case ∈ cases, heap.HasCase case) ∧
      ∀ body ∈ default, ∀ stmt ∈ body, heap.HasStmt stmt
  | .function _ definition => heap.HasDefinition definition
  | .package _ _ definitions => ∀ definition ∈ definitions, heap.HasDefinition definition

namespace Heap

/-- All parts of all nodes are at their places. -/
structure Closed (heap : Heap) : Prop where
  definitions : ∀ definition ∈ heap.definitions, definition.PartsIn heap
  statements : ∀ stmt ∈ heap.statements, stmt.PartsIn heap
  expressions : ∀ expr ∈ heap.expressions, expr.PartsIn heap

/-- A heap is that of a script: it is closed, has as many nodes as the script and has the
statements of the script at their places. -/
structure OfScript (heap : Heap) (script : Script) : Prop where
  closed : heap.Closed
  counts : heap.counts = script.counts
  root : ∀ stmt ∈ script.root, heap.HasStmt stmt

theorem closed_empty : empty.Closed where
  definitions := nofun
  statements := nofun
  expressions := nofun

section Parts

variable {heap : Heap}

theorem Closed.expr (closed : heap.Closed) {expr : Expr} (has : heap.HasExpr expr) :
    expr.PartsIn heap :=
  closed.expressions expr (List.mem_of_getElem? has)

theorem Closed.object (closed : heap.Closed) {declaration : ObjectDecl}
    (has : heap.HasObject declaration) : declaration.PartsIn heap :=
  closed.expr has

theorem Closed.stmt (closed : heap.Closed) {stmt : Stmt} (has : heap.HasStmt stmt) :
    stmt.PartsIn heap :=
  closed.statements stmt (List.mem_of_getElem? has)

theorem Closed.definition (closed : heap.Closed) {definition : FunctionDef}
    (has : heap.HasDefinition definition) : definition.PartsIn heap :=
  closed.definitions definition (List.mem_of_getElem? has)

end Parts

namespace Within

variable {heap middle later : Heap}

theorem refl (heap : Heap) : heap.Within heap :=
  ⟨List.prefix_refl _, List.prefix_refl _, List.prefix_refl _⟩

theorem trans (first : heap.Within middle) (second : middle.Within later) : heap.Within later :=
  ⟨first.definitions.trans second.definitions, first.statements.trans second.statements,
    first.expressions.trans second.expressions⟩

/-- An element keeps its place in a longer list. -/
theorem getElem?_kept {α : Type} {first second : List α} (within : first <+: second) {place : Nat}
    {element : α} (found : first[place]? = some element) : second[place]? = some element := by
  obtain ⟨rest, rfl⟩ := within
  rw [List.getElem?_append_left (List.getElem?_eq_some_iff.mp found).1, found]

theorem expr (within : heap.Within later) {expr : Expr} (has : heap.HasExpr expr) :
    later.HasExpr expr :=
  getElem?_kept within.expressions has

theorem stmt (within : heap.Within later) {stmt : Stmt} (has : heap.HasStmt stmt) :
    later.HasStmt stmt :=
  getElem?_kept within.statements has

theorem definition (within : heap.Within later) {definition : FunctionDef}
    (has : heap.HasDefinition definition) : later.HasDefinition definition :=
  getElem?_kept within.definitions has

theorem exprs (within : heap.Within later) {exprs : List Expr}
    (has : ∀ expr ∈ exprs, heap.HasExpr expr) : ∀ expr ∈ exprs, later.HasExpr expr :=
  fun expr member => within.expr (has expr member)

theorem expr? (within : heap.Within later) {expr : Option Expr}
    (has : ∀ found ∈ expr, heap.HasExpr found) : ∀ found ∈ expr, later.HasExpr found :=
  fun found is => within.expr (has found is)

theorem stmts (within : heap.Within later) {stmts : List Stmt}
    (has : ∀ stmt ∈ stmts, heap.HasStmt stmt) : ∀ stmt ∈ stmts, later.HasStmt stmt :=
  fun stmt member => within.stmt (has stmt member)

theorem field (within : heap.Within later) {field : FieldInit} (has : heap.HasField field) :
    later.HasField field :=
  ⟨within.exprs has.indices, within.expr has.value⟩

theorem case (within : heap.Within later) {case : SwitchCase} (has : heap.HasCase case) :
    later.HasCase case :=
  ⟨within.exprs has.values, within.stmts has.body⟩

theorem object_parts (within : heap.Within later) {declaration : ObjectDecl}
    (parts : declaration.PartsIn heap) : declaration.PartsIn later where
  name name is := within.expr (parts.name name is)
  fields field member := within.field (parts.fields field member)
  children child member := within.expr (parts.children child member)

/-- The parts of an expression stay at their places in every later heap. -/
theorem expr_parts (within : heap.Within later) {expr : Expr} (parts : expr.PartsIn heap) :
    expr.PartsIn later := by
  cases expr with
  | assign mark op target value =>
      obtain ⟨hasTarget, hasValue, isPlace⟩ := parts
      exact ⟨within.expr hasTarget, within.expr hasValue, isPlace⟩
  | conditional mark test yes no =>
      obtain ⟨hasTest, hasYes, hasNo⟩ := parts
      exact ⟨within.expr hasTest, within.expr hasYes, within.expr hasNo⟩
  | binary mark op left right => exact ⟨within.expr parts.1, within.expr parts.2⟩
  | unary mark op operand => exact ⟨within.expr parts.1, parts.2⟩
  | literal mark value => exact parts
  | «variable» mark scope name indices => exact within.exprs parts
  | slot mark object field indices => exact ⟨within.expr parts.1, within.exprs parts.2⟩
  | call mark callee arguments => exact within.exprs parts
  | send mark object method arguments => exact ⟨within.expr parts.1, within.exprs parts.2⟩
  | object declaration => exact within.object_parts parts
  | detag mark operand => exact within.expr parts

/-- The parts of a statement stay at their places in every later heap. -/
theorem stmt_parts (within : heap.Within later) {stmt : Stmt} (parts : stmt.PartsIn heap) :
    stmt.PartsIn later := by
  cases stmt with
  | block body => exact within.stmts parts
  | expression mark value => exact within.expr parts
  | branch mark test yes no =>
      obtain ⟨hasTest, hasYes, hasNo⟩ := parts
      exact ⟨within.expr hasTest, within.stmt hasYes, fun stmt is => within.stmt (hasNo stmt is)⟩
  | loop mark testsLast test body => exact ⟨within.expr parts.1, within.stmt parts.2⟩
  | count mark initial test step body =>
      obtain ⟨hasInitial, hasTest, hasStep, hasBody⟩ := parts
      exact ⟨within.expr? hasInitial, within.expr? hasTest, within.expr? hasStep,
        within.stmt hasBody⟩
  | «break» mark => exact parts
  | «continue» mark => exact parts
  | «return» mark value => exact within.expr? parts
  | switch mark byText subject cases default =>
      obtain ⟨hasSubject, hasCases, hasDefault⟩ := parts
      exact ⟨within.expr hasSubject, fun case member => within.case (hasCases case member),
        fun body is => within.stmts (hasDefault body is)⟩
  | function mark definition => exact within.definition parts
  | package mark name definitions =>
      exact fun definition member => within.definition (parts definition member)

end Within

section Adding

variable {heap : Heap}

/-- The heap with a further expression. -/
def addExpr (heap : Heap) (expr : Expr) : Heap :=
  { heap with expressions := heap.expressions ++ [expr] }

/-- The heap with a further statement. -/
def addStmt (heap : Heap) (stmt : Stmt) : Heap :=
  { heap with statements := heap.statements ++ [stmt] }

/-- The heap with a further definition. -/
def addDefinition (heap : Heap) (definition : FunctionDef) : Heap :=
  { heap with definitions := heap.definitions ++ [definition] }

theorem within_addExpr (heap : Heap) (expr : Expr) : heap.Within (heap.addExpr expr) :=
  ⟨List.prefix_refl _, List.prefix_refl _, List.prefix_append _ _⟩

theorem within_addStmt (heap : Heap) (stmt : Stmt) : heap.Within (heap.addStmt stmt) :=
  ⟨List.prefix_refl _, List.prefix_append _ _, List.prefix_refl _⟩

theorem within_addDefinition (heap : Heap) (definition : FunctionDef) :
    heap.Within (heap.addDefinition definition) :=
  ⟨List.prefix_append _ _, List.prefix_refl _, List.prefix_refl _⟩

/-- A node that is added gets the place of the first number that no other one has. -/
theorem hasExpr_addExpr {expr : Expr} (number : expr.mark.number = heap.counts.expressions) :
    (heap.addExpr expr).HasExpr expr := by
  unfold HasExpr
  rw [number]
  exact List.getElem?_concat_length

theorem hasStmt_addStmt {stmt : Stmt} (number : stmt.mark.number = heap.counts.statements) :
    (heap.addStmt stmt).HasStmt stmt := by
  unfold HasStmt
  rw [number]
  exact List.getElem?_concat_length

theorem hasDefinition_addDefinition {definition : FunctionDef}
    (number : definition.mark.number = heap.counts.definitions) :
    (heap.addDefinition definition).HasDefinition definition := by
  unfold HasDefinition
  rw [number]
  exact List.getElem?_concat_length

/-- A heap stays closed when an expression is added whose parts are in it. -/
theorem Closed.addExpr (closed : heap.Closed) {expr : Expr} (parts : expr.PartsIn heap) :
    (heap.addExpr expr).Closed := by
  have within := heap.within_addExpr expr
  constructor
  case definitions =>
    intro definition member
    exact within.stmt (closed.definitions definition member)
  case statements =>
    intro stmt member
    exact within.stmt_parts (closed.statements stmt member)
  case expressions =>
    intro other member
    obtain member | member := List.mem_append.mp member
    · exact within.expr_parts (closed.expressions other member)
    · rw [List.mem_singleton.mp member]
      exact within.expr_parts parts

/-- A heap stays closed when a statement is added whose parts are in it. -/
theorem Closed.addStmt (closed : heap.Closed) {stmt : Stmt} (parts : stmt.PartsIn heap) :
    (heap.addStmt stmt).Closed := by
  have within := heap.within_addStmt stmt
  constructor
  case definitions =>
    intro definition member
    exact within.stmt (closed.definitions definition member)
  case statements =>
    intro other member
    obtain member | member := List.mem_append.mp member
    · exact within.stmt_parts (closed.statements other member)
    · rw [List.mem_singleton.mp member]
      exact within.stmt_parts parts
  case expressions =>
    intro expr member
    exact within.expr_parts (closed.expressions expr member)

/-- A heap stays closed when a definition is added whose body is in it. -/
theorem Closed.addDefinition (closed : heap.Closed) {definition : FunctionDef}
    (parts : definition.PartsIn heap) : (heap.addDefinition definition).Closed := by
  have within := heap.within_addDefinition definition
  constructor
  case definitions =>
    intro other member
    obtain member | member := List.mem_append.mp member
    · exact within.stmt (closed.definitions other member)
    · rw [List.mem_singleton.mp member]
      exact within.stmt parts
  case statements =>
    intro stmt member
    exact within.stmt_parts (closed.statements stmt member)
  case expressions =>
    intro expr member
    exact within.expr_parts (closed.expressions expr member)

end Adding

end Heap

end ScriptConsole
