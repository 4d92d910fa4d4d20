import Mathlib.Data.List.Nodup
import ScriptConsole.Proofs.Script.Heap
import ScriptConsole.Script.Outline

/-! # Walks through the nodes of a script

The nodes of a script are its definitions, statements and expressions. A walk comes to a node
before the nodes inside it (`ScriptConsole.Node.walk`), as an outline does
(`ScriptConsole.Script.keys_parts`). A heap spans a walk if it has the nodes of the walk and no
others, all at the places of their numbers (`ScriptConsole.Heap.Spans`).
-/

namespace ScriptConsole

/-- A numbered part of a script. -/
inductive Node where
  | definition (function : FunctionDef)
  | statement (stmt : Stmt)
  | expression (expr : Expr)

mutual

/-- The nodes inside an expression. -/
def Expr.inside : Expr → List Node
  | .assign _ _ target value =>
    .expression target :: target.inside ++ .expression value :: value.inside
  | .conditional _ test yes no =>
    .expression test :: test.inside ++ .expression yes :: yes.inside ++
      .expression no :: no.inside
  | .binary _ _ left right =>
    .expression left :: left.inside ++ .expression right :: right.inside
  | .unary _ _ operand => .expression operand :: operand.inside
  | .literal _ _ => []
  | .variable _ _ _ indices => Expr.walks indices
  | .slot _ owner _ indices => .expression owner :: owner.inside ++ Expr.walks indices
  | .call _ _ arguments => Expr.walks arguments
  | .send _ owner _ arguments => .expression owner :: owner.inside ++ Expr.walks arguments
  | .object declaration => declaration.inside
  | .detag _ operand => .expression operand :: operand.inside

/-- Expressions and the nodes inside them. -/
def Expr.walks : List Expr → List Node
  | [] => []
  | expr :: exprs => .expression expr :: expr.inside ++ Expr.walks exprs

/-- An expression that may be missing and the nodes inside it. -/
def Expr.walk? : Option Expr → List Node
  | none => []
  | some expr => .expression expr :: expr.inside

/-- The nodes inside a field that an object declaration sets. -/
def FieldInit.inside : FieldInit → List Node
  | ⟨_, _, indices, value⟩ => Expr.walks indices ++ .expression value :: value.inside

/-- The nodes inside fields. -/
def FieldInit.insides : List FieldInit → List Node
  | [] => []
  | field :: fields => field.inside ++ FieldInit.insides fields

/-- The nodes inside a declared object. -/
def ObjectDecl.inside : ObjectDecl → List Node
  | ⟨_, _, _, name, _, fields, children⟩ =>
    Expr.walk? name ++ FieldInit.insides fields ++ ObjectDecl.walks children

/-- Declared objects and the nodes inside them. -/
def ObjectDecl.walks : List ObjectDecl → List Node
  | [] => []
  | child :: children =>
    .expression (.object child) :: child.inside ++ ObjectDecl.walks children

end

mutual

/-- The nodes inside a statement. -/
def Stmt.inside : Stmt → List Node
  | .block body => body.inside
  | .expression _ value => .expression value :: value.inside
  | .branch _ test yes no =>
    .expression test :: test.inside ++ .statement yes :: yes.inside ++ Stmt.walk? no
  | .loop _ _ test body => .expression test :: test.inside ++ .statement body :: body.inside
  | .count _ initial test step body =>
    Expr.walk? initial ++ Expr.walk? test ++ Expr.walk? step ++ .statement body :: body.inside
  | .break _ | .continue _ => []
  | .return _ value => Expr.walk? value
  | .switch _ _ subject cases default =>
    .expression subject :: subject.inside ++ SwitchCase.insides cases ++ Stmt.walksDefault default
  | .function _ definition => .definition definition :: definition.inside
  | .package _ _ definitions => FunctionDef.walks definitions

/-- Statements and the nodes inside them. -/
def Stmt.walks : List Stmt → List Node
  | [] => []
  | stmt :: stmts => .statement stmt :: stmt.inside ++ Stmt.walks stmts

/-- A statement that may be missing and the nodes inside it. -/
def Stmt.walk? : Option Stmt → List Node
  | none => []
  | some stmt => .statement stmt :: stmt.inside

/-- The statements of a default and the nodes inside them. -/
def Stmt.walksDefault : Option (List Stmt) → List Node
  | none => []
  | some stmts => Stmt.walks stmts

/-- The nodes inside a case. -/
def SwitchCase.inside : SwitchCase → List Node
  | ⟨_, values, body⟩ => Expr.walks values ++ Stmt.walks body

/-- The nodes inside cases. -/
def SwitchCase.insides : List SwitchCase → List Node
  | [] => []
  | case :: cases => case.inside ++ SwitchCase.insides cases

/-- The nodes inside statements in braces. -/
def Block.inside : Block → List Node
  | ⟨_, statements⟩ => Stmt.walks statements

/-- The nodes inside a definition. -/
def FunctionDef.inside : FunctionDef → List Node
  | ⟨_, _, _, _, body⟩ => .statement (.block body) :: body.inside

/-- Definitions and the nodes inside them. -/
def FunctionDef.walks : List FunctionDef → List Node
  | [] => []
  | definition :: definitions =>
    .definition definition :: definition.inside ++ FunctionDef.walks definitions

end

namespace Node

/-- The sort of a node. -/
def sort : Node → NodeSort
  | .definition _ => .definition
  | .statement _ => .statement
  | .expression _ => .expression

/-- The mark of a node. -/
def mark : Node → Mark
  | .definition function => function.mark
  | .statement stmt => stmt.mark
  | .expression expr => expr.mark

/-- A node is known by its sort and its number. -/
def key (node : Node) : NodeSort × Nat :=
  (node.sort, node.mark.number)

/-- The nodes inside a node. -/
def inside : Node → List Node
  | .definition function => function.inside
  | .statement stmt => stmt.inside
  | .expression expr => expr.inside

/-- A node and the nodes inside it, each before what it consists of. -/
def walk (node : Node) : List Node :=
  node :: node.inside

/-- A node has a greater number than the nodes of its sort inside it. -/
def Ranked (node : Node) : Prop :=
  ∀ part ∈ node.inside, part.sort = node.sort → part.mark.number < node.mark.number

end Node

/-- The node of an expression and the nodes inside it. -/
abbrev Expr.walk (expr : Expr) : List Node :=
  (Node.expression expr).walk

/-- The node of a declared object and the nodes inside it. -/
abbrev ObjectDecl.walk (declaration : ObjectDecl) : List Node :=
  (Node.expression (.object declaration)).walk

/-- The node of a statement and the nodes inside it. -/
abbrev Stmt.walk (stmt : Stmt) : List Node :=
  (Node.statement stmt).walk

/-- The node of statements in braces and the nodes inside it. -/
abbrev Block.walk (body : Block) : List Node :=
  (Node.statement (.block body)).walk

/-- The node of a definition and the nodes inside it. -/
abbrev FunctionDef.walk (definition : FunctionDef) : List Node :=
  (Node.definition definition).walk

/-- Walks through things in a row go through one after the other. -/
def Listed {α : Type} (walks : List α → List Node) (walk : α → List Node) : Prop :=
  ∀ items, walks items = items.flatMap walk

namespace Listed

variable {α : Type} {walks : List α → List Node} {walk : α → List Node}

theorem of_cons (none : walks [] = [])
    (some : ∀ item items, walks (item :: items) = walk item ++ walks items) :
    Listed walks walk := by
  intro items
  induction items with
  | nil => exact none
  | cons item items ih => rw [some, ih, List.flatMap_cons]

theorem reverse (listed : Listed walks walk) (items : List α) :
    (walks items).Perm (walks items.reverse) := by
  rw [listed, listed]
  exact (List.reverse_perm items).symm.flatMap_right walk

theorem cons (listed : Listed walks walk) (item : α) (items : List α) :
    (walks items ++ walk item).Perm (walks (item :: items)) := by
  rw [listed, listed, List.flatMap_cons]
  exact List.perm_append_comm

end Listed

theorem listed_exprs : Listed Expr.walks Expr.walk :=
  .of_cons rfl fun _ _ => rfl

theorem listed_fields : Listed FieldInit.insides FieldInit.inside :=
  .of_cons rfl fun _ _ => rfl

theorem listed_objects : Listed ObjectDecl.walks ObjectDecl.walk :=
  .of_cons rfl fun _ _ => rfl

theorem listed_stmts : Listed Stmt.walks Stmt.walk :=
  .of_cons rfl fun _ _ => rfl

theorem listed_cases : Listed SwitchCase.insides SwitchCase.inside :=
  .of_cons rfl fun _ _ => rfl

theorem listed_definitions : Listed FunctionDef.walks FunctionDef.walk :=
  .of_cons rfl fun _ _ => rfl

/-- The nodes of a script, each before what it consists of. -/
def Script.nodes (script : Script) : List Node :=
  Stmt.walks script.root

section Outlines

namespace Outline

/-- The sorts and numbers of numbered parts, in order. -/
def keys (depth : Nat) (outlines : List Outline) : List (NodeSort × Nat) :=
  (walkAll depth outlines).filterMap fun part => part.2.number

@[simp] theorem keys_nil (depth : Nat) : keys depth [] = [] :=
  rfl

@[simp] theorem keys_append (depth : Nat) (first second : List Outline) :
    keys depth (first ++ second) = keys depth first ++ keys depth second := by
  unfold keys
  induction first with
  | nil => rfl
  | cons outline outlines ih =>
      rw [List.cons_append, walkAll, walkAll, List.filterMap_append, List.filterMap_append, ih,
        List.append_assoc]

theorem keys_cons (depth : Nat) (outline : Outline) (outlines : List Outline) :
    keys depth (outline :: outlines) = keys depth [outline] ++ keys depth outlines :=
  keys_append depth [outline] outlines

@[simp] theorem keys_cons_cons (depth : Nat) (first second : Outline) (outlines : List Outline) :
    keys depth (first :: second :: outlines) =
      keys depth [first] ++ keys depth (second :: outlines) :=
  keys_cons depth first (second :: outlines)

/-- A numbered part comes before what it consists of. -/
@[simp] theorem keys_node (depth : Nat) (role : Role) (sort : NodeSort) (label : Label)
    (mark : Mark) (parts : List Outline) :
    keys depth [node role sort label mark parts] =
      (sort, mark.number) :: keys (depth + 1) parts := by
  simp only [keys, node, walkAll, walk, List.append_nil, List.filterMap_cons]

/-- A part that is not numbered only has what it consists of. -/
@[simp] theorem keys_part (depth : Nat) (role : Role) (label : Label) (span : Span)
    (parts : List Outline) :
    keys depth [.part ⟨role, label, span, none⟩ parts] = keys (depth + 1) parts := by
  simp only [keys, walkAll, walk, List.append_nil, List.filterMap_cons]

end Outline

attribute [local simp] Expr.outline Expr.outlines Expr.outline? FieldInit.outline
  FieldInit.outlines ObjectDecl.outline ObjectDecl.outlines Expr.inside Expr.walks Expr.walk?
  FieldInit.inside FieldInit.insides ObjectDecl.inside ObjectDecl.walks Expr.mark Node.key
  Node.sort Node.mark

mutual

/-- The outline of an expression lists the expression and the nodes inside it, in the order of
walking. -/
theorem Expr.keys_outline (role : Role) (depth : Nat) : ∀ expr : Expr,
    Outline.keys depth [expr.outline role] =
      (Node.expression expr).key :: expr.inside.map Node.key
  | .assign mark op target value => by
    simp [target.keys_outline, value.keys_outline]
  | .conditional mark test yes no => by
    simp [test.keys_outline, yes.keys_outline, no.keys_outline]
  | .binary mark op left right => by
    simp [left.keys_outline, right.keys_outline]
  | .unary mark op operand => by simp [operand.keys_outline]
  | .literal mark value => by simp
  | .variable mark scope name indices => by simp [Expr.keys_outlines _ _ indices]
  | .slot mark owner field indices => by
    simp [Outline.keys_cons _ _ (Expr.outlines .index indices), owner.keys_outline,
      Expr.keys_outlines _ _ indices]
  | .call mark callee arguments => by simp [Expr.keys_outlines _ _ arguments]
  | .send mark owner method arguments => by
    simp [Outline.keys_cons _ _ (Expr.outlines .argument arguments), owner.keys_outline,
      Expr.keys_outlines _ _ arguments]
  | .object declaration => by simp [declaration.keys_outline]
  | .detag mark operand => by simp [operand.keys_outline]

theorem Expr.keys_outlines (role : Role) (depth : Nat) : ∀ exprs : List Expr,
    Outline.keys depth (Expr.outlines role exprs) = (Expr.walks exprs).map Node.key
  | [] => by simp
  | expr :: exprs => by
    simp [Outline.keys_cons _ _ (Expr.outlines role exprs), expr.keys_outline,
      Expr.keys_outlines _ _ exprs]

theorem Expr.keys_outline? (role : Role) (depth : Nat) : ∀ expr : Option Expr,
    Outline.keys depth (Expr.outline? role expr) = (Expr.walk? expr).map Node.key
  | none => by simp
  | some expr => by simp [expr.keys_outline]

theorem FieldInit.keys_outline (depth : Nat) : ∀ field : FieldInit,
    Outline.keys depth [field.outline] = field.inside.map Node.key
  | ⟨span, name, indices, value⟩ => by
    simp [Expr.keys_outlines _ _ indices, value.keys_outline]

theorem FieldInit.keys_outlines (depth : Nat) : ∀ fields : List FieldInit,
    Outline.keys depth (FieldInit.outlines fields) = (FieldInit.insides fields).map Node.key
  | [] => by simp
  | field :: fields => by
    simp [Outline.keys_cons _ _ (FieldInit.outlines fields), field.keys_outline,
      FieldInit.keys_outlines _ fields]

theorem ObjectDecl.keys_outline (role : Role) (depth : Nat) : ∀ declaration : ObjectDecl,
    Outline.keys depth [declaration.outline role] =
      (Node.expression (.object declaration)).key :: declaration.inside.map Node.key
  | ⟨mark, isDatablock, className, name, copySource, fields, children⟩ => by
    simp [Expr.keys_outline? _ _ name, FieldInit.keys_outlines _ fields,
      ObjectDecl.keys_outlines _ children]

theorem ObjectDecl.keys_outlines (depth : Nat) : ∀ declarations : List ObjectDecl,
    Outline.keys depth (ObjectDecl.outlines declarations) =
      (ObjectDecl.walks declarations).map Node.key
  | [] => by simp
  | declaration :: declarations => by
    simp [Outline.keys_cons _ _ (ObjectDecl.outlines declarations), declaration.keys_outline,
      ObjectDecl.keys_outlines _ declarations]

end

attribute [local simp] Expr.keys_outline Expr.keys_outlines Expr.keys_outline? Stmt.outline
  Stmt.outlines Stmt.outline? Stmt.outlineDefault SwitchCase.outline SwitchCase.outlines
  Block.outline FunctionDef.outline FunctionDef.outlines Stmt.inside Stmt.walks Stmt.walk?
  Stmt.walksDefault SwitchCase.inside SwitchCase.insides Block.inside FunctionDef.inside
  FunctionDef.walks Stmt.mark

mutual

/-- The outline of a statement lists the statement and the nodes inside it, in the order of walking.
-/
theorem Stmt.keys_outline (role : Role) (depth : Nat) : ∀ stmt : Stmt,
    Outline.keys depth [stmt.outline role] = (Node.statement stmt).key :: stmt.inside.map Node.key
  | .block body => by simp [body.keys_outline]
  | .expression mark value => by simp
  | .branch mark test yes no => by
    simp [Outline.keys_cons _ _ (Stmt.outline? .whenFalse no), yes.keys_outline,
      Stmt.keys_outline? _ _ no]
  | .loop mark testsLast test body => by simp [body.keys_outline]
  | .count mark initial test step body => by simp [body.keys_outline]
  | .break mark => by simp
  | .continue mark => by simp
  | .return mark value => by simp
  | .switch mark byText subject cases default => by
    simp [Outline.keys_cons _ _
        (SwitchCase.outlines cases ++ Stmt.outlineDefault mark.span default),
      SwitchCase.keys_outlines _ cases, Stmt.keys_outlineDefault _ _ default]
  | .function mark definition => by simp [definition.keys_outline]
  | .package mark name definitions => by simp [FunctionDef.keys_outlines _ definitions]

theorem Stmt.keys_outlines (role : Role) (depth : Nat) : ∀ stmts : List Stmt,
    Outline.keys depth (Stmt.outlines role stmts) = (Stmt.walks stmts).map Node.key
  | [] => by simp
  | stmt :: stmts => by
    simp [Outline.keys_cons _ _ (Stmt.outlines role stmts), stmt.keys_outline,
      Stmt.keys_outlines _ _ stmts]

theorem Stmt.keys_outline? (role : Role) (depth : Nat) : ∀ stmt : Option Stmt,
    Outline.keys depth (Stmt.outline? role stmt) = (Stmt.walk? stmt).map Node.key
  | none => by simp
  | some stmt => by simp [stmt.keys_outline]

theorem Stmt.keys_outlineDefault (span : Span) (depth : Nat) : ∀ default : Option (List Stmt),
    Outline.keys depth (Stmt.outlineDefault span default) =
      (Stmt.walksDefault default).map Node.key
  | none => by simp
  | some stmts => by simp [Stmt.keys_outlines _ _ stmts]

theorem SwitchCase.keys_outline (depth : Nat) : ∀ case : SwitchCase,
    Outline.keys depth [case.outline] = case.inside.map Node.key
  | ⟨span, values, body⟩ => by simp [Stmt.keys_outlines _ _ body]

theorem SwitchCase.keys_outlines (depth : Nat) : ∀ cases : List SwitchCase,
    Outline.keys depth (SwitchCase.outlines cases) = (SwitchCase.insides cases).map Node.key
  | [] => by simp
  | case :: cases => by
    simp [Outline.keys_cons _ _ (SwitchCase.outlines cases), case.keys_outline,
      SwitchCase.keys_outlines _ cases]

theorem Block.keys_outline (role : Role) (depth : Nat) : ∀ body : Block,
    Outline.keys depth [body.outline role] =
      (Node.statement (.block body)).key :: body.inside.map Node.key
  | ⟨mark, statements⟩ => by simp [Stmt.keys_outlines _ _ statements]

theorem FunctionDef.keys_outline (depth : Nat) : ∀ definition : FunctionDef,
    Outline.keys depth [definition.outline] =
      (Node.definition definition).key :: definition.inside.map Node.key
  | ⟨mark, space, name, parameters, body⟩ => by simp [body.keys_outline]

theorem FunctionDef.keys_outlines (depth : Nat) : ∀ definitions : List FunctionDef,
    Outline.keys depth (FunctionDef.outlines definitions) =
      (FunctionDef.walks definitions).map Node.key
  | [] => by simp
  | definition :: definitions => by
    simp [Outline.keys_cons _ _ (FunctionDef.outlines definitions), definition.keys_outline,
      FunctionDef.keys_outlines _ definitions]

end

/-- The numbered parts of a script are its nodes, in the same order. -/
theorem Script.keys_parts (script : Script) :
    script.parts.filterMap (fun part => part.2.number) = script.nodes.map Node.key :=
  Stmt.keys_outlines .root 0 script.root

end Outlines

/-- How many nodes of a sort there are. -/
def NodeCounts.of (counts : NodeCounts) : NodeSort → Nat
  | .definition => counts.definitions
  | .statement => counts.statements
  | .expression => counts.expressions

/-- The counts with a further node of a sort. -/
def NodeCounts.next (counts : NodeCounts) : NodeSort → NodeCounts
  | .definition => { counts with definitions := counts.definitions + 1 }
  | .statement => { counts with statements := counts.statements + 1 }
  | .expression => { counts with expressions := counts.expressions + 1 }

/-- The sorts and numbers that were given to nodes. -/
def NodeCounts.keys (counts : NodeCounts) : List (NodeSort × Nat) :=
  (List.range counts.definitions).map (Prod.mk .definition) ++
    (List.range counts.statements).map (Prod.mk .statement) ++
    (List.range counts.expressions).map (Prod.mk .expression)

/-- The sorts and numbers that were given to nodes are all different. -/
theorem NodeCounts.nodup_keys (counts : NodeCounts) : counts.keys.Nodup := by
  have single (sort : NodeSort) (count : Nat) : ((List.range count).map (Prod.mk sort)).Nodup :=
    List.Nodup.map (fun _ _ same => (Prod.mk.inj same).2) List.nodup_range
  have apart {first second : NodeSort} (differ : first ≠ second) (count other : Nat) :
      List.Disjoint ((List.range count).map (Prod.mk first))
        ((List.range other).map (Prod.mk second)) := by
    intro key isFirst isSecond
    obtain ⟨_, _, rfl⟩ := List.mem_map.mp isFirst
    obtain ⟨_, _, same⟩ := List.mem_map.mp isSecond
    exact differ (Prod.mk.inj same).1.symm
  refine List.Nodup.append ?_ (single _ _) ?_
  · exact (single _ _).append (single _ _) (apart (by decide) _ _)
  · exact List.disjoint_append_left.mpr ⟨apart (by decide) _ _, apart (by decide) _ _⟩

namespace Heap

/-- All nodes of a heap. -/
def nodes (heap : Heap) : List Node :=
  heap.definitions.map .definition ++ heap.statements.map .statement ++
    heap.expressions.map .expression

/-- Every node of a sort is at the place of its number. -/
def Placed {α : Type} (mark : α → Mark) (nodes : List α) : Prop :=
  ∀ (place : Nat) (node : α), nodes[place]? = some node → (mark node).number = place

/-- A heap has the nodes of a walk and no others, each once and at the place of its number, and
the number of each is greater than those of the nodes of its sort inside it. -/
structure Spans (heap : Heap) (walked : List Node) : Prop where
  reached : walked.Perm heap.nodes
  definitions : Placed FunctionDef.mark heap.definitions
  statements : Placed Stmt.mark heap.statements
  expressions : Placed Expr.mark heap.expressions
  ranked : ∀ node ∈ heap.nodes, node.Ranked

/-- The heap with a further node. -/
def add (heap : Heap) : Node → Heap
  | .definition function => heap.addDefinition function
  | .statement stmt => heap.addStmt stmt
  | .expression expr => heap.addExpr expr

section Placed

variable {α : Type} {mark : α → Mark} {nodes : List α} {node : α}

/-- Marks stay in place when a node is added whose number is how many there are. -/
theorem Placed.append (placed : Placed mark nodes) (number : (mark node).number = nodes.length) :
    Placed mark (nodes ++ [node]) := by
  intro place found at_
  obtain inFront | behind := Nat.lt_or_ge place nodes.length
  · rw [List.getElem?_append_left inFront] at at_
    exact placed place found at_
  · rw [List.getElem?_append_right behind] at at_
    obtain ⟨single, same⟩ := List.getElem?_eq_some_iff.mp at_
    rw [List.getElem_singleton] at same
    rw [← same, number]
    rw [List.length_singleton] at single
    omega

theorem Placed.number_lt (placed : Placed mark nodes) (member : node ∈ nodes) :
    (mark node).number < nodes.length := by
  obtain ⟨place, within, rfl⟩ := List.getElem_of_mem member
  rw [placed place _ (List.getElem?_eq_getElem within)]
  exact within

/-- The numbers of nodes are all numbers below the number of nodes. -/
theorem Placed.numbers (placed : Placed mark nodes) :
    nodes.map (fun node => (mark node).number) = List.range nodes.length := by
  refine List.ext_getElem (by simp) fun place within _ => ?_
  rw [List.length_map] at within
  rw [List.getElem_map, List.getElem_range]
  exact placed place _ (List.getElem?_eq_getElem within)

end Placed

variable {heap : Heap} {walked : List Node}

theorem counts_add (heap : Heap) (node : Node) :
    (heap.add node).counts = heap.counts.next node.sort := by
  cases node <;>
    simp only [add, addDefinition, addStmt, addExpr, counts, NodeCounts.next, Node.sort,
      List.length_append, List.length_singleton]

/-- Up to order, a heap has one more node after one was added. -/
theorem nodes_add (heap : Heap) (node : Node) :
    (heap.add node).nodes.Perm (node :: heap.nodes) := by
  cases node with
  | definition function =>
      simp only [nodes, add, addDefinition, List.map_append, List.append_assoc]
      exact List.perm_middle
  | statement stmt =>
      simp only [nodes, add, addStmt, List.map_append, List.append_assoc, List.map_singleton,
        List.singleton_append]
      exact (List.perm_middle.append_left _).trans List.perm_middle
  | expression expr =>
      simp only [nodes, add, addExpr, List.map_append, ← List.append_assoc]
      exact List.perm_append_singleton _ _

theorem Spans.number_lt (spans : heap.Spans walked) {node : Node} (member : node ∈ heap.nodes) :
    node.mark.number < heap.counts.of node.sort := by
  obtain member | member := List.mem_append.mp member
  · obtain member | member := List.mem_append.mp member
    · obtain ⟨function, listed, rfl⟩ := List.mem_map.mp member
      exact spans.definitions.number_lt listed
    · obtain ⟨stmt, listed, rfl⟩ := List.mem_map.mp member
      exact spans.statements.number_lt listed
  · obtain ⟨expr, listed, rfl⟩ := List.mem_map.mp member
    exact spans.expressions.number_lt listed

theorem Spans.perm {other : List Node} (spans : heap.Spans walked) (perm : walked.Perm other) :
    heap.Spans other :=
  { spans with reached := perm.symm.trans spans.reached }

/-- A node whose insides were walked is the next of its sort. -/
theorem Spans.add {frame before : List Node} (spans : heap.Spans (frame ++ before)) (node : Node)
    (number : node.mark.number = heap.counts.of node.sort) (inside : before.Perm node.inside) :
    (heap.add node).Spans (frame ++ node.walk) := by
  have reached : (frame ++ node.walk).Perm (node :: heap.nodes) := by
    refine List.perm_middle.trans (List.Perm.cons node ?_)
    exact (inside.symm.append_left frame).trans spans.reached
  have ranked (other : Node) (member : other ∈ (heap.add node).nodes) : other.Ranked := by
    obtain rfl | member := List.mem_cons.mp ((nodes_add heap node).mem_iff.mp member)
    · intro part isPart same
      have walked : part ∈ frame ++ before :=
        List.mem_append_right frame (inside.mem_iff.mpr isPart)
      rw [number, ← same]
      exact spans.number_lt (spans.reached.mem_iff.mp walked)
    · exact spans.ranked other member
  cases node with
  | definition function =>
      exact ⟨reached.trans (nodes_add heap _).symm, spans.definitions.append number,
        spans.statements, spans.expressions, ranked⟩
  | statement stmt =>
      exact ⟨reached.trans (nodes_add heap _).symm, spans.definitions,
        spans.statements.append number, spans.expressions, ranked⟩
  | expression expr =>
      exact ⟨reached.trans (nodes_add heap _).symm, spans.definitions, spans.statements,
        spans.expressions.append number, ranked⟩

theorem spans_empty : empty.Spans [] where
  reached := .refl []
  definitions := nofun
  statements := nofun
  expressions := nofun
  ranked := nofun

theorem length_nodes (heap : Heap) : heap.nodes.length = heap.counts.total := by
  simp only [nodes, List.length_append, List.length_map, counts, NodeCounts.total]

theorem Placed.keys {α : Type} {mark : α → Mark} {nodes : List α} (placed : Placed mark nodes)
    {node : α → Node} {sort : NodeSort}
    (key : ∀ part, (node part).key = (sort, (mark part).number)) :
    (nodes.map node).map Node.key = (List.range nodes.length).map (Prod.mk sort) := by
  rw [← placed.numbers, List.map_map, List.map_map]
  exact List.map_congr_left fun part _ => key part

/-- The nodes of a walk have all sorts and numbers that were given, each once. -/
theorem Spans.keys (spans : heap.Spans walked) :
    (walked.map Node.key).Perm heap.counts.keys := by
  refine (spans.reached.map Node.key).trans (List.Perm.of_eq ?_)
  unfold nodes NodeCounts.keys
  rw [List.map_append, List.map_append, spans.definitions.keys fun _ => rfl,
    spans.statements.keys fun _ => rfl, spans.expressions.keys fun _ => rfl]
  rfl

end Heap

end ScriptConsole
