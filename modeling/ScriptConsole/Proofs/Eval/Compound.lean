import ScriptConsole.Proofs.Eval.Yielding

/-! # Compound assignments

A compound assignment to a variable reads the variable, evaluates the other operand and writes what
the operator makes of the two. So does the assignment of the operator between the variable and the
operand, only that the operand is evaluated inside of one more expression
(`ScriptConsole.Eval.compound_assignment`). A function of the host that goes on after the error that
there is no room for a further expression can tell the two apart
(`ScriptConsole.Eval.compound_assignment_caught`).
-/

namespace ScriptConsole

/-- The place of a variable without indices. -/
def Place.ofVariable (scope : Scope) (name : Symbol) : Place :=
  match scope with
  | .ofCall => .ofCall name
  | .ofConsole => .ofConsole name

namespace Console

/-- The value of a variable. -/
def valueOf (console : Console) (scope : Scope) (name : Symbol) : Value :=
  match scope with
  | .ofCall => console.getLocal name
  | .ofConsole => console.world.getGlobal name

/-- The console after a variable was written. -/
def assigning (console : Console) (scope : Scope) (name : Symbol) (value : Value) : Console :=
  match scope with
  | .ofCall =>
    console.updateFrame fun frame => { frame with locals := frame.locals.insert name value }
  | .ofConsole => { console with world := ((World.setGlobal name value).run console.world).2 }

/-- What is written depends on the world and on the calls in progress alone. -/
theorem assigning_congr {console other : Console} (world : other.world = console.world)
    (calls : other.calls = console.calls) (scope : Scope) (name : Symbol) (value : Value) :
    (other.assigning scope name value).world = (console.assigning scope name value).world ∧
      (other.assigning scope name value).calls = (console.assigning scope name value).calls := by
  cases scope with
  | ofCall => exact ⟨world, congrArg (CallStack.modifyTop · _) calls⟩
  | ofConsole =>
      exact ⟨congrArg (fun world => ((World.setGlobal name value).run world).2) world, calls⟩

end Console

namespace Eval

variable {α : Type} {console final : Console} {value : Value}

theorem read_ofVariable (scope : Scope) (name : Symbol) (console : Console) :
    read (.ofVariable scope name) console = .ok (console.valueOf scope name) console := by
  cases scope <;> rfl

theorem write_ofVariable (scope : Scope) (name : Symbol) (value : Value) (console : Console) :
    write value (.ofVariable scope name) console =
      .ok () (console.assigning scope name value) := by
  cases scope <;> rfl

section Evaluators

variable (ev : Evaluator) (mark : Mark) (scope : Scope) (name : Symbol)

theorem expression_variable :
    expression ev (.variable mark scope name []) = read (.ofVariable scope name) := by
  cases scope <;> rfl

theorem assign_set (value : Expr) :
    assign ev .set (.variable mark scope name []) value = do
      let result ← ev (.expression value)
      write result (.ofVariable scope name)
      return result := by
  cases scope <;> rfl

/-- The variable is read before the operand is evaluated. -/
theorem assign_compound {op : AssignOp} {combined : BinaryOp}
    (combines : op.combines? = some combined) (value : Expr) :
    assign ev op (.variable mark scope name []) value = do
      let current ← read (.ofVariable scope name)
      let operand ← ev (.expression value)
      write (current.applyBinary combined operand) (.ofVariable scope name)
      return current.applyBinary combined operand := by
  unfold assign
  simp only [combines]
  cases scope <;> rfl

/-- The operators of compound assignments evaluate both of their operands. -/
theorem binary_combines {op : AssignOp} {combined : BinaryOp}
    (combines : op.combines? = some combined) (left right : Expr) :
    binary ev combined left right = do
      let left ← ev (.expression left)
      let right ← ev (.expression right)
      return left.applyBinary combined right := by
  cases op with
  | set => exact nomatch combines
  | _ =>
      obtain rfl := Option.some.inj combines
      rfl

end Evaluators

/-- A job that came to a result leaves as many expressions in evaluation as there were. -/
theorem nesting_of_ok {bound : Nat} {job : Job} {result : job.Result}
    (ran : run bound job console = .ok result final) : final.nesting = console.nesting := by
  have restored := run_restored bound job console
  rw [ran] at restored
  exact restored.nesting

/-- An expression that came to a value was not refused, and its evaluation came to it. -/
theorem runYielding_expression_ok {bound : Nat} {expr : Expr}
    (ran : runYielding bound (.expression expr) console = .ok value final) :
    ∃ less, bound = less + 2 ∧ console.nesting < console.world.config.maxExpressionDepth ∧
      ∃ after, expression (runYielding less) expr { console with nesting := console.nesting + 1 } =
        .ok value after ∧ final = leaveExpression after := by
  cases bound with
  | zero => exact nomatch ran
  | succ bound =>
      change withNesting (runYielding bound (.evaluation expr)) console = _ at ran
      obtain ⟨room, after, done, ends⟩ := withNesting_ok_iff.mp ran
      cases bound with
      | zero => exact nomatch done
      | succ less => exact ⟨less, rfl, room, after, done, ends⟩

section Expansion

variable {op : AssignOp} {combined : BinaryOp} {mark target whole inner operand : Mark}
  {scope : Scope} {name : Symbol} {expr : Expr} {bound : Nat}

/-- The assignment of an operator between a variable and an operand, which came to a value, read the
variable, then evaluated the operand inside of two expressions and then wrote the value. -/
theorem expansion_ok (combines : op.combines? = some combined)
    (ran : runYielding bound (.expression (.assign whole .set (.variable target scope name [])
      (.binary inner combined (.variable operand scope name []) expr))) console = .ok value final) :
    ∃ less other beside, bound = less + 6 ∧
      console.nesting < console.world.config.maxExpressionDepth ∧
      runYielding (less + 2) (.expression expr) { console with nesting := console.nesting + 2 } =
        .ok other beside ∧
      value = (console.valueOf scope name).applyBinary combined other ∧
      final = leaveExpression ((leaveExpression beside).assigning scope name value) := by
  obtain ⟨_, rfl, room, assigned, assigning, rfl⟩ := runYielding_expression_ok ran
  simp only [expression, assign_set, bind_ok_iff] at assigning
  obtain ⟨_, _, combining, _, _, written, rest⟩ := assigning
  obtain ⟨rfl, rfl⟩ := pure_ok_iff.mp rest
  rw [write_ofVariable] at written
  obtain ⟨_, rfl⟩ := EStateM.Result.ok.inj written
  obtain ⟨_, rfl, _, _, evaluating, rfl⟩ := runYielding_expression_ok combining
  simp only [expression, binary_combines _ combines, bind_ok_iff] at evaluating
  obtain ⟨_, _, readFirst, other, beside, evaluated, rest⟩ := evaluating
  obtain ⟨rfl, rfl⟩ := pure_ok_iff.mp rest
  obtain ⟨less, rfl, _, _, reading, rfl⟩ := runYielding_expression_ok readFirst
  rw [expression_variable, read_ofVariable] at reading
  obtain ⟨rfl, rfl⟩ := EStateM.Result.ok.inj reading
  refine ⟨less, other, beside, rfl, room, evaluated, ?_, rfl⟩
  cases scope <;> rfl

/-- A compound assignment to a variable does what the assignment of its operator between the
variable and the operand does, whatever the operand does: where that one comes to a value, the
compound one comes to the same, and the console is the same in the end. The compound one has room
for one more expression, so no function of the host may have gone on after the error that there was
no room. -/
theorem compound_assignment (combines : op.combines? = some combined)
    (ran : run bound (.expression (.assign whole .set (.variable target scope name [])
      (.binary inner combined (.variable operand scope name []) expr))) console = .ok value final)
    (unbroken : Unbroken bound (.expression (.assign whole .set (.variable target scope name [])
      (.binary inner combined (.variable operand scope name []) expr))) console) :
    run bound (.expression (.assign mark op (.variable target scope name []) expr)) console =
      .ok value final := by
  obtain ⟨less, other, beside, rfl, room, evaluated, rfl, ends⟩ :=
    expansion_ok combines (unbroken.trans ran)
  have easing : Console.Eased { console with nesting := console.nesting + 2 }
      { console with nesting := console.nesting + 1 } := ⟨rfl, rfl, Nat.le_succ _⟩
  have fewer : less + 2 ≤ less + 4 := Nat.le_add_right _ 2
  obtain ⟨later, evaluated, easing⟩ := run_eased fewer easing evaluated
  have assigned : expression (run (less + 4))
      (.assign mark op (.variable target scope name []) expr)
      { console with nesting := console.nesting + 1 } =
        .ok ((console.valueOf scope name).applyBinary combined other)
          (later.assigning scope name
            ((console.valueOf scope name).applyBinary combined other)) := by
    have read : Console.valueOf { console with nesting := console.nesting + 1 } scope name =
        console.valueOf scope name := by
      cases scope <;> rfl
    simp only [expression, assign_compound _ _ _ _ combines, bind_apply, read_ofVariable, evaluated,
      write_ofVariable, read]
    rfl
  have compound := run_expression_ok room assigned
  have nesting := (nesting_of_ok compound).trans (nesting_of_ok ran).symm
  rw [compound]
  have world : later.world = (leaveExpression beside).world := easing.world
  have written := Console.assigning_congr world easing.calls scope name
    ((console.valueOf scope name).applyBinary combined other)
  refine congrArg (EStateM.Result.ok _) (Console.ext ?_ ?_ nesting)
  · rw [ends]
    exact written.1
  · rw [ends]
    exact written.2

end Expansion

section Sample

private def samplePlace : Mark :=
  ⟨0, .start, .start⟩

/-- The variable of the samples. -/
private def x : Symbol :=
  ⟨0, false, "x"⟩

/-- The variable with the bits of what the host answers, in full. -/
private def inFull : Expr :=
  .assign samplePlace .set (.variable samplePlace .ofCall x [])
    (.binary samplePlace .bitOr (.variable samplePlace .ofCall x []) .probe)

/-- The same as a compound assignment. -/
private def inShort : Expr :=
  .assign samplePlace .bitOr (.variable samplePlace .ofCall x []) .probe

/-- Where there is no room for the source that the host has evaluated, and the host goes on with
nought, the value of the assignment is nought. The compound one has room, and its value is one. -/
theorem compound_assignment_caught :
    (∃ final, run 30 (.expression inFull) (.probed 3 fun _ => .done (.int 0)) =
        .ok (.int 0) final) ∧
      ∃ final, run 30 (.expression inShort) (.probed 3 fun _ => .done (.int 0)) =
        .ok (.int 1) final :=
  ⟨result?_eq_some_iff.mp (by decide +kernel), result?_eq_some_iff.mp (by decide +kernel)⟩

/-- A function of the host that passes the error on answers the same, whichever way this is
written. -/
theorem compound_assignment_one :
    ∃ final, run 30 (.expression inFull) (.probed 4 .fail) = .ok (.int 1) final ∧
      run 30 (.expression inShort) (.probed 4 .fail) = .ok (.int 1) final := by
  have one : result? (run 30 (.expression inFull) (.probed 4 .fail)) = some (.int 1) := by
    decide +kernel
  obtain ⟨final, ran⟩ := result?_eq_some_iff.mp one
  have combines : AssignOp.combines? .bitOr = some .bitOr := rfl
  exact ⟨final, ran, compound_assignment combines ran
    (unbroken_of_yielding 30 (.expression inFull) trivial (Console.probed_yields 4))⟩

end Sample

end Eval

end ScriptConsole
