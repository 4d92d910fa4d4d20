import ScriptConsole.Eval.Run

/-! # Results of computations

A computation that came to a result did so step by step. Deleting an object has two
phases: first its children leave it, and then it leaves the registry
(`ScriptConsole.Eval.deleteObject_ok`).
-/

namespace ScriptConsole.Eval

variable {α β : Type}

/-- The console that a computation ends with, by a result or by an error. -/
def ended : EStateM.Result Abort Console α → Console
  | .ok _ console => console
  | .error _ console => console

/-- What a computation came to: a result, or why there is none. -/
def outcome : EStateM.Result Abort Console α → Except Abort α
  | .ok value _ => .ok value
  | .error abort _ => .error abort

/-- The result of a computation, if it came to one. -/
def result? {ε σ : Type} : EStateM.Result ε σ α → Option α
  | .ok value _ => some value
  | .error _ _ => none

/-- The end of a computation with another console. -/
def closing (close : Console → Console) :
    EStateM.Result Abort Console α → EStateM.Result Abort Console α
  | .ok result console => .ok result (close console)
  | .error abort console => .error abort (close console)

theorem ended_closing (close : Console → Console) (result : EStateM.Result Abort Console α) :
    ended (closing close result) = close (ended result) := by
  cases result <;> rfl

theorem result?_eq_some_iff {ε σ : Type} {result : EStateM.Result ε σ α} {value : α} :
    result? result = some value ↔ ∃ final, result = .ok value final := by
  cases result with
  | error abort final => exact ⟨nofun, nofun⟩
  | ok other final =>
      constructor
      · intro same
        exact ⟨final, congrArg (EStateM.Result.ok · final) (Option.some.inj same)⟩
      · rintro ⟨_, same⟩
        exact congrArg some (EStateM.Result.ok.inj same).1

theorem bind_apply (first : Eval α) (next : α → Eval β) (console : Console) :
    (first >>= next) console =
      match first console with
      | .ok value between => next value between
      | .error abort between => .error abort between := by
  change EStateM.bind first next console = _
  unfold EStateM.bind
  cases first console <;> rfl

/-- A further call is refused at the limit, and otherwise ends with what is done in it. -/
theorem withFrame_apply (frame : Frame) (action : Eval α) (console : Console) :
    withFrame frame action console =
      if console.world.config.maxCallDepth ≤ console.calls.depth then
        fail (.callDepth console.world.config.maxCallDepth) console
      else
        closing popFrame (action { console with calls := console.calls.push frame }) := by
  unfold withFrame
  simp only
  split
  · rfl
  · cases action { console with calls := console.calls.push frame } <;> rfl

/-- A further expression is refused at the limit, and otherwise ends with its
evaluation. -/
theorem withNesting_apply (action : Eval α) (console : Console) :
    withNesting action console =
      if console.world.config.maxExpressionDepth ≤ console.nesting then
        fail (.expressionDepth console.world.config.maxExpressionDepth) console
      else
        closing leaveExpression (action { console with nesting := console.nesting + 1 }) := by
  unfold withNesting
  simp only
  split
  · rfl
  · cases action { console with nesting := console.nesting + 1 } <;> rfl

/-- An expression comes to a result if there is room for it and its evaluation inside comes to the
result. -/
theorem withNesting_ok_iff {action : Eval α} {result : α} {console final : Console} :
    withNesting action console = .ok result final ↔
      console.nesting < console.world.config.maxExpressionDepth ∧
        ∃ after, action { console with nesting := console.nesting + 1 } = .ok result after ∧
          final = leaveExpression after := by
  rw [withNesting_apply]
  split
  next full =>
    refine ⟨nofun, ?_⟩
    rintro ⟨room, _⟩
    exact absurd full (Nat.not_le.mpr room)
  next room =>
    cases action { console with nesting := console.nesting + 1 } with
    | error abort after => exact ⟨nofun, nofun⟩
    | ok other after =>
        constructor
        · intro done
          obtain ⟨rfl, rfl⟩ := EStateM.Result.ok.inj done
          exact ⟨Nat.not_le.mp room, after, rfl, rfl⟩
        · rintro ⟨_, _, done, rfl⟩
          obtain ⟨rfl, rfl⟩ := EStateM.Result.ok.inj done
          rfl

/-- An expression within the limit comes to what its evaluation comes to. -/
theorem run_expression_ok {bound : Nat} {expr : Expr} {value : Value} {console after : Console}
    (room : console.nesting < console.world.config.maxExpressionDepth)
    (ran : expression (run bound) expr { console with nesting := console.nesting + 1 } =
      .ok value after) :
    run (bound + 2) (.expression expr) console = .ok value (leaveExpression after) :=
  withNesting_ok_iff.mpr ⟨room, after, ran, rfl⟩

/-- An expression beyond the limit is refused. -/
theorem run_expression_full (console : Console)
    (full : console.world.config.maxExpressionDepth ≤ console.nesting) (bound : Nat) (expr : Expr) :
    run (bound + 1) (.expression expr) console =
      fail (.expressionDepth console.world.config.maxExpressionDepth) console :=
  (withNesting_apply ..).trans (if_pos full)

/-- An error that goes to the host leaves the console as it ended. -/
theorem ended_attempt (action : Eval α) (console : Console) :
    ended (attempt action console) = ended (action console) := by
  unfold attempt
  cases action console with
  | ok result final => rfl
  | error abort final => cases abort <;> rfl

/-- Computations in order come to a result if the first comes to one and the second goes
on from it. -/
theorem bind_ok_iff {first : Eval α} {next : α → Eval β} {console final : Console} {result : β} :
    (first >>= next) console = .ok result final ↔
      ∃ value between,
        first console = .ok value between ∧ next value between = .ok result final := by
  rw [bind_apply]
  constructor
  · intro done
    cases ran : first console with
    | ok value between =>
        rw [ran] at done
        exact ⟨value, between, rfl, done⟩
    | error abort between =>
        rw [ran] at done
        contradiction
  · rintro ⟨value, between, ran, done⟩
    rw [ran]
    exact done

theorem pure_ok_iff {value result : α} {console final : Console} :
    (pure value : Eval α) console = .ok result final ↔ value = result ∧ console = final := by
  change EStateM.Result.ok value console = _ ↔ _
  rw [EStateM.Result.ok.injEq]

/-- A result that is not needed has come about all the same. -/
theorem discard_ok_iff {action : Eval α} {console final : Console} :
    discard action console = .ok () final ↔ ∃ value, action console = .ok value final := by
  constructor
  · intro done
    change EStateM.map _ action console = _ at done
    unfold EStateM.map at done
    cases ran : action console with
    | ok value between =>
        rw [ran] at done
        exact ⟨value, congrArg _ (EStateM.Result.ok.inj done).2⟩
    | error abort between =>
        rw [ran] at done
        contradiction
  · rintro ⟨value, ran⟩
    change EStateM.map _ action console = _
    unfold EStateM.map
    rw [ran]

/-- An object without a function of a name does not call it. -/
theorem notify_silent (console : Console) {id : Nat} {name : String}
    (silent : console.world.methodOf? id name = none) (ev : Evaluator) :
    notify ev id name console = .ok () console := by
  have read : world console = .ok console.world console := rfl
  unfold notify
  rw [bind_apply, read]
  simp only [silent]
  rfl

/-- Children are released one after the other. -/
theorem releaseChildren_cons (ev : Evaluator) (deletes : Bool) (child : Nat)
    (children : List Nat) :
    releaseChildren ev deletes (child :: children) =
      (if deletes then discard (ev (.delete child)) else (World.detach child : Eval Unit)) >>=
        fun _ => releaseChildren ev deletes children := by
  cases deletes <;> rfl

/-- What comes before an object that is being deleted leaves the registry. -/
def leave (ev : Evaluator) (id : Nat) : Eval Unit := do
  notify ev id "onRemove"
  match (← world).registry.get? id with
  | none => return ()
  | some object => releaseChildren ev object.info.deletesChildren object.children

/-- An object that its own function deleted is not removed once more. -/
private theorem remove_eq_self {world : World} {id : Nat}
    (absent : world.registry.get? id = none) : ((World.remove id).run world).2 = world := by
  unfold World.remove Registry.deregister
  rw [StateT.run_bind, StateT.run_get]
  simp only [pure_bind, absent]
  rfl

/-- Deleting an object that is live lets it leave and then removes it. -/
theorem deleteObject_ok {ev : Evaluator} {id : Nat} {console final : Console} {found : Bool}
    (deleted : deleteObject ev id console = .ok found final) :
    console.world.registry.contains id = found ∧
      (found = false → final = console) ∧
      (found = true → ∃ left, leave ev id console = .ok () left ∧
        final = { left with world := ((World.remove id).run left.world).2 }) := by
  obtain ⟨before, between, read, rest⟩ := bind_ok_iff.mp deleted
  obtain ⟨rfl, rfl⟩ := EStateM.Result.ok.inj read
  cases live : console.world.registry.contains id with
  | false =>
      simp only [live, Bool.not_false, ↓reduceIte] at rest
      obtain ⟨rfl, rfl⟩ := pure_ok_iff.mp rest
      exact ⟨rfl, fun _ => rfl, fun absurd => Bool.noConfusion absurd⟩
  | true =>
      simp only [live, Bool.not_true, Bool.false_eq_true, ↓reduceIte] at rest
      obtain ⟨_, told, notified, rest⟩ := bind_ok_iff.mp rest
      obtain ⟨after, between, read, rest⟩ := bind_ok_iff.mp rest
      obtain ⟨rfl, rfl⟩ := EStateM.Result.ok.inj read
      cases present : told.world.registry.get? id with
      | none =>
          simp only [present] at rest
          obtain ⟨rfl, rfl⟩ := pure_ok_iff.mp rest
          refine ⟨rfl, fun absurd => Bool.noConfusion absurd, fun _ => ⟨told, ?_, ?_⟩⟩
          · refine bind_ok_iff.mpr ⟨(), told, notified, bind_ok_iff.mpr ⟨_, told, rfl, ?_⟩⟩
            simp only [present]
            rfl
          · rw [remove_eq_self present]
      | some object =>
          simp only [present] at rest
          obtain ⟨_, released, letGo, rest⟩ := bind_ok_iff.mp rest
          obtain ⟨_, removed, gone, rest⟩ := bind_ok_iff.mp rest
          obtain ⟨rfl, rfl⟩ := pure_ok_iff.mp rest
          obtain ⟨_, rfl⟩ := EStateM.Result.ok.inj gone
          refine ⟨rfl, fun absurd => Bool.noConfusion absurd, fun _ => ⟨released, ?_, rfl⟩⟩
          refine bind_ok_iff.mpr ⟨(), told, notified, bind_ok_iff.mpr ⟨_, told, rfl, ?_⟩⟩
          simp only [present]
          exact letGo

/-- The name and the fields of a declared object, before it is registered or its fields are given
to the object that it redefines. -/
def drafted (ev : Evaluator) (declaration : ObjectDecl) : Eval (Option (String × Draft)) := do
  let name ← declaredName ev declaration.name
  match ← (declaredClass? declaration : WorldM _) with
  | none => return none
  | some info =>
    let draft ← copied (.ofClass info) declaration.copySource
    let draft ← initFields ev declaration.className draft declaration.fields
    return some (name, draft)

/-- Enters a declared object and then those declared inside it. -/
def enterDrafted (ev : Evaluator) (declaration : ObjectDecl) :
    Option (String × Draft) → Eval (Option Nat)
  | none => return none
  | some (name, draft) => do
    let id ← enterDeclared ev declaration.isDatablock name draft
    declareChildren ev id declaration.children
    return some id

/-- A declared object gets its fields before it is entered. -/
theorem declare_eq (ev : Evaluator) (declaration : ObjectDecl) :
    declare ev declaration = drafted ev declaration >>= enterDrafted ev declaration := by
  unfold declare drafted
  simp only [bind_assoc]
  congr 1
  funext name
  congr 1
  funext class?
  cases class? with
  | none => rfl
  | some info => simp only [bind_assoc, pure_bind, enterDrafted]

end ScriptConsole.Eval
