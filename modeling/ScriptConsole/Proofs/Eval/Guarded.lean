import ScriptConsole.Proofs.Console.Orderly
import ScriptConsole.Proofs.Eval.Results

/-! # Computations on proper jobs

A job is proper if what it does is a node of a compiled script. A computation is guarded if it
hands only such jobs to the evaluator, changes the world in an orderly way and fails for want
of room alone, as far as the evaluator does (`ScriptConsole.Eval.Guarded`).
-/

namespace ScriptConsole

/-- A run ends for this reason if there is no room for a further call or expression. -/
def EvalFault.IsExhaustion : EvalFault → Prop
  | .callDepth _ | .expressionDepth _ => True
  | .notAssignable => False

/-- Evaluation reached the bound on its steps, or ran out of room. -/
def Abort.IsExhaustion : Abort → Prop
  | .outOfSteps => True
  | .error reason => reason.fault.IsExhaustion

/-- What a job does is at its place in a heap. A function that it calls is a proper one. -/
def Job.Fits (heap : Heap) : Job → Prop
  | .sequence statements => ∀ stmt ∈ statements, heap.HasStmt stmt
  | .statement stmt => heap.HasStmt stmt
  | .expression expr => heap.HasExpr expr
  | .evaluation expr => heap.HasExpr expr
  | .declare declaration => heap.HasObject declaration
  | .call entry _ => entry.target.Proper
  | .delete _ => True

/-- A job calls a proper function or deletes an object, or what it does is at its place in the
heap of a compiled script. -/
def Job.Proper : Job → Prop
  | .call entry _ => entry.target.Proper
  | .delete _ => True
  | job => ∃ heap : Heap, heap.Compiled ∧ job.Fits heap

theorem Job.Fits.proper {heap : Heap} {job : Job} (fits : job.Fits heap)
    (compiled : heap.Compiled) : job.Proper := by
  cases job with
  | call entry arguments => exact fits
  | delete id => exact trivial
  | _ => exact ⟨heap, compiled, fits⟩

namespace Eval

variable {α β : Type}

/-- From a world, a computation came to an end in an orderly way: with a result as demanded, or
for want of room. -/
def Ends (strict : Prop) (base : World) (demand : α → World → Prop) :
    EStateM.Result Abort Console α → Prop
  | .ok value after => base.Ordered strict after.world ∧ demand value after.world
  | .error abort after => base.Ordered strict after.world ∧ abort.IsExhaustion

/-- An evaluator does fitting jobs in sane worlds in an orderly way. -/
def Trusted (strict : Prop) (fits : Job → Prop) (ev : Evaluator) : Prop :=
  ∀ job console, fits job → console.world.Sane →
    Ends strict console.world (fun _ _ => True) (ev job console)

/-- Two evaluators do fitting jobs in sane worlds alike. -/
def Agrees (fits : Job → Prop) (ev other : Evaluator) : Prop :=
  ∀ job (console : Console), fits job → console.world.Sane → other job console = ev job console

/-- Started in a sane world, a computation comes to an end in an orderly way if the evaluator
does, and depends on what the evaluator does with fitting jobs in sane worlds alone. -/
def Guarded (strict : Prop) (fits : Job → Prop) (base : World) (program : Evaluator → Eval α)
    (demand : α → World → Prop) : Prop :=
  base.Sane → ∀ ev console, Trusted strict fits ev → console.world = base →
    Ends strict base demand (program ev console) ∧
      ∀ other, Agrees fits ev other → program other console = program ev console

/-- A computation whose result is not needed. -/
abbrev Follows (strict : Prop) (fits : Job → Prop) (base : World) (program : Evaluator → Eval α) :
    Prop :=
  Guarded strict fits base program fun _ _ => True

theorem Ends.closing {strict : Prop} {base : World} {demand : α → World → Prop}
    {result : EStateM.Result Abort Console α} (ends : Ends strict base demand result)
    {close : Console → Console} (world : ∀ console, (close console).world = console.world) :
    Ends strict base demand (closing close result) := by
  cases result with
  | ok value after =>
      refine ⟨?_, ?_⟩
      · exact (world after).symm ▸ ends.1
      · exact (world after).symm ▸ ends.2
  | error abort after => exact ⟨(world after).symm ▸ ends.1, ends.2⟩

namespace Guarded

variable {strict : Prop} {fits : Job → Prop} {base : World}

/-- What a computation does in a sane world is all that counts. -/
theorem of_sane {program : Evaluator → Eval α} {demand : α → World → Prop}
    (guarded : base.Sane → Guarded strict fits base program demand) :
    Guarded strict fits base program demand :=
  fun sane => guarded sane sane

theorem pure {demand : α → World → Prop} {result : α} (holds : demand result base) :
    Guarded strict fits base (fun _ => Pure.pure result) demand := by
  intro sane ev console _ same
  subst same
  exact ⟨⟨.refl, holds⟩, fun other _ => rfl⟩

/-- Two guarded parts are guarded together. The second begins in the world that the first ended in,
which is again sane and comes after the base in an orderly way. -/
theorem bind {first : Evaluator → Eval α} {next : α → Evaluator → Eval β}
    {demand : α → World → Prop} {final : β → World → Prop}
    (start : Guarded strict fits base first demand)
    (rest : ∀ value later, base.Ordered strict later → demand value later →
      Guarded strict fits later (next value) final) :
    Guarded strict fits base (fun ev => first ev >>= fun value => next value ev) final := by
  intro sane ev console trusted same
  obtain ⟨ends, agree⟩ := start sane ev console trusted same
  simp only [bind_apply]
  cases ran : first ev console with
  | error abort between =>
      rw [ran] at ends
      refine ⟨ends, fun other agrees => ?_⟩
      rw [agree other agrees, ran]
  | ok value between =>
      rw [ran] at ends
      obtain ⟨ordered, holds⟩ := ends
      obtain ⟨endsNext, agreeNext⟩ := rest value between.world ordered holds (ordered.sane sane) ev
        between trusted rfl
      refine ⟨?_, fun other agrees => ?_⟩
      · simp only
        cases ended : next value ev between with
        | ok result after =>
            rw [ended] at endsNext
            exact ⟨ordered.trans endsNext.1, endsNext.2⟩
        | error abort after =>
            rw [ended] at endsNext
            exact ⟨ordered.trans endsNext.1, endsNext.2⟩
      · rw [agree other agrees, ran]
        exact agreeNext other agrees

/-- What follows a computation whose result is not needed may rely on the world alone. -/
theorem andThen {first : Evaluator → Eval α} {next : α → Evaluator → Eval β}
    {final : β → World → Prop} (start : Follows strict fits base first)
    (rest : ∀ value later, base.Ordered strict later →
      Guarded strict fits later (next value) final) :
    Guarded strict fits base (fun ev => first ev >>= fun value => next value ev) final :=
  .bind start fun value later ordered _ => rest value later ordered

theorem map {program : Evaluator → Eval α} {view : α → β} {demand : β → World → Prop}
    (guarded : Guarded strict fits base program fun value later => demand (view value) later) :
    Guarded strict fits base (fun ev => view <$> program ev) demand := by
  simp only [map_eq_pure_bind]
  exact .bind guarded fun _ _ _ holds => .pure holds

theorem discard {program : Evaluator → Eval α} (follows : Follows strict fits base program) :
    Follows strict fits base fun ev => discard (program ev) :=
  .map follows

/-- More jobs may be handed to the evaluator. -/
theorem widen {program : Evaluator → Eval α} {demand : α → World → Prop} {more : Job → Prop}
    (guarded : Guarded strict fits base program demand) (implies : ∀ job, fits job → more job) :
    Guarded strict more base program demand := by
  intro sane ev console trusted same
  obtain ⟨ends, agree⟩ := guarded sane ev console
    (fun job console fits => trusted job console (implies job fits)) same
  exact ⟨ends, fun other agrees => agree other fun job console fits =>
    agrees job console (implies job fits)⟩

theorem job (job : Job) (fitting : fits job) : Follows strict fits base fun ev => ev job := by
  intro sane ev console trusted same
  subst same
  exact ⟨trusted job console fitting sane, fun other agrees => agrees job console fitting sane⟩

/-- A change of the world is orderly. -/
theorem change {change : WorldM α} {demand : α → World → Prop}
    (ordered : base.Ordered strict (change.run base).2)
    (holds : demand (change.run base).1 (change.run base).2) :
    Guarded strict fits base (fun _ => (change : Eval α)) demand := by
  intro sane ev console _ same
  subst same
  exact ⟨⟨ordered, holds⟩, fun other _ => rfl⟩

theorem gentle {change : WorldM α} (gentle : World.Gentle change) :
    Follows strict fits base fun _ => (change : Eval α) :=
  .change (gentle.ordered strict base) trivial

theorem warn (text : String) : Follows strict fits base fun _ => (World.warn text : Eval Unit) :=
  .gentle (.mild (.warn text))

/-- What is read of the world is the world. -/
theorem reading {next : World → Evaluator → Eval α} {demand : α → World → Prop}
    (rest : Guarded strict fits base (next base) demand) :
    Guarded strict fits base (fun ev => world >>= fun world => next world ev) demand := by
  intro sane ev console trusted same
  subst same
  exact rest sane ev console trusted rfl

theorem readingCall {next : Console → Evaluator → Eval α} {demand : α → World → Prop}
    (rest : ∀ console : Console, console.world = base →
      Guarded strict fits base (next console) demand) :
    Guarded strict fits base (fun ev => get >>= fun console => next console ev) demand :=
  fun sane ev console trusted same => rest console same sane ev console trusted same

theorem updateCall (change : Frame → Frame) :
    Follows strict fits base
      fun _ => (modify fun console : Console => console.updateFrame change : Eval PUnit) := by
  intro sane ev console _ same
  subst same
  exact ⟨⟨.refl, trivial⟩, fun other _ => rfl⟩

/-- A further call is refused for want of room, or ends with its body. -/
theorem withFrame {body : Evaluator → Eval α} {demand : α → World → Prop} (frame : Frame)
    (guarded : Guarded strict fits base body demand) :
    Guarded strict fits base (fun ev => Eval.withFrame frame (body ev)) demand := by
  intro sane ev console trusted same
  have inside := guarded sane ev { console with calls := console.calls.push frame } trusted same
  simp only [withFrame_apply]
  split
  · subst same
    exact ⟨⟨.refl, trivial⟩, fun other _ => rfl⟩
  · exact ⟨inside.1.closing fun _ => rfl, fun other agrees => by rw [inside.2 other agrees]⟩

/-- A further expression is refused for want of room, or ends with its evaluation. -/
theorem withNesting {body : Evaluator → Eval α} {demand : α → World → Prop}
    (guarded : Guarded strict fits base body demand) :
    Guarded strict fits base (fun ev => Eval.withNesting (body ev)) demand := by
  intro sane ev console trusted same
  have inside := guarded sane ev { console with nesting := console.nesting + 1 } trusted same
  simp only [withNesting_apply]
  split
  · subst same
    exact ⟨⟨.refl, trivial⟩, fun other _ => rfl⟩
  · exact ⟨inside.1.closing fun _ => rfl, fun other agrees => by rw [inside.2 other agrees]⟩

/-- A loop follows if each of its rounds does. -/
theorem rounds {σ : Type} {round : Evaluator → σ → Eval (Round σ β)}
    (each : ∀ state later, Follows strict fits later fun ev => round ev state) (bound : Nat)
    (state : σ) :
    Follows strict fits base fun ev => ScriptConsole.rounds .outOfSteps (round ev) bound state := by
  induction bound generalizing base state with
  | zero =>
      intro sane ev console _ same
      subst same
      exact ⟨⟨.refl, trivial⟩, fun other _ => rfl⟩
  | succ bound ih =>
      refine .andThen (each state base) fun outcome later _ => ?_
      cases outcome with
      | again state => exact ih state
      | done result => exact .pure trivial

theorem forM {items : List α} {body : α → Evaluator → Eval PUnit}
    (each : ∀ item ∈ items, ∀ later, Follows strict fits later (body item)) :
    Follows strict fits base fun ev => items.forM fun item => body item ev := by
  induction items generalizing base with
  | nil => exact .pure trivial
  | cons item items ih =>
      obtain ⟨first, rest⟩ := List.forall_mem_cons.mp each
      exact .andThen (first base) fun _ later _ => ih rest

end Guarded

end Eval

end ScriptConsole
