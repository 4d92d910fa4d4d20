import ScriptConsole.Proofs.Eval.Limits

/-! # Computations that uphold a property of the world

A computation upholds a property of the world if it ends in worlds with the property where it began
in one, as far as the evaluator does (`ScriptConsole.Eval.Upholds`). So does whatever is put
together from changes that keep the property (`ScriptConsole.Eval.Composed.upholds`), and then the
property holds at every point of a run (`ScriptConsole.Eval.Passes.upheld`).
-/

namespace ScriptConsole.Eval

variable {α β : Type}

/-- A computation came to an end in a world with a property, and with a result as demanded if with
any. -/
def Upheld (property : World → Prop) (demand : α → Prop) :
    EStateM.Result Abort Console α → Prop
  | .ok value after => property after.world ∧ demand value
  | .error _ after => property after.world

/-- An evaluator does fitting jobs in worlds with a property so that they keep it. -/
def Loyal (property : World → Prop) (fits : Job → Prop) (ev : Evaluator) : Prop :=
  ∀ job (console : Console), fits job → property console.world →
    property (ended (ev job console)).world

/-- Started in a world with a property, a computation comes to an end in such a world if the
evaluator does, and depends on what the evaluator does with fitting jobs in such worlds alone. -/
def Upholds (property : World → Prop) (fits : Job → Prop) (program : Evaluator → Eval α)
    (demand : α → Prop) : Prop :=
  ∀ ev console, Loyal property fits ev → property console.world →
    Upheld property demand (program ev console) ∧
      ∀ other : Evaluator,
        (∀ job (start : Console), fits job ∧ property start.world →
          other job start = ev job start) →
          program other console = program ev console

variable {property : World → Prop} {fits : Job → Prop}

namespace Upheld

variable {demand : α → Prop} {result : EStateM.Result Abort Console α}

theorem world (upheld : Upheld property demand result) : property (ended result).world := by
  cases result with
  | ok value after => exact upheld.1
  | error abort after => exact upheld

theorem closing (upheld : Upheld property demand result) {close : Console → Console}
    (same : ∀ console, (close console).world = console.world) :
    Upheld property demand (closing close result) := by
  cases result with
  | ok value after => exact ⟨(same after).symm ▸ upheld.1, upheld.2⟩
  | error abort after => exact (congrArg property (same after)).mpr upheld

theorem of_world (world : property (ended result).world) :
    Upheld property (fun _ => True) result := by
  cases result with
  | ok value after => exact ⟨world, trivial⟩
  | error abort after => exact world

/-- A result that goes to the host is as demanded. -/
theorem attempt {action : Eval α} {console : Console}
    (upheld : Upheld property demand (action console)) :
    Upheld property (fun result : Except EvalError α => ∀ value, result = .ok value → demand value)
      (Eval.attempt action console) := by
  unfold Eval.attempt
  cases ran : action console with
  | ok value after =>
      rw [ran] at upheld
      refine ⟨upheld.1, ?_⟩
      rintro _ ⟨⟩
      exact upheld.2
  | error abort after =>
      rw [ran] at upheld
      cases abort with
      | error reason => exact ⟨upheld, nofun⟩
      | outOfSteps => exact upheld

end Upheld

namespace Upholds

theorem pure {demand : α → Prop} {result : α} (holds : demand result) :
    Upholds property fits (fun _ => Pure.pure result) demand :=
  fun _ _ _ world => ⟨⟨world, holds⟩, fun _ _ => rfl⟩

theorem throw {demand : α → Prop} (abort : Abort) :
    Upholds property fits (fun _ => (MonadExcept.throw abort : Eval α)) demand :=
  fun _ _ _ world => ⟨world, fun _ _ => rfl⟩

/-- The second part begins where the first ended, in a world that has the property, with a result as
demanded. -/
theorem bind {first : Evaluator → Eval α} {next : α → Evaluator → Eval β} {demand : α → Prop}
    {final : β → Prop} (start : Upholds property fits first demand)
    (rest : ∀ value, demand value → Upholds property fits (next value) final) :
    Upholds property fits (fun ev => first ev >>= fun value => next value ev) final := by
  intro ev console loyal world
  obtain ⟨upheld, agree⟩ := start ev console loyal world
  simp only [bind_apply]
  cases ran : first ev console with
  | error abort between =>
      rw [ran] at upheld
      refine ⟨upheld, fun other same => ?_⟩
      rw [agree other same, ran]
  | ok value between =>
      rw [ran] at upheld
      obtain ⟨upheldNext, agreeNext⟩ := rest value upheld.2 ev between loyal upheld.1
      refine ⟨upheldNext, fun other same => ?_⟩
      rw [agree other same, ran]
      exact agreeNext other same

/-- A weaker demand on the result is met as well. -/
theorem weaken {program : Evaluator → Eval α} {demand weaker : α → Prop}
    (upholds : Upholds property fits program demand)
    (implies : ∀ value, demand value → weaker value) :
    Upholds property fits program weaker := by
  intro ev console loyal world
  obtain ⟨upheld, agree⟩ := upholds ev console loyal world
  refine ⟨?_, agree⟩
  cases ran : program ev console with
  | error abort after =>
      rw [ran] at upheld
      exact upheld
  | ok value after =>
      rw [ran] at upheld
      exact ⟨upheld.1, implies value upheld.2⟩

theorem job (job : Job) (fitting : fits job) :
    Upholds property fits (fun ev => ev job) fun _ => True :=
  fun _ console loyal world =>
    ⟨.of_world (loyal job console fitting world), fun _ same => same job console ⟨fitting, world⟩⟩

/-- A change keeps the property, and its result depends on the world alone. -/
theorem change {change : WorldM α} {demand : α → Prop} (keeps : World.Preserves property change)
    (holds : ∀ world, property world → demand (change.run world).1) :
    Upholds property fits (fun _ => (change : Eval α)) demand :=
  fun _ console _ world => ⟨⟨keeps console.world world, holds console.world world⟩, fun _ _ => rfl⟩

theorem keeping {change : WorldM α} (keeps : World.Preserves property change) :
    Upholds property fits (fun _ => (change : Eval α)) fun _ => True :=
  .change keeps fun _ _ => trivial

theorem reading {next : World → Evaluator → Eval α} {demand : α → Prop}
    (rest : ∀ world, property world → Upholds property fits (next world) demand) :
    Upholds property fits (fun ev => world >>= fun world => next world ev) demand :=
  fun ev console loyal world => rest console.world world ev console loyal world

theorem readingCall {next : Console → Evaluator → Eval α} {demand : α → Prop}
    (rest : ∀ console : Console, property console.world →
      Upholds property fits (next console) demand) :
    Upholds property fits (fun ev => get >>= fun console => next console ev) demand :=
  fun ev console loyal world => rest console world ev console loyal world

theorem updateCall (change : Frame → Frame) :
    Upholds property fits
      (fun _ => (modify fun console : Console => console.updateFrame change : Eval PUnit))
      fun _ => True :=
  fun _ _ _ world => ⟨⟨world, trivial⟩, fun _ _ => rfl⟩

theorem withFrame {body : Evaluator → Eval α} {demand : α → Prop} (frame : Frame)
    (upholds : Upholds property fits body demand) :
    Upholds property fits (fun ev => Eval.withFrame frame (body ev)) demand := by
  intro ev console loyal world
  have inside := upholds ev { console with calls := console.calls.push frame } loyal world
  simp only [withFrame_apply]
  split
  · exact ⟨world, fun _ _ => rfl⟩
  · exact ⟨inside.1.closing fun _ => rfl, fun other same => by rw [inside.2 other same]⟩

theorem withNesting {body : Evaluator → Eval α} {demand : α → Prop}
    (upholds : Upholds property fits body demand) :
    Upholds property fits (fun ev => Eval.withNesting (body ev)) demand := by
  intro ev console loyal world
  have inside := upholds ev { console with nesting := console.nesting + 1 } loyal world
  simp only [withNesting_apply]
  split
  · exact ⟨world, fun _ _ => rfl⟩
  · exact ⟨inside.1.closing fun _ => rfl, fun other same => by rw [inside.2 other same]⟩

theorem attempt {body : Evaluator → Eval α} {demand : α → Prop}
    (upholds : Upholds property fits body demand) :
    Upholds property fits (fun ev => Eval.attempt (body ev))
      fun result => ∀ value, result = .ok value → demand value := by
  intro ev console loyal world
  obtain ⟨upheld, agree⟩ := upholds ev console loyal world
  refine ⟨upheld.attempt, fun other same => ?_⟩
  change Eval.attempt (body other) console = Eval.attempt (body ev) console
  unfold Eval.attempt
  rw [agree other same]

end Upholds

/-- What is put together from changes that keep a property upholds it, if there are no other
functions than the terms say in worlds with the property. -/
theorem Composed.upholds {terms : Terms} {inside : Bool} {program : Evaluator → Eval α}
    (composed : Composed terms inside program)
    (functions : ∀ world, property world → world.spaces.Each terms.callable)
    (changes : ∀ {γ : Type} {change : WorldM γ},
      terms.changes change → World.Preserves property change) :
    Upholds property (Job.Calls terms.callable) program fun _ => True := by
  induction composed with
  | pure result => exact .pure trivial
  | bind start rest ihStart ihRest => exact .bind ihStart fun value _ => ihRest value
  | job job within allowed => exact .job job allowed
  | change allowed => exact .change (changes allowed) fun _ _ => trivial
  | reading same rest ih =>
      exact .reading fun world holds => ih world (functions world holds)
  | readingCall same rest ih =>
      exact .readingCall fun console holds => ih console (functions console.world holds)
  | updateCall change => exact .updateCall change
  | fail fault => exact fun _ _ _ world => ⟨world, fun _ _ => rfl⟩
  | throw abort => exact .throw abort
  | withFrame frame composed ih => exact .withFrame frame ih
  | withNesting composed ih => exact .withNesting ih
  | attempt allowed composed ih => exact ih.attempt.weaken fun _ _ => trivial

section Calls

/-- A native function is run on arguments that it takes, and else there is a warning. -/
theorem upholds_callNative (warns : ∀ text, World.Preserves property (World.warn text))
    (name : String) (isMethod : Bool) (arity : Arity) {code : NativeCode}
    (runs : ∀ call, Upholds property fits (fun ev => runNative ev code call) fun _ => True)
    (arguments : List Value) :
    Upholds property fits (fun ev => callNative ev name isMethod arity code arguments)
      fun _ => True := by
  have refused (text : String) : Upholds property fits
      (fun _ => (do World.warn text; return Value.empty : Eval Value)) fun _ => True :=
    .bind (.keeping (warns text)) fun _ _ => .pure trivial
  refine .reading fun world _ => ?_
  cases nativeCall? world isMethod arguments with
  | none => exact refused _
  | some call =>
      simp only
      split
      · exact runs call
      · exact refused _

/-- A call upholds a property if it does wherever it is one of a function of the host. -/
theorem upholds_callEntry (terms : Terms) (notes : terms.notes)
    (functions : ∀ world, property world → world.spaces.Each terms.callable)
    (changes : ∀ {γ : Type} {change : WorldM γ},
      terms.changes change → World.Preserves property change)
    (hosts : ∀ {isMethod arity program}, terms.callable (.native isMethod arity (.host program)) →
      ∀ call, Upholds property (Job.Calls terms.callable) (fun ev => runHost ev (program call))
        fun _ => True)
    {entry : Entry Callable} (allowed : terms.callable entry.target) (arguments : List Value) :
    Upholds property (Job.Calls terms.callable) (fun ev => callEntry ev entry arguments)
      fun _ => True := by
  have warns (text : String) : World.Preserves property (World.warn text) :=
    changes (terms.gentle (.mild (.warn text)))
  have own (own : ¬ entry.target.IsHosted) : Upholds property (Job.Calls terms.callable)
      (fun ev => callEntry ev entry arguments) fun _ => True :=
    (composed_callOwn notes own arguments : Composed terms true _).upholds functions changes
  obtain ⟨layer, name, target⟩ := entry
  cases target with
  | script filename definition => exact own id
  | native isMethod arity code =>
      cases code with
      | builtin builtin => exact own id
      | host program => exact upholds_callNative warns _ isMethod arity (hosts allowed) arguments

end Calls

section Runs

/-- If a step upholds a property, evaluators keep it whatever their bound. -/
theorem loyal_run (steps : ∀ bound job, fits job →
      Upholds property fits (fun ev => step bound ev job) fun _ => True) (bound : Nat) :
    Loyal property fits (run bound) := by
  induction bound with
  | zero => exact fun job console _ world => world
  | succ bound ih =>
      exact fun job console fitting world =>
        (steps bound job fitting (run bound) console ih world).1.world

/-- A property that a computation upholds holds at every point of its run. -/
theorem Passes.upheld (steps : ∀ bound job, fits job →
      Upholds property fits (fun ev => step bound ev job) fun _ => True)
    {program : Evaluator → Eval α} {demand : α → Prop}
    (upholds : Upholds property fits program demand) {bound : Nat} {console point : Console}
    (passes : Passes bound program console point) (world : property console.world) :
    property point.world := by
  induction passes with
  | start bound program console => exact world
  | finish bound program console =>
      exact (upholds (run bound) console (loyal_run steps bound) world).1.world
  | @reach α bound program console job start comes =>
      obtain ⟨_, agree⟩ := upholds (run bound) console (loyal_run steps bound) world
      exact (comes.holds (fun job start => fits job ∧ property start.world) agree).2
  | @inside α bound program console job start point comes passes ih =>
      obtain ⟨_, agree⟩ := upholds (run (bound + 1)) console (loyal_run steps (bound + 1)) world
      obtain ⟨fitting, there⟩ :=
        comes.holds (fun job start => fits job ∧ property start.world) agree
      exact ih (steps bound job fitting) there

end Runs

end ScriptConsole.Eval
