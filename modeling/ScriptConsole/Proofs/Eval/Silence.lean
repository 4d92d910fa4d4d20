import ScriptConsole.Proofs.Eval.Evolution
import ScriptConsole.Proofs.Eval.Twins

/-! # Consoles without warnings

A host that does the same in order on two consoles, of which one logs warnings and the other does
not, gets the same answers and errors from both, and after every step the consoles differ only in
that: the log of the second is that of the first without the warnings
(`ScriptConsole.Eval.history_silenced`).
-/

namespace ScriptConsole

/-- The console with warnings logged or not. -/
def Console.withWarnings (console : Console) (echoWarnings : Bool) : Console :=
  { console with world.config.echoWarnings := echoWarnings }

/-- A journal is another one without warnings, since both had a log in common. -/
structure Journal.Silenced (base : List Message) (loud quiet : Journal) : Prop where
  loudly : loud.config.echoWarnings = true
  config : quiet.config = { loud.config with echoWarnings := false }
  sink : quiet.sink = loud.sink
  log : ∃ messages, loud.log = messages ++ base ∧
    quiet.log = messages.filter (fun message => !message.isWarning) ++ base

namespace Journal

variable {base : List Message}

/-- A message is recorded by both. -/
theorem Silenced.say {loud quiet : Journal} (silenced : Silenced base loud quiet) (text : String) :
    Silenced base (loud.add (.say text)) (quiet.add (.say text)) := by
  obtain ⟨loudly, config, sink, messages, first, second⟩ := silenced
  simp only [add, record, sink]
  cases kind : loud.sink with
  | memory =>
      refine ⟨loudly, config, rfl, ⟨false, text⟩ :: messages, ?_, ?_⟩
      · simp [first]
      · simp [second]
  | nowhere => exact ⟨loudly, config, sink, messages, first, second⟩

/-- A warning is recorded by the first alone. -/
theorem Silenced.warn {loud quiet : Journal} (silenced : Silenced base loud quiet)
    (text : String) : Silenced base (loud.add (.warn text)) (quiet.add (.warn text)) := by
  obtain ⟨loudly, config, sink, messages, first, second⟩ := silenced
  have quietly : quiet.config.echoWarnings = false := by rw [config]
  simp only [add, record, loudly, quietly, ↓reduceIte, Bool.false_eq_true]
  cases kind : loud.sink with
  | memory =>
      refine ⟨loudly, config, sink.trans kind, ⟨true, text⟩ :: messages, ?_, ?_⟩
      · simp [first]
      · simp [second]
  | nowhere => exact ⟨loudly, config, sink, messages, first, second⟩

theorem kept_silenced (base : List Message) : Kept True (Silenced base) where
  add note silenced := by
    cases note with
    | say text => exact silenced.say text
    | warn text => exact silenced.warn text
    | sendTo sink => exact ⟨silenced.loudly, silenced.config, rfl, silenced.log⟩
  calls_le silenced := by rw [silenced.config]
  nesting_le silenced := by rw [silenced.config]
  calls_eq _ silenced := by rw [silenced.config]
  nesting_eq _ silenced := by rw [silenced.config]

end Journal

/-- What a host does with a console: it asks for an operation, or registers a function. -/
inductive HostStep where
  | ask (operation : Operation)
  | register (space : Option String) (name : String) (isMethod : Bool) (arity : Arity)
    (code : NativeCall → HostProgram)

/-- The type of what a host gets for what it does. -/
abbrev HostStep.Answer : HostStep → Type
  | ask operation => operation.Answer
  | register _ _ _ _ _ => Unit

namespace Eval

/-- Does what a host does. -/
def take (ev : Evaluator) : (step : HostStep) → Eval step.Answer
  | .ask operation => perform ev operation
  | .register space name isMethod arity code =>
    World.registerNative space name isMethod arity (.host code)

/-- What a host that takes steps in order gets for each of them, and the console after it. -/
def history (bound : Nat) :
    List HostStep → Console → List ((Σ step : HostStep, Except Abort step.Answer) × Console)
  | [], _ => []
  | step :: steps, console =>
    let result := take (run bound) step console
    (⟨step, outcome result⟩, ended result) :: history bound steps (ended result)

theorem composed_take (step : HostStep) :
    Composed (.hosted True) false fun ev => take ev step := by
  cases step with
  | ask operation => exact composed_perform operation
  | register space name isMethod arity code =>
      exact .change ((Terms.free_hosted True).registerNative trivial space name isMethod arity code)

/-- A console is another one that differs from it only in that warnings are not logged, since both
had a log in common. -/
structure Silenced (base : List Message) (loud quiet : Console) : Prop where
  loudly : loud.world.config.echoWarnings = true
  world : quiet.world =
    { loud.world with config.echoWarnings := false, log := quiet.world.log }
  log : ∃ messages, loud.world.log = messages ++ base ∧
    quiet.world.log = messages.filter (fun message => !message.isWarning) ++ base
  calls : quiet.calls = loud.calls
  nesting : quiet.nesting = loud.nesting

/-- What a host does comes to the same on a console without warnings. -/
theorem Silenced.take {base : List Message} {loud quiet : Console}
    (silenced : Silenced base loud quiet) (bound : Nat) (step : HostStep) :
    outcome (take (run bound) step quiet) = outcome (take (run bound) step loud) ∧
      Silenced base (ended (Eval.take (run bound) step loud))
        (ended (Eval.take (run bound) step quiet)) := by
  have config := congrArg World.config silenced.world
  have sink := congrArg World.sink silenced.world
  have world : quiet.world = loud.world.withJournal quiet.world.journal := by
    unfold World.withJournal World.journal
    rw [config, sink]
    exact silenced.world
  have twins : Console.Twins (Journal.Silenced base) True false loud quiet :=
    ⟨⟨silenced.loudly, config, sink, silenced.log⟩, world, loud.world.hostedIf_true,
      by rw [silenced.calls], nofun, silenced.nesting⟩
  obtain ⟨same, paired⟩ :=
    ((composed_take step).run_mirrors (Journal.kept_silenced base) bound loud quiet twins).outcome
  have journals := paired.twins.journals
  refine ⟨same, journals.loudly, ?_, journals.log, ?_, paired.twins.nesting⟩
  · have after := paired.twins.world
    simp only [World.withJournal, journals.config, journals.sink] at after
    exact after
  · rw [paired.first.calls rfl, paired.second.calls rfl, silenced.calls]

/-- A host that takes the same steps on two consoles that differ only in that one of them logs no
warnings gets the same answers and errors. After every step the consoles differ only in that, and
in their logs: the messages that the second logged since are those that the first did, without the
warnings. -/
theorem history_silenced (bound : Nat) (steps : List HostStep) (console : Console) :
    List.Forall₂
      (fun loud quiet => quiet.1 = loud.1 ∧ Silenced console.world.log loud.2 quiet.2)
      (history bound steps (console.withWarnings true))
      (history bound steps (console.withWarnings false)) := by
  have each (loud quiet : Console) (silenced : Silenced console.world.log loud quiet) :
      List.Forall₂ (fun loud quiet => quiet.1 = loud.1 ∧ Silenced console.world.log loud.2 quiet.2)
        (history bound steps loud) (history bound steps quiet) := by
    induction steps generalizing loud quiet with
    | nil => exact .nil
    | cons step steps ih =>
        obtain ⟨same, after⟩ := silenced.take bound step
        exact .cons ⟨congrArg (Sigma.mk step) same, after⟩ (ih _ _ after)
  exact each _ _ ⟨rfl, rfl, ⟨[], rfl, rfl⟩, rfl, rfl⟩

/-- A call of a function that is not there warns; what scripts write themselves is logged. -/
example :
    let logged (echoWarnings : Bool) :=
      (history 40 [.ask (.evaluate "lost(); warn(1);")]
        ((Console.new {} 0).withWarnings echoWarnings)).map fun step => step.2.world.logLines
    logged true = [["Warning: unable to find function 'lost'", "Warning: 1"]] ∧
      logged false = [["Warning: 1"]] := by
  decide +kernel

end Eval

end ScriptConsole
