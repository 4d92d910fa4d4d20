import ScriptConsole.Proofs.Console.Fresh
import ScriptConsole.Proofs.Console.Labels
import ScriptConsole.Proofs.Eval.Safety

/-! # What holds of sessions

A host that registers objects of the classes of its console alone finds all names of classes and
objects in the table of symbols (`ScriptConsole.Eval.Session.labelled`). The classes are those
that it asked for, whatever else it did (`ScriptConsole.Eval.Session.sameClasses`).
-/

namespace ScriptConsole.Eval

variable {strict : Prop} {specs : List ClassSpec} {console : Console}

theorem Session.labelled (session : Session True specs console) : console.world.Labelled := by
  induction session with
  | new config serial =>
      rw [Console.new_world]
      exact World.labelled_new config serial
  | registerClass session spec bound ih => exact World.labelled_registerClass spec _ ih
  | perform session proper other bound ih =>
      have ordered := Guarded.ordered (follows_perform proper other) session.sane bound
      exact ordered.labelled ih

theorem Session.reachable (session : Session strict specs console) : console.world.Reachable := by
  induction session with
  | new config serial =>
      rw [Console.new_world]
      exact .new config serial
  | registerClass session spec bound ih => exact ih.evolves (perform_evolves bound _ _)
  | perform session proper other bound ih => exact ih.evolves (perform_evolves bound _ _)

/-- The classes are the same as in a new console in which they were registered in order. -/
theorem Session.sameClasses (session : Session True specs console) (config : Config)
    (serial : Nat) : console.world.SameClasses ((World.new config serial).registered specs) := by
  induction session with
  | new config' serial' =>
      rw [Console.new_world]
      exact World.sameClasses_new config' config serial' serial
  | @registerClass specs console session spec bound ih =>
      unfold World.registered
      rw [List.foldl_append]
      exact ih.registerClass session.labelled.toKeyed
        (World.ready_new config serial specs).toKeyed spec
  | perform session proper other bound ih =>
      have ordered := Guarded.ordered (follows_perform proper other) session.sane bound
      unfold World.SameClasses
      rw [ordered.classInfo?_eq session.labelled.toKeyed]
      exact ih

end ScriptConsole.Eval
