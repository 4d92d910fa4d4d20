import ScriptConsole.Proofs.Eval.Following
import ScriptConsole.Proofs.Eval.Limits

/-! # Runs do not go wrong

However a host without functions of its own comes to a console, each operation on it comes to
a result or ends for want of room. All that is done in between is at its place in the heap of a
compiled script, and all objects have the elements of their fields
(`ScriptConsole.Eval.session_safe`).
-/

namespace ScriptConsole

/-- What a host does without functions of its own: it executes compiled scripts alone, and
registers objects that came about by writing and copying fields. -/
def Operation.Proper (strict : Prop) (world : World) : Operation → Prop
  | .execute script => ∃ source symbols, (compileSource source symbols).1 = .ok script
  | .register draft _ => draft.Fits strict world
  | _ => True

namespace Eval

variable {α : Type} {strict : Prop} {base : World}

section Host

/-- A draft still fits after the fields of a snapshot were written to it, as none of them changes
its class. -/
theorem guarded_restoreFields (className : String) (fields : List FieldSnapshot) {draft : Draft}
    {fits : Job → Prop} (fitting : draft.Fits strict base) :
    Guarded strict fits base
      (fun _ => (fields.foldlM (Snapshot.restoreField className) draft : WorldM Draft))
      fun draft later => draft.Fits strict later := by
  have restored : World.Gentle (fields.foldlM (Snapshot.restoreField className) draft) :=
    .foldlM (World.gentle_restoreField className) draft
  have ordered := restored.ordered strict base
  refine .change ordered (Draft.Fits.later ?_ ordered)
  exact restoreFields_induct (Draft.Fits strict base) (fun fits written => fits.setField written)
    className fields fitting base

mutual

/-- Restoring a snapshot makes a draft that fits, registers it and goes on with the children. -/
theorem follows_restore : (snapshot : Snapshot) → (base : World) →
    Follows strict Job.Proper base fun ev => snapshot.restore ev
  | ⟨className, name, fields, children⟩, base => by
    unfold Snapshot.restore
    refine .of_sane fun sane => .reading ?_
    cases found : base.newObject? className with
    | none => exact .pure trivial
    | some draft =>
        obtain ⟨info, is, rfl⟩ := Option.map_eq_some_iff.mp found
        refine .bind (guarded_restoreFields className fields (.ofClass sane is)) ?_
        refine fun draft _ _ fitting => ?_
        refine .andThen (follows_registerObject calling_proper fitting _) fun id _ _ => ?_
        refine .andThen (follows_restoreChildren id children _) fun restored _ _ => ?_
        cases restored with
        | ok _ => exact .pure trivial
        | error reason => exact .pure trivial

/-- The children of a snapshot are restored in order, each in the world that the one before it left.
-/
theorem follows_restoreChildren (container : Nat) : (snapshots : List Snapshot) → (base : World) →
    Follows strict Job.Proper base fun ev => Snapshot.restoreChildren ev container snapshots
  | [], base => by
    unfold Snapshot.restoreChildren
    exact .pure trivial
  | snapshot :: snapshots, base => by
    unfold Snapshot.restoreChildren
    refine .andThen (follows_restore snapshot base) fun restored _ _ => ?_
    cases restored with
    | error reason => exact .pure trivial
    | ok child =>
        exact .andThen (.gentle (World.gentle_restoreLink container child)) fun _ later _ =>
          follows_restoreChildren container snapshots later

end

/-- An operation other than registering a class does proper jobs alone. -/
theorem follows_perform {operation : Operation} (proper : operation.Proper strict base)
    (other : ∀ spec, operation ≠ .registerClass spec) :
    Follows strict Job.Proper base fun ev => perform ev operation := by
  cases operation with
  | evaluate source => exact follows_evaluate source
  | compile filename text => exact .gentle (.mild (.compile filename text))
  | execute script =>
      obtain ⟨source, symbols, compiled⟩ := proper
      exact follows_execute compiled
  | callFunction name arguments => exact follows_callFunction calling_proper name arguments
  | callMethod id method arguments => exact follows_callMethod calling_proper id method arguments
  | setGlobal name value => exact .gentle (World.gentle_setGlobalNamed name value)
  | intern name => exact .gentle (.mild (.intern name))
  | linkNamespaces child parent => exact .gentle (.mild (.linkNamespaces child parent))
  | registerClass spec => exact absurd rfl (other spec)
  | register draft name => exact follows_registerObject calling_proper proper name
  | delete id => exact .job (.delete id) trivial
  | setField id field index value => exact .gentle (.mild (.setField id field index value))
  | rename id name => exact .gentle (.mild (.rename id name))
  | addChild container child => exact .gentle (.mild (.addChild container child))
  | removeChild container child => exact .gentle (World.gentle_removeChild container child)
  | restore snapshot => exact follows_restore snapshot base
  | tag text => exact .gentle (.mild (.tag text))
  | releaseTag id => exact .gentle (.mild (.releaseTag id))
  | say text => exact .gentle (.mild (.say text))
  | setSink sink => exact .gentle (.mild (.setSink sink))
  | _ => exact .reading (.pure trivial)

end Host

/-- Whatever the bound, an evaluator does proper jobs in an orderly way. -/
theorem trusted_run (strict : Prop) (bound : Nat) : Trusted strict Job.Proper (run bound) := by
  induction bound with
  | zero => exact fun job console _ _ => ⟨.refl, trivial⟩
  | succ bound ih =>
      exact fun job console proper sane =>
        (follows_step bound proper sane (run bound) console ih rfl).1

/-- A computation comes to fitting jobs in sane worlds if it depends on those alone. -/
theorem ComesTo.fits {fits : Job → Prop} {program : Evaluator → Eval α} {ev : Evaluator}
    {console start : Console} {job : Job} (comes : ComesTo program ev console job start)
    (agree : ∀ other, Agrees fits ev other → program other console = program ev console) :
    fits job ∧ start.world.Sane :=
  comes.holds (fun job start => fits job ∧ start.world.Sane) fun other same =>
    agree other fun job start fitting sane => same job start ⟨fitting, sane⟩

/-- A computation on a console settles: it ends in a sane world, for want of room if not with a
result, and depends on what the evaluator does with proper jobs in sane worlds alone. -/
structure Settles (bound : Nat) (program : Evaluator → Eval α) (console : Console) : Prop where
  sane : (ended (program (run bound) console)).world.Sane
  error : ∀ abort final, program (run bound) console = .error abort final → abort.IsExhaustion
  agree : ∀ other, Agrees Job.Proper (run bound) other →
    program other console = program (run bound) console

/-- A computation that does proper jobs alone changes the world in an orderly way. -/
theorem Guarded.ordered {program : Evaluator → Eval α} {console : Console}
    (follows : Follows strict Job.Proper console.world program) (sane : console.world.Sane)
    (bound : Nat) :
    console.world.Ordered strict (ended (program (run bound) console)).world := by
  have ends := (follows sane (run bound) console (trusted_run strict bound) rfl).1
  cases ran : program (run bound) console with
  | ok value final =>
      rw [ran] at ends
      exact ends.1
  | error abort final =>
      rw [ran] at ends
      exact ends.1

/-- From a sane world a computation that does proper jobs alone settles, as a run for every bound
may be trusted with such jobs. -/
theorem Guarded.settles {program : Evaluator → Eval α} {console : Console}
    (follows : Follows strict Job.Proper console.world program) (sane : console.world.Sane)
    (bound : Nat) : Settles bound program console := by
  have ordered := Guarded.ordered follows sane bound
  obtain ⟨ends, agree⟩ := follows sane (run bound) console (trusted_run strict bound) rfl
  cases ran : program (run bound) console with
  | ok value final =>
      rw [ran] at agree
      refine ⟨ordered.sane sane, ?_, ?_⟩
      · exact fun abort final failed => by rw [ran] at failed; contradiction
      · exact fun other agrees => (agree other agrees).trans ran.symm
  | error abort final =>
      rw [ran] at ends agree
      refine ⟨ordered.sane sane, ?_, ?_⟩
      · intro other after failed
        rw [ran] at failed
        cases failed
        exact ends.2
      · exact fun other agrees => (agree other agrees).trans ran.symm

theorem settles_step (bound : Nat) {job : Job} (proper : job.Proper) {console : Console}
    (sane : console.world.Sane) : Settles bound (fun ev => step bound ev job) console := by
  have follows : Follows False Job.Proper console.world fun ev => step bound ev job :=
    follows_step bound proper
  exact follows.settles sane bound

theorem settles_perform {operation : Operation} {console : Console}
    (proper : operation.Proper strict console.world) (sane : console.world.Sane) (bound : Nat) :
    Settles bound (fun ev => perform ev operation) console := by
  by_cases registers : ∃ spec, operation = .registerClass spec
  · obtain ⟨spec, rfl⟩ := registers
    exact ⟨World.sane_registerClass spec _ sane, nofun, fun _ _ => rfl⟩
  · exact (follows_perform proper (not_exists.mp registers)).settles sane bound

/-- A run comes to a job on a console: directly, or in a job that it comes to. The number is
the bound on what goes on inside the job. -/
inductive Reaches :
    {α : Type} → Nat → (Evaluator → Eval α) → Console → Nat → Job → Console → Prop where
  | here {α : Type} {bound : Nat} {program : Evaluator → Eval α} {console : Console} {job : Job}
      {start : Console} (comes : ComesTo program (run bound) console job start) :
      Reaches bound program console bound job start
  | inside {α : Type} {bound left : Nat} {program : Evaluator → Eval α} {console : Console}
      {outer job : Job} {between start : Console}
      (comes : ComesTo program (run (bound + 1)) console outer between)
      (reaches : Reaches bound (fun ev => step bound ev outer) between left job start) :
      Reaches (bound + 1) program console left job start

section Points

variable {program : Evaluator → Eval α} {bound : Nat} {console : Console}

theorem Reaches.proper {left : Nat} {job : Job} {start : Console}
    (reaches : Reaches bound program console left job start)
    (settles : Settles bound program console) : job.Proper ∧ start.world.Sane := by
  induction reaches with
  | here comes => exact comes.fits settles.agree
  | @inside α bound left program console outer job between start comes reaches ih =>
      obtain ⟨proper, sane⟩ := comes.fits settles.agree
      exact ih (settles_step bound proper sane)

theorem Passes.sane {point : Console} (passes : Passes bound program console point)
    (settles : Settles bound program console) (sane : console.world.Sane) : point.world.Sane := by
  induction passes with
  | start bound program console => exact sane
  | finish bound program console => exact settles.sane
  | reach comes => exact (comes.fits settles.agree).2
  | @inside α bound program console job start point comes passes ih =>
      obtain ⟨proper, sane⟩ := comes.fits settles.agree
      exact ih (settles_step bound proper sane) sane

end Points

/-- What a job inside the innermost call comes to is in the same heap, if it is no call. -/
theorem fits_of_comesTo {heap : Heap} (compiled : heap.Compiled) {left : Nat} {job next : Job}
    {start there : Console} (has : job.Fits heap) (inside : job.isInside = true)
    (sane : start.world.Sane)
    (comes : ComesTo (fun ev => step left ev job) (run left) start next there) :
    next.Fits heap := by
  have stays : Stays False heap start.world fun ev => step left ev job :=
    stays_step compiled left has inside
  have trusted : Trusted False (Job.Fits heap) (run left) := fun job console fits =>
    trusted_run False left job console (fits.proper compiled)
  exact (comes.fits (stays sane (run left) start trusted rfl).2).1

/-- A run does not go wrong. -/
structure Safe (bound : Nat) (program : Evaluator → Eval α) (console : Console) : Prop where
  /-- It comes to a result, or ends for want of room. -/
  error : ∀ abort final, program (run bound) console = .error abort final → abort.IsExhaustion
  /-- What it does is at its place in the heap of a compiled script. -/
  job : ∀ left job start, Reaches bound program console left job start → job.Proper
  /-- From one node it goes on to others of the same heap, up to calls of functions. -/
  inside : ∀ left job start heap, Reaches bound program console (left + 1) job start →
    job.isInside = true → heap.Compiled → job.Fits heap →
    ∀ next there, ComesTo (fun ev => step left ev job) (run left) start next there →
      next.Fits heap
  /-- At all points, functions are those of compiled scripts and the built-in ones. -/
  function : ∀ point, Passes bound program console point →
    point.world.spaces.Each Callable.Proper
  /-- At all points, accesses to fields of objects are in range. -/
  object : ∀ point, Passes bound program console point →
    ∀ id object, point.world.registry.get? id = some object → object.Arises ∧ object.InRange

/-- A computation that settles is safe: what it comes to are proper jobs in sane worlds, because it
depends on no others. -/
theorem Settles.safe {program : Evaluator → Eval α} {bound : Nat} {console : Console}
    (settles : Settles bound program console) (sane : console.world.Sane) :
    Safe bound program console where
  error := settles.error
  job _ _ _ reaches := (reaches.proper settles).1
  inside _ _ _ _ reaches isInside compiled has _ _ comes :=
    fits_of_comesTo compiled has isInside (reaches.proper settles).2 comes
  function _ passes := (passes.sane settles sane).functions
  object _ passes id object found :=
    have arises := (passes.sane settles sane).objects id object found
    ⟨arises, arises.inRange⟩

/-- The consoles that a host without functions of its own comes to, with the classes that it
asked for in order. Under strict terms it registers objects of the classes of the console
alone. -/
inductive Session (strict : Prop) : List ClassSpec → Console → Prop where
  | new (config : Config) (serial : Nat) : Session strict [] (.new config serial)
  | registerClass {specs : List ClassSpec} {console : Console}
      (session : Session strict specs console) (spec : ClassSpec) (bound : Nat) :
      Session strict (specs ++ [spec]) (ended (perform (run bound) (.registerClass spec) console))
  | perform {specs : List ClassSpec} {console : Console} (session : Session strict specs console)
      {operation : Operation} (proper : operation.Proper strict console.world)
      (other : ∀ spec, operation ≠ .registerClass spec) (bound : Nat) :
      Session strict specs (ended (perform (run bound) operation console))

/-- The worlds of sessions are sane. -/
theorem Session.sane {specs : List ClassSpec} {console : Console}
    (session : Session strict specs console) : console.world.Sane := by
  induction session with
  | new config serial =>
      rw [Console.new_world]
      exact World.sane_new config serial
  | registerClass session spec bound ih => exact World.sane_registerClass spec _ ih
  | perform session proper other bound ih => exact (settles_perform proper ih bound).sane

/-- No operation of a session goes wrong, and accesses to fields are in range for all objects
that come about, registered or not. -/
theorem session_safe {specs : List ClassSpec} {console : Console}
    (session : Session strict specs console) {operation : Operation}
    (proper : operation.Proper strict console.world) (bound : Nat) :
    Safe bound (fun ev => perform ev operation) console ∧
      ∀ object : Object, object.Arises → object.InRange :=
  ⟨(settles_perform proper session.sane bound).safe session.sane, fun _ arises => arises.inRange⟩

/-- A function that calls itself. -/
def endlessSource : String :=
  "function f() \x7b f(); \x7d"

/-- A console with the function and room for three calls. -/
@[irreducible] def endlessConsole : Console :=
  ended (perform (run 40) (.evaluate endlessSource) (.new { maxCallDepth := 3 } 0))

/-- Whether a computation ends in an error. -/
private def fails : EStateM.Result Abort Console Value → Bool
  | .error (.error _) _ => true
  | _ => false

/-- A call of the function ends for want of room. -/
theorem session_safe_endless :
    ∃ abort final, perform (run 40) (.callFunction "f" []) endlessConsole = .error abort final ∧
      abort.IsExhaustion := by
  have session : Session False [] endlessConsole := by
    have proper : (Operation.evaluate endlessSource).Proper False
        (Console.new { maxCallDepth := 3 } 0).world := trivial
    unfold endlessConsole
    exact .perform (.new _ 0) proper (fun _ => nofun) 40
  have proper : (Operation.callFunction "f" []).Proper False endlessConsole.world := trivial
  have failed : fails (perform (run 40) (.callFunction "f" []) endlessConsole) = true := by
    decide +kernel
  cases ran : perform (run 40) (.callFunction "f" []) endlessConsole with
  | ok value final =>
      rw [ran] at failed
      exact nomatch failed
  | error abort final =>
      exact ⟨abort, final, rfl, (session_safe session proper 40).1.error abort final ran⟩

end Eval

end ScriptConsole
