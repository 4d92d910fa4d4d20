import ScriptConsole.Proofs.Console.Journals
import ScriptConsole.Proofs.Eval.Calls

/-! # Two runs side by side

Two runs start on consoles that are the same but for the journals of their worlds and the local
variables of outer calls. If all notes keep the journals related, and the second console allows as
much as the first, then where the first run comes to a result the second comes to the same one,
and the consoles stay the same but for those parts (`ScriptConsole.Eval.Composed.mirrors`). The
errors of the first run are those of the second if the two allow as much as each other. That has
to be so if there are functions of the host, because they see errors and go on.
-/

namespace ScriptConsole

/-- What an error tells about a call does not depend on its local variables. -/
theorem CallNote.ofFrame_outline (frame : Frame) :
    CallNote.ofFrame frame.outline = CallNote.ofFrame frame :=
  rfl

/-- A relation of journals that all notes keep, where the second allows as much as the first. The
two allow as much as each other if there may be functions of the host. -/
structure Journal.Kept (hosted : Prop) (rel : Journal → Journal → Prop) : Prop where
  add {first second : Journal} (note : Note) : rel first second →
    rel (first.add note) (second.add note)
  calls_le {first second : Journal} : rel first second →
    first.config.maxCallDepth ≤ second.config.maxCallDepth
  nesting_le {first second : Journal} : rel first second →
    first.config.maxExpressionDepth ≤ second.config.maxExpressionDepth
  calls_eq {first second : Journal} : hosted → rel first second →
    second.config.maxCallDepth = first.config.maxCallDepth
  nesting_eq {first second : Journal} : hosted → rel first second →
    second.config.maxExpressionDepth = first.config.maxExpressionDepth

theorem Journal.Kept.addAll {hosted : Prop} {rel : Journal → Journal → Prop}
    (kept : Journal.Kept hosted rel) {first second : Journal} (notes : List Note)
    (related : rel first second) : rel (first.addAll notes) (second.addAll notes) := by
  induction notes generalizing first second with
  | nil => exact related
  | cons note notes ih => exact ih (kept.add note related)

namespace Console

/-- Two consoles are the same but for the journals of their worlds, which are related, and the
local variables of the calls in progress. Inside the innermost call its local variables are the
same too. -/
structure Twins (rel : Journal → Journal → Prop) (hosted : Prop) (inside : Bool)
    (console twin : Console) : Prop where
  journals : rel console.world.journal twin.world.journal
  world : twin.world = console.world.withJournal twin.world.journal
  hosts : console.world.HostedIf hosted
  outlines : twin.calls.frames.map Frame.outline = console.calls.frames.map Frame.outline
  top : inside = true → twin.calls.top? = console.calls.top?
  nesting : twin.nesting = console.nesting

namespace Twins

variable {rel : Journal → Journal → Prop} {hosted : Prop} {inside : Bool}
  {console twin : Console}

theorem depth (twins : Twins rel hosted inside console twin) :
    twin.calls.depth = console.calls.depth := by
  have same := congrArg List.length twins.outlines
  rw [List.length_map, List.length_map] at same
  rw [twin.calls.depth_eq, console.calls.depth_eq, same]

/-- Errors tell the same about the calls in progress. -/
theorem notes (twins : Twins rel hosted inside console twin) :
    twin.calls.frames.map CallNote.ofFrame = console.calls.frames.map CallNote.ofFrame := by
  have same := congrArg (List.map CallNote.ofFrame) twins.outlines
  simpa only [List.map_map, Function.comp_def, CallNote.ofFrame_outline] using same

/-- From outside of the innermost call less has to be the same. -/
theorem widen {wider : Bool} (twins : Twins rel hosted wider console twin)
    (within : inside = true → wider = true) : Twins rel hosted inside console twin :=
  { twins with top := fun isInside => twins.top (within isInside) }

/-- A further call is the same in both consoles. -/
theorem push (twins : Twins rel hosted inside console twin) (frame : Frame) :
    Twins rel hosted true { console with calls := console.calls.push frame }
      { twin with calls := twin.calls.push frame } where
  journals := twins.journals
  world := twins.world
  hosts := twins.hosts
  outlines := congrArg (frame.outline :: ·) twins.outlines
  top _ := rfl
  nesting := twins.nesting

theorem enterExpression (twins : Twins rel hosted inside console twin) :
    Twins rel hosted inside { console with nesting := console.nesting + 1 }
      { twin with nesting := twin.nesting + 1 } :=
  { twins with nesting := congrArg (· + 1) twins.nesting }

/-- The innermost call is changed alike if it is the same. -/
theorem updateFrame (twins : Twins rel hosted true console twin) (change : Frame → Frame) :
    Twins rel hosted true (console.updateFrame change) (twin.updateFrame change) := by
  have outlines := twins.outlines
  have top := twins.top rfl
  unfold CallStack.top? at top
  have changed : (twin.calls.frames.modifyHead change).map Frame.outline =
        (console.calls.frames.modifyHead change).map Frame.outline ∧
      (twin.calls.frames.modifyHead change).head? =
        (console.calls.frames.modifyHead change).head? := by
    revert outlines top
    cases twin.calls.frames <;> cases console.calls.frames <;> simp +contextual
  exact ⟨twins.journals, twins.world, twins.hosts, changed.1, fun _ => changed.2, twins.nesting⟩

end Twins

end Console

namespace Eval

open Console (Twins)

variable {rel : Journal → Journal → Prop} {hosted : Prop} {inside : Bool} {α β : Type}
  {console twin : Console}

/-- Two runs that started on twins ended on twins, with the calls that were in progress. -/
structure Paired (rel : Journal → Journal → Prop) (hosted : Prop) (inside : Bool)
    (console twin after later : Console) : Prop where
  twins : Twins rel hosted inside after later
  first : Restored inside console after
  second : Restored inside twin later

namespace Paired

variable {after later : Console}

theorem refl (twins : Twins rel hosted inside console twin) :
    Paired rel hosted inside console twin console twin :=
  ⟨twins, .refl _ _, .refl _ _⟩

theorem trans {between amid : Console} (start : Paired rel hosted inside console twin between amid)
    (rest : Paired rel hosted inside between amid after later) :
    Paired rel hosted inside console twin after later :=
  ⟨rest.twins, start.first.trans rest.first, start.second.trans rest.second⟩

/-- What leaves the innermost calls alone may be done inside of them. -/
theorem widen {wider : Bool} (paired : Paired rel hosted inside console twin after later)
    (twins : Twins rel hosted wider console twin) (within : inside = true → wider = true) :
    Paired rel hosted wider console twin after later := by
  refine ⟨{ paired.twins with top := fun isInside => ?_ }, paired.first.widen within,
    paired.second.widen within⟩
  cases inside with
  | true => exact paired.twins.top rfl
  | false =>
      rw [paired.first.calls rfl, paired.second.calls rfl]
      exact twins.top isInside

/-- Calls that ended are gone, and those around them are as they were. -/
theorem popFrame (twins : Twins rel hosted inside console twin) {frame : Frame}
    (body : Paired rel hosted true { console with calls := console.calls.push frame }
      { twin with calls := twin.calls.push frame } after later) :
    Paired rel hosted inside console twin (popFrame after) (popFrame later) := by
  have first : Restored false console (Eval.popFrame after) := body.first.popFrame
  have second : Restored false twin (Eval.popFrame later) := body.second.popFrame
  refine ⟨⟨body.twins.journals, body.twins.world, body.twins.hosts, ?_, ?_, body.twins.nesting⟩,
    body.first.popFrame, body.second.popFrame⟩
  · rw [first.calls rfl, second.calls rfl]
    exact twins.outlines
  · rw [first.calls rfl, second.calls rfl]
    exact twins.top

theorem leaveExpression
    (body : Paired rel hosted inside { console with nesting := console.nesting + 1 }
      { twin with nesting := twin.nesting + 1 } after later) :
    Paired rel hosted inside console twin (leaveExpression after) (leaveExpression later) :=
  ⟨{ body.twins with nesting := congrArg (· - 1) body.twins.nesting },
    body.first.leaveExpression, body.second.leaveExpression⟩

end Paired

/-- A run on a twin comes to the result of a run, and to its error if there may be functions of
the host. -/
def Matches (rel : Journal → Journal → Prop) (hosted : Prop) (inside : Bool)
    (console twin : Console) :
    EStateM.Result Abort Console α → EStateM.Result Abort Console α → Prop
  | .ok value after, other =>
      ∃ later, other = .ok value later ∧ Paired rel hosted inside console twin after later
  | .error abort after, other =>
      hosted → ∃ later, other = .error abort later ∧
        Paired rel hosted inside console twin after later

/-- Runs of a computation on twins match. -/
def Mirrors (rel : Journal → Journal → Prop) (hosted : Prop) (inside : Bool)
    (program : Eval α) : Prop :=
  ∀ console twin, Twins rel hosted inside console twin →
    Matches rel hosted inside console twin (program console) (program twin)

/-- Runs that match do so from where the consoles were before as well. -/
theorem Matches.after {between amid : Console} {first second : EStateM.Result Abort Console α}
    (start : Paired rel hosted inside console twin between amid)
    (runs : Matches rel hosted inside between amid first second) :
    Matches rel hosted inside console twin first second := by
  cases first with
  | ok value after =>
      obtain ⟨later, same, paired⟩ := runs
      exact ⟨later, same, start.trans paired⟩
  | error abort after =>
      intro host
      obtain ⟨later, same, paired⟩ := runs host
      exact ⟨later, same, start.trans paired⟩

/-- Runs that match still do when the same is done after them. -/
theorem Matches.closing {wider : Bool} {other partner : Console}
    {first second : EStateM.Result Abort Console α}
    (runs : Matches rel hosted inside other partner first second) {close : Console → Console}
    (closed : ∀ after later, Paired rel hosted inside other partner after later →
      Paired rel hosted wider console twin (close after) (close later)) :
    Matches rel hosted wider console twin (closing close first) (closing close second) := by
  cases first with
  | ok value after =>
      obtain ⟨later, rfl, paired⟩ := runs
      exact ⟨close later, rfl, closed after later paired⟩
  | error abort after =>
      intro host
      obtain ⟨later, rfl, paired⟩ := runs host
      exact ⟨close later, rfl, closed after later paired⟩

namespace Mirrors

theorem pure (result : α) : Mirrors rel hosted inside (Pure.pure result) :=
  fun _ twin twins => ⟨twin, rfl, .refl twins⟩

theorem throw (abort : Abort) : Mirrors rel hosted inside (MonadExcept.throw abort : Eval α) :=
  fun _ twin twins _ => ⟨twin, rfl, .refl twins⟩

theorem fail (fault : EvalFault) : Mirrors rel hosted inside (Eval.fail fault : Eval α) := by
  intro console twin twins _
  refine ⟨twin, ?_, .refl twins⟩
  unfold Eval.fail
  rw [twins.notes]

/-- Where the first parts mirror each other they come to the same value, and the second parts go on
from it on both sides. -/
theorem bind {first : Eval α} {next : α → Eval β} (start : Mirrors rel hosted inside first)
    (rest : ∀ value, Mirrors rel hosted inside (next value)) :
    Mirrors rel hosted inside (first >>= next) := by
  intro console twin twins
  have begun := start console twin twins
  simp only [bind_apply]
  cases ran : first console with
  | ok value between =>
      rw [ran] at begun
      obtain ⟨amid, same, paired⟩ := begun
      rw [same]
      exact .after paired (rest value between amid paired.twins)
  | error abort between =>
      rw [ran] at begun
      intro host
      obtain ⟨amid, same, paired⟩ := begun host
      rw [same]
      exact ⟨amid, rfl, paired⟩

/-- What is read of the world is the same. -/
theorem reading {next : World → Eval α}
    (same : ∀ world config sink log, next { world with config, sink, log } = next world)
    (rest : ∀ world : World, world.HostedIf hosted → Mirrors rel hosted inside (next world)) :
    Mirrors rel hosted inside (Eval.world >>= next) := by
  intro console twin twins
  have read : next twin.world = next console.world := by
    rw [twins.world]
    exact same console.world _ _ _
  change Matches rel hosted inside console twin (next console.world console) (next twin.world twin)
  rw [read]
  exact rest console.world twins.hosts console twin twins

/-- What is read of the innermost call is the same inside of it. -/
theorem readingCall {next : Console → Eval α}
    (same : ∀ console other config sink log, other.calls.top? = console.calls.top? →
      other.world = { console.world with config, sink, log } → next other = next console)
    (rest : ∀ console : Console, console.world.HostedIf hosted →
      Mirrors rel hosted true (next console)) : Mirrors rel hosted true (get >>= next) := by
  intro console twin twins
  have read : next twin = next console := same console twin _ _ _ (twins.top rfl) twins.world
  change Matches rel hosted true console twin (next console console) (next twin twin)
  rw [read]
  exact rest console twins.hosts console twin twins

theorem updateCall (change : Frame → Frame) : Mirrors rel hosted true
    (modify fun console : Console => console.updateFrame change : Eval PUnit) := by
  intro console twin twins
  exact ⟨twin.updateFrame change, rfl, twins.updateFrame change, .updateFrame console change,
    .updateFrame twin change⟩

/-- Errors that go to the host are the same. -/
theorem attempt (host : hosted) {body : Eval α} (mirrors : Mirrors rel hosted inside body) :
    Mirrors rel hosted inside (Eval.attempt body) := by
  intro console twin twins
  have runs := mirrors console twin twins
  unfold Eval.attempt
  cases ran : body console with
  | ok value after =>
      rw [ran] at runs
      obtain ⟨later, same, paired⟩ := runs
      rw [same]
      exact ⟨later, rfl, paired⟩
  | error abort after =>
      rw [ran] at runs
      obtain ⟨later, same, paired⟩ := runs host
      rw [same]
      cases abort with
      | error error => exact ⟨later, rfl, paired⟩
      | outOfSteps => exact fun _ => ⟨later, rfl, paired⟩

/-- A computation that leaves the innermost call alone may run inside of it. -/
theorem widen {wider : Bool} {program : Eval α} (mirrors : Mirrors rel hosted inside program)
    (within : inside = true → wider = true) : Mirrors rel hosted wider program := by
  intro console twin twins
  have runs := mirrors console twin (twins.widen within)
  cases ran : program console with
  | ok value after =>
      rw [ran] at runs
      obtain ⟨later, same, paired⟩ := runs
      exact ⟨later, same, paired.widen twins within⟩
  | error abort after =>
      rw [ran] at runs
      intro host
      obtain ⟨later, same, paired⟩ := runs host
      exact ⟨later, same, paired.widen twins within⟩

variable (kept : Journal.Kept hosted rel)
include kept

/-- A change puts down the same notes in both worlds. -/
theorem change {change : WorldM α} (tells : World.Tells change)
    (keeps : World.Preserves (World.HostedIf hosted) change) :
    Mirrors rel hosted inside (change : Eval α) := by
  intro console twin twins
  obtain ⟨notes, told⟩ := tells console.world
  have own := told console.world.journal
  have other := told twin.world.journal
  rw [World.withJournal_journal] at own
  rw [← twins.world] at other
  have journal : (change.run console.world).2.journal = console.world.journal.addAll notes :=
    congrArg (fun result => World.journal result.2) own
  obtain ⟨result, later⟩ := Prod.ext_iff.mp other
  refine ⟨{ twin with world := (change.run twin.world).2 },
    congrArg (EStateM.Result.ok · _) result, ⟨?_, ?_, keeps _ twins.hosts,
      twins.outlines, twins.top,
      twins.nesting⟩, ⟨rfl, rfl, rfl, fun _ => rfl⟩, ⟨rfl, rfl, rfl, fun _ => rfl⟩⟩
  · change rel (change.run console.world).2.journal (change.run twin.world).2.journal
    rw [journal, later]
    exact kept.addAll notes twins.journals
  · change (change.run twin.world).2 =
      (change.run console.world).2.withJournal (change.run twin.world).2.journal
    rw [later]
    rfl

/-- A further call is refused to both, or to the first alone. -/
theorem withFrame {body : Eval α} (frame : Frame) (mirrors : Mirrors rel hosted true body) :
    Mirrors rel hosted inside (Eval.withFrame frame body) := by
  intro console twin twins
  have room := kept.calls_le twins.journals
  simp only [withFrame_apply, twins.depth]
  by_cases full : console.world.config.maxCallDepth ≤ console.calls.depth
  · rw [if_pos full]
    intro host
    have same : twin.world.config.maxCallDepth = console.world.config.maxCallDepth :=
      kept.calls_eq host twins.journals
    rw [same, if_pos full]
    exact fail _ console twin twins host
  · have open' : ¬ twin.world.config.maxCallDepth ≤ console.calls.depth :=
      fun absurd => full (room.trans absurd)
    rw [if_neg full, if_neg open']
    exact (mirrors _ _ (twins.push frame)).closing fun _ _ => .popFrame twins

/-- A further expression is refused to both, or to the first alone. -/
theorem withNesting {body : Eval α} (mirrors : Mirrors rel hosted inside body) :
    Mirrors rel hosted inside (Eval.withNesting body) := by
  intro console twin twins
  have room := kept.nesting_le twins.journals
  simp only [withNesting_apply]
  by_cases full : console.world.config.maxExpressionDepth ≤ console.nesting
  · rw [if_pos full]
    intro host
    have same : twin.world.config.maxExpressionDepth = console.world.config.maxExpressionDepth :=
      kept.nesting_eq host twins.journals
    rw [same, twins.nesting, if_pos full]
    exact fail _ console twin twins host
  · have open' : ¬ twin.world.config.maxExpressionDepth ≤ twin.nesting :=
      fun absurd => full (twins.nesting ▸ room.trans absurd)
    rw [if_neg full, if_neg open']
    exact (mirrors _ _ twins.enterExpression).closing fun _ _ => .leaveExpression

end Mirrors

/-- What is put together from the constructs runs alike on twins, if the jobs inside it do. -/
theorem Composed.mirrors (kept : Journal.Kept hosted rel) {program : Evaluator → Eval α}
    (composed : Composed (.hosted hosted) inside program) {ev : Evaluator}
    (inner : ∀ job : Job, job.Calls (Terms.hosted hosted).callable →
      Mirrors rel hosted job.isInside (ev job)) :
    Mirrors rel hosted inside (program ev) := by
  induction composed with
  | pure result => exact .pure result
  | bind start rest ihStart ihRest => exact .bind ihStart ihRest
  | job job within allowed => exact (inner job allowed).widen within
  | change allowed => exact .change kept allowed.1.tells allowed.2
  | reading same rest ih =>
      exact .reading (fun world config sink log => congrFun (same world config sink log) ev) ih
  | readingCall same rest ih =>
      exact .readingCall (fun console other config sink log top world =>
        congrFun (same console other config sink log top world) ev) ih
  | updateCall change => exact .updateCall change
  | fail fault => exact .fail fault
  | throw abort => exact .throw abort
  | withFrame frame composed ih => exact .withFrame kept frame ih
  | withNesting composed ih => exact .withNesting kept ih
  | attempt allowed composed ih => exact .attempt allowed ih

/-- Every job runs alike on twins. -/
theorem run_mirrors (kept : Journal.Kept hosted rel) (bound : Nat) {job : Job}
    (allowed : job.Calls (Terms.hosted hosted).callable) :
    Mirrors rel hosted job.isInside (run bound job) := by
  induction bound generalizing job with
  | zero => exact .throw .outOfSteps
  | succ bound ih =>
      have composed := composed_step_of (Terms.free_hosted hosted) bound allowed
      exact composed.mirrors kept fun _ allowed => ih allowed

/-- Whatever is put together from the constructs runs alike on twins. -/
theorem Composed.run_mirrors (kept : Journal.Kept hosted rel) {program : Evaluator → Eval α}
    (composed : Composed (.hosted hosted) inside program) (bound : Nat) :
    Mirrors rel hosted inside (program (run bound)) :=
  composed.mirrors kept fun _ => Eval.run_mirrors kept bound

/-- Where errors match too, runs come to the same outcome. -/
theorem Matches.outcome {first second : EStateM.Result Abort Console α}
    (runs : Matches rel True inside console twin first second) :
    outcome second = outcome first ∧
      Paired rel True inside console twin (ended first) (ended second) := by
  cases first with
  | ok value after =>
      obtain ⟨later, rfl, paired⟩ := runs
      exact ⟨rfl, paired⟩
  | error abort after =>
      obtain ⟨later, rfl, paired⟩ := runs trivial
      exact ⟨rfl, paired⟩

end Eval

end ScriptConsole
