import ScriptConsole.Proofs.Console.Keeping

/-! # Journals of worlds

The journal of a world is its log, with the settings and the sink that say what is logged. No
change depends on it: in worlds that differ in their journals alone, a change has the same result,
does the same to the rest of the world, and puts the same notes down
(`ScriptConsole.World.Built.tells`).
-/

namespace ScriptConsole

/-- The log of a world, with the settings and the sink that say what is logged. -/
structure Journal where
  config : Config
  sink : Sink
  log : List Message

/-- What may be put down in a journal. -/
inductive Note where
  | say (text : String)
  | warn (text : String)
  | sendTo (sink : Sink)

namespace Journal

/-- The journal with a message, unless messages go nowhere. -/
def record (journal : Journal) (message : Message) : Journal :=
  match journal.sink with
  | .memory => { journal with log := message :: journal.log }
  | .nowhere => journal

/-- The journal after a note. -/
def add (journal : Journal) : Note → Journal
  | .say text => journal.record ⟨false, text⟩
  | .warn text => if journal.config.echoWarnings then journal.record ⟨true, text⟩ else journal
  | .sendTo sink => { journal with sink }

/-- The journal after notes in order. -/
def addAll (journal : Journal) (notes : List Note) : Journal :=
  notes.foldl add journal

theorem addAll_append (journal : Journal) (first second : List Note) :
    journal.addAll (first ++ second) = (journal.addAll first).addAll second :=
  List.foldl_append

end Journal

namespace World

/-- The journal of a world. -/
def journal (world : World) : Journal :=
  ⟨world.config, world.sink, world.log⟩

/-- A world with another journal. -/
def withJournal (world : World) (journal : Journal) : World :=
  { world with config := journal.config, sink := journal.sink, log := journal.log }

theorem withJournal_journal (world : World) : world.withJournal world.journal = world :=
  rfl

variable {α β γ : Type}

/-- In worlds that differ in their journals alone, a change has the same result, does the same to
the rest of the world, and puts down the same notes. -/
def Tells (change : WorldM α) : Prop :=
  ∀ world, ∃ notes, ∀ journal, change.run (world.withJournal journal) =
    ((change.run world).1, (change.run world).2.withJournal (journal.addAll notes))

namespace Tells

/-- A change puts down nothing if it leaves every journal as it is. -/
theorem silent {change : WorldM α}
    (leaves : ∀ world journal, change.run (world.withJournal journal) =
      ((change.run world).1, (change.run world).2.withJournal journal)) : Tells change :=
  fun world => ⟨[], leaves world⟩

theorem pure (result : α) : Tells (Pure.pure result : WorldM α) :=
  .silent fun _ _ => rfl

theorem bind {first : WorldM α} {next : α → WorldM β} (start : Tells first)
    (rest : ∀ value, Tells (next value)) : Tells (first >>= next) := by
  intro world
  obtain ⟨earlier, begun⟩ := start world
  obtain ⟨later, ended⟩ := rest (first.run world).1 (first.run world).2
  refine ⟨earlier ++ later, fun journal => ?_⟩
  simp only [StateT.run_bind, begun, Journal.addAll_append]
  exact ended (journal.addAll earlier)

theorem reading {next : World → WorldM α}
    (same : ∀ world config sink log, next { world with config, sink, log } = next world)
    (rest : ∀ world, Tells (next world)) : Tells (get >>= next) := by
  intro world
  obtain ⟨notes, ended⟩ := rest world world
  refine ⟨notes, fun journal => ?_⟩
  have read : next (world.withJournal journal) = next world := same world _ _ _
  change (next (world.withJournal journal)).run (world.withJournal journal) = _
  rw [read]
  exact ended journal

theorem composes : Composes Tells :=
  ⟨.pure, .bind⟩

end Tells

section Basic

theorem record_run (world : World) (message : Message) :
    (record message).run world = ((), world.withJournal (world.journal.record message)) := by
  obtain ⟨config, sink, log, symbols, globals, spaces, registry, tags⟩ := world
  cases sink <;> rfl

theorem tells_say (text : String) : Tells (say text) := by
  refine fun world => ⟨[.say text], fun journal => ?_⟩
  unfold say
  simp only [record_run]
  rfl

theorem warn_run (world : World) (text : String) :
    (warn text).run world = ((), world.withJournal (world.journal.add (.warn text))) := by
  unfold warn Journal.add
  rw [StateT.run_bind, StateT.run_get]
  change (if world.config.echoWarnings then record ⟨true, text⟩ else pure ()).run world =
    ((), world.withJournal
      (if world.config.echoWarnings then world.journal.record ⟨true, text⟩ else world.journal))
  split
  · exact record_run world ⟨true, text⟩
  · rfl

theorem tells_warn (text : String) : Tells (warn text) := by
  refine fun world => ⟨[.warn text], fun journal => ?_⟩
  simp only [warn_run]
  rfl

/-- Interning, creating and linking namespaces do not depend on the journal, and write to it by
warnings alone. -/
theorem links_tells : Links Tells :=
  { Tells.composes with
    reading := .reading
    intern := fun _ => .silent fun _ _ => rfl
    warn := tells_warn
    createLayer := fun _ => .silent fun _ _ => rfl
    link := by
      intro child parent
      refine .reading (fun _ _ _ _ => rfl) fun world => ?_
      cases world.spaces.link child parent with
      | error reason => exact .pure _
      | ok spaces => exact .bind (.silent fun _ _ => rfl) fun _ => .pure _ }

/-- No basic change depends on the journal. -/
theorem Basic.tells {change : WorldM α} (basic : Basic change) : Tells change := by
  cases basic with
  | say text => exact tells_say text
  | warn text => exact tells_warn text
  | setSink sink => exact fun world => ⟨[.sendTo sink], fun _ => rfl⟩
  | linkNamespaces child parent => exact links_tells.linkNamespaces child parent
  | registerClass spec => exact links_tells.registerClass spec fun _ _ => .silent fun _ _ => rfl
  | enter draft name =>
      exact links_tells.enter draft name (fun _ => .silent fun _ _ => rfl) fun _ _ _ =>
        .silent fun _ _ => rfl
  | remove id =>
      refine .reading (fun _ _ _ _ => rfl) fun world => ?_
      split
      · exact .pure ()
      · exact .bind (.silent fun _ _ => rfl) fun _ => .silent fun _ _ => rfl
  | setField id field index value =>
      refine .reading (fun _ _ _ _ => rfl) fun world => ?_
      split
      · exact .pure _
      · split
        · exact .pure _
        · exact .bind (.silent fun _ _ => rfl) fun _ => .pure _
  | rename id name =>
      refine .bind (Tells.composes.internNonempty links_tells.intern name) fun symbol => ?_
      refine .reading (fun _ _ _ _ => rfl) fun world => ?_
      exact .bind (.silent fun _ _ => rfl) fun _ => .pure _
  | addChild container child =>
      refine .reading (fun _ _ _ _ => rfl) fun world => ?_
      split
      · exact .bind (.silent fun _ _ => rfl) fun _ => .pure _
      · exact .pure _
  | _ => exact .silent fun _ _ => rfl

/-- Nothing that is put together from basic changes depends on the journal. -/
theorem Built.tells {change : WorldM α} (built : Built change) : Tells change := by
  induction built with
  | basic basic => exact basic.tells
  | pure result => exact .pure result
  | bind start rest ihStart ihRest => exact .bind ihStart ihRest
  | reading same rest ih => exact .reading same ih

end Basic

end World

end ScriptConsole
