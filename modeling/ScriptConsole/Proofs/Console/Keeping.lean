import ScriptConsole.Proofs.Console.Changes
import ScriptConsole.Proofs.Objects.Live
import ScriptConsole.Proofs.Tag.Sound

/-! # What changes of a world keep

Most changes touch one part of a world and keep all others. No change touches the
settings (`ScriptConsole.World.Evolves.config`), and only calls for tags touch the tags
(`ScriptConsole.World.Basic.settings_cases`).
-/

namespace ScriptConsole.World

/-- A change leaves what a view shows of the world. -/
def Keeps {α β : Type} (view : World → β) (change : WorldM α) : Prop :=
  ∀ world, view (change.run world).2 = view world

namespace Keeps

variable {α β γ : Type} {view : World → β}

theorem pure (result : α) : Keeps view (Pure.pure result : WorldM α) :=
  fun _ => rfl

theorem bind {first : WorldM α} {next : α → WorldM γ} (start : Keeps view first)
    (rest : ∀ value, Keeps view (next value)) : Keeps view (first >>= next) :=
  fun world => (rest _ _).trans (start world)

theorem reading {next : World → WorldM α} (rest : ∀ world, Keeps view (next world)) :
    Keeps view (get >>= next) :=
  fun world => rest world world

theorem composes : Composes (Keeps view) :=
  ⟨.pure, .bind⟩

/-- Writing a field keeps what does not show the objects. -/
theorem setField (updated : ∀ (world : World) id change,
      view { world with registry := world.registry.update id change } = view world)
    (id : Nat) (field : String) (index : Option String) (value : Value) :
    Keeps view (World.setField id field index value) := by
  intro world
  rcases setField_cases world id field index value with ⟨reason, ran⟩ | ⟨_, changed, _, _, ran⟩
  · rw [ran]
  · rw [ran, updated]

end Keeps

/-- A change keeps a property of the world. -/
def Preserves {α : Type} (property : World → Prop) (change : WorldM α) : Prop :=
  ∀ world, property world → property (change.run world).2

namespace Preserves

variable {α β : Type} {property : World → Prop}

theorem pure (result : α) : Preserves property (Pure.pure result : WorldM α) :=
  fun _ holds => holds

theorem bind {first : WorldM α} {next : α → WorldM β} (start : Preserves property first)
    (rest : ∀ value, Preserves property (next value)) : Preserves property (first >>= next) :=
  fun world holds => rest _ _ (start world holds)

theorem reading {next : World → WorldM α}
    (rest : ∀ world, property world → property ((next world).run world).2) :
    Preserves property (get >>= next) :=
  rest

theorem of_keeps {change : WorldM α} {view : World → β} (keeps : Keeps view change)
    (shown : ∀ world after, view after = view world → property world → property after) :
    Preserves property change :=
  fun world holds => shown world _ (keeps world) holds

theorem composes : Composes (Preserves property) :=
  ⟨.pure, .bind⟩

/-- What mild changes keep is kept by what is put together from them. -/
theorem of_gentle (each : ∀ {γ : Type} {change : WorldM γ}, Mild change → Preserves property change)
    {change : WorldM α} (gentle : Gentle change) : Preserves property change := by
  induction gentle with
  | mild mild => exact each mild
  | pure result => exact .pure result
  | bind start rest ihStart ihRest => exact .bind ihStart ihRest
  | reading same rest ih => exact .reading fun world holds => ih world world holds

end Preserves

/-- A warning is logged or nothing is done. -/
theorem exists_log_warn (text : String) (world : World) :
    ∃ log, (warn text).run world = ((), { world with log }) := by
  obtain ⟨⟨_, _, _, _, echoWarnings⟩, sink, log, symbols, globals, spaces, registry, tags⟩ := world
  cases sink <;> cases echoWarnings <;> exact ⟨_, rfl⟩

theorem warn_symbols (text : String) : Keeps World.symbols (warn text) := by
  intro world
  obtain ⟨log, warned⟩ := exists_log_warn text world
  rw [warned]

/-- A view shows neither the log nor symbols. -/
structure Plain {β : Type} (view : World → β) : Prop where
  log : ∀ world log, view { world with log } = view world
  symbols : ∀ world symbols, view { world with symbols } = view world

namespace Plain

variable {β : Type} {view : World → β}

theorem record (plain : Plain view) (message : Message) : Keeps view (World.record message) := by
  intro world
  unfold World.record
  cases sink : world.sink with
  | memory =>
      simp only [StateT.run_modify, sink]
      exact sink ▸ plain.log world (message :: world.log)
  | nowhere =>
      simp only [StateT.run_modify, sink]
      rfl

theorem warn (plain : Plain view) (text : String) : Keeps view (World.warn text) := by
  refine .reading fun world => ?_
  split
  · exact plain.record ⟨true, text⟩
  · exact .pure ()

theorem intern (plain : Plain view) (name : String) : Keeps view (World.intern name) :=
  fun world => plain.symbols world _

theorem internNonempty (plain : Plain view) (name : String) :
    Keeps view (World.internNonempty name) :=
  Keeps.composes.internNonempty plain.intern name

theorem linkNames (plain : Plain view) (object : Object) :
    Keeps view (World.linkNames object) :=
  Keeps.composes.linkNames plain.intern object

end Plain

/-- A view shows neither the log nor symbols nor namespaces. -/
structure Apart {β : Type} (view : World → β) : Prop extends Plain view where
  spaces : ∀ world spaces, view { world with spaces } = view world

namespace Apart

variable {β : Type} {view : World → β}

theorem createLayer (apart : Apart view) (layer : Layer) : Keeps view (World.createLayer layer) :=
  fun world => apart.spaces world _

theorem link (apart : Apart view) (child parent : Layer) :
    Keeps view (World.link child parent) := by
  refine .reading fun world => ?_
  cases world.spaces.link child parent with
  | error reason => exact .pure _
  | ok spaces => exact .bind (fun world => apart.spaces world spaces) fun _ => .pure _

theorem links (apart : Apart view) : Links (Keeps view) :=
  { Keeps.composes with
    reading := fun _ rest => .reading rest
    intern := apart.intern
    warn := apart.warn
    createLayer := apart.createLayer
    link := apart.link }

end Apart

theorem apart_registry : Apart World.registry :=
  ⟨⟨fun _ _ => rfl, fun _ _ => rfl⟩, fun _ _ => rfl⟩

/-- What cannot be seen by a view keeps a property that the view shows. -/
theorem Preserves.links {β : Type} {view : World → β} {property : World → Prop}
    (apart : Apart view)
    (shown : ∀ world after, view after = view world → property world → property after) :
    Links (Preserves property) :=
  { Preserves.composes with
    reading := fun _ rest world => rest world world
    intern := fun name => .of_keeps (apart.intern name) shown
    warn := fun text => .of_keeps (apart.warn text) shown
    createLayer := fun layer => .of_keeps (apart.createLayer layer) shown
    link := fun child parent => .of_keeps (apart.link child parent) shown }

/-- Registering an object keeps a property if entering it and noting its namespaces do,
and what else it does cannot be seen. -/
theorem preserves_enter {β : Type} {view : World → β} {property : World → Prop}
    (apart : Apart view)
    (shown : ∀ world after, view after = view world → property world → property after)
    (draft : Draft)
    (entered : ∀ world name, property world →
      property { world with registry := (world.registry.register draft name).2 })
    (noted : ∀ world id layer linked, property world →
      property { world with registry := world.registry.update id fun object =>
        { object with layer, linked } })
    (name : String) : Preserves property (enter draft name) :=
  have links := Preserves.links apart shown
  links.enter_of (Preserves property) (fun _ => links.bind (links.internNonempty links.intern name))
    (fun symbol _ rest world holds => rest _ _ (entered world symbol holds))
    fun id layer linked world => noted world id layer linked

section Settings

theorem apart_settings : Apart fun world => (world.config, world.tags) :=
  ⟨⟨fun _ _ => rfl, fun _ _ => rfl⟩, fun _ _ => rfl⟩

/-- A basic change touches neither the settings nor the tags, or it is a call for a tag. -/
theorem Basic.settings_cases {α : Type} {change : WorldM α} (basic : Basic change) :
    Keeps (fun world => (world.config, world.tags)) change ∨
      ∃ call, ∀ world,
        (change.run world).2 = { world with tags := (world.tags.respond call).2 } := by
  cases basic with
  | tag text => exact .inr ⟨.tag text, fun _ => rfl⟩
  | releaseTag id => exact .inr ⟨.release id, fun _ => rfl⟩
  | say text => exact .inl (apart_settings.record _)
  | warn text => exact .inl (apart_settings.warn text)
  | linkNamespaces child parent => exact .inl (apart_settings.links.linkNamespaces child parent)
  | registerClass spec => exact .inl (apart_settings.links.registerClass spec fun _ _ _ => rfl)
  | enter draft name =>
      exact .inl (apart_settings.links.enter draft name (fun _ _ => rfl) fun _ _ _ _ => rfl)
  | remove id =>
      refine .inl fun world => ?_
      rw [remove_run]
  | setField id field index value => exact .inl (.setField (fun _ _ _ => rfl) id field index value)
  | rename id name =>
      refine .inl (.bind (apart_settings.internNonempty name) fun symbol => ?_)
      refine .reading fun world => ?_
      exact .bind (fun world => rfl) fun _ => .pure _
  | addChild container child =>
      refine .inl (.reading fun world => ?_)
      split
      · exact .bind (fun world => rfl) fun _ => .pure _
      · exact .pure _
  | _ => exact .inl fun world => rfl

/-- No basic change touches the settings. -/
theorem Basic.config {α : Type} {change : WorldM α} (basic : Basic change) :
    Keeps World.config change := by
  intro world
  rcases basic.settings_cases with keeps | ⟨call, responds⟩
  · exact congrArg Prod.fst (keeps world)
  · rw [responds]

/-- However a world changes, its settings stay. -/
theorem Evolves.config {world after : World} (evolves : Evolves world after) :
    after.config = world.config := by
  induction evolves with
  | refl => rfl
  | tail _ step ih =>
      obtain ⟨_, change, basic, rfl⟩ := step
      exact (basic.config _).trans ih

end Settings

end ScriptConsole.World
