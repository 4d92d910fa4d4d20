import ScriptConsole.Proofs.Console.Fresh
import ScriptConsole.Proofs.Eval.Evolution
import ScriptConsole.Proofs.Objects.Removal
import ScriptConsole.Proofs.Tag.Wire

/-! # Tagged literals

The tags of a console come about by calls of the table of tags, whatever scripts and hosts do
(`ScriptConsole.World.Reachable.tags_sound`). So a tagged literal is read back up to letter case,
and it holds a new tag only where its text has none.
-/

namespace ScriptConsole

namespace TagTable

/-- The table after a literal: its text gets a tag unless it has one. -/
def mention (tags : TagTable) (text : String) : TagTable :=
  if (tags.find? text).isSome then tags else (tags.tag text).2

namespace Sound

variable {tags : TagTable} {text : String}

/-- A text that a live tag stands for is not tagged again. -/
theorem mention_known (sound : tags.Sound) {id : Nat} {spelling : String}
    (spelled : tags.detag? id = some spelling) (same : Text.fold spelling = Text.fold text) :
    (tags.tag text).1 = id ∧ tags.mention text = tags := by
  have known := sound.find?_eq_some_iff.mpr ⟨spelling, spelled, same⟩
  unfold mention
  rw [sound.tag_fst, known, Option.getD_some, Option.isSome_some, if_pos rfl]
  exact ⟨rfl, rfl⟩

/-- A text that no live tag stands for gets a new one, which is held once. -/
theorem mention_unknown (sound : tags.Sound)
    (unknown : ∀ id spelling, tags.detag? id = some spelling →
      Text.fold spelling ≠ Text.fold text) :
    ¬tags.Live (tags.tag text).1 ∧ ∀ id,
      ((tags.mention text).holds id = if (tags.tag text).1 = id then 1 else tags.holds id) ∧
      (tags.mention text).detag? id =
        if (tags.tag text).1 = id then some text else tags.detag? id := by
  have none : tags.find? text = none := by
    rw [Option.eq_none_iff_forall_ne_some]
    intro id known
    obtain ⟨spelling, spelled, same⟩ := sound.find?_eq_some_iff.mp known
    exact unknown id spelling spelled same
  have fresh : (tags.tag text).1 = tags.next := by
    rw [sound.tag_fst, none, Option.getD_none]
  have made : tags.mention text = (tags.create text).2 := by
    unfold mention TagTable.tag
    rw [none]
    rfl
  rw [fresh, made]
  exact ⟨sound.not_live_next, fun id => ⟨holds_insert .., detag?_insert ..⟩⟩

/-- The tag of a literal stands for its text up to letter case. -/
theorem detag?_mention (sound : tags.Sound) (text : String) :
    ∃ spelling, (tags.mention text).detag? (tags.tag text).1 = some spelling ∧
      Text.fold spelling = Text.fold text := by
  unfold mention
  split
  next known =>
    obtain ⟨id, found⟩ := Option.isSome_iff_exists.mp known
    rw [sound.tag_fst, found]
    exact sound.find?_eq_some_iff.mp found
  next => exact (sound.tag text).find?_eq_some_iff.mp (sound.find?_tag text)

end Sound

end TagTable

namespace World

/-- However a world changes, its tags change by calls of the table. -/
theorem Evolves.tags {world after : World} (evolves : Evolves world after) :
    ∃ calls, after.tags = world.tags.after calls := by
  induction evolves with
  | refl => exact ⟨[], rfl⟩
  | tail _ step ih =>
      obtain ⟨calls, same⟩ := ih
      obtain ⟨_, change, basic, rfl⟩ := step
      rcases basic.settings_cases with keeps | ⟨call, responds⟩
      · exact ⟨calls, (congrArg Prod.snd (keeps _)).trans same⟩
      · refine ⟨calls ++ [call], ?_⟩
        unfold TagTable.after at same ⊢
        rw [responds, List.foldl_append, ← same]
        rfl

/-- A new console has the settings it is given and no tags. -/
theorem new_settings (config : Config) (serial : Nat) :
    ((new config serial).config, (new config serial).tags) = (config, .empty) :=
  apart_settings.new
    (fun spec => apart_settings.links.registerClass spec fun _ _ _ => rfl) config serial

/-- In every world that comes about the tags are sound. -/
theorem Reachable.tags_sound {world : World} (reachable : Reachable world) : world.tags.Sound := by
  obtain ⟨config, serial, evolves⟩ := reachable
  have history := (built_registerLibrary.evolves (.bare config serial)).trans evolves
  obtain ⟨calls, same⟩ := Evolves.tags history
  rw [same]
  exact TagTable.Sound.empty.after calls

end World

namespace Console

/-- The console after a tagged literal. -/
def mention (console : Console) (text : String) : Console :=
  { console with world := { console.world with tags := console.world.tags.mention text } }

end Console

namespace Eval

variable {console : Console} {constant : Symbol} {mark inner : Mark}

/-- A tagged literal is the tag of its text. -/
theorem expression_tagged (console : Console) (sound : console.world.tags.Sound)
    (ev : Evaluator) :
    expression ev (.literal mark (.tagged constant)) console =
      .ok (.text (Tag.encode (console.world.tags.tag constant.text).1))
        (console.mention constant.text) := by
  have lifted : expression ev (.literal mark (.tagged constant)) console =
      .ok ((literal (.tagged constant)).run console.world).1
        { console with world := ((literal (.tagged constant)).run console.world).2 } := rfl
  have literal_run : (literal (.tagged constant)).run console.world =
      (.text (Tag.encode (console.world.tags.tag constant.text).1),
        { console.world with tags := console.world.tags.mention constant.text }) := by
    unfold literal TagTable.mention
    rw [StateT.run_bind, StateT.run_get]
    cases known : console.world.tags.find? constant.text with
    | some id =>
      simp only [pure_bind, known, Option.isSome_some, ↓reduceIte, sound.tag_fst, Option.getD_some]
      rfl
    | none =>
      simp only [pure_bind, known]
      rfl
  rw [lifted, literal_run]
  rfl

/-- There is room for a tagged literal wherever there is room for an expression. -/
theorem run_tagged_ok (console : Console) (sound : console.world.tags.Sound)
    (room : console.nesting < console.world.config.maxExpressionDepth) (bound : Nat) :
    run (bound + 2) (.expression (.literal mark (.tagged constant))) console =
      .ok (.text (Tag.encode (console.world.tags.tag constant.text).1))
        (console.mention constant.text) :=
  run_expression_ok room
    (expression_tagged { console with nesting := console.nesting + 1 } sound _)

/-- A value that is no live tag is taken as it is. -/
theorem detag_eq_self {world : World} {value : Value}
    (other : ∀ id, Tag.decode? value.toText = some id → ¬world.tags.Live id) :
    detag world value = value := by
  unfold detag
  cases read : Tag.decode? value.toText with
  | none => rfl
  | some id =>
      have dead : world.tags.detag? id = none := Decidable.of_not_not (other id read)
      rw [Option.bind_some, dead]
      rfl

theorem detag_encode {world : World} {id : Nat} {spelling : String} (below : id < Tag.bound)
    (spelled : world.tags.detag? id = some spelling) :
    detag world (.text (Tag.encode id)) = .text spelling := by
  have text : (Value.text (Tag.encode id)).toText = Tag.encode id := rfl
  unfold detag
  rw [text, Tag.decode?_encode below, Option.bind_some, spelled]
  rfl

theorem expression_detag (ev : Evaluator) (operand : Expr) :
    expression ev (.detag mark operand) = (do
      let value ← ev (.expression operand)
      return detag (← world) value) :=
  rfl

/-- What the operand came to is taken without its tag. -/
theorem run_detag_ok {bound : Nat} {operand : Expr} {value : Value} {after : Console}
    (room : console.nesting < console.world.config.maxExpressionDepth)
    (ran : run bound (.expression operand) { console with nesting := console.nesting + 1 } =
      .ok value after) :
    run (bound + 2) (.expression (.detag mark operand)) console =
      .ok (detag after.world value) (leaveExpression after) := by
  apply run_expression_ok room
  rw [expression_detag, bind_apply, ran]
  rfl

/-- What a console makes of tagged literals and of `detag`. -/
structure ReadsTags (console : Console) : Prop where
  /-- A tagged literal is the tag of its text. -/
  literal : ∀ (bound : Nat) (mark : Mark) (constant : Symbol),
    console.nesting < console.world.config.maxExpressionDepth →
      run (bound + 2) (.expression (.literal mark (.tagged constant))) console =
        .ok (.text (Tag.encode (console.world.tags.tag constant.text).1))
          (console.mention constant.text)
  /-- A text that a live tag stands for is not held once more. -/
  known : ∀ text id spelling, console.world.tags.detag? id = some spelling →
    Text.fold spelling = Text.fold text →
      (console.world.tags.tag text).1 = id ∧ console.mention text = console
  /-- Otherwise the text gets a new tag, which is held once. -/
  unknown : ∀ text, (∀ id spelling, console.world.tags.detag? id = some spelling →
      Text.fold spelling ≠ Text.fold text) →
    ¬console.world.tags.Live (console.world.tags.tag text).1 ∧ ∀ id,
      (console.mention text).world.tags.holds id =
        (if (console.world.tags.tag text).1 = id then 1 else console.world.tags.holds id) ∧
      (console.mention text).world.tags.detag? id =
        if (console.world.tags.tag text).1 = id then some text else console.world.tags.detag? id
  /-- A tagged literal without its tag is the text, up to letter case. -/
  detagged : ∀ (bound : Nat) (mark inner : Mark) (constant : Symbol),
    console.nesting + 1 < console.world.config.maxExpressionDepth →
    (console.world.tags.tag constant.text).1 < Tag.bound →
      ∃ spelling, Text.fold spelling = Text.fold constant.text ∧
        run (bound + 4) (.expression (.detag mark (.literal inner (.tagged constant)))) console =
          .ok (.text spelling) (console.mention constant.text)
  /-- Only the limit on expressions keeps a tagged literal from being evaluated. -/
  refused : ∀ (bound : Nat) (mark inner : Mark) (constant : Symbol),
    console.world.config.maxExpressionDepth ≤ console.nesting + 1 →
      run (bound + 4) (.expression (.detag mark (.literal inner (.tagged constant)))) console =
        fail (.expressionDepth console.world.config.maxExpressionDepth) console
  /-- A value that is no live tag is taken as it is. -/
  plain : ∀ (bound : Nat) (mark : Mark) (operand : Expr) (value : Value) (after : Console),
    console.nesting < console.world.config.maxExpressionDepth →
    run bound (.expression operand) { console with nesting := console.nesting + 1 } =
      .ok value after →
    (∀ id, Tag.decode? value.toText = some id → ¬after.world.tags.Live id) →
      run (bound + 2) (.expression (.detag mark operand)) console =
        .ok value (leaveExpression after)

/-- Sound tags are all that reading back takes. What is to be shown of a literal is shown of its
table first, and then of the expressions around it. -/
theorem readsTags (sound : console.world.tags.Sound) : ReadsTags console where
  literal bound _ _ room := run_tagged_ok console sound room bound
  known text id spelling spelled same := by
    obtain ⟨tagged, kept⟩ := sound.mention_known spelled same
    refine ⟨tagged, ?_⟩
    unfold Console.mention
    rw [kept]
  unknown text unknown := sound.mention_unknown unknown
  detagged bound mark inner constant room below := by
    obtain ⟨spelling, spelled, same⟩ := sound.detag?_mention constant.text
    refine ⟨spelling, same, ?_⟩
    rw [run_detag_ok (Nat.lt_of_succ_lt room)
      (run_tagged_ok { console with nesting := console.nesting + 1 } sound room bound)]
    exact congrArg (EStateM.Result.ok · _) (detag_encode below spelled)
  refused bound mark inner constant full := by
    let operand : Expr := .literal inner (.tagged constant)
    have entering : run (bound + 4) (.expression (.detag mark operand)) =
        withNesting (expression (run (bound + 2)) (.detag mark operand)) := rfl
    rw [entering, withNesting_apply]
    split
    · rfl
    · rw [expression_detag, bind_apply,
        run_expression_full { console with nesting := console.nesting + 1 } full]
      rfl
  plain bound mark operand value after room ran other := by
    rw [run_detag_ok room ran, detag_eq_self other]

/-- In every console that comes about, `detag` takes a tagged literal back to its text up to letter
case, and the literal holds a tag only if its text had none. The form of every tag is read back,
and it is the marker with digits; where a tag is named, bare digits do as well. -/
theorem tags_read_back :
    (∀ console : Console, console.world.Reachable → ReadsTags console) ∧
    (∀ id < Tag.bound, Tag.decode? (Tag.encode id) = some id) ∧
    (∀ text id, Tag.decode? text = some id ↔
      ∃ digits, text.toList = Tag.marker :: digits ∧ Tag.Writes digits id) ∧
    ∀ text id, Tag.parse? text = some id ↔ Tag.decode? text = some id ∨ Tag.Writes text.toList id :=
  ⟨fun _ reachable => readsTags reachable.tags_sound, fun _ => Tag.decode?_encode,
    fun _ _ => Tag.decode?_eq_some_iff, fun _ _ => Tag.parse?_eq_some_iff⟩

section Sample

/-- The console after the host tagged a text and gave up the tag. -/
private def freed (console : Console) : Console :=
  ended (perform (run 0) (.releaseTag 1) (ended (perform (run 0) (.tag "Hello") console)))

private theorem freed_facts (console : Console) :
    (freed console).world.tags = console.world.tags.after [.tag "Hello", .release 1] ∧
      (freed console).world.config = console.world.config ∧
      (freed console).nesting = console.nesting :=
  ⟨rfl, rfl, rfl⟩

/-- A new console after that. -/
@[irreducible] private def freedConsole : Console :=
  freed (.new {} 0)

/-- The sample console came about by operations of the host, its tags by a call and its release, and
it has room for two expressions. -/
private theorem freedConsole_facts : freedConsole.world.Reachable ∧
    freedConsole.world.tags = TagTable.empty.after [.tag "Hello", .release 1] ∧
    freedConsole.nesting + 1 < freedConsole.world.config.maxExpressionDepth := by
  have settings := World.new_settings {} 0
  rw [← Console.new_world] at settings
  obtain ⟨config, tags⟩ := Prod.mk.inj settings
  obtain ⟨tagsFreed, configFreed, nesting⟩ := freed_facts (.new {} 0)
  have level : (Console.new {} 0).nesting = 0 := rfl
  unfold freedConsole
  rw [tagsFreed, configFreed, nesting, config, tags, level]
  refine ⟨?_, rfl, Nat.succ_lt_succ (Nat.succ_pos 9998)⟩
  exact ((World.Reachable.console {} 0).evolves (perform_evolves 0 (.tag "Hello") _)).evolves
    (perform_evolves 0 (.releaseTag 1) _)

private def tagged (text : String) : Expr :=
  .literal ⟨0, .start, .start⟩ (.tagged ⟨0, true, text⟩)

/-- A text whose tag was freed gets a new tag by a literal. A literal in a third spelling has the
same tag, does not hold it once more and is taken back to the text. -/
theorem tags_read_back_again :
    ¬ freedConsole.world.tags.Live 1 ∧
      run 2 (.expression (tagged "HELLO")) freedConsole =
        .ok (.text (Tag.encode 2)) (freedConsole.mention "HELLO") ∧
      ∃ spelling, Text.fold spelling = Text.fold "hello" ∧
        run 4 (.expression (.detag ⟨1, .start, .start⟩ (tagged "hello")))
            (freedConsole.mention "HELLO") =
          .ok (.text spelling) (freedConsole.mention "HELLO") := by
  obtain ⟨reachable, tags, room⟩ := freedConsole_facts
  have dead : (TagTable.empty.after [.tag "Hello", .release 1]).detag? 1 = none := by
    decide +kernel
  have number : (freedConsole.world.tags.tag "HELLO").1 = 2 := by
    rw [tags]
    decide +kernel
  have literal := (tags_read_back.1 _ reachable).literal 0 ⟨0, .start, .start⟩ ⟨0, true, "HELLO"⟩
    (Nat.lt_of_succ_lt room)
  rw [number] at literal
  have again : (freedConsole.mention "HELLO").world.Reachable := by
    have evolves := run_evolves 2 (.expression (tagged "HELLO")) freedConsole
    rw [tagged, literal] at evolves
    exact reachable.evolves evolves
  have reads := tags_read_back.1 _ again
  have spelled : (freedConsole.mention "HELLO").world.tags.detag? 2 = some "HELLO" := by
    change (freedConsole.world.tags.mention "HELLO").detag? 2 = _
    rw [tags]
    decide +kernel
  obtain ⟨same, kept⟩ := reads.known "hello" 2 "HELLO" spelled (by decide +kernel)
  have below : ((freedConsole.mention "HELLO").world.tags.tag "hello").1 < Tag.bound := by
    rw [same]
    exact Nat.succ_lt_succ (Nat.succ_lt_succ (Nat.succ_pos _))
  obtain ⟨spelling, folded, ran⟩ :=
    reads.detagged 0 ⟨1, .start, .start⟩ ⟨0, .start, .start⟩ ⟨0, true, "hello"⟩ room below
  refine ⟨?_, literal, spelling, folded, ran.trans (congrArg _ kept)⟩
  rw [tags]
  exact not_not_intro dead

end Sample

end Eval

end ScriptConsole
