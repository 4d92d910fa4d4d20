import ScriptConsole.Proofs.Tag.Sound

/-! # How often tags are held

Over any row of calls, a table of tags counts references to texts up to letter case: a tag is
live as long as it was asked for more often than it was released, it stands for the text that
it was made for, and its number never stands for another one
(`ScriptConsole.TagTable.counted_over_history`).
-/

namespace ScriptConsole.TagTable

/-- What is answered to some calls, in order. -/
def history (tags : TagTable) : List Call → List Event
  | [] => []
  | call :: calls => (tags.respond call).1 :: (tags.respond call).2.history calls

namespace Event

/-- Whether a tag was asked for. -/
def tags (id : Nat) : Event → Bool
  | tagged _ given => given = id
  | _ => false

/-- Whether a tag was released. -/
def releases (id : Nat) : Event → Bool
  | released given => given = id
  | _ => false

/-- The text for which a tag was asked for. -/
def text? (id : Nat) : Event → Option String
  | tagged text given => if given = id then some text else none
  | _ => none

end Event

/-- How often a tag was asked for. -/
def tagCount (id : Nat) (events : List Event) : Nat :=
  events.countP (Event.tags id)

/-- How often a tag was released. -/
def releaseCount (id : Nat) (events : List Event) : Nat :=
  events.countP (Event.releases id)

/-- The text for which a tag was first asked for. -/
def firstText? (id : Nat) (events : List Event) : Option String :=
  events.findSome? (Event.text? id)

section Counts

variable {id : Nat} {text : String} {events : List Event}

@[simp] theorem tagCount_append (event : Event) :
    tagCount id (events ++ [event]) = tagCount id events + (event.tags id).toNat := by
  unfold tagCount
  rw [List.countP_append, List.countP_singleton]
  cases event.tags id <;> rfl

@[simp] theorem releaseCount_append (event : Event) :
    releaseCount id (events ++ [event]) = releaseCount id events + (event.releases id).toNat := by
  unfold releaseCount
  rw [List.countP_append, List.countP_singleton]
  cases event.releases id <;> rfl

/-- The first text stays, whatever is asked for later. -/
theorem firstText?_append_of_some (first : firstText? id events = some text) (event : Event) :
    firstText? id (events ++ [event]) = some text := by
  unfold firstText? at first ⊢
  rw [List.findSome?_append, first, Option.some_or]

theorem firstText?_append_of_none (none : firstText? id events = none) (event : Event) :
    firstText? id (events ++ [event]) = event.text? id := by
  unfold firstText? at none ⊢
  rw [List.findSome?_append, none, Option.none_or, List.findSome?_singleton]

end Counts

/-- A table counts what was answered so far. -/
structure Counted (events : List Event) (tags : TagTable) : Prop extends Sound tags where
  counts : ∀ id, tags.holds id + releaseCount id events = tagCount id events
  first : ∀ id text, tags.detag? id = some text → firstText? id events = some text
  unused : ∀ id, tags.next ≤ id → firstText? id events = none

namespace Counted

variable {tags : TagTable} {events : List Event}

theorem empty : Counted [] .empty where
  toSound := .empty
  counts id := by simp [TagTable.empty, TagTable.holds, tagCount, releaseCount]
  first id text spelled := by simp [TagTable.empty, detag?] at spelled
  unused id _ := rfl

/-- A new tag counts from the call that made it. -/
theorem create (counted : Counted events tags) {text : String} (unknown : tags.find? text = none) :
    Counted (events ++ [.tagged text tags.next]) (tags.create text).2 where
  toSound := counted.toSound.create unknown
  counts id := by
    have before := counted.counts id
    simp only [TagTable.create, holds_insert, tagCount_append, releaseCount_append, Event.tags,
      Event.releases]
    by_cases new : tags.next = id
    · subst new
      have nothing := holds_of_not_live counted.not_live_next
      simp only [↓reduceIte, decide_true, Bool.toNat_true, Bool.toNat_false]
      omega
    · simp only [new, ↓reduceIte, decide_false, Bool.toNat_false]
      omega
  first id spelling spelled := by
    simp only [TagTable.create, detag?_insert] at spelled
    by_cases new : tags.next = id
    · subst new
      rw [firstText?_append_of_none (counted.unused _ (Nat.le_refl _))]
      simpa only [↓reduceIte, Event.text?] using spelled
    · simp only [new, ↓reduceIte] at spelled
      exact firstText?_append_of_some (counted.first id spelling spelled) _
  unused id above := by
    have beyond : tags.next + 1 ≤ id := above
    rw [firstText?_append_of_none (counted.unused id (by omega))]
    simp only [Event.text?, ite_eq_right_iff, reduceCtorEq, imp_false]
    omega

/-- Asking for a live tag counts as one more hold of it. -/
theorem hold (counted : Counted events tags) {id : Nat} {entry : TagEntry} (text : String)
    (present : tags.entries[id]? = some entry) :
    Counted (events ++ [.tagged text id]) { tags with
      entries := tags.entries.insert id { entry with holds := entry.holds + 1 } } where
  toSound := counted.toSound.hold present (Nat.succ_pos _)
  counts other := by
    have before := counted.counts other
    simp only [holds_insert, tagCount_append, releaseCount_append, Event.tags, Event.releases]
    by_cases same : id = other
    · subst same
      rw [holds_of_entry present] at before
      simp only [↓reduceIte, decide_true, Bool.toNat_true, Bool.toNat_false]
      omega
    · simp only [same, ↓reduceIte, decide_false, Bool.toNat_false]
      omega
  first other spelling spelled := by
    refine firstText?_append_of_some (counted.first other spelling ?_) _
    rw [← spelled, detag?_insert_text present]
  unused other above := by
    have below := counted.below id entry present
    have beyond : tags.next ≤ other := above
    rw [firstText?_append_of_none (counted.unused other beyond)]
    simp only [Event.text?, ite_eq_right_iff, reduceCtorEq, imp_false]
    omega

/-- Giving up a hold of a live tag counts as a release. -/
theorem unhold (counted : Counted events tags) {id : Nat} {entry : TagEntry}
    (present : tags.entries[id]? = some entry) (more : entry.holds ≠ 1) :
    Counted (events ++ [.released id]) { tags with
      entries := tags.entries.insert id { entry with holds := entry.holds - 1 } } where
  toSound := by
    have held := counted.held id entry present
    exact counted.toSound.hold present (by omega)
  counts other := by
    have before := counted.counts other
    simp only [holds_insert, tagCount_append, releaseCount_append, Event.tags, Event.releases]
    by_cases same : id = other
    · subst same
      have held := counted.held id entry present
      rw [holds_of_entry present] at before
      simp only [↓reduceIte, decide_true, Bool.toNat_true, Bool.toNat_false]
      omega
    · simp only [same, ↓reduceIte, decide_false, Bool.toNat_false]
      omega
  first other spelling spelled := by
    refine firstText?_append_of_some (counted.first other spelling ?_) _
    rw [← spelled, detag?_insert_text present]
  unused other above := firstText?_append_of_none (counted.unused other above) _

/-- Freeing a tag counts as the last release of it. -/
theorem free (counted : Counted events tags) {id : Nat} {entry : TagEntry}
    (present : tags.entries[id]? = some entry) (last : entry.holds = 1) :
    Counted (events ++ [.released id]) { tags with
      entries := tags.entries.erase id
      byText := tags.byText.erase (Text.fold entry.text) } where
  toSound := counted.toSound.free present
  counts other := by
    have before := counted.counts other
    simp only [holds_erase, tagCount_append, releaseCount_append, Event.tags, Event.releases]
    by_cases same : id = other
    · subst same
      rw [holds_of_entry present] at before
      simp only [↓reduceIte, decide_true, Bool.toNat_true, Bool.toNat_false]
      omega
    · simp only [same, ↓reduceIte, decide_false, Bool.toNat_false]
      omega
  first other spelling spelled := by
    refine firstText?_append_of_some (counted.first other spelling ?_) _
    rw [detag?_erase] at spelled
    split at spelled
    · contradiction
    · exact spelled
  unused other above := firstText?_append_of_none (counted.unused other above) _

/-- A number that is no tag does not count. -/
theorem refuse (counted : Counted events tags) (id : Nat) :
    Counted (events ++ [.refused id]) tags where
  toSound := counted.toSound
  counts other := by
    simpa only [tagCount_append, releaseCount_append, Event.tags, Event.releases,
      Bool.toNat_false, Nat.add_zero] using counted.counts other
  first other spelling spelled := firstText?_append_of_some (counted.first other spelling spelled) _
  unused other above := firstText?_append_of_none (counted.unused other above) _

/-- Every answer is counted. -/
theorem respond (counted : Counted events tags) (call : Call) :
    Counted (events ++ [(tags.respond call).1]) (tags.respond call).2 := by
  cases call with
  | tag text =>
      obtain ⟨unknown, new⟩ | ⟨id, entry, _, present, _, again⟩ := counted.tag_cases text
      · simp only [TagTable.respond, new]
        exact counted.create unknown
      · simp only [TagTable.respond, again]
        exact counted.hold text present
  | release id =>
      obtain ⟨_, nothing⟩ | ⟨entry, present, ⟨last, freed⟩ | ⟨more, kept⟩⟩ := release_cases tags id
      · simp only [TagTable.respond, nothing, Bool.false_eq_true, ↓reduceIte]
        exact counted.refuse id
      · simp only [TagTable.respond, freed, ↓reduceIte]
        exact counted.free present last
      · simp only [TagTable.respond, kept, ↓reduceIte]
        exact counted.unhold present more

theorem after (counted : Counted events tags) (calls : List Call) :
    Counted (events ++ tags.history calls) (tags.after calls) := by
  induction calls generalizing tags events with
  | nil =>
      rw [history, List.append_nil]
      exact counted
  | cons call calls ih =>
      have rest := ih (counted.respond call)
      rwa [List.append_assoc, List.singleton_append] at rest

/-- A tag is live as long as it was asked for more often than it was released. -/
theorem live_iff_lt (counted : Counted events tags) (id : Nat) :
    tags.Live id ↔ releaseCount id events < tagCount id events := by
  have total := counted.counts id
  constructor
  · intro live
    obtain ⟨entry, present⟩ := live_iff.mp live
    have held := counted.held id entry present
    rw [holds_of_entry present] at total
    omega
  · intro more
    by_contra dead
    rw [holds_of_not_live dead] at total
    omega

end Counted

/-- Whatever calls were made of a new table, it counts references to texts up to letter case. -/
theorem counted_over_history (calls : List Call) :
    (∀ id, (empty.after calls).Live id ↔
        releaseCount id (empty.history calls) < tagCount id (empty.history calls)) ∧
      (∀ id, releaseCount id (empty.history calls) ≤ tagCount id (empty.history calls) ∧
        (empty.after calls).holds id =
          tagCount id (empty.history calls) - releaseCount id (empty.history calls)) ∧
      (∀ text id, (empty.after calls).find? text = some id ↔
        ∃ spelling, (empty.after calls).detag? id = some spelling ∧
          Text.fold spelling = Text.fold text) ∧
      (∀ id, (empty.after calls).Live id →
        (empty.after calls).detag? id = firstText? id (empty.history calls)) ∧
      (∀ id, ((empty.after calls).release id).1 = true ↔ (empty.after calls).Live id) ∧
      (∀ first between second,
        (∀ id front call, front ++ [call] <+: between →
          ¬(((empty.after calls).tag first).2.after front).Frees call id) →
        (((empty.after calls).tag first).1 =
            ((((empty.after calls).tag first).2.after between).tag second).1 ↔
          Text.fold first = Text.fold second)) ∧
      ∀ id call later text, (empty.after calls).Frees call id →
        ((((empty.after calls).respond call).2.after later).tag text).1 ≠ id := by
  have counted := Counted.empty.after calls
  rw [List.nil_append] at counted
  have sound := counted.toSound
  generalize empty.after calls = tags at counted sound
  generalize empty.history calls = events at counted
  refine ⟨counted.live_iff_lt, fun id => ?_, fun text id => sound.find?_eq_some_iff,
    fun id live => ?_, fun id => release_fst, fun first between second kept => ?_,
    fun id call later text frees => ?_⟩
  · have total := counted.counts id
    omega
  · obtain ⟨text, spelled⟩ := Option.ne_none_iff_exists'.mp live
    rw [spelled, counted.first id text spelled]
  · exact sound.tag_eq_tag_iff kept
  · obtain ⟨entry, present⟩ := live_iff.mp frees.1
    obtain ⟨below, dead⟩ : id < (tags.respond call).2.next ∧ ¬(tags.respond call).2.Live id :=
      ⟨Nat.lt_of_lt_of_le (sound.below id entry present) (sound.next_le_respond call), frees.2⟩
    exact (sound.respond call).tag_ne_of_not_live below dead later text

/-- A text that was tagged twice and released once is still tagged, and another text gets the same
tag in a different letter case, with a further text tagged in between. -/
theorem counted_over_history_colours :
    (empty.after [.tag "Red", .tag "RED", .release 1]).detag? 1 = some "Red" ∧
      (((empty.after [.tag "Red", .tag "RED", .release 1]).tag "Blue").1 =
        ((((empty.after [.tag "Red", .tag "RED", .release 1]).tag "Blue").2.after
          [.tag "Green"]).tag "BLUE").1) := by
  obtain ⟨live, _, _, spelled, _, between, _⟩ :=
    counted_over_history [.tag "Red", .tag "RED", .release 1]
  have counted : releaseCount 1 (empty.history [.tag "Red", .tag "RED", .release 1]) <
      tagCount 1 (empty.history [.tag "Red", .tag "RED", .release 1]) := by
    decide +kernel
  constructor
  · rw [spelled 1 ((live 1).mpr counted)]
    decide +kernel
  · refine (between "Blue" [.tag "Green"] "BLUE" fun id front call within => ?_).mpr
      (by decide +kernel)
    obtain ⟨rfl, rfl⟩ : front = [] ∧ call = .tag "Green" := by
      obtain ⟨rest, same⟩ := within
      cases front with
      | nil => exact ⟨rfl, (List.cons.inj same).1⟩
      | cons other front => simp at same
    exact ((Sound.empty.after _).tag "Blue").not_frees_tag "Green"

end ScriptConsole.TagTable
