import Mathlib.Tactic.ByContra
import ScriptConsole.Tag.Table

/-! # Sound tables of tags

Whatever calls are made of a table of tags, its live tags are held and are found by their texts
up to letter case (`ScriptConsole.TagTable.Sound`). A live tag keeps its spelling until it is
freed (`ScriptConsole.TagTable.Sound.detag?_after`), and its number is not given again after that
(`ScriptConsole.TagTable.Sound.tag_ne_of_not_live`).
-/

namespace ScriptConsole.TagTable

/-- A call of a table of tags. -/
inductive Call where
  | tag (text : String)
  | release (id : Nat)

/-- A call with its answer. -/
inductive Event where
  | tagged (text : String) (id : Nat)
  | released (id : Nat)
  /-- What was to be released is no tag. -/
  | refused (id : Nat)
  deriving DecidableEq

/-- Answers a call. -/
def respond (tags : TagTable) : Call → Event × TagTable
  | .tag text => (.tagged text (tags.tag text).1, (tags.tag text).2)
  | .release id =>
    (if (tags.release id).1 then .released id else .refused id, (tags.release id).2)

/-- The table after some calls. -/
def after (tags : TagTable) (calls : List Call) : TagTable :=
  calls.foldl (fun tags call => (tags.respond call).2) tags

/-- Whether a number is that of a live tag. -/
def Live (tags : TagTable) (id : Nat) : Prop :=
  tags.detag? id ≠ none

/-- A call frees a tag. -/
def Frees (tags : TagTable) (call : Call) (id : Nat) : Prop :=
  tags.Live id ∧ ¬(tags.respond call).2.Live id

section Views

variable {tags : TagTable} {id : Nat} {text : String}

theorem live_iff : tags.Live id ↔ ∃ entry, tags.entries[id]? = some entry := by
  unfold Live detag?
  rw [ne_eq, Option.map_eq_none_iff]
  exact Option.ne_none_iff_exists'

theorem live_of_detag? (spelled : tags.detag? id = some text) : tags.Live id := by
  unfold Live
  rw [spelled]
  exact Option.some_ne_none text

theorem detag?_eq_some_iff :
    tags.detag? id = some text ↔ ∃ entry, tags.entries[id]? = some entry ∧ entry.text = text :=
  Option.map_eq_some_iff

/-- A released number was that of a tag. -/
theorem release_fst : (tags.release id).1 = true ↔ tags.Live id := by
  rw [live_iff]
  unfold release
  cases found : tags.entries[id]? with
  | none => simp
  | some entry =>
      by_cases last : entry.holds = 1
      · simp [last]
      · simp [last]

theorem holds_insert (tags : TagTable) (id : Nat) (entry : TagEntry)
    (byText : Std.TreeMap String Nat) (next other : Nat) :
    (⟨tags.entries.insert id entry, byText, next⟩ : TagTable).holds other =
      if id = other then entry.holds else tags.holds other := by
  unfold holds
  by_cases same : id = other
  · simp [same]
  · simp [Std.TreeMap.getElem?_insert, same]

theorem detag?_insert (tags : TagTable) (id : Nat) (entry : TagEntry)
    (byText : Std.TreeMap String Nat) (next other : Nat) :
    (⟨tags.entries.insert id entry, byText, next⟩ : TagTable).detag? other =
      if id = other then some entry.text else tags.detag? other := by
  unfold detag?
  by_cases same : id = other
  · simp [same]
  · simp [Std.TreeMap.getElem?_insert, same]

theorem holds_erase (tags : TagTable) (id : Nat) (byText : Std.TreeMap String Nat)
    (next other : Nat) :
    (⟨tags.entries.erase id, byText, next⟩ : TagTable).holds other =
      if id = other then 0 else tags.holds other := by
  unfold holds
  by_cases same : id = other
  · simp [same]
  · simp [Std.TreeMap.getElem?_erase, same]

theorem detag?_erase (tags : TagTable) (id : Nat) (byText : Std.TreeMap String Nat)
    (next other : Nat) :
    (⟨tags.entries.erase id, byText, next⟩ : TagTable).detag? other =
      if id = other then none else tags.detag? other := by
  unfold detag?
  by_cases same : id = other
  · simp [same]
  · simp [Std.TreeMap.getElem?_erase, same]

theorem holds_of_entry {tags : TagTable} {id : Nat} {entry : TagEntry}
    (present : tags.entries[id]? = some entry) : tags.holds id = entry.holds := by
  simp [holds, present]

theorem detag?_of_entry {tags : TagTable} {id : Nat} {entry : TagEntry}
    (present : tags.entries[id]? = some entry) : tags.detag? id = some entry.text := by
  simp [detag?, present]

/-- Holding a live tag more or less often leaves all spellings. -/
theorem detag?_insert_text {tags : TagTable} {id : Nat} {entry : TagEntry}
    (present : tags.entries[id]? = some entry) (holds other : Nat) :
    detag? { tags with entries := tags.entries.insert id { entry with holds } } other =
      tags.detag? other := by
  rw [detag?_insert]
  by_cases same : id = other
  · subst same
    rw [if_pos rfl, detag?_of_entry present]
  · rw [if_neg same]

theorem holds_of_not_live {tags : TagTable} {id : Nat} (dead : ¬tags.Live id) :
    tags.holds id = 0 := by
  have absent : tags.entries[id]? = none := by
    by_contra present
    exact dead (live_iff.mpr (Option.ne_none_iff_exists'.mp present))
  simp [holds, absent]

/-- Releasing a number does nothing if it is no tag, and otherwise frees the tag or gives up one
hold of it. -/
theorem release_cases (tags : TagTable) (id : Nat) :
    (tags.entries[id]? = none ∧ tags.release id = (false, tags)) ∨
      ∃ entry : TagEntry, tags.entries[id]? = some entry ∧
        (entry.holds = 1 ∧ tags.release id = (true, { tags with
            entries := tags.entries.erase id
            byText := tags.byText.erase (Text.fold entry.text) }) ∨
          entry.holds ≠ 1 ∧ tags.release id = (true, { tags with
            entries := tags.entries.insert id { entry with holds := entry.holds - 1 } })) := by
  unfold release
  cases present : tags.entries[id]? with
  | none => exact .inl ⟨rfl, rfl⟩
  | some entry =>
      by_cases last : entry.holds = 1
      · exact .inr ⟨entry, rfl, .inl ⟨last, by simp only [last, ↓reduceIte]⟩⟩
      · exact .inr ⟨entry, rfl, .inr ⟨last, by simp only [last, ↓reduceIte]⟩⟩

end Views

/-- Live tags are held, have numbers below the next one, and are found by their text up to
letter case. -/
structure Sound (tags : TagTable) : Prop where
  held : ∀ (id : Nat) (entry : TagEntry), tags.entries[id]? = some entry → 0 < entry.holds
  below : ∀ (id : Nat) (entry : TagEntry), tags.entries[id]? = some entry → id < tags.next
  found : ∀ (key : String) (id : Nat), tags.byText[key]? = some id ↔
    ∃ entry : TagEntry, tags.entries[id]? = some entry ∧ Text.fold entry.text = key

namespace Sound

variable {tags : TagTable} {id : Nat} {text : String} {entry : TagEntry}

theorem empty : Sound .empty := by
  constructor <;> simp [TagTable.empty]

theorem not_live_next (sound : tags.Sound) : ¬tags.Live tags.next := by
  intro live
  obtain ⟨entry, present⟩ := live_iff.mp live
  exact Nat.lt_irrefl _ (sound.below _ entry present)

/-- Live tags whose texts differ in letter case alone are the same. -/
theorem unique (sound : tags.Sound) {other : Nat} {second : TagEntry}
    (first : tags.entries[id]? = some entry) (present : tags.entries[other]? = some second)
    (same : Text.fold entry.text = Text.fold second.text) : id = other := by
  have found := (sound.found _ id).mpr ⟨entry, first, same⟩
  rw [(sound.found _ other).mpr ⟨second, present, rfl⟩] at found
  exact (Option.some.inj found).symm

/-- A text is tagged by a new tag, or by the one that it has, which is held once more. -/
theorem tag_cases (sound : tags.Sound) (text : String) :
    (tags.find? text = none ∧ tags.tag text = tags.create text) ∨
      ∃ id, ∃ entry : TagEntry, tags.find? text = some id ∧ tags.entries[id]? = some entry ∧
        Text.fold entry.text = Text.fold text ∧
        tags.tag text = (id, { tags with
          entries := tags.entries.insert id { entry with holds := entry.holds + 1 } }) := by
  unfold tag
  cases known : tags.find? text with
  | none => exact .inl ⟨rfl, rfl⟩
  | some id =>
      obtain ⟨entry, present, folded⟩ := (sound.found _ id).mp known
      refine .inr ⟨id, entry, rfl, present, folded, ?_⟩
      simp only [present]

/-- A new tag is for a text that no live one has. -/
theorem create (sound : tags.Sound) (unknown : tags.find? text = none) :
    (tags.create text).2.Sound := by
  have fresh : tags.entries[tags.next]? = none := by
    by_contra present
    exact sound.not_live_next (live_iff.mpr (Option.ne_none_iff_exists'.mp present))
  constructor
  · intro id entry present
    simp only [TagTable.create, Std.TreeMap.getElem?_insert] at present
    split at present
    · cases present
      exact Nat.one_pos
    · exact sound.held id entry present
  · intro id entry present
    simp only [TagTable.create, Std.TreeMap.getElem?_insert] at present
    split at present
    next same => exact Std.compare_eq_iff_eq.mp same ▸ Nat.lt_succ_self _
    next => exact Nat.lt_succ_of_lt (sound.below id entry present)
  · intro key id
    simp only [TagTable.create, Std.TreeMap.getElem?_insert, Std.compare_eq_iff_eq]
    by_cases own : Text.fold text = key
    · subst own
      simp only [↓reduceIte]
      constructor
      · intro given
        cases given
        exact ⟨⟨text, 1⟩, by simp, rfl⟩
      · rintro ⟨entry, present, folded⟩
        by_cases given : tags.next = id
        · rw [given]
        · simp only [given, ↓reduceIte] at present
          have known := (sound.found _ id).mpr ⟨entry, present, folded⟩
          rw [find?, known] at unknown
          contradiction
    · simp only [own, ↓reduceIte]
      rw [sound.found key id]
      by_cases given : tags.next = id
      · subst given
        simp [fresh, own]
      · simp only [given, ↓reduceIte]

/-- Holding a live tag more or less often leaves the texts. -/
theorem hold (sound : tags.Sound) (present : tags.entries[id]? = some entry) {holds : Nat}
    (positive : 0 < holds) :
    Sound { tags with entries := tags.entries.insert id { entry with holds } } := by
  have texts (key : String) (other : Nat) :
      (∃ held : TagEntry, (tags.entries.insert id { entry with holds })[other]? = some held ∧
        Text.fold held.text = key) ↔
      ∃ held : TagEntry, tags.entries[other]? = some held ∧ Text.fold held.text = key := by
    rw [Std.TreeMap.getElem?_insert]
    by_cases same : id = other
    · subst same
      simp [present]
    · simp [same]
  constructor
  · intro other held now
    simp only [Std.TreeMap.getElem?_insert, Std.compare_eq_iff_eq] at now
    split at now
    · cases now
      exact positive
    · exact sound.held other held now
  · intro other held now
    simp only [Std.TreeMap.getElem?_insert, Std.compare_eq_iff_eq] at now
    split at now
    next same => exact same ▸ sound.below id entry present
    next => exact sound.below other held now
  · intro key other
    rw [texts]
    exact sound.found key other

/-- A freed tag takes its text along. -/
theorem free (sound : tags.Sound) (present : tags.entries[id]? = some entry) :
    Sound { tags with
      entries := tags.entries.erase id
      byText := tags.byText.erase (Text.fold entry.text) } := by
  constructor
  · intro other held now
    simp only [Std.TreeMap.getElem?_erase] at now
    split at now
    · contradiction
    · exact sound.held other held now
  · intro other held now
    simp only [Std.TreeMap.getElem?_erase] at now
    split at now
    · contradiction
    · exact sound.below other held now
  · intro key other
    simp only [Std.TreeMap.getElem?_erase, Std.compare_eq_iff_eq]
    by_cases own : Text.fold entry.text = key
    · simp only [own, ↓reduceIte, reduceCtorEq, false_iff, not_exists, not_and]
      intro held now folded
      split at now
      · contradiction
      next others => exact others (sound.unique present now (own.trans folded.symm))
    · simp only [own, ↓reduceIte]
      rw [sound.found key other]
      by_cases same : id = other
      · subst same
        simp [present, own]
      · simp only [same, ↓reduceIte]

/-- Every call leaves a table sound. -/
theorem respond (sound : tags.Sound) (call : Call) : (tags.respond call).2.Sound := by
  cases call with
  | tag text =>
      obtain ⟨unknown, new⟩ | ⟨id, entry, _, present, _, again⟩ := sound.tag_cases text
      · simp only [TagTable.respond, new]
        exact sound.create unknown
      · simp only [TagTable.respond, again]
        exact sound.hold present (Nat.succ_pos _)
  | release id =>
      obtain ⟨_, nothing⟩ | ⟨entry, present, ⟨_, freed⟩ | ⟨more, kept⟩⟩ := release_cases tags id
      · simp only [TagTable.respond, nothing]
        exact sound
      · simp only [TagTable.respond, freed]
        exact sound.free present
      · have positive := sound.held id entry present
        simp only [TagTable.respond, kept]
        exact sound.hold present (by omega)

theorem tag (sound : tags.Sound) (text : String) : (tags.tag text).2.Sound :=
  sound.respond (.tag text)

theorem after (sound : tags.Sound) (calls : List Call) : (tags.after calls).Sound := by
  induction calls generalizing tags with
  | nil => exact sound
  | cons call calls ih => exact ih (sound.respond call)

/-- The tag of a text is the live one that stands for it up to letter case. -/
theorem find?_eq_some_iff (sound : tags.Sound) :
    tags.find? text = some id ↔
      ∃ spelling, tags.detag? id = some spelling ∧ Text.fold spelling = Text.fold text := by
  unfold find?
  rw [sound.found]
  constructor
  · intro ⟨entry, present, folded⟩
    exact ⟨entry.text, detag?_eq_some_iff.mpr ⟨entry, present, rfl⟩, folded⟩
  · intro ⟨spelling, spelled, folded⟩
    obtain ⟨entry, present, rfl⟩ := detag?_eq_some_iff.mp spelled
    exact ⟨entry, present, folded⟩

/-- A text that was just tagged is found. -/
theorem find?_tag (sound : tags.Sound) (text : String) :
    (tags.tag text).2.find? text = some (tags.tag text).1 := by
  obtain ⟨_, new⟩ | ⟨id, entry, known, _, _, again⟩ := sound.tag_cases text
  · rw [new]
    simp [TagTable.create, find?]
  · rw [again]
    exact known

theorem next_le_respond (sound : tags.Sound) (call : Call) :
    tags.next ≤ (tags.respond call).2.next := by
  cases call with
  | tag text =>
      obtain ⟨_, new⟩ | ⟨id, entry, _, _, _, again⟩ := sound.tag_cases text
      · simp [TagTable.respond, new, TagTable.create]
      · simp [TagTable.respond, again]
  | release id =>
      obtain ⟨_, same⟩ | ⟨entry, _, ⟨_, same⟩ | ⟨_, same⟩⟩ := release_cases tags id
      all_goals simp [TagTable.respond, same]

/-- A text gets the tag that it has, or the next number. -/
theorem tag_fst (sound : tags.Sound) (text : String) :
    (tags.tag text).1 = (tags.find? text).getD tags.next := by
  obtain ⟨unknown, new⟩ | ⟨id, entry, known, _, _, again⟩ := sound.tag_cases text
  · rw [unknown, new]
    rfl
  · rw [known, again]
    rfl

/-- A live tag keeps its spelling, unless a call frees it. -/
theorem detag?_respond (sound : tags.Sound) (live : tags.Live id) {call : Call}
    (kept : ¬tags.Frees call id) : (tags.respond call).2.detag? id = tags.detag? id := by
  obtain ⟨own, here⟩ := live_iff.mp live
  cases call with
  | tag text =>
      obtain ⟨_, new⟩ | ⟨other, entry, _, present, _, again⟩ := sound.tag_cases text
      · have below := sound.below id own here
        simp only [TagTable.respond, new, TagTable.create, detag?_insert]
        exact if_neg (by omega)
      · simp only [TagTable.respond, again, detag?_insert_text present]
  | release other =>
      obtain ⟨_, nothing⟩ | ⟨entry, present, ⟨_, freed⟩ | ⟨_, less⟩⟩ := release_cases tags other
      · simp only [TagTable.respond, nothing]
      · have different : other ≠ id := by
          intro same
          apply kept
          refine ⟨live, fun still => still ?_⟩
          simp only [TagTable.respond, freed, detag?_erase]
          exact if_pos same
        simp only [TagTable.respond, freed, detag?_erase, different, ↓reduceIte]
      · simp only [TagTable.respond, less, detag?_insert_text present]

/-- Only releases free tags. -/
theorem not_frees_tag (sound : tags.Sound) (text : String) : ¬tags.Frees (.tag text) id := by
  intro ⟨live, dead⟩
  obtain ⟨own, here⟩ := live_iff.mp live
  have below := sound.below id own here
  apply dead
  obtain ⟨_, new⟩ | ⟨other, entry, _, present, _, again⟩ := sound.tag_cases text
  · simp only [TagTable.respond, new, TagTable.create, Live, detag?_insert]
    rw [if_neg (by omega)]
    exact live
  · simp only [TagTable.respond, again, Live, detag?_insert_text present]
    exact live

/-- A live tag keeps its spelling as long as no call frees it. -/
theorem detag?_after (sound : tags.Sound) (live : tags.Live id) {calls : List Call}
    (kept : ∀ front call, front ++ [call] <+: calls → ¬(tags.after front).Frees call id) :
    (tags.after calls).detag? id = tags.detag? id := by
  induction calls generalizing tags with
  | nil => rfl
  | cons call calls ih =>
      have first := sound.detag?_respond live (kept [] call (by simp))
      have still : (tags.respond call).2.Live id := by
        unfold Live
        rwa [first]
      have rest := ih (sound.respond call) still fun front next within =>
        kept (call :: front) next ((List.prefix_cons_inj call).mpr within)
      exact rest.trans first

/-- A number that was given before and is no tag any more never is one again. -/
theorem not_live_respond (sound : tags.Sound) (below : id < tags.next) (dead : ¬tags.Live id)
    (call : Call) : id < (tags.respond call).2.next ∧ ¬(tags.respond call).2.Live id := by
  have kept {entry : TagEntry} {other : Nat} (present : tags.entries[other]? = some entry)
      (holds : Nat) :
      ¬Live { tags with entries := tags.entries.insert other { entry with holds } } id := by
    unfold Live
    rwa [detag?_insert_text present]
  cases call with
  | tag text =>
      obtain ⟨_, new⟩ | ⟨other, entry, _, present, _, again⟩ := sound.tag_cases text
      · simp only [TagTable.respond, new, TagTable.create, Live, detag?_insert]
        rw [if_neg (by omega)]
        exact ⟨by omega, dead⟩
      · simp only [TagTable.respond, again]
        exact ⟨below, kept present _⟩
  | release other =>
      obtain ⟨_, nothing⟩ | ⟨entry, present, ⟨_, freed⟩ | ⟨_, less⟩⟩ := release_cases tags other
      · simp only [TagTable.respond, nothing]
        exact ⟨below, dead⟩
      · simp only [TagTable.respond, freed, Live, detag?_erase]
        refine ⟨below, ?_⟩
        split
        · exact fun absurd => absurd rfl
        · exact dead
      · simp only [TagTable.respond, less]
        exact ⟨below, kept present _⟩

/-- Of two texts that are tagged while no tag is freed, the tags are the same just if the texts
differ in letter case alone. -/
theorem tag_eq_tag_iff (sound : tags.Sound) {first second : String} {between : List Call}
    (kept : ∀ id front call, front ++ [call] <+: between →
      ¬((tags.tag first).2.after front).Frees call id) :
    (tags.tag first).1 = (((tags.tag first).2.after between).tag second).1 ↔
      Text.fold first = Text.fold second := by
  have tagged := sound.tag first
  obtain ⟨spelling, spelled, folded⟩ := tagged.find?_eq_some_iff.mp (sound.find?_tag first)
  have live : (tags.tag first).2.Live (tags.tag first).1 := live_of_detag? spelled
  have later := tagged.after between
  have stays := (tagged.detag?_after live (kept _)).trans spelled
  generalize (tags.tag first).1 = id at stays
  generalize (tags.tag first).2.after between = after at stays later
  rw [later.tag_fst, ← folded]
  constructor
  · intro same
    cases known : after.find? second with
    | none =>
        rw [known, Option.getD_none] at same
        subst same
        exact absurd (live_of_detag? stays) later.not_live_next
    | some found =>
        rw [known, Option.getD_some] at same
        subst same
        obtain ⟨text, now, like⟩ := later.find?_eq_some_iff.mp known
        rw [stays] at now
        exact Option.some.inj now ▸ like
  · intro same
    rw [later.find?_eq_some_iff.mpr ⟨spelling, stays, same⟩, Option.getD_some]

/-- A number that was given before and is no tag any more is never given again. -/
theorem tag_ne_of_not_live (sound : tags.Sound) (below : id < tags.next) (dead : ¬tags.Live id)
    (calls : List Call) (text : String) : ((tags.after calls).tag text).1 ≠ id := by
  induction calls generalizing tags with
  | nil =>
      change (tags.tag text).1 ≠ id
      intro given
      rw [sound.tag_fst] at given
      cases known : tags.find? text with
      | none =>
          rw [known, Option.getD_none] at given
          omega
      | some found =>
          rw [known, Option.getD_some] at given
          subst given
          obtain ⟨spelling, spelled, _⟩ := sound.find?_eq_some_iff.mp known
          exact dead (live_of_detag? spelled)
  | cons call calls ih =>
      have next := sound.not_live_respond below dead call
      exact ih (sound.respond call) next.1 next.2

end Sound

end ScriptConsole.TagTable
