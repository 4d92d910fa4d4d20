import ScriptConsole.Proofs.Console.Labels
import ScriptConsole.Proofs.Numeric.Digits
import ScriptConsole.Proofs.Objects.Removal
import ScriptConsole.Proofs.Text.Segments

/-! # Paths to objects

In every world that comes about, the names of a chain of live objects, each of them a child of the
one before it, are a path to the last one, in whatever way the path is written
(`ScriptConsole.World.paths_lead`): no two objects have names that are equal up to letter case, and
a text that is no number is the number of no object. What a path leads to is live.
-/

namespace ScriptConsole

namespace World

/-- A live object has a name. -/
def Called (world : World) (id : Nat) (name : String) : Prop :=
  ∃ object symbol, world.registry.get? id = some object ∧ object.name = some symbol ∧
    symbol.text = name

theorem called_iff {world : World} {id : Nat} {name : String} : world.Called id name ↔
    (world.registry.get? id).bind (fun object => object.name.map Symbol.text) = some name := by
  simp only [Called, Option.bind_eq_some_iff, Option.map_eq_some_iff]
  exact ⟨fun ⟨object, symbol, live, own, text⟩ => ⟨object, live, symbol, own, text⟩,
    fun ⟨object, live, symbol, own, text⟩ => ⟨object, symbol, live, own, text⟩⟩

instance (world : World) (id : Nat) (name : String) : Decidable (world.Called id name) :=
  decidable_of_iff _ called_iff.symm

/-- Live objects with their names, each of them a child of the one before it. -/
structure Chain (world : World) (chain : List (Nat × String)) : Prop where
  called : ∀ link ∈ chain, world.Called link.1 link.2
  inside : chain.IsChain fun holder child => child.1 ∈ world.registry.children holder.1

instance (world : World) (chain : List (Nat × String)) : Decidable (world.Chain chain) :=
  decidable_of_iff ((∀ link ∈ chain, world.Called link.1 link.2) ∧
      chain.IsChain fun holder child => child.1 ∈ world.registry.children holder.1)
    ⟨fun ⟨called, inside⟩ => ⟨called, inside⟩, fun ⟨called, inside⟩ => ⟨called, inside⟩⟩

/-- A name that can stand in a path: it has no slash in it and no white space at its ends, and it
is no number. -/
structure Pathworthy (name : String) : Prop where
  whole : '/' ∉ name.toList
  tight : Text.Tight name.toList
  wordy : parseNat? idBound name.toList = none

instance (name : String) : Decidable (Pathworthy name) :=
  decidable_of_iff (_ ∧ _ ∧ _) ⟨fun ⟨whole, tight, wordy⟩ => ⟨whole, tight, wordy⟩,
    fun ⟨whole, tight, wordy⟩ => ⟨whole, tight, wordy⟩⟩

variable {world : World} {id child holder : Nat} {name : String} {segment : List Char}

/-- A text that is read as a number has no letters. -/
theorem isAlpha_of_parseNat? {bound number : Nat} {text : List Char}
    (read : parseNat? bound text = some number) : ∀ c ∈ text, c.isAlpha = false := by
  have digits {text : List Char} (all : (text.isEmpty || !text.all Char.isDigit) = false) :
      ∀ c ∈ text, c.isAlpha = false := by
    intro c member
    rw [Bool.or_eq_false_iff, Bool.not_eq_false', List.all_eq_true] at all
    have digit : 48 ≤ c.toNat ∧ c.toNat ≤ 57 := Char.isDigit_iff_toNat.mp (all.2 c member)
    rw [← Bool.not_eq_true, Text.isAlpha_iff]
    omega
  unfold parseNat? at read
  split at read
  next rest =>
    dsimp only at read
    split at read
    · contradiction
    next all =>
      exact List.forall_mem_cons.mpr ⟨by decide, digits (Bool.not_eq_true _ ▸ all)⟩
  next =>
    dsimp only at read
    split at read
    · contradiction
    next all => exact digits (Bool.not_eq_true _ ▸ all)

/-- Letter case makes no number of a name. -/
theorem Pathworthy.parseNat?_eq_none (worthy : Pathworthy name)
    (same : Text.fold (.ofList segment) = Text.fold name) : parseNat? idBound segment = none := by
  cases read : parseNat? idBound segment with
  | none => rfl
  | some number =>
      have equal := Text.eq_of_map_toLower (isAlpha_of_parseNat? read)
        (Text.fold_eq_fold_iff.mp same).symm
      rw [← read, ← equal, worthy.wordy]

section Names

theorem Called.contains (called : world.Called id name) : world.registry.contains id = true := by
  obtain ⟨object, _, live, _⟩ := called
  exact Registry.contains_of_get? live

/-- The table of symbols gives the name of a live object the symbol that leads to the object. -/
theorem Reachable.findName?_of_called (reachable : world.Reachable)
    (called : world.Called id name) :
    (world.symbols.find? name).bind world.registry.findName? = some id := by
  obtain ⟨object, symbol, live, own, rfl⟩ := called
  rw [(reachable.spelled id object symbol live own).1, Option.bind_some]
  exact reachable.tidy.owned id object symbol live own

theorem Reachable.ne_empty_of_called (reachable : world.Reachable)
    (called : world.Called id name) : name ≠ "" := by
  obtain ⟨object, symbol, live, own, rfl⟩ := called
  exact (reachable.spelled id object symbol live own).2

/-- No two objects have names that are equal up to letter case. -/
theorem Reachable.eq_of_called (reachable : world.Reachable) {other : Nat} {twin : String}
    (first : world.Called id name) (second : world.Called other twin)
    (same : Text.fold name = Text.fold twin) : id = other := by
  have leads := reachable.findName?_of_called first
  rw [SymbolTable.find?_congr same, reachable.findName?_of_called second] at leads
  exact (Option.some.inj leads).symm

end Names

section Segments

/-- A segment stands for the objects that it names, up to letter case, and for the one of which it
is the number. -/
theorem matchesSegment_iff {text : String} :
    world.matchesSegment text id = true ↔ world.registry.contains id = true ∧
      ((∃ name, world.Called id name ∧ Text.fold name = Text.fold text) ∨ toString id = text) := by
  unfold matchesSegment Called
  cases live : world.registry.get? id with
  | none => simp [Registry.contains_eq, live]
  | some object =>
      cases own : object.name <;>
        simp [Registry.contains_eq, live, own, Text.sameFolded]

/-- A path that begins with the name of an object begins at the object. -/
theorem Reachable.findRoot?_of_called (reachable : world.Reachable)
    (called : world.Called id name) (worthy : Pathworthy name)
    (same : Text.fold (.ofList segment) = Text.fold name) : world.findRoot? segment = some id := by
  unfold findRoot?
  rw [worthy.parseNat?_eq_none same, SymbolTable.find?_congr same]
  exact reachable.findName?_of_called called

/-- A path goes on from an object to its child of the next name. -/
theorem Reachable.findChild?_of_called (reachable : world.Reachable)
    (numbers : ∀ id, world.registry.contains id = true → id < idBound)
    (member : child ∈ world.registry.children holder) (called : world.Called child name)
    (worthy : Pathworthy name) (same : Text.fold (.ofList segment) = Text.fold name) :
    world.findChild? holder segment = some child := by
  have matching : world.matchesSegment (.ofList segment) child = true :=
    matchesSegment_iff.mpr ⟨called.contains, .inl ⟨name, called, same.symm⟩⟩
  -- Whatever child is found first has the name too, so it is the same one.
  have only {other : Nat} (matched : world.matchesSegment (.ofList segment) other = true) :
      other = child := by
    obtain ⟨live, ⟨twin, named, alike⟩ | number⟩ := matchesSegment_iff.mp matched
    · exact reachable.eq_of_called named called (alike.trans same)
    · have read := parseNat?_toDigits (numbers other live)
      rw [Nat.toString_eq_ofList_toDigits, String.ofList_inj] at number
      rw [number, worthy.parseNat?_eq_none same] at read
      contradiction
  obtain ⟨group, present⟩ := Registry.get?_of_contains (Registry.contains_of_mem_children member)
  rw [Registry.children_of_get? present] at member
  unfold findChild?
  rw [present, Option.bind_some]
  cases found : group.children.find? (world.matchesSegment (.ofList segment)) with
  | none => exact absurd matching (List.find?_eq_none.mp found child member)
  | some other => rw [only (List.find?_some found)]

/-- A path that writes the names of a chain, the first one left out, leads from the first object
to the last one. -/
theorem Reachable.foldlM_findChild? (reachable : world.Reachable)
    (numbers : ∀ id, world.registry.contains id = true → id < idBound)
    {rest : List (Nat × String)} {first last : Nat × String} {segments : List (List Char)}
    (chain : world.Chain (first :: rest)) (ends : (first :: rest).getLast? = some last)
    (worthy : ∀ link ∈ rest, Pathworthy link.2) (cased : Text.Cased segments (rest.map Prod.snd)) :
    segments.foldlM world.findChild? first.1 = some last.1 := by
  induction rest generalizing first segments with
  | nil =>
      obtain rfl := Option.some.inj ends
      cases cased
      rfl
  | cons next rest ih =>
      obtain ⟨called, inside⟩ := chain
      obtain ⟨here, others⟩ := List.isChain_cons_cons.mp inside
      obtain ⟨_, later⟩ := List.forall_mem_cons.mp called
      obtain ⟨own, worthy⟩ := List.forall_mem_cons.mp worthy
      cases cased with
      | cons same cased =>
          rw [List.foldlM_cons, reachable.findChild?_of_called numbers here
            (later next List.mem_cons_self) own same]
          rw [List.getLast?_cons_cons] at ends
          exact ih ⟨later, others⟩ ends worthy cased

end Segments

section Live

theorem contains_of_liveId? {number : Nat} (found : world.liveId? number = some id) :
    world.registry.contains id = true := by
  unfold liveId? at found
  split at found
  next live => exact Option.some.inj found ▸ live
  next => contradiction

theorem Reachable.contains_of_findRoot? (reachable : world.Reachable)
    (found : world.findRoot? segment = some id) : world.registry.contains id = true := by
  unfold findRoot? at found
  split at found
  next => exact contains_of_liveId? found
  next =>
    obtain ⟨symbol, _, leads⟩ := Option.bind_eq_some_iff.mp found
    obtain ⟨object, live, _⟩ := reachable.sound.named symbol id leads
    exact Registry.contains_of_get? live

theorem contains_of_findChild? (found : world.findChild? holder segment = some child) :
    world.registry.contains child = true := by
  obtain ⟨group, _, matched⟩ := Option.bind_eq_some_iff.mp found
  exact (matchesSegment_iff.mp (List.find?_some matched)).1

theorem contains_of_foldlM {segments : List (List Char)} (live : world.registry.contains id = true)
    (found : segments.foldlM world.findChild? id = some child) :
    world.registry.contains child = true := by
  induction segments generalizing id with
  | nil => exact Option.some.inj found ▸ live
  | cons segment segments ih =>
      obtain ⟨next, first, rest⟩ := Option.bind_eq_some_iff.mp found
      exact ih (contains_of_findChild? first) rest

end Live

/-- The names of a chain of live objects, each of them a child of the one before it, are a path to
the last one, however they are written. Object numbers have 32 bits, so a name that is no such
number is the number of no object. Whatever a path leads to is live. -/
theorem paths_lead (reachable : world.Reachable) :
    ((∀ id, world.registry.contains id = true → id < idBound) →
      ∀ (chain : List (Nat × String)) (last : Nat × String) (path : String), world.Chain chain →
      chain.getLast? = some last → (∀ link ∈ chain, Pathworthy link.2) →
      Text.Writes (chain.map Prod.snd) path.toList → world.findObject? path = some last.1) ∧
    ∀ path id, world.findObject? path = some id → world.registry.contains id = true := by
  constructor
  · intro numbers chain last path holds ends worthy writes
    have cased : Text.Cased (segments path) (chain.map Prod.snd) := by
      refine writes.cased_pieces (List.forall_mem_map.mpr fun link member => ?_)
      have fit := worthy link member
      exact ⟨reachable.ne_empty_of_called (holds.called link member), fit.whole, fit.tight⟩
    cases chain with
    | nil => contradiction
    | cons first rest =>
        obtain ⟨own, others⟩ := List.forall_mem_cons.mp worthy
        unfold findObject?
        generalize segments path = texts at cased
        cases cased with
        | cons same cased =>
            have root := reachable.findRoot?_of_called
              (holds.called first List.mem_cons_self) own same
            simp only [root, Option.bind_some]
            exact reachable.foldlM_findChild? numbers holds ends others cased
  · intro path id found
    unfold findObject? at found
    split at found
    next => contradiction
    next =>
      obtain ⟨root, begins, rest⟩ := Option.bind_eq_some_iff.mp found
      exact contains_of_foldlM (reachable.contains_of_findRoot? begins) rest

/-- A group with a set in it that has an object in it. -/
def shelfSource : String :=
  "new SimGroup(Box) \x7b new SimSet(Tray) \x7b new ScriptObject(Pen); \x7d; \x7d;"

/-- A new console that ran the source. -/
@[irreducible] def shelfConsole : Console :=
  Eval.ended (Eval.perform (Eval.run 40) (.evaluate shelfSource) (.new {} 0))

/-- The three objects with their names. -/
def shelf : List (Nat × String) :=
  [(4096, "Box"), (4097, "Tray"), (4098, "Pen")]

private theorem shelfConsole_facts : shelfConsole.world.Chain shelf ∧
    ∀ id ∈ shelfConsole.world.registry.objects.keys, id < idBound := by
  decide +kernel

/-- A path with slashes and white space to spare, in other letter case, leads to the object in the
set in the group. -/
theorem paths_lead_shelf :
    Text.Writes (shelf.map Prod.snd) "\t //BOX/tray///pEn/ ".toList ∧
      shelfConsole.world.findObject? "\t //BOX/tray///pEn/ " = some 4098 ∧
      shelfConsole.world.registry.contains 4098 = true := by
  have reachable : shelfConsole.world.Reachable := by
    unfold shelfConsole
    exact .perform (.console {} 0) 40 (.evaluate shelfSource)
  have numbers (id : Nat) (live : shelfConsole.world.registry.contains id = true) :
      id < idBound :=
    shelfConsole_facts.2 id (Std.TreeMap.mem_keys.mpr live)
  have writes : Text.Writes (shelf.map Prod.snd) "\t //BOX/tray///pEn/ ".toList := by
    have blank : ∀ c ∈ "\t ".toList ++ " ".toList, Text.isBlank c = true :=
      List.all_eq_true.mp (by decide)
    have joined : Text.Joined ["BOX".toList, "tray".toList, "pEn".toList]
        "BOX/tray///pEn/".toList :=
      .next "BOX".toList 0 (.next "tray".toList 2 (.last "pEn".toList 1))
    exact @Text.Writes.intro _ "\t ".toList _ " ".toList _ 2 blank
      (.cons (by decide) (.cons (by decide) (.cons (by decide) .nil))) joined
  obtain ⟨leads, live⟩ := paths_lead reachable
  have found := leads numbers shelf (4098, "Pen") _ shelfConsole_facts.1 rfl (by decide) writes
  exact ⟨writes, found, live _ _ found⟩

end World

end ScriptConsole
