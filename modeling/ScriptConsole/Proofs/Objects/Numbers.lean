import Mathlib.Data.List.Nodup
import ScriptConsole.Proofs.Objects.Histories

/-! # Numbers of objects over histories

Each counter gives a number at most once, and never one of a live object. The number of a
deleted object is given again only by the other counter, which can reach it when the ranges of
the two run into each other (`ScriptConsole.Registry.numbers_over_history`).
-/

namespace ScriptConsole.Registry

/-- A number that was given, and whether its object is a datablock. -/
structure Grant where
  isDatablock : Bool
  id : Nat
  deriving DecidableEq

/-- The number from which the next one is looked for. -/
def counter (registry : Registry) (isDatablock : Bool) : Nat :=
  if isDatablock then registry.nextDatablock else registry.nextObject

/-- The number that a change gives. -/
def grant? (registry : Registry) : Change → Option Grant
  | .register draft name =>
    some ⟨draft.object.info.isDatablock, (registry.register draft name).1.1⟩
  | _ => none

/-- The numbers that changes give, in this order. -/
def granted (registry : Registry) : List Change → List Grant
  | [] => []
  | change :: changes => (registry.grant? change).toList ++ (registry.apply change).granted changes

/-- How many numbers one of the counters gave. -/
def grantCount (isDatablock : Bool) (grants : List Grant) : Nat :=
  grants.countP fun grant => grant.isDatablock == isDatablock

section Counters

theorem le_freeFrom (objects : Std.TreeMap Nat Object) (steps first : Nat) :
    first ≤ freeFrom objects steps first := by
  induction steps generalizing first with
  | zero => exact Nat.le_refl first
  | succ steps ih =>
      rw [freeFrom]
      split
      · exact Nat.le_trans (Nat.le_succ first) (ih (first + 1))
      · exact Nat.le_refl first

theorem register_fst (registry : Registry) (draft : Draft) (name : Option Symbol) :
    (registry.register draft name).1.1 =
      freeFrom registry.objects (registry.size + 1)
        (registry.counter draft.object.info.isDatablock) := by
  unfold register allocate counter
  cases draft.object.info.isDatablock <;> rfl

/-- A new object moves the counter of its kind past its number. -/
theorem counter_register (registry : Registry) (draft : Draft) (name : Option Symbol)
    (isDatablock : Bool) :
    (registry.register draft name).2.counter isDatablock =
      if draft.object.info.isDatablock = isDatablock then (registry.register draft name).1.1 + 1
      else registry.counter isDatablock := by
  unfold register allocate counter
  cases draft.object.info.isDatablock <;> cases isDatablock <;> rfl

theorem le_register (registry : Registry) (draft : Draft) (name : Option Symbol) :
    registry.counter draft.object.info.isDatablock ≤ (registry.register draft name).1.1 := by
  rw [register_fst]
  exact le_freeFrom _ _ _

theorem counter_le_register (registry : Registry) (draft : Draft) (name : Option Symbol)
    (isDatablock : Bool) :
    registry.counter isDatablock ≤ (registry.register draft name).2.counter isDatablock := by
  rw [counter_register]
  split
  next same =>
    rw [← same]
    exact Nat.le_trans (registry.le_register draft name) (Nat.le_succ _)
  next => exact Nat.le_refl _

/-- A counter at a free number gives that one. -/
theorem register_fst_of_free {registry : Registry} {draft : Draft}
    (free : registry.contains (registry.counter draft.object.info.isDatablock) = false)
    (name : Option Symbol) :
    (registry.register draft name).1.1 = registry.counter draft.object.info.isDatablock := by
  rw [register_fst, freeFrom, if_neg]
  exact Bool.eq_false_iff.mp free

theorem counter_detach (registry : Registry) (child : Nat) (isDatablock : Bool) :
    (registry.detach child).counter isDatablock = registry.counter isDatablock := by
  unfold detach
  split <;> rfl

/-- Only new objects move counters and make numbers live. -/
theorem apply_fewer (registry : Registry) {change : Change}
    (other : registry.grant? change = none) :
    (∀ isDatablock, (registry.apply change).counter isDatablock = registry.counter isDatablock) ∧
      ∀ id, (registry.apply change).contains id = true → registry.contains id = true := by
  cases change with
  | register draft name => contradiction
  | deregister id =>
      refine ⟨fun isDatablock => ?_, fun other live => ?_⟩
      · change (registry.deregister id).2.counter isDatablock = _
        unfold deregister
        split <;> rfl
      · change (registry.deregister id).2.contains other = true at live
        rw [contains_eq, get?_deregister] at live
        split at live
        · contradiction
        · rwa [contains_eq]
  | rename id name =>
      refine ⟨fun isDatablock => ?_, fun other live => ?_⟩
      · change (registry.rename id name).2.counter isDatablock = _
        unfold rename
        split
        · rfl
        · split <;> rfl
      · rwa [← (registry.sameTies_rename id name).contains]
  | addChild container child =>
      change (∀ _, ((registry.addChild container child).toOption.getD registry).counter _ = _) ∧
        ∀ _, ((registry.addChild container child).toOption.getD registry).contains _ = true → _
      cases put : registry.addChild container child with
      | error reason => exact ⟨fun _ => rfl, fun _ live => live⟩
      | ok added =>
          obtain ⟨_, _, _, ⟨_, rfl⟩ | ⟨_, rfl⟩⟩ := addChild_cases put
          · exact ⟨fun _ => rfl, fun _ live => live⟩
          · refine ⟨registry.counter_detach child, fun id live => ?_⟩
            change Registry.contains (Registry.update _ _ _) id = true at live
            rwa [contains_update, contains_update, contains_detach] at live
  | detach child =>
      refine ⟨registry.counter_detach child, fun id live => ?_⟩
      rwa [← registry.contains_detach child id]

end Counters

/-- The registry whose counters began at the given numbers gave these numbers. -/
structure Counted (start : Bool → Nat) (grants : List Grant) (registry : Registry) : Prop where
  started : ∀ isDatablock, start isDatablock ≤ registry.counter isDatablock
  from_start : ∀ grant ∈ grants, start grant.isDatablock ≤ grant.id
  below : ∀ grant ∈ grants, grant.id < registry.counter grant.isDatablock
  ordered : grants.Pairwise fun earlier later =>
    earlier.isDatablock = later.isDatablock → earlier.id < later.id
  live : ∀ id, registry.contains id = true → ∃ grant ∈ grants, grant.id = id
  /-- A counter that has not reached the range of the other one has left out no number. -/
  dense : ∀ isDatablock, start isDatablock + grantCount isDatablock grants ≤ start (!isDatablock) →
    registry.counter isDatablock = start isDatablock + grantCount isDatablock grants

namespace Counted

variable {start : Bool → Nat} {grants : List Grant} {registry : Registry}

theorem empty (firstObject firstDatablock : Nat) :
    Counted (Registry.empty firstObject firstDatablock).counter []
      (.empty firstObject firstDatablock) where
  started _ := Nat.le_refl _
  from_start _ member := absurd member List.not_mem_nil
  below _ member := absurd member List.not_mem_nil
  ordered := .nil
  live _ live := Bool.noConfusion live
  dense _ _ := rfl

/-- A counter does not give a number twice. -/
theorem not_mem_register (counted : Counted start grants registry) (draft : Draft)
    (name : Option Symbol) :
    ⟨draft.object.info.isDatablock, (registry.register draft name).1.1⟩ ∉ grants := by
  intro given
  have below := counted.below _ given
  have beyond := registry.le_register draft name
  simp only at below
  omega

/-- As long as a counter has not reached the range of the other one, its next number is free. -/
theorem register_eq (counted : Counted start grants registry) {draft : Draft}
    (room : start draft.object.info.isDatablock +
        grantCount draft.object.info.isDatablock grants < start (!draft.object.info.isDatablock))
    (name : Option Symbol) :
    (registry.register draft name).1.1 = registry.counter draft.object.info.isDatablock := by
  have next := counted.dense _ (Nat.le_of_lt room)
  refine register_fst_of_free ?_ name
  rw [Bool.eq_false_iff]
  intro taken
  obtain ⟨grant, given, same⟩ := counted.live _ taken
  have below := counted.below grant given
  have above := counted.from_start grant given
  by_cases own : grant.isDatablock = draft.object.info.isDatablock
  · rw [own] at below
    omega
  · rw [Bool.eq_not.mpr own] at above
    omega

/-- A number that is granted is the first of its kind, at or after the counter, that no live object
has. The counter goes on behind it, so the invariant holds with the new grant at the end. -/
theorem register (counted : Counted start grants registry) (draft : Draft)
    (name : Option Symbol) :
    Counted start
      (grants ++ [⟨draft.object.info.isDatablock, (registry.register draft name).1.1⟩])
      (registry.register draft name).2 := by
  have beyond := registry.le_register draft name
  have moved := registry.counter_le_register draft name
  constructor
  case started =>
      exact fun isDatablock => Nat.le_trans (counted.started isDatablock) (moved isDatablock)
  case from_start =>
    intro grant given
    rcases List.mem_append.mp given with earlier | latest
    · exact counted.from_start grant earlier
    · obtain rfl := List.mem_singleton.mp latest
      exact Nat.le_trans (counted.started _) beyond
  case below =>
    intro grant given
    rcases List.mem_append.mp given with earlier | latest
    · exact Nat.lt_of_lt_of_le (counted.below grant earlier) (moved _)
    · obtain rfl := List.mem_singleton.mp latest
      rw [counter_register, if_pos rfl]
      exact Nat.lt_succ_self _
  case ordered =>
    refine List.pairwise_append.mpr ⟨counted.ordered, List.pairwise_singleton _ _, ?_⟩
    intro earlier given latest newest same
    obtain rfl := List.mem_singleton.mp newest
    have below := counted.below earlier given
    rw [same] at below
    exact Nat.lt_of_lt_of_le below beyond
  case live =>
    intro id live
    rw [contains_eq, get?_register] at live
    split at live
    next own => exact ⟨_, List.mem_append_right _ (List.mem_singleton_self _), own⟩
    next =>
      rw [← contains_eq] at live
      obtain ⟨grant, given, same⟩ := counted.live id live
      exact ⟨grant, List.mem_append_left _ given, same⟩
  case dense =>
    intro isDatablock room
    unfold grantCount at room ⊢
    rw [List.countP_append, List.countP_singleton] at room ⊢
    rw [counter_register]
    split
    next same =>
      subst same
      simp only [BEq.rfl, ↓reduceIte] at room ⊢
      have next := counted.dense draft.object.info.isDatablock
      unfold grantCount at next
      rw [counted.register_eq (Nat.lt_of_succ_le room), next (by omega)]
      rfl
    next different =>
      have other : (draft.object.info.isDatablock == isDatablock) = false :=
        beq_false_of_ne different
      simp only [other, Bool.false_eq_true, ↓reduceIte, Nat.add_zero] at room ⊢
      exact counted.dense isDatablock room

/-- Every change counts. -/
theorem apply (counted : Counted start grants registry) (change : Change) :
    Counted start (grants ++ (registry.grant? change).toList) (registry.apply change) := by
  cases given : registry.grant? change with
  | some grant =>
      cases change with
      | register draft name =>
          obtain rfl := Option.some.inj given
          exact counted.register draft name
      | _ => contradiction
  | none =>
      obtain ⟨counters, fewer⟩ := registry.apply_fewer given
      rw [Option.toList_none, List.append_nil]
      constructor
      case started =>
        intro isDatablock
        rw [counters]
        exact counted.started isDatablock
      case from_start => exact counted.from_start
      case below =>
        intro grant given
        rw [counters]
        exact counted.below grant given
      case ordered => exact counted.ordered
      case live => exact fun id live => counted.live id (fewer id live)
      case dense =>
        intro isDatablock room
        rw [counters]
        exact counted.dense isDatablock room

theorem after (counted : Counted start grants registry) (changes : List Change) :
    Counted start (grants ++ registry.granted changes) (registry.after changes) := by
  induction changes generalizing grants registry with
  | nil =>
      rw [granted, List.append_nil]
      exact counted
  | cons change changes ih =>
      have rest := ih (counted.apply change)
      rwa [List.append_assoc] at rest

theorem grown (firstObject firstDatablock : Nat) (changes : List Change) :
    Counted (Registry.empty firstObject firstDatablock).counter
      ((Registry.empty firstObject firstDatablock).granted changes)
      (.grown firstObject firstDatablock changes) :=
  (Counted.empty firstObject firstDatablock).after changes

/-- Only the other counter gives a number again. -/
theorem nodup_iff (counted : Counted start grants registry) :
    (grants.map Grant.id).Nodup ↔
      ∀ id, ¬((⟨true, id⟩ : Grant) ∈ grants ∧ (⟨false, id⟩ : Grant) ∈ grants) := by
  constructor
  · rintro distinct id ⟨datablock, object⟩
    exact nomatch List.inj_on_of_nodup_map distinct datablock object rfl
  · intro apart
    refine List.pairwise_map.mpr (counted.ordered.imp_of_mem ?_)
    rintro ⟨kind, id⟩ ⟨other, _⟩ earlier later increasing rfl
    by_cases same : kind = other
    · exact Nat.lt_irrefl id (increasing same)
    · cases kind <;> cases other
      · exact same rfl
      · exact apart id ⟨later, earlier⟩
      · exact apart id ⟨earlier, later⟩
      · exact same rfl

/-- Numbers are distinct while one of the counters has not reached the range of the other. -/
theorem nodup_of_room (counted : Counted start grants registry) {isDatablock : Bool}
    (room : start isDatablock + grantCount isDatablock grants ≤ start (!isDatablock)) :
    (grants.map Grant.id).Nodup := by
  have next := counted.dense isDatablock room
  have apart (id : Nat) (own : (⟨isDatablock, id⟩ : Grant) ∈ grants) :
      (⟨!isDatablock, id⟩ : Grant) ∉ grants := by
    intro other
    have below := counted.below _ own
    have above := counted.from_start _ other
    simp only at below above
    omega
  refine counted.nodup_iff.mpr ?_
  rintro id ⟨datablock, object⟩
  cases isDatablock with
  | true => exact apart id datablock object
  | false => exact apart id object datablock

end Counted

/-- Whatever is done with a registry, the numbers that one counter gives increase, and a new
number is that of no live object. It was given before exactly if the other counter gave it, so
that all numbers are distinct as long as one counter stays below where the other one began. -/
theorem numbers_over_history (firstObject firstDatablock : Nat) (changes : List Change) :
    (((empty firstObject firstDatablock).granted changes).Pairwise fun earlier later =>
      earlier.isDatablock = later.isDatablock → earlier.id < later.id) ∧
    (∀ draft name id accepted registered,
      (grown firstObject firstDatablock changes).register draft name =
        ((id, accepted), registered) →
      (grown firstObject firstDatablock changes).contains id = false ∧
        (id ∈ ((empty firstObject firstDatablock).granted changes).map Grant.id ↔
          ⟨!draft.object.info.isDatablock, id⟩ ∈
            (empty firstObject firstDatablock).granted changes)) ∧
    ((((empty firstObject firstDatablock).granted changes).map Grant.id).Nodup ↔
      ∀ id, ¬((⟨true, id⟩ : Grant) ∈ (empty firstObject firstDatablock).granted changes ∧
        (⟨false, id⟩ : Grant) ∈ (empty firstObject firstDatablock).granted changes)) ∧
    ∀ isDatablock,
      (empty firstObject firstDatablock).counter isDatablock +
          grantCount isDatablock ((empty firstObject firstDatablock).granted changes) ≤
        (empty firstObject firstDatablock).counter (!isDatablock) →
      (((empty firstObject firstDatablock).granted changes).map Grant.id).Nodup := by
  have counted := Counted.grown firstObject firstDatablock changes
  refine ⟨counted.ordered, ?_, counted.nodup_iff, fun isDatablock room =>
    counted.nodup_of_room room⟩
  intro draft name id accepted registered entered
  have number : ((grown firstObject firstDatablock changes).register draft name).1.1 = id := by
    rw [entered]
  have free := not_contains_register (grown firstObject firstDatablock changes) draft name
  have unused := counted.not_mem_register draft name
  rw [number] at free unused
  refine ⟨free, ?_⟩
  rw [List.mem_map]
  constructor
  · rintro ⟨⟨kind, _⟩, given, rfl⟩
    have other : kind = !draft.object.info.isDatablock := by
      refine Bool.eq_not.mpr ?_
      rintro rfl
      exact unused given
    rwa [← other]
  · exact fun given => ⟨_, given, rfl⟩

/-- An object takes the number behind a datablock, and leaves. -/
private def swap : List Change :=
  let datablock := ClassInfo.ofSpec (ClassSpec.plain "Data").datablock ⟨0, false, "Data"⟩ none
  let object := ClassInfo.ofSpec (.plain "Thing") ⟨0, false, "Thing"⟩ none
  [.register (.ofClass datablock) none, .register (.ofClass object) none, .deregister 4,
    .register (.ofClass datablock) none]

/-- With ranges that are far enough apart, the numbers are distinct. -/
theorem numbers_over_history_apart :
    (((empty 4096 3).granted swap).map Grant.id).Nodup :=
  (numbers_over_history 4096 3 swap).2.2.2 true (by decide)

/-- A datablock can get the number of an object that was deleted. -/
theorem numbers_given_twice :
    ¬∀ firstObject firstDatablock changes,
      (((empty firstObject firstDatablock).granted changes).map Grant.id).Nodup := by
  intro distinct
  have once := distinct 4 3 swap
  have twice : ((empty 4 3).granted swap).map Grant.id = [3, 4, 4] := rfl
  rw [twice] at once
  contradiction

end ScriptConsole.Registry
