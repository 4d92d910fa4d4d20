import ScriptConsole.Proofs.Objects.Live

/-! # Histories of a registry

Whatever is done with a registry, beginning with the empty one, a name leads to the one live
object that has it, and objects are found under their own numbers
(`ScriptConsole.Registry.names_over_history`).
-/

namespace ScriptConsole

/-- The number of an object and its name. -/
def Object.label (object : Object) : Nat × Option Symbol :=
  (object.id, object.name)

namespace Registry

/-- A change of a registry. -/
inductive Change where
  | register (draft : Draft) (name : Option Symbol)
  | deregister (id : Nat)
  | rename (id : Nat) (name : Option Symbol)
  | addChild (container child : Nat)
  | detach (child : Nat)

/-- The registry after a change. One that is refused leaves it as it is. -/
def apply (registry : Registry) : Change → Registry
  | .register draft name => (registry.register draft name).2
  | .deregister id => (registry.deregister id).2
  | .rename id name => (registry.rename id name).2
  | .addChild container child => (registry.addChild container child).toOption.getD registry
  | .detach child => registry.detach child

/-- The registry after some changes. -/
def after (registry : Registry) (changes : List Change) : Registry :=
  changes.foldl apply registry

/-- The registry that changes make of the empty one. -/
def grown (firstObject firstDatablock : Nat) (changes : List Change) : Registry :=
  (empty firstObject firstDatablock).after changes

/-- One object was entered under a free number, with the name that was asked for unless
another object has it. -/
structure Entered (registry : Registry) (draft : Draft) (name : Option Symbol) (id : Nat)
    (accepted : Bool) (after : Registry) : Prop where
  free : registry.get? id = none
  entered : after.get? id =
    some { draft.object with id, name := if accepted then name else none }
  others : ∀ other, other ≠ id → after.get? other = registry.get? other
  size : after.size = registry.size + 1
  accepted_iff : accepted = true ↔ ∀ symbol, name = some symbol → registry.findName? symbol = none
  names : ∀ symbol, after.findName? symbol =
    if accepted = true ∧ name = some symbol then some id else registry.findName? symbol

/-- An object has another name, or none, and nothing else changed. -/
structure Renamed (registry : Registry) (id : Nat) (object : Object) (name : Option Symbol)
    (after : Registry) : Prop where
  renamed : after.get? id = some { object with name }
  others : ∀ other, other ≠ id → after.get? other = registry.get? other
  names : ∀ symbol, after.findName? symbol =
    if name = some symbol then some id
    else if object.name = some symbol then none
    else registry.findName? symbol

section Views

variable {registry : Registry}

theorem size_register (registry : Registry) (draft : Draft) (name : Option Symbol) :
    (registry.register draft name).2.size = registry.size + 1 := by
  obtain ⟨free, objects, _, _⟩ := registry.allocate_views draft.object.info.isDatablock
  unfold register size
  simp only [objects]
  rw [Std.TreeMap.size_insert, if_neg]
  exact Bool.not_eq_true _ ▸ free

/-- Registering an object enters it. -/
theorem entered_register (registry : Registry) (draft : Draft) (name : Option Symbol) :
    registry.Entered draft name (registry.register draft name).1.1
      (registry.register draft name).1.2 (registry.register draft name).2 := by
  have free := registry.not_contains_register draft name
  obtain ⟨_, _, names, _⟩ := registry.allocate_views draft.object.info.isDatablock
  have answer : (registry.register draft name).1.2 = !name.any registry.names.contains := by
    unfold register
    simp only [names]
  have given : registry.givenName name =
      if (registry.register draft name).1.2 = true then name else none := by
    rw [answer]
    unfold givenName
    cases name.any registry.names.contains <;> rfl
  constructor
  case free => exact get?_of_not_contains free
  case entered => rw [get?_register, if_pos rfl, given]
  case others =>
    intro other different
    rw [get?_register, if_neg different.symm]
  case size => exact registry.size_register draft name
  case accepted_iff =>
    rw [answer]
    cases name with
    | none => simp only [Option.any_none, Bool.not_false, reduceCtorEq, false_implies, implies_true]
    | some symbol =>
        simp only [Option.any_some, contains_names, Bool.not_eq_true', Option.isSome_eq_false_iff,
          Option.isNone_iff_eq_none, Option.some.injEq, forall_eq']
  case names =>
    intro symbol
    rw [findName?_register, given]
    cases (registry.register draft name).1.2 with
    | true => simp only [↓reduceIte, true_and]
    | false => simp only [Bool.false_eq_true, ↓reduceIte, reduceCtorEq, false_and]

/-- A name that has an owner is not given, and an object that is not live gets none. All other
renaming succeeds. -/
theorem rename_cases (registry : Registry) (id : Nat) (name : Option Symbol) :
    (∃ owner, name.bind registry.findName? = some owner ∧
      registry.rename id name = (decide (owner = id), registry)) ∨
    name.bind registry.findName? = none ∧
      (registry.get? id = none ∧ registry.rename id name = (false, registry) ∨
        ∃ object, registry.get? id = some object ∧ (registry.rename id name).1 = true ∧
          registry.Renamed id object name (registry.rename id name).2) := by
  unfold rename
  cases taken : name.bind registry.findName? with
  | some owner => exact Or.inl ⟨owner, rfl, rfl⟩
  | none =>
      refine Or.inr ⟨rfl, ?_⟩
      cases found : registry.get? id with
      | none => exact Or.inl ⟨rfl, rfl⟩
      | some object =>
          refine Or.inr ⟨object, rfl, rfl, ?_, ?_, ?_⟩
          · unfold get?
            exact Std.TreeMap.getElem?_insert_self
          · intro other different
            unfold get?
            rw [Std.TreeMap.getElem?_insert]
            simp only [Std.compare_eq_iff_eq, different.symm, ↓reduceIte]
          · intro symbol
            have freed : (object.name.elim registry.names registry.names.erase)[symbol]? =
                if object.name = some symbol then none else registry.findName? symbol := by
              cases object.name with
              | none => simp only [Option.elim_none, reduceCtorEq, ↓reduceIte, findName?]
              | some old =>
                  simp only [Option.elim_some, Std.TreeMap.getElem?_erase, Std.compare_eq_iff_eq,
                    Option.some.injEq, findName?]
            rw [← freed]
            cases name with
            | none => simp only [findName?, Option.elim_none, reduceCtorEq, ↓reduceIte]
            | some given =>
                simp only [findName?, Option.elim_some, Std.TreeMap.getElem?_insert,
                  Std.compare_eq_iff_eq, Option.some.injEq]

/-- The name of an object that left is free if it led to the object. -/
theorem findName?_deregister (registry : Registry) (id : Nat) (symbol : Symbol) :
    (registry.deregister id).2.findName? symbol =
      if ((registry.get? id).bind fun object => object.name) = some symbol ∧
        registry.findName? symbol = some id then none
      else registry.findName? symbol := by
  unfold deregister
  cases registry.get? id with
  | none => simp only [Option.bind_none, reduceCtorEq, false_and, ↓reduceIte]
  | some object =>
      rw [Option.bind_some]
      by_cases leads : object.name = some symbol ∧ registry.findName? symbol = some id
      · rw [if_pos leads]
        unfold findName? at leads ⊢
        simp only [leads.1, leads.2, ↓reduceIte, Std.TreeMap.getElem?_erase_self]
      · rw [if_neg leads]
        unfold findName? at leads ⊢
        simp only
        split
        next name named =>
          split
          next owner =>
            rw [Std.TreeMap.getElem?_erase, if_neg]
            intro same
            obtain rfl := Std.compare_eq_iff_eq.mp same
            exact leads ⟨named, owner⟩
          next => rfl
        next => rfl

/-- Leaving a container changes the label of no object. -/
theorem map_label_detach (registry : Registry) (child id : Nat) :
    ((registry.detach child).get? id).map Object.label = (registry.get? id).map Object.label := by
  unfold detach
  split
  next => rfl
  next group _ =>
    unfold forget
    rw [map_get?_update Object.label, map_get?_update Object.label]
    · exact fun object => rfl
    · exact fun object => rfl

/-- Entering a container changes the label of no object. -/
theorem map_label_addChild {added : Registry} {container child : Nat}
    (put : registry.addChild container child = .ok added) (id : Nat) :
    (added.get? id).map Object.label = (registry.get? id).map Object.label := by
  obtain ⟨_, _, _, ⟨_, rfl⟩ | ⟨_, rfl⟩⟩ := addChild_cases put
  · rfl
  · rw [map_get?_update Object.label, map_get?_update Object.label, map_label_detach]
    · exact fun object => rfl
    · exact fun object => rfl

end Views

/-- A name leads to the object that has it, and objects are found under their own numbers. -/
structure Indexed (registry : Registry) : Prop where
  named : ∀ name id, registry.findName? name = some id ↔
    ∃ object, registry.get? id = some object ∧ object.name = some name
  numbered : ∀ id object, registry.get? id = some object → object.id = id

namespace Indexed

variable {registry : Registry}

theorem empty (firstObject firstDatablock : Nat) : Indexed (.empty firstObject firstDatablock) := by
  refine ⟨fun name id => ?_, fun id object found => nomatch found⟩
  constructor
  · intro found
    contradiction
  · rintro ⟨object, found, _⟩
    contradiction

/-- Only names and labels count. -/
theorem of_labels (indexed : Indexed registry) {other : Registry}
    (names : other.names = registry.names)
    (labels : ∀ id, (other.get? id).map Object.label = (registry.get? id).map Object.label) :
    Indexed other := by
  have labelled {first second : Option Object} (same : first.map Object.label =
      second.map Object.label) {object : Object} (found : first = some object) :
      ∃ twin, second = some twin ∧ twin.id = object.id ∧ twin.name = object.name := by
    rw [found, Option.map_some, eq_comm, Option.map_eq_some_iff] at same
    obtain ⟨twin, present, label⟩ := same
    exact ⟨twin, present, Prod.mk.inj label⟩
  refine ⟨fun name id => ?_, fun id object found => ?_⟩
  · have leads := indexed.named name id
    unfold findName? at leads ⊢
    rw [names, leads]
    constructor
    · rintro ⟨object, found, own⟩
      obtain ⟨twin, present, _, name⟩ := labelled (labels id).symm found
      exact ⟨twin, present, name.trans own⟩
    · rintro ⟨object, found, own⟩
      obtain ⟨twin, present, _, name⟩ := labelled (labels id) found
      exact ⟨twin, present, name.trans own⟩
  · obtain ⟨twin, present, number, _⟩ := labelled (labels id) found
    exact number.symm.trans (indexed.numbered id twin present)

/-- A new object has a free number, and a name only if the name was free, so names still lead to the
objects that have them. -/
theorem register (indexed : Indexed registry) (draft : Draft) (name : Option Symbol) :
    Indexed (registry.register draft name).2 := by
  have free := get?_of_not_contains (registry.not_contains_register draft name)
  refine ⟨fun symbol id => ?_, fun id object found => ?_⟩
  · rw [findName?_register, get?_register]
    by_cases own : (registry.register draft name).1.1 = id
    · subst own
      simp only [↓reduceIte, Option.some.injEq, exists_eq_left']
      split
      next given => simp only [given]
      next other =>
        have absent : registry.findName? symbol ≠ some (registry.register draft name).1.1 := by
          intro leads
          obtain ⟨object, present, _⟩ := (indexed.named symbol _).mp leads
          rw [free] at present
          contradiction
        simp only [absent, other]
    · simp only [own, ↓reduceIte]
      split
      next given =>
        rw [← indexed.named, (givenName_eq_some given).2]
        simp only [Option.some.injEq, own, reduceCtorEq]
      next => exact indexed.named symbol id
  · rw [get?_register] at found
    split at found
    next own =>
      obtain rfl := Option.some.inj found
      exact own
    next => exact indexed.numbered id object found

/-- With an object goes its name, if the name led to it. -/
theorem deregister (indexed : Indexed registry) (id : Nat) :
    Indexed (registry.deregister id).2 := by
  refine ⟨fun symbol other => ?_, fun other object found => ?_⟩
  · rw [findName?_deregister, get?_deregister]
    by_cases own : id = other
    · subst own
      simp only [↓reduceIte, reduceCtorEq, false_and, exists_false, iff_false]
      split
      next => exact Option.some_ne_none id ∘ Eq.symm
      next kept =>
        intro leads
        obtain ⟨object, present, named⟩ := (indexed.named symbol id).mp leads
        refine kept ⟨?_, leads⟩
        rw [present, Option.bind_some, named]
    · simp only [own, ↓reduceIte, ← indexed.named]
      split
      next both => simp only [both.2, reduceCtorEq, Option.some.injEq, own]
      next => exact Iff.rfl
  · rw [get?_deregister] at found
    split at found
    next => contradiction
    next => exact indexed.numbered other object found

/-- A renamed object gives its old name up and takes the new one, which was free. All other names
still lead where they led. -/
theorem renamed (indexed : Indexed registry) {id : Nat} {object : Object} {name : Option Symbol}
    {after : Registry} (present : registry.get? id = some object)
    (free : name.bind registry.findName? = none)
    (renamed : registry.Renamed id object name after) : Indexed after := by
  refine ⟨fun symbol other => ?_, fun other twin found => ?_⟩
  · rw [renamed.names]
    by_cases own : other = id
    · subst own
      simp only [renamed.renamed, Option.some.injEq, exists_eq_left']
      split
      next given => simp only [given]
      next different =>
        simp only [different, iff_false]
        split
        next => exact Option.some_ne_none other ∘ Eq.symm
        next kept =>
          rw [indexed.named, present]
          rintro ⟨twin, same, named⟩
          exact kept (Option.some.inj same ▸ named)
    · rw [renamed.others other own, ← indexed.named]
      split
      next given =>
        rw [given, Option.bind_some] at free
        simp only [free, Option.some.injEq, reduceCtorEq, iff_false]
        exact own ∘ Eq.symm
      next =>
        split
        next old =>
          have leads := (indexed.named symbol id).mpr ⟨object, present, old⟩
          simp only [leads, reduceCtorEq, Option.some.injEq, false_iff]
          exact own ∘ Eq.symm
        next => exact Iff.rfl
  · by_cases own : other = id
    · subst own
      rw [renamed.renamed] at found
      obtain rfl := Option.some.inj found
      exact indexed.numbered other object present
    · rw [renamed.others other own] at found
      exact indexed.numbered other twin found

theorem rename (indexed : Indexed registry) (id : Nat) (name : Option Symbol) :
    Indexed (registry.rename id name).2 := by
  obtain ⟨owner, _, kept⟩ | ⟨free, ⟨_, kept⟩ | ⟨object, present, _, renamed⟩⟩ :=
    registry.rename_cases id name
  · rw [kept]
    exact indexed
  · rw [kept]
    exact indexed
  · exact indexed.renamed present free renamed

/-- Every change keeps the names of a registry leading to the objects that have them. -/
theorem apply (indexed : Indexed registry) (change : Change) : Indexed (registry.apply change) := by
  cases change with
  | register draft name => exact indexed.register draft name
  | deregister id => exact indexed.deregister id
  | rename id name => exact indexed.rename id name
  | addChild container child =>
      change Indexed ((registry.addChild container child).toOption.getD registry)
      cases put : registry.addChild container child with
      | error reason => exact indexed
      | ok added => exact indexed.of_labels (addChild_names put).1 (map_label_addChild put)
  | detach child =>
      exact indexed.of_labels (registry.names_detach child) (registry.map_label_detach child)

theorem after (indexed : Indexed registry) (changes : List Change) :
    Indexed (registry.after changes) := by
  induction changes generalizing registry with
  | nil => exact indexed
  | cons change changes ih => exact ih (indexed.apply change)

theorem grown (firstObject firstDatablock : Nat) (changes : List Change) :
    Indexed (.grown firstObject firstDatablock changes) :=
  (Indexed.empty firstObject firstDatablock).after changes

/-- A live object can get any name that no other object has. -/
theorem rename_iff (indexed : Indexed registry) (id : Nat) (name : Option Symbol) :
    (registry.rename id name).1 = true ↔ registry.contains id = true ∧
      ∀ symbol owner, name = some symbol → registry.findName? symbol = some owner → owner = id := by
  obtain ⟨owner, taken, kept⟩ | ⟨free, kinds⟩ := registry.rename_cases id name
  · obtain ⟨symbol, rfl, leads⟩ := Option.bind_eq_some_iff.mp taken
    obtain ⟨object, present, _⟩ := (indexed.named symbol owner).mp leads
    rw [kept, decide_eq_true_eq]
    constructor
    · rintro rfl
      refine ⟨contains_of_get? present, ?_⟩
      intro other second same found
      rw [← Option.some.inj same, leads] at found
      exact (Option.some.inj found).symm
    · exact fun both => both.2 symbol owner rfl leads
  · have untaken : ∀ symbol owner, name = some symbol →
        registry.findName? symbol = some owner → owner = id := by
      rintro symbol owner rfl leads
      rw [Option.bind_some, leads] at free
      contradiction
    obtain ⟨absent, kept⟩ | ⟨object, present, answer, _⟩ := kinds
    · rw [kept, contains_eq, absent]
      simp only [Bool.false_eq_true, Option.isSome_none, false_and]
    · simp only [answer, contains_of_get? present, true_and, true_iff]
      exact untaken

/-- If renaming succeeds the object has the name, also if it had it before. -/
theorem rename_true (indexed : Indexed registry) {id : Nat} {name : Option Symbol}
    (answer : (registry.rename id name).1 = true) :
    ∃ object, registry.get? id = some object ∧
      registry.Renamed id object name (registry.rename id name).2 := by
  obtain ⟨owner, taken, kept⟩ | ⟨_, ⟨_, kept⟩ | ⟨object, present, _, renamed⟩⟩ :=
    registry.rename_cases id name
  · rw [kept, decide_eq_true_eq] at answer
    subst answer
    obtain ⟨symbol, rfl, leads⟩ := Option.bind_eq_some_iff.mp taken
    obtain ⟨object, present, named⟩ := (indexed.named symbol owner).mp leads
    rw [kept]
    refine ⟨object, present, ?_, fun _ _ => rfl, fun other => ?_⟩
    · rw [present, ← named]
    · by_cases same : symbol = other
      · rw [if_pos (congrArg some same), ← same, leads]
      · simp only [named, Option.some.injEq, same, ↓reduceIte]
  · rw [kept] at answer
    contradiction
  · exact ⟨object, present, renamed⟩

/-- Refused renaming changes nothing. -/
theorem rename_false (registry : Registry) {id : Nat} {name : Option Symbol}
    (answer : (registry.rename id name).1 = false) : (registry.rename id name).2 = registry := by
  obtain ⟨owner, _, kept⟩ | ⟨_, ⟨_, kept⟩ | ⟨object, _, done, _⟩⟩ := registry.rename_cases id name
  · rw [kept]
  · rw [kept]
  · rw [done] at answer
    contradiction

end Indexed

/-- Whatever is done with a registry, names and live objects belong to each other one to one,
a registration adds one object and takes nothing from the others, and an object is renamed
exactly when no other object has the name. -/
theorem names_over_history (firstObject firstDatablock : Nat) (changes : List Change) :
    (∀ name id, (grown firstObject firstDatablock changes).findName? name = some id ↔
      ∃ object, (grown firstObject firstDatablock changes).get? id = some object ∧
        object.name = some name) ∧
    (∀ id object, (grown firstObject firstDatablock changes).get? id = some object →
      object.id = id) ∧
    (∀ draft name id accepted registered,
      (grown firstObject firstDatablock changes).register draft name =
        ((id, accepted), registered) →
      (grown firstObject firstDatablock changes).Entered draft name id accepted registered) ∧
    (∀ id name renamed,
      (grown firstObject firstDatablock changes).rename id name = (true, renamed) →
      ∃ object, (grown firstObject firstDatablock changes).get? id = some object ∧
        (grown firstObject firstDatablock changes).Renamed id object name renamed) ∧
    (∀ id name renamed,
      (grown firstObject firstDatablock changes).rename id name = (false, renamed) →
      renamed = grown firstObject firstDatablock changes) ∧
    ∀ id name, ((grown firstObject firstDatablock changes).rename id name).1 = true ↔
      (grown firstObject firstDatablock changes).contains id = true ∧
        ∀ symbol owner, name = some symbol →
          (grown firstObject firstDatablock changes).findName? symbol = some owner →
          owner = id := by
  have indexed := Indexed.grown firstObject firstDatablock changes
  refine ⟨indexed.named, indexed.numbered, ?_, ?_, ?_, indexed.rename_iff⟩
  · intro draft name id accepted registered entered
    have facts := (grown firstObject firstDatablock changes).entered_register draft name
    rwa [entered] at facts
  · intro id name renamed answer
    have facts := indexed.rename_true (congrArg Prod.fst answer)
    rwa [answer] at facts
  · intro id name renamed answer
    have kept := Indexed.rename_false _ (congrArg Prod.fst answer)
    rwa [answer] at kept

end Registry

end ScriptConsole
