import ScriptConsole.Proofs.Objects.Forest
import ScriptConsole.Proofs.Objects.Sound

/-! # Trees of objects with names of their own

In every world that comes about, what is listed as children forms trees, and the name of an
object leads to it (`ScriptConsole.World.Reachable.tidy`). So no two objects have the same name.
-/

namespace ScriptConsole.Registry

/-- Children form trees, and the name of an object leads to it. -/
structure Tidy (registry : Registry) : Prop extends Treelike registry where
  owned : ∀ id object name, registry.get? id = some object → object.name = some name →
    registry.findName? name = some id

namespace Tidy

variable {registry : Registry}

theorem of_empty (firstObject firstDatablock : Nat) :
    Tidy (.empty firstObject firstDatablock) where
  toTreelike := .of_no_objects fun _ => rfl
  owned _ _ _ found := nomatch found

theorem of_resembles {other : Registry} (resembles : Resembles registry other)
    (tidy : Tidy registry) : Tidy other := by
  refine ⟨tidy.of_sameTies resembles.sameTies, ?_⟩
  intro id object name found named
  obtain ⟨change, kept, equal⟩ := resembles.objects id
  rw [equal] at found
  obtain ⟨before, there, rfl⟩ := Option.map_eq_some_iff.mp found
  unfold findName?
  rw [resembles.names]
  exact tidy.owned id before name there ((kept before).2.2.2 ▸ named)

/-- A new object gets a name only if no other object has it. -/
theorem register (draft : Draft) (name : Option Symbol) (tidy : Tidy registry) :
    Tidy (registry.register draft name).2 := by
  refine ⟨tidy.toTreelike.register draft name, ?_⟩
  intro other object symbol found named
  rw [get?_register] at found
  rw [findName?_register]
  split at found
  next own =>
    obtain rfl := Option.some.inj found
    rw [if_pos named, own]
  next =>
    have leads := tidy.owned other object symbol found named
    have free : registry.givenName name ≠ some symbol := by
      intro given
      rw [(givenName_eq_some given).2] at leads
      contradiction
    rw [if_neg free]
    exact leads

/-- Renaming frees the old name of an object, which leads to no other one. -/
theorem rename (id : Nat) (name : Option Symbol) (tidy : Tidy registry) :
    Tidy (registry.rename id name).2 := by
  refine ⟨tidy.toTreelike.rename id name, ?_⟩
  intro other object symbol found named
  unfold Registry.rename at found ⊢
  cases taken : name.bind registry.findName? with
  | some owner =>
      simp only [taken] at found ⊢
      exact tidy.owned other object symbol found named
  | none =>
      cases live : registry.get? id with
      | none =>
          simp only [taken, live] at found ⊢
          exact tidy.owned other object symbol found named
      | some before =>
          simp only [taken, live] at found ⊢
          simp only [get?, findName?, Std.TreeMap.getElem?_insert,
            Std.compare_eq_iff_eq] at found ⊢
          split at found
          next own =>
            obtain rfl := Option.some.inj found
            obtain rfl : name = some symbol := named
            rw [Option.elim_some, Std.TreeMap.getElem?_insert_self, own]
          next different =>
            have leads := tidy.owned other object symbol found named
            have kept : (before.name.elim registry.names registry.names.erase)[symbol]? =
                some other := by
              cases old : before.name with
              | none => exact leads
              | some freed =>
                  rw [Option.elim_some, Std.TreeMap.getElem?_erase]
                  simp only [Std.compare_eq_iff_eq]
                  rw [if_neg ?_]
                  · exact leads
                  · rintro rfl
                    have owner := tidy.owned id before freed live old
                    rw [leads] at owner
                    exact different (Option.some.inj owner).symm
            cases name with
            | none => exact kept
            | some given =>
                rw [Option.elim_some, Std.TreeMap.getElem?_insert]
                simp only [Std.compare_eq_iff_eq]
                rw [if_neg ?_]
                · exact kept
                · rintro rfl
                  rw [Option.bind_some, leads] at taken
                  contradiction

theorem detach (child : Nat) (tidy : Tidy registry) : Tidy (registry.detach child) := by
  refine ⟨tidy.toTreelike.detach child, ?_⟩
  intro id object name found named
  obtain ⟨change, kept, equal⟩ := registry.get?_detach child id
  rw [equal] at found
  obtain ⟨before, there, rfl⟩ := Option.map_eq_some_iff.mp found
  unfold findName?
  rw [names_detach]
  exact tidy.owned id before name there ((kept before).2.2.1 ▸ named)

/-- Putting an object into a container leaves all names as they are. -/
theorem addChild {added : Registry} {container child : Nat}
    (put : registry.addChild container child = .ok added) (tidy : Tidy registry) : Tidy added := by
  refine ⟨tidy.toTreelike.addChild put, ?_⟩
  intro id object name found named
  obtain ⟨names, objects⟩ := addChild_names put
  obtain ⟨change, kept, equal⟩ := objects id
  rw [equal] at found
  obtain ⟨before, there, rfl⟩ := Option.map_eq_some_iff.mp found
  unfold findName?
  rw [names]
  exact tidy.owned id before name there (kept before ▸ named)

/-- After an object was removed the names of the others still lead to them: only its own name was
given up, and no other object had it. -/
theorem removed (id : Nat) (tidy : Tidy registry) : Tidy (registry.removed id) := by
  refine ⟨tidy.toTreelike.removed id, ?_⟩
  intro other object name found named
  rw [get?_removed] at found
  split at found
  next => contradiction
  next different =>
    have leads : registry.findName? name = some other := by
      split at found
      · obtain ⟨before, there, rfl⟩ := Option.map_eq_some_iff.mp found
        exact tidy.owned other before name there named
      · exact tidy.owned other object name found named
    cases present : registry.get? id with
    | none =>
        rw [removed_of_none present]
        exact leads
    | some gone =>
        unfold findName? at leads ⊢
        rw [names_removed present]
        unfold deregister
        rw [present]
        simp only
        cases gone.name with
        | none => exact leads
        | some freed =>
            simp only
            split
            next owner =>
              rw [Std.TreeMap.getElem?_erase]
              simp only [Std.compare_eq_iff_eq]
              rw [if_neg ?_]
              · exact leads
              · rintro rfl
                rw [leads] at owner
                exact different (Option.some.inj owner).symm
            next => exact leads

end Tidy

theorem kept_tidy : Kept Tidy where
  resembles := .of_resembles
  register := .register
  rename := .rename
  detach := .detach
  addChild := .addChild
  removed := .removed

end ScriptConsole.Registry

namespace ScriptConsole.World

/-- In every world that comes about the registry is tidy. -/
theorem Reachable.tidy {world : World} (reachable : Reachable world) : world.registry.Tidy :=
  reachable.kept Registry.kept_tidy Registry.Tidy.of_empty

end ScriptConsole.World
