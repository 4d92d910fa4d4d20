import Mathlib.Data.List.Infix
import ScriptConsole.Proofs.Namespaces.Packages
import ScriptConsole.Proofs.Namespaces.Search

/-! # Active packages as a stack

The active packages are known, and none is active twice. While a package is active, the ones
that were active before it stay beneath it (`ScriptConsole.Namespaces.Beneath`), so that
deactivating it brings back what was there before
(`ScriptConsole.Namespaces.activation_stack`). Activating a package changes what a search finds
only at the first namespace on its way that has something of the name.
-/

namespace ScriptConsole

/-- The layer that a package puts in front of a namespace. -/
def Layer.overlay (space : Layer) (package : Symbol) : Layer :=
  ⟨space.space, some package⟩

namespace Namespaces

variable {ε : Type} {spaces : Namespaces ε} {package : Symbol}

/-- The table after changes, one after the other. -/
def after (spaces : Namespaces ε) (changes : List (Change ε)) : Namespaces ε :=
  changes.foldl (fun spaces change => change.apply spaces) spaces

/-- A change that activates or deactivates a package. -/
def Change.Switches : Change ε → Prop
  | activate _ | deactivate _ => True
  | create _ | link _ _ | unlink _ | define _ _ _ => False

section Stack

theorem activate_eq (known : spaces.isPackage package = true) (inactive : package ∉ spaces.active) :
    spaces.activate package = (true, { spaces with active := package :: spaces.active }) := by
  unfold activate
  simp only [known, Bool.not_true, Bool.false_eq_true, ↓reduceIte, inactive]

/-- The packages that were active before an active one are beneath it. -/
def Beneath (spaces : Namespaces ε) (package : Symbol) (older : List Symbol) : Prop :=
  ∃ newer, package ∉ newer ∧ spaces.active = newer ++ package :: older

/-- Changes keep what is beneath a package, as long as it stays active. -/
theorem Beneath.apply {older : List Symbol} (beneath : spaces.Beneath package older)
    (fresh : package ∉ older) (change : Change ε)
    (stays : package ∈ (change.apply spaces).active) :
    (change.apply spaces).Beneath package older := by
  obtain ⟨newer, notNewer, active⟩ := beneath
  cases change with
  | create layer => exact ⟨newer, notNewer, active⟩
  | unlink child => exact ⟨newer, notNewer, active⟩
  | define layer name target => exact ⟨newer, notNewer, active⟩
  | link child parent =>
      exact ⟨newer, notNewer, (spaces.active_link child parent).trans active⟩
  | activate other =>
      simp only [Change.apply, activate]
      split
      · exact ⟨newer, notNewer, active⟩
      · split
        · exact ⟨newer, notNewer, active⟩
        next inactive =>
          refine ⟨other :: newer, ?_, congrArg (other :: ·) active⟩
          have different : package ≠ other := by
            rintro rfl
            exact inactive (active ▸ List.mem_append_right newer List.mem_cons_self)
          exact List.not_mem_cons_of_ne_of_not_mem different notNewer
  | deactivate other =>
      -- What is left is an end of the list that still has the package.
      have left := spaces.active_deactivate_suffix other
      rw [active] at left
      change package ∈ (spaces.deactivate other).2.active at stays
      rcases List.suffix_or_suffix_of_suffix left (List.suffix_append newer _) with short | long
      · rcases List.suffix_cons_iff.mp short with whole | shorter
        · exact ⟨[], List.not_mem_nil, whole⟩
        · exact (fresh (shorter.subset stays)).elim
      · obtain ⟨kept, equal⟩ := long
        obtain ⟨dropped, split⟩ := left
        rw [← equal, ← List.append_assoc] at split
        refine ⟨kept, fun member => notNewer ?_, equal.symm⟩
        rw [← List.append_cancel_right split]
        exact List.mem_append_right dropped member

theorem Beneath.after {older : List Symbol} (beneath : spaces.Beneath package older)
    (fresh : package ∉ older) (changes : List (Change ε))
    (stays : ∀ front, front <+: changes → package ∈ (spaces.after front).active) :
    (spaces.after changes).Beneath package older := by
  induction changes generalizing spaces with
  | nil => exact beneath
  | cons change changes ih =>
      have first := stays [change] (List.prefix_append [change] changes)
      refine ih (beneath.apply fresh change first) fun front within => ?_
      exact stays (change :: front) ((List.prefix_cons_inj change).mpr within)

/-- Deactivating a package leaves what is beneath it. -/
theorem Beneath.deactivate {older : List Symbol} (beneath : spaces.Beneath package older) :
    spaces.deactivate package = (true, { spaces with active := older }) := by
  obtain ⟨newer, notNewer, active⟩ := beneath
  have member : package ∈ spaces.active := active ▸ List.mem_append_right newer List.mem_cons_self
  have skipped : spaces.active.dropWhile (· ≠ package) = package :: older := by
    rw [active, List.dropWhile_append_of_pos, List.dropWhile_cons_of_neg]
    · simp only [ne_eq, not_true, decide_false, Bool.false_eq_true, not_false_eq_true]
    · intro other inside
      refine decide_eq_true ?_
      rintro rfl
      exact notNewer inside
  unfold Namespaces.deactivate
  simp only [member, ↓reduceIte, skipped, List.drop_one, List.tail_cons]

/-- Switching packages on and off changes nothing but which ones are active. -/
theorem content_after (spaces : Namespaces ε) (switches : List (Change ε))
    (only : ∀ change ∈ switches, change.Switches) :
    (spaces.after switches).content = spaces.content := by
  induction switches generalizing spaces with
  | nil => rfl
  | cons change switches ih =>
      obtain ⟨first, rest⟩ := List.forall_mem_cons.mp only
      refine (ih (change.apply spaces) rest).trans ?_
      cases change with
      | activate other => exact spaces.content_activate other
      | deactivate other => exact spaces.content_deactivate other
      | _ => exact first.elim

end Stack

section Known

theorem isPackage_iff : spaces.isPackage package = true ↔
    ∃ layer, spaces.contains layer = true ∧ layer.package = some package := by
  unfold isPackage contains
  rw [List.any_eq_true]
  refine exists_congr fun layer => and_congr ?_ decide_eq_true_iff
  rw [Std.TreeMap.mem_keys, Std.TreeMap.contains_iff_mem]

/-- A change forgets no package. -/
theorem isPackage_apply (known : spaces.isPackage package = true) (change : Change ε) :
    (change.apply spaces).isPackage package = true := by
  obtain ⟨layer, present, own⟩ := isPackage_iff.mp known
  exact isPackage_iff.mpr ⟨layer, contains_apply present change, own⟩

/-- What a change activates was declared. -/
theorem active_apply_known {change : Change ε} (active : package ∈ (change.apply spaces).active) :
    package ∈ spaces.active ∨ spaces.isPackage package = true := by
  cases change with
  | create layer => exact .inl active
  | unlink child => exact .inl active
  | define layer name target => exact .inl active
  | link child parent =>
      rw [active_link] at active
      exact .inl active
  | activate other =>
      simp only [Change.apply, activate] at active
      split at active
      · exact .inl active
      next declared =>
        split at active
        · exact .inl active
        · rcases List.mem_cons.mp active with rfl | before
          · exact .inr (by simpa using declared)
          · exact .inl before
  | deactivate other => exact .inl ((spaces.active_deactivate_suffix other).subset active)

/-- Over any history of a table its active packages are known and active once. -/
theorem Evolves.active {start : Namespaces ε} {changes : List (Change ε)}
    (history : Evolves start changes spaces) (distinct : start.active.Nodup)
    (known : ∀ package ∈ start.active, start.isPackage package = true) :
    spaces.active.Nodup ∧ ∀ package ∈ spaces.active, spaces.isPackage package = true := by
  induction history with
  | nil => exact ⟨distinct, known⟩
  | @cons start final change changes _ _ ih =>
      refine ih (active_apply distinct change) fun package active => ?_
      refine isPackage_apply ?_ change
      exact (active_apply_known active).elim (known package) id

end Known

section Search

/-- The namespaces that a search goes through. -/
def searched (spaces : Namespaces ε) (base : Layer) (withGlobal : Bool) : List Layer :=
  if withGlobal then spaces.route base else spaces.chain base

/-- The first namespace that a search goes through for which a name is defined, be it by a
package, by an active one, or by the namespace itself. -/
def firstWith? (spaces : Namespaces ε) (package : Symbol) (base : Layer) (name : Symbol)
    (withGlobal : Bool) : Option Layer :=
  (spaces.searched base withGlobal).find? fun space =>
    (space.overlay package :: spaces.layersOf space).any fun layer =>
      (spaces.function? layer name).isSome

theorem layers_eq_searched (spaces : Namespaces ε) (base : Layer) (withGlobal : Bool) :
    spaces.layers base withGlobal = (spaces.searched base withGlobal).flatMap spaces.layersOf := by
  cases withGlobal with
  | true => exact spaces.layers_eq_flatMap base
  | false =>
      unfold layers searched
      simp only [Bool.false_and, Bool.false_eq_true, ↓reduceIte, List.append_nil]

theorem findIn?_append (spaces : Namespaces ε) (name : Symbol) (front back : List Layer) :
    spaces.findIn? name (front ++ back) =
      (spaces.findIn? name front).or (spaces.findIn? name back) :=
  List.findSome?_append

theorem isSome_findIn? (spaces : Namespaces ε) (name : Symbol) (layers : List Layer) :
    (spaces.findIn? name layers).isSome =
      layers.any fun layer => (spaces.function? layer name).isSome := by
  unfold findIn?
  rw [List.isSome_findSome?]
  simp only [Option.isSome_map]

theorem findIn?_singleton (spaces : Namespaces ε) (layer : Layer) (name : Symbol) :
    spaces.findIn? name [layer] =
      (spaces.function? layer name).map fun target => ⟨layer, name, target⟩ := by
  unfold findIn?
  rw [List.findSome?_singleton]

/-- With one more active package a search looks into its layer first. -/
theorem findIn?_layersOf_cons (spaces : Namespaces ε) (package : Symbol) (space : Layer)
    (name : Symbol) :
    spaces.findIn? name
        (({ spaces with active := package :: spaces.active } : Namespaces ε).layersOf space) =
      (spaces.findIn? name [space.overlay package]).or
        (spaces.findIn? name (spaces.layersOf space)) := by
  unfold layersOf
  rw [List.map_cons, List.filter_cons]
  split
  · exact spaces.findIn?_append name [space.overlay package] (spaces.layersOf space)
  next missing =>
    have nothing : spaces.function? (space.overlay package) name = none := by
      cases defined : spaces.function? (space.overlay package) name with
      | none => rfl
      | some target => exact (missing (contains_of_function? defined)).elim
    rw [findIn?_singleton, nothing, Option.map_none, Option.none_or]
    rfl

/-- An activated package decides a search that comes first to its layer, and no other one. -/
theorem findIn?_flatMap_cons (spaces : Namespaces ε) (package name : Symbol)
    (searched : List Layer) :
    spaces.findIn? name (searched.flatMap
        ({ spaces with active := package :: spaces.active } : Namespaces ε).layersOf) =
      ((searched.find? fun space =>
          (space.overlay package :: spaces.layersOf space).any fun layer =>
            (spaces.function? layer name).isSome).bind fun space =>
        spaces.findIn? name [space.overlay package]).or
        (spaces.findIn? name (searched.flatMap spaces.layersOf)) := by
  induction searched with
  | nil => rfl
  | cons space searched ih =>
      rw [List.flatMap_cons, List.flatMap_cons, findIn?_append, findIn?_append,
        findIn?_layersOf_cons, ih, List.find?_cons, ← isSome_findIn?]
      have both := spaces.findIn?_append name [space.overlay package] (spaces.layersOf space)
      rw [List.singleton_append] at both
      rw [both]
      cases own : spaces.findIn? name [space.overlay package] with
      | some entry => simp only [Option.some_or, Option.isSome_some, Option.bind_some, own]
      | none =>
          cases spaces.findIn? name (spaces.layersOf space) with
          | some entry => simp only [Option.or_some, Option.some_or, Option.isSome_some,
              Option.bind_some, own]
          | none => simp only [Option.none_or, Option.isSome_none]

/-- Activating a package changes what a search finds only if the first namespace that has
something of the name has it from the package, and then the package's function is found. -/
theorem resolve?_activate (known : spaces.isPackage package = true)
    (inactive : package ∉ spaces.active) (base : Layer) (name : Symbol) (withGlobal : Bool) :
    (spaces.activate package).2.resolve? base name withGlobal =
      ((spaces.firstWith? package base name withGlobal).bind fun space =>
        (spaces.function? (space.overlay package) name).map fun target =>
          ⟨space.overlay package, name, target⟩).or
        (spaces.resolve? base name withGlobal) := by
  unfold resolve? firstWith?
  rw [activate_eq known inactive, layers_eq_searched, layers_eq_searched]
  simp only [← findIn?_singleton]
  exact spaces.findIn?_flatMap_cons package name (spaces.searched base withGlobal)

end Search

/-- The active packages of a table are a stack. They are known, and each is active once.
Whatever is activated and deactivated while a package stays active, deactivating it brings back
the table from before it was activated, and with it what every search finds. What a search finds
while it is the newest one is the function that it has for the first namespace for which there
is something of the name, and otherwise what was found before. -/
theorem activation_stack (known : spaces.isPackage package = true)
    (inactive : package ∉ spaces.active) :
    (∀ (table : Namespaces ε) changes, Evolves .empty changes table →
      table.active.Nodup ∧ ∀ other ∈ table.active, table.isPackage other = true) ∧
    (∀ switches : List (Change ε), (∀ change ∈ switches, change.Switches) →
      (∀ front, front <+: switches →
        package ∈ ((spaces.activate package).2.after front).active) →
      ((spaces.activate package).2.after switches).deactivate package = (true, spaces)) ∧
    ∀ base name withGlobal,
      (spaces.activate package).2.resolve? base name withGlobal =
        ((spaces.firstWith? package base name withGlobal).bind fun space =>
          (spaces.function? (space.overlay package) name).map fun target =>
            ⟨space.overlay package, name, target⟩).or
          (spaces.resolve? base name withGlobal) := by
  refine ⟨?_, ?_, resolve?_activate known inactive⟩
  · intro table changes history
    exact history.active List.nodup_nil fun other absurd => (List.not_mem_nil absurd).elim
  · intro switches only stays
    have beneath : (spaces.activate package).2.Beneath package spaces.active := by
      rw [activate_eq known inactive]
      exact ⟨[], List.not_mem_nil, rfl⟩
    have content := (content_after _ switches only).trans (spaces.content_activate package)
    rw [(beneath.after inactive switches stays).deactivate]
    exact congrArg (fun content => (true, (⟨content, spaces.active⟩ : Namespaces ε))) content

/-- A namespace and two packages that put layers in front of it, both not active. -/
def twoPackages : Namespaces Nat :=
  Namespaces.empty.after
    [.create (.ofSpace ⟨0, false, "Item"⟩),
      .create ⟨some ⟨0, false, "Item"⟩, some ⟨0, false, "Pack"⟩⟩,
      .create ⟨some ⟨0, false, "Item"⟩, some ⟨0, false, "Other"⟩⟩,
      .define ⟨some ⟨0, false, "Item"⟩, some ⟨0, false, "Pack"⟩⟩ ⟨0, false, "f"⟩ 1,
      .define (.ofSpace ⟨0, false, "Item"⟩) ⟨0, false, "f"⟩ 2]

/-- The second package is switched on and off, and on again, above the first one, which is then
switched off. Before that a search finds the function of the first package. -/
theorem activation_stack_two :
    twoPackages.isPackage ⟨0, false, "Pack"⟩ = true ∧
      (⟨0, false, "Pack"⟩ : Symbol) ∉ twoPackages.active ∧
      ((twoPackages.activate ⟨0, false, "Pack"⟩).2.after
          [.activate ⟨0, false, "Other"⟩, .activate ⟨0, false, "Pack"⟩,
            .deactivate ⟨0, false, "Other"⟩, .activate ⟨0, false, "Other"⟩]).deactivate
        ⟨0, false, "Pack"⟩ = (true, twoPackages) ∧
      ((twoPackages.activate ⟨0, false, "Pack"⟩).2.resolve? (.ofSpace ⟨0, false, "Item"⟩)
        ⟨0, false, "f"⟩ true).map Entry.target = some 1 ∧
      (twoPackages.resolve? (.ofSpace ⟨0, false, "Item"⟩) ⟨0, false, "f"⟩ true).map Entry.target =
        some 2 := by
  have known : twoPackages.isPackage ⟨0, false, "Pack"⟩ = true := by decide +kernel
  have inactive : (⟨0, false, "Pack"⟩ : Symbol) ∉ twoPackages.active := by decide +kernel
  obtain ⟨_, closes, finds⟩ := activation_stack known inactive
  refine ⟨known, inactive, closes _ ?_ ?_, ?_, by decide +kernel⟩
  · simp only [List.forall_mem_cons, Change.Switches, true_and]
    exact fun change absurd => (List.not_mem_nil absurd).elim
  · intro front within
    rw [← List.mem_inits] at within
    revert front
    decide +kernel
  · rw [finds]
    decide +kernel

end Namespaces

end ScriptConsole
