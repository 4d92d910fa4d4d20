import Mathlib.Data.List.Nodup
import ScriptConsole.Proofs.Namespaces.Links

/-! # Searches that continue

A search from a namespace goes through the layers of the namespaces on its route: those of
its chain and the global one. The routes of two namespaces share their ends, and no layer
occurs twice on a route. So a search that continues after a layer does not depend on the
namespace that the first search began from (`ScriptConsole.Namespaces.search_continues`).
-/

namespace ScriptConsole.Namespaces

variable {ε : Type} {spaces : Namespaces ε}

/-- A change links only namespaces without a package. -/
def Change.PackageFree : Change ε → Prop
  | link child parent => child.package = none ∧ parent.package = none
  | create _ | unlink _ | define _ _ _ | activate _ | deactivate _ => True

/-- What holds of every table in which only namespaces without a package were linked. -/
structure Layered (spaces : Namespaces ε) : Prop where
  linked : Linked spaces
  active : spaces.active.Nodup
  bottom : spaces.contains .global = true
  parents : ∀ child parent, spaces.parent? child = some parent →
    child.package = none ∧ parent.package = none ∧ spaces.contains parent = true

section History

/-- Linking holds a link once more, makes it, or changes nothing. -/
theorem apply_link (spaces : Namespaces ε) (child parent : Layer) :
    (Change.link child parent).apply spaces = spaces ∨
      (Change.link child parent).apply spaces = spaces.hold child ∨
      (Change.link child parent).apply spaces = spaces.attach child parent := by
  simp only [Change.apply]
  split
  next result made =>
      obtain ⟨_, _, ⟨_, same⟩ | ⟨_, _, held⟩ | ⟨_, _, _, attached⟩⟩ := link_cases made
      · exact .inl same
      · exact .inr (.inl held)
      · exact .inr (.inr attached)
  next => exact .inl rfl

/-- A change removes no layer. -/
theorem contains_apply {layer : Layer} (present : spaces.contains layer = true)
    (change : Change ε) : (change.apply spaces).contains layer = true := by
  cases change with
  | create other =>
      unfold contains at *
      exact Std.TreeMap.contains_insertIfNew.trans (by rw [present, Bool.or_true])
  | link child parent =>
      rcases spaces.apply_link child parent with same | held | attached
      · rw [same, present]
      · rw [held, hold, contains_update, present]
      · rw [attached, attach, contains_update, present]
  | unlink child => exact (contains_update _ _ _ _).trans present
  | define other name target => exact (contains_update _ _ _ _).trans present
  | activate package =>
      unfold contains Change.apply at *
      rw [content_activate, present]
  | deactivate package =>
      unfold contains Change.apply at *
      rw [content_deactivate, present]

/-- Deactivating a package leaves the end of the list of active ones. -/
theorem active_deactivate_suffix (spaces : Namespaces ε) (package : Symbol) :
    (spaces.deactivate package).2.active <:+ spaces.active := by
  unfold deactivate
  split
  · exact (List.drop_suffix _ _).trans (List.dropWhile_suffix _)
  · exact List.suffix_rfl

/-- Linking leaves all packages as they are. -/
theorem active_link (spaces : Namespaces ε) (child parent : Layer) :
    ((Change.link child parent).apply spaces).active = spaces.active := by
  rcases spaces.apply_link child parent with same | held | attached
  · rw [same]
  · rw [held]
    rfl
  · rw [attached]
    rfl

/-- No change activates a package twice. -/
theorem active_apply (distinct : spaces.active.Nodup) (change : Change ε) :
    (change.apply spaces).active.Nodup := by
  cases change with
  | create _ => exact distinct
  | unlink _ => exact distinct
  | define _ _ _ => exact distinct
  | link child parent =>
      rw [active_link]
      exact distinct
  | activate package =>
      simp only [Change.apply, activate]
      split
      · exact distinct
      · split
        · exact distinct
        next new => exact List.nodup_cons.mpr ⟨new, distinct⟩
  | deactivate package =>
      exact distinct.sublist (spaces.active_deactivate_suffix package).sublist

/-- The parent of a layer after a change is the one before it, or was linked by it. -/
theorem parent?_apply {change : Change ε} {layer parent : Layer}
    (above : (change.apply spaces).parent? layer = some parent) :
    spaces.parent? layer = some parent ∨ change = .link layer parent := by
  cases change with
  | create other => exact .inl ((spaces.parent?_create other layer).symm.trans above)
  | define other name target =>
      exact .inl ((spaces.parent?_define other layer name target).symm.trans above)
  | activate package =>
      refine .inl (Eq.trans ?_ above)
      simp only [Change.apply, parent?, content_activate]
  | deactivate package =>
      refine .inl (Eq.trans ?_ above)
      simp only [Change.apply, parent?, content_deactivate]
  | unlink child =>
      have kept := spaces.parent?_unlink child layer
      rw [show (spaces.unlink child).parent? layer = some parent from above] at kept
      split at kept
      · contradiction
      · exact .inl kept.symm
  | link child upper =>
      rcases spaces.apply_link child upper with same | held | attached
      · rw [same] at above
        exact .inl above
      · rw [held, parent?_hold] at above
        exact .inl above
      · rw [attached] at above
        by_cases own : child = layer
        · subst own
          have present : spaces.contains child = true := by
            rw [← contains_of_parent? above, attach, contains_update]
          rw [parent?_attach present, if_pos rfl] at above
          exact .inr (congrArg _ (Option.some.inj above))
        · unfold attach parent? at above
          rw [content_update, if_neg own] at above
          exact .inl above

namespace Layered

theorem empty : Layered (.empty : Namespaces ε) where
  linked := .empty
  active := List.nodup_nil
  bottom := by rw [contains_eq, content_empty, if_pos rfl, Option.isSome_some]
  parents := by
    intro child parent above
    rw [parent?_empty] at above
    contradiction

/-- A change that fits and links no layers of packages keeps a table layered. -/
theorem apply (layered : Layered spaces) {change : Change ε} (free : change.PackageFree)
    (fits : ∀ layer ∈ change.layers, spaces.contains layer = true) :
    Layered (change.apply spaces) where
  linked := layered.linked.apply fits
  active := active_apply layered.active change
  bottom := contains_apply layered.bottom change
  parents := by
    intro child parent above
    rcases parent?_apply above with before | rfl
    · obtain ⟨lower, upper, present⟩ := layered.parents child parent before
      exact ⟨lower, upper, contains_apply present change⟩
    · have present := fits parent (List.mem_cons_of_mem child (List.mem_singleton_self parent))
      exact ⟨free.1, free.2, contains_apply present _⟩

theorem evolves {final : Namespaces ε} {changes : List (Change ε)} (layered : Layered spaces)
    (history : Evolves spaces changes final) (free : ∀ change ∈ changes, change.PackageFree) :
    Layered final := by
  induction history with
  | nil => exact layered
  | cons fits _ ih =>
      have first := layered.apply (free _ List.mem_cons_self) fits
      exact ih first fun change later => free change (List.mem_cons_of_mem _ later)

end Layered

end History

section Route

/-- The namespaces that a search from a namespace goes through: those of its chain and the
global one. -/
def route (spaces : Namespaces ε) (base : Layer) : List Layer :=
  spaces.chain base ++ if .global ∈ spaces.chain base then [] else [.global]

theorem layers_eq_flatMap (spaces : Namespaces ε) (base : Layer) :
    spaces.layers base true = (spaces.route base).flatMap spaces.layersOf := by
  unfold layers route
  rw [List.flatMap_append]
  by_cases bottom : .global ∈ spaces.chain base
  · simp only [bottom, not_true, decide_false, Bool.and_false, ↓reduceIte, List.flatMap_nil,
      Bool.false_eq_true]
  · simp only [bottom, not_false_eq_true, decide_true, Bool.and_true, ↓reduceIte,
      List.flatMap_singleton]

theorem layers_prefix (spaces : Namespaces ε) (base : Layer) (withGlobal : Bool) :
    spaces.layers base withGlobal <+: spaces.layers base true := by
  cases withGlobal with
  | true => exact List.prefix_refl _
  | false =>
      unfold layers
      simp only [Bool.false_and, Bool.false_eq_true, ↓reduceIte, List.append_nil]
      exact List.prefix_append _ _

namespace Layered

variable (layered : Layered spaces)
include layered

theorem route_global : spaces.route .global = [.global] := by
  unfold route
  rw [chain_eq_cons layered.linked.acyclic, layered.linked.global]
  simp only [Option.elim_none, List.mem_singleton, ↓reduceIte, List.append_nil]

/-- The route of a namespace leads on with that of its parent, or ends at the global one. -/
theorem route_eq_cons {base : Layer} (named : base ≠ .global) :
    spaces.route base = base :: spaces.route ((spaces.parent? base).getD .global) := by
  cases above : spaces.parent? base with
  | none =>
      rw [Option.getD_none, layered.route_global]
      unfold route
      rw [chain_eq_cons layered.linked.acyclic, above]
      simp only [Option.elim_none, List.mem_singleton, named.symm, ↓reduceIte,
        List.singleton_append]
  | some parent =>
      unfold route
      rw [chain_eq_cons layered.linked.acyclic base, above]
      simp only [Option.elim_some, List.mem_cons, named.symm, false_or, List.cons_append,
        Option.getD_some]

theorem mem_route (base : Layer) : base ∈ spaces.route base := by
  unfold route
  rw [chain_eq_cons layered.linked.acyclic]
  exact List.mem_append_left _ List.mem_cons_self

/-- On the route of a namespace in the table there are only namespaces of the table, and
each of them has the rest of the route as its own. -/
theorem of_mem_route {base space : Layer} (plain : base.package = none)
    (present : spaces.contains base = true) (member : space ∈ spaces.route base) :
    space.package = none ∧ spaces.contains space = true ∧
      ∃ before, spaces.route base = before ++ spaces.route space := by
  -- By induction on the route, which gets shorter from a namespace to the next one.
  generalize path : spaces.route base = spaces' at member
  induction spaces' generalizing base with
  | nil => exact absurd member List.not_mem_nil
  | cons first rest ih =>
      by_cases named : base = .global
      · subst named
        rw [layered.route_global] at path
        obtain ⟨rfl, rfl⟩ := List.cons.inj path
        rw [List.mem_singleton] at member
        subst member
        exact ⟨rfl, layered.bottom, [], layered.route_global.symm⟩
      · have onward := layered.route_eq_cons named
        rw [path] at onward
        obtain ⟨rfl, tail⟩ := List.cons.inj onward
        rcases List.mem_cons.mp member with rfl | later
        · exact ⟨plain, present, [], path.symm⟩
        · have next : ((spaces.parent? first).getD .global).package = none ∧
              spaces.contains ((spaces.parent? first).getD .global) = true := by
            cases above : spaces.parent? first with
            | none => exact ⟨rfl, layered.bottom⟩
            | some parent => exact (layered.parents first parent above).2
          obtain ⟨free, inside, before, shared⟩ := ih next.1 next.2 tail.symm later
          exact ⟨free, inside, first :: before, by rw [shared, List.cons_append]⟩

/-- A route goes through no namespace twice. -/
theorem nodup_route (base : Layer) : (spaces.route base).Nodup := by
  have chain : (spaces.chain base).Nodup := layered.linked.acyclic.nodup_walk _ base
  unfold route
  split
  · rw [List.append_nil]
    exact chain
  next outside =>
    refine List.nodup_append.mpr ⟨chain, List.nodup_singleton _, ?_⟩
    intro layer member other last
    rw [List.mem_singleton] at last
    rintro rfl
    exact outside (last ▸ member)

end Layered

end Route

section Search

theorem space_of_mem_layersOf {space layer : Layer} (member : layer ∈ spaces.layersOf space) :
    layer.space = space.space := by
  unfold layersOf at member
  rw [List.mem_append, List.mem_filter, List.mem_map, List.mem_singleton] at member
  rcases member with ⟨⟨package, _, rfl⟩, _⟩ | rfl
  · rfl
  · rfl

/-- A function is found in a layer if no layer before it has one of its name. -/
theorem findIn?_eq_some_iff {name : Symbol} {layers : List Layer} {entry : Entry ε} :
    spaces.findIn? name layers = some entry ↔
      entry.name = name ∧ ∃ before after, layers = before ++ entry.layer :: after ∧
        spaces.function? entry.layer name = some entry.target ∧
        ∀ layer ∈ before, spaces.function? layer name = none := by
  unfold findIn?
  rw [List.findSome?_eq_some_iff]
  constructor
  · rintro ⟨before, layer, after, split, here, none⟩
    obtain ⟨target, defined, rfl⟩ := Option.map_eq_some_iff.mp here
    refine ⟨rfl, before, after, split, defined, fun other member => ?_⟩
    exact Option.map_eq_none_iff.mp (none other member)
  · obtain ⟨layer, own, target⟩ := entry
    rintro ⟨rfl, before, after, split, defined, none⟩
    refine ⟨before, layer, after, split, Option.map_eq_some_iff.mpr ⟨target, defined, rfl⟩, ?_⟩
    exact fun other member => Option.map_eq_none_iff.mpr (none other member)

/-- No function is found where no layer has one of the name. -/
theorem findIn?_eq_none_iff {name : Symbol} {layers : List Layer} :
    spaces.findIn? name layers = none ↔ ∀ layer ∈ layers, spaces.function? layer name = none := by
  unfold findIn?
  simp only [List.findSome?_eq_none_iff, Option.map_eq_none_iff]

/-- Functions that are found one after the other, each by a search that continues after
the one before it. -/
def Continued (spaces : Namespaces ε) : Layer → List (Entry ε) → Prop
  | _, [] => True
  | layer, entry :: later =>
    (∃ name, spaces.resolveAfter? layer name = some entry) ∧
      spaces.Continued entry.layer later

namespace Layered

variable (layered : Layered spaces)
include layered

/-- A namespace is searched in front of itself once for each package that is active. -/
theorem nodup_layersOf {space : Layer} (plain : space.package = none) :
    (spaces.layersOf space).Nodup := by
  have packages : (spaces.active.map fun package => (⟨space.space, some package⟩ : Layer)).Nodup :=
    List.Nodup.map (fun _ _ same => Option.some.inj (congrArg Layer.package same)) layered.active
  refine List.nodup_append.mpr ⟨packages.filter _, List.nodup_singleton space, ?_⟩
  intro layer member other last
  rw [List.mem_singleton] at last
  rw [List.mem_filter, List.mem_map] at member
  obtain ⟨⟨package, _, rfl⟩, _⟩ := member
  rintro rfl
  rw [← last] at plain
  contradiction

section Base

variable {base : Layer} (plain : base.package = none) (present : spaces.contains base = true)
include plain present

/-- A search goes through no layer twice: routes go through no namespace twice, and the layers of
two namespaces differ. -/
theorem nodup_layers : (spaces.layers base true).Nodup := by
  rw [layers_eq_flatMap, List.nodup_flatMap]
  refine ⟨?_, ?_⟩
  · intro space member
    exact layered.nodup_layersOf (layered.of_mem_route plain present member).1
  · refine (layered.nodup_route base).imp_of_mem ?_
    intro first second inFirst inSecond different layer ofFirst ofSecond
    have same := (space_of_mem_layersOf ofFirst).symm.trans (space_of_mem_layersOf ofSecond)
    have free := (layered.of_mem_route plain present inFirst).1
    have other := (layered.of_mem_route plain present inSecond).1
    cases first
    cases second
    simp_all

/-- Where a search goes through a layer, its rest is what a search that continues after
the layer goes through. -/
theorem resolveAfter?_eq {before after : List Layer} {layer : Layer}
    (split : spaces.layers base true = before ++ layer :: after) (name : Symbol) :
    spaces.resolveAfter? layer name = spaces.findIn? name after := by
  have member : layer ∈ spaces.layers base true := by
    rw [split]
    exact List.mem_append_right before List.mem_cons_self
  rw [layers_eq_flatMap, List.mem_flatMap] at member
  obtain ⟨space, onRoute, own⟩ := member
  obtain ⟨free, inside, front, shared⟩ := layered.of_mem_route plain present onRoute
  have namespace_eq : (⟨layer.space, none⟩ : Layer) = space := by
    rw [space_of_mem_layersOf own, ← free]
  have ends : spaces.layers base true =
      front.flatMap spaces.layersOf ++ spaces.layers space true := by
    rw [layers_eq_flatMap, layers_eq_flatMap, shared, List.flatMap_append]
  have later : layer ∈ spaces.layers space true := by
    rw [layers_eq_flatMap]
    exact List.mem_flatMap.mpr ⟨space, layered.mem_route space, own⟩
  have distinct := layered.nodup_layers plain present
  have skip (skipped rest : List Layer) (new : layer ∉ skipped) :
      (skipped ++ rest).dropWhile (· ≠ layer) = rest.dropWhile (· ≠ layer) := by
    refine List.dropWhile_append_of_pos fun other member => decide_eq_true ?_
    rintro rfl
    exact new member
  have rest : (spaces.layers space true).dropWhile (· ≠ layer) = layer :: after := by
    have fresh : layer ∉ front.flatMap spaces.layersOf := by
      intro twice
      rw [ends] at distinct
      exact (List.nodup_append.mp distinct).2.2 layer twice layer later rfl
    have once : layer ∉ before := by
      intro twice
      rw [split] at distinct
      exact (List.nodup_append.mp distinct).2.2 layer twice layer List.mem_cons_self rfl
    rw [← skip _ _ fresh, ← ends, split, skip _ _ once, List.dropWhile_cons_of_neg]
    simp only [ne_eq, not_true, decide_false, Bool.false_eq_true, not_false_eq_true]
  unfold resolveAfter?
  simp only [namespace_eq, inside, ↓reduceIte, rest, List.drop_one, List.tail_cons]

/-- Searches that continue go through later and later layers. -/
theorem sublist_of_continued {before after : List Layer} {layer : Layer} {row : List (Entry ε)}
    (split : spaces.layers base true = before ++ layer :: after)
    (continued : spaces.Continued layer row) : (row.map Entry.layer).Sublist after := by
  induction row generalizing before layer after with
  | nil => exact List.nil_sublist after
  | cons entry later ih =>
      obtain ⟨⟨name, found⟩, onward⟩ := continued
      rw [layered.resolveAfter?_eq plain present split name] at found
      obtain ⟨_, skipped, rest, inner, _⟩ := findIn?_eq_some_iff.mp found
      have whole : spaces.layers base true =
          (before ++ layer :: skipped) ++ entry.layer :: rest := by
        rw [split, inner, List.append_assoc, List.cons_append]
      rw [inner, List.map_cons]
      exact ((ih whole onward).cons_cons entry.layer).trans (List.sublist_append_right _ _)

end Base

end Layered

/-- In a table in which only namespaces without a package were linked, a search from such
a namespace goes through no layer twice. A search that continues after one of its layers
goes through the rest of its layers, wherever the layer was reached from: it finds the function
of the first of them that has one of the name, and none if none of them has. Functions that are
found by going on and on stand in later and later layers. -/
theorem search_continues {changes : List (Change ε)} (history : Evolves .empty changes spaces)
    (free : ∀ change ∈ changes, change.PackageFree) {base : Layer} (plain : base.package = none)
    (present : spaces.contains base = true) :
    (spaces.layers base true).Nodup ∧
      (∀ before layer after, spaces.layers base true = before ++ layer :: after →
        (∀ name, spaces.resolveAfter? layer name = spaces.findIn? name after ∧
          (∀ entry, spaces.resolveAfter? layer name = some entry ↔
            entry.name = name ∧ ∃ skipped rest, after = skipped ++ entry.layer :: rest ∧
              spaces.function? entry.layer name = some entry.target ∧
              ∀ other ∈ skipped, spaces.function? other name = none) ∧
          (spaces.resolveAfter? layer name = none ↔
            ∀ other ∈ after, spaces.function? other name = none)) ∧
        ∀ row, spaces.Continued layer row → (row.map Entry.layer).Sublist after) ∧
      ∀ name withGlobal entry, spaces.resolve? base name withGlobal = some entry →
        ∃ before after, spaces.layers base true = before ++ entry.layer :: after ∧
          spaces.function? entry.layer name = some entry.target ∧
          ∀ layer ∈ before, spaces.function? layer name = none := by
  have layered : Layered spaces := Layered.empty.evolves history free
  refine ⟨layered.nodup_layers plain present, ?_, ?_⟩
  · intro before layer after split
    refine ⟨fun name => ?_, fun row => layered.sublist_of_continued plain present split⟩
    have continues := layered.resolveAfter?_eq plain present split name
    refine ⟨continues, fun entry => ?_, ?_⟩
    · rw [continues]
      exact findIn?_eq_some_iff
    · rw [continues]
      exact findIn?_eq_none_iff
  · intro name withGlobal entry found
    obtain ⟨_, before, after, searched, defined, none⟩ := findIn?_eq_some_iff.mp found
    obtain ⟨rest, whole⟩ := spaces.layers_prefix base withGlobal
    refine ⟨before, after ++ rest, ?_, defined, none⟩
    rw [← whole, searched, List.append_assoc, List.cons_append]

/-- A namespace with a parent and with a package in front of it, where a function of the
parent continues the one of the package. -/
theorem search_continues_item :
    ∃ spaces : Namespaces Nat,
      spaces.layers (.ofSpace ⟨0, false, "Item"⟩) true =
        [⟨some ⟨0, false, "Item"⟩, some ⟨0, false, "Pack"⟩⟩, .ofSpace ⟨0, false, "Item"⟩,
          .ofSpace ⟨0, false, "Base"⟩, .global] ∧
      spaces.resolveAfter? ⟨some ⟨0, false, "Item"⟩, some ⟨0, false, "Pack"⟩⟩ ⟨0, false, "f"⟩ =
        some ⟨.ofSpace ⟨0, false, "Base"⟩, ⟨0, false, "f"⟩, 2⟩ := by
  let item : Layer := .ofSpace ⟨0, false, "Item"⟩
  let front : Layer := ⟨some ⟨0, false, "Item"⟩, some ⟨0, false, "Pack"⟩⟩
  let base : Layer := .ofSpace ⟨0, false, "Base"⟩
  have history : Evolves (.empty : Namespaces Nat)
      [.create item, .create front, .create base, .link item base,
        .define front ⟨0, false, "f"⟩ 1, .define base ⟨0, false, "f"⟩ 2,
        .activate ⟨0, false, "Pack"⟩] _ :=
    .cons (by decide) (.cons (by decide) (.cons (by decide) (.cons (by decide)
      (.cons (by decide) (.cons (by decide) (.cons (by decide) (.nil _)))))))
  have free : ∀ change ∈ [Change.create item, .create front, .create base, .link item base,
      .define front ⟨0, false, "f"⟩ 1, .define base ⟨0, false, "f"⟩ 2,
      .activate ⟨0, false, "Pack"⟩], change.PackageFree := by
    simp [Change.PackageFree, item, base, Layer.ofSpace]
  have plain : item.package = none := rfl
  obtain ⟨_, continues, _⟩ := search_continues history free plain (by decide +kernel)
  obtain ⟨searched, _⟩ := continues [] front [item, base, .global] (by decide +kernel)
  obtain ⟨_, found, _⟩ := searched ⟨0, false, "f"⟩
  refine ⟨_, by decide +kernel, (found ⟨base, ⟨0, false, "f"⟩, 2⟩).mpr ⟨rfl, [item], [.global], ?_⟩⟩
  decide +kernel

end Search

end ScriptConsole.Namespaces
