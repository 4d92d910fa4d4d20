import ScriptConsole.Proofs.Console.Attachment
import ScriptConsole.Proofs.Console.Fresh
import ScriptConsole.Proofs.Namespaces.Search
import ScriptConsole.Proofs.Objects.Tidy

/-! # Names of objects and their namespaces

An object puts the namespace of its name in front of that of its class when it is registered
(`ScriptConsole.World.enter_naming`). Where the namespace is used in no other way
(`ScriptConsole.World.Sparing`), the object keeps it as long as it lives, and does not get that of
a name that it is renamed to. So whether functions of the namespace of a name are found on an
object depends on its first name alone (`ScriptConsole.World.functions_of_first_name`).
-/

namespace ScriptConsole

/-- The texts that say which namespaces an object puts in front of one another, without its own
name: the name of its class, and what two of its fields hold. -/
def Object.linkTexts (object : Object) : List String :=
  [object.info.name.text, (object.getField "superClass" none).toText,
    (object.getField "class" none).toText]

namespace Namespaces

variable {ε : Type} {spaces after : Namespaces ε} {name method : Symbol}

/-- A link that is there after another one was made was there before, or is that one. -/
theorem parent?_link {child parent layer above : Layer}
    (made : spaces.link child parent = .ok after)
    (found : after.parent? layer = some above) :
    spaces.parent? layer = some above ∨ layer = child ∧ above = parent := by
  have applied : (Change.link child parent).apply spaces = after := by
    simp only [Change.apply, made]
  rcases parent?_apply (applied ▸ found) with before | same
  · exact .inl before
  · obtain ⟨rfl, rfl⟩ := Change.link.inj same
    exact .inr ⟨rfl, rfl⟩

/-- Giving up links makes none. -/
theorem parent?_foldl_unlink (layers : List Layer) {layer above : Layer}
    (found : (layers.foldl unlink spaces).parent? layer = some above) :
    spaces.parent? layer = some above := by
  induction layers generalizing spaces with
  | nil => exact found
  | cons child layers ih =>
      have before := ih found
      rw [parent?_unlink] at before
      split at before
      · contradiction
      · exact before

/-- Nothing is linked to a namespace of a name. -/
def Last (spaces : Namespaces ε) (name : Symbol) : Prop :=
  ∀ layer above, spaces.parent? layer = some above → above.space ≠ some name

/-- From a namespace of another name none leads to a namespace to which nothing is linked. -/
theorem Last.space_ne (last : spaces.Last name) (linked : spaces.Linked) {base : Layer}
    (apart : base.space ≠ some name) : ∀ layer ∈ spaces.chain base, layer.space ≠ some name := by
  intro layer member
  rcases ((mem_chain_iff linked.acyclic base layer).mp member).cases_tail with rfl | ⟨_, _, step⟩
  · exact apart
  · exact last _ _ step

/-- A search that begins elsewhere finds nothing in a namespace to which nothing is linked. -/
theorem Last.not_found (last : spaces.Last name) (linked : spaces.Linked) {base : Layer}
    (apart : base.space ≠ some name) {withGlobal : Bool} {entry : Entry ε}
    (found : spaces.resolve? base method withGlobal = some entry) :
    entry.layer.space ≠ some name := by
  obtain ⟨-, before, behind, split, -, -⟩ := findIn?_eq_some_iff.mp found
  have member : entry.layer ∈ spaces.layers base withGlobal := by
    rw [split]
    exact List.mem_append_right _ List.mem_cons_self
  unfold layers at member
  rcases List.mem_append.mp member with inside | bottom
  · obtain ⟨space, onIt, of⟩ := List.mem_flatMap.mp inside
    rw [space_of_mem_layersOf of]
    exact last.space_ne linked apart space onIt
  · split at bottom
    · rw [space_of_mem_layersOf bottom]
      exact nofun
    · exact absurd bottom List.not_mem_nil

/-- A namespace that is not linked at all can be linked to one of another name. -/
theorem Last.link_ok (last : spaces.Last name) (linked : spaces.Linked)
    (free : spaces.parent? (.ofSpace name) = none) {parent : Layer}
    (apart : parent.space ≠ some name) (named : parent ≠ .global) :
    ∃ after, spaces.link (.ofSpace name) parent = .ok after := by
  have other : Layer.ofSpace name ≠ parent := by
    rintro rfl
    exact apart rfl
  have outside : .ofSpace name ∉ spaces.chain parent :=
    fun member => last.space_ne linked apart _ member rfl
  unfold link
  simp only [ofSpace_ne_global, other, named, free, outside, decide_false, Bool.or_self,
    Bool.false_eq_true, ↓reduceIte]
  exact ⟨_, rfl⟩

/-- A search first goes through the layers that count for the namespace where it begins. -/
theorem resolve?_own (linked : spaces.Linked) {base : Layer} {entry : Entry ε}
    (found : spaces.findIn? method (spaces.layersOf base) = some entry) (withGlobal : Bool) :
    spaces.resolve? base method withGlobal = some entry := by
  have first : ∃ rest, spaces.layers base withGlobal = spaces.layersOf base ++ rest := by
    unfold layers
    simp only [chain_eq_cons linked.acyclic base, List.flatMap_cons, List.append_assoc]
    exact ⟨_, rfl⟩
  obtain ⟨rest, split⟩ := first
  unfold resolve? findIn? at *
  rw [split, List.findSome?_append, found]
  rfl

end Namespaces

namespace World

variable {α β : Type} {allowed : Layer → Layer → Prop} {world after : World} {name : Symbol}

/-- All links that a change makes in a world are allowed. -/
def Adds (allowed : Layer → Layer → Prop) (world : World) (change : WorldM α) : Prop :=
  ∀ layer above, (change.run world).2.spaces.parent? layer = some above →
    world.spaces.parent? layer = some above ∨ allowed layer above

namespace Adds

theorem of_keeps {change : WorldM α} (keeps : Keeps (fun world => world.spaces.parent?) change)
    (world : World) : Adds allowed world change :=
  fun _ _ found => .inl ((congrFun (keeps world) _).symm.trans found)

theorem mono {more : Layer → Layer → Prop} {change : WorldM α} (adds : Adds allowed world change)
    (implies : ∀ layer above, allowed layer above → more layer above) : Adds more world change :=
  fun layer above found => (adds layer above found).imp_right (implies layer above)

theorem bind {first : WorldM α} {next : α → WorldM β} (start : Adds allowed world first)
    (rest : Adds allowed (first.run world).2 (next (first.run world).1)) :
    Adds allowed world (first >>= next) := by
  intro layer above found
  rcases rest layer above found with before | new
  · exact start layer above before
  · exact .inr new

theorem reading {next : World → WorldM α} (rest : Adds allowed world (next world)) :
    Adds allowed world (get >>= next) :=
  rest

theorem link (child parent : Layer) (world : World) :
    Adds (fun layer above => layer = child ∧ above = parent) world (World.link child parent) := by
  intro layer above found
  cases made : world.spaces.link child parent with
  | error reason =>
      rw [link_run_error made] at found
      exact .inl found
  | ok spaces =>
      rw [link_run_ok made] at found
      exact Namespaces.parent?_link made found

/-- Nothing is linked to a namespace where no such link is allowed. -/
theorem last {change : WorldM α} (adds : Adds allowed world change)
    (apart : ∀ layer above, allowed layer above → above.space ≠ some name)
    (last : world.spaces.Last name) : (change.run world).2.spaces.Last name := by
  intro layer above found
  rcases adds layer above found with before | new
  · exact last layer above before
  · exact apart layer above new

/-- A namespace is linked to none where no such link is allowed. -/
theorem parent?_eq_none {change : WorldM α} {layer : Layer} (adds : Adds allowed world change)
    (apart : ∀ above, ¬ allowed layer above) (free : world.spaces.parent? layer = none) :
    (change.run world).2.spaces.parent? layer = none := by
  refine Option.eq_none_iff_forall_ne_some.mpr fun above found => ?_
  rcases adds layer above found with before | new
  · rw [free] at before
    contradiction
  · exact apart above new

end Adds

theorem plain_parents : Plain fun world => world.spaces.parent? :=
  ⟨fun _ _ => rfl, fun _ _ => rfl⟩

theorem createLayer_parents (layer : Layer) :
    Keeps (fun world => world.spaces.parent?) (createLayer layer) :=
  fun world => funext (world.spaces.parent?_create layer)

/-- A text names what a symbol names. -/
def Names (name : Symbol) (text : String) : Prop :=
  Text.fold text = Text.fold name.text

theorem ne_of_not_names {symbols : SymbolTable} (lawful : symbols.Lawful) {text : String}
    (others : ¬ Names name text) : (symbols.intern text).1 ≠ name := by
  rintro rfl
  exact others ((lawful.intern text).fold_text (symbols.find?_intern text)).symm

theorem space_ne {symbol : Symbol} (others : symbol ≠ name) :
    (Layer.ofSpace symbol).space ≠ some name :=
  fun same => others (Option.some.inj same)

/-- Neither end of a link is the namespace of a name. -/
def Elsewhere (name : Symbol) (layer above : Layer) : Prop :=
  layer ≠ .ofSpace name ∧ above.space ≠ some name

/-- No class has a name. -/
def Classless (name : Symbol) (world : World) : Prop :=
  ∀ (symbol : Symbol) (info : ClassInfo), world.registry.classes[symbol]? = some info →
    info.name ≠ name

section Steps

/-- Linking two namespaces of other names links nothing to the namespace of a name and that one to
nothing. -/
theorem linkNamespaces_elsewhere (lawful : world.symbols.Lawful) {child parent : String}
    (others : ¬ Names name child ∧ ¬ Names name parent) :
    Adds (Elsewhere name) world (World.linkNamespaces child parent) := by
  have below := ne_of_not_names lawful others.1
  have above := ne_of_not_names (lawful.intern child) others.2
  refine .bind (.of_keeps (plain_parents.intern child) world) ?_
  refine .bind (.of_keeps (plain_parents.intern parent) _) ?_
  refine .bind (.of_keeps (createLayer_parents _) _) ?_
  refine .bind (.of_keeps (createLayer_parents _) _) ?_
  refine (Adds.link _ _ _).mono ?_
  rintro layer upper ⟨rfl, rfl⟩
  exact ⟨fun same => space_ne below (congrArg Layer.space same), space_ne above⟩

/-- A class of another name, whose parent has another name too, is linked elsewhere. -/
theorem addClass_elsewhere {spec : ClassSpec} {symbol : Symbol} (other : symbol ≠ name)
    {parent : Option ClassInfo} (apart : ∀ info : ClassInfo, parent = some info → info.name ≠ name)
    (world : World) : Adds (Elsewhere name) world (World.addClass spec symbol parent) := by
  have inserted : Keeps (fun world => world.spaces.parent?) (insertClass spec symbol parent) :=
    fun _ => rfl
  refine .bind (.of_keeps (createLayer_parents _) world) ?_
  cases parent with
  | none => exact .of_keeps inserted _
  | some info =>
      refine .bind ((Adds.link _ _ _).mono ?_) ?_
      · rintro layer upper ⟨rfl, rfl⟩
        exact ⟨fun same => space_ne other (congrArg Layer.space same), space_ne (apart info rfl)⟩
      · split
        · exact .bind (.of_keeps (plain_parents.warn _) _) (.of_keeps inserted _)
        · exact .of_keeps inserted _

/-- Registering a class of another name links elsewhere, as its parent is a class and no class has
the name. -/
theorem registerClass_elsewhere (lawful : world.symbols.Lawful) (classless : world.Classless name)
    {spec : ClassSpec} (other : ¬ Names name spec.name) :
    Adds (Elsewhere name) world (World.registerClass spec) := by
  have own := ne_of_not_names lawful other
  unfold World.registerClass
  refine .bind (.of_keeps (plain_parents.intern spec.name) world) (.reading ?_)
  split
  · exact .of_keeps (.pure _) _
  · split
    · refine .bind (addClass_elsewhere own ?_ _) (.of_keeps (.pure _) _)
      exact fun _ absurd => (Option.some_ne_none _ absurd.symm).elim
    · refine .bind (.of_keeps (plain_parents.intern _) _) (.reading ?_)
      split
      · exact .of_keeps (.pure _) _
      next info found =>
        refine .bind (addClass_elsewhere own ?_ _) (.of_keeps (.pure _) _)
        rintro other same
        obtain rfl := Option.some.inj same
        exact classless _ _ found

end Steps

section Enter

/-- Names that are interned in order have their symbols. -/
theorem mapM_intern_run (world : World) (lawful : world.symbols.Lawful) (texts : List String) :
    ∃ symbols table, (texts.mapM intern : WorldM (List Symbol)).run world =
        (symbols, { world with symbols := table }) ∧
      ∀ symbol ∈ symbols, ∃ text ∈ texts, Names symbol text := by
  induction texts generalizing world with
  | nil => exact ⟨[], world.symbols, rfl, fun _ member => absurd member List.not_mem_nil⟩
  | cons text texts ih =>
      have known := (lawful.intern text).fold_text (world.symbols.find?_intern text)
      obtain ⟨symbols, table, ran, rest⟩ :=
        ih { world with symbols := (world.symbols.intern text).2 } (lawful.intern text)
      have first : (intern text).run world = ((world.symbols.intern text).1,
          { world with symbols := (world.symbols.intern text).2 }) := rfl
      refine ⟨(world.symbols.intern text).1 :: symbols, table, ?_, ?_⟩
      · rw [List.mapM_cons]
        simp only [bind_run, first, ran]
        rfl
      · intro symbol member
        rcases List.mem_cons.mp member with rfl | later
        · exact ⟨text, List.mem_cons_self, known.symm⟩
        · obtain ⟨other, among, named⟩ := rest symbol later
          exact ⟨other, List.mem_cons_of_mem text among, named⟩

/-- The namespaces that an object names in its fields have their names. -/
theorem linkNames_run (lawful : world.symbols.Lawful) (object : Object) :
    ∃ symbols table, (linkNames object).run world =
        (symbols ++ object.name.toList, { world with symbols := table }) ∧
      ∀ symbol ∈ symbols, ∃ text ∈ object.linkTexts, Names symbol text := by
  let fields := if object.info.linksClassFields then
    [(object.getField "superClass" none).toText, (object.getField "class" none).toText] else []
  obtain ⟨symbols, table, ran, named⟩ :=
    mapM_intern_run world lawful (fields.filter fun text => !text.isEmpty)
  refine ⟨symbols, table, ?_, fun symbol member => ?_⟩
  · unfold linkNames
    rw [bind_run, ran]
    rfl
  · obtain ⟨text, among, of⟩ := named symbol member
    refine ⟨text, List.mem_cons_of_mem _ ?_, of⟩
    have within := List.mem_of_mem_filter among
    unfold fields at within
    split at within
    · exact within
    · exact absurd within List.not_mem_nil

/-- A namespace that is put in front of another one is linked to it, or left out. -/
theorem linkStep_adds (id : Nat) (state : Layer × List Layer) (symbol : Symbol) (world : World) :
    Adds (fun layer above => layer = .ofSpace symbol ∧ above = state.1) world
        (linkStep id state symbol) ∧
      (((linkStep id state symbol).run world).1.1 = state.1 ∨
        ((linkStep id state symbol).run world).1.1 = .ofSpace symbol) := by
  have create := createLayer_parents (.ofSpace symbol)
  cases made : (world.spaces.create (.ofSpace symbol)).link (.ofSpace symbol) state.1 with
  | ok spaces =>
      unfold Adds
      rw [linkStep_run_ok made id]
      refine ⟨fun layer above found => ?_, .inr rfl⟩
      rcases Namespaces.parent?_link made found with before | same
      · exact .inl ((congrFun (create world) layer).symm.trans before)
      · exact .inr same
  | error reason =>
      unfold Adds
      rw [linkStep_run_error made id]
      refine ⟨fun layer above found => .inl ?_, .inl rfl⟩
      rw [congrFun (plain_parents.warn _ _) layer] at found
      exact (congrFun (create world) layer).symm.trans found

/-- Namespaces of other names go in front of a namespace of another name. -/
theorem linkSteps_elsewhere (id : Nat) {symbols : List Symbol}
    (others : ∀ symbol ∈ symbols, symbol ≠ name) (state : Layer × List Layer)
    (apart : state.1.space ≠ some name) (world : World) :
    Adds (Elsewhere name) world (symbols.foldlM (linkStep id) state) ∧
      ((symbols.foldlM (linkStep id) state).run world).1.1.space ≠ some name := by
  induction symbols generalizing state world with
  | nil => exact ⟨.of_keeps (.pure state) world, apart⟩
  | cons symbol symbols ih =>
      obtain ⟨other, rest⟩ := List.forall_mem_cons.mp others
      obtain ⟨adds, next⟩ := linkStep_adds id state symbol world
      have still : ((linkStep id state symbol).run world).1.1.space ≠ some name := by
        rcases next with same | new
        · rw [same]
          exact apart
        · rw [new]
          exact space_ne other
      obtain ⟨more, last⟩ := ih rest _ still ((linkStep id state symbol).run world).2
      rw [List.foldlM_cons]
      refine ⟨.bind (adds.mono ?_) more, last⟩
      rintro layer above ⟨rfl, rfl⟩
      exact ⟨fun same => space_ne other (congrArg Layer.space same), apart⟩

/-- Linking the namespaces of an object puts those of some names in front of that of its class. -/
theorem linkObject_eq {id : Nat} {object : Object} {names : List Symbol} {interned : World}
    (found : world.registry.get? id = some object)
    (named : (linkNames object).run world = (names, interned)) {state : Layer × List Layer}
    (linked : (names.foldlM (linkStep id) (object.info.layer, [])).run interned = (state, after)) :
    (linkObject id).run world =
      ((), { after with registry := after.registry.update id fun object =>
        { object with layer := state.1, linked := state.2 } }) := by
  unfold linkObject
  rw [StateT.run_bind, StateT.run_get]
  simp only [pure_bind, found, bind_run, named, linked]
  rfl

/-- The namespace of a name that is not linked at all goes in front of one of another name. -/
theorem linkStep_front (sound : world.spaces.Linked) (last : world.spaces.Last name)
    (free : world.spaces.parent? (.ofSpace name) = none) {state : Layer × List Layer}
    (apart : state.1.space ≠ some name) (named : state.1 ≠ .global) (id : Nat) :
    ((linkStep id state name).run world).1.1 = .ofSpace name := by
  have parents := world.spaces.parent?_create (.ofSpace name)
  have created : (world.spaces.create (.ofSpace name)).Last name := by
    intro layer above found
    exact last layer above ((parents layer).symm.trans found)
  obtain ⟨spaces, made⟩ := created.link_ok
    (sound.of_same parents (world.spaces.holds_create (.ofSpace name)))
    ((parents _).trans free) apart named
  rw [linkStep_run_ok made id]

/-- Namespaces of other names go in front of one of another name, and last that of a given name,
if there is one. -/
theorem linkSteps_naming (world : World) (id : Nat) {symbols : List Symbol}
    (others : ∀ symbol ∈ symbols, symbol ≠ name) {base : Layer} (apart : base.space ≠ some name)
    (named : base ≠ .global) (given : Option Symbol) (sound : world.spaces.Linked) :
    Adds (fun layer above => above.space ≠ some name ∧ (layer = .ofSpace name → given = some name))
        world ((symbols ++ given.toList).foldlM (linkStep id) (base, [])) ∧
      (given ≠ some name →
        (((symbols ++ given.toList).foldlM (linkStep id) (base, [])).run world).1.1.space ≠
          some name) ∧
      (given = some name → world.spaces.Last name →
        world.spaces.parent? (.ofSpace name) = none →
        (((symbols ++ given.toList).foldlM (linkStep id) (base, [])).run world).1.1 =
          .ofSpace name) := by
  by_cases own : given = some name
  · subst own
    -- the own name comes last: all links before it are elsewhere, so it finds its namespace free
    obtain ⟨adds, still⟩ := linkSteps_elsewhere id others (base, []) apart world
    have start : Stacking base world.spaces world.spaces (base, []) := .start sound named
    obtain ⟨_, stacking⟩ := start.steps id symbols
    have split : (symbols ++ (some name).toList).foldlM (linkStep id) (base, []) =
        symbols.foldlM (linkStep id) (base, []) >>= fun state => linkStep id state name := by
      rw [List.foldlM_append]
      refine congrArg _ (funext fun state => ?_)
      rw [Option.toList_some, List.foldlM_cons]
      exact bind_pure _
    rw [split]
    refine ⟨.bind (adds.mono fun layer above elsewhere => ⟨elsewhere.2, fun _ => rfl⟩)
      ((linkStep_adds id _ name _).1.mono ?_), fun absurd => (absurd rfl).elim, ?_⟩
    · rintro layer above ⟨-, rfl⟩
      exact ⟨still, fun _ => rfl⟩
    · intro _ last free
      exact linkStep_front stacking.linked (adds.last (fun _ _ elsewhere => elsewhere.2) last)
        (adds.parent?_eq_none (fun _ elsewhere => elsewhere.1 rfl) free) still stacking.named id
  · have all : ∀ symbol ∈ symbols ++ given.toList, symbol ≠ name := by
      intro symbol member
      rcases List.mem_append.mp member with field | last
      · exact others symbol field
      · rintro rfl
        exact own (Option.mem_toList.mp last)
    obtain ⟨adds, still⟩ := linkSteps_elsewhere id all (base, []) apart world
    refine ⟨adds.mono fun layer above elsewhere => ⟨elsewhere.2, fun same => ?_⟩, fun _ => still,
      fun same => (own same).elim⟩
    exact (elsewhere.1 same).elim

/-- An object puts the namespace of its name in front if that was not linked, and no namespace of
the name if it is called otherwise. -/
theorem linkObject_naming {id : Nat} {object : Object}
    (found : world.registry.get? id = some object) (sound : world.spaces.Linked)
    (lawful : world.symbols.Lawful) (others : ∀ text ∈ object.linkTexts, ¬ Names name text) :
    ∃ layer linked,
      ((linkObject id).run world).2.registry =
          world.registry.update id (fun object => { object with layer, linked }) ∧
        Adds (fun layer above => above.space ≠ some name ∧
          (layer = .ofSpace name → object.name = some name)) world (linkObject id) ∧
        (object.name ≠ some name → layer.space ≠ some name) ∧
        (object.name = some name → world.spaces.Last name →
          world.spaces.parent? (.ofSpace name) = none → layer = .ofSpace name) := by
  obtain ⟨symbols, table, ran, named⟩ := linkNames_run lawful object
  have otherSymbols : ∀ symbol ∈ symbols, symbol ≠ name := by
    rintro symbol member rfl
    obtain ⟨text, among, of⟩ := named _ member
    exact others text among of
  have otherClass : object.info.layer.space ≠ some name := by
    refine space_ne fun same => others object.info.name.text List.mem_cons_self ?_
    rw [same]
    rfl
  let interned : World := { world with symbols := table }
  have keeps : Keeps World.registry
      ((symbols ++ object.name.toList).foldlM (linkStep id) (object.info.layer, [])) :=
    Keeps.composes.foldlM (apart_registry.links.linkStep id) _
  have registry := keeps interned
  rcases linked : ((symbols ++ object.name.toList).foldlM (linkStep id)
      (object.info.layer, [])).run interned with ⟨state, after⟩
  rw [linked] at registry
  have whole := linkObject_eq found ran linked
  obtain ⟨adds, apart, own⟩ := linkSteps_naming interned id otherSymbols otherClass
    (Namespaces.ofSpace_ne_global object.info.name) object.name sound
  rw [linked] at apart own
  refine ⟨state.1, state.2, ?_, ?_, apart, own⟩
  · rw [whole]
    exact congrArg (fun registry : Registry => registry.update id _) registry
  · intro layer above found
    rw [whole] at found
    refine adds layer above ?_
    rw [linked]
    exact found

/-- The object that a draft becomes when it is registered under a name, without namespaces yet. -/
def entering (world : World) (draft : Draft) (text : String) : Object :=
  let symbol := ((internNonempty text).run world).1
  { draft.object with
    id := (world.registry.register draft symbol).1.1
    name := world.registry.givenName symbol }

/-- An object that is registered has the namespace of its name in front if that was not linked, and
no namespace of the name if it is called otherwise. -/
theorem enter_naming (reachable : world.Reachable) {draft : Draft} {text : String}
    (others : ∀ called ∈ (world.entering draft text).linkTexts, ¬ Names name called) :
    ∃ object, ((enter draft text).run world).2.registry.get? ((enter draft text).run world).1 =
        some object ∧
      (((enter draft text).run world).2.registry.findName? name =
          some ((enter draft text).run world).1 ↔ object.name = some name) ∧
      Adds (fun layer above => above.space ≠ some name ∧
        (layer = .ofSpace name → object.name = some name)) world (enter draft text) ∧
      (object.name ≠ some name → object.layer.space ≠ some name) ∧
      (object.name = some name → world.spaces.Last name →
        world.spaces.parent? (.ofSpace name) = none → object.layer = .ofSpace name) := by
  obtain ⟨_, history⟩ := reachable.history
  have later : ((enter draft text).run world).2.Reachable :=
    reachable.evolves (.single ⟨_, _, .enter draft text, rfl⟩)
  obtain ⟨symbol, between, rfl, same, symbols, ran⟩ := enter_run draft text world
  obtain ⟨registered, spaces⟩ := Prod.mk.inj same
  have own : between.registry.get? (world.entering draft text).id =
      some (world.entering draft text) := by
    rw [registered]
    exact (world.registry.get?_register draft _ _).trans (if_pos rfl)
  have interned : between.symbols.Lawful := by
    rw [symbols]
    exact (extends_internNonempty text world (.refl world.symbols)).lawful reachable.keyed.lawful
  have sound : between.spaces.Linked := by
    rw [spaces]
    exact history.held.linked
  obtain ⟨layer, linked, registry, adds, apart, front⟩ :=
    linkObject_naming own sound interned others
  rw [spaces] at front
  have number : ((enter draft text).run world).1 = (world.entering draft text).id := by
    rw [ran]
    rfl
  have entered : ((enter draft text).run world).2.registry.get? (world.entering draft text).id =
      some { world.entering draft text with layer, linked } := by
    rw [ran]
    change ((linkObject (world.entering draft text).id).run between).2.registry.get? _ = _
    rw [registry, Registry.get?_update, if_pos rfl, own]
    rfl
  rw [number]
  refine ⟨{ world.entering draft text with layer, linked }, entered, ⟨fun leads => ?_, ?_⟩, ?_,
    apart, front⟩
  · obtain ⟨object, found, named⟩ := later.sound.named name _ leads
    rw [entered] at found
    obtain rfl := Option.some.inj found
    exact named
  · exact later.tidy.owned _ _ name entered
  · intro upper above found
    rw [ran] at found
    rcases adds upper above found with before | new
    · rw [spaces] at before
      exact .inl before
    · exact .inr new

end Enter

section History

/-- A basic change does not use the namespace of a name, unless for an object that has the name: it
links the namespace to no other one by name, registers no class of the name and no object of a
class, or with a class in a field, of the name. -/
inductive Sparing (name : Symbol) (world : World) : {α : Type} → WorldM α → Prop where
  | linkNamespaces {child parent : String} (others : ¬ Names name child ∧ ¬ Names name parent) :
      Sparing name world (World.linkNamespaces child parent)
  | registerClass {spec : ClassSpec} (other : ¬ Names name spec.name) :
      Sparing name world (World.registerClass spec)
  | enter {draft : Draft} {text : String}
      (others : ∀ called ∈ (world.entering draft text).linkTexts, ¬ Names name called) :
      Sparing name world (World.enter draft text)
  | remove (id : Nat) : Sparing name world (World.remove id)
  | other {α : Type} {change : WorldM α} (basic : Basic change) (links : Keeps linkage change)
      (classes : Keeps World.classes change) : Sparing name world change

theorem Sparing.basic {change : WorldM α} (sparing : Sparing name world change) : Basic change := by
  cases sparing with
  | linkNamespaces others => exact .linkNamespaces _ _
  | registerClass other => exact .registerClass _
  | enter others => exact .enter _ _
  | remove id => exact .remove id
  | other basic links classes => exact basic

/-- A basic change that makes no links uses no namespaces. -/
theorem Basic.sparing {change : WorldM α} (basic : Basic change) :
    Relinks change ∨ ∀ name world, Sparing name world change := by
  rcases basic.keeps_linkage with links | relinks
  · rcases basic.mild_or_major with mild | major
    · exact .inr fun _ _ => .other basic links mild.classes
    · cases major with
      | define layer symbol target => exact .inr fun _ _ => .other basic links fun _ => rfl
      | registerClass spec => exact .inl (.registerClass spec)
      | enter draft text => exact .inl (.enter draft text)
      | copyFields id source => exact .inr fun _ _ => .other basic links fun _ => rfl
  · exact .inl relinks

/-- The namespace of a name is used for objects of the name alone. -/
structure Clear (name : Symbol) (world : World) : Prop where
  reachable : world.Reachable
  last : world.spaces.Last name
  classless : world.Classless name

/-- Where no class has a name, none has it after a class of another name was registered. -/
theorem classless_registerClass (keyed : world.Keyed) (classless : world.Classless name)
    {spec : ClassSpec} (other : ¬ Names name spec.name) :
    ((World.registerClass spec).run world).2.Classless name := by
  intro symbol info found
  rcases registerClass_cases keyed spec with ⟨_, same⟩ | ⟨_, inserted⟩
  · exact classless symbol info ((congrArg (·[symbol]?) same).symm.trans found)
  · have found := (congrArg (·[symbol]?) inserted).symm.trans found
    rw [Std.TreeMap.getElem?_insert] at found
    split at found
    · obtain rfl := Option.some.inj found
      exact ne_of_not_names keyed.lawful other
    · exact classless symbol info found

theorem Classless.of_classes (classless : world.Classless name)
    (same : after.classes = world.classes) : after.Classless name :=
  fun symbol info found => classless symbol info ((congrArg (·[symbol]?) same).symm.trans found)

/-- The links that a sparing change makes are to other namespaces, and of the namespace of the name
only for an object that gets the name. -/
theorem Sparing.adds {change : WorldM α} (sparing : Sparing name world change)
    (clear : world.Clear name) :
    Adds (fun layer above => above.space ≠ some name ∧
      (layer = .ofSpace name → (change.run world).2.registry.findName? name ≠ none))
      world change := by
  have keyed := clear.reachable.keyed
  have elsewhere {layer above : Layer} (apart : Elsewhere name layer above) :
      above.space ≠ some name ∧
        (layer = .ofSpace name → (change.run world).2.registry.findName? name ≠ none) :=
    ⟨apart.2, fun same => (apart.1 same).elim⟩
  cases sparing with
  | linkNamespaces others =>
      exact (linkNamespaces_elsewhere keyed.lawful others).mono fun _ _ => elsewhere
  | registerClass other =>
      exact (registerClass_elsewhere keyed.lawful clear.classless other).mono fun _ _ => elsewhere
  | enter others =>
      obtain ⟨object, _, leads, adds, _⟩ := enter_naming clear.reachable others
      refine adds.mono fun layer above ⟨apart, own⟩ => ⟨apart, fun same => ?_⟩
      rw [leads.mpr (own same)]
      exact Option.some_ne_none _
  | remove id =>
      intro layer above found
      rw [remove_run] at found
      exact .inl (Namespaces.parent?_foldl_unlink _ found)
  | other basic links classes =>
      exact .of_keeps (fun world => (Prod.mk.inj (Prod.mk.inj (links world)).2).1) world

/-- A sparing change keeps the namespace clear. -/
theorem Sparing.clear {change : WorldM α} (sparing : Sparing name world change)
    (clear : world.Clear name) : (change.run world).2.Clear name where
  reachable := clear.reachable.evolves (.single ⟨_, _, sparing.basic, rfl⟩)
  last := (sparing.adds clear).last (fun _ _ new => new.1) clear.last
  classless := by
    cases sparing with
    | linkNamespaces others =>
        exact clear.classless.of_classes ((Mild.linkNamespaces _ _).classes world)
    | registerClass other =>
        exact classless_registerClass clear.reachable.keyed clear.classless other
    | enter others => exact clear.classless.of_classes (enter_classes _ _ world)
    | remove id => exact clear.classless.of_classes ((Mild.remove id).classes world)
    | other basic links classes => exact clear.classless.of_classes (classes world)

/-- A world comes about in which no object ever had a name, and its namespace was not used. -/
inductive Unused (name : Symbol) : World → Prop where
  | new (config : Config) (serial : Nat)
      (others : ∀ spec ∈ builtinClasses, ¬ Names name spec.name) : Unused name (.new config serial)
  | step {world : World} {α : Type} {change : WorldM α} (earlier : Unused name world)
      (sparing : Sparing name world change)
      (free : (change.run world).2.registry.findName? name = none) :
      Unused name (change.run world).2

/-- While an object is live, the namespace of a name is used for objects of the name alone. -/
inductive Lasts (name : Symbol) (id : Nat) (world : World) : World → Prop where
  | refl : Lasts name id world world
  | step {after : World} {α : Type} {change : WorldM α} (earlier : Lasts name id world after)
      (sparing : Sparing name after change)
      (live : (change.run after).2.registry.contains id = true) :
      Lasts name id world (change.run after).2

/-- Built-in functions are registered without links. -/
theorem registerBuiltin_parents (spec : BuiltinSpec) :
    Keeps (fun world => world.spaces.parent?) (registerBuiltin spec) := by
  have rest (space : Option Symbol) : Keeps (fun world => world.spaces.parent?) (do
      World.define ⟨space, none⟩ (← World.intern spec.name)
        (.native spec.className.isSome spec.arity (.builtin spec.builtin)) : WorldM Unit) :=
    .bind (plain_parents.intern _) fun symbol world =>
      (Prod.mk.inj (Prod.mk.inj (define_linkage ⟨space, none⟩ symbol _ world)).2).1
  refine .bind ?_ rest
  cases spec.className with
  | none => exact .pure none
  | some space => exact .bind (plain_parents.intern space) fun _ => .pure _

/-- No class and no link of namespaces uses the namespace of a name. -/
structure Spared (name : Symbol) (world : World) : Prop where
  keyed : world.Keyed
  classless : world.Classless name
  links : ∀ layer above, world.spaces.parent? layer = some above → Elsewhere name layer above

/-- In a new console only the namespaces of built-in classes are used. -/
theorem spared_new (config : Config) (serial : Nat)
    (others : ∀ spec ∈ builtinClasses, ¬ Names name spec.name) :
    Spared name (.new config serial) := by
  refine new_induct config serial ?_ ?_ ?_
  · refine ⟨keyed_bare config serial, fun symbol info found => ?_, fun layer above found => ?_⟩
    · exact absurd found (by simp [bare, Registry.empty])
    · exact absurd found (by simp [bare, Namespaces.parent?_empty])
  · rintro spec member world ⟨keyed, classless, links⟩
    refine ⟨keyed_registerClass spec world keyed,
      classless_registerClass keyed classless (others spec member), fun layer above found => ?_⟩
    rcases registerClass_elsewhere keyed.lawful classless (others spec member) layer above found
      with before | new
    · exact links layer above before
    · exact new
  · rintro spec world ⟨keyed, classless, links⟩
    have ordered := ordered_registerBuiltin False spec world
    refine ⟨ordered.keyed keyed, classless.of_classes ordered.classes, fun layer above found => ?_⟩
    exact links layer above ((congrFun (registerBuiltin_parents spec world) layer).symm.trans found)

/-- The namespace of an unused name is not linked. -/
theorem Unused.clear (unused : Unused name world) :
    world.Clear name ∧ world.spaces.parent? (.ofSpace name) = none := by
  induction unused with
  | new config serial others =>
      have spared := spared_new config serial others
      refine ⟨⟨.new config serial, fun layer above found => (spared.links layer above found).2,
        spared.classless⟩, ?_⟩
      exact Option.eq_none_iff_forall_ne_some.mpr fun above found =>
        (spared.links _ above found).1 rfl
  | @step world _ change earlier sparing free ih =>
      obtain ⟨clear, none⟩ := ih
      -- a link of the namespace would be that of an object with the name, and there is none
      exact ⟨sparing.clear clear,
        (sparing.adds clear).parent?_eq_none (fun _ new => new.2 rfl free) none⟩

/-- While an object lasts, its links stay what they were, and the namespace stays clear. -/
theorem Lasts.object {id : Nat} (lasts : world.Lasts name id after) (clear : world.Clear name)
    {object : Object} (found : world.registry.get? id = some object) :
    after.Clear name ∧
      ∃ later, after.registry.get? id = some later ∧ later.links = object.links := by
  induction lasts with
  | refl => exact ⟨clear, object, found, rfl⟩
  | step _ sparing live ih =>
      obtain ⟨clear, before, there, same⟩ := ih
      obtain ⟨later, still⟩ := Registry.get?_of_contains live
      obtain ⟨_, history⟩ := clear.reachable.history
      refine ⟨sparing.clear clear, later, still, ?_⟩
      have kept := Step.links ⟨_, _, sparing.basic, rfl⟩ history.held.linked there still
      exact kept.trans same

/-- Where the namespace of a name is used for objects of the name alone and no object had it before,
an object has the functions of the namespace just if it got the name when it was registered,
whatever it is called later. So these functions follow the name just if the object never gave up
the name that it was registered with, and never took it later. -/
theorem functions_of_first_name {start between : World} (unused : Unused name start)
    {draft : Draft} {text : String} {id : Nat}
    (others : ∀ called ∈ (start.entering draft text).linkTexts, ¬ Names name called)
    (entered : (enter draft text).run start = (id, between))
    (lasts : between.Lasts name id after) :
    ∃ object, after.registry.get? id = some object ∧
      (∀ method entry withGlobal,
        after.spaces.findIn? method (after.spaces.layersOf (.ofSpace name)) = some entry →
          (after.spaces.resolve? object.layer method withGlobal = some entry ↔
            between.registry.findName? name = some id) ∧
          ((after.spaces.resolve? object.layer method withGlobal = some entry ↔
              object.name = some name) ↔
            (object.name = some name ↔ between.registry.findName? name = some id))) ∧
      (between.registry.findName? name ≠ some id → ∀ method entry withGlobal,
        after.spaces.resolve? object.layer method withGlobal = some entry →
          entry.layer.space ≠ some name) := by
  obtain ⟨clear, free⟩ := unused.clear
  obtain ⟨object, found, leads, -, apart, front⟩ := enter_naming clear.reachable others
  have cleared := (Sparing.enter others).clear clear
  rw [entered] at found leads cleared
  obtain ⟨still, later, there, links⟩ := lasts.object cleared found
  obtain ⟨_, history⟩ := still.reachable.history
  have layer : later.layer = object.layer := congrArg (fun links => links.2.1) links
  have outside (other : between.registry.findName? name ≠ some id) {method : Symbol}
      {entry : Entry Callable} {withGlobal : Bool}
      (resolved : after.spaces.resolve? later.layer method withGlobal = some entry) :
      entry.layer.space ≠ some name := by
    rw [layer] at resolved
    exact still.last.not_found history.held.linked (apart (mt leads.mpr other)) resolved
  refine ⟨later, there, fun method entry withGlobal defined => ?_, fun other _ _ _ => outside other⟩
  have follows : after.spaces.resolve? later.layer method withGlobal = some entry ↔
      between.registry.findName? name = some id := by
    refine ⟨fun resolved => ?_, fun named => ?_⟩
    · by_contra other
      refine outside other resolved ?_
      obtain ⟨-, before, behind, split, -, -⟩ := Namespaces.findIn?_eq_some_iff.mp defined
      have member : entry.layer ∈ after.spaces.layersOf (.ofSpace name) := by
        rw [split]
        exact List.mem_append_right _ List.mem_cons_self
      exact Namespaces.space_of_mem_layersOf member
    · rw [layer, front (leads.mp named) clear.last free]
      exact Namespaces.resolve?_own history.held.linked defined withGlobal
  refine ⟨follows, ?_⟩
  rw [follows]
  exact Iff.comm

section Sample

/-- The name of the sample. -/
private def foo : Symbol :=
  ⟨0, false, "Foo"⟩

private def bark : Symbol :=
  ⟨0, false, "bark"⟩

/-- A function without statements. -/
private def silentFunction : Callable :=
  .script "" ⟨⟨0, .start, .start⟩, some foo, bark, [], ⟨⟨0, .start, .start⟩, []⟩⟩

@[irreducible] private def freshWorld : World :=
  .new {} 0

/-- An object that a script can create. -/
@[irreducible] private def sampleDraft : Draft :=
  (freshWorld.newObject? "ScriptObject").getD
    (.ofClass (.ofSpec (.plain "ScriptObject") foo none))

/-- A new console in which an object is registered, with the number of the object. -/
@[irreducible] private def registeredAs (text : String) : Nat × World :=
  (enter sampleDraft text).run freshWorld

/-- After that the object is renamed. -/
@[irreducible] private def renamedTo (first second : String) : World :=
  ((rename (registeredAs first).1 second).run (registeredAs first).2).2

/-- After that a function is defined for the name of the sample. -/
@[irreducible] private def definedFor (first second : String) : World :=
  ((define (.ofSpace foo) bark silentFunction).run (renamedTo first second)).2

/-- The name of the object in the end, and whether the function is defined, the object has it, the
object got the name of the sample when it was registered, and it names the sample otherwise. -/
private def sampleFacts (first second : String) :
    Option (Option Symbol × Bool × Bool × Bool × Bool) :=
  ((definedFor first second).registry.get? (registeredAs first).1).map fun object =>
    (object.name,
      ((definedFor first second).spaces.findIn? bark
        ((definedFor first second).spaces.layersOf (.ofSpace foo))).isSome,
      ((definedFor first second).functionIn? object.layer bark).isSome,
      (registeredAs first).2.registry.findName? foo = some (registeredAs first).1,
      (freshWorld.entering sampleDraft first).linkTexts.any fun called =>
        Text.fold called = Text.fold foo.text)

private theorem sampleFacts_away :
    sampleFacts "Foo" "Bar" = some (some ⟨0, false, "Bar"⟩, true, true, true, false) := by
  decide +kernel

private theorem sampleFacts_towards :
    sampleFacts "Bar" "Foo" = some (some foo, true, false, false, false) := by
  decide +kernel

private theorem unused_foo : Unused foo freshWorld := by
  unfold freshWorld
  refine .new {} 0 ?_
  unfold Names
  decide

/-- The later steps of the sample use the name for the object alone. -/
private theorem sample_lasts {first second : String}
    {facts : Option Symbol × Bool × Bool × Bool × Bool}
    (some : sampleFacts first second = some facts) :
    (registeredAs first).2.Lasts foo (registeredAs first).1 (definedFor first second) := by
  obtain ⟨object, found, -⟩ := Option.map_eq_some_iff.mp some
  have live := Registry.contains_of_get? found
  unfold definedFor at live ⊢
  have renamed : (renamedTo first second).registry.contains (registeredAs first).1 = true := live
  unfold renamedTo at renamed live ⊢
  exact .step (.step .refl (.other (.rename _ _) (rename_linkage _ _) (Mild.rename _ _).classes)
    renamed) (.other (.define _ _ _) (define_linkage _ _ _) fun _ => rfl) live

/-- The object of the sample does not use the name when it is registered, unless as its own. -/
private theorem sample_others {first second : String} {name : Option Symbol}
    {defined has given : Bool}
    (facts : sampleFacts first second = some (name, defined, has, given, false)) :
    (∀ called ∈ (freshWorld.entering sampleDraft first).linkTexts, ¬ Names foo called) ∧
      (enter sampleDraft first).run freshWorld =
        ((registeredAs first).1, (registeredAs first).2) := by
  obtain ⟨object, -, facts⟩ := Option.map_eq_some_iff.mp facts
  simp only [Prod.mk.injEq] at facts
  refine ⟨fun called member same => ?_, ?_⟩
  · exact List.any_eq_false.mp facts.2.2.2.2 called member (decide_eq_true same)
  · unfold registeredAs
    exact Prod.mk.eta.symm

/-- A renamed object still has the functions of the name that it was registered with. -/
theorem functions_of_first_name_kept :
    ∃ object entry,
      (definedFor "Foo" "Bar").registry.get? (registeredAs "Foo").1 = some object ∧
        object.name = some ⟨0, false, "Bar"⟩ ∧
        (definedFor "Foo" "Bar").spaces.findIn? bark
          ((definedFor "Foo" "Bar").spaces.layersOf (.ofSpace foo)) = some entry ∧
        (definedFor "Foo" "Bar").spaces.resolve? object.layer bark true = some entry := by
  obtain ⟨others, entered⟩ := sample_others sampleFacts_away
  obtain ⟨object, found, facts⟩ := Option.map_eq_some_iff.mp sampleFacts_away
  simp only [Prod.mk.injEq, decide_eq_true_eq] at facts
  obtain ⟨name, defined, -, named, -⟩ := facts
  obtain ⟨entry, there⟩ := Option.isSome_iff_exists.mp defined
  obtain ⟨later, still, follows, -⟩ :=
    functions_of_first_name unused_foo others entered (sample_lasts sampleFacts_away)
  rw [found] at still
  obtain rfl := Option.some.inj still
  exact ⟨object, entry, found, name, there, (follows bark entry true there).1.mpr named⟩

/-- An object that is renamed does not get the functions of its name. -/
theorem renamed_lacks_functions :
    ∃ name start draft text id between after object method entry, Unused name start ∧
      (∀ called ∈ (start.entering draft text).linkTexts, ¬ Names name called) ∧
      (enter draft text).run start = (id, between) ∧ between.Lasts name id after ∧
      after.registry.get? id = some object ∧ object.name = some name ∧
      after.spaces.findIn? method (after.spaces.layersOf (.ofSpace name)) = some entry ∧
      after.functionIn? object.layer method = none := by
  obtain ⟨others, entered⟩ := sample_others sampleFacts_towards
  obtain ⟨object, found, facts⟩ := Option.map_eq_some_iff.mp sampleFacts_towards
  simp only [Prod.mk.injEq, Option.isSome_eq_false_iff, Option.isNone_iff_eq_none] at facts
  obtain ⟨name, defined, lacks, -⟩ := facts
  obtain ⟨entry, there⟩ := Option.isSome_iff_exists.mp defined
  exact ⟨foo, freshWorld, sampleDraft, "Bar", _, _, _, object, bark, entry, unused_foo, others,
    entered, sample_lasts sampleFacts_towards, found, name, there, lacks⟩

end Sample

end History

end World

end ScriptConsole
