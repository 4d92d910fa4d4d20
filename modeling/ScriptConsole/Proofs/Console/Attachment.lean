import ScriptConsole.Proofs.Console.Stacking
import ScriptConsole.Proofs.Objects.Removal

/-! # Namespaces of objects over whole histories

In every world that comes about, the namespaces that a live object linked are a stack on
that of its class. The link of a namespace is held as often as it occurs among those of
live objects and was made by registering a class or by linking two namespaces by name
(`ScriptConsole.World.Held`). So no object gives up a link that another one needs.
-/

namespace ScriptConsole

/-- The namespaces that an object linked are a stack on that of its class, and searches
for its methods start at the front of the stack. -/
structure Object.Attached {ε : Type} (spaces : Namespaces ε) (object : Object) : Prop where
  stack : spaces.IsStack object.info.layer object.linked
  front : object.layer = Namespaces.front object.info.layer object.linked

namespace World

section History

/-- The namespace that linking two namespaces by name links, if it does. -/
def linkedByName (child parent : String) (world : World) : List Layer :=
  match ((linkNamespaces child parent).run world).1 with
  | .ok _ => [.ofSpace (world.symbols.intern child).1]
  | .error _ => []

/-- The namespace that registering a class links to that of its parent class, if it does. -/
def linkedByClass (spec : ClassSpec) (world : World) : List Layer :=
  let (name, symbols) := world.symbols.intern spec.name
  let layer := Layer.ofSpace name
  let parent := spec.parent.bind fun parent =>
    world.registry.classes[(symbols.intern parent).1]?
  if world.registry.classes.contains name then []
  else parent.elim [] fun parent =>
    if ((world.spaces.create layer).link layer parent.layer).isOk then [layer] else []

/-- The basic changes that link namespaces for good, with the namespace that they link in
a world. -/
inductive Linking : {α : Type} → WorldM α → (World → List Layer) → Prop where
  | linkNamespaces (child parent : String) :
      Linking (World.linkNamespaces child parent) (linkedByName child parent)
  | registerClass (spec : ClassSpec) : Linking (World.registerClass spec) (linkedByClass spec)

/-- A world comes about by basic changes, which link the given namespaces for good. -/
inductive History : World → List Layer → Prop where
  | bare (config : Config) (serial : Nat) : History (.bare config serial) []
  | linking {world : World} {made : List Layer} {α : Type} {change : WorldM α}
      {links : World → List Layer} (earlier : History world made)
      (linking : Linking change links) : History (change.run world).2 (links world ++ made)
  | other {world : World} {made : List Layer} {α : Type} {change : WorldM α}
      (earlier : History world made) (basic : Basic change)
      (other : ∀ links, ¬ Linking change links) : History (change.run world).2 made

/-- Whatever happens to a world with a history adds to its history. -/
theorem History.evolves {world after : World} {made : List Layer} (history : History world made)
    (evolves : world.Evolves after) : ∃ more, History after (more ++ made) := by
  induction evolves with
  | refl => exact ⟨[], history⟩
  | tail _ step ih =>
      obtain ⟨more, earlier⟩ := ih
      obtain ⟨_, change, basic, rfl⟩ := step
      by_cases linking : ∃ links, Linking change links
      · obtain ⟨links, linking⟩ := linking
        exact ⟨links _ ++ more, List.append_assoc _ more made ▸ earlier.linking linking⟩
      · exact ⟨more, earlier.other basic fun links linked => linking ⟨links, linked⟩⟩

/-- Every world that comes about has a history. -/
theorem Reachable.history {world : World} (reachable : world.Reachable) :
    ∃ made, History world made := by
  obtain ⟨config, serial, evolves⟩ := reachable
  have whole : (World.bare config serial).Evolves world :=
    (built_registerLibrary.evolves (.bare config serial)).trans evolves
  obtain ⟨more, history⟩ := (History.bare config serial).evolves whole
  exact ⟨more ++ [], history⟩

end History

/-- What holds of the namespaces of a world in whose history the given ones were linked
for good. -/
structure Held (made : List Layer) (world : World) : Prop where
  linked : world.spaces.Linked
  attached : ∀ id object, world.registry.get? id = some object → object.Attached world.spaces
  counted : ∀ layer,
    world.spaces.holds layer = world.registry.occurrences layer + made.count layer

/-- What a world shows of the links of its objects and namespaces. -/
def linkage (world : World) :
    (Nat → Option (Layer × Layer × List Layer)) × (Layer → Option Layer) × (Layer → Nat) :=
  (world.registry.links?, world.spaces.parent?, world.spaces.holds)

theorem plain_linkage : Plain linkage :=
  ⟨fun _ _ => rfl, fun _ _ => rfl⟩

/-- An object with the same links in a table that kept its stack. -/
theorem attached_of_links {before after : Namespaces Callable} {object other : Object}
    (attached : object.Attached before) (same : other.links = object.links)
    (kept : ∀ layer ∈ object.linked, ∀ parent,
      before.parent? layer = some parent → after.parent? layer = some parent) :
    other.Attached after := by
  obtain ⟨info, pair⟩ := Prod.mk.inj same
  obtain ⟨layer, linked⟩ := Prod.mk.inj pair
  refine ⟨?_, ?_⟩
  · rw [info, linked]
    exact attached.stack.of_kept kept
  · rw [info, layer, linked]
    exact attached.front

/-- A live object of a registry that shows the same links was live with these links. -/
theorem exists_of_links? {before after : Registry} {id : Nat} {object : Object}
    (same : after.links? id = before.links? id) (found : after.get? id = some object) :
    ∃ earlier, before.get? id = some earlier ∧ object.links = earlier.links := by
  rw [Registry.links?_of_get? found, Registry.links?] at same
  obtain ⟨earlier, live, links⟩ := Option.map_eq_some_iff.mp same.symm
  exact ⟨earlier, live, links.symm⟩

namespace Held

variable {world after : World} {made : List Layer}

/-- Whether links are held as often as they are made depends on what objects and namespaces are
linked to alone. -/
theorem of_linkage (same : linkage after = linkage world) (held : Held made world) :
    Held made after := by
  obtain ⟨links, pair⟩ := Prod.mk.inj same
  obtain ⟨parents, holds⟩ := Prod.mk.inj pair
  constructor
  case linked => exact held.linked.of_same (congrFun parents) (congrFun holds)
  case attached =>
    intro id object found
    obtain ⟨earlier, live, own⟩ := exists_of_links? (congrFun links id) found
    refine attached_of_links (held.attached id earlier live) own ?_
    intro layer _ parent above
    rw [parents, above]
  case counted =>
    intro layer
    rw [holds, held.counted layer, Registry.occurrences_congr (congrFun links)]

theorem createLayer (held : Held made world) (layer : Layer) :
    Held made { world with spaces := world.spaces.create layer } := by
  refine held.of_linkage ?_
  have parents : (world.spaces.create layer).parent? = world.spaces.parent? :=
    funext (world.spaces.parent?_create layer)
  have holds : (world.spaces.create layer).holds = world.spaces.holds :=
    funext (world.spaces.holds_create layer)
  unfold linkage
  rw [parents, holds]

/-- A namespace that is linked for good is held once more. -/
theorem link (held : Held made world) {child parent : Layer} {spaces : Namespaces Callable}
    (present : world.spaces.contains child = true) (below : parent ≠ .global)
    (linked : world.spaces.link child parent = .ok spaces) :
    Held (child :: made) { world with spaces } := by
  obtain ⟨sound, _, kept, holds⟩ := Namespaces.link_views held.linked present below linked
  refine ⟨sound, ?_, ?_⟩
  · intro id object found
    exact attached_of_links (held.attached id object found) rfl fun layer _ => kept layer
  · intro layer
    have before := held.counted layer
    rw [holds, before]
    simp only [List.count_cons, List.count_nil, Nat.zero_add, Nat.add_assoc]

end Held

namespace Held

variable {world : World} {made : List Layer}

/-- A registered object holds the namespaces that were put in front of its class. -/
theorem enter (held : Held made world) (draft : Draft) (name : String) :
    Held made ((World.enter draft name).run world).2 := by
  obtain ⟨id, layer, linked, object, links, free, own, others, stacking⟩ :=
    enter_views held.linked draft name
  obtain ⟨base, pair⟩ := Prod.mk.inj links
  obtain ⟨start, noted⟩ := Prod.mk.inj pair
  refine ⟨stacking.linked, ?_, ?_⟩
  · intro other entry found
    by_cases same : id = other
    · rw [← same, own] at found
      obtain rfl := Option.some.inj found
      refine ⟨?_, ?_⟩
      · rw [base, noted]
        exact stacking.stack
      · rw [base, start, noted]
        exact stacking.front
    · obtain ⟨earlier, live, kept⟩ := exists_of_links? (others other same) found
      exact attached_of_links (held.attached other earlier live) kept
        fun layer _ => stacking.kept layer
  · intro layer
    have holds : ((World.enter draft name).run world).2.spaces.holds layer =
        world.spaces.holds layer + linked.count layer := stacking.holds layer
    have before := held.counted layer
    have total := Registry.occurrences_add others layer
    rw [Registry.linked_of_get? own, noted, Registry.linked_of_not_live free,
      List.count_nil] at total
    omega

/-- A removed object gives up what it held, and nothing that another object needs. -/
theorem remove (held : Held made world) (id : Nat) :
    Held made ((World.remove id).run world).2 := by
  have own : ((world.registry.get? id).elim [] fun object => object.linked) =
      world.registry.linked id := by
    unfold Registry.linked Registry.links?
    cases world.registry.get? id <;> rfl
  have others (other : Nat) (different : id ≠ other) :
      (world.registry.removed id).links? other = world.registry.links? other := by
    rw [Registry.links?_removed, if_neg different]
  have gone : (world.registry.removed id).linked id = [] := by
    apply Registry.linked_of_not_live
    rw [Registry.links?_removed, if_pos rfl]
  have total (layer : Layer) := Registry.occurrences_add others layer
  obtain ⟨sound, holds, parents⟩ := held.linked.foldl_unlink (world.registry.linked id)
  rw [remove_run, own]
  refine ⟨sound, ?_, ?_⟩
  · intro other object found
    have different : id ≠ other := by
      rintro rfl
      rw [Registry.get?_removed, if_pos rfl] at found
      contradiction
    obtain ⟨earlier, live, kept⟩ := exists_of_links? (others other different) found
    have listed : object.linked = earlier.linked := congrArg (fun links => links.2.2) kept
    refine attached_of_links (held.attached other earlier live) kept ?_
    intro layer member parent above
    -- What the removed object gives up is counted apart from what this one holds.
    have needed : 0 < object.linked.count layer := by
      rw [listed]
      exact List.count_pos_iff.mpr member
    have counted : object.linked.count layer ≤ (world.registry.removed id).occurrences layer :=
      Registry.count_le_occurrences found layer
    have before := held.counted layer
    have sum := total layer
    rw [gone, List.count_nil] at sum
    rw [parents layer (by omega), above]
  · intro layer
    have before := held.counted layer
    have sum := total layer
    rw [gone, List.count_nil] at sum
    simp only [holds]
    omega

/-- Linking two namespaces by name holds the link for good if it is made. -/
theorem linkNamespaces (held : Held made world) (child parent : String) :
    Held (linkedByName child parent world ++ made)
      ((World.linkNamespaces child parent).run world).2 := by
  let below := Layer.ofSpace (world.symbols.intern child).1
  let above := Layer.ofSpace ((world.symbols.intern child).2.intern parent).1
  let created : World :=
    { world with
      symbols := ((world.symbols.intern child).2.intern parent).2
      spaces := (world.spaces.create below).create above }
  have ran : (World.linkNamespaces child parent).run world =
      (World.link below above).run created := rfl
  have same : linkage created = linkage
      { world with spaces := (world.spaces.create below).create above } := rfl
  have ready : Held made created :=
    ((held.createLayer below).createLayer above).of_linkage same
  have present : created.spaces.contains below = true := by
    have first := create_contains world.spaces below
    unfold Namespaces.contains at first ⊢
    exact Std.TreeMap.contains_insertIfNew.trans (by rw [first, Bool.or_true])
  unfold linkedByName
  rw [ran]
  cases linked : created.spaces.link below above with
  | ok spaces =>
      rw [link_run_ok linked]
      exact ready.link present (Namespaces.ofSpace_ne_global _) linked
  | error reason =>
      rw [link_run_error linked]
      exact ready

/-- Entering a class below another one holds the link for good if it is made. -/
theorem addClass (held : Held made world) (spec : ClassSpec) (name : Symbol)
    (parent : ClassInfo) :
    Held ((if ((world.spaces.create (.ofSpace name)).link (.ofSpace name) parent.layer).isOk then
        [.ofSpace name] else []) ++ made)
      ((World.addClass spec name (some parent)).run world).2 := by
  let created : World := { world with spaces := world.spaces.create (.ofSpace name) }
  let entered (after : World) : World :=
    { after with registry.classes :=
        after.registry.classes.insert name (.ofSpec spec name (some parent)) }
  have unseen (after : World) : linkage (entered after) = linkage after := rfl
  have ready : Held made created := held.createLayer (.ofSpace name)
  cases linked : created.spaces.link (.ofSpace name) parent.layer with
  | ok spaces =>
      have ran : ((World.addClass spec name (some parent)).run world).2 =
          entered { created with spaces } := by
        unfold World.addClass
        rw [StateT.run_bind]
        change (((World.link (.ofSpace name) parent.layer) >>= _).run created).2 = _
        rw [StateT.run_bind, link_run_ok linked]
        rfl
      rw [ran]
      have more : Held (.ofSpace name :: made) { created with spaces } :=
        ready.link (create_contains _ _) (Namespaces.ofSpace_ne_global parent.name) linked
      exact more.of_linkage (unseen _)
  | error reason =>
      let warning := "register_class: " ++ reason.message ++ " for class '" ++ name.text ++ "'"
      have ran : ((World.addClass spec name (some parent)).run world).2 =
          entered ((World.warn warning).run created).2 := by
        unfold World.addClass
        rw [StateT.run_bind]
        change (((World.link (.ofSpace name) parent.layer) >>= _).run created).2 = _
        rw [StateT.run_bind, link_run_error linked]
        rfl
      rw [ran]
      exact ready.of_linkage ((unseen _).trans (plain_linkage.warn warning created))

/-- Registering a class holds the link for good if it is made. -/
theorem registerClass (held : Held made world) (spec : ClassSpec) :
    Held (linkedByClass spec world ++ made) ((World.registerClass spec).run world).2 := by
  have ready (symbols : SymbolTable) : Held made { world with symbols } :=
    held.of_linkage (plain_linkage.symbols world symbols)
  have intern (name : String) (world : World) : (World.intern name).run world =
      ((world.symbols.intern name).1,
        { world with symbols := (world.symbols.intern name).2 }) := rfl
  have read (world : World) : (get : WorldM World).run world = (world, world) := rfl
  unfold linkedByClass World.registerClass
  simp only [bind_run, intern, read]
  rcases world.symbols.intern spec.name with ⟨name, symbols⟩
  split
  next taken => exact ready symbols
  next =>
    cases spec.parent with
    | none =>
        let created : World := { world with symbols, spaces := world.spaces.create (.ofSpace name) }
        have same : linkage ((World.addClass spec name none).run { world with symbols }).2 =
            linkage created := rfl
        exact ((ready symbols).createLayer (.ofSpace name)).of_linkage same
    | some parent =>
        simp only [bind_run, intern, read, Option.bind_some]
        rcases symbols.intern parent with ⟨parent, symbols⟩
        cases world.registry.classes[parent]? with
        | none => exact ready symbols
        | some info => exact (ready symbols).addClass spec name info

end Held

section Basic

variable {α : Type} {change : WorldM α}

theorem linkage_of_links? {world : World} {registry : Registry}
    (links : ∀ id, registry.links? id = world.registry.links? id) :
    linkage { world with registry } = linkage world :=
  congrArg (fun links => (links, world.spaces.parent?, world.spaces.holds)) (funext links)

theorem linkage_of_spaces {world : World} {spaces : Namespaces Callable}
    (parents : ∀ layer, spaces.parent? layer = world.spaces.parent? layer)
    (holds : ∀ layer, spaces.holds layer = world.spaces.holds layer) :
    linkage { world with spaces } = linkage world := by
  unfold linkage
  rw [funext parents, funext holds]

theorem linkage_of_content {world : World} {spaces : Namespaces Callable}
    (same : spaces.content = world.spaces.content) :
    linkage { world with spaces } = linkage world := by
  refine linkage_of_spaces (fun layer => ?_) fun layer => ?_
  · unfold Namespaces.parent?
    rw [same]
  · unfold Namespaces.holds
    rw [same]

/-- The basic changes that may make or give up links. -/
inductive Relinks : {α : Type} → WorldM α → Prop where
  | linkNamespaces (child parent : String) : Relinks (World.linkNamespaces child parent)
  | registerClass (spec : ClassSpec) : Relinks (World.registerClass spec)
  | enter (draft : Draft) (name : String) : Relinks (World.enter draft name)
  | remove (id : Nat) : Relinks (World.remove id)

theorem define_linkage (layer : Layer) (name : Symbol) (target : Callable) :
    Keeps linkage (World.define layer name target) := by
  intro world
  refine linkage_of_spaces (fun other => ?_) fun other => ?_
  · rw [Namespaces.parent?_define, Namespaces.parent?_create]
  · rw [Namespaces.holds_define, Namespaces.holds_create]

theorem rename_linkage (id : Nat) (name : String) : Keeps linkage (World.rename id name) := by
  refine .bind (plain_linkage.internNonempty name) fun symbol world => ?_
  exact linkage_of_links? (world.registry.links?_rename id symbol)

/-- All other basic changes leave the links. -/
theorem Basic.keeps_linkage (basic : Basic change) : Keeps linkage change ∨ Relinks change := by
  cases basic with
  | linkNamespaces child parent => exact .inr (.linkNamespaces child parent)
  | registerClass spec => exact .inr (.registerClass spec)
  | enter draft name => exact .inr (.enter draft name)
  | remove id => exact .inr (.remove id)
  | say text => exact .inl (plain_linkage.record _)
  | warn text => exact .inl (plain_linkage.warn text)
  | define layer name target => exact .inl (define_linkage layer name target)
  | activate package =>
      exact .inl fun world => linkage_of_content (Namespaces.content_activate _ package)
  | deactivate package =>
      exact .inl fun world => linkage_of_content (Namespaces.content_deactivate _ package)
  | setField id field index value =>
      refine .inl fun world => ?_
      rcases setField_cases world id field index value with
        ⟨reason, ran⟩ | ⟨object, changed, found, written, ran⟩
      · rw [ran]
      · obtain ⟨persistent, dynamic, rfl⟩ := Object.setField_eq written
        rw [ran]
        exact linkage_of_links? (Registry.links?_replace found rfl)
  | copyFields id source =>
      refine .inl fun world => linkage_of_links? (Registry.links?_update ?_ world.registry id)
      intro object
      obtain ⟨persistent, dynamic, copied⟩ := object.copyFieldsFrom_eq source.object
      rw [copied]
      rfl
  | rename id name => exact .inl (rename_linkage id name)
  | addChild container child =>
      refine .inl fun world => ?_
      rw [addChild_run]
      cases put : world.registry.addChild container child with
      | ok added => exact linkage_of_links? (Registry.links?_addChild put)
      | error reason => rfl
  | detach child =>
      exact .inl fun world => linkage_of_links? (world.registry.links?_detach child)
  | _ => exact .inl fun world => rfl

/-- A basic change that links no namespaces for good leaves all links, or it registers or
removes an object. -/
theorem Basic.linkage_cases (basic : Basic change) (other : ∀ links, ¬ Linking change links)
    (world : World) :
    linkage (change.run world).2 = linkage world ∨
      (∃ draft name, (change.run world).2 = ((World.enter draft name).run world).2) ∨
      ∃ id, (change.run world).2 = ((World.remove id).run world).2 := by
  rcases basic.keeps_linkage with keeps | relinks
  · exact .inl (keeps world)
  · cases relinks with
    | linkNamespaces child parent => exact (other _ (.linkNamespaces child parent)).elim
    | registerClass spec => exact (other _ (.registerClass spec)).elim
    | enter draft name => exact .inr (.inl ⟨draft, name, rfl⟩)
    | remove id => exact .inr (.inr ⟨id, rfl⟩)

end Basic

/-- A basic change that links no namespaces for good leaves what was linked for good. -/
theorem Basic.held {α : Type} {change : WorldM α} (basic : Basic change)
    (other : ∀ links, ¬ Linking change links) (made : List Layer) :
    Preserves (Held made) change := by
  intro world held
  rcases basic.linkage_cases other world with same | ⟨draft, name, entered⟩ | ⟨id, removed⟩
  · exact held.of_linkage same
  · exact entered ▸ held.enter draft name
  · exact removed ▸ held.remove id

/-- In every world with a history links are held as long as they are needed. -/
theorem History.held {world : World} {made : List Layer} (history : History world made) :
    Held made world := by
  induction history with
  | bare config serial =>
      refine ⟨.empty, ?_, ?_⟩
      · intro id object found
        have dead : (Registry.empty config.firstObject config.firstDatablock).get? id = none := rfl
        rw [World.bare, dead] at found
        contradiction
      · intro layer
        have nothing : (World.bare config serial).registry.occurrences layer = 0 := rfl
        rw [nothing]
        exact Namespaces.holds_empty layer
  | linking earlier linking ih =>
      cases linking with
      | linkNamespaces child parent => exact ih.linkNamespaces child parent
      | registerClass spec => exact ih.registerClass spec
  | other earlier basic other ih => exact basic.held other _ _ ih

/-- While an object is live it keeps its links. -/
theorem Step.links {world after : World} (step : world.Step after) (sound : world.spaces.Linked)
    {id : Nat} {object later : Object} (before : world.registry.get? id = some object)
    (found : after.registry.get? id = some later) : later.links = object.links := by
  have kept : after.registry.links? id = world.registry.links? id := by
    obtain ⟨_, change, basic, rfl⟩ := step
    by_cases linking : ∃ links, Linking change links
    · obtain ⟨links, linking⟩ := linking
      have apart : Apart fun world => world.registry.links? :=
        ⟨⟨fun _ _ => rfl, fun _ _ => rfl⟩, fun _ _ => rfl⟩
      cases linking with
      | linkNamespaces child parent =>
          exact congrFun (apart.links.linkNamespaces child parent world) id
      | registerClass spec =>
          exact congrFun (apart.links.registerClass spec (fun _ _ _ => rfl) world) id
    · rcases basic.linkage_cases (not_exists.mp linking) world with
        same | ⟨draft, name, entered⟩ | ⟨other, removed⟩
      · exact congrFun (Prod.mk.inj same).1 id
      · obtain ⟨fresh, _, _, _, _, free, _, others, _⟩ := enter_views sound draft name
        rw [entered]
        refine others id ?_
        rintro rfl
        rw [Registry.links?_of_get? before] at free
        contradiction
      · rw [removed, remove_run] at found ⊢
        have different : other ≠ id := by
          rintro rfl
          rw [Registry.get?_removed, if_pos rfl] at found
          contradiction
        rw [Registry.links?_removed, if_neg different]
  rw [Registry.links?_of_get? before, Registry.links?_of_get? found] at kept
  exact Option.some.inj kept

/-- In every world that comes about, the namespaces that a live object linked are a stack
on that of its class, and stay so as long as it lives. The link of a namespace is held as
often as live objects linked it and it was linked for good. -/
theorem object_links_over_history {world : World} (reachable : world.Reachable) :
    (∀ id object, world.registry.get? id = some object →
      object.Attached world.spaces ∧
        world.spaces.chain object.layer =
          object.linked.reverse ++ world.spaces.chain object.info.layer ∧
        ∀ after, world.Step after → ∀ later, after.registry.get? id = some later →
          later.links = object.links ∧ later.Attached after.spaces) ∧
      (∃ made, History world made) ∧
      ∀ made, History world made → ∀ layer,
        world.spaces.holds layer = world.registry.occurrences layer + made.count layer := by
  obtain ⟨made, history⟩ := reachable.history
  have held := history.held
  refine ⟨?_, ⟨made, history⟩, fun made history => history.held.counted⟩
  intro id object found
  have attached := held.attached id object found
  refine ⟨attached, ?_, ?_⟩
  · rw [attached.front]
    exact Namespaces.chain_front held.linked.acyclic attached.stack
  · intro after step later still
    obtain ⟨more, further⟩ := history.evolves (.single step)
    exact ⟨step.links held.linked found still, further.held.attached id later still⟩

/-- An object with a name and with namespaces that its fields name. -/
def thingSource : String :=
  "new ScriptObject(Thing) \x7b class = \"Item\"; superClass = \"Base\"; \x7d;"

/-- The world of a console that ran the source. -/
@[irreducible] def thingWorld : World :=
  (Eval.ended (Eval.perform (Eval.run 40) (.evaluate thingSource) (.new {} 0))).world

/-- The names of the namespaces that the object of a number linked. -/
private def linkedNames? (world : World) (id : Nat) : Option (List (Option String)) :=
  (world.registry.get? id).map fun object =>
    object.linked.map fun layer => layer.space.map Symbol.text

private theorem thingWorld_linked :
    linkedNames? thingWorld 4096 = some [some "Base", some "Item", some "Thing"] := by
  decide +kernel

/-- The object stands on three namespaces in front of the one of its class. -/
theorem object_links_over_history_thing :
    ∃ object, thingWorld.registry.get? 4096 = some object ∧ object.linked.length = 3 ∧
      thingWorld.spaces.chain object.layer =
        object.linked.reverse ++ thingWorld.spaces.chain object.info.layer := by
  have reachable : thingWorld.Reachable := by
    unfold thingWorld
    exact .perform (.console {} 0) 40 (.evaluate thingSource)
  obtain ⟨object, found, names⟩ := Option.map_eq_some_iff.mp thingWorld_linked
  obtain ⟨live, _⟩ := object_links_over_history reachable
  obtain ⟨_, chain, _⟩ := live 4096 object found
  have three : object.linked.length = 3 := by
    rw [← List.length_map, names]
    rfl
  exact ⟨object, found, three, chain⟩

end World

end ScriptConsole
