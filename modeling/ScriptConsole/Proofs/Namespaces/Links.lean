import ScriptConsole.Proofs.Namespaces.Views
import ScriptConsole.Proofs.Walk

/-! # Links between namespaces

Over any history of a namespace table the parents of layers form no cycle, the global
namespace has none, and a layer has a parent exactly while its link is held
(`ScriptConsole.Namespaces.Linked`). A link stays until it has been given up as often as
it was made (`ScriptConsole.Namespaces.bound_over`).
-/

namespace ScriptConsole.Namespaces

variable {ε : Type}

/-- A change of a namespace table. -/
inductive Change (ε : Type) where
  | create (layer : Layer)
  | link (child parent : Layer)
  | unlink (child : Layer)
  | define (layer : Layer) (name : Symbol) (target : ε)
  | activate (package : Symbol)
  | deactivate (package : Symbol)

namespace Change

/-- The layers that a change is made on, which exist before it. -/
def layers : Change ε → List Layer
  | link child parent => [child, parent]
  | unlink child => [child]
  | define layer _ _ => [layer]
  | create _ | activate _ | deactivate _ => []

/-- The table after a change. A link that is refused leaves it as it is. -/
def apply (spaces : Namespaces ε) : Change ε → Namespaces ε
  | create layer => spaces.create layer
  | link child parent =>
    match spaces.link child parent with
    | .ok linked => linked
    | .error _ => spaces
  | unlink child => spaces.unlink child
  | define layer name target => spaces.define layer name target
  | activate package => (spaces.activate package).2
  | deactivate package => (spaces.deactivate package).2

/-- Whether a change links a layer to a parent other than the global namespace. -/
def links (child : Layer) (spaces : Namespaces ε) : Change ε → Bool
  | link below parent =>
    decide (below = child ∧ parent ≠ .global) && (spaces.link below parent).isOk
  | _ => false

/-- Whether a change unlinks a layer. -/
def unlinks (child : Layer) : Change ε → Bool
  | unlink below => decide (below = child)
  | _ => false

end Change

/-- A table becomes another one by changes, one after the other. -/
inductive Evolves : Namespaces ε → List (Change ε) → Namespaces ε → Prop where
  | nil (spaces : Namespaces ε) : Evolves spaces [] spaces
  | cons {spaces final : Namespaces ε} {change : Change ε} {changes : List (Change ε)}
      (fits : ∀ layer ∈ change.layers, spaces.contains layer = true)
      (later : Evolves (change.apply spaces) changes final) :
      Evolves spaces (change :: changes) final

/-- How often changes link a layer to a parent other than the global namespace. -/
def linkCount (child : Layer) : Namespaces ε → List (Change ε) → Nat
  | _, [] => 0
  | spaces, change :: changes =>
    (change.links child spaces).toNat + linkCount child (change.apply spaces) changes

/-- How often changes unlink a layer. -/
def unlinkCount (child : Layer) (changes : List (Change ε)) : Nat :=
  changes.countP (Change.unlinks child)

theorem unlinkCount_nil (child : Layer) : unlinkCount child ([] : List (Change ε)) = 0 :=
  rfl

theorem unlinkCount_cons (child : Layer) (change : Change ε) (changes : List (Change ε)) :
    unlinkCount child (change :: changes) =
      (change.unlinks child).toNat + unlinkCount child changes := by
  unfold unlinkCount
  rw [List.countP_cons]
  cases change.unlinks child
  · exact (Nat.zero_add _).symm
  · exact Nat.add_comm _ _

/-- What holds of the links of every table. -/
structure Linked (spaces : Namespaces ε) : Prop where
  acyclic : Acyclic spaces.parent?
  global : spaces.parent? .global = none
  held : ∀ layer, (spaces.parent? layer).isSome ↔ 0 < spaces.holds layer

theorem mem_keys_of_parent? (spaces : Namespaces ε) (layer : Layer)
    (above : (spaces.parent? layer).isSome) : layer ∈ spaces.content.keys := by
  obtain ⟨parent, equal⟩ := Option.isSome_iff_exists.mp above
  have present := contains_of_parent? equal
  rw [Std.TreeMap.mem_keys]
  exact Std.TreeMap.contains_iff_mem.mp present

/-- The chain of a layer is whole: no bound cuts it off. -/
theorem mem_chain_iff {spaces : Namespaces ε} (acyclic : Acyclic spaces.parent?)
    (layer ancestor : Layer) :
    ancestor ∈ spaces.chain layer ↔
      Relation.ReflTransGen (Leads spaces.parent?) layer ancestor := by
  unfold chain
  apply mem_walk_iff acyclic spaces.mem_keys_of_parent?
  rw [Std.TreeMap.length_keys]
  exact Nat.lt_succ_self _

/-- The chain of a layer is the layer and the chain of its parent. -/
theorem chain_eq_cons {spaces : Namespaces ε} (acyclic : Acyclic spaces.parent?) (layer : Layer) :
    spaces.chain layer = layer :: (spaces.parent? layer).elim [] spaces.chain := by
  refine walk_eq_cons acyclic spaces.mem_keys_of_parent? ?_ layer
  rw [Std.TreeMap.length_keys]
  exact Nat.lt_succ_self _

namespace Linked

/-- The new table has no links. -/
theorem empty : Linked (.empty : Namespaces ε) := by
  constructor
  case acyclic =>
    intro layer cycle
    obtain ⟨above, step, _⟩ := Relation.TransGen.head'_iff.mp cycle
    rw [Leads, parent?_empty] at step
    contradiction
  case global => exact parent?_empty .global
  case held =>
    intro layer
    simp only [parent?_empty, holds_empty, Option.isSome_none, Bool.false_eq_true, Nat.lt_irrefl]

variable {spaces : Namespaces ε}

/-- Tables with the same parents and holds have the same links. -/
theorem of_same (linked : Linked spaces) {other : Namespaces ε}
    (parents : ∀ layer, other.parent? layer = spaces.parent? layer)
    (holds : ∀ layer, other.holds layer = spaces.holds layer) : Linked other := by
  have same : other.parent? = spaces.parent? := funext parents
  refine ⟨same ▸ linked.acyclic, (parents .global).trans linked.global, ?_⟩
  intro layer
  rw [parents, holds]
  exact linked.held layer

theorem hold (linked : Linked spaces) {child parent : Layer}
    (above : spaces.parent? child = some parent) : Linked (spaces.hold child) := by
  have same : (spaces.hold child).parent? = spaces.parent? := funext (spaces.parent?_hold child)
  refine ⟨same ▸ linked.acyclic, by rw [parent?_hold, linked.global], ?_⟩
  intro layer
  rw [parent?_hold, holds_hold (contains_of_parent? above)]
  by_cases own : child = layer
  · subst own
    simp only [above, Option.isSome_some, ↓reduceIte, Nat.zero_lt_succ]
  · simp only [own, ↓reduceIte, linked.held]

/-- A new link keeps the links sound if the layer is not on the chain of its parent, for then the
link closes no cycle. -/
theorem attach (linked : Linked spaces) {child parent : Layer} (named : child ≠ .global)
    (present : spaces.contains child = true) (apart : child ∉ spaces.chain parent) :
    Linked (spaces.attach child parent) := by
  constructor
  case acyclic =>
    rw [mem_chain_iff linked.acyclic] at apart
    refine linked.acyclic.extend apart ?_
    intro layer above step
    rw [parent?_attach present] at step
    by_cases own : child = layer
    · simp only [own, ↓reduceIte, Option.some.injEq] at step
      exact Or.inr ⟨own.symm, step.symm⟩
    · simp only [own, ↓reduceIte] at step
      exact Or.inl step
  case global =>
    rw [parent?_attach present, ite_eq_right_iff.mpr fun top => (named top).elim]
    exact linked.global
  case held =>
    intro layer
    rw [parent?_attach present, holds_attach present]
    by_cases own : child = layer
    · simp only [own, ↓reduceIte, Option.isSome_some, Nat.zero_lt_one]
    · simp only [own, ↓reduceIte, linked.held]

/-- Giving up a hold keeps the links sound: the link goes with the last hold, and no other link is
touched. -/
theorem unlink (linked : Linked spaces) (child : Layer) : Linked (spaces.unlink child) := by
  constructor
  case acyclic =>
    refine linked.acyclic.mono ?_
    intro layer above step
    rw [parent?_unlink] at step
    split at step
    · contradiction
    · exact step
  case global =>
    rw [parent?_unlink]
    split
    · rfl
    · exact linked.global
  case held =>
    intro layer
    rw [parent?_unlink, holds_unlink]
    by_cases own : child = layer
    · subst own
      have held := linked.held child
      by_cases last : spaces.holds child = 1
      · simp only [last, and_self, ↓reduceIte, Option.isSome_none, Bool.false_eq_true,
          Nat.sub_self, Nat.lt_irrefl]
      · simp only [last, and_false, ↓reduceIte, held]
        omega
    · simp only [own, false_and, ↓reduceIte, linked.held]

/-- A change keeps what holds of links. -/
theorem apply (linked : Linked spaces) {change : Change ε}
    (fits : ∀ layer ∈ change.layers, spaces.contains layer = true) :
    Linked (change.apply spaces) := by
  cases change with
  | create layer => exact linked.of_same (spaces.parent?_create layer) (spaces.holds_create layer)
  | link child parent =>
      simp only [Change.apply]
      split
      next result made =>
        obtain ⟨named, _, kinds⟩ := link_cases made
        rcases kinds with ⟨_, rfl⟩ | ⟨_, above, rfl⟩ | ⟨_, _, apart, rfl⟩
        · exact linked
        · exact linked.hold above
        · exact linked.attach named (fits child List.mem_cons_self) apart
      next => exact linked
  | unlink child => exact linked.unlink child
  | define layer name target =>
      exact linked.of_same (fun other => spaces.parent?_define layer other name target)
        (fun other => spaces.holds_define layer other name target)
  | activate package =>
      refine linked.of_same ?_ ?_ <;> intro layer
      · simp only [Change.apply, parent?, content_activate]
      · simp only [Change.apply, holds, content_activate]
  | deactivate package =>
      refine linked.of_same ?_ ?_ <;> intro layer
      · simp only [Change.apply, parent?, content_deactivate]
      · simp only [Change.apply, holds, content_deactivate]

/-- Changes keep what holds of links. -/
theorem evolves {final : Namespaces ε} {changes : List (Change ε)}
    (history : Evolves spaces changes final) (linked : Linked spaces) : Linked final := by
  induction history with
  | nil => exact linked
  | cons fits _ ih => exact ih (linked.apply fits)

end Linked

/-- A change keeps a link that is not given up for the last time, and counts. -/
theorem bound_apply {spaces : Namespaces ε} {child parent : Layer} {change : Change ε}
    (fits : ∀ layer ∈ change.layers, spaces.contains layer = true)
    (above : spaces.parent? child = some parent)
    (kept : (change.unlinks child).toNat <
      spaces.holds child + (change.links child spaces).toNat) :
    (change.apply spaces).parent? child = some parent ∧
      (change.apply spaces).holds child + (change.unlinks child).toNat =
        spaces.holds child + (change.links child spaces).toNat := by
  cases change with
  | create layer =>
      simp only [Change.apply, Change.unlinks, Change.links, parent?_create, holds_create, above,
        and_self]
  | link below top =>
      have present := fits below List.mem_cons_self
      simp only [Change.apply, Change.unlinks, Change.links]
      cases made : spaces.link below top with
      | error reason => simp [above, Except.isOk, Except.toBool]
      | ok linked =>
          obtain ⟨named, _, kinds⟩ := link_cases made
          rcases kinds with ⟨rfl, rfl⟩ | ⟨outer, already, rfl⟩ | ⟨outer, free, _, rfl⟩
          · simp [above]
          · rw [parent?_hold, holds_hold present]
            by_cases own : below = child
            · simp [own, outer, above, Except.isOk, Except.toBool]
            · simp [own, above]
          · have other : below ≠ child := by
              rintro rfl
              rw [above] at free
              contradiction
            rw [parent?_attach present, holds_attach present]
            simp [other, above]
  | unlink below =>
      simp only [Change.apply, Change.unlinks, Change.links] at kept ⊢
      rw [parent?_unlink, holds_unlink]
      by_cases own : below = child
      · subst own
        simp only [decide_true, Bool.toNat_true, Bool.toNat_false, Nat.add_zero] at kept
        simp only [↓reduceIte, true_and, decide_true, Bool.toNat_true, Bool.toNat_false]
        refine ⟨?_, by omega⟩
        rw [ite_eq_right_iff.mpr fun last => by omega]
        exact above
      · simp [own, above]
  | define layer name target =>
      simp only [Change.apply, Change.unlinks, Change.links, parent?_define, holds_define, above,
        and_self]
  | activate package =>
      simp only [Change.apply, Change.unlinks, Change.links, parent?, holds, content_activate]
      exact ⟨above, trivial⟩
  | deactivate package =>
      simp only [Change.apply, Change.unlinks, Change.links, parent?, holds, content_deactivate]
      exact ⟨above, trivial⟩

/-- A link stays as long as it was given up less often than it is held and was made
again. -/
theorem bound_over {spaces final : Namespaces ε} {child parent : Layer} {later : List (Change ε)}
    (history : Evolves spaces later final) (above : spaces.parent? child = some parent)
    (kept : ∀ front, front <+: later →
      unlinkCount child front < spaces.holds child + linkCount child spaces front) :
    final.parent? child = some parent ∧
      final.holds child + unlinkCount child later =
        spaces.holds child + linkCount child spaces later := by
  induction history with
  | nil spaces => exact ⟨above, rfl⟩
  | @cons spaces final change changes fits _ ih =>
      have first := kept [change] (List.prefix_append [change] changes)
      simp only [unlinkCount_cons, unlinkCount_nil, linkCount, Nat.add_zero] at first
      obtain ⟨next, counts⟩ := bound_apply fits above first
      have rest : ∀ front, front <+: changes →
          unlinkCount child front <
            (change.apply spaces).holds child + linkCount child (change.apply spaces) front := by
        intro front within
        have whole := kept (change :: front) ((List.prefix_cons_inj change).mpr within)
        simp only [unlinkCount_cons, linkCount] at whole
        omega
      obtain ⟨stays, total⟩ := ih next rest
      refine ⟨stays, ?_⟩
      simp only [unlinkCount_cons, linkCount]
      omega

/-- Whatever was done to a new table, its links are sound, searches along them end, a
refused link changes nothing, and a link to a parent other than the global namespace
stays until it has been given up as often as it was made. -/
theorem links_over_history {spaces : Namespaces ε} {changes : List (Change ε)}
    (history : Evolves .empty changes spaces) :
    Linked spaces ∧
      (∀ layer, Ends spaces.parent? layer) ∧
      (∀ layer ancestor, ancestor ∈ spaces.chain layer ↔
        Relation.ReflTransGen (Leads spaces.parent?) layer ancestor) ∧
      (∀ child parent reason, spaces.link child parent = .error reason →
        (Change.link child parent).apply spaces = spaces) ∧
      ∀ child parent linked later final,
        (∀ layer ∈ [child, parent], spaces.contains layer = true) → parent ≠ .global →
        spaces.parent? child = none → spaces.link child parent = .ok linked →
        Evolves linked later final →
        (∀ front, front <+: later →
          unlinkCount child front < 1 + linkCount child linked front) →
        final.parent? child = some parent ∧
          final.holds child + unlinkCount child later = 1 + linkCount child linked later ∧
          (unlinkCount child later = linkCount child linked later →
            (final.unlink child).parent? child = none) := by
  have sound : Linked spaces := Linked.empty.evolves history
  refine ⟨sound, sound.acyclic.ends spaces.mem_keys_of_parent?, mem_chain_iff sound.acyclic,
    ?_, ?_⟩
  · intro child parent reason refused
    simp only [Change.apply, refused]
  · intro child parent linked later final fits below free made after kept
    obtain ⟨_, _, kinds⟩ := link_cases made
    have present := fits child List.mem_cons_self
    have attached : linked = spaces.attach child parent := by
      rcases kinds with ⟨top, _⟩ | ⟨_, above, _⟩ | ⟨_, _, _, rfl⟩
      · exact (below top).elim
      · rw [free] at above
        contradiction
      · rfl
    have above : linked.parent? child = some parent := by
      rw [attached, parent?_attach present, ite_eq_left_iff.mpr fun differs => (differs rfl).elim]
    have once : linked.holds child = 1 := by
      rw [attached, holds_attach present, ite_eq_left_iff.mpr fun differs => (differs rfl).elim]
    obtain ⟨stays, total⟩ := bound_over after above (once.symm ▸ kept)
    rw [once] at total
    refine ⟨stays, total, ?_⟩
    intro balanced
    have last : final.holds child = 1 := by omega
    rw [parent?_unlink]
    simp only [last, and_self, ↓reduceIte]

/-- Two new namespaces of which one is linked to the other, once: giving up that hold
removes the link. -/
theorem links_over_history_once :
    ∃ spaces linked : Namespaces Nat,
      Evolves .empty [.create (.ofSpace ⟨0, false, "Base"⟩), .create (.ofSpace ⟨0, false, "Item"⟩)]
        spaces ∧
      Linked spaces ∧
      spaces.link (.ofSpace ⟨0, false, "Item"⟩) (.ofSpace ⟨0, false, "Base"⟩) = .ok linked ∧
      linked.parent? (.ofSpace ⟨0, false, "Item"⟩) = some (.ofSpace ⟨0, false, "Base"⟩) ∧
      (linked.unlink (.ofSpace ⟨0, false, "Item"⟩)).parent? (.ofSpace ⟨0, false, "Item"⟩) = none := by
  have nothing : ∀ layer ∈ ([] : List Layer), (.empty : Namespaces Nat).contains layer = true :=
    fun layer member => absurd member List.not_mem_nil
  have history : Evolves (.empty : Namespaces Nat)
      [.create (.ofSpace ⟨0, false, "Base"⟩), .create (.ofSpace ⟨0, false, "Item"⟩)]
      ((Namespaces.empty.create (.ofSpace ⟨0, false, "Base"⟩)).create
        (.ofSpace ⟨0, false, "Item"⟩)) :=
    .cons nothing (.cons (fun layer member => absurd member List.not_mem_nil) (.nil _))
  obtain ⟨sound, _, _, _, bound⟩ := links_over_history history
  obtain ⟨stays, _, released⟩ := bound (.ofSpace ⟨0, false, "Item"⟩) (.ofSpace ⟨0, false, "Base"⟩)
    _ [] _ (by decide) (by decide) (by decide) rfl (.nil _)
    (fun front within => by rw [List.prefix_nil.mp within]; decide)
  exact ⟨_, _, history, sound, rfl, stays, released rfl⟩

end ScriptConsole.Namespaces
