import Mathlib.Logic.Relation
import ScriptConsole.Proofs.Parse.Progress

/-! # The limit on nesting

A reader without a limit tells how many levels were open at a time. Where that is within a limit,
the limit changes nothing, and otherwise reading fails for the limit
(`ScriptConsole.Parse.Limitable`). Every part that was read closed the levels that it opened
(`ScriptConsole.Parse.Balanced`), and so the rounds of a loop all start at the same level: what
stands in a row does not count (`ScriptConsole.Parse.limit_is_on_nesting`).
-/

namespace ScriptConsole

/-- The state of a reader that has a limit. -/
def ParseState.under (limit : Nat) (state : ParseState) : ParseState :=
  { state with limit := some limit }

namespace Parse

variable {α β σ : Type} {numbers : Bool}

/-- A run does not change the limit. -/
abbrev KeepsLimit (parser : Parse α) : Prop :=
  Keeps (fun before after => after.limit = before.limit) parser

/-- A run does not forget how many levels were open at a time. -/
abbrev KeepsDeepest (parser : Parse α) : Prop :=
  Keeps (fun before after => before.deepest ≤ after.deepest) parser

/-- A parser that succeeds has closed the levels that it opened. -/
def Balanced (parser : Parse α) : Prop :=
  ∀ state value after, parser state = .ok value after → after.depth = state.depth

theorem lasting_limit : Lasting fun before after => after.limit = before.limit where
  refl _ := rfl
  trans first second := second.trans first
  opened _ := rfl
  closed _ := rfl

theorem lasting_deepest : Lasting fun before after => before.deepest ≤ after.deepest where
  refl _ := Nat.le_refl _
  trans := Nat.le_trans
  opened _ := Nat.le_max_left _ _
  closed _ := Nat.le_refl _

theorem ended_changed (change : ParseState → ParseState)
    (result : EStateM.Result Fault ParseState α) :
    ended (changed change result) = change (ended result) := by
  cases result <;> rfl

theorem changed_changed (change further : ParseState → ParseState)
    (result : EStateM.Result Fault ParseState α) :
    changed further (changed change result) =
      changed (fun state => further (change state)) result := by
  cases result <;> rfl

/-- Plain parsers leave the levels as they are. -/
theorem Plain.kept {parser : Parse α} (plain : Plain parser) (state : ParseState) :
    parser state = changed (·.withLevels state.limit state.depth state.deepest) (parser state) :=
  plain.levels state state.limit state.depth state.deepest

/-- Plain parsers do not change how many levels may be open, are open and were open. -/
theorem Plain.ended_levels {parser : Parse α} (plain : Plain parser) (state : ParseState) :
    ended (parser state) =
      (ended (parser state)).withLevels state.limit state.depth state.deepest := by
  rw [← ended_changed (·.withLevels state.limit state.depth state.deepest), ← plain.kept]

theorem Plain.keepsLimit {parser : Parse α} (plain : Plain parser) : KeepsLimit parser := by
  intro state
  have same := congrArg ParseState.limit (plain.ended_levels state)
  exact same

theorem Plain.keepsDeepest {parser : Parse α} (plain : Plain parser) : KeepsDeepest parser := by
  intro state
  have same := congrArg ParseState.deepest (plain.ended_levels state)
  exact Nat.le_of_eq same.symm

theorem Plain.balanced {parser : Parse α} (plain : Plain parser) : Balanced parser := by
  intro state value after ran
  have levels := plain.ended_levels state
  rw [ran] at levels
  have same := congrArg ParseState.depth levels
  exact same

namespace Balanced

theorem bind {parser : Parse α} {next : α → Parse β} (start : Balanced parser)
    (rest : ∀ value, Balanced (next value)) : Balanced (parser >>= next) := by
  intro state result final ran
  obtain ⟨value, between, first, last⟩ := bind_ok_iff.mp ran
  exact (rest value between result final last).trans (start state value between first)

/-- The level that was opened is closed again. -/
theorem nested {parser : Parse α} (balanced : Balanced parser) : Balanced (nested parser) := by
  intro state value final ran
  obtain ⟨inside, began, rfl⟩ := nested_ok ran
  have level : inside.depth = state.depth + 1 := balanced state.opened value inside began
  exact (congrArg (· - 1) level).trans (Nat.add_sub_cancel state.depth 1)

end Balanced

theorem compositional_balanced : Compositional Balanced where
  quiet quiet := quiet.balanced
  bind := .bind
  nested := .nested

theorem balanced_goals (bound : Nat) (goal : Goal) : Balanced (parser bound goal) :=
  holds_goals compositional_balanced Plain.balanced bound goal

theorem Composed.balanced {body : Nat → Parser → Parse α} (composed : Composed numbers body)
    (bound : Nat) : Balanced (body bound (parser bound)) :=
  composed.holds_goals compositional_balanced Plain.balanced bound

/-- The run of a parser under a limit is the one without it if no more levels were open, and
otherwise it fails for the limit. -/
structure Obeys (limit : Nat) (free limited : EStateM.Result Fault ParseState α) : Prop where
  within : (ended free).deepest ≤ limit → limited = changed (·.under limit) free
  beyond : limit < (ended free).deepest →
    ∃ position final, limited = .error ⟨position, .nestedTooDeep limit⟩ final

/-- A limit changes nothing of a parser but that it fails beyond the limit. -/
structure Limitable (parser : Parse α) : Prop where
  keepsLimit : KeepsLimit parser
  keepsDeepest : KeepsDeepest parser
  obeys {limit : Nat} {state : ParseState} : state.limit = none → state.deepest ≤ limit →
    Obeys limit (parser state) (parser (state.under limit))

/-- A parser that opens no level is the same under every limit. -/
theorem Plain.limitable {parser : Parse α} (plain : Plain parser) : Limitable parser where
  keepsLimit := plain.keepsLimit
  keepsDeepest := plain.keepsDeepest
  obeys {limit state} _ low := by
    have kept := plain.kept state
    have limited : parser (state.under limit) =
        changed (·.withLevels (some limit) state.depth state.deepest) (parser state) :=
      plain.levels state (some limit) state.depth state.deepest
    refine ⟨fun _ => ?_, fun high => ?_⟩
    · rw [limited, kept, changed_changed, changed_changed]
      rfl
    · rw [kept, ended_changed] at high
      exact absurd low (Nat.not_le_of_gt high)

namespace Limitable

/-- What comes after another parser is not reached if that one fails for the limit, and begins below
the limit otherwise. -/
theorem bind {parser : Parse α} {next : α → Parse β} (start : Limitable parser)
    (rest : ∀ value, Limitable (next value)) : Limitable (parser >>= next) where
  keepsLimit := .bind lasting_limit start.keepsLimit fun value => (rest value).keepsLimit
  keepsDeepest := .bind lasting_deepest start.keepsDeepest fun value => (rest value).keepsDeepest
  obeys {limit state} none low := by
    have begun := start.obeys none low
    cases ran : parser state with
    | error fault after =>
        rw [ran] at begun
        rw [bind_of_error ran]
        refine ⟨fun within => bind_of_error (begun.within within), fun beyond => ?_⟩
        obtain ⟨position, final, failed⟩ := begun.beyond beyond
        exact ⟨position, final, bind_of_error failed⟩
    | ok value between =>
        rw [ran] at begun
        rw [bind_of_ok ran]
        by_cases within : between.deepest ≤ limit
        · rw [bind_of_ok (begun.within within)]
          exact (rest value).obeys ((start.keepsLimit.ok ran).trans none) within
        · obtain ⟨position, final, failed⟩ := begun.beyond (Nat.lt_of_not_le within)
          have deeper := (rest value).keepsDeepest between
          refine ⟨fun low => absurd (Nat.le_trans deeper low) within, fun _ => ?_⟩
          exact ⟨position, final, bind_of_error failed⟩

/-- Where no more levels fit, one more is open at a time than the limit allows. -/
theorem nested {parser : Parse α} (limitable : Limitable parser) : Limitable (nested parser) where
  keepsLimit := .nested lasting_limit limitable.keepsLimit
  keepsDeepest := .nested lasting_deepest limitable.keepsDeepest
  obeys {limit state} none low := by
    have free : Parse.nested parser state = closing (parser state.opened) := by
      obtain ⟨_, _, some, _⟩ | ⟨_, opened⟩ := nested_cases state
      · rw [none] at some
        cases some
      · exact opened parser
    have deepest : (ended (closing (parser state.opened))).deepest =
        (ended (parser state.opened)).deepest := by
      cases parser state.opened <;> rfl
    have deeper : state.depth + 1 ≤ (ended (parser state.opened)).deepest :=
      Nat.le_trans (Nat.le_max_right _ _) (limitable.keepsDeepest state.opened)
    rw [free]
    obtain ⟨other, position, same, full, refused⟩ | ⟨room, opened⟩ :=
      nested_cases (state.under limit)
    · obtain rfl : limit = other := Option.some.inj same
      refine ⟨fun low => ?_, fun _ => ⟨position, _, refused parser⟩⟩
      rw [deepest] at low
      exact absurd (Nat.le_trans deeper low) (Nat.not_le_of_gt (Nat.lt_succ_of_le full))
    · have fits : state.opened.deepest ≤ limit := Nat.max_le.mpr ⟨low, room limit rfl⟩
      have inside : Obeys limit (parser state.opened) (parser (state.opened.under limit)) :=
        limitable.obeys none fits
      have under : Parse.nested parser (state.under limit) =
          closing (parser (state.opened.under limit)) := opened parser
      rw [under]
      refine ⟨fun within => ?_, fun beyond => ?_⟩
      · rw [deepest] at within
        rw [inside.within within]
        cases parser state.opened <;> rfl
      · rw [deepest] at beyond
        obtain ⟨position, final, failed⟩ := inside.beyond beyond
        rw [failed]
        exact ⟨position, final, rfl⟩

end Limitable

theorem compositional_limitable : Compositional Limitable where
  quiet quiet := quiet.limitable
  bind := .bind
  nested := .nested

section Rows

/-- A round goes on with the next one. -/
def GoesOn (round : σ → Parse (Round σ β)) (turn next : σ × ParseState) : Prop :=
  round turn.1 turn.2 = .ok (.again next.1) next.2

/-- A loop comes to a round, some rounds behind another one. -/
abbrev Reaches (round : σ → Parse (Round σ β)) : σ × ParseState → σ × ParseState → Prop :=
  Relation.ReflTransGen (GoesOn round)

/-- What a loop reads stands in a row: all rounds start at the level of the first one, and as many
levels are open at a time as in some round, however many rounds there are. -/
structure InRow (round : σ → Parse (Round σ β)) : Prop where
  depth {first turn : σ × ParseState} : Reaches round first turn → turn.2.depth = first.2.depth
  deepest {first : σ × ParseState} {height : Nat} : first.2.deepest ≤ height →
    (∀ turn, Reaches round first turn → (ended (round turn.1 turn.2)).deepest ≤ height) →
      ∀ bound, (ended (repeatRounds bound round first.1 first.2)).deepest ≤ height

variable {round : σ → Parse (Round σ β)}

theorem depth_of_reaches (each : ∀ state, Balanced (round state)) {first turn : σ × ParseState}
    (reaches : Reaches round first turn) : turn.2.depth = first.2.depth := by
  induction reaches with
  | refl => rfl
  | tail _ goesOn ih => exact (each _ _ _ _ goesOn).trans ih

/-- A loop opens as many levels at a time as its rounds do, each of which starts where the others
start. -/
theorem deepest_rounds (fault : Fault) (bound : Nat) {first : σ × ParseState} {height : Nat}
    (low : first.2.deepest ≤ height)
    (each : ∀ turn, Reaches round first turn → (ended (round turn.1 turn.2)).deepest ≤ height) :
    (ended (rounds fault round bound first.1 first.2)).deepest ≤ height := by
  induction bound generalizing first with
  | zero => exact low
  | succ bound ih =>
      have here := each first .refl
      unfold rounds
      cases ran : round first.1 first.2 with
      | error fault after =>
          rw [ran] at here
          rw [bind_of_error ran]
          exact here
      | ok turn after =>
          rw [ran] at here
          rw [bind_of_ok ran]
          cases turn with
          | done result => exact here
          | again next =>
              have goesOn : GoesOn round first (next, after) := ran
              exact ih here fun turn reaches => each turn (.head goesOn reaches)

theorem inRow_of_balanced (each : ∀ state, Balanced (round state)) : InRow round where
  depth reaches := depth_of_reaches each reaches
  deepest {first height} low within bound := by
    obtain ⟨init, state⟩ := first
    obtain ⟨position, ran⟩ : ∃ position, here state = .ok position state := by
      obtain ⟨tokens, _⟩ := state
      cases tokens <;> exact ⟨_, rfl⟩
    unfold repeatRounds
    rw [bind_of_ok ran]
    exact deepest_rounds _ bound low within

end Rows

/-- The limit is on nesting and on nothing else. Where the reader without a limit has no more levels
open at a time than the limit says, the limit changes nothing; otherwise reading fails for it. The
levels that a part opens are closed behind it, and what stands in a row does not count. -/
theorem limit_is_on_nesting (limit : Nat) (symbols : SymbolTable) (tokens : List Token) :
    Obeys limit (runRoot none symbols tokens) (runRoot (some limit) symbols tokens) ∧
    ∀ bound,
      (∀ goal, Balanced (parser bound goal)) ∧
      (∀ {α : Type} {numbers : Bool} {body : Nat → Parser → Parse α}, Composed numbers body →
        Balanced (body bound (parser bound))) ∧
      ∀ {σ β : Type} {round : σ → Nat → Parser → Parse (Round σ β)}, Loop round →
        InRow fun state => round state bound (parser bound) := by
  refine ⟨?_, fun bound => ⟨fun goal => ?_, fun composed => ?_, fun loop => ?_⟩⟩
  · have limitable : Limitable (root (stepsFor tokens)) :=
      composed_root.holds_goals compositional_limitable Plain.limitable (stepsFor tokens)
    have obeys : Obeys limit (root (stepsFor tokens) (start none symbols tokens))
        (root (stepsFor tokens) ((start none symbols tokens).under limit)) :=
      limitable.obeys rfl (Nat.zero_le limit)
    exact obeys
  · exact balanced_goals bound goal
  · exact composed.balanced bound
  · exact inRow_of_balanced fun state => (loop.composed state).balanced bound

/-- Three calls in a row open four levels at a time, those of the last argument. -/
theorem limit_is_on_nesting_calls :
    ∃ tokens, Token.scan (Utf8.encode "f(); f(1 + 2); f((3));") = .ok tokens ∧
      runRoot (some 4) (.empty 0) tokens = changed (·.under 4) (runRoot none (.empty 0) tokens) ∧
      ∃ position final,
        runRoot (some 3) (.empty 0) tokens = .error ⟨position, .nestedTooDeep 3⟩ final := by
  obtain ⟨tokens, scanned, deepest⟩ :
      ∃ tokens, Token.scan (Utf8.encode "f(); f(1 + 2); f((3));") = .ok tokens ∧
        (ended (runRoot none (.empty 0) tokens)).deepest = 4 := ⟨_, rfl, by decide +kernel⟩
  refine ⟨tokens, scanned, ?_, ?_⟩
  · exact (limit_is_on_nesting 4 (.empty 0) tokens).1.within (Nat.le_of_eq deepest)
  · exact (limit_is_on_nesting 3 (.empty 0) tokens).1.beyond (by omega)

end Parse

end ScriptConsole
