import ScriptConsole.Proofs.Parse.Layout
import ScriptConsole.Proofs.Parse.Parts

/-! # Reading comes to an end

No part of the grammar moves back (`ScriptConsole.Parse.Forward`). Parts that succeed pass a token
(`ScriptConsole.Parse.Passes`), and so does every round of a loop that goes on
(`ScriptConsole.Parse.Advances`). So the bounds on reading are no limits: more of them would
change nothing, and a script that was read has no tokens left but comments
(`ScriptConsole.Parse.reading_comes_to_end`).
-/

namespace ScriptConsole.Parse

variable {α β σ : Type} {numbers : Bool}

/-- What is left at the end of a run was left before it. -/
abbrev Forward (parser : Parse α) : Prop :=
  Keeps (fun before after => after.tokens <:+ before.tokens) parser

theorem lasting_forward : Lasting fun before after => after.tokens <:+ before.tokens where
  refl _ := List.suffix_rfl
  trans first second := second.trans first
  opened _ := List.suffix_rfl
  closed _ := List.suffix_rfl

theorem compositional_forward : Compositional Forward :=
  lasting_forward.compositional fun quiet => quiet.forward

/-- A parser does what another one does, as far as its bounds reach. -/
def Approximates (parser other : Parse α) : Prop :=
  ∀ state, parser state = other state ∨
    ∃ position final, parser state = .error ⟨position, .outOfSteps⟩ final

namespace Approximates

theorem refl (parser : Parse α) : Approximates parser parser :=
  fun _ => .inl rfl

/-- Where the first part comes to an end under its bound, the second part goes on as it does under
the further one. -/
theorem bind {parser other : Parse α} {next further : α → Parse β}
    (start : Approximates parser other)
    (rest : ∀ value, Approximates (next value) (further value)) :
    Approximates (parser >>= next) (other >>= further) := by
  intro state
  obtain same | ⟨position, final, short⟩ := start state
  · cases ran : other state with
    | ok value after =>
        rw [bind_of_ok ran, bind_of_ok (same.trans ran)]
        exact rest value after
    | error fault after =>
        rw [bind_of_error ran, bind_of_error (same.trans ran)]
        exact .inl rfl
  · exact .inr ⟨position, final, bind_of_error short⟩

theorem nested {parser other : Parse α} (approximates : Approximates parser other) :
    Approximates (nested parser) (nested other) := by
  intro state
  obtain ⟨limit, position, _, _, refused⟩ | ⟨_, opened⟩ := nested_cases state
  · exact .inl ((refused parser).trans (refused other).symm)
  · rw [opened, opened]
    obtain same | ⟨position, final, short⟩ := approximates state.opened
    · exact .inl (congrArg closing same)
    · rw [short]
      exact .inr ⟨position, final, rfl⟩

/-- A loop does what it does under a further bound, unless it comes to its own bound first. -/
theorem rounds {round more : σ → Parse (Round σ β)}
    (each : ∀ state, Approximates (round state) (more state)) (fault : Position)
    {bound further : Nat} (less : bound ≤ further) (state : σ) :
    Approximates (ScriptConsole.rounds ⟨fault, .outOfSteps⟩ round bound state)
      (ScriptConsole.rounds ⟨fault, .outOfSteps⟩ more further state) := by
  induction bound generalizing further state with
  | zero => exact fun here => .inr ⟨fault, here, rfl⟩
  | succ bound ih =>
      obtain ⟨further, rfl⟩ := Nat.exists_eq_succ_of_ne_zero (Nat.ne_zero_of_lt less)
      refine .bind (each state) fun turn => ?_
      cases turn with
      | done result => exact .refl _
      | again next => exact ih (Nat.le_of_succ_le_succ less) next

end Approximates

/-- Larger bounds and parsers that reach further let a parser reach further. -/
theorem Composed.approximates {body : Nat → Parser → Parse α} (composed : Composed numbers body)
    {bound further : Nat} (less : bound ≤ further) {inner other : Parser}
    (each : ∀ goal, Approximates (inner goal) (other goal)) :
    Approximates (body bound inner) (body further other) := by
  induction composed with
  | pure value => exact .refl _
  | bind start rest startIh restIh => exact .bind startIh restIh
  | quiet quiet => exact .refl _
  | mark plain => exact .refl _
  | part goal => exact each goal
  | nested composed ih => exact .nested ih
  | loop each state ih => exact .bind (.refl here) fun position => .rounds ih position less state

/-- Every part of a script is read as under a further bound, unless reading does not come to an end.
-/
theorem approximates_goals {bound further : Nat} (less : bound ≤ further) (goal : Goal) :
    Approximates (parser bound goal) (parser further goal) := by
  induction bound generalizing further goal with
  | zero =>
      intro state
      obtain ⟨tokens, _⟩ := state
      cases tokens <;> exact .inr ⟨_, _, rfl⟩
  | succ bound ih =>
      obtain ⟨further, rfl⟩ := Nat.exists_eq_succ_of_ne_zero (Nat.ne_zero_of_lt less)
      have within : bound ≤ further := Nat.le_of_succ_le_succ less
      exact (composed_part goal).approximates within (ih within)

/-- What demands say about parsers with bounds that are large enough holds of all results. -/
theorem Approximates.result {parser other : Parse α} {demand : α → α → Nat → Prop}
    (approximates : Approximates parser other) {state : ParseState}
    (agree : Agree (left state) other other demand) {value : α} {after : ParseState}
    (ran : parser state = .ok value after) : demand value value (left after) := by
  obtain same | ⟨position, final, short⟩ := approximates state
  · have outcomes := agree state state ⟨rfl, rfl, rfl, rfl, rfl, rfl⟩ rfl
    rw [← same, ran] at outcomes
    exact outcomes.2
  · rw [short] at ran
    cases ran

/-- A parser that succeeds has passed a token other than a comment. -/
def Passes (parser : Parse α) : Prop :=
  ∀ state value after, parser state = .ok value after → left after < left state

/-- A round that goes on has passed a token other than a comment. -/
def Advances (round : Parse (Round σ β)) : Prop :=
  ∀ state next after, round state = .ok (.again next) after → left after < left state

theorem agree_goals (size : Nat) {bound : Nat} (enough : 2 * size + 2 ≤ bound) (goal : Goal) :
    Agree size (parser bound goal) (parser bound goal) (Passed goal.bare size) := by
  by_cases isStatement : goal = .statement
  · subst isStatement
    exact (agree_parts size).2 bound bound enough enough
  · exact (agree_parts size).1 bound bound (by omega) (by omega) goal isStatement

theorem ready_goals (size : Nat) {bound : Nat} (enough : 2 * size ≤ bound) :
    Ready size bound bound (parser bound) (parser bound) where
  parts goal fewer less := agree_goals fewer (by omega) goal
  enough := by omega
  plenty := by omega

theorem passes_goals (bound : Nat) (goal : Goal) : Passes (parser bound goal) := by
  intro state value after ran
  have reaches := approximates_goals (Nat.le_add_right bound (2 * left state + 2)) goal
  exact (reaches.result (agree_goals _ (by omega) goal) ran).2

theorem passes_functionDef (bound : Nat) : Passes (functionDef bound (parser bound)) := by
  intro state value after ran
  have less := Nat.le_add_right bound (2 * left state)
  have reaches := composed_functionDef.approximates less (approximates_goals less)
  exact (reaches.result (agree_functionDef (ready_goals _ (by omega))) ran).2

/-- The loops of the grammar, by what is done in one round. -/
inductive Loop : {σ β : Type} → (σ → Nat → Parser → Parse (Round σ β)) → Prop where
  | script : Loop fun state _ inner => scriptRound inner state
  | block : Loop fun state _ inner => blockRound inner state
  | package : Loop fun state bound inner => packageRound bound inner state
  | cases : Loop fun state bound inner => caseRound bound inner state
  | values : Loop fun state _ inner => valueRound inner state
  | caseBody : Loop fun state _ inner => caseBodyRound inner state
  | members : Loop fun state bound inner => memberRound bound inner state
  | exprs (close : Punct) (noun : String) :
      Loop fun state _ inner => itemRound close (inner .expression) noun state
  | parameters (close : Punct) (noun : String) :
      Loop fun state _ _ => itemRound close parameter noun state
  | suffixes : Loop fun state bound inner => suffixRound bound inner state
  | operators (tighter : List (List (OperatorToken × BinaryOp)))
      (level : List (OperatorToken × BinaryOp)) :
      Loop fun state bound inner => levelRound (binary bound inner tighter) level state

/-- Every loop of the grammar is put together from the constructs. -/
theorem Loop.composed {round : σ → Nat → Parser → Parse (Round σ β)} (loop : Loop round)
    (state : σ) : Composed true (round state) := by
  cases loop with
  | script => exact composed_scriptRound state
  | block => exact composed_blockRound state
  | package => exact composed_packageRound state
  | cases => exact composed_caseRound state
  | values => exact composed_valueRound state
  | caseBody => exact composed_caseBodyRound state
  | members => exact composed_memberRound state
  | exprs close noun => exact composed_itemRound (.part .expression) close noun state
  | parameters close noun => exact composed_itemRound composed_parameter close noun state
  | suffixes => exact composed_suffixRound state
  | operators tighter level => exact composed_levelRound (composed_binary tighter) level state

/-- There are fewer tokens left behind a round that goes on. -/
abbrev Fewer (size : Nat) (turn _ : Round σ β) (fewer : Nat) : Prop :=
  ∀ next, turn = .again next → fewer < size

theorem agree_fewer {size : Nat} {kept : σ → σ → Prop} {final : β → β → Nat → Prop}
    {round other : Parse (Round σ β)} (agree : Agree size round other (Turn kept final size)) :
    Agree size round other (Fewer size) := by
  refine agree.mono fun turn twin fewer holds next again => ?_
  subst again
  cases twin with
  | again twin => exact holds.2
  | done result => exact holds.elim

theorem agree_scriptRound {size fewer bound limit : Nat} {inner other : Parser}
    (ready : Ready size bound limit inner other) (within : fewer < size) {stmts twins : List Stmt}
    (same : stmts.map Stmt.bare = twins.map Stmt.bare) :
    Agree fewer (scriptRound inner stmts) (scriptRound other twins) (Rows size fewer) := by
  refine .peek (fun _ => .pure ⟨?_, within⟩) fun token sibling _ _ _ => ?_
  · rw [List.map_reverse, List.map_reverse, same]
  · exact agree_stmtRound (ready.statement fewer within) same

/-- Every loop agrees with itself, and its rounds that go on pass a token. -/
theorem Loop.agree {round : σ → Nat → Parser → Parse (Round σ β)} (loop : Loop round)
    {size fewer bound : Nat} {inner : Parser} (ready : Ready size bound bound inner inner)
    (within : fewer < size) (state : σ) :
    Agree fewer (round state bound inner) (round state bound inner) (Fewer fewer) := by
  cases loop with
  | script => exact agree_fewer (agree_scriptRound ready within rfl)
  | block => exact agree_fewer (agree_blockRound ready within rfl)
  | package => exact agree_fewer (agree_packageRound ready within rfl)
  | cases => exact agree_fewer (agree_caseRound ready within rfl)
  | values => exact agree_fewer (agree_valueRound ready within rfl)
  | caseBody => exact agree_fewer (agree_caseBodyRound ready within rfl)
  | members => exact agree_fewer (agree_memberRound ready within rfl)
  | exprs close noun =>
      exact agree_fewer (agree_itemRound ready.expression within ⟨rfl, rfl⟩)
  | parameters close noun =>
      have items : Items Prod.fst size parameter parameter := fun _ _ => agree_parameter
      exact agree_fewer (agree_itemRound items within ⟨rfl, rfl⟩)
  | suffixes => exact agree_fewer (agree_suffixRound ready within rfl)
  | operators tighter level =>
      have operands :
          Items Expr.bare size (binary bound inner tighter) (binary bound inner tighter) :=
        fun fewer less => agree_binary (ready.fewer (Nat.le_of_lt less)) tighter
      exact agree_fewer (agree_levelRound operands level within rfl)

theorem Loop.advances {round : σ → Nat → Parser → Parse (Round σ β)} (loop : Loop round)
    (bound : Nat) (state : σ) : Advances (round state bound (parser bound)) := by
  intro here next after ran
  have less := Nat.le_add_right bound (2 * (left here + 1))
  have reaches := (loop.composed state).approximates less (approximates_goals less)
  exact reaches.result (loop.agree (ready_goals _ (by omega)) (Nat.lt_succ_self _) state) ran
    next rfl

/-- A loop that succeeded ended with a round that was done. -/
theorem rounds_done {round : σ → Parse (Round σ β)} {fault : Fault} {bound : Nat} {first : σ}
    {state after : ParseState} {result : β}
    (ran : rounds fault round bound first state = .ok result after) :
    ∃ last before, round last before = .ok (.done result) after := by
  induction bound generalizing first state with
  | zero => cases ran
  | succ bound ih =>
      obtain ⟨turn, between, turned, rest⟩ := bind_ok_iff.mp ran
      cases turn with
      | again next => exact ih rest
      | done result =>
          cases rest
          exact ⟨first, state, turned⟩

theorem next?_bind (next : Option Token → Parse α) (state : ParseState) :
    (next? >>= next) state = next state.skipped.tokens.head? state.skipped :=
  rfl

/-- A script is done where there are no tokens left. -/
theorem tokens_of_scriptRound_done {inner : Parser} {stmts result : List Stmt}
    {before after : ParseState} (ran : scriptRound inner stmts before = .ok (.done result) after) :
    after.tokens = [] := by
  unfold scriptRound at ran
  rw [next?_bind] at ran
  cases ahead : before.skipped.tokens.head? with
  | none =>
      rw [ahead] at ran
      cases ran
      exact List.head?_eq_none_iff.mp ahead
  | some token =>
      rw [ahead] at ran
      obtain ⟨stmt, between, _, goesOn⟩ := bind_ok_iff.mp ran
      cases goesOn

theorem tokens_of_root {bound : Nat} {state after : ParseState} {stmts : List Stmt}
    (ran : root bound state = .ok stmts after) : after.tokens = [] := by
  obtain ⟨position, between, _, rest⟩ := bind_ok_iff.mp ran
  rw [rootRound_eq] at rest
  obtain ⟨last, before, done⟩ := rounds_done rest
  exact tokens_of_scriptRound_done done

/-- A run does not break off for want of steps. -/
def Finishes (result : EStateM.Result Fault ParseState α) : Prop :=
  ∀ position final, result ≠ .error ⟨position, .outOfSteps⟩ final

theorem Agree.finishes {parser : Parse α} {demand : α → α → Nat → Prop} {state : ParseState}
    (agree : Agree (left state) parser parser demand) : Finishes (parser state) := by
  intro position final short
  have outcomes := agree state state ⟨rfl, rfl, rfl, rfl, rfl, rfl⟩ rfl
  rw [short] at outcomes
  exact outcomes.2.1 rfl

theorem finishes_runRoot (limit : Option Nat) (symbols : SymbolTable) (tokens : List Token) :
    Finishes (runRoot limit symbols tokens) := by
  have enough : 2 * left (start limit symbols tokens) + 2 ≤ stepsFor tokens :=
    enough_stepsFor tokens
  exact (agree_root enough enough).finishes

/-- More steps than enough change nothing. -/
theorem root_eq_runRoot (limit : Option Nat) (symbols : SymbolTable) {tokens : List Token}
    {bound : Nat} (more : stepsFor tokens ≤ bound) :
    root bound (start limit symbols tokens) = runRoot limit symbols tokens := by
  have reaches : Approximates (root (stepsFor tokens)) (root bound) :=
    composed_root.approximates more (approximates_goals more)
  obtain same | ⟨position, final, short⟩ := reaches (start limit symbols tokens)
  · exact same.symm
  · exact absurd short (finishes_runRoot limit symbols tokens position final)

/-- Reading comes to an end on all tokens: steps never run out, and more of them would change
nothing. A script that was read has no tokens left but comments in the end. Every part that is read
passes a token, every round of a loop that goes on does, and nothing moves back. -/
theorem reading_comes_to_end (limit : Option Nat) (symbols : SymbolTable) (tokens : List Token) :
    Finishes (runRoot limit symbols tokens) ∧
    (∀ bound, stepsFor tokens ≤ bound →
      root bound (start limit symbols tokens) = runRoot limit symbols tokens) ∧
    (∀ stmts after, runRoot limit symbols tokens = .ok stmts after → after.tokens = []) ∧
    ∀ bound,
      (∀ goal, Passes (parser bound goal)) ∧ Passes (functionDef bound (parser bound)) ∧
      (∀ goal state, 2 * left state + 2 ≤ bound → Finishes (parser bound goal state)) ∧
      (∀ {σ β : Type} {round : σ → Nat → Parser → Parse (Round σ β)}, Loop round →
        ∀ state, Advances (round state bound (parser bound))) ∧
      ∀ {α : Type} {numbers : Bool} {body : Nat → Parser → Parse α}, Composed numbers body →
        Forward (body bound (parser bound)) := by
  refine ⟨finishes_runRoot limit symbols tokens, ?_, fun stmts after ran => tokens_of_root ran, ?_⟩
  · exact fun bound more => root_eq_runRoot limit symbols more
  intro bound
  refine ⟨passes_goals bound, passes_functionDef bound, ?_, ?_, ?_⟩
  · exact fun goal state enough => (agree_goals _ enough goal).finishes
  · exact fun loop state => loop.advances bound state
  · exact fun composed =>
      composed.holds_goals compositional_forward (fun plain => plain.forward) bound

/-- A call with a comment behind it is read to its end, and so it is with a thousand steps. -/
theorem reading_comes_to_end_call :
    ∃ tokens, Token.scan (Utf8.encode "f(1); /* end */") = .ok tokens ∧
      ∃ stmts after, runRoot none (.empty 0) tokens = .ok stmts after ∧ after.tokens = [] ∧
        root 1000 (start none (.empty 0) tokens) = .ok stmts after := by
  obtain ⟨tokens, scanned, enough, read⟩ :
      ∃ tokens, Token.scan (Utf8.encode "f(1); /* end */") = .ok tokens ∧
        stepsFor tokens ≤ 1000 ∧
        ((root (stepsFor tokens)).run' (start none (.empty 0) tokens)).isSome = true :=
    ⟨_, rfl, by decide +kernel, by decide +kernel⟩
  have ⟨_, more, done, _⟩ := reading_comes_to_end none (.empty 0) tokens
  cases ran : runRoot none (.empty 0) tokens with
  | error fault after =>
      unfold EStateM.run' EStateM.run at read
      rw [show root (stepsFor tokens) (start none (.empty 0) tokens) = .error fault after from ran]
        at read
      cases read
  | ok stmts after =>
      exact ⟨tokens, scanned, stmts, after, ran, done stmts after ran, (more 1000 enough).trans ran⟩

end ScriptConsole.Parse
