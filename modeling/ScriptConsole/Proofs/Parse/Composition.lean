import ScriptConsole.Parse.Script
import ScriptConsole.Proofs.Parse.Reads
import ScriptConsole.Proofs.Parse.Switches

/-! # What parsers are put together from

Every part of the grammar is read by a parser that is put together from few constructs: plain
parsers, which know nothing of nesting and move forward, parts that are read inside, levels of
nesting, and loops (`ScriptConsole.Parse.Composed`). A property that goes through all constructs is
one of every part (`ScriptConsole.Parse.Compositional`).
-/

namespace ScriptConsole

/-- The state with other levels of nesting: how many may be open, are open and were open. -/
def ParseState.withLevels (state : ParseState) (limit : Option Nat) (depth deepest : Nat) :
    ParseState :=
  { state with limit, depth, deepest }

/-- The state with one more level open. -/
def ParseState.opened (state : ParseState) : ParseState :=
  { state with depth := state.depth + 1, deepest := max state.deepest (state.depth + 1) }

/-- The state with one level less open. -/
def ParseState.closed (state : ParseState) : ParseState :=
  { state with depth := state.depth - 1 }

theorem skipComments_suffix (passed : Position) (tokens : List Token) :
    (skipComments passed tokens).2 <:+ tokens := by
  induction tokens generalizing passed with
  | nil => exact List.suffix_rfl
  | cons token tokens ih =>
      unfold skipComments
      split
      · exact (ih token.span.last).trans (List.suffix_cons token tokens)
      · exact List.suffix_rfl

namespace Parse

variable {α β σ : Type}

/-- The state that a run comes to. -/
def ended : EStateM.Result Fault ParseState α → ParseState
  | .ok _ state => state
  | .error _ state => state

/-- A result with a change of the state behind it. -/
def changed (change : ParseState → ParseState) :
    EStateM.Result Fault ParseState α → EStateM.Result Fault ParseState α
  | .ok value state => .ok value (change state)
  | .error fault state => .error fault (change state)

/-- A result behind which a level is closed, if there is one. -/
def closing : EStateM.Result Fault ParseState α → EStateM.Result Fault ParseState α
  | .ok value state => .ok value state.closed
  | .error fault state => .error fault state

/-- A level is refused if as many as the limit allows are open. Otherwise it is opened for the
parser and closed behind it. -/
theorem nested_cases (state : ParseState) :
    (∃ limit position, state.limit = some limit ∧ limit ≤ state.depth ∧
      ∀ {α : Type} (parser : Parse α),
        nested parser state = .error ⟨position, .nestedTooDeep limit⟩ state) ∨
    (∀ limit, state.limit = some limit → state.depth < limit) ∧
      ∀ {α : Type} (parser : Parse α), nested parser state = closing (parser state.opened) := by
  have reading (room : ∀ limit, state.limit = some limit → state.depth < limit) {α : Type}
      (parser : Parse α) : nested parser state = closing (parser state.opened) := by
    rw [nested_apply parser room]
    change EStateM.bind parser _ state.opened = _
    unfold EStateM.bind
    cases parser state.opened <;> rfl
  obtain ⟨tokens, passed, symbols, counts, limit, depth, deepest⟩ := state
  cases limit with
  | none => exact .inr ⟨nofun, reading nofun⟩
  | some limit =>
      by_cases full : limit ≤ depth
      · have refused {α : Type} (parser : Parse α) :
            nested parser ⟨tokens, passed, symbols, counts, some limit, depth, deepest⟩ =
              (failHere (.nestedTooDeep limit) : Parse α)
                ⟨tokens, passed, symbols, counts, some limit, depth, deepest⟩ := by
          change (ite (limit ≤ depth) _ _ : Parse α) _ = _
          rw [if_pos full]
          cases tokens <;> rfl
        cases tokens with
        | nil => exact .inl ⟨limit, _, rfl, full, refused⟩
        | cons token tokens => exact .inl ⟨limit, _, rfl, full, refused⟩
      · have room (other : Nat) (limited : some limit = some other) : depth < other := by
          obtain rfl := Option.some.inj limited
          exact Nat.lt_of_not_le full
        exact .inr ⟨room, reading room⟩

/-- A level that was opened for a parser that succeeded is closed in the end. -/
theorem nested_ok {parser : Parse α} {state after : ParseState} {value : α}
    (ran : nested parser state = .ok value after) :
    ∃ inside, parser state.opened = .ok value inside ∧ after = inside.closed := by
  obtain ⟨limit, position, _, _, refused⟩ | ⟨_, opened⟩ := nested_cases state
  · rw [refused] at ran
    cases ran
  · rw [opened] at ran
    cases began : parser state.opened with
    | error fault inside =>
        rw [began] at ran
        cases ran
    | ok result inside =>
        rw [began] at ran
        cases ran
        exact ⟨inside, rfl, rfl⟩

/-- A parser neither asks for nor changes the levels of nesting, and it does not move back. -/
structure Plain (parser : Parse α) : Prop where
  levels (state : ParseState) (limit : Option Nat) (depth deepest : Nat) :
    parser (state.withLevels limit depth deepest) =
      changed (·.withLevels limit depth deepest) (parser state)
  forward (state : ParseState) : (ended (parser state)).tokens <:+ state.tokens

/-- A plain parser that numbers no nodes. -/
structure Quiet (parser : Parse α) : Prop extends Plain parser where
  counts (state : ParseState) : (ended (parser state)).counts = state.counts

/-- A parser that is given a bound and parsers for the parts inside, put together from the
constructs of the grammar. The flag tells whether it may number nodes. -/
inductive Composed : Bool → {α : Type} → (Nat → Parser → Parse α) → Prop where
  | pure {numbers : Bool} {α : Type} (value : α) : Composed numbers fun _ _ => Pure.pure value
  | bind {numbers : Bool} {α β : Type} {first : Nat → Parser → Parse α}
      {next : α → Nat → Parser → Parse β} (start : Composed numbers first)
      (rest : ∀ value, Composed numbers (next value)) :
      Composed numbers fun bound inner => first bound inner >>= fun value => next value bound inner
  | quiet {numbers : Bool} {α : Type} {parser : Parse α} (quiet : Quiet parser) :
      Composed numbers fun _ _ => parser
  | mark {α : Type} {parser : Parse α} (plain : Plain parser) : Composed true fun _ _ => parser
  | part (goal : Goal) : Composed true fun _ inner => inner goal
  | nested {numbers : Bool} {α : Type} {body : Nat → Parser → Parse α}
      (composed : Composed numbers body) :
      Composed numbers fun bound inner => Parse.nested (body bound inner)
  | loop {numbers : Bool} {σ β : Type} {round : σ → Nat → Parser → Parse (Round σ β)}
      (each : ∀ state, Composed numbers (round state)) (state : σ) :
      Composed numbers fun bound inner =>
        repeatRounds bound (fun state => round state bound inner) state

theorem Composed.map {numbers : Bool} {body : Nat → Parser → Parse α}
    (composed : Composed numbers body) (view : α → β) :
    Composed numbers fun bound inner => view <$> body bound inner :=
  .bind composed fun value => .pure (view value)

section Primitive

theorem quiet_pure (value : α) : Quiet (Pure.pure value : Parse α) where
  levels _ _ _ _ := rfl
  forward _ := List.suffix_rfl
  counts _ := rfl

theorem quiet_failAt (position : Position) (complaint : Complaint) :
    Quiet (failAt position complaint : Parse α) where
  levels _ _ _ _ := rfl
  forward _ := List.suffix_rfl
  counts _ := rfl

theorem quiet_here : Quiet here where
  levels state _ _ _ := by
    obtain ⟨tokens, _⟩ := state
    cases tokens <;> rfl
  forward state := by
    obtain ⟨tokens, _⟩ := state
    cases tokens <;> exact List.suffix_rfl
  counts state := by
    obtain ⟨tokens, _⟩ := state
    cases tokens <;> rfl

theorem quiet_next? : Quiet next? where
  levels _ _ _ _ := rfl
  forward state := skipComments_suffix state.passed state.tokens
  counts _ := rfl

theorem quiet_secondKind? : Quiet secondKind? where
  levels _ _ _ _ := rfl
  forward state := skipComments_suffix state.passed state.tokens
  counts _ := rfl

/-- Passing a token skips the comments in front of it, and reads neither levels nor counts. -/
theorem quiet_pass : Quiet pass where
  levels state limit depth deepest := by
    have ran (state : ParseState) :
        pass state = EStateM.modifyGet (fun state => ((), _)) state.skipped := rfl
    rw [ran, ran]
    unfold EStateM.modifyGet ParseState.skipped ParseState.withLevels
    dsimp only
    cases (skipComments state.passed state.tokens).2 <;> rfl
  forward state := by
    obtain ⟨passed, ran⟩ := pass_apply state
    rw [ran]
    exact (List.tail_suffix _).trans (skipComments_suffix state.passed state.tokens)
  counts state := by
    obtain ⟨passed, ran⟩ := pass_apply state
    rw [ran]
    rfl

theorem quiet_intern (name : String) : Quiet (intern name) where
  levels _ _ _ _ := rfl
  forward _ := List.suffix_rfl
  counts _ := rfl

theorem quiet_constant (text : String) : Quiet (constant text) where
  levels _ _ _ _ := rfl
  forward _ := List.suffix_rfl
  counts _ := rfl

theorem plain_markExpr (span : Span) : Plain (markExpr span) where
  levels _ _ _ _ := rfl
  forward _ := List.suffix_rfl

theorem plain_markStmt (span : Span) : Plain (markStmt span) where
  levels _ _ _ _ := rfl
  forward _ := List.suffix_rfl

theorem plain_markDefinition (span : Span) : Plain (markDefinition span) where
  levels _ _ _ _ := rfl
  forward _ := List.suffix_rfl

end Primitive

section Properties

/-- A property that parsers have if those have it that they are put together from. -/
structure Compositional (property : {α : Type} → Parse α → Prop) : Prop where
  quiet {α : Type} {parser : Parse α} : Quiet parser → property parser
  bind {α β : Type} {parser : Parse α} {next : α → Parse β} :
    property parser → (∀ value, property (next value)) → property (parser >>= next)
  nested {α : Type} {parser : Parse α} : property parser → property (nested parser)

variable {property : {α : Type} → Parse α → Prop} (compositional : Compositional property)
include compositional

theorem Compositional.rounds {round : σ → Parse (Round σ β)}
    (each : ∀ state, property (round state)) (fault : Fault) (bound : Nat) (state : σ) :
    property (ScriptConsole.rounds fault round bound state) := by
  induction bound generalizing state with
  | zero => exact compositional.quiet (quiet_failAt fault.position fault.complaint)
  | succ bound ih =>
      refine compositional.bind (each state) fun turn => ?_
      cases turn with
      | done result => exact compositional.quiet (quiet_pure result)
      | again next => exact ih next

/-- A compositional property that plain parsers and the parts inside have is one of all that is put
together from them. -/
theorem Composed.holds {numbers : Bool} {body : Nat → Parser → Parse α}
    (composed : Composed numbers body) {inner : Parser}
    (plain : numbers = true → ∀ {α : Type} {parser : Parse α}, Plain parser → property parser)
    (each : numbers = true → ∀ goal, property (inner goal)) (bound : Nat) :
    property (body bound inner) := by
  induction composed with
  | pure value => exact compositional.quiet (quiet_pure value)
  | bind start rest startIh restIh =>
      exact compositional.bind (startIh plain each) fun value => restIh value plain each
  | quiet isQuiet => exact compositional.quiet isQuiet
  | mark isPlain => exact plain rfl isPlain
  | part goal => exact each rfl goal
  | nested composed ih => exact compositional.nested (ih plain each)
  | loop rounds state ih =>
      exact compositional.bind (compositional.quiet quiet_here) fun _ =>
        compositional.rounds (fun state => ih state plain each) _ bound state

end Properties

section Keeping

/-- A relation of a state to later ones: it lasts from one run to the next, and opening and closing
levels does not end it. -/
structure Lasting (relation : ParseState → ParseState → Prop) : Prop where
  refl (state : ParseState) : relation state state
  trans {first second third : ParseState} :
    relation first second → relation second third → relation first third
  opened (state : ParseState) : relation state state.opened
  closed (state : ParseState) : relation state state.closed

/-- The state that a run comes to is related to the one before it. -/
def Keeps (relation : ParseState → ParseState → Prop) (parser : Parse α) : Prop :=
  ∀ state, relation state (ended (parser state))

variable {relation : ParseState → ParseState → Prop}

theorem Keeps.ok {parser : Parse α} (keeps : Keeps relation parser) {state after : ParseState}
    {value : α} (ran : parser state = .ok value after) : relation state after := by
  have related := keeps state
  rw [ran] at related
  exact related

theorem Keeps.error {parser : Parse α} (keeps : Keeps relation parser) {state after : ParseState}
    {fault : Fault} (ran : parser state = .error fault after) : relation state after := by
  have related := keeps state
  rw [ran] at related
  exact related

variable (lasting : Lasting relation)
include lasting

theorem Keeps.bind {parser : Parse α} {next : α → Parse β} (start : Keeps relation parser)
    (rest : ∀ value, Keeps relation (next value)) : Keeps relation (parser >>= next) := by
  intro state
  cases ran : parser state with
  | error fault after =>
      rw [bind_of_error ran]
      exact start.error ran
  | ok value after =>
      rw [bind_of_ok ran]
      exact lasting.trans (start.ok ran) (rest value after)

/-- What is kept inside is kept by the level around it, as opening and closing a level keep it too.
A refused level changes nothing. -/
theorem Keeps.nested {parser : Parse α} (keeps : Keeps relation parser) :
    Keeps relation (nested parser) := by
  intro state
  obtain ⟨limit, position, _, _, refused⟩ | ⟨_, opened⟩ := nested_cases state
  · rw [refused]
    exact lasting.refl state
  · rw [opened]
    cases ran : parser state.opened with
    | error fault after => exact lasting.trans (lasting.opened state) (keeps.error ran)
    | ok value after =>
        have inside := lasting.trans (lasting.opened state) (keeps.ok ran)
        exact lasting.trans inside (lasting.closed after)

/-- What lasts and is kept by quiet parsers is kept by all that is put together. -/
theorem Lasting.compositional
    (quiet : ∀ {α : Type} {parser : Parse α}, Quiet parser → Keeps relation parser) :
    Compositional (Keeps relation) where
  quiet := quiet
  bind := .bind lasting
  nested := .nested lasting

end Keeping

end Parse

end ScriptConsole
