import ScriptConsole.Proofs.Parse.Parts

/-! # Places that parsers name

Where all places that tokens record are good ones, a parser complains about good places alone, and
what it reads starts in good places (`ScriptConsole.Parse.Places`). Good places are those of a
source in the end, but nothing here depends on what they are.
-/

namespace ScriptConsole

/-- The places that a state records are good: the ends of the tokens and where reading has come
to. -/
structure ParseState.Places (good : Position → Prop) (state : ParseState) : Prop where
  passed : good state.passed
  tokens : ∀ token ∈ state.tokens, good token.span.first ∧ good token.span.last

namespace Parse

variable {good : Position → Prop} {α β σ : Type}

/-- From a state of good places a parser comes to such a state with a result as demanded, or it
complains about a good place. -/
def Places (good : Position → Prop) (parser : Parse α) (demand : α → Prop) : Prop :=
  ∀ state : ParseState, state.Places good →
    (∀ value after, parser state = .ok value after → after.Places good ∧ demand value) ∧
      ∀ fault after, parser state = .error fault after → good fault.position

namespace Places

variable {parser : Parse α} {demand : α → Prop}

theorem pure {value : α} (holds : demand value) : Places good (Pure.pure value) demand := by
  refine fun state placed => ⟨?_, fun _ _ ran => nomatch ran⟩
  rintro _ _ ⟨⟩
  exact ⟨placed, holds⟩

/-- The second part begins in a state of good places, as the first one ended in such a state. -/
theorem bind {next : α → Parse β} {final : β → Prop} (start : Places good parser demand)
    (rest : ∀ value, demand value → Places good (next value) final) :
    Places good (parser >>= next) final := by
  intro state placed
  cases ran : parser state with
  | error fault after =>
      rw [bind_of_error ran]
      refine ⟨fun _ _ ran => (nomatch ran), fun _ _ same => ?_⟩
      obtain ⟨rfl, -⟩ := EStateM.Result.error.inj same
      exact (start state placed).2 fault after ran
  | ok value after =>
      rw [bind_of_ok ran]
      obtain ⟨stays, holds⟩ := (start state placed).1 value after ran
      exact rest value holds after stays

theorem mono {weaker : α → Prop} (places : Places good parser demand)
    (implies : ∀ value, demand value → weaker value) : Places good parser weaker :=
  fun state placed => ⟨fun value after ran =>
    ⟨((places state placed).1 value after ran).1,
      implies value ((places state placed).1 value after ran).2⟩, (places state placed).2⟩

theorem map {view : α → β} {final : β → Prop}
    (places : Places good parser fun value => final (view value)) :
    Places good (view <$> parser) final :=
  .bind places fun _ holds => .pure holds

/-- What a change keeps of a state are its places. -/
theorem of_change {change : ParseState → α × ParseState}
    (same : ∀ state, (change state).2.tokens = state.tokens ∧
      (change state).2.passed = state.passed)
    (holds : ∀ state, demand (change state).1) : Places good (modifyGet change) demand := by
  refine fun state placed => ⟨?_, fun _ _ ran => nomatch ran⟩
  rintro _ _ ⟨⟩
  obtain ⟨tokens, passed⟩ := same state
  exact ⟨⟨passed ▸ placed.passed, tokens ▸ placed.tokens⟩, holds state⟩

end Places

section Failing

theorem places_failAt {position : Position} (placed : good position) (complaint : Complaint)
    (demand : α → Prop) : Places good (failAt position complaint) demand := by
  refine fun state _ => ⟨fun _ _ ran => (nomatch ran), ?_⟩
  rintro _ _ ⟨⟩
  exact placed

/-- Nothing is read behind a failure. -/
theorem places_failAt_bind {position : Position} (placed : good position) (complaint : Complaint)
    (next : β → Parse α) (demand : α → Prop) :
    Places good (failAt position complaint >>= next) demand :=
  .bind (places_failAt placed complaint fun _ => False) fun _ absurd => absurd.elim

theorem places_get : Places good (get : Parse ParseState) (ParseState.Places good) := by
  refine fun state placed => ⟨?_, fun _ _ ran => nomatch ran⟩
  rintro _ _ ⟨⟩
  exact ⟨placed, placed⟩

theorem places_here : Places good here good := by
  refine .bind places_get fun state placed => ?_
  cases tokens : state.tokens with
  | nil => exact .pure placed.passed
  | cons token rest => exact .pure (placed.tokens token (tokens ▸ List.mem_cons_self)).1

theorem places_failHere (complaint : Complaint) (demand : α → Prop) :
    Places good (failHere complaint) demand :=
  .bind places_here fun _ placed => places_failAt placed complaint demand

end Failing

section Tokens

/-- The place behind skipped comments is the last one of a comment, or where skipping began. -/
theorem skipComments_places {passed : Position} {tokens : List Token} (here : good passed)
    (all : ∀ token ∈ tokens, good token.span.first ∧ good token.span.last) :
    good (skipComments passed tokens).1 := by
  induction tokens generalizing passed with
  | nil => exact here
  | cons token tokens ih =>
      obtain ⟨first, rest⟩ := List.forall_mem_cons.mp all
      unfold skipComments
      split
      · exact ih first.2 rest
      · exact here

theorem places_skipped {state : ParseState} (placed : state.Places good) :
    state.skipped.Places good where
  passed := skipComments_places placed.passed placed.tokens
  tokens token member :=
    placed.tokens token ((skipComments_suffix state.passed state.tokens).mem member)

theorem places_next? : Places good next? fun next => ∀ token ∈ next, good token.span.first := by
  refine fun state placed => ⟨?_, fun _ _ ran => nomatch ran⟩
  rintro _ _ ⟨⟩
  refine ⟨places_skipped placed, fun token head => ?_⟩
  exact ((places_skipped placed).tokens token (List.mem_of_head? head)).1

theorem places_nextKind? : Places good nextKind? fun _ => True :=
  .bind places_next? fun _ _ => .pure trivial

theorem places_nextIs (punct : Punct) : Places good (nextIs punct) fun _ => True :=
  .bind places_nextKind? fun _ _ => .pure trivial

theorem places_secondKind? : Places good secondKind? fun _ => True :=
  .bind places_next? fun _ _ => .bind places_get fun _ _ => .pure trivial

/-- Passing a token goes on to where the token ends, which is a good place like all those of tokens.
-/
theorem places_pass : Places good pass fun _ => True := by
  refine .bind places_next? fun _ _ state placed => ⟨?_, fun _ _ ran => nomatch ran⟩
  rintro _ _ ⟨⟩
  refine ⟨?_, trivial⟩
  dsimp only
  cases tokens : state.tokens with
  | nil => exact placed
  | cons token rest =>
      have all := tokens ▸ placed.tokens
      exact ⟨(all token List.mem_cons_self).2, fun other member =>
        all other (List.mem_cons_of_mem _ member)⟩

/-- What follows a look at the next token is read from where it starts. -/
theorem Places.peek {next : Option Token → Parse α} {demand : α → Prop}
    (nothing : Places good (next none) demand)
    (more : ∀ token, good token.span.first → Places good (next (some token)) demand) :
    Places good (next? >>= next) demand := by
  refine .bind places_next? fun found placed => ?_
  cases found with
  | none => exact nothing
  | some token => exact more token (placed token rfl)

theorem places_nextWord? : Places good nextWord? fun _ => True := by
  refine .peek (.pure trivial) fun token _ => ?_
  dsimp only
  split <;> exact .pure trivial

theorem places_nextIsWord (word : String) : Places good (nextIsWord word) fun _ => True :=
  .bind places_nextWord? fun _ _ => .pure trivial

/-- A token that is passed starts what is read. -/
theorem places_passing {value : α} {demand : α → Prop} {condition : Prop} [Decidable condition]
    {complaint : Complaint} (holds : demand value) :
    Places good
      (if condition then do pass; return value else failHere complaint : Parse α) demand := by
  split
  · exact .bind places_pass fun _ _ => .pure holds
  · exact places_failHere _ _

theorem places_expect (punct : Punct) : Places good (expect punct) fun span => good span.first :=
  .peek (places_failHere _ _) fun _ first => places_passing first

theorem places_accept (punct : Punct) : Places good (accept punct) fun _ => True := by
  refine .bind (places_nextIs punct) fun found _ => ?_
  cases found with
  | true => exact .bind places_pass fun _ _ => .pure trivial
  | false => exact .pure trivial

theorem places_intern (name : String) : Places good (intern name) fun _ => True :=
  .of_change (fun _ => ⟨rfl, rfl⟩) fun _ => trivial

theorem places_constant (text : String) : Places good (constant text) fun _ => True :=
  .bind places_get fun _ _ => .pure trivial

theorem places_anyWord : Places good anyWord fun read => good read.2.first :=
  .peek (places_failHere _ _) fun _ first => places_passing first

theorem places_word (expected : String) :
    Places good (word expected) fun span => good span.first := by
  refine .bind places_here fun start placed => .bind places_anyWord fun read first => ?_
  dsimp only
  split
  · exact .pure first
  · exact places_failAt placed _ _

theorem places_name : Places good name fun read => good read.2.first := by
  refine .bind places_anyWord fun read first => ?_
  dsimp only
  split
  · exact places_failAt first _ _
  · exact .pure first

theorem places_variableName : Places good variableName fun read => good read.2.2.first := by
  refine .peek (places_failHere _ _) fun token first => ?_
  dsimp only
  split
  · exact .bind places_pass fun _ _ => .pure first
  · exact .bind places_pass fun _ _ => .pure first
  · exact places_failHere _ _

theorem places_number : Places good number fun read => good read.2.first := by
  refine .peek (places_failHere _ _) fun token first => ?_
  dsimp only
  split
  · refine .bind places_pass fun _ _ => ?_
    cases numberValue token.text with
    | ok value => exact .pure first
    | error complaint => exact places_failAt first _ _
  · exact places_failHere _ _

theorem places_string : Places good string fun read => good read.2.first := by
  refine .peek (places_failHere _ _) fun token first => ?_
  dsimp only
  split
  · exact .bind places_pass fun _ _ => .bind (places_constant _) fun _ _ => .pure first
  · exact .bind places_pass fun _ _ => .bind (places_constant _) fun _ _ => .pure first
  · exact places_failHere _ _

theorem places_nextOperator? (read : Punct → Option α) :
    Places good (nextOperator? read) fun found => ∀ operator ∈ found, good operator.2.first := by
  refine .peek (.pure nofun) fun token first => ?_
  dsimp only
  split
  · refine .pure fun operator found => ?_
    obtain ⟨_, _, rfl⟩ := Option.map_eq_some_iff.mp found
    exact first
  · exact .pure nofun

end Tokens

section Loops

/-- The state or the result of a round is as demanded. -/
def Places.turn (kept : σ → Prop) (final : β → Prop) : Round σ β → Prop
  | .again state => kept state
  | .done result => final result

variable {kept : σ → Prop} {final : β → Prop} {round : σ → Parse (Round σ β)}

/-- The rounds of a loop keep the state good. The bound is complained about where the loop began. -/
theorem places_rounds
    (each : ∀ state, kept state → Places good (round state) (Places.turn kept final))
    {fault : Fault} (placed : good fault.position) (bound : Nat) {state : σ} (holds : kept state) :
    Places good (rounds fault round bound state) final := by
  induction bound generalizing state with
  | zero => exact places_failAt placed fault.complaint final
  | succ bound ih =>
      refine .bind (each state holds) fun outcome turned => ?_
      cases outcome with
      | done result => exact .pure turned
      | again next => exact ih turned

theorem places_repeatRounds
    (each : ∀ state, kept state → Places good (round state) (Places.turn kept final)) (bound : Nat)
    {state : σ} (holds : kept state) : Places good (repeatRounds bound round state) final :=
  .bind places_here fun _ placed => places_rounds each placed bound holds

variable {item : Parse α} {demand : α → Prop} (places : Places good item demand)
include places

/-- In a list a complaint is about an item, or about the token where an item or a comma is missing.
-/
theorem places_list? (bound : Nat) (opening close : Punct) (noun : String) :
    Places good (list? bound opening close item noun) fun read =>
      ∀ values ∈ read, ∀ value ∈ values, demand value := by
  refine .bind (places_accept opening) fun opened _ => ?_
  cases opened with
  | false => exact .pure nofun
  | true =>
      have each (state : List α × Bool) (holds : ∀ value ∈ state.1, demand value) :
          Places good (itemRound close item noun state)
            (Places.turn (fun state => ∀ value ∈ state.1, demand value)
              fun values => ∀ value ∈ values, demand value) := by
        obtain ⟨values, afterComma⟩ := state
        refine .bind (places_accept close) fun closed _ => ?_
        cases closed with
        | true => exact .pure fun value member => holds value (List.mem_reverse.mp member)
        | false =>
            cases afterComma with
            | false => exact places_failHere _ _
            | true =>
                refine .bind places fun first isItem => ?_
                exact .bind (places_accept .comma) fun _ _ =>
                  .pure (List.forall_mem_cons.mpr ⟨isItem, holds⟩)
      refine .bind (places_repeatRounds each bound nofun) fun values holds => .pure ?_
      intro read isRead
      obtain rfl := Option.some.inj isRead
      exact holds

theorem places_list (bound : Nat) (opening close : Punct) (noun listNoun : String) :
    Places good (list bound opening close item noun listNoun) fun values =>
      ∀ value ∈ values, demand value := by
  refine .bind places_here fun start placed => ?_
  refine .bind (places_list? places bound opening close noun) fun read holds => ?_
  cases read with
  | none => exact places_failAt placed _ _
  | some values => exact .pure (holds values rfl)

end Loops

section Nodes

variable {span : Span}

/-- A level that is refused is complained about at the next token. -/
theorem Places.nested {parser : Parse α} {demand : α → Prop} (places : Places good parser demand) :
    Places good (nested parser) demand := by
  have change (change : ParseState → ParseState) (same : ∀ state, (change state).tokens =
      state.tokens ∧ (change state).passed = state.passed) :
      Places good (modify change) fun _ => True :=
    .of_change same fun _ => trivial
  have reading : Places good
      (do
        modify fun state =>
          { state with depth := state.depth + 1, deepest := max state.deepest (state.depth + 1) }
        let result ← parser
        modify fun state => { state with depth := state.depth - 1 }
        return result) demand :=
    .bind (change _ fun _ => ⟨rfl, rfl⟩) fun _ _ => .bind places fun _ holds =>
      .bind (change _ fun _ => ⟨rfl, rfl⟩) fun _ _ => .pure holds
  refine .bind places_get fun state _ => ?_
  cases state.limit with
  | none => exact reading
  | some limit =>
      dsimp only
      split
      · exact .bind (places_failHere _ fun _ => False) fun _ absurd => absurd.elim
      · exact reading

theorem places_markExpr : Places good (markExpr span) fun mark => mark.span = span :=
  .of_change (fun _ => ⟨rfl, rfl⟩) fun _ => rfl

theorem places_markStmt : Places good (markStmt span) fun _ => True :=
  .of_change (fun _ => ⟨rfl, rfl⟩) fun _ => trivial

theorem places_markDefinition : Places good (markDefinition span) fun _ => True :=
  .of_change (fun _ => ⟨rfl, rfl⟩) fun _ => trivial

/-- An expression starts in a good place. -/
def Starts (good : Position → Prop) (expr : Expr) : Prop :=
  good expr.mark.span.first

/-- An expression that is complete once it is numbered starts where it is marked. -/
theorem places_expr (first : good span.first) {build : Mark → Expr}
    (marked : ∀ mark, (build mark).mark = mark) :
    Places good (markExpr span >>= fun mark => Pure.pure (build mark)) (Starts good) := by
  refine .bind places_markExpr fun mark same => .pure ?_
  unfold Starts
  rw [marked, same]
  exact first

theorem places_stmt {build : Mark → Stmt} :
    Places good (markStmt span >>= fun mark => Pure.pure (build mark)) fun _ => True :=
  .bind places_markStmt fun _ _ => .pure trivial

end Nodes

end Parse

end ScriptConsole
