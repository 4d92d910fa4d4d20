import ScriptConsole.Parse.Basic
import ScriptConsole.Proofs.Script.Marks

/-! # Parsers that agree

Two states are alike if what is left in them is the same but for comments and places, and
so is everything else that they hold (`ScriptConsole.Parse.Alike`). Two parsers agree if
from alike states they both succeed with related results or both fail with the same
complaint (`ScriptConsole.Parse.Agree`). How many tokens are left says when loops end.
-/

namespace ScriptConsole

/-- What a token is to the grammar: its kind and its text. -/
def Token.key (token : Token) : TokenKind × List UInt8 :=
  (token.kind, token.text)

/-- The tokens that are not comments, without their places. -/
def significant (tokens : List Token) : List (TokenKind × List UInt8) :=
  (tokens.filter fun token => !token.kind.isComment).map Token.key

/-- Dropping comments leaves nothing, or the first token that is no comment in front. -/
theorem skipComments_cases (passed : Position) (tokens : List Token) :
    (skipComments passed tokens).2 = [] ∧ significant tokens = [] ∨
      ∃ token rest, (skipComments passed tokens).2 = token :: rest ∧
        significant (token :: rest) = token.key :: significant rest ∧
        significant tokens = token.key :: significant rest := by
  induction tokens generalizing passed with
  | nil => exact .inl ⟨rfl, rfl⟩
  | cons token tokens ih =>
      unfold skipComments
      split
      next comment =>
        have skipped : significant (token :: tokens) = significant tokens := by
          unfold significant
          rw [List.filter_cons_of_neg]
          simp only [comment, Bool.not_true, Bool.false_eq_true, not_false_eq_true]
        rw [skipped]
        exact ih token.span.last
      next comment =>
        have first : significant (token :: tokens) = token.key :: significant tokens := by
          unfold significant
          rw [List.filter_cons_of_pos, List.map_cons]
          simp only [comment, Bool.not_false]
        exact .inr ⟨token, tokens, rfl, first, first⟩

theorem head?_skipComments (passed : Position) (tokens : List Token) :
    (skipComments passed tokens).2.head?.map Token.key = (significant tokens).head? := by
  rcases skipComments_cases passed tokens with ⟨nothing, none⟩ | ⟨token, rest, ahead, _, split⟩
  · rw [nothing, none]
    rfl
  · rw [ahead, split]
    rfl

/-- The state in front of the next token. -/
def ParseState.skipped (state : ParseState) : ParseState :=
  { state with
    passed := (skipComments state.passed state.tokens).1
    tokens := (skipComments state.passed state.tokens).2 }

/-- In front of the next token there is nothing left, or the token itself. -/
theorem ParseState.skipped_cases (state : ParseState) :
    significant state.skipped.tokens = significant state.tokens ∧
      state.skipped.tokens.head?.map Token.key = (significant state.tokens).head? ∧
      significant state.skipped.tokens.tail = (significant state.tokens).tail := by
  unfold skipped
  rcases skipComments_cases state.passed state.tokens with
    ⟨nothing, none⟩ | ⟨token, rest, ahead, first, split⟩
  · rw [nothing, none]
    exact ⟨rfl, rfl, rfl⟩
  · rw [ahead, split, first]
    exact ⟨rfl, rfl, rfl⟩

namespace Parse

/-- States that differ in comments and places alone. -/
structure Alike (first second : ParseState) : Prop where
  tokens : significant first.tokens = significant second.tokens
  symbols : first.symbols = second.symbols
  counts : first.counts = second.counts
  limit : first.limit = second.limit
  depth : first.depth = second.depth
  deepest : first.deepest = second.deepest

/-- How many tokens other than comments are left. -/
def left (state : ParseState) : Nat :=
  (significant state.tokens).length

/-- Two results agree: they both succeed as demanded or both fail with the same complaint,
which is never that reading did not come to an end. -/
def Outcomes {α β : Type} (demand : α → β → Nat → Prop) :
    EStateM.Result Fault ParseState α → EStateM.Result Fault ParseState β → Prop
  | .ok value first, .ok other second => Alike first second ∧ demand value other (left first)
  | .error fault first, .error reason second =>
    fault.complaint = reason.complaint ∧ fault.complaint ≠ .outOfSteps ∧
      first.symbols = second.symbols
  | _, _ => False

/-- Two parsers agree on alike states with so many tokens left. The demand is on both
results and on the number of tokens that are left then. -/
def Agree {α β : Type} (size : Nat) (parser : Parse α) (other : Parse β)
    (demand : α → β → Nat → Prop) : Prop :=
  ∀ first second, Alike first second → left first = size →
    Outcomes demand (parser first) (other second)

namespace Agree

variable {α β γ δ : Type} {size : Nat} {parser : Parse α} {other : Parse β}
  {demand : α → β → Nat → Prop}

theorem pure {value : α} {result : β} (holds : demand value result size) :
    Agree size (Pure.pure value) (Pure.pure result) demand :=
  fun _ _ alike same => ⟨alike, same ▸ holds⟩

/-- Two parsers that agree part by part agree. The second parts are asked only where as many tokens
are left as the first parts left. -/
theorem bind {next : α → Parse γ} {after : β → Parse δ} {final : γ → δ → Nat → Prop}
    (start : Agree size parser other demand)
    (rest : ∀ value result fewer, demand value result fewer →
      Agree fewer (next value) (after result) final) :
    Agree size (parser >>= next) (other >>= after) final := by
  intro first second alike same
  have begun := start first second alike same
  change Outcomes final (EStateM.bind parser next first) (EStateM.bind other after second)
  unfold EStateM.bind
  cases ran : parser first with
  | ok value third =>
      cases followed : other second with
      | ok result fourth =>
          rw [ran, followed] at begun
          exact rest value result _ begun.2 third fourth begun.1 rfl
      | error reason fourth =>
          rw [ran, followed] at begun
          exact begun.elim
  | error fault third =>
      cases followed : other second with
      | ok result fourth =>
          rw [ran, followed] at begun
          exact begun.elim
      | error reason fourth =>
          rw [ran, followed] at begun
          exact begun

/-- What two parsers agree on implies a weaker demand. -/
theorem mono {weaker : α → β → Nat → Prop} (agree : Agree size parser other demand)
    (implies : ∀ value result fewer, demand value result fewer → weaker value result fewer) :
    Agree size parser other weaker := by
  intro first second alike same
  have holds := agree first second alike same
  cases ran : parser first with
  | ok value third =>
      cases followed : other second with
      | ok result fourth =>
          rw [ran, followed] at holds
          exact ⟨holds.1, implies value result _ holds.2⟩
      | error reason fourth =>
          rw [ran, followed] at holds
          exact holds.elim
  | error fault third =>
      cases followed : other second with
      | ok result fourth =>
          rw [ran, followed] at holds
          exact holds.elim
      | error reason fourth =>
          rw [ran, followed] at holds
          exact holds

theorem map {view : α → γ} {shown : β → δ} {final : γ → δ → Nat → Prop}
    (agree : Agree size parser other fun value result fewer =>
      final (view value) (shown result) fewer) :
    Agree size (view <$> parser) (shown <$> other) final :=
  .bind agree fun _ _ _ holds => .pure holds

end Agree

section Primitive

variable {α β : Type} {size : Nat}

theorem agree_get : Agree size (get : Parse ParseState) get
    fun first second fewer => Alike first second ∧ left first = size ∧ fewer = size :=
  fun _ _ alike same => ⟨alike, alike, same, same⟩

theorem agree_modifyGet {change : ParseState → α × ParseState}
    {other : ParseState → β × ParseState} {demand : α → β → Nat → Prop}
    (each : ∀ first second, Alike first second → left first = size →
      Alike (change first).2 (other second).2 ∧
        demand (change first).1 (other second).1 (left (change first).2)) :
    Agree size (modifyGet change) (modifyGet other) demand :=
  each

theorem agree_modify {change : ParseState → ParseState}
    (each : ∀ first second, Alike first second →
      Alike (change first) (change second) ∧ left (change first) = left first) :
    Agree size (modify change) (modify change) fun _ _ fewer => fewer = size :=
  agree_modifyGet fun first second alike same =>
    ⟨(each first second alike).1, (each first second alike).2.trans same⟩

theorem agree_failAt {complaint : Complaint} (proper : complaint ≠ .outOfSteps)
    (position place : Position) (demand : α → β → Nat → Prop) :
    Agree size (failAt position complaint) (failAt place complaint) demand :=
  fun _ _ alike _ => ⟨rfl, proper, alike.symbols⟩

/-- Nothing is read behind a failure. -/
theorem agree_failAt_bind {γ : Type} {complaint : Complaint} (proper : complaint ≠ .outOfSteps)
    (position place : Position) (next : γ → Parse α) (after : γ → Parse β)
    (demand : α → β → Nat → Prop) :
    Agree size (failAt position complaint >>= next) (failAt place complaint >>= after) demand := by
  have failed : Agree size (failAt position complaint) (failAt place complaint)
      fun (_ _ : γ) _ => False := agree_failAt proper position place _
  exact .bind failed fun _ _ _ absurd => absurd.elim

theorem agree_here : Agree size here here fun _ _ fewer => fewer = size := by
  refine .bind agree_get fun first second fewer alike => ?_
  obtain ⟨_, _, rfl⟩ := alike
  cases first.tokens <;> cases second.tokens <;> exact .pure rfl

theorem agree_failHere {complaint : Complaint} (proper : complaint ≠ .outOfSteps)
    (demand : α → β → Nat → Prop) :
    Agree size (failHere complaint) (failHere complaint) demand :=
  .bind agree_here fun position place _ _ => agree_failAt proper position place demand

end Primitive

section Lookahead

variable {α β : Type} {size : Nat} {demand : α → β → Nat → Prop}

theorem Alike.skipped {first second : ParseState} (alike : Alike first second) :
    Alike first.skipped second.skipped :=
  { alike with
    tokens := by rw [first.skipped_cases.1, second.skipped_cases.1, alike.tokens] }

theorem left_skipped (state : ParseState) : left state.skipped = left state := by
  unfold left
  rw [state.skipped_cases.1]

/-- What follows a look at the next token goes by its kind and its text alone. -/
theorem Agree.peek {next : Option Token → Parse α} {after : Option Token → Parse β}
    (nothing : size = 0 → Agree size (next none) (after none) demand)
    (more : ∀ token other, 0 < size → token.kind = other.kind → token.text = other.text →
      Agree size (next (some token)) (after (some other)) demand) :
    Agree size (next? >>= next) (next? >>= after) demand := by
  intro first second alike same
  have kept : left first.skipped = size := (left_skipped first).trans same
  have ahead := first.skipped_cases.2.1
  have there := second.skipped_cases.2.1
  rw [← alike.tokens] at there
  change Outcomes demand (next first.skipped.tokens.head? first.skipped)
    (after second.skipped.tokens.head? second.skipped)
  cases tokens : significant first.tokens with
  | nil =>
      rw [tokens, List.head?_nil, Option.map_eq_none_iff] at ahead there
      have zero : size = 0 := by
        rw [← same, left, tokens, List.length_nil]
      rw [ahead, there]
      exact nothing zero _ _ alike.skipped kept
  | cons key rest =>
      rw [tokens, List.head?_cons, Option.map_eq_some_iff] at ahead there
      obtain ⟨token, front, rfl⟩ := ahead
      obtain ⟨other, frontThere, keys⟩ := there
      obtain ⟨kinds, texts⟩ := Prod.mk.inj keys
      have positive : 0 < size := by
        rw [← same, left, tokens, List.length_cons]
        exact Nat.succ_pos _
      rw [front, frontThere]
      exact more token other positive kinds.symm texts.symm _ _ alike.skipped kept

theorem agree_nextKind? : Agree size nextKind? nextKind?
    fun kind other fewer => kind = other ∧ fewer = size ∧ (kind.isSome → 0 < size) := by
  refine .peek (fun none => .pure ⟨rfl, rfl, fun some => (nomatch some)⟩) ?_
  intro token other positive kinds _
  exact .pure ⟨congrArg some kinds, rfl, fun _ => positive⟩

theorem agree_nextIs (punct : Punct) : Agree size (nextIs punct) (nextIs punct)
    fun found other fewer => found = other ∧ fewer = size ∧ (found = true → 0 < size) := by
  refine .bind agree_nextKind? ?_
  rintro kind _ fewer ⟨rfl, rfl, positive⟩
  refine .pure ⟨rfl, rfl, fun found => positive ?_⟩
  rw [of_decide_eq_true found, Option.isSome_some]

/-- The kind of the token after the next one is the same on alike states, whatever comments stand
between the two. -/
theorem agree_secondKind? : Agree size secondKind? secondKind?
    fun kind other fewer => kind = other ∧ fewer = size := by
  intro first second alike same
  have second_key (state : ParseState) :
      (skipComments state.skipped.passed (state.skipped.tokens.drop 1)).2.head?.map Token.kind =
        ((significant state.tokens).tail.head?).map Prod.fst := by
    rw [← state.skipped_cases.2.2, ← List.drop_one, ← head?_skipComments state.skipped.passed,
      Option.map_map]
    rfl
  refine ⟨alike.skipped, ?_, (left_skipped first).trans same⟩
  exact (second_key first).trans ((alike.tokens ▸ second_key second).symm)

theorem bind_of_ok {α β : Type} {parser : Parse α} {next : α → Parse β}
    {state after : ParseState} {value : α}
    (ran : parser state = .ok value after) : (parser >>= next) state = next value after := by
  change EStateM.bind parser next state = _
  unfold EStateM.bind
  rw [ran]

theorem bind_of_error {α β : Type} {parser : Parse α} {next : α → Parse β}
    {state after : ParseState}
    {fault : Fault} (ran : parser state = .error fault after) :
    (parser >>= next) state = .error fault after := by
  change EStateM.bind parser next state = _
  unfold EStateM.bind
  rw [ran]

/-- Passing a token leaves what is behind it. -/
theorem pass_apply (state : ParseState) :
    ∃ passed, pass state = .ok () { state with tokens := state.skipped.tokens.tail, passed } := by
  have ran : pass state = EStateM.modifyGet (fun state => ((), _)) state.skipped := rfl
  rw [ran]
  unfold EStateM.modifyGet ParseState.skipped
  cases tokens : (skipComments state.passed state.tokens).2 with
  | nil => exact ⟨(skipComments state.passed state.tokens).1, rfl⟩
  | cons token rest => exact ⟨token.span.last, rfl⟩

theorem agree_pass : Agree size pass pass fun _ _ fewer => fewer = size - 1 := by
  intro first second alike same
  obtain ⟨passed, ran⟩ := pass_apply first
  obtain ⟨place, followed⟩ := pass_apply second
  rw [ran, followed]
  refine ⟨{ alike with tokens := ?_ }, ?_⟩
  · rw [first.skipped_cases.2.2, second.skipped_cases.2.2, alike.tokens]
  · unfold left
    rw [first.skipped_cases.2.2, List.length_tail, ← same, left]

theorem agree_nextWord? : Agree size nextWord? nextWord?
    fun word other fewer => word = other ∧ fewer = size ∧ (word.isSome → 0 < size) := by
  refine .peek (fun none => .pure ⟨rfl, rfl, fun some => (nomatch some)⟩) ?_
  intro token other positive kinds texts
  simp only [kinds, texts]
  split
  · exact .pure ⟨rfl, rfl, fun _ => positive⟩
  · exact .pure ⟨rfl, rfl, fun _ => positive⟩

theorem agree_nextIsWord (word : String) : Agree size (nextIsWord word) (nextIsWord word)
    fun found other fewer => found = other ∧ fewer = size ∧ (found = true → 0 < size) := by
  refine .bind agree_nextWord? ?_
  rintro text _ fewer ⟨rfl, rfl, positive⟩
  refine .pure ⟨rfl, rfl, fun found => positive ?_⟩
  rw [of_decide_eq_true found, Option.isSome_some]

theorem agree_expect (punct : Punct) : Agree size (expect punct) (expect punct)
    fun _ _ fewer => fewer < size := by
  refine .peek (fun _ => agree_failHere (by simp) _) ?_
  intro token other positive kinds _
  simp only [kinds]
  split
  · refine .bind agree_pass ?_
    rintro _ _ fewer rfl
    exact .pure (Nat.sub_lt positive Nat.one_pos)
  · exact agree_failHere (by simp) _

/-- A sign is accepted on both sides or on neither, and then one token less is left. -/
theorem agree_accept (punct : Punct) : Agree size (accept punct) (accept punct)
    fun found other fewer =>
      found = other ∧ fewer ≤ size ∧ (found = true → fewer < size) := by
  refine .bind (agree_nextIs punct) ?_
  rintro found _ fewer ⟨rfl, rfl, positive⟩
  cases found with
  | true =>
      refine .bind agree_pass ?_
      rintro _ _ later rfl
      have more := positive rfl
      exact .pure ⟨rfl, by omega, fun _ => by omega⟩
  | false => exact .pure ⟨rfl, Nat.le_refl _, fun found => (nomatch found)⟩

end Lookahead

section Loops

variable {α β σ τ : Type} {size : Nat}

/-- A round agrees with another one: both go on with related states and fewer tokens, or
both are done as demanded. -/
def Turn (kept : σ → τ → Prop) (final : α → β → Nat → Prop) (size : Nat) :
    Round σ α → Round τ β → Nat → Prop
  | .again state, .again other, fewer => kept state other ∧ fewer < size
  | .done result, .done other, fewer => final result other fewer
  | _, _, _ => False

/-- Loops agree if their rounds do, for every round that goes on passes a token. -/
theorem agree_rounds {kept : σ → τ → Prop} {final : α → β → Nat → Prop} {fault reason : Fault}
    {round : σ → Parse (Round σ α)} {other : τ → Parse (Round τ β)}
    (each : ∀ state twin fewer, fewer ≤ size → kept state twin →
      Agree fewer (round state) (other twin) (Turn kept final fewer))
    {bound limit : Nat} (enough : size < bound) (plenty : size < limit) {state : σ} {twin : τ}
    (related : kept state twin) :
    Agree size (rounds fault round bound state) (rounds reason other limit twin) final := by
  -- By induction on the tokens that are left; the bounds exceed them all the way.
  induction size using Nat.strongRecOn generalizing bound limit state twin with
  | ind size ih =>
      obtain ⟨bound, rfl⟩ := Nat.exists_eq_succ_of_ne_zero (Nat.ne_zero_of_lt enough)
      obtain ⟨limit, rfl⟩ := Nat.exists_eq_succ_of_ne_zero (Nat.ne_zero_of_lt plenty)
      refine .bind (each state twin size (Nat.le_refl size) related) ?_
      intro turn turned fewer holds
      cases turn with
      | done result =>
          cases turned with
          | done answer => exact .pure holds
          | again next => exact holds.elim
      | again next =>
          cases turned with
          | done answer => exact holds.elim
          | again onward =>
              obtain ⟨again, shorter⟩ := holds
              refine ih fewer shorter ?_ (by omega) (by omega) again
              intro state twin rest within related
              exact each state twin rest (by omega) related

theorem agree_repeatRounds {kept : σ → τ → Prop} {final : α → β → Nat → Prop}
    {round : σ → Parse (Round σ α)} {other : τ → Parse (Round τ β)}
    (each : ∀ state twin fewer, fewer ≤ size → kept state twin →
      Agree fewer (round state) (other twin) (Turn kept final fewer))
    {bound limit : Nat} (enough : size < bound) (plenty : size < limit) {state : σ} {twin : τ}
    (related : kept state twin) :
    Agree size (repeatRounds bound round state) (repeatRounds limit other twin) final := by
  refine .bind agree_here ?_
  rintro position place _ rfl
  exact agree_rounds each enough plenty related

variable {view : α → σ} {item other : Parse α}

/-- Two results look the same, and a token was passed. -/
def Passed (view : α → σ) (size : Nat) (value other : α) (fewer : Nat) : Prop :=
  view value = view other ∧ fewer < size

theorem agree_some (agree : Agree size item other (Passed view size)) :
    Agree size (some <$> item) (some <$> other) fun value twin fewer =>
      value.map view = twin.map view ∧ fewer < size :=
  .map (agree.mono fun _ _ _ holds => ⟨congrArg some holds.1, holds.2⟩)

/-- Wherever fewer tokens are left, items that look the same are read. -/
def Items (view : α → σ) (size : Nat) (item other : Parse α) : Prop :=
  ∀ fewer, fewer < size → Agree fewer item other (Passed view fewer)

/-- A round of a list reads the closing sign or one more item, and the items that were read look the
same on both sides. -/
theorem agree_itemRound {close : Punct} {noun : String} {fewer : Nat}
    (items : Items view size item other) (within : fewer < size) {state twin : List α × Bool}
    (related : state.1.map view = twin.1.map view ∧ state.2 = twin.2) :
    Agree fewer (itemRound close item noun state) (itemRound close other noun twin)
      (Turn (fun state twin => state.1.map view = twin.1.map view ∧ state.2 = twin.2)
        (fun items others rest => items.map view = others.map view ∧ rest < size) fewer) := by
  obtain ⟨read, afterComma⟩ := state
  obtain ⟨others, _⟩ := twin
  obtain ⟨same, rfl⟩ := related
  refine .bind (agree_accept close) ?_
  rintro closed _ rest ⟨rfl, notMore, _⟩
  cases closed with
  | true =>
      refine .pure ⟨?_, Nat.lt_of_le_of_lt notMore within⟩
      rw [List.map_reverse, List.map_reverse, same]
  | false =>
      cases afterComma with
      | false => exact agree_failHere (by simp) _
      | true =>
          refine .bind (items rest (Nat.lt_of_le_of_lt notMore within)) ?_
          rintro value other fewest ⟨alike, passed⟩
          refine .bind (agree_accept .comma) ?_
          rintro comma _ last ⟨rfl, behind, _⟩
          refine .pure ⟨⟨?_, rfl⟩, by omega⟩
          rw [List.map_cons, List.map_cons, alike, same]

/-- A list that may be missing is there on both sides or on neither. Its rounds come to their end as
every item passes a token. -/
theorem agree_list? (items : Items view size item other) {bound limit : Nat}
    (enough : size ≤ bound) (plenty : size ≤ limit) (opening close : Punct) (noun : String) :
    Agree size (list? bound opening close item noun) (list? limit opening close other noun)
      fun read others fewer => read.map (List.map view) = others.map (List.map view) ∧
        fewer ≤ size ∧ (read.isSome → fewer < size) := by
  refine .bind (agree_accept opening) ?_
  rintro found _ fewer ⟨rfl, within, passed⟩
  cases found with
  | false => exact .pure ⟨rfl, within, fun some => (nomatch some)⟩
  | true =>
      have shorter := passed rfl
      refine .bind (agree_repeatRounds (fun state twin rest notMore related =>
        agree_itemRound items (Nat.lt_of_le_of_lt notMore shorter) related) (by omega) (by omega)
        ⟨rfl, rfl⟩) ?_
      rintro read others rest ⟨same, behind⟩
      exact .pure ⟨congrArg some same, Nat.le_of_lt behind, fun _ => behind⟩

/-- A list that has to be there is read alike, or is missed with the same complaint. -/
theorem agree_list (items : Items view size item other) {bound limit : Nat}
    (enough : size ≤ bound) (plenty : size ≤ limit) (opening close : Punct)
    (noun listNoun : String) :
    Agree size (list bound opening close item noun listNoun)
      (list limit opening close other noun listNoun) (Passed (List.map view) size) := by
  refine .bind agree_here ?_
  rintro start place _ rfl
  refine .bind (agree_list? items enough plenty opening close noun) ?_
  rintro read others fewer ⟨same, _, passed⟩
  cases read with
  | none =>
      cases others with
      | none => exact agree_failAt (by simp) start place _
      | some _ => exact nomatch same
  | some read =>
      cases others with
      | none => exact nomatch same
      | some others => exact .pure ⟨Option.some.inj same, passed rfl⟩

end Loops

section Nodes

variable {α : Type} {size : Nat}

/-- Nesting is counted alike, so it reaches the limit on both sides or on neither. -/
theorem agree_nested {parser other : Parse α} {demand : α → α → Nat → Prop}
    (agree : Agree size parser other demand) :
    Agree size (nested parser) (nested other) demand := by
  refine .bind agree_get ?_
  rintro first second fewer ⟨alike, _, rfl⟩
  have deeper : Agree fewer
      (modify fun state =>
        { state with depth := state.depth + 1, deepest := max state.deepest (state.depth + 1) })
      (modify fun state =>
        { state with depth := state.depth + 1, deepest := max state.deepest (state.depth + 1) })
      fun _ _ rest => rest = fewer :=
    agree_modify fun first second alike => by
      rw [alike.depth, alike.deepest]
      exact ⟨{ alike with depth := rfl, deepest := rfl }, rfl⟩
  have back (rest : Nat) : Agree rest
      (modify fun state => { state with depth := state.depth - 1 })
      (modify fun state => { state with depth := state.depth - 1 }) fun _ _ last => last = rest :=
    agree_modify fun first second alike => by
      rw [alike.depth]
      exact ⟨{ alike with depth := rfl }, rfl⟩
  have reading : Agree fewer
      (do
        modify fun state =>
          { state with depth := state.depth + 1, deepest := max state.deepest (state.depth + 1) }
        let result ← parser
        modify fun state => { state with depth := state.depth - 1 }
        return result)
      (do
        modify fun state =>
          { state with depth := state.depth + 1, deepest := max state.deepest (state.depth + 1) }
        let result ← other
        modify fun state => { state with depth := state.depth - 1 }
        return result) demand := by
    refine .bind deeper ?_
    rintro _ _ _ rfl
    refine .bind agree fun value result rest holds => ?_
    refine .bind (back rest) ?_
    rintro _ _ _ rfl
    exact .pure holds
  rw [alike.limit, alike.depth]
  split
  · split
    · have refused (limit : Nat) : Agree fewer (failHere (.nestedTooDeep limit))
          (failHere (.nestedTooDeep limit)) fun (_ _ : PUnit) _ => False :=
        agree_failHere (by simp) _
      exact .bind (refused _) fun _ _ _ absurd => absurd.elim
    · exact reading
  · exact reading

theorem agree_intern (name : String) : Agree size (intern name) (intern name)
    fun symbol other fewer => symbol = other ∧ fewer = size := by
  refine agree_modifyGet fun first second alike same => ?_
  rw [alike.symbols]
  exact ⟨{ alike with symbols := rfl }, rfl, same⟩

theorem agree_constant (text : String) : Agree size (constant text) (constant text)
    fun symbol other fewer => symbol = other ∧ fewer = size := by
  refine .bind agree_get ?_
  rintro first second _ ⟨alike, _, rfl⟩
  exact .pure ⟨by rw [alike.symbols], rfl⟩

/-- Marks are the same but for their spans. -/
def Marked (size : Nat) (mark other : Mark) (fewer : Nat) : Prop :=
  mark.bare = other.bare ∧ fewer = size

theorem agree_markExpr (span place : Span) :
    Agree size (markExpr span) (markExpr place) (Marked size) := by
  refine agree_modifyGet fun first second alike same => ?_
  rw [alike.counts]
  exact ⟨{ alike with counts := rfl }, rfl, same⟩

theorem agree_markStmt (span place : Span) :
    Agree size (markStmt span) (markStmt place) (Marked size) := by
  refine agree_modifyGet fun first second alike same => ?_
  rw [alike.counts]
  exact ⟨{ alike with counts := rfl }, rfl, same⟩

theorem agree_markDefinition (span place : Span) :
    Agree size (markDefinition span) (markDefinition place) (Marked size) := by
  refine agree_modifyGet fun first second alike same => ?_
  rw [alike.counts]
  exact ⟨{ alike with counts := rfl }, rfl, same⟩

end Nodes

end Parse

end ScriptConsole
