import ScriptConsole.Parse.Literal
import ScriptConsole.Parse.Word
import ScriptConsole.Proofs.Parse.Agree
import ScriptConsole.Proofs.Script.Printing

/-! # What a parser reads

A parser reads some tokens with a result if from every state that has these tokens next it
succeeds with the result and has the rest of the tokens next then
(`ScriptConsole.Parse.Reads`). Such a state keeps the names of a symbol table, and it has room
for the levels of nesting that the parser opens.
-/

namespace ScriptConsole

namespace Parse

/-- A state in which these tokens are next, which keeps a table and in which so many levels
may be opened. -/
structure Stands (symbols : SymbolTable) (depth : Nat) (keys : List TokenKey)
    (state : ParseState) : Prop where
  tokens : significant state.tokens = keys
  symbols : symbols.Keeps state.symbols
  room (limit : Nat) : state.limit = some limit → state.depth + depth ≤ limit

/-- From states in which some tokens are next, a parser goes to states in which others are
next, and has such a result. -/
def Reads {α : Type} (symbols : SymbolTable) (depth : Nat) (before : List TokenKey)
    (parser : Parse α) (after : List TokenKey) (result : α → Prop) : Prop :=
  ∀ state, Stands symbols depth before state →
    ∃ value final, parser state = .ok value final ∧ Stands symbols depth after final ∧
      final.limit = state.limit ∧ final.depth = state.depth ∧ result value

/-- If one more level may be open, it is opened for the parser and closed behind it. -/
theorem nested_apply {α : Type} (parser : Parse α) {state : ParseState}
    (room : ∀ limit, state.limit = some limit → state.depth < limit) :
    nested parser state =
      (do
        let result ← parser
        modify fun state => { state with depth := state.depth - 1 }
        return result : Parse α)
        { state with
          depth := state.depth + 1
          deepest := max state.deepest (state.depth + 1) } := by
  obtain ⟨tokens, passed, symbols, counts, limit, depth, deepest⟩ := state
  cases limit with
  | none => rfl
  | some limit =>
      have fits : ¬ limit ≤ depth := Nat.not_le_of_gt (room limit rfl)
      change (ite (limit ≤ depth) _ _ : Parse α) _ = _
      rw [if_neg fits]
      rfl

variable {α β : Type} {symbols : SymbolTable} {depth : Nat} {before middle after : List TokenKey}
  {parser : Parse α} {result : α → Prop} {final : β → Prop}

namespace Reads

theorem pure {value : α} (holds : result value) :
    Reads symbols depth before (Pure.pure value) before result :=
  fun state stands => ⟨value, state, rfl, stands, rfl, rfl, holds⟩

/-- The second part reads on from the tokens that the first one left. -/
theorem bind {next : α → Parse β} (start : Reads symbols depth before parser middle result)
    (rest : ∀ value, result value → Reads symbols depth middle (next value) after final) :
    Reads symbols depth before (parser >>= next) after final := by
  intro state stands
  obtain ⟨value, reached, ran, there, limit, level, holds⟩ := start state stands
  obtain ⟨last, ended, followed, beyond, sameLimit, sameLevel, goal⟩ :=
    rest value holds reached there
  have whole : (parser >>= next) state = .ok last ended := by
    change EStateM.bind parser next state = _
    unfold EStateM.bind
    rw [ran]
    exact followed
  exact ⟨last, ended, whole, beyond, sameLimit.trans limit, sameLevel.trans level, goal⟩

theorem mono {more : Nat} {weaker : α → Prop}
    (reads : Reads symbols depth before parser after result)
    (less : depth ≤ more) (implies : ∀ value, result value → weaker value) :
    Reads symbols more before parser after weaker := by
  intro state stands
  have stands' : Stands symbols depth before state :=
    { stands with room := fun limit same => Nat.le_trans (by omega) (stands.room limit same) }
  obtain ⟨value, reached, ran, there, limit, level, holds⟩ := reads state stands'
  refine ⟨value, reached, ran, { there with room := ?_ }, limit, level, implies value holds⟩
  rw [limit, level]
  exact stands.room

theorem deeper {more : Nat} (reads : Reads symbols depth before parser after result)
    (less : depth ≤ more) : Reads symbols more before parser after result :=
  reads.mono less fun _ holds => holds

theorem imp {weaker : α → Prop} (reads : Reads symbols depth before parser after result)
    (implies : ∀ value, result value → weaker value) :
    Reads symbols depth before parser after weaker :=
  reads.mono (Nat.le_refl depth) implies

theorem map {view : α → β} (reads : Reads symbols depth before parser after fun value =>
    final (view value)) : Reads symbols depth before (view <$> parser) after final :=
  .bind reads fun _ holds => .pure holds

/-- A change of the state reads what it passes, if it keeps the table, the limit and the open
levels. -/
theorem modifyGet {change : ParseState → α × ParseState}
    (each : ∀ state, Stands symbols depth before state →
      significant (change state).2.tokens = after ∧ symbols.Keeps (change state).2.symbols ∧
        (change state).2.limit = state.limit ∧ (change state).2.depth = state.depth ∧
        result (change state).1) :
    Reads symbols depth before (MonadState.modifyGet change) after result := by
  intro state stands
  obtain ⟨tokens, keeps, limit, level, holds⟩ := each state stands
  refine ⟨(change state).1, (change state).2, rfl, ⟨tokens, keeps, ?_⟩, limit, level, holds⟩
  rw [limit, level]
  exact stands.room

/-- One level is opened for what a parser reads. -/
theorem nested (reads : Reads symbols depth before parser after result) :
    Reads symbols (depth + 1) before (Parse.nested parser) after result := by
  intro state stands
  let opened : ParseState :=
    { state with depth := state.depth + 1, deepest := max state.deepest (state.depth + 1) }
  have room (limit : Nat) (limited : state.limit = some limit) :
      opened.depth + depth ≤ limit := by
    have room := stands.room limit limited
    change state.depth + 1 + depth ≤ limit
    omega
  obtain ⟨value, reached, ran, there, limit, level, holds⟩ :=
    reads opened ⟨stands.tokens, stands.symbols, room⟩
  have closed : reached.depth - 1 = state.depth := by
    have up : reached.depth = state.depth + 1 := level
    omega
  have whole : Parse.nested parser state =
      .ok value { reached with depth := reached.depth - 1 } := by
    rw [nested_apply]
    · change EStateM.bind parser _ opened = _
      unfold EStateM.bind
      rw [ran]
      rfl
    · intro limit limited
      have room := stands.room limit limited
      omega
  refine ⟨value, _, whole, ⟨there.tokens, there.symbols, ?_⟩, limit, closed, holds⟩
  intro limit' limited
  rw [closed]
  exact stands.room limit' (limit ▸ limited)

end Reads

section Primitive

variable {key : TokenKey} {keys : List TokenKey}

theorem Stands.skipped {state : ParseState} (stands : Stands symbols depth keys state) :
    Stands symbols depth keys state.skipped :=
  { stands with tokens := state.skipped_cases.1.trans stands.tokens }

/-- What follows a look at the next token is given its kind and its text. -/
theorem Reads.peek {next : Option Token → Parse α}
    (more : ∀ span, Reads symbols depth (key :: keys) (next (some ⟨key.1, span, key.2⟩)) after
      result) : Reads symbols depth (key :: keys) (next? >>= next) after result := by
  intro state stands
  have ahead := state.skipped_cases.2.1
  rw [stands.tokens, List.head?_cons, Option.map_eq_some_iff] at ahead
  obtain ⟨token, front, rfl⟩ := ahead
  have reads := more token.span state.skipped stands.skipped
  rw [show Option.some ⟨token.key.1, token.span, token.key.2⟩ = state.skipped.tokens.head?
    from front.symm] at reads
  exact reads

theorem Reads.peek_nil {next : Option Token → Parse α}
    (more : Reads symbols depth [] (next none) after result) :
    Reads symbols depth [] (next? >>= next) after result := by
  intro state stands
  have ahead := state.skipped_cases.2.1
  rw [stands.tokens, List.head?_nil, Option.map_eq_none_iff] at ahead
  have reads := more state.skipped stands.skipped
  rw [← ahead] at reads
  exact reads

theorem reads_nextKind? : Reads symbols depth keys nextKind? keys
    fun kind => kind = keys.head?.map Prod.fst := by
  cases keys with
  | nil => exact .peek_nil (.pure rfl)
  | cons key keys => exact .peek fun _ => .pure rfl

theorem reads_nextIs (punct : Punct) : Reads symbols depth keys (nextIs punct) keys
    fun found => found = decide (keys.head?.map Prod.fst = some (.punct punct)) := by
  apply Reads.bind reads_nextKind?
  intro kind same
  rw [same]
  exact .pure rfl

theorem reads_pass : Reads symbols depth (key :: keys) pass keys fun _ => True := by
  intro state stands
  obtain ⟨passed, ran⟩ := pass_apply state
  have tokens : significant state.skipped.tokens.tail = keys := by
    rw [state.skipped_cases.2.2, stands.tokens, List.tail_cons]
  exact ⟨(), _, ran, ⟨tokens, stands.symbols, stands.room⟩, rfl, rfl, trivial⟩

theorem reads_secondKind? : Reads symbols depth (key :: keys) secondKind? (key :: keys)
    fun kind => kind = keys.head?.map Prod.fst := by
  intro state stands
  have second : (skipComments state.skipped.passed (state.skipped.tokens.drop 1)).2.head?.map
      Token.kind = keys.head?.map Prod.fst := by
    have tail : keys = significant state.skipped.tokens.tail := by
      rw [state.skipped_cases.2.2, stands.tokens, List.tail_cons]
    rw [tail, List.drop_one, ← head?_skipComments state.skipped.passed, Option.map_map]
    rfl
  exact ⟨_, state.skipped, rfl, stands.skipped, rfl, rfl, second⟩

theorem reads_expect (punct : Punct) :
    Reads symbols depth (signToken punct :: keys) (expect punct) keys fun _ => True := by
  apply Reads.peek
  intro span
  simp only [signToken, ↓reduceIte]
  exact .bind reads_pass fun _ _ => .pure trivial

theorem reads_accept (punct : Punct) :
    Reads symbols depth (signToken punct :: keys) (accept punct) keys
      fun found => found = true := by
  apply Reads.bind (reads_nextIs punct)
  intro found same
  have found : found = true := by
    rw [same]
    exact decide_eq_true rfl
  rw [found]
  exact .bind reads_pass fun _ _ => .pure rfl

theorem reads_accept_other {punct : Punct}
    (other : keys.head?.map Prod.fst ≠ some (.punct punct)) :
    Reads symbols depth keys (accept punct) keys fun found => found = false := by
  apply Reads.bind (reads_nextIs punct)
  intro found same
  rw [same, decide_eq_false other]
  exact .pure rfl

theorem reads_here : Reads symbols depth keys here keys fun _ => True := by
  intro state stands
  obtain ⟨position, ran⟩ : ∃ position, here state = .ok position state := by
    obtain ⟨tokens, passed⟩ := state
    cases tokens with
    | nil => exact ⟨passed, rfl⟩
    | cons token rest => exact ⟨token.span.first, rfl⟩
  exact ⟨position, state, ran, stands, rfl, rfl, trivial⟩

theorem reads_constant (text : String) : Reads symbols depth keys (constant text) keys
    fun symbol => symbol = symbols.constant text := by
  intro state stands
  have same : state.symbols.constant text = symbols.constant text := by
    unfold SymbolTable.constant
    rw [stands.symbols.serial]
  exact ⟨_, state, rfl, stands, rfl, rfl, same⟩

/-- A name that the table knows has its symbol, and interning another one keeps that. -/
theorem reads_intern (name : String) : Reads symbols depth keys (intern name) keys
    fun found => ∀ symbol, symbols.find? name = some symbol → found = symbol := by
  apply Reads.modifyGet
  intro state stands
  have keeps := stands.symbols.trans (state.symbols.keeps_intern name)
  have found (symbol : Symbol) (known : symbols.find? name = some symbol) :
      (state.symbols.intern name).1 = symbol := by
    unfold SymbolTable.intern
    rw [stands.symbols.names known]
  exact ⟨stands.tokens, keeps, rfl, rfl, found⟩

theorem reads_intern_known {symbol : Symbol} (known : symbols.Knows symbol) :
    Reads symbols depth keys (intern symbol.text) keys fun found => found = symbol :=
  (reads_intern symbol.text).imp fun _ found => found symbol known

theorem reads_markExpr (span : Span) :
    Reads symbols depth keys (markExpr span) keys fun _ => True :=
  .modifyGet fun _ stands => ⟨stands.tokens, stands.symbols, rfl, rfl, trivial⟩

theorem reads_markStmt (span : Span) :
    Reads symbols depth keys (markStmt span) keys fun _ => True :=
  .modifyGet fun _ stands => ⟨stands.tokens, stands.symbols, rfl, rfl, trivial⟩

end Primitive

section Rounds

variable {σ : Type} {round : σ → Parse (Round σ β)} {exhausted : Fault} {bound : Nat} {state : σ}

theorem reads_repeatRounds
    (reads : ∀ exhausted,
      Reads symbols depth before (rounds exhausted round bound state) after final) :
    Reads symbols depth before (repeatRounds bound round state) after final :=
  .bind reads_here fun _ _ => reads _

theorem reads_rounds_done
    (last : Reads symbols depth before (round state) after fun next =>
      ∃ result, next = .done result ∧ final result) :
    Reads symbols depth before (rounds exhausted round (bound + 1) state) after final := by
  apply Reads.bind last
  intro next ends
  obtain ⟨result, rfl, holds⟩ := ends
  exact .pure holds

theorem reads_rounds_again {reached : σ → Prop}
    (first : Reads symbols depth before (round state) middle fun next =>
      ∃ state, next = .again state ∧ reached state)
    (rest : ∀ state, reached state →
      Reads symbols depth middle (rounds exhausted round bound state) after final) :
    Reads symbols depth before (rounds exhausted round (bound + 1) state) after final := by
  apply Reads.bind first
  intro next goesOn
  obtain ⟨state, rfl, holds⟩ := goesOn
  exact rest state holds

end Rounds

section Lists

variable {γ δ : Type} {view : α → γ} {row : δ → List TokenKey} {shown : δ → γ} {item : Parse α}
  {close : Punct} {size : Nat}

/-- Whether a row of tokens may stand in a list in front of others. -/
def Separates (close : Punct) (rest : List TokenKey) : Prop :=
  ∃ keys, rest = signToken close :: keys ∨ rest = signToken .comma :: keys

/-- An item of a list is read from its row of tokens, which does not start like the end of
the list, if no more than so many tokens are next. -/
structure ItemReads (symbols : SymbolTable) (depth size : Nat) (item : Parse α) (close : Punct)
    (row : List TokenKey) (result : α → Prop) : Prop where
  starts : ∃ key keys, row = key :: keys ∧ key.1 ≠ .punct close
  reads {rest : List TokenKey} : Separates close rest → row.length + rest.length ≤ size →
    Reads symbols depth (row ++ rest) item rest result

/-- One item of a list and the comma behind it, if there is one. -/
theorem reads_itemRound {noun : String} {items : List α} {rest following : List TokenKey}
    {keys : List TokenKey} {goesOn : Bool}
    (item_reads : ItemReads symbols depth size item close keys result)
    (behind : Separates close rest) (fits : keys.length + rest.length ≤ size)
    (comma : Reads symbols depth rest (accept .comma) following fun found => found = goesOn) :
    Reads symbols depth (keys ++ rest) (itemRound close item noun (items, true)) following
      fun next => ∃ state, next = .again state ∧
        ∃ value, result value ∧ state = (value :: items, goesOn) := by
  obtain ⟨key, row, rfl, notClose⟩ := item_reads.starts
  have other : ((key :: row) ++ rest).head?.map Prod.fst ≠ some (.punct close) :=
    fun same => notClose (Option.some.inj same)
  apply Reads.bind (reads_accept_other other)
  intro found none
  rw [none]
  apply Reads.bind (item_reads.reads behind fits)
  intro value holds
  apply Reads.bind comma
  intro found same
  exact .pure ⟨(value :: items, found), rfl, value, holds, by rw [same]⟩

/-- The items of a list are read from their rows with commas between them. -/
theorem reads_items {entries : List δ} {noun : String} {exhausted : Fault} {bound : Nat}
    {items : List α} {afterComma : Bool} {rest : List TokenKey} (apart : close ≠ .comma)
    (each : ∀ entry ∈ entries,
      ItemReads symbols depth size item close (row entry) fun value => view value = shown entry)
    (fits : (separated (entries.map row) ++ signToken close :: rest).length ≤ size)
    (enough : entries.length < bound) (ready : afterComma = true ∨ entries = []) :
    Reads symbols depth (separated (entries.map row) ++ signToken close :: rest)
      (rounds exhausted (itemRound close item noun) bound (items, afterComma)) rest
      fun values => values.map view = items.reverse.map view ++ entries.map shown := by
  induction entries generalizing bound items afterComma with
  | nil =>
      obtain ⟨bound, rfl⟩ := Nat.exists_eq_succ_of_ne_zero (Nat.ne_of_gt enough)
      apply reads_rounds_done
      apply Reads.bind (reads_accept close)
      intro found here
      rw [here]
      apply Reads.pure
      exact ⟨items.reverse, rfl, by rw [List.map_nil, List.append_nil]⟩
  | cons entry entries ih =>
      obtain ⟨bound, rfl⟩ := Nat.exists_eq_succ_of_ne_zero (Nat.ne_of_gt (Nat.zero_lt_of_lt enough))
      obtain rfl : afterComma = true := ready.resolve_right (List.cons_ne_nil entry entries)
      obtain ⟨first, each⟩ := List.forall_mem_cons.mp each
      have later (value : α) (same : view value = shown entry) (goesOn : Bool)
          (fits : (separated (entries.map row) ++ signToken close :: rest).length ≤ size)
          (ready : goesOn = true ∨ entries = []) :
          Reads symbols depth (separated (entries.map row) ++ signToken close :: rest)
            (rounds exhausted (itemRound close item noun) bound (value :: items, goesOn)) rest
            fun values => values.map view = items.reverse.map view ++
              (entry :: entries).map shown := by
        have reads :=
          @ih bound (value :: items) goesOn each fits (Nat.lt_of_succ_lt_succ enough) ready
        apply reads.imp
        intro values all
        rw [all, List.reverse_cons, List.map_append, List.map_singleton, same, List.append_assoc,
          List.map_cons, List.singleton_append]
      cases entries with
      | nil =>
          have notComma : (signToken close :: rest).head?.map Prod.fst ≠ some (.punct .comma) :=
            fun same => apart (TokenKind.punct.inj (Option.some.inj same))
          have alone : (row entry).length + (signToken close :: rest).length ≤ size := by
            rw [← List.length_append]
            exact fits
          have ends : ([] ++ signToken close :: rest).length ≤ size := by
            rw [List.nil_append]
            omega
          apply reads_rounds_again
            (reads_itemRound first ⟨rest, .inl rfl⟩ alone (reads_accept_other notComma))
          intro state reached
          obtain ⟨value, same, rfl⟩ := reached
          exact later value same false ends (.inr rfl)
      | cons next more =>
          have split : separated ((entry :: next :: more).map row) ++ signToken close :: rest =
              row entry ++ (signToken .comma ::
                (separated ((next :: more).map row) ++ signToken close :: rest)) := by
            simp only [List.map_cons, separated, List.append_assoc, List.cons_append]
          rw [split, List.length_append] at fits
          rw [split]
          have fewer := Nat.le_trans (Nat.le_add_left _ _) fits
          rw [List.length_cons] at fewer
          apply reads_rounds_again
            (reads_itemRound first ⟨_, .inr rfl⟩ fits (reads_accept .comma))
          intro state reached
          obtain ⟨value, same, rfl⟩ := reached
          exact later value same true (Nat.le_of_succ_le fewer) (.inl rfl)

/-- A list is read from its delimiters and the rows of its items. -/
theorem reads_list? {opening : Punct} {entries : List δ} {noun : String} {bound : Nat}
    {rest : List TokenKey} (apart : close ≠ .comma)
    (each : ∀ entry ∈ entries,
      ItemReads symbols depth size item close (row entry) fun value => view value = shown entry)
    (fits : (separated (entries.map row) ++ signToken close :: rest).length ≤ size)
    (enough : entries.length < bound) :
    Reads symbols depth
      (signToken opening :: (separated (entries.map row) ++ signToken close :: rest))
      (list? bound opening close item noun) rest
      fun values? => ∃ values, values? = some values ∧ values.map view = entries.map shown := by
  apply Reads.bind (reads_accept opening)
  intro found here
  rw [here]
  apply Reads.bind (reads_repeatRounds fun _ => reads_items apart each fits enough (.inl rfl))
  intro values all
  exact .pure ⟨values, rfl, all⟩

/-- A list is read from its items with commas between them and its signs around them. An item may
not begin with the closing sign, so the list does not end early. -/
theorem reads_list {opening : Punct} {entries : List δ} {noun listNoun : String} {bound : Nat}
    {rest : List TokenKey} (apart : close ≠ .comma)
    (each : ∀ entry ∈ entries,
      ItemReads symbols depth size item close (row entry) fun value => view value = shown entry)
    (fits : (separated (entries.map row) ++ signToken close :: rest).length ≤ size)
    (enough : entries.length < bound) :
    Reads symbols depth
      (signToken opening :: (separated (entries.map row) ++ signToken close :: rest))
      (list bound opening close item noun listNoun) rest
      fun values => values.map view = entries.map shown := by
  apply Reads.bind reads_here
  intro _ _
  apply Reads.bind (reads_list? apart each fits enough)
  intro found here
  obtain ⟨values, rfl, all⟩ := here
  exact .pure all

/-- There is no list where its opening delimiter is not next. -/
theorem reads_list?_none {opening : Punct} {noun : String} {bound : Nat} {keys : List TokenKey}
    (other : keys.head?.map Prod.fst ≠ some (.punct opening)) :
    Reads symbols depth keys (list? bound opening close item noun) keys
      fun values? => values? = none := by
  apply Reads.bind (reads_accept_other other)
  intro found none
  rw [none]
  exact .pure rfl

end Lists

section Words

variable {keys : List TokenKey} {text : List UInt8}

theorem reads_nextWord? : Reads symbols depth ((.identifier, text) :: keys) nextWord?
    ((.identifier, text) :: keys) fun word => word = some (Utf8.ofAscii text) :=
  .peek fun _ => .pure rfl

theorem reads_anyWord : Reads symbols depth ((.identifier, text) :: keys) anyWord keys
    fun found => found.1 = Utf8.ofAscii text :=
  .peek fun _ => .bind reads_pass fun _ _ => .pure rfl

/-- A keyword is passed where it stands. -/
theorem reads_word {expected : String} (same : Utf8.ofAscii text = expected) :
    Reads symbols depth ((.identifier, text) :: keys) (word expected) keys fun _ => True := by
  apply Reads.bind reads_here
  intro _ _
  apply Reads.bind reads_anyWord
  intro found spelled
  obtain ⟨found, span⟩ := found
  have agrees : found = expected := spelled.trans same
  dsimp only
  rw [if_pos agrees]
  exact .pure trivial

theorem reads_name (free : Utf8.ofAscii text ∉ reservedWords) :
    Reads symbols depth ((.identifier, text) :: keys) name keys
      fun found => found.1 = Utf8.ofAscii text := by
  apply Reads.bind reads_anyWord
  intro found spelled
  obtain ⟨found, span⟩ := found
  have spelled : found = Utf8.ofAscii text := spelled
  dsimp only
  rw [if_neg (spelled ▸ free)]
  exact .pure spelled

end Words

end Parse

end ScriptConsole
