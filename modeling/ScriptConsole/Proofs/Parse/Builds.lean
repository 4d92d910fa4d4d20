import ScriptConsole.Parse.Script
import ScriptConsole.Proofs.Parse.Agree
import ScriptConsole.Proofs.Script.Heap
import ScriptConsole.Proofs.Symbol

/-! # What parsers build

A parser that starts with a closed heap of all nodes that were numbered so far adds the nodes
that it numbers, and the heap stays closed (`ScriptConsole.Parse.Builds`). Whether it succeeds
or fails, its table of symbols grows by the names that it interned.
-/

namespace ScriptConsole.Parse

variable {α β : Type}

/-- What a parser leaves behind: more symbols, and if it succeeds a closed heap of the nodes
that were numbered, in which the result is as demanded. -/
def Leaves (heap : Heap) (symbols : SymbolTable) (demand : α → Heap → Prop) :
    EStateM.Result Fault ParseState α → Prop
  | .ok value after =>
    symbols.Grows after.symbols ∧
      ∃ later : Heap, heap.Within later ∧ later.Closed ∧ later.counts = after.counts ∧
        demand value later
  | .error _ after => symbols.Grows after.symbols

/-- Wherever the nodes of a closed heap were numbered, a parser adds nodes to it. The demand is
on the result and on the heap with the further nodes. -/
def Builds (heap : Heap) (parser : Parse α) (demand : α → Heap → Prop) : Prop :=
  ∀ state : ParseState, heap.Closed → heap.counts = state.counts →
    Leaves heap state.symbols demand (parser state)

/-- A parser numbers no nodes. -/
def Silent (parser : Parse α) : Prop :=
  ∀ heap, Builds heap parser fun _ later => later = heap

namespace Builds

variable {heap : Heap} {parser : Parse α} {demand : α → Heap → Prop}

theorem pure {value : α} (holds : demand value heap) :
    Builds heap (Pure.pure value) demand :=
  fun state closed same => ⟨.refl state.symbols, heap, .refl heap, closed, same, holds⟩

/-- The second part builds on the heap that the first one left, in which all that was built is still
at its place. -/
theorem bind {next : α → Parse β} {final : β → Heap → Prop} (start : Builds heap parser demand)
    (rest : ∀ value later, heap.Within later → demand value later →
      Builds later (next value) final) : Builds heap (parser >>= next) final := by
  intro state closed same
  have begun := start state closed same
  change Leaves heap state.symbols final (EStateM.bind parser next state)
  unfold EStateM.bind
  cases ran : parser state with
  | error fault after =>
      rw [ran] at begun
      exact begun
  | ok value between =>
      rw [ran] at begun
      obtain ⟨grown, middle, within, stillClosed, counted, holds⟩ := begun
      have followed := rest value middle within holds between stillClosed counted
      simp only
      cases ended : next value between with
      | error fault after =>
          rw [ended] at followed
          exact grown.trans followed
      | ok result after =>
          rw [ended] at followed
          obtain ⟨grownMore, later, beyond, lastClosed, countedLast, final⟩ := followed
          exact ⟨grown.trans grownMore, later, within.trans beyond, lastClosed, countedLast, final⟩

/-- A weaker demand is met wherever the heap grew to. -/
theorem mono {weaker : α → Heap → Prop} (builds : Builds heap parser demand)
    (implies : ∀ value later, heap.Within later → demand value later → weaker value later) :
    Builds heap parser weaker := by
  intro state closed same
  have built := builds state closed same
  cases ran : parser state with
  | error fault after =>
      rw [ran] at built
      exact built
  | ok value after =>
      rw [ran] at built
      obtain ⟨grown, later, within, stillClosed, counted, holds⟩ := built
      exact ⟨grown, later, within, stillClosed, counted, implies value later within holds⟩

theorem map {view : α → β} {final : β → Heap → Prop}
    (builds : Builds heap parser fun value later => final (view value) later) :
    Builds heap (view <$> parser) final :=
  .bind builds fun _ _ _ holds => .pure holds

/-- What follows a parser that numbers no nodes builds on the same heap. -/
theorem skip {next : α → Parse β} {final : β → Heap → Prop} (silent : Silent parser)
    (rest : ∀ value, Builds heap (next value) final) : Builds heap (parser >>= next) final := by
  refine .bind (silent heap) fun value later _ same => ?_
  rw [same]
  exact rest value

end Builds

namespace Silent

theorem pure (value : α) : Silent (Pure.pure value) :=
  fun _ => .pure rfl

theorem bind {parser : Parse α} {next : α → Parse β} (start : Silent parser)
    (rest : ∀ value, Silent (next value)) : Silent (parser >>= next) :=
  fun heap => .skip start fun value => rest value heap

theorem ite {condition : Prop} [Decidable condition] {yes no : Parse α} (isYes : Silent yes)
    (isNo : Silent no) : Silent (if condition then yes else no) := by
  split
  · exact isYes
  · exact isNo

/-- A change of the state that leaves the numbers of nodes and at most interns names. -/
theorem modifyGet {change : ParseState → α × ParseState}
    (counts : ∀ state, (change state).2.counts = state.counts)
    (symbols : ∀ state : ParseState, state.symbols.Grows (change state).2.symbols) :
    Silent (modifyGet change) :=
  fun heap state closed same =>
    ⟨symbols state, heap, .refl heap, closed, same.trans (counts state).symm, rfl⟩

end Silent

section Primitive

theorem silent_get : Silent (get : Parse ParseState) :=
  fun heap state closed same => ⟨.refl state.symbols, heap, .refl heap, closed, same, rfl⟩

theorem silent_modify {change : ParseState → ParseState}
    (counts : ∀ state, (change state).counts = state.counts)
    (symbols : ∀ state, (change state).symbols = state.symbols) :
    Silent (modify change : Parse PUnit) :=
  Silent.modifyGet counts fun state => (symbols state).symm ▸ .refl state.symbols

/-- A failure demands nothing. -/
theorem builds_failAt (heap : Heap) (position : Position) (complaint : Complaint)
    (demand : α → Heap → Prop) : Builds heap (failAt position complaint) demand :=
  fun _ _ _ => SymbolTable.Grows.refl _

/-- Nothing is built behind a failure. -/
theorem builds_failAt_bind (heap : Heap) (position : Position) (complaint : Complaint)
    (next : β → Parse α) (demand : α → Heap → Prop) :
    Builds heap (failAt position complaint >>= next) demand :=
  fun _ _ _ => SymbolTable.Grows.refl _

theorem silent_failAt (position : Position) (complaint : Complaint) :
    Silent (failAt position complaint : Parse α) :=
  fun heap => builds_failAt heap position complaint _

theorem silent_here : Silent here := by
  refine .bind silent_get fun state => ?_
  cases state.tokens with
  | nil => exact .pure _
  | cons token tokens => exact .pure _

theorem builds_failHere (heap : Heap) (complaint : Complaint) (demand : α → Heap → Prop) :
    Builds heap (failHere complaint) demand :=
  .skip silent_here fun position => builds_failAt heap position complaint demand

theorem silent_failHere (complaint : Complaint) : Silent (failHere complaint : Parse α) :=
  fun heap => builds_failHere heap complaint _

theorem silent_next? : Silent next? :=
  fun heap state closed same => ⟨.refl state.symbols, heap, .refl heap, closed, same, rfl⟩

theorem silent_nextKind? : Silent nextKind? :=
  .bind silent_next? fun _ => .pure _

theorem silent_nextIs (punct : Punct) : Silent (nextIs punct) :=
  .bind silent_nextKind? fun _ => .pure _

theorem silent_secondKind? : Silent secondKind? :=
  .bind silent_next? fun _ => .bind silent_get fun _ => .pure _

theorem silent_pass : Silent pass := by
  intro heap state closed same
  obtain ⟨passed, ran⟩ := pass_apply state
  rw [ran]
  exact ⟨.refl state.symbols, heap, .refl heap, closed, same, rfl⟩

theorem silent_nextWord? : Silent nextWord? := by
  refine .bind silent_next? fun token => ?_
  cases token with
  | none => exact .pure none
  | some token => exact .ite (.pure _) (.pure none)

theorem silent_nextIsWord (word : String) : Silent (nextIsWord word) :=
  .bind silent_nextWord? fun _ => .pure _

theorem silent_expect (punct : Punct) : Silent (expect punct) := by
  refine .bind silent_next? fun token => ?_
  cases token with
  | none => exact silent_failHere _
  | some token =>
      exact .ite (.bind silent_pass fun _ => .pure token.span) (silent_failHere _)

theorem silent_accept (punct : Punct) : Silent (accept punct) := by
  refine .bind (silent_nextIs punct) fun found => ?_
  exact .ite (.bind silent_pass fun _ => .pure true) (.pure false)

theorem silent_intern (name : String) : Silent (intern name) :=
  Silent.modifyGet (fun _ => rfl) fun state => state.symbols.grows_intern name

theorem silent_constant (text : String) : Silent (constant text) :=
  .bind silent_get fun _ => .pure _

end Primitive

section Words

theorem silent_anyWord : Silent anyWord := by
  refine .bind silent_next? fun token => ?_
  cases token with
  | none => exact silent_failHere _
  | some token => exact .ite (.bind silent_pass fun _ => .pure _) (silent_failHere _)

theorem silent_word (expected : String) : Silent (word expected) := by
  refine .bind silent_here fun start => .bind silent_anyWord fun found => ?_
  exact .ite (.pure found.2) (silent_failAt start _)

theorem silent_name : Silent name := by
  refine .bind silent_anyWord fun found => ?_
  exact .ite (silent_failAt _ _) (.pure found)

theorem silent_variableName : Silent variableName := by
  refine .bind silent_next? fun token => ?_
  cases token with
  | none => exact silent_failHere _
  | some token =>
      simp only
      split
      · exact .bind silent_pass fun _ => .pure _
      · exact .bind silent_pass fun _ => .pure _
      · exact silent_failHere _

theorem silent_number : Silent number := by
  refine .bind silent_next? fun token => ?_
  cases token with
  | none => exact silent_failHere _
  | some token =>
      refine .ite (.bind silent_pass fun _ => ?_) (silent_failHere _)
      cases numberValue token.text with
      | ok value => exact .pure _
      | error complaint => exact silent_failAt _ _

theorem silent_string : Silent string := by
  refine .bind silent_next? fun token => ?_
  cases token with
  | none => exact silent_failHere _
  | some token =>
      simp only
      split
      · exact .bind silent_pass fun _ => .bind (silent_constant _) fun _ => .pure _
      · exact .bind silent_pass fun _ => .bind (silent_constant _) fun _ => .pure _
      · exact silent_failHere _

theorem silent_nextOperator? (read : Punct → Option α) : Silent (nextOperator? read) := by
  refine .bind silent_next? fun token => ?_
  cases token with
  | none => exact .pure none
  | some token =>
      simp only
      split
      · exact .pure _
      · exact .pure none

end Words

section Loops

variable {σ : Type} {heap : Heap}

/-- The state or the result of a round is as demanded. -/
def RoundIs (kept : σ → Heap → Prop) (final : β → Heap → Prop) : Round σ β → Heap → Prop
  | .again state, later => kept state later
  | .done result, later => final result later

/-- A loop builds what its rounds do. -/
theorem builds_rounds {kept : σ → Heap → Prop} {final : β → Heap → Prop} {fault : Fault}
    {round : σ → Parse (Round σ β)}
    (each : ∀ state later, heap.Within later → kept state later →
      Builds later (round state) (RoundIs kept final)) (bound : Nat) {state : σ}
    (holds : kept state heap) : Builds heap (rounds fault round bound state) final := by
  induction bound generalizing heap state with
  | zero => exact fun state _ _ => SymbolTable.Grows.refl state.symbols
  | succ bound ih =>
      refine .bind (each state heap (.refl heap) holds) fun outcome later within turned => ?_
      cases outcome with
      | done result => exact .pure turned
      | again next =>
          refine ih (fun state last beyond kept => ?_) turned
          exact each state last (within.trans beyond) kept

theorem builds_repeatRounds {kept : σ → Heap → Prop} {final : β → Heap → Prop}
    {round : σ → Parse (Round σ β)}
    (each : ∀ state later, heap.Within later → kept state later →
      Builds later (round state) (RoundIs kept final)) (bound : Nat) {state : σ}
    (holds : kept state heap) : Builds heap (repeatRounds bound round state) final :=
  .skip silent_here fun _ => builds_rounds each bound holds

variable {item : Parse α} (has : Heap → α → Prop)

/-- The items that were read are as demanded. -/
theorem builds_list?
    (lifts : ∀ {first later : Heap} {value}, first.Within later → has first value → has later value)
    (items : ∀ later, heap.Within later → Builds later item fun value last => has last value)
    (bound : Nat) (opening close : Punct) (noun : String) :
    Builds heap (list? bound opening close item noun) fun read later =>
      ∀ values ∈ read, ∀ value ∈ values, has later value := by
  refine .skip (silent_accept opening) fun opened => ?_
  cases opened with
  | false => exact .pure nofun
  | true =>
      have each (state : List α × Bool) (later : Heap) (within : heap.Within later)
          (holds : ∀ value ∈ state.1, has later value) :
          Builds later (itemRound close item noun state)
            (RoundIs (fun state later => ∀ value ∈ state.1, has later value)
              fun values later => ∀ value ∈ values, has later value) := by
        obtain ⟨values, afterComma⟩ := state
        refine .skip (silent_accept close) fun closed => ?_
        cases closed with
        | true => exact .pure fun value member => holds value (List.mem_reverse.mp member)
        | false =>
            cases afterComma with
            | false => exact builds_failHere _ _ _
            | true =>
                refine .bind (items later within) fun first last beyond isItem => ?_
                refine .skip (silent_accept .comma) fun comma => .pure ?_
                intro value member
                obtain rfl | member := List.mem_cons.mp member
                · exact isItem
                · exact lifts beyond (holds value member)
      refine .bind (builds_repeatRounds each bound nofun) fun read later _ holds => .pure ?_
      intro values isRead
      obtain rfl := Option.some.inj isRead
      exact holds

/-- The items of a list are in the heap in the end, as items stay at their places while later ones
are built. -/
theorem builds_list
    (lifts : ∀ {first later : Heap} {value}, first.Within later → has first value → has later value)
    (items : ∀ later, heap.Within later → Builds later item fun value last => has last value)
    (bound : Nat) (opening close : Punct) (noun listNoun : String) :
    Builds heap (list bound opening close item noun listNoun) fun values later =>
      ∀ value ∈ values, has later value := by
  refine .skip silent_here fun start => ?_
  refine .bind (builds_list? has lifts items bound opening close noun) fun read later _ holds => ?_
  cases read with
  | none => exact builds_failAt _ _ _ _
  | some values => exact .pure (holds values rfl)

end Loops

section Nodes

variable {heap : Heap}

/-- Nesting builds nothing by itself. -/
theorem builds_nested {parser : Parse α} {demand : α → Heap → Prop}
    (builds : Builds heap parser demand) : Builds heap (nested parser) demand := by
  have reading : Builds heap
      (do
        modify fun state =>
          { state with depth := state.depth + 1, deepest := max state.deepest (state.depth + 1) }
        let result ← parser
        modify fun state => { state with depth := state.depth - 1 }
        return result) demand := by
    refine .skip (silent_modify (fun _ => rfl) fun _ => rfl) fun _ => ?_
    refine .bind builds fun result later _ holds => ?_
    exact .skip (silent_modify (fun _ => rfl) fun _ => rfl) fun _ => .pure holds
  refine .skip silent_get fun state => ?_
  split
  · split
    · exact .skip (silent_failHere _) fun (_ : PUnit) => reading
    · exact reading
  · exact reading

/-- The number of an expression whose parts were built is the next one. -/
theorem builds_markExpr (span : Span) (build : Mark → Expr)
    (marked : ∀ mark, (build mark).mark = mark) (parts : ∀ mark, (build mark).PartsIn heap) :
    Builds heap (markExpr span) fun mark later => later.HasExpr (build mark) := by
  intro state closed same
  refine ⟨.refl state.symbols, heap.addExpr (build ⟨state.counts.expressions, span⟩),
    heap.within_addExpr _, closed.addExpr (parts _), ?_, Heap.hasExpr_addExpr ?_⟩
  · simp only [Heap.counts, Heap.addExpr, List.length_append, List.length_singleton, ← same]
  · rw [marked, same]

theorem builds_markStmt (span : Span) (build : Mark → Stmt)
    (marked : ∀ mark, (build mark).mark = mark) (parts : ∀ mark, (build mark).PartsIn heap) :
    Builds heap (markStmt span) fun mark later => later.HasStmt (build mark) := by
  intro state closed same
  refine ⟨.refl state.symbols, heap.addStmt (build ⟨state.counts.statements, span⟩),
    heap.within_addStmt _, closed.addStmt (parts _), ?_, Heap.hasStmt_addStmt ?_⟩
  · simp only [Heap.counts, Heap.addStmt, List.length_append, List.length_singleton, ← same]
  · rw [marked, same]

theorem builds_markDefinition (span : Span) (build : Mark → FunctionDef)
    (marked : ∀ mark, (build mark).mark = mark) (parts : ∀ mark, (build mark).PartsIn heap) :
    Builds heap (markDefinition span) fun mark later => later.HasDefinition (build mark) := by
  intro state closed same
  refine ⟨.refl state.symbols, heap.addDefinition (build ⟨state.counts.definitions, span⟩),
    heap.within_addDefinition _, closed.addDefinition (parts _), ?_,
    Heap.hasDefinition_addDefinition ?_⟩
  · simp only [Heap.counts, Heap.addDefinition, List.length_append, List.length_singleton, ← same]
  · rw [marked, same]

/-- An expression that is complete once it is numbered. -/
theorem builds_expr {span : Span} {build : Mark → Expr}
    (marked : ∀ mark, (build mark).mark = mark) (parts : ∀ mark, (build mark).PartsIn heap) :
    Builds heap (markExpr span >>= fun mark => Pure.pure (build mark))
      fun expr later => later.HasExpr expr :=
  .bind (builds_markExpr span build marked parts) fun _ _ _ has => .pure has

/-- A statement that is complete once it is numbered. -/
theorem builds_stmt {span : Span} {build : Mark → Stmt}
    (marked : ∀ mark, (build mark).mark = mark) (parts : ∀ mark, (build mark).PartsIn heap) :
    Builds heap (markStmt span >>= fun mark => Pure.pure (build mark))
      fun stmt later => later.HasStmt stmt :=
  .bind (builds_markStmt span build marked parts) fun _ _ _ has => .pure has

end Nodes

end ScriptConsole.Parse
