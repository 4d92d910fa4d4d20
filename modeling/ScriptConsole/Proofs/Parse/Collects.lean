import ScriptConsole.Proofs.Parse.Parts
import ScriptConsole.Proofs.Script.Nodes

/-! # The nodes that parsers collect

Every node that is numbered while a part is read is one of the nodes of the part, and no other
node is. A parser that goes on from some trees, which it takes up or drops, is said to collect
their nodes (`ScriptConsole.Parse.Collects`). Trees that were read elsewhere stay as they are.
-/

namespace ScriptConsole

namespace Parse

variable {α β σ : Type}

/-- A run gives no numbers to nodes. -/
abbrev KeepsCounts (parser : Parse α) : Prop :=
  Keeps (fun before after => after.counts = before.counts) parser

theorem lasting_counts : Lasting fun before after => after.counts = before.counts where
  refl _ := rfl
  trans first second := second.trans first
  opened _ := rfl
  closed _ := rfl

theorem Composed.keepsCounts {body : Nat → Parser → Parse α} (composed : Composed false body)
    (bound : Nat) (inner : Parser) : KeepsCounts (body bound inner) :=
  composed.holds (lasting_counts.compositional fun quiet => quiet.counts) nofun nofun bound

/-- The numbers that were given are those of the nodes of some walked trees. -/
def Spanned (walked : List Node) (counts : NodeCounts) : Prop :=
  ∃ heap : Heap, heap.Spans walked ∧ heap.counts = counts

theorem Spanned.perm {walked other : List Node} {counts : NodeCounts}
    (spanned : Spanned walked counts) (perm : walked.Perm other) : Spanned other counts := by
  obtain ⟨heap, spans, same⟩ := spanned
  exact ⟨heap, spans.perm perm, same⟩

/-- Where the nodes of some trees and those in front of them were numbered, a parser that succeeds
has numbered those of its result and those in front of it. -/
def Collects (before : List Node) (parser : Parse α) (after : α → List Node) : Prop :=
  ∀ frame state, Spanned (frame ++ before) state.counts →
    ∀ value final, parser state = .ok value final → Spanned (frame ++ after value) final.counts

namespace Collects

variable {before : List Node} {parser : Parse α} {after : α → List Node}

theorem pure {value : α} (perm : before.Perm (after value)) :
    Collects before (Pure.pure value) after := by
  intro frame state spanned _ _ ran
  cases ran
  exact spanned.perm (perm.append_left frame)

theorem andThen {middle : α → List Node} {next : α → Parse β} {last : β → List Node}
    (start : Collects before parser middle)
    (rest : ∀ value, Collects (middle value) (next value) last) :
    Collects before (parser >>= next) last := by
  intro frame state spanned result final ran
  obtain ⟨value, between, began, followed⟩ := bind_ok_iff.mp ran
  have reached := start frame state spanned value between began
  exact rest value frame between reached result final followed

theorem of_perm {other : List Node} (perm : before.Perm other)
    (collects : Collects other parser after) : Collects before parser after :=
  fun frame state spanned => collects frame state (spanned.perm (perm.append_left frame))

/-- Trees that a parser does not take up stay. -/
theorem frame (collects : Collects before parser after) (extra : List Node) :
    Collects (extra ++ before) parser fun value => extra ++ after value := by
  intro frame state spanned value final ran
  rw [← List.append_assoc] at spanned ⊢
  exact collects (frame ++ extra) state spanned value final ran

/-- A further part is read behind what was read before. -/
theorem bind {middle : α → List Node} {next : α → Parse β} {last : β → List Node}
    (start : Collects [] parser middle)
    (rest : ∀ value, Collects (before ++ middle value) (next value) last) :
    Collects before (parser >>= next) last := by
  have framed := start.frame before
  rw [List.append_nil] at framed
  exact .andThen framed rest

/-- What numbers no nodes is passed over. -/
theorem passed {next : α → Parse β} {last : β → List Node} (keeps : KeepsCounts parser)
    (rest : ∀ value, Collects before (next value) last) :
    Collects before (parser >>= next) last := by
  have same : Collects before parser fun _ => before := by
    intro frame state spanned value final ran
    rw [keeps.ok ran]
    exact spanned
  exact .andThen same rest

theorem skip {next : α → Parse β} {last : β → List Node}
    (silent : Composed false fun _ _ => parser)
    (rest : ∀ value, Collects before (next value) last) :
    Collects before (parser >>= next) last :=
  .passed (silent.keepsCounts 0 (Parse.parser 0)) rest

theorem map {view : α → β} {last : β → List Node}
    (collects : Collects before parser fun value => last (view value)) :
    Collects before (view <$> parser) last :=
  .andThen collects fun _ => .pure (.refl _)

theorem nested (collects : Collects before parser after) :
    Collects before (nested parser) after := by
  intro frame state spanned value final ran
  obtain ⟨inside, began, rfl⟩ := nested_ok ran
  exact collects frame state.opened spanned value inside began

/-- The trees of a round: those that the next one starts with, or those of the result. -/
def turn (kept : σ → List Node) (last : β → List Node) : Round σ β → List Node
  | .again state => kept state
  | .done result => last result

/-- The rounds of a loop number the nodes of what is kept between them, up to those of its result.
-/
theorem rounds {kept : σ → List Node} {last : β → List Node} {round : σ → Parse (Round σ β)}
    (each : ∀ state, Collects (kept state) (round state) (turn kept last)) (fault : Fault)
    (bound : Nat) (state : σ) :
    Collects (kept state) (ScriptConsole.rounds fault round bound state) last := by
  induction bound generalizing state with
  | zero => exact fun _ _ _ _ _ ran => nomatch ran
  | succ bound ih =>
      refine .andThen (each state) fun outcome => ?_
      cases outcome with
      | done result => exact .pure (.refl _)
      | again next => exact ih next

theorem repeatRounds {kept : σ → List Node} {last : β → List Node} {round : σ → Parse (Round σ β)}
    (each : ∀ state, Collects (kept state) (round state) (turn kept last)) (bound : Nat)
    (state : σ) : Collects (kept state) (Parse.repeatRounds bound round state) last :=
  .skip composed_here fun _ => .rounds each _ bound state

end Collects

section Failing

theorem collects_failAt (before : List Node) (position : Position) (complaint : Complaint)
    (after : α → List Node) : Collects before (failAt position complaint) after :=
  fun _ _ _ _ _ ran => nomatch ran

theorem collects_failHere (before : List Node) (complaint : Complaint) (after : α → List Node) :
    Collects before (failHere complaint) after :=
  .skip composed_here fun position =>
    collects_failAt before position complaint after

/-- Nothing is collected behind a failure. -/
theorem collects_failAt_bind (before : List Node) (position : Position) (complaint : Complaint)
    (next : β → Parse α) (after : α → List Node) :
    Collects before (failAt position complaint >>= next) after :=
  fun _ _ _ _ _ ran => nomatch ran

end Failing

section Marks

/-- A parser gives the next number to a node of a sort. -/
def Numbers (sort : NodeSort) (parser : Parse Mark) : Prop :=
  ∀ state mark after, parser state = .ok mark after →
    mark.number = state.counts.of sort ∧ after.counts = state.counts.next sort

variable {before : List Node} {span : Span}

theorem numbers_markExpr : Numbers .expression (markExpr span) := by
  intro state mark after ran
  cases ran
  exact ⟨rfl, rfl⟩

theorem numbers_markStmt : Numbers .statement (markStmt span) := by
  intro state mark after ran
  cases ran
  exact ⟨rfl, rfl⟩

theorem numbers_markDefinition : Numbers .definition (markDefinition span) := by
  intro state mark after ran
  cases ran
  exact ⟨rfl, rfl⟩

/-- A node is numbered when the nodes inside it were. -/
theorem collects_mark {sort : NodeSort} {parser : Parse Mark} (numbers : Numbers sort parser)
    {build : Mark → Node} (sorted : ∀ mark, (build mark).sort = sort)
    (marked : ∀ mark, (build mark).mark = mark)
    (inside : ∀ mark, before.Perm (build mark).inside) :
    Collects before parser fun mark => (build mark).walk := by
  intro frame state spanned mark final ran
  obtain ⟨heap, spans, same⟩ := spanned
  obtain ⟨number, counts⟩ := numbers state mark final ran
  rw [← same, ← sorted mark] at number counts
  refine ⟨heap.add (build mark), spans.add (build mark) ?_ (inside mark), ?_⟩
  · rw [marked, number]
  · rw [Heap.counts_add, counts]

theorem collects_markExpr {build : Mark → Expr} (marked : ∀ mark, (build mark).mark = mark)
    (inside : ∀ mark, before.Perm (build mark).inside) :
    Collects before (markExpr span) fun mark => (build mark).walk :=
  collects_mark numbers_markExpr (fun _ => rfl) marked inside

theorem collects_markStmt {build : Mark → Stmt} (marked : ∀ mark, (build mark).mark = mark)
    (inside : ∀ mark, before.Perm (build mark).inside) :
    Collects before (markStmt span) fun mark => (build mark).walk :=
  collects_mark numbers_markStmt (fun _ => rfl) marked inside

theorem collects_markDefinition {build : Mark → FunctionDef}
    (marked : ∀ mark, (build mark).mark = mark)
    (inside : ∀ mark, before.Perm (build mark).inside) :
    Collects before (markDefinition span) fun mark => (build mark).walk :=
  collects_mark numbers_markDefinition (fun _ => rfl) marked inside

/-- An expression that is complete once it is numbered. -/
theorem collects_expr {build : Mark → Expr} (marked : ∀ mark, (build mark).mark = mark)
    (inside : ∀ mark, before.Perm (build mark).inside) :
    Collects before (markExpr span >>= fun mark => Pure.pure (build mark)) Expr.walk :=
  .andThen (collects_markExpr marked inside) fun _ => .pure (.refl _)

/-- A statement that is complete once it is numbered. -/
theorem collects_stmt {build : Mark → Stmt} (marked : ∀ mark, (build mark).mark = mark)
    (inside : ∀ mark, before.Perm (build mark).inside) :
    Collects before (markStmt span >>= fun mark => Pure.pure (build mark)) Stmt.walk :=
  .andThen (collects_markStmt marked inside) fun _ => .pure (.refl _)

end Marks

section Lists

variable {walks : List α → List Node} {walk : α → List Node} (listed : Listed walks walk)
include listed

/-- The parts that were read, the last one first, are the result of a loop. -/
theorem collects_collected (items : List α) :
    Collects (walks items) (Pure.pure (.done items.reverse)) (Collects.turn walks walks) :=
  .pure (listed.reverse items)

/-- A loop goes on behind a further part. -/
theorem collects_collecting {item : Parse α} (collects : Collects [] item walk) (items : List α) :
    Collects (walks items) (do return .again ((← item) :: items)) (Collects.turn walks walks) :=
  .bind collects fun value => .pure (listed.cons value items)

variable {item : Parse α} (collects : Collects [] item walk)
include collects

/-- A list that may be missing numbers the nodes of its items, and none if it is missing. -/
theorem collects_list? (bound : Nat) (opening close : Punct) (noun : String) :
    Collects [] (list? bound opening close item noun) fun read => walks (read.getD []) := by
  have each (state : List α × Bool) : Collects (walks state.1) (itemRound close item noun state)
      (Collects.turn (fun state => walks state.1) walks) := by
    obtain ⟨items, afterComma⟩ := state
    refine .skip (composed_accept close) fun closed => ?_
    cases closed with
    | true => exact .pure (listed.reverse items)
    | false =>
        cases afterComma with
        | false => exact collects_failHere _ _ _
        | true =>
            refine .bind collects fun first => ?_
            exact .skip (composed_accept .comma)
              fun comma => .pure (listed.cons first items)
  refine .skip (composed_accept opening) fun opened => ?_
  cases opened with
  | false => exact .pure (.of_eq (listed []).symm)
  | true =>
      have none : walks [] = [] := listed []
      have loop := Collects.repeatRounds each bound ([], true)
      rw [none] at loop
      exact .map loop

theorem collects_list (bound : Nat) (opening close : Punct) (noun listNoun : String) :
    Collects [] (list bound opening close item noun listNoun) walks := by
  refine .skip composed_here fun start => ?_
  refine .bind (collects_list? listed collects bound opening close noun) fun read => ?_
  cases read with
  | none => exact collects_failAt _ _ _ _
  | some items => exact .pure (.refl _)

end Lists

end Parse

end ScriptConsole
