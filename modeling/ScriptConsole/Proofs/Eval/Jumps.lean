import ScriptConsole.Proofs.Eval.Results

/-! # Jumps stay in loops

A jump is a statement that leaves the loop around it or goes on with its next round. A loop takes
up every jump of its body. So a script or a function in which every jump stands in the body of
some loop ends normally or with a result, and there is no warning about it
(`ScriptConsole.Eval.jumps_taken_up`). A definition inside of a function is a function of its own.
-/

namespace ScriptConsole

/-- A statement that leaves a loop or goes on with its next round. -/
def Stmt.IsJump : Stmt → Prop
  | .break _ | .continue _ => True
  | _ => False

/-- A statement that runs its body in rounds. -/
def Stmt.IsLoop : Stmt → Prop
  | .loop .. | .count .. => True
  | _ => False

/-- A statement contains another one that belongs to the same function. The flag tells whether the
body of a loop is around the other one in there. -/
inductive Stmt.Contains (inner : Stmt) : Bool → Stmt → Prop where
  | self : Contains inner false inner
  | block {looped : Bool} {part : Stmt} {body : Block} (member : part ∈ body.statements)
      (contains : Contains inner looped part) : Contains inner looped (.block body)
  | whenTrue {looped : Bool} {mark : Mark} {test : Expr} {yes : Stmt} {no : Option Stmt}
      (contains : Contains inner looped yes) : Contains inner looped (.branch mark test yes no)
  | whenFalse {looped : Bool} {mark : Mark} {test : Expr} {yes no : Stmt}
      (contains : Contains inner looped no) :
      Contains inner looped (.branch mark test yes (some no))
  | loop {looped testsLast : Bool} {mark : Mark} {test : Expr} {body : Stmt}
      (contains : Contains inner looped body) :
      Contains inner true (.loop mark testsLast test body)
  | count {looped : Bool} {mark : Mark} {initial test step : Option Expr} {body : Stmt}
      (contains : Contains inner looped body) :
      Contains inner true (.count mark initial test step body)
  | case {looped byText : Bool} {mark : Mark} {subject : Expr} {cases : List SwitchCase}
      {default : Option (List Stmt)} {case : SwitchCase} {part : Stmt} (listed : case ∈ cases)
      (member : part ∈ case.body) (contains : Contains inner looped part) :
      Contains inner looped (.switch mark byText subject cases default)
  | default {looped byText : Bool} {mark : Mark} {subject : Expr} {cases : List SwitchCase}
      {body : List Stmt} {part : Stmt} (member : part ∈ body)
      (contains : Contains inner looped part) :
      Contains inner looped (.switch mark byText subject cases (some body))

/-- Every jump in a statement stands in the body of a loop. -/
def Stmt.JumpsEnclosed (stmt : Stmt) : Prop :=
  ∀ looped jump, jump.IsJump → Stmt.Contains jump looped stmt → looped = true

/-- Every jump in some statements stands in the body of a loop. -/
def AllJumpsEnclosed (stmts : List Stmt) : Prop :=
  ∀ stmt ∈ stmts, stmt.JumpsEnclosed

/-- What a statement contains of its own function is enclosed along with it. -/
theorem Stmt.JumpsEnclosed.part {stmt part : Stmt} (enclosed : stmt.JumpsEnclosed)
    (within : ∀ {jump : Stmt} {looped : Bool}, Stmt.Contains jump looped part →
      Stmt.Contains jump looped stmt) : part.JumpsEnclosed :=
  fun looped jump isJump contains => enclosed looped jump isJump (within contains)

/-- A loop encloses every jump in it. -/
theorem Stmt.jumpsEnclosed_loop {stmt : Stmt} (isLoop : stmt.IsLoop) : stmt.JumpsEnclosed := by
  intro looped jump isJump contains
  cases contains with
  | loop => rfl
  | count => rfl
  | self =>
      cases stmt with
      | loop | count => exact isJump.elim
      | _ => exact isLoop.elim
  | block | whenTrue | whenFalse | case | default => exact isLoop.elim

/-- Braces do not enclose jumps. -/
theorem Stmt.jumpsEnclosed_block {body : Block} (enclosed : AllJumpsEnclosed body.statements) :
    (Stmt.block body).JumpsEnclosed := by
  intro looped jump isJump contains
  cases contains with
  | self => exact isJump.elim
  | block member contains => exact enclosed _ member looped jump isJump contains

/-- A statement ended normally or with a result, and not with a jump. -/
def Completion.Ends : Completion → Prop
  | .normal | .return _ => True
  | .break | .continue => False

/-- The result that a statement ended with. -/
def Completion.result : Completion → Value
  | .return value => value
  | .normal | .break | .continue => .empty

namespace Eval

variable {α β σ : Type} {ev : Evaluator}

/-- Wherever a computation comes to a result, the result is as demanded. -/
def Gives (demand : α → Prop) (action : Eval α) : Prop :=
  ∀ console result final, action console = .ok result final → demand result

/-- Wherever statements come to an end, they do not end with a jump. -/
abbrev Finishes (action : Eval Completion) : Prop :=
  Gives Completion.Ends action

namespace Gives

variable {demand : α → Prop} {final : β → Prop} {first : Eval α} {next : α → Eval β}

theorem pure {value : α} (holds : demand value) : Gives demand (Pure.pure value) := by
  intro console result ended done
  obtain ⟨rfl, -⟩ := pure_ok_iff.mp done
  exact holds

theorem bind (start : Gives demand first)
    (rest : ∀ value, demand value → Gives final (next value)) :
    Gives final (first >>= next) := by
  intro console result ended done
  obtain ⟨value, between, ran, done⟩ := bind_ok_iff.mp done
  exact rest value (start console value between ran) between result ended done

/-- What is demanded may hold whatever came before. -/
theorem after (rest : ∀ value, Gives final (next value)) : Gives final (first >>= next) := by
  have any : Gives (fun _ => True) first := fun _ _ _ _ => trivial
  exact any.bind fun value _ => rest value

theorem afterEither {condition : Prop} [Decidable condition] {other : Eval α}
    (rest : ∀ value, Gives final (next value)) :
    Gives final (if condition then first >>= next else other >>= next) := by
  split
  · exact .after rest
  · exact .after rest

/-- A loop gives what its last round does. -/
theorem rounds {round : σ → Eval (Round σ β)}
    (each : ∀ state, Gives (fun turn => ∀ result, turn = .done result → final result) (round state))
    (bound : Nat) (state : σ) :
    Gives final (ScriptConsole.rounds .outOfSteps round bound state) := by
  induction bound generalizing state with
  | zero => exact fun _ _ _ absurd => nomatch absurd
  | succ bound ih =>
      refine (each state).bind fun turn holds => ?_
      cases turn with
      | done result => exact .pure (holds result rfl)
      | again state => exact ih state

end Gives

section Loops

variable (ev) (body : Stmt)

/-- A jump out of the body of a loop is none out of the loop. -/
theorem gives_runBody : Gives (fun ended => ∀ completion ∈ ended, completion.Ends)
    (runBody ev body) := by
  refine .after fun completion => ?_
  cases completion with
  | normal => exact .pure nofun
  | «continue» => exact .pure nofun
  | «break» => exact .pure fun _ is => Option.some.inj is ▸ trivial
  | «return» value => exact .pure fun _ is => Option.some.inj is ▸ trivial

/-- Where a round ends a loop, the loop ends without a jump, as the test or the body ended it. -/
theorem gives_loopRound (test : Expr) (skipsTest : Bool) :
    Gives (fun turn => ∀ completion, turn = .done completion → completion.Ends)
      (loopRound ev test body skipsTest) := by
  refine .afterEither fun goesOn => ?_
  cases goesOn with
  | false => exact .pure fun _ is => Round.done.inj is ▸ trivial
  | true =>
      refine (gives_runBody ev body).bind fun ended ends => ?_
      cases ended with
      | none => exact .pure nofun
      | some completion => exact .pure fun _ is => Round.done.inj is ▸ ends completion rfl

/-- So it does in a counting loop, whose step ends no loop. -/
theorem gives_countRound (test step : Option Expr) :
    Gives (fun turn => ∀ completion, turn = .done completion → completion.Ends)
      (countRound ev test step body ()) := by
  refine .after fun goesOn => ?_
  cases goesOn with
  | false => exact .pure fun _ is => Round.done.inj is ▸ trivial
  | true =>
      refine (gives_runBody ev body).bind fun ended ends => ?_
      cases ended with
      | none => exact .after fun _ => .pure nofun
      | some completion => exact .pure fun _ is => Round.done.inj is ▸ ends completion rfl

/-- A loop takes up every jump, whatever its body is. -/
theorem finishes_loop (bound : Nat) {stmt : Stmt} (isLoop : stmt.IsLoop) :
    Finishes (runStatement bound ev stmt) := by
  cases stmt with
  | loop mark testsLast test body => exact .rounds (gives_loopRound ev body test) bound testsLast
  | count mark initial test step body =>
      exact .after fun _ => .rounds (fun _ => gives_countRound ev body test step) bound ()
  | _ => exact isLoop.elim

end Loops

section Statements

/-- Statements that enclose their jumps one by one enclose them together. -/
theorem finishes_statements {stmts : List Stmt}
    (each : ∀ stmt ∈ stmts, Finishes (ev (.statement stmt))) : Finishes (statements ev stmts) := by
  induction stmts with
  | nil => exact .pure trivial
  | cons stmt stmts ih =>
      obtain ⟨first, others⟩ := List.forall_mem_cons.mp each
      refine first.bind fun completion ends => ?_
      cases completion with
      | normal => exact ih others
      | «return» value => exact .pure trivial
      | «break» => exact ends.elim
      | «continue» => exact ends.elim

/-- A switch runs the statements of one of its cases, or its default. -/
theorem gives_chosen (ev : Evaluator) (byText : Bool) (subject : Value) (default : List Stmt)
    (cases : List SwitchCase) :
    Gives (fun stmts => stmts = default ∨ ∃ case ∈ cases, stmts = case.body)
      (chosen ev byText subject default cases) := by
  induction cases with
  | nil => exact .pure (.inl rfl)
  | cons case cases ih =>
      refine .after fun found => ?_
      cases found with
      | true => exact .pure (.inr ⟨case, List.mem_cons_self, rfl⟩)
      | false =>
          intro console stmts final ran
          obtain same | ⟨other, member, same⟩ := ih console stmts final ran
          · exact .inl same
          · exact .inr ⟨other, List.mem_cons_of_mem case member, same⟩

/-- A statement whose jumps are enclosed finishes if the statements in it do. -/
theorem finishes_runStatement (bound : Nat)
    (inner : ∀ part : Stmt, part.JumpsEnclosed → Finishes (ev (.statement part))) {stmt : Stmt}
    (enclosed : stmt.JumpsEnclosed) : Finishes (runStatement bound ev stmt) := by
  cases stmt with
  | block body =>
      exact finishes_statements fun part member => inner part (enclosed.part (.block member))
  | expression mark value => exact .after fun _ => .pure trivial
  | branch mark test yes no =>
      refine .after fun holds => ?_
      cases holds with
      | true => exact inner yes (enclosed.part .whenTrue)
      | false =>
          cases no with
          | none => exact .pure trivial
          | some no => exact inner no (enclosed.part .whenFalse)
  | loop mark testsLast test body => exact finishes_loop ev bound trivial
  | count mark initial test step body => exact finishes_loop ev bound trivial
  | «break» mark => exact nomatch enclosed false (.break mark) trivial .self
  | «continue» mark => exact nomatch enclosed false (.continue mark) trivial .self
  | «return» mark value =>
      cases value with
      | none => exact .pure trivial
      | some value => exact .after fun _ => .pure trivial
  | switch mark byText subject cases default =>
      refine .after fun value => (gives_chosen ev byText value _ cases).bind fun stmts chosen => ?_
      refine finishes_statements fun part member => inner part ?_
      obtain rfl | ⟨case, listed, rfl⟩ := chosen
      · cases default with
        | none => exact nomatch member
        | some body => exact enclosed.part (.default member)
      · exact enclosed.part (.case listed member)
  | function mark definition => exact .after fun _ => .pure trivial
  | package mark name definitions => exact .after fun _ => .pure trivial

/-- Where every jump of a statement stands in the body of a loop, the statement does not end with
a jump. -/
theorem finishes_run (bound : Nat) {stmt : Stmt} (enclosed : stmt.JumpsEnclosed) :
    Finishes (run bound (.statement stmt)) := by
  -- By induction on the bound, since a statement runs the statements in it with one step less.
  induction bound generalizing stmt with
  | zero => exact fun _ _ _ absurd => nomatch absurd
  | succ bound ih => exact .after fun _ => finishes_runStatement bound (fun _ => ih) enclosed

theorem finishes_sequence (bound : Nat) {stmts : List Stmt} (enclosed : AllJumpsEnclosed stmts) :
    Finishes (run bound (.sequence stmts)) := by
  cases bound with
  | zero => exact fun _ _ _ absurd => nomatch absurd
  | succ bound =>
      exact finishes_statements fun stmt member => finishes_run bound (enclosed stmt member)

/-- What ended without a jump gives its result and no warning. -/
theorem bodyResult_ends (name : String) {completion : Completion} (ends : completion.Ends) :
    bodyResult name completion = pure completion.result := by
  cases completion with
  | normal => rfl
  | «return» value => rfl
  | «break» => exact ends.elim
  | «continue» => exact ends.elim

/-- A body that finishes in a call of its own leaves the console as it ended. -/
theorem bind_bodyResult {body : Eval Completion} (finishes : Finishes body) (name : String)
    (frame : Frame) :
    (do
      let completion ← withFrame frame body
      bodyResult name completion) = Completion.result <$> withFrame frame body := by
  funext console
  have given : Finishes (withFrame frame body) := by
    intro console completion final ran
    rw [withFrame_apply] at ran
    split at ran
    · exact nomatch ran
    · cases ended : body { console with calls := console.calls.push frame } with
      | ok value between =>
          rw [ended] at ran
          obtain ⟨rfl, -⟩ := EStateM.Result.ok.inj ran
          exact finishes _ value between ended
      | error abort between =>
          rw [ended] at ran
          exact nomatch ran
  rw [map_eq_pure_bind, bind_apply, bind_apply]
  cases ran : withFrame frame body console with
  | error abort final => rfl
  | ok completion final =>
      simp only [bodyResult_ends name (given console completion final ran)]
      rfl

end Statements

/-- **Jumps stay in loops.** A script, or the body of a function, whose jumps all stand in the body
of a loop of its own ends normally, with a result or in an error, and never with a jump. So when it
was run in a call of its own, its result is all that is left to give: no warning about a jump
outside of a loop is noted for it, and the console is as the call left it. A loop never ends with a
jump, whatever stands in it. -/
theorem jumps_taken_up (bound : Nat) :
    (∀ script : Script, AllJumpsEnclosed script.root →
      Finishes (run bound (.sequence script.root)) ∧
        execute (run bound) script =
          Completion.result <$>
            withFrame (.ofScript script.filename) (run bound (.sequence script.root))) ∧
    (∀ definition : FunctionDef, AllJumpsEnclosed definition.body.statements →
      Finishes (run bound (.statement (.block definition.body))) ∧
        ∀ (entry : Entry Callable) (filename : String) (arguments : List Value),
          entry.target = .script filename definition →
            callEntry (run bound) entry arguments =
              Completion.result <$>
                withFrame
                  (.ofCall ⟨entry.name, entry.layer⟩ filename definition.parameters arguments)
                  (run bound (.statement (.block definition.body)))) ∧
    ∀ stmt : Stmt, stmt.IsLoop → Finishes (run bound (.statement stmt)) := by
  refine ⟨fun script enclosed => ?_, fun definition enclosed => ?_, fun stmt isLoop => ?_⟩
  · have finishes := finishes_sequence bound enclosed
    exact ⟨finishes, bind_bodyResult finishes _ _⟩
  · have finishes := finishes_run bound (Stmt.jumpsEnclosed_block enclosed)
    refine ⟨finishes, fun entry filename arguments target => ?_⟩
    unfold callEntry
    rw [target]
    exact bind_bodyResult finishes _ _
  · exact finishes_run bound (Stmt.jumpsEnclosed_loop isLoop)

section Sample

private def jumpMark : Mark :=
  ⟨0, .start, .start⟩

/-- A loop without an end but for the jump in its body, and a result behind it. -/
private def leavingScript : Script :=
  ⟨"main.cs", [.loop jumpMark false (.literal jumpMark (.int 1)) (.branch jumpMark
    (.literal jumpMark (.int 1)) (.break jumpMark) none),
    .return jumpMark (some (.literal jumpMark (.int 5)))], ⟨0, 4, 3⟩⟩

@[irreducible] private def idleConsole : Console :=
  Console.new {} 0

/-- The jump leaves the loop, and the script goes on to its result. -/
theorem jumps_taken_up_five :
    AllJumpsEnclosed leavingScript.root ∧ Finishes (run 9 (.sequence leavingScript.root)) ∧
      ∃ final, execute (run 9) leavingScript idleConsole = .ok (.int 5) final ∧
        (Completion.result <$> withFrame (.ofScript leavingScript.filename)
          (run 9 (.sequence leavingScript.root))) idleConsole = .ok (.int 5) final := by
  have enclosed : AllJumpsEnclosed leavingScript.root := by
    refine List.forall_mem_cons.mpr ⟨Stmt.jumpsEnclosed_loop trivial, ?_⟩
    refine List.forall_mem_singleton.mpr fun looped jump isJump contains => ?_
    cases contains with
    | self => exact isJump.elim
  obtain ⟨finishes, runs⟩ := (jumps_taken_up 9).1 leavingScript enclosed
  have five : result? (execute (run 9) leavingScript idleConsole) = some (.int 5) := by
    decide +kernel
  obtain ⟨final, ran⟩ := result?_eq_some_iff.mp five
  refine ⟨enclosed, finishes, final, ran, ?_⟩
  rw [← runs]
  exact ran

end Sample

end Eval

end ScriptConsole
