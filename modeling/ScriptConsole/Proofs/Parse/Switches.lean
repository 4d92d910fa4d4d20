import ScriptConsole.Parse.Statement

/-! # Switches as they are written

Between the braces of a switch there are cases and at most one default, in any order. What is read
is the cases in the order in which they are written, and the default apart from them, wherever it
is written (`ScriptConsole.Parse.switchStmt_ok`).
-/

namespace ScriptConsole

/-- What is written between the braces of a switch. -/
inductive SwitchPart where
  | case (written : SwitchCase)
  | default (body : List Stmt)

namespace SwitchPart

/-- The part as a case. -/
def case? : SwitchPart → Option SwitchCase
  | .case written => some written
  | .default _ => none

/-- The statements of the part, if it is a default. -/
def default? : SwitchPart → Option (List Stmt)
  | .case _ => none
  | .default body => some body

end SwitchPart

namespace Parse

/-- A parser in two parts succeeds if the first part does and the second goes on from there. -/
theorem bind_ok_iff {α β : Type} {parser : Parse α} {next : α → Parse β}
    {state final : ParseState} {result : β} :
    (parser >>= next) state = .ok result final ↔
      ∃ value between,
        parser state = .ok value between ∧ next value between = .ok result final := by
  change EStateM.bind parser next state = _ ↔ _
  unfold EStateM.bind
  cases parser state with
  | ok value between =>
      constructor
      · exact fun done => ⟨value, between, rfl, done⟩
      · rintro ⟨_, _, same, done⟩
        obtain ⟨rfl, rfl⟩ := EStateM.Result.ok.inj same
        exact done
  | error fault between => exact ⟨nofun, nofun⟩

variable (bound : Nat) (inner : Parser)

/-- Reads a part of a switch, whatever was read before. -/
def switchPart : Parse SwitchPart := do
  match ← nextWord? with
  | some "case" =>
    let (_, span) ← anyWord
    let first ← inner .expression
    let values ← repeatRounds bound (valueRound inner) [first]
    return .case ⟨span, values, ← caseBody bound inner⟩
  | some "default" =>
    let _ ← anyWord
    return .default (← caseBody bound inner)
  | _ => failHere .expectedCase

/-- The parts that are written up to a closing brace, read one after the other. -/
inductive Writes : ParseState → List SwitchPart → ParseState → Prop where
  | done {state final : ParseState} (closed : nextIs .closeCurly state = .ok true final) :
      Writes state [] final
  | part {state between after final : ParseState} {part : SwitchPart} {parts : List SwitchPart}
      (goesOn : nextIs .closeCurly state = .ok false between)
      (read : switchPart bound inner between = .ok part after) (rest : Writes after parts final) :
      Writes state (part :: parts) final

/-- What was read of a switch is what is written of it: the cases in their order, and the default,
of which there is one at most. -/
structure Written (parts : List SwitchPart) (cases : List SwitchCase)
    (default : Option (List Stmt)) : Prop where
  cases : cases = parts.filterMap SwitchPart.case?
  default : default.toList = parts.filterMap SwitchPart.default?

/-- A statement is the switch that is written where a state stands: after the keyword and the
subject in parentheses, its parts are between braces. -/
def SwitchOf (state : ParseState) (stmt : Stmt) : Prop :=
  ∃ keyword span worded subject tested opening opened parts finish mark cases default,
    anyWord state = .ok (keyword, span) worded ∧
    parenthesized inner worded = .ok subject tested ∧
    expect .openCurly tested = .ok opening opened ∧
    Writes bound inner opened parts finish ∧ Written parts cases default ∧
    stmt = .switch mark (keyword = "switch$") subject cases default

variable {bound inner} {state final : ParseState}

/-- A round of the cases of a switch ends them, or reads one more part of the switch, which is no
second default. -/
theorem caseRound_ok {before : Cases} {outcome : Round Cases Cases}
    (ran : caseRound bound inner before state = .ok outcome final) :
    (nextIs .closeCurly state = .ok true final ∧ outcome = .done (before.1.reverse, before.2)) ∨
      ∃ between part, nextIs .closeCurly state = .ok false between ∧
        switchPart bound inner between = .ok part final ∧
        ((∃ read, part = .case read ∧ outcome = .again (read :: before.1, before.2)) ∨
          ∃ body, part = .default body ∧ before.2 = none ∧
            outcome = .again (before.1, some body)) := by
  obtain ⟨found, default⟩ := before
  obtain ⟨closed, between, next, rest⟩ := bind_ok_iff.mp ran
  cases closed with
  | true =>
      obtain ⟨rfl, rfl⟩ := EStateM.Result.ok.inj rest
      exact .inl ⟨next, rfl⟩
  | false =>
      refine .inr ⟨between, ?_⟩
      simp only [Bool.false_eq_true, ↓reduceIte] at rest
      obtain ⟨word, amid, peeked, rest⟩ := bind_ok_iff.mp rest
      split at rest
      · obtain ⟨⟨_, span⟩, _, passed, rest⟩ := bind_ok_iff.mp rest
        obtain ⟨first, _, firstRead, rest⟩ := bind_ok_iff.mp rest
        obtain ⟨values, _, valuesRead, rest⟩ := bind_ok_iff.mp rest
        obtain ⟨body, _, bodyRead, rest⟩ := bind_ok_iff.mp rest
        obtain ⟨rfl, rfl⟩ := EStateM.Result.ok.inj rest
        refine ⟨.case ⟨span, values, body⟩, next, ?_, .inl ⟨_, rfl, rfl⟩⟩
        refine bind_ok_iff.mpr ⟨_, _, peeked, bind_ok_iff.mpr ⟨_, _, passed, ?_⟩⟩
        refine bind_ok_iff.mpr ⟨_, _, firstRead, bind_ok_iff.mpr ⟨_, _, valuesRead, ?_⟩⟩
        exact bind_ok_iff.mpr ⟨_, _, bodyRead, rfl⟩
      · obtain ⟨⟨_, span⟩, _, passed, rest⟩ := bind_ok_iff.mp rest
        cases default with
        | some body => exact nomatch rest
        | none =>
            obtain ⟨body, _, bodyRead, rest⟩ := bind_ok_iff.mp rest
            obtain ⟨rfl, rfl⟩ := EStateM.Result.ok.inj rest
            refine ⟨.default body, next, ?_, .inr ⟨_, rfl, rfl, rfl⟩⟩
            refine bind_ok_iff.mpr ⟨_, _, peeked, bind_ok_iff.mpr ⟨_, _, passed, ?_⟩⟩
            exact bind_ok_iff.mpr ⟨_, _, bodyRead, rfl⟩
      · obtain ⟨_, _, _, failed⟩ := bind_ok_iff.mp rest
        exact nomatch failed

/-- The rounds of the cases of a switch read its parts. -/
theorem caseRounds_ok {fault : Fault} {rounds : Nat} {before after : Cases}
    (ran : ScriptConsole.rounds fault (caseRound bound inner) rounds before state =
      .ok after final) :
    ∃ parts, Writes bound inner state parts final ∧
      after.1 = before.1.reverse ++ parts.filterMap SwitchPart.case? ∧
      after.2.toList = before.2.toList ++ parts.filterMap SwitchPart.default? := by
  induction rounds generalizing before state with
  | zero => exact nomatch ran
  | succ rounds ih =>
      obtain ⟨outcome, between, round, rest⟩ := bind_ok_iff.mp ran
      obtain ⟨closed, rfl⟩ | ⟨amid, part, goesOn, read, kinds⟩ := caseRound_ok round
      · obtain ⟨rfl, rfl⟩ := EStateM.Result.ok.inj rest
        exact ⟨[], .done closed, (List.append_nil _).symm, (List.append_nil _).symm⟩
      · obtain ⟨case, rfl, rfl⟩ | ⟨body, rfl, none, rfl⟩ := kinds
        · obtain ⟨parts, written, cases, default⟩ := ih rest
          refine ⟨.case case :: parts, .part goesOn read written, ?_, default⟩
          rw [cases, List.reverse_cons, List.append_assoc]
          rfl
        · obtain ⟨parts, written, cases, default⟩ := ih rest
          refine ⟨.default body :: parts, .part goesOn read written, cases, ?_⟩
          rw [default, none]
          rfl

theorem here_ok {position : Position} (looked : here state = .ok position final) :
    final = state := by
  obtain ⟨_, _, read, rest⟩ := bind_ok_iff.mp looked
  obtain ⟨rfl, rfl⟩ := EStateM.Result.ok.inj read
  cases tokens : state.tokens with
  | nil | cons token tokens =>
      simp only [tokens] at rest
      exact (EStateM.Result.ok.inj rest).2.symm

/-- A switch that was read has the cases that are written between its braces in their order, and the
default that is written before, between or after them. -/
theorem switchStmt_ok {stmt : Stmt} (ran : switchStmt bound inner state = .ok stmt final) :
    SwitchOf bound inner state stmt := by
  obtain ⟨⟨keyword, span⟩, worded, word, rest⟩ := bind_ok_iff.mp ran
  obtain ⟨subject, tested, test, rest⟩ := bind_ok_iff.mp rest
  obtain ⟨opening, opened, opens, rest⟩ := bind_ok_iff.mp rest
  obtain ⟨⟨cases, default⟩, finish, looped, rest⟩ := bind_ok_iff.mp rest
  obtain ⟨_, _, _, rest⟩ := bind_ok_iff.mp rest
  obtain ⟨mark, _, _, rest⟩ := bind_ok_iff.mp rest
  obtain ⟨rfl, rfl⟩ := EStateM.Result.ok.inj rest
  obtain ⟨_, _, looked, rounds⟩ := bind_ok_iff.mp looped
  rw [here_ok looked] at rounds
  obtain ⟨parts, writes, sameCases, sameDefault⟩ := caseRounds_ok rounds
  exact ⟨keyword, span, worded, subject, tested, opening, opened, parts, finish, mark, cases,
    default, word, test, opens, writes, ⟨sameCases, sameDefault⟩, rfl⟩

end Parse

end ScriptConsole
