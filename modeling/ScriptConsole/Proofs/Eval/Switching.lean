import ScriptConsole.Proofs.Eval.Compound
import ScriptConsole.Proofs.Eval.Isolation
import ScriptConsole.Proofs.Parse.Switches

/-! # Switches as chains of conditions

A switch evaluates its subject once and compares it with the values of the cases one after the
other, up to the first that is it. So does a chain of conditions that keeps the subject in a local
variable (`ScriptConsole.Stmt.chain`). Where the chain comes to an end, the switch comes to the same
one from the same console, and the consoles are the same in the end but for the variable
(`ScriptConsole.Eval.switch_of_chain`), unless what the switch runs reads or writes the variable
(`ScriptConsole.Eval.SparesAll`). A function of the host that goes on after the error that there is
no room for a further expression can tell the two apart
(`ScriptConsole.Eval.switch_is_chain_caught`).
-/

namespace ScriptConsole

section Chain

variable (mark : Mark) (byText : Bool) (holder : Symbol)

/-- The test whether a variable is a value that a case is for. -/
def Expr.isCase (value : Expr) : Expr :=
  .binary mark (if byText then .sameText else .equal) (.variable mark .ofCall holder []) value

/-- The test whether a variable is one of the values that a case is for. -/
def Expr.isOneOf : List Expr → Expr
  | [] => .literal mark (.int 0)
  | value :: values =>
    values.foldl (fun test value => .binary mark .logicalOr test (isCase mark byText holder value))
      (isCase mark byText holder value)

/-- The conditions of the cases of a switch, one in the alternative of the other, with the default
as the last alternative. -/
def Stmt.conditions (default : Option (List Stmt)) : List SwitchCase → Option Stmt
  | [] => default.map fun body => .block ⟨mark, body⟩
  | case :: cases =>
    some (.branch mark (.isOneOf mark byText holder case.values) (.block ⟨mark, case.body⟩)
      (conditions default cases))

/-- A switch without a switch: its subject is assigned to a variable, on which the conditions are.
They are noted at the line of the switch. -/
def Stmt.chain (subject : Expr) (cases : List SwitchCase) (default : Option (List Stmt)) :
    List Stmt :=
  .expression mark (.assign mark .set (.variable mark .ofCall holder []) subject) ::
    (conditions mark byText holder default cases).toList

end Chain

namespace Console

/-- What a local variable of the innermost call was last set to. -/
def local? (console : Console) (name : Symbol) : Option Value :=
  console.calls.top?.bind fun frame => frame.locals[name]?

/-- Two consoles are the same but for a local variable of the innermost call. -/
structure SameBut (name : Symbol) (console other : Console) : Prop where
  world : other.world = console.world
  nesting : other.nesting = console.nesting
  outlines : Eval.outlines other = Eval.outlines console
  outer : other.calls.frames.tail = console.calls.frames.tail
  locals {symbol : Symbol} : symbol ≠ name → other.local? symbol = console.local? symbol

namespace SameBut

variable {name : Symbol} {console other : Console}

theorem refl (name : Symbol) (console : Console) : SameBut name console console :=
  ⟨rfl, rfl, rfl, rfl, fun _ => rfl⟩

theorem symm (same : SameBut name console other) : SameBut name other console :=
  ⟨same.world.symm, same.nesting.symm, same.outlines.symm, same.outer.symm,
    fun different => (same.locals different).symm⟩

theorem trans {third : Console} (first : SameBut name console other)
    (second : SameBut name other third) : SameBut name console third :=
  ⟨second.world.trans first.world, second.nesting.trans first.nesting,
    second.outlines.trans first.outlines, second.outer.trans first.outer,
    fun different => (second.locals different).trans (first.locals different)⟩

theorem sameButLocals (same : SameBut name console other) : console.SameButLocals other :=
  ⟨same.world, same.outlines, same.nesting⟩

/-- A line that is noted in the innermost call is no local variable. -/
theorem setLine (same : SameBut name console other) (line : Nat) :
    SameBut name (Eval.ended (Eval.setLine line console)) (Eval.ended (Eval.setLine line other)) ∧
      (Eval.ended (Eval.setLine line other)).local? name = other.local? name := by
  obtain ⟨world, ⟨frames, depth, counted⟩, nesting⟩ := console
  obtain ⟨world', ⟨frames', depth', counted'⟩, nesting'⟩ := other
  have outlines := same.outlines
  have outer := same.outer
  have locals := @same.locals
  cases frames with
  | nil =>
      obtain rfl := List.map_eq_nil_iff.mp outlines
      exact ⟨⟨same.world, same.nesting, outlines, outer, locals⟩, rfl⟩
  | cons frame rest =>
      cases frames' with
      | nil => exact nomatch outlines
      | cons frame' rest' =>
          obtain ⟨head, tail⟩ := List.cons.inj outlines
          refine ⟨⟨same.world, same.nesting, ?_, outer, locals⟩, rfl⟩
          exact congrArg₂ List.cons (congrArg (fun frame : Frame => { frame with line }) head) tail

end SameBut

/-- Where a call is in progress, a local variable that is set has its value, and all others have
theirs. -/
theorem local?_assigning {console : Console} (running : console.calls.frames ≠ []) (name : Symbol)
    (value : Value) (other : Symbol) :
    (console.assigning .ofCall name value).local? other =
      if other = name then some value else console.local? other := by
  obtain ⟨world, ⟨frames, depth, counted⟩, nesting⟩ := console
  cases frames with
  | nil => exact absurd rfl running
  | cons frame frames =>
      change (frame.locals.insert name value)[other]? =
        if other = name then _ else frame.locals[other]?
      rw [Std.TreeMap.getElem?_insert]
      by_cases same : other = name
      · rw [if_pos same, if_pos (Std.compare_eq_iff_eq.mpr same.symm)]
      · rw [if_neg same, if_neg fun equal => same (Std.compare_eq_iff_eq.mp equal).symm]

/-- Assigning a local variable changes nothing but the variable, and nothing at all where no call is
in progress. -/
theorem sameBut_assigning (console : Console) (name : Symbol) (value : Value) :
    SameBut name console (console.assigning .ofCall name value) := by
  refine ⟨rfl, rfl, Eval.outlines_updateFrame
    (fun frame => { frame with locals := frame.locals.insert name value }) (fun _ => rfl) console,
    ?_, ?_⟩
  · change (console.calls.frames.modifyHead _).tail = console.calls.frames.tail
    cases console.calls.frames <;> rfl
  · intro other different
    by_cases running : console.calls.frames = []
    · obtain ⟨world, ⟨frames, depth, counted⟩, nesting⟩ := console
      obtain rfl := running
      rfl
    · rw [local?_assigning running, if_neg different]

end Console

namespace Eval

variable {α : Type} {holder : Symbol} {bound : Nat}

/-- What a job does on a console neither depends on a local variable of the innermost call nor
changes it: it comes to the same on all consoles that are the same but for the variable, which is
in the end what it was. -/
def Spares (holder : Symbol) (bound : Nat) (job : Job) (console : Console) : Prop :=
  ∀ other, console.SameBut holder other →
    outcome (run bound job other) = outcome (run bound job console) ∧
      (ended (run bound job console)).SameBut holder (ended (run bound job other)) ∧
      (ended (run bound job other)).local? holder = other.local? holder

/-- All jobs that a computation comes to on a console leave a local variable of the innermost call
alone. -/
def SparesAll (holder : Symbol) (bound : Nat) (program : Evaluator → Eval α) (console : Console) :
    Prop :=
  ∀ job start, ComesTo program (run bound) console job start → Spares holder bound job start

section Coming

variable {ev : Evaluator} {console between : Console} {job : Job}
  {next : job.Result → Evaluator → Eval α}

/-- A computation comes to the job that it begins with. -/
theorem comesTo_first : ComesTo (fun ev => ev job >>= fun value => next value ev) ev console job
    console := by
  refine comesTo_of_abort fun other final aborted => ?_
  simp only [bind_apply, aborted]
  rfl

/-- After a job a computation comes to what it comes to from there. -/
theorem ComesTo.after {value : job.Result} (ran : ev job console = .ok value between) {later : Job}
    {start : Console} (comes : ComesTo (next value) ev between later start) :
    ComesTo (fun ev => ev job >>= fun value => next value ev) ev console later start := by
  by_cases again : (later, start) = (job, console)
  · obtain ⟨rfl, rfl⟩ := Prod.mk.inj again
    exact comesTo_first
  · obtain ⟨other, same, differs⟩ := comes
    refine ⟨other, same, ?_⟩
    have begins : other job console = .ok value between :=
      (same job console fun equal => again equal.symm).trans ran
    simpa only [bind_apply, begins, ran] using differs

theorem SparesAll.first
    (spares : SparesAll holder bound (fun ev => ev job >>= fun value => next value ev) console) :
    Spares holder bound job console :=
  spares job console comesTo_first

theorem SparesAll.after
    (spares : SparesAll holder bound (fun ev => ev job >>= fun value => next value ev) console)
    {value : job.Result} (ran : run bound job console = .ok value between) :
    SparesAll holder bound (next value) between :=
  fun later start comes => spares later start (comes.after ran)

end Coming

/-- A switch is at a console and its chain at another one, which is the same but for the variable of
the chain and further expressions in evaluation. -/
structure Abreast (holder : Symbol) (level : Nat) (console chained : Console) : Prop where
  same : console.SameBut holder { chained with nesting := level }
  depth : console.nesting = level
  deeper : level ≤ chained.nesting

/-- The variable of the chain has a value, and the line of the switch is noted. -/
structure Tracks (holder : Symbol) (subject : Value) (line : Nat) (chained : Console) : Prop where
  value : chained.local? holder = some subject
  line : (outlines chained).head?.map Frame.line = some line

namespace Abreast

variable {level : Nat} {console chained : Console}

theorem enterExpression (abreast : Abreast holder level console chained) :
    Abreast holder level console { chained with nesting := chained.nesting + 1 } :=
  { abreast with deeper := Nat.le_succ_of_le abreast.deeper }

theorem leaveExpression (abreast : Abreast holder level console chained)
    (further : level < chained.nesting) :
    Abreast holder level console (leaveExpression chained) :=
  { abreast with deeper := Nat.le_sub_one_of_lt further }

theorem assigning (abreast : Abreast holder level console chained) (value : Value) :
    Abreast holder level console (chained.assigning .ofCall holder value) where
  same := abreast.same.trans
    (Console.sameBut_assigning { chained with nesting := level } holder value)
  depth := abreast.depth
  deeper := abreast.deeper

end Abreast

section Jobs

variable {level less : Nat} {console chained after : Console} {job : Job} {value : job.Result}

/-- A job that spares the variable of the chain comes to the same in the switch as in the chain. -/
theorem Spares.abreast (spares : Spares holder bound job console) (le : less ≤ bound)
    (abreast : Abreast holder level console chained)
    (ran : runYielding less job chained = .ok value after) :
    ∃ final, run bound job console = .ok value final ∧ Abreast holder level final after ∧
      after.local? holder = chained.local? holder := by
  have easing : chained.Eased { chained with nesting := level } := ⟨rfl, rfl, abreast.deeper⟩
  obtain ⟨eased, easedRan, easing⟩ := run_eased le easing ran
  obtain ⟨outcomes, same, kept⟩ := spares _ abreast.same
  rw [easedRan] at outcomes same kept
  cases ends : run bound job console with
  | error abort final =>
      rw [ends] at outcomes
      exact nomatch outcomes
  | ok result final =>
      rw [ends] at outcomes same
      obtain rfl := Except.ok.inj outcomes
      have depth : final.nesting = level := (nesting_of_ok ends).trans abreast.depth
      have easedDepth : eased.nesting = level := same.nesting.trans depth
      obtain rfl : eased = { after with nesting := level } :=
        Console.ext easing.world easing.calls easedDepth
      exact ⟨final, rfl, ⟨same, depth, easing.nesting⟩, kept⟩

theorem outlines_of_yielding (other : job.isStatement = false)
    (ran : runYielding less job chained = .ok value after) : outlines after = outlines chained := by
  obtain ⟨later, again, easing⟩ := run_eased (Nat.le_refl less) (.refl chained) ran
  have kept := run_outlines less other chained
  rw [again] at kept
  exact (congrArg (·.frames.map Frame.outline) easing.calls).symm.trans kept

theorem nesting_of_yielding (ran : runYielding less job chained = .ok value after) :
    after.nesting = chained.nesting := by
  have restored := runYielding_restored less job chained
  rw [ran] at restored
  exact restored.nesting

end Jobs

section Tests

variable {mark : Mark} {byText : Bool} {level less line : Nat} {console chained after : Console}
  {expr : Expr} {subject value : Value}

/-- Expressions of the switch come to the same in the chain, which keeps its variable. -/
theorem Spares.expression (spares : Spares holder bound (.expression expr) console)
    (le : less ≤ bound) (abreast : Abreast holder level console chained)
    (tracks : Tracks holder subject line chained)
    (ran : runYielding less (.expression expr) chained = .ok value after) :
    ∃ final, run bound (.expression expr) console = .ok value final ∧
      Abreast holder level final after ∧ Tracks holder subject line after := by
  obtain ⟨final, ends, abreast, kept⟩ := spares.abreast le abreast ran
  refine ⟨final, ends, abreast, kept.trans tracks.value, ?_⟩
  rw [outlines_of_yielding rfl ran]
  exact tracks.line

/-- Two values are compared by the operators of the chain as by the switch. -/
theorem applyBinary_isCase (byText : Bool) (subject candidate : Value) :
    subject.applyBinary (if byText then .sameText else .equal) candidate =
      .ofBool (matchesCase byText subject candidate) := by
  cases byText <;> rfl

theorem binary_isCase (ev : Evaluator) (byText : Bool) (left right : Expr) :
    binary ev (if byText then .sameText else .equal) left right = do
      let left ← ev (.expression left)
      let right ← ev (.expression right)
      return left.applyBinary (if byText then .sameText else .equal) right := by
  cases byText <;> rfl

/-- A test of the chain reads its variable and evaluates the value of the case. -/
theorem isCase_ok (tracks : Tracks holder subject line chained)
    (ran : runYielding less (.expression (.isCase mark byText holder expr)) chained =
      .ok value after) :
    ∃ least candidate beside, least ≤ less ∧
      runYielding least (.expression expr) { chained with nesting := chained.nesting + 1 } =
        .ok candidate beside ∧
      value = .ofBool (matchesCase byText subject candidate) ∧ after = leaveExpression beside := by
  obtain ⟨least, rfl, _, beside, evaluating, rfl⟩ := runYielding_expression_ok ran
  simp only [Expr.isCase, expression, binary_isCase, bind_ok_iff] at evaluating
  obtain ⟨_, _, readFirst, candidate, _, evaluated, rest⟩ := evaluating
  obtain ⟨rfl, rfl⟩ := pure_ok_iff.mp rest
  obtain ⟨_, rfl, _, _, reading, rfl⟩ := runYielding_expression_ok readFirst
  rw [expression_variable, read_ofVariable] at reading
  obtain ⟨rfl, rfl⟩ := EStateM.Result.ok.inj reading
  refine ⟨_, candidate, _, Nat.le_add_right _ 2, evaluated, ?_, rfl⟩
  have held : chained.getLocal holder = subject :=
    congrArg (fun found : Option Value => found.getD .empty) tracks.value
  change (chained.getLocal holder).applyBinary _ candidate = _
  rw [held, applyBinary_isCase]

theorem toBool_ofBool (truth : Bool) : (Value.ofBool truth).toBool = truth := by
  cases truth <;> decide

/-- The values of a case are tested in order. -/
theorem isOneOf_concat {values : List Expr} (any : values ≠ []) (last : Expr) :
    Expr.isOneOf mark byText holder (values ++ [last]) =
      .binary mark .logicalOr (.isOneOf mark byText holder values)
        (.isCase mark byText holder last) := by
  cases values with
  | nil => exact absurd rfl any
  | cons first rest => simp only [Expr.isOneOf, List.cons_append, List.foldl_append, List.foldl]

/-- A further value is looked at only if none of those before it matches. -/
theorem anyMatches_concat (ev : Evaluator) (byText : Bool) (subject : Value) (values : List Expr)
    (last : Expr) :
    anyMatches ev byText subject (values ++ [last]) =
      (anyMatches ev byText subject values >>= fun found =>
        if found then pure true else anyMatches ev byText subject [last]) := by
  induction values with
  | nil => simp only [List.nil_append, anyMatches, pure_bind, Bool.false_eq_true, ↓reduceIte]
  | cons first rest ih =>
      simp only [List.cons_append, anyMatches, ih, bind_assoc]
      congr 1
      funext candidate
      split
      · simp only [pure_bind, ↓reduceIte]
      · rfl

/-- An expression has a truth value if it comes to a value that has it. -/
theorem truth_ok_iff {ev : Evaluator} {found : Bool} :
    truth ev expr console = .ok found after ↔
      ∃ value, ev (.expression expr) console = .ok value after ∧ value.toBool = found := by
  unfold truth
  rw [bind_ok_iff]
  constructor
  · rintro ⟨value, between, evaluated, rest⟩
    obtain ⟨rfl, rfl⟩ := pure_ok_iff.mp rest
    exact ⟨value, evaluated, rfl⟩
  · rintro ⟨value, evaluated, rfl⟩
    exact ⟨value, after, evaluated, rfl⟩

/-- The second of two alternatives is evaluated if the first does not hold. -/
theorem logicalOr_ok {left right : Expr}
    (ran : runYielding less (.expression (.binary mark .logicalOr left right)) chained =
      .ok value after) :
    ∃ least first beside, least ≤ less ∧
      runYielding least (.expression left) { chained with nesting := chained.nesting + 1 } =
        .ok first beside ∧
      (first.toBool = true ∧ value = .ofBool true ∧ after = leaveExpression beside ∨
        first.toBool = false ∧ ∃ second later,
          runYielding least (.expression right) beside = .ok second later ∧
          value = .ofBool second.toBool ∧ after = leaveExpression later) := by
  obtain ⟨least, rfl, _, final, evaluating, rfl⟩ := runYielding_expression_ok ran
  simp only [expression, binary] at evaluating
  obtain ⟨_, beside, tested, rest⟩ := bind_ok_iff.mp evaluating
  obtain ⟨first, evaluated, rfl⟩ := truth_ok_iff.mp tested
  refine ⟨least, first, beside, Nat.le_add_right _ 2, evaluated, ?_⟩
  cases holds : first.toBool with
  | true =>
      simp only [holds, ↓reduceIte] at rest
      obtain ⟨rfl, rfl⟩ := pure_ok_iff.mp rest
      exact .inl ⟨rfl, rfl, rfl⟩
  | false =>
      simp only [holds, Bool.false_eq_true, ↓reduceIte] at rest
      obtain ⟨_, later, tested, rest⟩ := bind_ok_iff.mp rest
      obtain ⟨second, evaluated, rfl⟩ := truth_ok_iff.mp tested
      obtain ⟨rfl, rfl⟩ := pure_ok_iff.mp rest
      exact .inr ⟨rfl, second, later, evaluated, rfl, rfl⟩

/-- A value is looked for by the switch as it is tested by the chain. -/
theorem isCase_abreast {next : Bool → Evaluator → Eval α} (le : less ≤ bound)
    (abreast : Abreast holder level console chained) (tracks : Tracks holder subject line chained)
    (ran : runYielding less (.expression (.isCase mark byText holder expr)) chained =
      .ok value after)
    (spares : SparesAll holder bound
      (fun ev => anyMatches ev byText subject [expr] >>= fun found => next found ev) console) :
    ∃ final, anyMatches (run bound) byText subject [expr] console = .ok value.toBool final ∧
      Abreast holder level final after ∧ Tracks holder subject line after ∧
      SparesAll holder bound (next value.toBool) final := by
  have found (ev : Evaluator) : anyMatches ev byText subject [expr] =
      ev (.expression expr) >>= fun candidate => pure (matchesCase byText subject candidate) := by
    unfold anyMatches anyMatches
    congr 1
    funext candidate
    cases matchesCase byText subject candidate <;> rfl
  simp only [found, bind_assoc, pure_bind] at spares
  obtain ⟨least, candidate, beside, fewer, evaluated, rfl, rfl⟩ := isCase_ok tracks ran
  obtain ⟨final, ends, beside', tracks⟩ := spares.first.expression (fewer.trans le)
    abreast.enterExpression ⟨tracks.value, tracks.line⟩ evaluated
  have deeper := nesting_of_yielding evaluated
  refine ⟨final, ?_, beside'.leaveExpression ?_, ⟨tracks.value, tracks.line⟩, ?_⟩
  · rw [found, bind_apply, ends, toBool_ofBool]
    rfl
  · exact deeper ▸ Nat.lt_succ_of_le abreast.deeper
  · rw [toBool_ofBool]
    exact spares.after ends

/-- The values of a case are looked for by the switch as they are tested by the chain. -/
theorem isOneOf_abreast (values : List Expr) (next : Bool → Evaluator → Eval α) (le : less ≤ bound)
    (abreast : Abreast holder level console chained) (tracks : Tracks holder subject line chained)
    (ran : runYielding less (.expression (.isOneOf mark byText holder values)) chained =
      .ok value after)
    (spares : SparesAll holder bound
      (fun ev => anyMatches ev byText subject values >>= fun found => next found ev) console) :
    ∃ final, anyMatches (run bound) byText subject values console = .ok value.toBool final ∧
      Abreast holder level final after ∧ Tracks holder subject line after ∧
      SparesAll holder bound (next value.toBool) final := by
  -- the tests are nested to the left, so the last value is tested outermost
  induction values using List.reverseRecOn generalizing less value console chained after next with
  | nil =>
      obtain ⟨_, _, _, beside, evaluating, rfl⟩ := runYielding_expression_ok ran
      obtain ⟨rfl, rfl⟩ := EStateM.Result.ok.inj evaluating
      exact ⟨console, rfl, abreast, tracks, spares⟩
  | append_singleton values last ih =>
      by_cases any : values = []
      · obtain rfl := any
        exact isCase_abreast le abreast tracks ran spares
      · rw [isOneOf_concat any] at ran
        simp only [anyMatches_concat, bind_assoc] at spares
        obtain ⟨least, first, beside, fewer, evaluated, rest⟩ := logicalOr_ok ran
        have deeper := nesting_of_yielding evaluated
        obtain ⟨between, looked, abreast', tracks, spares⟩ :=
          ih (fun found ev => (if found then pure true else
              anyMatches ev byText subject [last]) >>= fun found => next found ev)
            (fewer.trans le) abreast.enterExpression ⟨tracks.value, tracks.line⟩ evaluated spares
        rw [anyMatches_concat, bind_apply, looked]
        obtain ⟨holds, rfl, rfl⟩ | ⟨fails, second, later, evaluated, rfl, rfl⟩ := rest
        · simp only [holds, ↓reduceIte, pure_bind] at spares
          simp only [holds, ↓reduceIte, toBool_ofBool]
          exact ⟨between, rfl, abreast'.leaveExpression (deeper ▸ Nat.lt_succ_of_le abreast.deeper),
            ⟨tracks.value, tracks.line⟩, spares⟩
        · simp only [fails, Bool.false_eq_true, ↓reduceIte] at spares
          simp only [fails, Bool.false_eq_true, ↓reduceIte, toBool_ofBool]
          obtain ⟨final, ends, abreast', tracks, spares⟩ :=
            isCase_abreast (fewer.trans le) abreast' tracks evaluated spares
          have still := (nesting_of_yielding evaluated).trans deeper
          exact ⟨final, ends, abreast'.leaveExpression (still ▸ Nat.lt_succ_of_le abreast.deeper),
            ⟨tracks.value, tracks.line⟩, spares⟩

end Tests

section Statements

variable {mark : Mark} {byText : Bool} {level less : Nat} {console chained after : Console}
  {subject : Value} {completion : Completion}

/-- The line of the switch is noted already. -/
theorem Tracks.setLine {line : Nat} (tracks : Tracks holder subject line chained) :
    Eval.setLine line chained = .ok () chained := by
  obtain ⟨world, ⟨frames, depth, counted⟩, nesting⟩ := chained
  cases frames with
  | nil => exact nomatch tracks.line
  | cons frame frames =>
      obtain rfl : frame.line = line := Option.some.inj tracks.line
      rfl

/-- A statement that came to an end noted its line first and was run then. -/
theorem runYielding_statement_ok {stmt : Stmt}
    (ran : runYielding less (.statement stmt) chained = .ok completion after) :
    ∃ least between, less = least + 1 ∧
      Eval.setLine stmt.mark.span.first.line chained = .ok () between ∧
      runStatement least (runYielding least) stmt between = .ok completion after := by
  cases less with
  | zero => exact nomatch ran
  | succ least =>
      change statement least (runYielding least) stmt chained = _ at ran
      obtain ⟨_, between, noted, ran⟩ := bind_ok_iff.mp ran
      exact ⟨least, between, rfl, noted, ran⟩

/-- The statements of a case do the same in the switch as in the chain. -/
theorem statements_abreast (body : List Stmt) (le : less ≤ bound)
    (abreast : Abreast holder level console chained)
    (ran : statements (runYielding less) body chained = .ok completion after)
    (spares : SparesAll holder bound (fun ev => statements ev body) console) :
    ∃ final, statements (run bound) body console = .ok completion final ∧
      Abreast holder level final after := by
  induction body generalizing chained console with
  | nil =>
      obtain ⟨rfl, rfl⟩ := pure_ok_iff.mp ran
      exact ⟨console, rfl, abreast⟩
  | cons stmt rest ih =>
      obtain ⟨ended, beside, ran, goesOn⟩ := bind_ok_iff.mp ran
      obtain ⟨between, ends, abreast, _⟩ := spares.first.abreast le abreast ran
      have spares := spares.after ends
      unfold statements
      rw [bind_apply, ends]
      cases ended with
      | normal => exact ih abreast goesOn spares
      | «break» | «continue» | «return» value =>
          obtain ⟨rfl, rfl⟩ := pure_ok_iff.mp goesOn
          exact ⟨between, rfl, abreast⟩

/-- The chain runs the statements of a case in a block. -/
theorem block_abreast (body : List Stmt) (le : less ≤ bound)
    (abreast : Abreast holder level console chained)
    (tracks : Tracks holder subject mark.span.first.line chained)
    (ran : runYielding less (.statement (.block ⟨mark, body⟩)) chained = .ok completion after)
    (spares : SparesAll holder bound (fun ev => statements ev body) console) :
    ∃ final, statements (run bound) body console = .ok completion final ∧
      Abreast holder level final after := by
  obtain ⟨least, between, rfl, noted, ran⟩ := runYielding_statement_ok ran
  obtain ⟨_, rfl⟩ := EStateM.Result.ok.inj (tracks.setLine.symm.trans noted)
  exact statements_abreast body (Nat.le_of_succ_le le) abreast ran spares

/-- There is nothing to choose from if there are no conditions. -/
theorem conditions_eq_none {default : Option (List Stmt)} {cases : List SwitchCase}
    (ends : Stmt.conditions mark byText holder default cases = none) :
    cases = [] ∧ default = none := by
  cases cases with
  | nil => exact ⟨rfl, Option.map_eq_none_iff.mp ends⟩
  | cons case cases => exact nomatch ends

/-- A switch and the conditions of its chain choose the same statements. -/
theorem conditions_abreast (default : Option (List Stmt)) (cases : List SwitchCase) {stmt : Stmt}
    (chain : Stmt.conditions mark byText holder default cases = some stmt) (le : less ≤ bound)
    (abreast : Abreast holder level console chained)
    (tracks : Tracks holder subject mark.span.first.line chained)
    (ran : runYielding less (.statement stmt) chained = .ok completion after)
    (spares : SparesAll holder bound
      (fun ev => chosen ev byText subject (default.getD []) cases >>= statements ev) console) :
    ∃ final, (chosen (run bound) byText subject (default.getD []) cases >>= statements (run bound))
        console = .ok completion final ∧ Abreast holder level final after := by
  induction cases generalizing less console chained stmt with
  | nil =>
      cases default with
      | none => exact nomatch chain
      | some body =>
          obtain rfl := Option.some.inj chain
          exact block_abreast body le abreast tracks ran spares
  | cons case cases ih =>
      obtain rfl := Option.some.inj chain
      obtain ⟨least, _, rfl, noted, ran⟩ := runYielding_statement_ok ran
      obtain ⟨_, rfl⟩ := EStateM.Result.ok.inj (tracks.setLine.symm.trans noted)
      obtain ⟨found, beside, tested, ran⟩ := bind_ok_iff.mp ran
      obtain ⟨value, evaluated, rfl⟩ := truth_ok_iff.mp tested
      have fewer := Nat.le_of_succ_le le
      simp only [chosen, bind_assoc] at spares ⊢
      obtain ⟨between, looked, abreast, tracks, spares⟩ :=
        isOneOf_abreast case.values (fun found ev => (if found then pure case.body else
            chosen ev byText subject (default.getD []) cases) >>= statements ev)
          fewer abreast tracks evaluated spares
      rw [bind_apply, looked]
      cases holds : value.toBool with
      | true =>
          simp only [holds, ↓reduceIte, pure_bind] at spares ran ⊢
          exact block_abreast case.body fewer abreast tracks ran spares
      | false =>
          simp only [holds, Bool.false_eq_true, ↓reduceIte] at spares ran ⊢
          cases rest : Stmt.conditions mark byText holder default cases with
          | some stmt =>
              rw [rest] at ran
              exact ih rest fewer abreast tracks ran spares
          | none =>
              obtain ⟨rfl, rfl⟩ := conditions_eq_none rest
              rw [rest] at ran
              obtain ⟨rfl, rfl⟩ := pure_ok_iff.mp ran
              exact ⟨between, rfl, abreast⟩

end Statements

section Whole

variable {console between final : Console} {completion : Completion}

/-- Where a call is in progress, the line of a statement is noted in it. -/
theorem setLine_noted {line : Nat} (running : console.calls.frames ≠ [])
    (noted : setLine line console = .ok () between) :
    between.nesting = console.nesting ∧ (outlines between).head?.map Frame.line = some line := by
  obtain ⟨_, rfl⟩ := EStateM.Result.ok.inj noted
  obtain ⟨world, ⟨frames, depth, counted⟩, nesting⟩ := console
  cases frames with
  | nil => exact absurd rfl running
  | cons frame frames => exact ⟨rfl, rfl⟩

/-- A variable that was just assigned is tracked, in the line of the assignment. -/
theorem tracks_assigning {line : Nat} (holder : Symbol) (value : Value)
    (noted : (outlines console).head?.map Frame.line = some line) :
    Tracks holder value line (console.assigning .ofCall holder value) := by
  have running : console.calls.frames ≠ [] := by
    intro none
    unfold outlines at noted
    rw [none] at noted
    exact nomatch noted
  refine ⟨(Console.local?_assigning running holder value holder).trans (if_pos rfl), ?_⟩
  rw [(Console.sameBut_assigning console holder value).outlines]
  exact noted

theorem statements_singleton_ok {ev : Evaluator} {stmt : Stmt}
    (ran : statements ev [stmt] console = .ok completion final) :
    ev (.statement stmt) console = .ok completion final := by
  obtain ⟨ended, between, first, rest⟩ := bind_ok_iff.mp ran
  cases ended with
  | normal | «break» | «continue» | «return» value =>
      obtain ⟨rfl, rfl⟩ := pure_ok_iff.mp rest
      exact first

variable {mark : Mark} {byText : Bool} {subject : Expr} {cases : List SwitchCase}
  {default : Option (List Stmt)}

/-- A chain that came to an end noted the line, evaluated the subject, assigned it to its variable
and went on to its conditions. -/
theorem chain_ok
    (ran : runYielding (bound + 1) (.sequence (Stmt.chain mark byText holder subject cases default))
      console = .ok completion final) :
    ∃ less noted value beside, less ≤ bound ∧
      setLine mark.span.first.line console = .ok () noted ∧
      runYielding less (.expression subject) { noted with nesting := noted.nesting + 1 } =
        .ok value beside ∧
      statements (runYielding bound) (Stmt.conditions mark byText holder default cases).toList
        (leaveExpression (beside.assigning .ofCall holder value)) = .ok completion final := by
  obtain ⟨ended, _, first, rest⟩ := bind_ok_iff.mp ran
  obtain ⟨_, noted, rfl, notes, evaluation⟩ := runYielding_statement_ok first
  obtain ⟨_, _, assignment, done⟩ := bind_ok_iff.mp evaluation
  obtain ⟨rfl, rfl⟩ := pure_ok_iff.mp done
  obtain ⟨less, rfl, _, _, assigning, rfl⟩ := runYielding_expression_ok assignment
  simp only [expression, assign_set, bind_ok_iff] at assigning
  obtain ⟨value, beside, evaluated, _, _, writing, done⟩ := assigning
  obtain ⟨rfl, rfl⟩ := pure_ok_iff.mp done
  rw [write_ofVariable] at writing
  obtain ⟨_, rfl⟩ := EStateM.Result.ok.inj writing
  exact ⟨less, noted, value, beside, Nat.le_add_right _ 3, notes, evaluated, rest⟩

/-- Where the chain of a switch comes to an end in a call that is in progress, the switch comes to
the same end from the same console, unless what it runs reads or writes the variable of the chain.
The consoles are the same in the end but for the variable. -/
theorem switch_of_chain (running : console.calls.frames ≠ [])
    (ran : run (bound + 1)
      (.sequence (Stmt.chain mark byText holder subject cases default)) console =
      .ok completion final)
    (unbroken : Unbroken (bound + 1)
      (.sequence (Stmt.chain mark byText holder subject cases default)) console)
    (spares : SparesAll holder bound
      (fun ev => step bound ev (.statement (.switch mark byText subject cases default))) console) :
    ∃ after, run (bound + 1) (.statement (.switch mark byText subject cases default)) console =
        .ok completion after ∧ final.SameBut holder after := by
  obtain ⟨less, noted, value, beside, le, notes, evaluated, conditions⟩ :=
    chain_ok (unbroken.trans ran)
  obtain ⟨nesting, line⟩ := setLine_noted running notes
  have spares : SparesAll holder bound (fun ev => ev (.expression subject) >>= fun value =>
      chosen ev byText value (default.getD []) cases >>= statements ev) noted := by
    obtain ⟨_, rfl⟩ := EStateM.Result.ok.inj notes
    exact spares
  have start : Abreast holder console.nesting noted { noted with nesting := noted.nesting + 1 } :=
    ⟨nesting ▸ .refl holder noted, nesting, nesting ▸ Nat.le_succ _⟩
  obtain ⟨between, subjectRan, abreast, _⟩ := spares.first.abreast le start evaluated
  have tracks := tracks_assigning holder value
    ((congrArg (·.head?.map Frame.line) (outlines_of_yielding rfl evaluated)).trans line)
  have deeper : console.nesting < beside.nesting :=
    nesting_of_yielding evaluated ▸ nesting ▸ Nat.lt_succ_self _
  have assigned := (abreast.assigning value).leaveExpression deeper
  have switched : ∃ after,
      (chosen (run bound) byText value (default.getD []) cases >>= statements (run bound)) between =
        .ok completion after ∧ Abreast holder console.nesting after final := by
    cases rest : Stmt.conditions mark byText holder default cases with
    | some stmt =>
        rw [rest] at conditions
        exact conditions_abreast default cases rest (Nat.le_refl bound) assigned
          ⟨tracks.value, tracks.line⟩ (statements_singleton_ok conditions) (spares.after subjectRan)
    | none =>
        obtain ⟨rfl, rfl⟩ := conditions_eq_none rest
        rw [rest] at conditions
        obtain ⟨rfl, rfl⟩ := pure_ok_iff.mp conditions
        exact ⟨between, rfl, assigned⟩
  obtain ⟨after, switched, abreast⟩ := switched
  refine ⟨after, ?_, ?_⟩
  · change (setLine mark.span.first.line >>= fun _ => run bound (.expression subject) >>=
      fun value => chosen (run bound) byText value (default.getD []) cases >>=
        statements (run bound)) console = _
    rw [bind_apply, notes]
    simp only
    rw [bind_apply, subjectRan]
    exact switched
  · have same := abreast.same.symm
    rw [← nesting_of_ok ran] at same
    exact same

end Whole

section Sparing

variable {console other : Console}

/-- What keeps the calls that are in progress keeps their local variables. -/
theorem Isolated.sameBut {program : Eval α} (isolated : Isolated program console other)
    (same : console.SameBut holder other) :
    (ended (program console)).SameBut holder (ended (program other)) ∧
      (ended (program other)).local? holder = other.local? holder := by
  have local_eq (symbol : Symbol) :
      (ended (program other)).local? symbol = other.local? symbol := by
    unfold Console.local?
    rw [isolated.callsOfTwin]
  refine ⟨⟨isolated.world, ?_, ?_, ?_, fun {symbol} different => ?_⟩, local_eq holder⟩
  · exact isolated.nestingOfTwin.trans (same.nesting.trans isolated.nesting.symm)
  · unfold outlines
    rw [isolated.callsOfTwin, isolated.calls]
    exact same.outlines
  · rw [isolated.callsOfTwin, isolated.calls]
    exact same.outer
  · rw [local_eq]
    unfold Console.local?
    rw [isolated.calls]
    exact same.locals different

/-- A job that does not work inside of the innermost call spares all of its variables. -/
theorem Composed.spares {job : Job} {program : Evaluator → Eval job.Result}
    (composed : Composed (.hosted True) false program) (less : Nat)
    (ran : run bound job = program (run less)) :
    Spares holder bound job console := by
  intro other same
  have isolated := composed.isolated less same.sameButLocals
  rw [ran]
  exact ⟨isolated.outcome, isolated.sameBut same⟩

theorem spares_number (mark : Mark) (value : Int64) :
    Spares holder (bound + 2) (.expression (.literal mark (.int value))) console :=
  have composed : Composed (.hosted True) false fun _ => withNesting (literal (.int value)) :=
    .withNesting (.gentle (gentle_literal _))
  composed.spares bound rfl

/-- Programs that read the world alone of the console do not depend on the calls in progress. -/
theorem composed_readingWorld {terms : Terms} {inside : Bool} {next : Console → Evaluator → Eval α}
    (same : ∀ console other config sink log,
      other.world = { console.world with config, sink, log } → next other = next console)
    (rest : ∀ console : Console, console.world.spaces.Each terms.callable →
      Composed terms inside (next console)) :
    Composed terms inside fun ev => get >>= fun console => next console ev := by
  have reads : (fun ev => get >>= fun console => next console ev) = fun ev =>
      world >>= fun world => next ⟨world, .empty, 0⟩ ev := by
    funext ev console
    have shown := same ⟨console.world, .empty, 0⟩ console _ _ _ rfl
    exact congrFun (congrFun shown ev) console
  rw [reads]
  exact .reading (fun world config sink log => same ⟨world, .empty, 0⟩ _ config sink log rfl)
    fun world each => rest ⟨world, .empty, 0⟩ each

/-- A function that is called by its name alone works in a call of its own. -/
theorem composed_plainCall (name : Symbol) :
    Composed (.hosted True) false fun ev => call ev (.global name) [] := by
  refine .bind (.pure []) fun arguments => ?_
  refine composed_readingWorld (fun console other config sink log same => ?_) fun console _ => ?_
  · have found : callee? other (.global name) = callee? console (.global name) := by
      unfold callee?
      rw [same]
      rfl
    rw [found]
  · cases callee? console (.global name) with
    | none => exact .bind (composed_warn _) fun _ => .pure _
    | some entry => exact composed_call_job (fun _ => trivial) arguments

theorem spares_plainCall (mark : Mark) (name : Symbol) :
    Spares holder (bound + 2) (.expression (.call mark (.global name) [])) console :=
  (Composed.withNesting (composed_plainCall name)).spares bound rfl

/-- A jump notes its line alone. -/
theorem spares_break (mark : Mark) :
    Spares holder (bound + 1) (.statement (.break mark)) console :=
  fun _ same => ⟨rfl, same.setLine mark.span.first.line⟩

end Sparing

/-- A switch that was read has the cases that are written in it in their order and the default
wherever it is written, and runs as its chain does: where the chain comes to an end in a call that
is in progress, the switch comes to the same end from the same console, unless what it runs reads or
writes the variable of the chain, and the consoles are the same in the end but for the variable. The
switch has room for more expressions, so no function of the host may have gone on after the error
that there was no room. -/
theorem switch_is_chain :
    (∀ {rounds : Nat} {inner : Parse.Parser} {state final : ParseState} {stmt : Stmt},
      Parse.switchStmt rounds inner state = .ok stmt final →
        Parse.SwitchOf rounds inner state stmt) ∧
    ∀ {holder : Symbol} {bound : Nat} {console final : Console} {completion : Completion}
      {mark : Mark} {byText : Bool} {subject : Expr} {cases : List SwitchCase}
      {default : Option (List Stmt)}, console.calls.frames ≠ [] →
      run (bound + 1) (.sequence (Stmt.chain mark byText holder subject cases default)) console =
        .ok completion final →
      Unbroken (bound + 1) (.sequence (Stmt.chain mark byText holder subject cases default))
        console →
      SparesAll holder bound
        (fun ev => step bound ev (.statement (.switch mark byText subject cases default))) console →
      ∃ after, run (bound + 1) (.statement (.switch mark byText subject cases default)) console =
          .ok completion after ∧ final.SameBut holder after :=
  ⟨Parse.switchStmt_ok, switch_of_chain⟩

section Sample

private def sampleMark : Mark :=
  ⟨0, .start, .start⟩

/-- The variable of the sample chain. -/
private def held : Symbol :=
  ⟨0, false, "t"⟩

private def number (value : Int64) : Expr :=
  .literal sampleMark (.int value)

/-- A case for two and for what the host answers. -/
private def twoOrProbe : SwitchCase :=
  ⟨sampleMark.span, [number 2, .probe], [.break sampleMark]⟩

private def sampleSwitch : Stmt :=
  .switch sampleMark true (number 1) [twoOrProbe] (some [])

private def sampleChain : List Stmt :=
  Stmt.chain sampleMark true held (number 1) [twoOrProbe] (some [])

/-- The sample evaluates two numbers and calls the function of the host, before it jumps. -/
private theorem step_sample (bound : Nat) (ev : Evaluator) :
    step bound ev (.statement sampleSwitch) = (do
      setLine sampleMark.span.first.line
      let subject ← ev (.expression (number 1))
      if ← anyMatches ev true subject [number 2, .probe] then
        statements ev [.break sampleMark]
      else return .normal) := by
  change (setLine _ >>= fun _ => ev (.expression (number 1)) >>= fun subject =>
    chosen ev true subject [] [twoOrProbe] >>= statements ev) = _
  simp only [chosen, twoOrProbe, bind_assoc]
  congr 1
  funext _
  congr 1
  funext subject
  congr 1
  funext found
  cases found <;> rfl

/-- What the sample comes to leaves the variable of the chain alone. -/
private theorem spares_sample (console : Console) :
    SparesAll held 30 (fun ev => step 30 ev (.statement sampleSwitch)) console := by
  intro job start comes
  have kinds := comes.holds
    (fun job _ => (∃ value, job = .expression (number value)) ∨ job = .expression .probe ∨
      job = .statement (.break sampleMark))
    fun other same => by
      have numbers (value : Int64) :
          other (.expression (number value)) = run 30 (.expression (number value)) :=
        funext fun start => same _ start (.inl ⟨value, rfl⟩)
      have probe : other (.expression .probe) = run 30 (.expression .probe) :=
        funext fun start => same _ start (.inr (.inl rfl))
      have jump : other (.statement (.break sampleMark)) =
          run 30 (.statement (.break sampleMark)) :=
        funext fun start => same _ start (.inr (.inr rfl))
      simp only [step_sample, anyMatches, statements, numbers, probe, jump]
  obtain ⟨value, rfl⟩ | rfl | rfl := kinds
  · exact spares_number sampleMark value
  · exact spares_plainCall sampleMark _
  · exact spares_break sampleMark

deriving instance DecidableEq for Completion

private theorem probed_running (room : Nat) (otherwise : EvalError → HostProgram) :
    (Console.probed room otherwise).calls.frames ≠ [] := by
  unfold Console.probed
  exact List.cons_ne_nil _ _

/-- Where the tests of the chain have no room for the source that the host has evaluated, and the
host goes on with nought, the chain comes to the default. The switch has room, and comes to the
case. -/
theorem switch_is_chain_caught :
    (Console.probed 3 fun _ => .done (.int 0)).calls.frames ≠ [] ∧
      SparesAll held 30 (fun ev => step 30 ev (.statement sampleSwitch))
        (.probed 3 fun _ => .done (.int 0)) ∧
      (∃ final, run 31 (.sequence sampleChain) (.probed 3 fun _ => .done (.int 0)) =
        .ok .normal final) ∧
      ∃ after, run 31 (.statement sampleSwitch) (.probed 3 fun _ => .done (.int 0)) =
        .ok .break after :=
  ⟨probed_running 3 _, spares_sample _, result?_eq_some_iff.mp (by decide +kernel),
    result?_eq_some_iff.mp (by decide +kernel)⟩

/-- The source of the sample, with the default in front. -/
private def sampleState : ParseState :=
  Parse.start (some nestingLimit) (.empty 0)
    ((Token.scan (Utf8.encode
      "switch$ (1) \x7b default: case 2 or probe(): break; \x7d")).toOption.getD [])

/-- What a function of the host answers is found as the second value of a case, by the switch as by
its chain, where the default is written in front and the host passes errors on. -/
theorem switch_is_chain_second :
    (∃ stmt final, Parse.switchStmt 40 (Parse.parser 40) sampleState = .ok stmt final ∧
      Parse.SwitchOf 40 (Parse.parser 40) sampleState stmt) ∧
    ∃ final after, run 31 (.sequence sampleChain) (.probed 4 .fail) = .ok .break final ∧
      run 31 (.statement sampleSwitch) (.probed 4 .fail) = .ok .break after ∧
      final.SameBut held after := by
  obtain ⟨reading, running⟩ := @switch_is_chain
  refine ⟨?_, ?_⟩
  · have succeeds :
        (result? (Parse.switchStmt 40 (Parse.parser 40) sampleState)).isSome = true := by
      decide +kernel
    obtain ⟨stmt, came⟩ := Option.isSome_iff_exists.mp succeeds
    obtain ⟨final, read⟩ := result?_eq_some_iff.mp came
    exact ⟨stmt, final, read, reading read⟩
  · have jumps : result? (run 31 (.sequence sampleChain) (.probed 4 .fail)) = some .break := by
      decide +kernel
    obtain ⟨final, ran⟩ := result?_eq_some_iff.mp jumps
    obtain ⟨after, switched, same⟩ := running (probed_running 4 _) ran
      (unbroken_of_yielding 31 (.sequence sampleChain) trivial (Console.probed_yields 4))
      (spares_sample _)
    exact ⟨final, after, ran, switched, same⟩

end Sample

end Eval

end ScriptConsole
