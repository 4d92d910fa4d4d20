import ScriptConsole.Proofs.Parse.Builds

/-! # The nodes of expressions

Every part of an expression is built on a closed heap. What assignments and steps write are
places, since the parser refuses all others: assignments (`builds_assignment`), operators in
front of an operand (`builds_operand`) and behind it (`builds_stepAfter`).
-/

namespace ScriptConsole.Parse

/-- A part of a script is at its place. -/
def Goal.Has (heap : Heap) : (goal : Goal) → goal.Result → Prop
  | .statement => heap.HasStmt
  | .expression => heap.HasExpr
  | .operand => heap.HasExpr
  | .newObject => heap.HasObject
  | .datablock => heap.HasObject

/-- What a part contains is built with its parts at their places. -/
def Placing (inner : Parser) : Prop :=
  ∀ (heap : Heap) (goal : Goal), Builds heap (inner goal) fun result later => goal.Has later result

variable {heap : Heap} {bound : Nat} {inner : Parser}

/-- A parser builds an expression. -/
abbrev BuildsExpr (heap : Heap) (parser : Parse Expr) : Prop :=
  Builds heap parser fun expr later => later.HasExpr expr

/-- A parser builds expressions. -/
abbrev BuildsExprs (heap : Heap) (parser : Parse (List Expr)) : Prop :=
  Builds heap parser fun exprs later => ∀ expr ∈ exprs, later.HasExpr expr

/-- A parser builds an object declaration. -/
abbrev BuildsObject (heap : Heap) (parser : Parse ObjectDecl) : Prop :=
  Builds heap parser fun declaration later => later.HasObject declaration

section Expressions

theorem Placing.expression (placing : Placing inner) (heap : Heap) :
    BuildsExpr heap (inner .expression) :=
  placing heap .expression

/-- A literal has no parts. -/
theorem builds_literal (heap : Heap) (span : Span) (value : Literal) :
    BuildsExpr heap (markExpr span >>= fun mark => Pure.pure (.literal mark value)) :=
  builds_expr (fun _ => rfl) fun _ => trivial

theorem builds_truth (heap : Heap) (value : Int64) : BuildsExpr heap (truth value) :=
  .skip silent_anyWord fun found => builds_literal heap found.2 (.int value)

theorem silent_copySource : Silent copySource := by
  refine .bind (silent_accept .colon) fun found => ?_
  refine .ite (.bind silent_name fun read => ?_) (.pure none)
  exact .bind (silent_intern read.1) fun _ => .pure _

theorem silent_declaredClass (keyword : String) : Silent (declaredClass keyword) :=
  .bind (silent_word keyword) fun _ => .bind silent_name fun read =>
    .bind (silent_intern read.1) fun _ => .pure _

variable (placing : Placing inner)
include placing

theorem builds_parenthesized (heap : Heap) : BuildsExpr heap (parenthesized inner) := by
  refine .skip (silent_expect .openParen) fun _ => ?_
  refine .bind (placing.expression heap) fun expr later _ has => ?_
  exact .skip (silent_expect .closeParen) fun _ => .pure has

/-- An expression that may be missing is built if it is there. -/
theorem builds_optional (heap : Heap) (terminator : Punct) :
    Builds heap (optional inner terminator) fun read later =>
      ∀ expr ∈ read, later.HasExpr expr := by
  refine .skip (silent_nextIs terminator) fun ends => ?_
  cases ends with
  | true => exact .pure nofun
  | false =>
      refine .bind (placing.expression heap) fun expr later _ has => .pure ?_
      intro found isExpr
      obtain rfl := Option.some.inj isExpr
      exact has

theorem builds_arguments (heap : Heap) : BuildsExprs heap (arguments bound inner) :=
  builds_list Heap.HasExpr (fun within has => within.expr has)
    (fun later _ => placing.expression later) bound _ _ _ _

theorem builds_indices (heap : Heap) : BuildsExprs heap (indices bound inner) := by
  refine .skip silent_here fun start => ?_
  refine .bind (builds_list? Heap.HasExpr (fun within has => within.expr has)
    (fun later _ => placing.expression later) bound _ _ _) fun read later _ has => ?_
  match read, has with
  | none, _ => exact .pure nofun
  | some [], _ => exact builds_failAt _ _ _ _
  | some (expr :: exprs), has => exact .pure (has _ rfl)

theorem builds_qualifiedCall (heap : Heap) (space : String) (first : Span) :
    BuildsExpr heap (qualifiedCall bound inner space first) := by
  refine .skip (silent_intern space) fun spaceSymbol => ?_
  refine .skip silent_name fun read => .skip (silent_intern read.1) fun function => ?_
  refine .bind (builds_arguments placing heap) fun exprs later _ has => ?_
  exact builds_expr (fun _ => rfl) fun _ => has

/-- What begins with a name is a call, which is built after its arguments, or a constant. -/
theorem builds_namedExpr (heap : Heap) : BuildsExpr heap (namedExpr bound inner) := by
  refine .skip silent_name fun read => .skip (silent_accept .colonColon) fun qualified => ?_
  cases qualified with
  | true => exact builds_qualifiedCall placing heap read.1 read.2
  | false =>
      refine .skip (silent_nextIs .openParen) fun called => ?_
      cases called with
      | true =>
          refine .skip (silent_intern read.1) fun function => ?_
          refine .bind (builds_arguments placing heap) fun exprs later _ has => ?_
          exact builds_expr (fun _ => rfl) fun _ => has
      | false => exact .skip (silent_constant read.1) fun value => builds_literal heap read.2 _

theorem builds_detagExpr (heap : Heap) : BuildsExpr heap (detagExpr inner) := by
  refine .skip (silent_word "detag") fun span => ?_
  refine .bind (builds_parenthesized placing heap) fun operand later _ has => ?_
  exact builds_expr (fun _ => rfl) fun _ => has

theorem builds_fieldInit (heap : Heap) :
    Builds heap (fieldInit bound inner) fun field later => later.HasField field := by
  refine .skip silent_anyWord fun read => .skip (silent_intern read.1) fun field => ?_
  refine .bind (builds_indices placing heap) fun exprs later _ hasIndices => ?_
  refine .skip (silent_expect .equals) fun _ => ?_
  refine .bind (placing.expression later) fun value last beyond hasValue => ?_
  exact .skip (silent_expect .semicolon) fun _ => .pure ⟨beyond.exprs hasIndices, hasValue⟩

/-- The fields and objects in the body of a declaration are at their places. -/
structure HasMembers (heap : Heap) (members : List FieldInit × List ObjectDecl) : Prop where
  fields : ∀ field ∈ members.1, heap.HasField field
  children : ∀ child ∈ members.2, heap.HasObject child

omit placing in
theorem HasMembers.lift {later : Heap} {members : List FieldInit × List ObjectDecl}
    (has : HasMembers heap members) (within : heap.Within later) : HasMembers later members where
  fields field member := within.field (has.fields field member)
  children child member := within.expr (has.children child member)

/-- A round of the body of a declaration builds at most one more field or object. -/
theorem builds_memberRound {state : List FieldInit × List ObjectDecl}
    (has : HasMembers heap state) :
    Builds heap (memberRound bound inner state)
      (RoundIs (fun state later => HasMembers later state)
        fun members later => HasMembers later members) := by
  obtain ⟨fields, children⟩ := state
  have nested (goal : Goal) (same : goal.Result = ObjectDecl)
      (builds : Builds heap (inner goal) fun child later => later.HasObject (cast same child)) :
      Builds heap
        (do
          let child ← inner goal
          let _ ← expect .semicolon
          return .again (fields, cast same child :: children))
        (RoundIs (fun state later => HasMembers later state)
          fun members later => HasMembers later members) := by
    refine .bind builds fun child later within hasChild => ?_
    refine .skip (silent_expect .semicolon) fun _ => .pure ?_
    have lifted := has.lift within
    exact ⟨lifted.fields, List.forall_mem_cons.mpr ⟨hasChild, lifted.children⟩⟩
  refine .skip silent_nextKind? fun kind => ?_
  split
  · refine .pure ⟨?_, ?_⟩
    · exact fun field member => has.fields field (List.mem_reverse.mp member)
    · exact fun child member => has.children child (List.mem_reverse.mp member)
  · exact .skip silent_pass fun _ => .pure has
  · refine .skip (silent_nextIsWord "new") fun isNew => ?_
    cases isNew with
    | true => exact nested .newObject rfl (placing heap .newObject)
    | false =>
        refine .skip (silent_nextIsWord "datablock") fun isDatablock => ?_
        cases isDatablock with
        | true => exact nested .datablock rfl (placing heap .datablock)
        | false =>
            refine .bind (builds_fieldInit placing heap) fun field later within hasField => .pure ?_
            have lifted := has.lift within
            exact ⟨List.forall_mem_cons.mpr ⟨hasField, lifted.fields⟩, lifted.children⟩
  · exact builds_failHere _ _ _

theorem builds_objectBody (heap : Heap) :
    Builds heap (objectBody bound inner) fun members later => HasMembers later members := by
  refine .skip (silent_expect .openCurly) fun _ => ?_
  have loop : Builds heap (repeatRounds bound (memberRound bound inner) ([], []))
      fun members later => HasMembers later members :=
    builds_repeatRounds (fun _ _ _ has => builds_memberRound placing has) bound ⟨nofun, nofun⟩
  exact .bind loop fun members later _ has =>
    .skip (silent_expect .closeCurly) fun _ => .pure has

omit placing in
/-- The last steps of a declaration number it. -/
theorem builds_object {span : Span} {isDatablock : Bool} {className : Symbol} {name : Option Expr}
    {copied : Option Symbol} {members : List FieldInit × List ObjectDecl}
    (hasName : ∀ expr ∈ name, heap.HasExpr expr) (has : HasMembers heap members) :
    BuildsObject heap (markExpr span >>= fun mark => Pure.pure
      ⟨mark, isDatablock, className, name, copied, members.1, members.2⟩) :=
  .bind (builds_markExpr span
    (fun mark => .object ⟨mark, isDatablock, className, name, copied, members.1, members.2⟩)
    (fun _ => rfl) fun _ => ⟨hasName, has.fields, has.children⟩) fun _ _ _ has => .pure has

/-- An object is numbered after its name, its fields and the objects inside it. -/
theorem builds_newObject (heap : Heap) : BuildsObject heap (newObject bound inner) := by
  refine .skip (silent_declaredClass "new") fun declared => ?_
  refine .skip (silent_expect .openParen) fun _ => .skip silent_nextKind? fun kind => ?_
  have finish (name : Option Expr) (later : Heap) (hasName : ∀ expr ∈ name, later.HasExpr expr) :
      BuildsObject later
        (do
          let copied ← copySource
          let _ ← expect .closeParen
          let members ←
            if ← nextIs .openCurly then objectBody bound inner else Pure.pure ([], [])
          return ⟨← markExpr declared.2, false, declared.1, name, copied, members.1,
            members.2⟩) := by
    refine .skip silent_copySource fun copied => .skip (silent_expect .closeParen) fun _ => ?_
    refine .skip (silent_nextIs .openCurly) fun hasBody => ?_
    cases hasBody with
    | true =>
        refine .bind (builds_objectBody placing later) fun members last within has => ?_
        exact builds_object (within.expr? hasName) has
    | false =>
        have noMembers : HasMembers later ([], []) := ⟨nofun, nofun⟩
        exact builds_object hasName noMembers
  split
  · exact finish none heap nofun
  · exact finish none heap nofun
  · have named : Builds heap (some <$> inner .expression) fun read later =>
        ∀ expr ∈ read, later.HasExpr expr := by
      refine .map ((placing.expression heap).mono ?_)
      intro expr later _ has found isExpr
      obtain rfl := Option.some.inj isExpr
      exact has
    exact .bind named fun name later _ hasName => finish name later hasName

/-- A datablock is numbered after its name and what is in its body. -/
theorem builds_datablock (heap : Heap) : BuildsObject heap (datablock bound inner) := by
  refine .skip (silent_declaredClass "datablock") fun declared => ?_
  refine .skip (silent_expect .openParen) fun _ => .skip silent_name fun read => ?_
  refine .skip (silent_constant read.1) fun value => ?_
  refine .bind (builds_markExpr read.2 (.literal · (.text value)) (fun _ => rfl) fun _ => trivial)
    fun nameMark later _ hasName => ?_
  refine .skip silent_copySource fun copied => .skip (silent_expect .closeParen) fun _ => ?_
  refine .bind (builds_objectBody placing later) fun members last within has => ?_
  refine builds_object (within.expr? ?_) has
  intro expr isName
  obtain rfl := Option.some.inj isName
  exact hasName

/-- What begins with an identifier is built as its word tells. -/
theorem builds_wordExpr (heap : Heap) : BuildsExpr heap (wordExpr bound inner) := by
  refine .skip silent_nextWord? fun word => ?_
  split
  · exact builds_truth heap 1
  · exact builds_truth heap 0
  · exact .map (builds_newObject placing heap)
  · refine .skip silent_secondKind? fun kind => ?_
    split
    · exact builds_detagExpr placing heap
    · exact builds_namedExpr placing heap
  · exact builds_namedExpr placing heap

/-- An operand is built after its parts, if it has any. -/
theorem builds_primary (heap : Heap) : BuildsExpr heap (primary bound inner) := by
  have text : BuildsExpr heap (do
      let read ← string
      return .literal (← markExpr read.2) read.1) :=
    .skip silent_string fun read => builds_literal heap read.2 read.1
  have place : BuildsExpr heap (do
      let read ← variableName
      let symbol ← intern read.1
      let exprs ← indices bound inner
      return .variable (← markExpr read.2.2) read.2.1 symbol exprs) := by
    refine .skip silent_variableName fun read => .skip (silent_intern read.1) fun symbol => ?_
    refine .bind (builds_indices placing heap) fun exprs later _ has => ?_
    exact builds_expr (fun _ => rfl) fun _ => has
  refine .skip silent_nextKind? fun kind => ?_
  split
  · exact builds_parenthesized placing heap
  · exact .skip silent_number fun read => builds_literal heap read.2 read.1
  · exact text
  · exact text
  · exact place
  · exact place
  · exact builds_wordExpr placing heap
  · exact builds_failHere _ _ _

omit placing in
/-- A step of what is no place is refused. -/
theorem builds_stepAfter (op : UnaryOp) {operand : Expr} (has : heap.HasExpr operand)
    (span : Span) : BuildsExpr heap (stepAfter op operand span) := by
  refine .skip silent_pass fun _ => ?_
  split
  next isPlace => exact builds_expr (fun _ => rfl) fun _ => ⟨has, fun _ => isPlace⟩
  next => exact builds_failAt _ _ _ _

/-- A field or a call behind an object is built after the object and its indices or arguments. -/
theorem builds_memberAfter {object : Expr} (has : heap.HasExpr object) :
    BuildsExpr heap (memberAfter bound inner object) := by
  refine .skip silent_pass fun _ => .skip silent_anyWord fun read => ?_
  refine .skip (silent_intern read.1) fun symbol =>
    .skip (silent_nextIs .openParen) fun called => ?_
  cases called with
  | true =>
      refine .bind (builds_arguments placing heap) fun exprs later within hasAll => ?_
      exact builds_expr (fun _ => rfl) fun _ => ⟨within.expr has, hasAll⟩
  | false =>
      refine .bind (builds_indices placing heap) fun exprs later within hasAll => ?_
      exact builds_expr (fun _ => rfl) fun _ => ⟨within.expr has, hasAll⟩

/-- A loop that grows an expression behind a part of it that was read. -/
abbrev Growing : Round Expr Expr → Heap → Prop :=
  RoundIs (fun expr later => later.HasExpr expr) fun expr later => later.HasExpr expr

omit placing in
theorem builds_growing {parser : Parse Expr} (builds : BuildsExpr heap parser) :
    Builds heap (do return .again (← parser)) Growing :=
  .bind builds fun _ _ _ has => .pure has

/-- What follows an operand is built after it, so the operand is at its place by then. -/
theorem builds_suffixRound {operand : Expr} (has : heap.HasExpr operand) :
    Builds heap (suffixRound bound inner operand) Growing := by
  refine .skip silent_next? fun token => ?_
  cases token with
  | none => exact .pure has
  | some token =>
      simp only
      split
      · exact builds_growing (builds_stepAfter .postIncrement has token.span)
      · exact builds_growing (builds_stepAfter .postDecrement has token.span)
      · exact builds_growing (builds_memberAfter placing has)
      · exact .pure has

theorem builds_suffixed (heap : Heap) : BuildsExpr heap (suffixed bound inner) := by
  refine .bind (builds_primary placing heap) fun expr later _ has => ?_
  exact builds_repeatRounds (fun _ _ _ has => builds_suffixRound placing has) bound has

/-- An operator in front of what is no place is refused if it writes. -/
theorem builds_operand (heap : Heap) : BuildsExpr heap (operand bound inner) := by
  refine .skip (silent_nextOperator? prefixOf?) fun found => ?_
  cases found with
  | none => exact builds_suffixed placing heap
  | some found =>
      obtain ⟨op, span⟩ := found
      refine .skip silent_pass fun _ => ?_
      refine .bind (builds_nested (placing heap .operand)) fun expr later _ has => ?_
      simp only
      split
      next => exact builds_failAt_bind _ _ _ _ _
      next writable =>
          refine builds_expr (fun _ => rfl) fun _ => ⟨has, fun writes => ?_⟩
          simpa only [writes, Bool.true_and, Bool.not_eq_true', Bool.not_eq_false] using writable

omit placing in
/-- What an operator joins is built after both of its operands. -/
theorem builds_levelRound {tighter : Parse Expr} (operands : ∀ later, BuildsExpr later tighter)
    (level : List (OperatorToken × BinaryOp)) {left : Expr} (has : heap.HasExpr left) :
    Builds heap (levelRound tighter level left) Growing := by
  refine .skip silent_next? fun token => ?_
  cases token with
  | none => exact .pure has
  | some token =>
      simp only
      split
      · refine .skip silent_pass fun _ => ?_
        refine .bind (operands heap) fun right later within hasRight => ?_
        have node (op : BinaryOp) : BuildsExpr later
            (markExpr token.span >>= fun mark => Pure.pure (.binary mark op left right)) :=
          builds_expr (fun _ => rfl) fun _ => ⟨within.expr has, hasRight⟩
        exact builds_growing (node _)
      · exact .pure has

theorem builds_binary (levels : List (List (OperatorToken × BinaryOp))) (heap : Heap) :
    BuildsExpr heap (binary bound inner levels) := by
  induction levels generalizing heap with
  | nil => exact builds_operand placing heap
  | cons level tighter ih =>
      refine .bind (ih heap) fun first later _ has => ?_
      exact builds_repeatRounds (fun _ _ _ has => builds_levelRound ih level has) bound has

/-- A choice is built after its test and both of its branches. Without a question mark there is the
test alone. -/
theorem builds_conditional (heap : Heap) : BuildsExpr heap (conditional bound inner) := by
  refine .bind (builds_binary placing binaryLevels heap) fun test later _ hasTest => ?_
  refine .skip silent_next? fun token => ?_
  cases token with
  | none => exact .pure hasTest
  | some token =>
      simp only
      split
      · refine .skip silent_pass fun _ => ?_
        refine .bind (placing.expression later) fun yes middle within hasYes => ?_
        refine .skip (silent_expect .colon) fun _ => ?_
        refine .bind (placing.expression middle) fun no last beyond hasNo => ?_
        exact builds_expr (fun _ => rfl) fun _ =>
          ⟨beyond.expr (within.expr hasTest), beyond.expr hasYes, hasNo⟩
      · exact .pure hasTest

/-- An assignment to what is no place is refused. -/
theorem builds_assignment (heap : Heap) : BuildsExpr heap (assignment bound inner) := by
  refine .bind (builds_conditional placing heap) fun target later _ hasTarget => ?_
  refine .skip (silent_nextOperator? assignOf?) fun found => ?_
  cases found with
  | none => exact .pure hasTarget
  | some found =>
      obtain ⟨op, span⟩ := found
      simp only
      split
      next => exact builds_failAt_bind _ _ _ _ _
      next isPlace =>
          refine .skip silent_pass fun _ => ?_
          refine .bind (placing.expression later) fun value last within hasValue => ?_
          refine builds_expr (fun _ => rfl) fun _ => ⟨within.expr hasTarget, hasValue, ?_⟩
          simpa only [Bool.not_eq_true', Bool.not_eq_false] using isPlace

end Expressions

end ScriptConsole.Parse
