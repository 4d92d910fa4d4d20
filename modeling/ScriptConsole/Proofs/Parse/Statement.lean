import ScriptConsole.Parse.Script
import ScriptConsole.Proofs.Parse.Expression

/-! # Statements do not depend on layout

Statements are read alike wherever the same tokens are left, and under any bounds that
exceed twice their number (`ScriptConsole.Parse.agree_parts`). So reading a script never
runs out of steps (`ScriptConsole.Parse.agree_root`).
-/

namespace ScriptConsole.Parse

section Statements

-- As for expressions, the equations are made here and not by several proofs at once.
attribute [local simp] Stmt.remark Block.remark FunctionDef.remark SwitchCase.remark

variable {size bound limit : Nat} {inner other : Parser}

theorem Ready.statement (ready : Ready size bound limit inner other) :
    Items Stmt.bare size (inner .statement) (other .statement) :=
  ready.parts .statement

omit size in
/-- What a statement is read with: a statement that is an expression starts where the
statement does. -/
structure Starting (size bound limit : Nat) (inner other : Parser) : Prop
    extends Ready size bound limit inner other where
  here : Agree size (inner .expression) (other .expression) (Passed Expr.bare size)

/-- Statements that are read one after the other, the last one first. -/
abbrev Rows (size fewer : Nat) : Round (List Stmt) (List Stmt) → Round (List Stmt) (List Stmt) →
    Nat → Prop :=
  Turn (fun stmts twins => stmts.map Stmt.bare = twins.map Stmt.bare)
    (Passed (List.map Stmt.bare) size) fewer

theorem agree_stmtRound {item twins : Parse Stmt} {fewer : Nat}
    (agree : Agree fewer item twins (Passed Stmt.bare fewer)) {stmts others : List Stmt}
    (same : stmts.map Stmt.bare = others.map Stmt.bare) :
    Agree fewer (do return .again ((← item) :: stmts)) (do return .again ((← twins) :: others))
      (Rows size fewer) := by
  refine .bind agree ?_
  rintro stmt twin rest ⟨alike, passed⟩
  refine .pure ⟨?_, passed⟩
  simp only [List.map_cons, alike, same]

variable (ready : Ready size bound limit inner other)
include ready

/-- A round of a block reads one more statement on both sides, or ends both blocks. -/
theorem agree_blockRound {fewer : Nat} (within : fewer < size) {stmts twins : List Stmt}
    (same : stmts.map Stmt.bare = twins.map Stmt.bare) :
    Agree fewer (blockRound inner stmts) (blockRound other twins) (Rows size fewer) := by
  have done : Agree fewer (Pure.pure (.done stmts.reverse)) (Pure.pure (.done twins.reverse))
      (Rows size fewer) := by
    refine .pure ⟨?_, within⟩
    rw [List.map_reverse, List.map_reverse, same]
  refine .bind agree_nextKind? ?_
  rintro kind _ _ ⟨rfl, rfl, _⟩
  split
  · exact done
  · exact done
  · exact agree_stmtRound (ready.statement _ within) same

/-- A block is read alike in its braces. -/
theorem agree_block :
    Agree size (block bound inner) (block limit other) (Passed (Block.remark Mark.bare) size) := by
  refine .bind (agree_expect .openCurly) fun first place fewer opened => ?_
  have loop := agree_repeatRounds (fun stmts twins rest within same =>
    agree_blockRound ready (Nat.lt_of_le_of_lt within opened) same)
    (Nat.lt_of_lt_of_le opened ready.enough) (Nat.lt_of_lt_of_le opened ready.plenty)
    (show List.map Stmt.bare [] = List.map Stmt.bare [] from rfl)
  refine .bind loop ?_
  rintro stmts others rest ⟨same, _⟩
  refine .bind (agree_expect .closeCurly) fun last lastThere final closed => ?_
  refine .bind (agree_markStmt _ _) ?_
  rintro mark twin _ ⟨marks, rfl⟩
  refine .pure ⟨?_, by omega⟩
  simp only [Block.remark, Stmt.remarkAll_eq_map, marks, same]

omit ready in
theorem agree_parameter : Agree size parameter parameter (Passed Prod.fst size) := by
  refine .bind agree_variableName ?_
  rintro ⟨text, scope, span⟩ ⟨_, _, place⟩ fewer ⟨same, named⟩
  obtain ⟨rfl, rfl⟩ := Prod.mk.inj same
  cases scope with
  | ofCall => exact .pure ⟨rfl, named⟩
  | ofConsole => exact agree_failAt (by simp) _ _ _

omit ready in
/-- Whether a parameter is named twice depends on the names alone, not on where they stand. -/
theorem isSome_duplicate? (earlier : List String) {names others : List (String × Span)}
    (same : names.map Prod.fst = others.map Prod.fst) :
    (duplicate? earlier names).isSome = (duplicate? earlier others).isSome := by
  induction names generalizing earlier others with
  | nil =>
      obtain rfl := List.map_eq_nil_iff.mp same.symm
      rfl
  | cons first rest ih =>
      cases others with
      | nil => exact nomatch same
      | cons second last =>
          obtain ⟨text, span⟩ := first
          obtain ⟨_, place⟩ := second
          obtain ⟨rfl, later⟩ := List.cons.inj same
          unfold duplicate?
          split
          · rfl
          · exact ih _ later

omit ready in
theorem agree_internAll (names : List String) : Agree size (internAll names) (internAll names)
    fun symbols others fewer => symbols = others ∧ fewer = size := by
  induction names with
  | nil => exact .pure ⟨rfl, rfl⟩
  | cons text rest ih =>
      refine .bind (agree_intern text) ?_
      rintro symbol _ _ ⟨rfl, rfl⟩
      refine .bind ih ?_
      rintro symbols _ _ ⟨rfl, rfl⟩
      exact .pure ⟨rfl, rfl⟩

omit ready in
/-- The name of a function is read alike, with a namespace in front of it or without one. -/
theorem agree_functionName : Agree size functionName functionName
    (Passed (fun read => (read.1, read.2.1)) size) := by
  refine .bind agree_name ?_
  rintro ⟨first, span⟩ ⟨_, place⟩ fewer ⟨rfl, named⟩
  refine .bind (agree_accept .colonColon) ?_
  rintro qualified _ rest ⟨rfl, within, _⟩
  cases qualified with
  | true =>
      refine .bind agree_name ?_
      rintro ⟨second, last⟩ ⟨_, there⟩ least ⟨rfl, passed⟩
      refine .bind (agree_intern first) ?_
      rintro space _ _ ⟨rfl, rfl⟩
      refine .bind (agree_intern second) ?_
      rintro function _ _ ⟨rfl, rfl⟩
      exact .pure ⟨rfl, by omega⟩
  | false =>
      refine .bind (agree_intern first) ?_
      rintro function _ _ ⟨rfl, rfl⟩
      exact .pure ⟨rfl, by omega⟩

/-- A definition is read alike. Its parameters are compared by name, so both sides refuse one that
is named twice. -/
theorem agree_functionDef :
    Agree size (functionDef bound inner) (functionDef limit other)
      (Passed (FunctionDef.remark Mark.bare) size) := by
  refine .bind (agree_word "function") fun first place fewer passed => ?_
  refine .bind agree_functionName ?_
  rintro ⟨space, function, last⟩ ⟨_, _, there⟩ rest ⟨same, named⟩
  obtain ⟨rfl, rfl⟩ := Prod.mk.inj same
  have behind := ready.fewer (show rest ≤ size by omega)
  have items : Items Prod.fst rest parameter parameter := fun _ _ => agree_parameter
  refine .bind (agree_list items behind.enough behind.plenty _ _ _ _) ?_
  rintro parameters twins least ⟨names, closed⟩
  have finish : Agree least
      (do
        let symbols ← internAll (parameters.map Prod.fst)
        let body ← block bound inner
        return ⟨← markDefinition ⟨first.first, last.last⟩, space, function, symbols, body⟩)
      (do
        let symbols ← internAll (twins.map Prod.fst)
        let body ← block limit other
        return ⟨← markDefinition ⟨place.first, there.last⟩, space, function, symbols, body⟩)
      (Passed (FunctionDef.remark Mark.bare) size) := by
    rw [names]
    refine .bind (agree_internAll _) ?_
    rintro symbols _ _ ⟨rfl, rfl⟩
    refine .bind (agree_block (ready.fewer (by omega))) ?_
    rintro body bodyThere final ⟨sameBody, read⟩
    refine .bind (agree_markDefinition _ _) ?_
    rintro mark twin _ ⟨marks, rfl⟩
    refine .pure ⟨?_, by omega⟩
    simp only [FunctionDef.remark, marks, sameBody]
  have twice := isSome_duplicate? [] names
  simp only
  cases found : duplicate? [] parameters with
  | none =>
      cases there : duplicate? [] twins with
      | none => exact finish
      | some _ =>
          rw [found, there] at twice
          contradiction
  | some _ =>
      cases there : duplicate? [] twins with
      | none =>
          rw [found, there] at twice
          contradiction
      | some _ => exact agree_failAt_bind (by simp) _ _ _ _ _

theorem agree_functionStmt :
    Agree size (functionStmt bound inner) (functionStmt limit other) (Passed Stmt.bare size) := by
  refine .bind (agree_functionDef ready) ?_
  rintro definition twin fewer ⟨same, passed⟩
  refine .bind (agree_markStmt _ _) ?_
  rintro mark sibling _ ⟨marks, rfl⟩
  refine .pure ⟨?_, passed⟩
  simp only [Stmt.remark, marks, same]

/-- A round of a package passes a semicolon, reads a definition or ends the package. -/
theorem agree_packageRound {fewer : Nat} (within : fewer < size)
    {definitions twins : List FunctionDef}
    (same : definitions.map (FunctionDef.remark Mark.bare) =
      twins.map (FunctionDef.remark Mark.bare)) :
    Agree fewer (packageRound bound inner definitions) (packageRound limit other twins)
      (Turn (fun definitions twins => definitions.map (FunctionDef.remark Mark.bare) =
        twins.map (FunctionDef.remark Mark.bare))
        (Passed (List.map (FunctionDef.remark Mark.bare)) size) fewer) := by
  refine .bind agree_nextKind? ?_
  rintro kind _ _ ⟨rfl, rfl, positive⟩
  split
  · refine .pure ⟨?_, within⟩
    rw [List.map_reverse, List.map_reverse, same]
  · have more := positive rfl
    refine .bind agree_pass ?_
    rintro _ _ _ rfl
    exact .pure ⟨same, by omega⟩
  · refine .bind (agree_nextIsWord "function") ?_
    rintro isFunction _ _ ⟨rfl, rfl, _⟩
    cases isFunction with
    | false => exact agree_failHere (by simp) _
    | true =>
        refine .bind (agree_functionDef (ready.fewer (Nat.le_of_lt within))) ?_
        rintro definition twin rest ⟨alike, passed⟩
        refine .pure ⟨?_, passed⟩
        simp only [List.map_cons, alike, same]

/-- A package is read alike up to the semicolon behind its brace. -/
theorem agree_packageStmt :
    Agree size (packageStmt bound inner) (packageStmt limit other) (Passed Stmt.bare size) := by
  refine .bind (agree_word "package") fun first place fewer passed => ?_
  refine .bind agree_name ?_
  rintro ⟨text, last⟩ ⟨_, there⟩ rest ⟨rfl, named⟩
  refine .bind (agree_intern text) ?_
  rintro package _ _ ⟨rfl, rfl⟩
  refine .bind (agree_expect .openCurly) fun _ _ behind opened => ?_
  have inside : behind < size := by omega
  have loop := agree_repeatRounds (fun definitions twins rest within same =>
    agree_packageRound ready (Nat.lt_of_le_of_lt within inside) same)
    (Nat.lt_of_lt_of_le inside ready.enough) (Nat.lt_of_lt_of_le inside ready.plenty)
    (show List.map (FunctionDef.remark Mark.bare) [] =
      List.map (FunctionDef.remark Mark.bare) [] from rfl)
  refine .bind loop ?_
  rintro definitions twins least ⟨same, _⟩
  refine .bind (agree_expect .closeCurly) fun _ _ closed less => ?_
  refine .bind (agree_expect .semicolon) fun _ _ final ended => ?_
  refine .bind (agree_markStmt _ _) ?_
  rintro mark twin _ ⟨marks, rfl⟩
  refine .pure ⟨?_, by omega⟩
  simp only [Stmt.remark, FunctionDef.remarkAll_eq_map, marks, same]

omit ready in
theorem agree_finishExpression {expr twin : Expr} (same : expr.bare = twin.bare) :
    Agree size (finishExpression expr) (finishExpression twin) (Passed Stmt.bare size) := by
  refine .bind (agree_expect .semicolon) fun _ _ fewer passed => ?_
  refine .bind (agree_markStmt _ _) ?_
  rintro mark sibling _ ⟨marks, rfl⟩
  refine .pure ⟨?_, passed⟩
  simp only [Stmt.remark, marks, same]

/-- A condition is read alike, with an `else` on both sides or on neither. -/
theorem agree_ifStmt :
    Agree size (ifStmt inner) (ifStmt other) (Passed Stmt.bare size) := by
  refine .bind (agree_word "if") fun span place fewer passed => ?_
  refine .bind (agree_parenthesized (ready.fewer (Nat.le_of_lt passed))) ?_
  rintro test testThere rest ⟨sameTest, tested⟩
  refine .bind (ready.statement _ (by omega)) ?_
  rintro yes yesThere least ⟨sameYes, less⟩
  refine .bind (agree_nextIsWord "else") ?_
  rintro hasElse _ final ⟨rfl, rfl, positive⟩
  have finish (no noThere : Option Stmt) (last : Nat) (within : last < size)
      (sameNo : no.map Stmt.bare = noThere.map Stmt.bare) :
      Agree last (do return .branch (← markStmt span) test yes no)
        (do return .branch (← markStmt place) testThere yesThere noThere)
        (Passed Stmt.bare size) := by
    refine .bind (agree_markStmt span place) ?_
    rintro mark twin _ ⟨marks, rfl⟩
    refine .pure ⟨?_, within⟩
    simp only [Stmt.remark, Stmt.remark?_eq_map, marks, sameTest, sameNo,
      show yes.bare = yesThere.bare from sameYes]
  cases hasElse with
  | false => exact finish none none final (by omega) rfl
  | true =>
      have more := positive rfl
      refine .bind agree_pass ?_
      rintro _ _ _ rfl
      refine .bind (agree_some (ready.statement _ (by omega))) ?_
      rintro no noThere last ⟨sameNo, read⟩
      exact finish no noThere last (by omega) sameNo

/-- A loop that tests before each round is read alike: a test in parentheses and a body. -/
theorem agree_whileStmt :
    Agree size (whileStmt inner) (whileStmt other) (Passed Stmt.bare size) := by
  refine .bind (agree_word "while") fun span place fewer passed => ?_
  refine .bind (agree_parenthesized (ready.fewer (Nat.le_of_lt passed))) ?_
  rintro test testThere rest ⟨sameTest, tested⟩
  refine .bind (ready.statement _ (by omega)) ?_
  rintro body bodyThere least ⟨sameBody, less⟩
  refine .bind (agree_markStmt span place) ?_
  rintro mark twin _ ⟨marks, rfl⟩
  refine .pure ⟨?_, by omega⟩
  simp only [Stmt.remark, marks, sameTest, show body.bare = bodyThere.bare from sameBody]

/-- A loop that tests after each round is read alike, with its test behind the body. -/
theorem agree_doStmt :
    Agree size (doStmt inner) (doStmt other) (Passed Stmt.bare size) := by
  refine .bind (agree_word "do") fun span place fewer passed => ?_
  refine .bind (ready.statement _ passed) ?_
  rintro body bodyThere rest ⟨sameBody, less⟩
  refine .bind (agree_word "while") fun _ _ behind again => ?_
  refine .bind (agree_parenthesized (ready.fewer (by omega))) ?_
  rintro test testThere least ⟨sameTest, tested⟩
  refine .bind (agree_expect .semicolon) fun _ _ final ended => ?_
  refine .bind (agree_markStmt span place) ?_
  rintro mark twin _ ⟨marks, rfl⟩
  refine .pure ⟨?_, by omega⟩
  simp only [Stmt.remark, marks, sameTest, show body.bare = bodyThere.bare from sameBody]

/-- An expression that may be missing is there on both sides or on neither. -/
theorem agree_optional {fewer : Nat} (within : fewer < size) (terminator : Punct) :
    Agree fewer (optional inner terminator) (optional other terminator) fun expr twin rest =>
      expr.map Expr.bare = twin.map Expr.bare ∧ rest ≤ fewer := by
  refine .bind (agree_nextIs terminator) ?_
  rintro missing _ _ ⟨rfl, rfl, _⟩
  cases missing with
  | true => exact .pure ⟨rfl, Nat.le_refl _⟩
  | false =>
      refine .bind (ready.expression _ within) ?_
      rintro expr twin rest ⟨same, less⟩
      exact .pure ⟨congrArg some same, Nat.le_of_lt less⟩

/-- A counting loop is read alike, whichever of its three expressions are missing. -/
theorem agree_forStmt :
    Agree size (forStmt inner) (forStmt other) (Passed Stmt.bare size) := by
  refine .bind (agree_word "for") fun span place fewer passed => ?_
  refine .bind (agree_expect .openParen) fun _ _ opened paren => ?_
  refine .bind (agree_optional ready (by omega) .semicolon) ?_
  rintro initial initialThere first ⟨sameInitial, _⟩
  refine .bind (agree_expect .semicolon) fun _ _ second _ => ?_
  refine .bind (agree_optional ready (by omega) .semicolon) ?_
  rintro test testThere third ⟨sameTest, _⟩
  refine .bind (agree_expect .semicolon) fun _ _ fourth _ => ?_
  refine .bind (agree_optional ready (by omega) .closeParen) ?_
  rintro step stepThere fifth ⟨sameStep, _⟩
  refine .bind (agree_expect .closeParen) fun _ _ sixth _ => ?_
  refine .bind (ready.statement _ (by omega)) ?_
  rintro body bodyThere last ⟨sameBody, _⟩
  refine .bind (agree_markStmt span place) ?_
  rintro mark twin _ ⟨marks, rfl⟩
  refine .pure ⟨?_, by omega⟩
  simp only [Stmt.remark, Expr.remark?_eq_map, marks, sameInitial, sameTest, sameStep,
    show body.bare = bodyThere.bare from sameBody]

omit ready in
theorem agree_plainStmt (keyword : String) {build : Mark → Stmt}
    (plain : ∀ mark, (build mark).bare = build mark.bare) :
    Agree size (plainStmt keyword build) (plainStmt keyword build) (Passed Stmt.bare size) := by
  refine .bind (agree_word keyword) fun span place fewer passed => ?_
  refine .bind (agree_expect .semicolon) fun _ _ rest ended => ?_
  refine .bind (agree_markStmt span place) ?_
  rintro mark twin _ ⟨marks, rfl⟩
  refine .pure ⟨?_, by omega⟩
  rw [plain, plain, marks]

theorem agree_returnStmt :
    Agree size (returnStmt inner) (returnStmt other) (Passed Stmt.bare size) := by
  refine .bind (agree_word "return") fun span place fewer passed => ?_
  refine .bind (agree_optional ready passed .semicolon) ?_
  rintro value valueThere rest ⟨same, _⟩
  refine .bind (agree_expect .semicolon) fun _ _ last _ => ?_
  refine .bind (agree_markStmt span place) ?_
  rintro mark twin _ ⟨marks, rfl⟩
  refine .pure ⟨?_, by omega⟩
  simp only [Stmt.remark, Expr.remark?_eq_map, marks, same]

/-- A round of the values of a case reads one more behind an `or`, or ends them. -/
theorem agree_valueRound {fewer : Nat} (within : fewer < size) {values twins : List Expr}
    (same : values.map Expr.bare = twins.map Expr.bare) :
    Agree fewer (valueRound inner values) (valueRound other twins)
      (Turn (fun values twins => values.map Expr.bare = twins.map Expr.bare)
        (Passed (List.map Expr.bare) size) fewer) := by
  refine .bind (agree_nextIsWord "or") ?_
  rintro more _ _ ⟨rfl, rfl, positive⟩
  cases more with
  | false =>
      refine .pure ⟨?_, within⟩
      rw [List.map_reverse, List.map_reverse, same]
  | true =>
      have some := positive rfl
      refine .bind agree_pass ?_
      rintro _ _ _ rfl
      refine .bind (ready.expression _ (by omega)) ?_
      rintro value twin rest ⟨alike, less⟩
      refine .pure ⟨?_, by omega⟩
      simp only [List.map_cons, alike, same]

omit ready in
/-- Whether the statements of a case end is seen from the next token, which is not passed. -/
theorem agree_caseEnds : Agree size caseEnds caseEnds
    fun ends other fewer => ends = other ∧ fewer = size := by
  refine .bind agree_nextKind? ?_
  rintro kind _ _ ⟨rfl, rfl, _⟩
  split
  · exact .pure ⟨rfl, rfl⟩
  · exact .pure ⟨rfl, rfl⟩
  · refine .bind (agree_nextIsWord "case") ?_
    rintro found _ _ ⟨rfl, rfl, _⟩
    cases found with
    | true => exact .pure ⟨rfl, rfl⟩
    | false => exact (agree_nextIsWord "default").mono fun _ _ _ holds => ⟨holds.1, holds.2.1⟩

theorem agree_caseBodyRound {fewer : Nat} (within : fewer < size) {stmts twins : List Stmt}
    (same : stmts.map Stmt.bare = twins.map Stmt.bare) :
    Agree fewer (caseBodyRound inner stmts) (caseBodyRound other twins) (Rows size fewer) := by
  refine .bind agree_caseEnds ?_
  rintro ends _ _ ⟨rfl, rfl⟩
  cases ends with
  | true =>
      refine .pure ⟨?_, within⟩
      rw [List.map_reverse, List.map_reverse, same]
  | false => exact agree_stmtRound (ready.statement _ within) same

theorem agree_caseBody :
    Agree size (caseBody bound inner) (caseBody limit other)
      (Passed (List.map Stmt.bare) size) := by
  refine .bind (agree_expect .colon) fun _ _ fewer passed => ?_
  exact agree_repeatRounds (fun stmts twins rest within same =>
    agree_caseBodyRound ready (Nat.lt_of_le_of_lt within passed) same)
    (Nat.lt_of_lt_of_le passed ready.enough) (Nat.lt_of_lt_of_le passed ready.plenty)
    (show List.map Stmt.bare [] = List.map Stmt.bare [] from rfl)

/-- Cases without their spans. -/
def bareCases (cases : Cases) : Cases :=
  (cases.1.map (SwitchCase.remark Mark.bare), cases.2.map (List.map Stmt.bare))

/-- A round of a switch reads a case or the default, or ends it. A second default is refused on both
sides. -/
theorem agree_caseRound {fewer : Nat} (within : fewer < size) {state twin : Cases}
    (related : bareCases state = bareCases twin) :
    Agree fewer (caseRound bound inner state) (caseRound limit other twin)
      (Turn (fun state twin => bareCases state = bareCases twin)
        (Passed bareCases size) fewer) := by
  obtain ⟨cases_, default⟩ := state
  obtain ⟨casesThere, defaultThere⟩ := twin
  obtain ⟨sameCases, sameDefault⟩ := Prod.mk.inj related
  refine .bind (agree_nextIs .closeCurly) ?_
  rintro closed _ _ ⟨rfl, rfl, _⟩
  cases closed with
  | true =>
      refine .pure ⟨?_, within⟩
      simp only [bareCases, List.map_reverse, sameCases, sameDefault]
  | false =>
      refine .bind agree_nextWord? ?_
      rintro word _ here ⟨rfl, rfl, _⟩
      split
      · have ready := ready.fewer (Nat.le_of_lt within)
        refine .bind agree_anyWord ?_
        rintro ⟨_, span⟩ ⟨_, place⟩ rest ⟨_, passed⟩
        refine .bind (ready.expression _ (by omega)) ?_
        rintro first firstThere behind ⟨sameFirst, less⟩
        have inside : behind < here := by omega
        have loop := agree_repeatRounds (fun values twins rest within same =>
          agree_valueRound ready (Nat.lt_of_le_of_lt within inside) same)
          (Nat.lt_of_lt_of_le inside ready.enough) (Nat.lt_of_lt_of_le inside ready.plenty)
          (show [first].map Expr.bare = [firstThere].map Expr.bare from
            congrArg (· :: []) sameFirst)
        refine .bind loop ?_
        rintro values valuesThere final ⟨sameValues, _⟩
        refine .bind (agree_caseBody (ready.fewer (by omega))) ?_
        rintro body bodyThere last ⟨sameBody, _⟩
        refine .pure ⟨?_, by omega⟩
        simp only [bareCases, List.map_cons, SwitchCase.remark, Expr.remarkAll_eq_map,
          Stmt.remarkAll_eq_map, sameCases, sameDefault, sameValues, sameBody]
      · refine .bind agree_anyWord ?_
        rintro ⟨_, span⟩ ⟨_, place⟩ rest ⟨_, passed⟩
        have both : default.isSome = defaultThere.isSome := by
          rw [← Option.isSome_map, sameDefault, Option.isSome_map]
        simp only [both]
        split
        · exact agree_failAt_bind (by simp) _ _ _ _ _
        · refine .bind (agree_caseBody (ready.fewer (by omega))) ?_
          rintro body bodyThere last ⟨sameBody, _⟩
          refine .pure ⟨?_, by omega⟩
          simp only [bareCases, Option.map_some, sameCases, sameBody]
      · exact agree_failHere (by simp) _

/-- A switch is read alike. By which of its keywords it is named tells how it compares. -/
theorem agree_switchStmt :
    Agree size (switchStmt bound inner) (switchStmt limit other) (Passed Stmt.bare size) := by
  refine .bind agree_anyWord ?_
  rintro ⟨keyword, span⟩ ⟨_, place⟩ fewer ⟨rfl, passed⟩
  refine .bind (agree_parenthesized (ready.fewer (Nat.le_of_lt passed))) ?_
  rintro subject subjectThere rest ⟨sameSubject, tested⟩
  refine .bind (agree_expect .openCurly) fun _ _ behind opened => ?_
  have inside : behind < size := by omega
  have loop := agree_repeatRounds (fun state twin rest within same =>
    agree_caseRound ready (Nat.lt_of_le_of_lt within inside) same)
    (Nat.lt_of_lt_of_le inside ready.enough) (Nat.lt_of_lt_of_le inside ready.plenty)
    (show bareCases ([], none) = bareCases ([], none) from rfl)
  refine .bind loop ?_
  rintro ⟨cases_, default⟩ ⟨casesThere, defaultThere⟩ least ⟨same, _⟩
  obtain ⟨sameCases, sameDefault⟩ := Prod.mk.inj same
  refine .bind (agree_expect .closeCurly) fun _ _ last closed => ?_
  refine .bind (agree_markStmt span place) ?_
  rintro mark twin _ ⟨marks, rfl⟩
  refine .pure ⟨?_, by omega⟩
  simp only [Stmt.remark, SwitchCase.remarkAll_eq_map, Stmt.remarkDefault_eq_map, marks,
    sameSubject, sameCases, sameDefault]

end Statements

section Starting

variable {size bound limit : Nat} {inner other : Parser}
  (starting : Starting size bound limit inner other)
include starting

theorem agree_expressionStmt :
    Agree size (do finishExpression (← inner .expression))
      (do finishExpression (← other .expression)) (Passed Stmt.bare size) := by
  refine .bind starting.here ?_
  rintro expr twin fewer ⟨same, passed⟩
  refine (agree_finishExpression same).mono ?_
  rintro stmt sibling rest ⟨alike, less⟩
  exact ⟨alike, by omega⟩

/-- Statements that begin with a keyword are read alike, one kind after the other. -/
theorem agree_wordStmt (keyword : String) :
    Agree size (wordStmt bound inner keyword) (wordStmt limit other keyword)
      (Passed Stmt.bare size) := by
  have ready := starting.toReady
  unfold wordStmt
  split
  · exact agree_ifStmt ready
  · exact agree_whileStmt ready
  · exact agree_doStmt ready
  · exact agree_forStmt ready
  · exact agree_plainStmt "break" fun _ => rfl
  · exact agree_plainStmt "continue" fun _ => rfl
  · exact agree_returnStmt ready
  · exact agree_switchStmt ready
  · exact agree_switchStmt ready
  · exact agree_functionStmt ready
  · exact agree_packageStmt ready
  · refine .bind (agree_datablock ready) ?_
    rintro declaration twin fewer ⟨same, passed⟩
    have exprs : (Expr.object declaration).bare = (Expr.object twin).bare := by
      simp only [Expr.remark, same]
    refine (agree_finishExpression exprs).mono ?_
    rintro stmt sibling rest ⟨alike, less⟩
    exact ⟨alike, by omega⟩
  · exact agree_failHere (by simp) _
  · exact agree_failHere (by simp) _
  · exact agree_failHere (by simp) _
  · exact agree_expressionStmt starting

/-- A statement is read alike, as the first token tells what it is. -/
theorem agree_statement :
    Agree size (statement bound inner) (statement limit other) (Passed Stmt.bare size) := by
  have ready := starting.toReady
  refine .bind agree_nextKind? ?_
  rintro kind _ _ ⟨rfl, rfl, _⟩
  split
  · refine .map ((agree_block ready).mono ?_)
    rintro body twin fewer ⟨same, passed⟩
    refine ⟨?_, passed⟩
    simp only [Stmt.remark, same]
  · refine .bind (agree_expect .semicolon) fun span place fewer passed => ?_
    refine .bind (agree_markStmt span place) ?_
    rintro mark twin _ ⟨marks, rfl⟩
    refine .pure ⟨?_, passed⟩
    simp only [Stmt.remark, Block.remark, Stmt.remarkAll_eq_map, marks]
  · refine .bind agree_nextWord? ?_
    rintro word _ _ ⟨rfl, rfl, _⟩
    cases word with
    | some keyword => exact agree_wordStmt starting keyword
    | none => exact agree_expressionStmt starting
  · exact agree_expressionStmt starting

end Starting

section Parts

/-- Every part is read alike under bounds that exceed what is left. A statement takes one
more of the bound, for the expression at its start. -/
theorem agree_parts (size : Nat) :
    (∀ bound limit, 2 * size + 1 ≤ bound → 2 * size + 1 ≤ limit →
      ∀ goal, goal ≠ .statement →
        Agree size (parser bound goal) (parser limit goal) (Passed goal.bare size)) ∧
      ∀ bound limit, 2 * size + 2 ≤ bound → 2 * size + 2 ≤ limit →
        Agree size (parser bound .statement) (parser limit .statement) (Passed Stmt.bare size) := by
  -- By induction on the tokens that are left; what is read inside is read behind a token.
  induction size using Nat.strongRecOn with
  | ind size ih =>
      have ready (bound limit : Nat) (enough : 2 * size ≤ bound) (plenty : 2 * size ≤ limit) :
          Ready size bound limit (parser bound) (parser limit) := by
        refine ⟨?_, by omega, by omega⟩
        intro goal fewer less
        by_cases isStatement : goal = .statement
        · subst isStatement
          exact (ih fewer less).2 bound limit (by omega) (by omega)
        · exact (ih fewer less).1 bound limit (by omega) (by omega) goal isStatement
      have inner (bound limit : Nat) (enough : 2 * size + 1 ≤ bound)
          (plenty : 2 * size + 1 ≤ limit) (goal : Goal) (other : goal ≠ .statement) :
          Agree size (parser bound goal) (parser limit goal) (Passed goal.bare size) := by
        obtain ⟨bound, rfl⟩ := Nat.exists_eq_succ_of_ne_zero (show bound ≠ 0 by omega)
        obtain ⟨limit, rfl⟩ := Nat.exists_eq_succ_of_ne_zero (show limit ≠ 0 by omega)
        have ready := ready bound limit (by omega) (by omega)
        cases goal with
        | statement => exact (other rfl).elim
        | expression => exact agree_nested (agree_assignment ready)
        | operand => exact agree_operand ready
        | newObject => exact agree_newObject ready
        | datablock => exact agree_datablock ready
      refine ⟨inner, ?_⟩
      intro bound limit enough plenty
      obtain ⟨bound, rfl⟩ := Nat.exists_eq_succ_of_ne_zero (show bound ≠ 0 by omega)
      obtain ⟨limit, rfl⟩ := Nat.exists_eq_succ_of_ne_zero (show limit ≠ 0 by omega)
      refine agree_nested (agree_statement ⟨ready bound limit (by omega) (by omega), ?_⟩)
      exact inner bound limit (by omega) (by omega) .expression (by simp)

/-- A script is read alike to its end under any two bounds that are large enough for its tokens. -/
theorem agree_root {size bound limit : Nat} (enough : 2 * size + 2 ≤ bound)
    (plenty : 2 * size + 2 ≤ limit) :
    Agree size (root bound) (root limit) fun stmts twins _ =>
      stmts.map Stmt.bare = twins.map Stmt.bare := by
  have each (stmts twins : List Stmt) (fewer : Nat) (within : fewer ≤ size)
      (same : stmts.map Stmt.bare = twins.map Stmt.bare) :
      Agree fewer (rootRound bound stmts) (rootRound limit twins)
        (Turn (fun stmts twins => stmts.map Stmt.bare = twins.map Stmt.bare)
          (fun stmts twins _ => stmts.map Stmt.bare = twins.map Stmt.bare) fewer) := by
    refine .peek (fun _ => .pure ?_) ?_
    · simp only [Turn, List.map_reverse, same]
    · intro token sibling _ _ _
      refine .bind ((agree_parts fewer).2 bound limit (by omega) (by omega)) ?_
      rintro stmt twin rest ⟨alike, passed⟩
      refine .pure ⟨?_, passed⟩
      simp only [List.map_cons, alike, same]
  exact agree_repeatRounds each (by omega) (by omega) rfl

end Parts

end ScriptConsole.Parse
