import ScriptConsole.Parse.Expression
import ScriptConsole.Proofs.Parse.Agree

/-! # Expressions do not depend on layout

Every part of an expression is read alike wherever the same tokens are left. Loops and what
is read inside get fewer tokens, so bounds that exceed what is left suffice
(`ScriptConsole.Parse.Ready`).
-/

namespace ScriptConsole.Parse

section Words

variable {size : Nat}

theorem agree_anyWord : Agree size anyWord anyWord (Passed Prod.fst size) := by
  refine .peek (fun _ => agree_failHere (by simp) _) ?_
  intro token other positive kinds texts
  simp only [kinds, texts]
  split
  · refine .bind agree_pass ?_
    rintro _ _ _ rfl
    exact .pure ⟨rfl, Nat.sub_lt positive Nat.one_pos⟩
  · exact agree_failHere (by simp) _

theorem agree_word (expected : String) : Agree size (word expected) (word expected)
    fun _ _ fewer => fewer < size := by
  refine .bind agree_here ?_
  rintro position place fewer rfl
  refine .bind agree_anyWord ?_
  rintro ⟨found, _⟩ ⟨_, _⟩ rest ⟨rfl, passed⟩
  simp only
  split
  · exact .pure passed
  · exact agree_failAt (by simp) _ _ _

theorem agree_name : Agree size name name (Passed Prod.fst size) := by
  refine .bind agree_anyWord ?_
  rintro ⟨found, span⟩ ⟨_, place⟩ rest ⟨rfl, passed⟩
  simp only
  split
  · exact agree_failAt (by simp) _ _ _
  · exact .pure ⟨rfl, passed⟩

/-- The name of a variable is read alike with its scope, up to its place. -/
theorem agree_variableName : Agree size variableName variableName
    (Passed (fun read => (read.1, read.2.1)) size) := by
  refine .peek (fun _ => agree_failHere (by simp) _) ?_
  intro token other positive kinds texts
  have behind : size - 1 < size := Nat.sub_lt positive Nat.one_pos
  simp only [kinds, texts]
  split
  · refine .bind agree_pass ?_
    rintro _ _ _ rfl
    exact .pure ⟨rfl, behind⟩
  · refine .bind agree_pass ?_
    rintro _ _ _ rfl
    exact .pure ⟨rfl, behind⟩
  · exact agree_failHere (by simp) _

/-- A number that is refused is refused for what it is, never because reading came to no end. -/
theorem numberValue_proper {text : List UInt8} {complaint : Complaint}
    (refused : numberValue text = .error complaint) : complaint ≠ .outOfSteps := by
  have decimal (refused : numberValue.decimalValue text = .error complaint) :
      complaint ≠ .outOfSteps := by
    unfold numberValue.decimalValue at refused
    split at refused
    · contradiction
    · split at refused
      · contradiction
      · cases refused
        nofun
  unfold numberValue at refused
  split at refused
  · split at refused
    · split at refused
      · contradiction
      · cases refused
        nofun
    · exact decimal refused
  · exact decimal refused

/-- A number is read alike, or refused with the same complaint. -/
theorem agree_number : Agree size number number (Passed Prod.fst size) := by
  refine .peek (fun _ => agree_failHere (by simp) _) ?_
  intro token other positive kinds texts
  simp only [kinds, texts]
  split
  · refine .bind agree_pass ?_
    rintro _ _ _ rfl
    cases value : numberValue other.text with
    | ok literal => exact .pure ⟨rfl, Nat.sub_lt positive Nat.one_pos⟩
    | error complaint => exact agree_failAt (numberValue_proper value) _ _ _
  · exact agree_failHere (by simp) _

/-- A string of either quote is read alike, and its escapes are undone alike. -/
theorem agree_string : Agree size string string (Passed Prod.fst size) := by
  refine .peek (fun _ => agree_failHere (by simp) _) ?_
  intro token other positive kinds texts
  have behind : size - 1 < size := Nat.sub_lt positive Nat.one_pos
  simp only [kinds, texts]
  split
  · refine .bind agree_pass ?_
    rintro _ _ _ rfl
    refine .bind (agree_constant _) ?_
    rintro symbol _ _ ⟨rfl, rfl⟩
    exact .pure ⟨rfl, behind⟩
  · refine .bind agree_pass ?_
    rintro _ _ _ rfl
    refine .bind (agree_constant _) ?_
    rintro symbol _ _ ⟨rfl, rfl⟩
    exact .pure ⟨rfl, behind⟩
  · exact agree_failHere (by simp) _

/-- Both sides see the same operator next, or none. It is not passed. -/
theorem agree_nextOperator? {α : Type} (read : Punct → Option α) :
    Agree size (nextOperator? read) (nextOperator? read) fun found other fewer =>
      found.map Prod.fst = other.map Prod.fst ∧ fewer = size ∧ (found.isSome → 0 < size) := by
  refine .peek (fun _ => .pure ⟨rfl, rfl, fun some => (nomatch some)⟩) ?_
  intro token other positive kinds _
  simp only [kinds]
  split
  next punct =>
    refine .pure ⟨?_, rfl, fun _ => positive⟩
    rw [Option.map_map, Option.map_map]
    rfl
  next => exact .pure ⟨rfl, rfl, fun _ => positive⟩

end Words

/-- A part of a script without its spans. -/
def Goal.bare : (goal : Goal) → goal.Result → goal.Result
  | .statement => Stmt.bare
  | .expression => Expr.bare
  | .operand => Expr.bare
  | .newObject => ObjectDecl.bare
  | .datablock => ObjectDecl.bare

/-- What parts are read with: parsers that agree wherever fewer tokens are left, and bounds
on the rounds of loops that exceed the number of tokens behind the next one. -/
structure Ready (size bound limit : Nat) (inner other : Parser) : Prop where
  parts : ∀ goal, Items (Goal.bare goal) size (inner goal) (other goal)
  enough : size ≤ bound
  plenty : size ≤ limit

section Expressions

-- The equations are made here, once, and not by all proofs below at the same time.
attribute [local simp] Expr.remark FieldInit.remark ObjectDecl.remark

variable {size bound limit : Nat} {inner other : Parser}

theorem Ready.fewer {fewer : Nat} (ready : Ready size bound limit inner other)
    (within : fewer ≤ size) : Ready fewer bound limit inner other where
  parts goal rest less := ready.parts goal rest (Nat.lt_of_lt_of_le less within)
  enough := Nat.le_trans within ready.enough
  plenty := Nat.le_trans within ready.plenty

theorem Ready.expression (ready : Ready size bound limit inner other) :
    Items Expr.bare size (inner .expression) (other .expression) :=
  ready.parts .expression

variable (ready : Ready size bound limit inner other)
include ready

theorem agree_parenthesized :
    Agree size (parenthesized inner) (parenthesized other) (Passed Expr.bare size) := by
  refine .bind (agree_expect .openParen) fun _ _ fewer opened => ?_
  refine .bind (ready.expression fewer opened) ?_
  rintro expr twin rest ⟨same, passed⟩
  refine .bind (agree_expect .closeParen) fun _ _ last closed => ?_
  exact .pure ⟨same, by omega⟩

theorem agree_arguments :
    Agree size (arguments bound inner) (arguments limit other)
      (Passed (List.map Expr.bare) size) :=
  agree_list ready.expression ready.enough ready.plenty _ _ _ _

/-- The indices of a place are read alike. There are none without an opening bracket. -/
theorem agree_indices :
    Agree size (indices bound inner) (indices limit other) fun exprs others fewer =>
      exprs.map Expr.bare = others.map Expr.bare ∧ fewer ≤ size := by
  refine .bind agree_here ?_
  rintro start place _ rfl
  refine .bind (agree_list? ready.expression ready.enough ready.plenty _ _ _) ?_
  rintro (_ | read) (_ | others) fewer ⟨same, within, _⟩
  · exact .pure ⟨rfl, within⟩
  · exact nomatch same
  · exact nomatch same
  · have exprs : read.map Expr.bare = others.map Expr.bare := Option.some.inj same
    cases read with
    | nil =>
        obtain rfl := List.map_eq_nil_iff.mp exprs.symm
        exact agree_failAt (by simp) start place _
    | cons expr rest =>
        cases others with
        | nil => exact nomatch exprs
        | cons twin last => exact .pure ⟨exprs, within⟩

/-- The rest of a qualified call is read alike behind its namespace. -/
theorem agree_qualifiedCall (space : String) (first place : Span) :
    Agree size (qualifiedCall bound inner space first) (qualifiedCall limit other space place)
      (Passed Expr.bare size) := by
  refine .bind (agree_intern space) ?_
  rintro symbol _ _ ⟨rfl, rfl⟩
  refine .bind agree_name ?_
  rintro ⟨text, last⟩ ⟨_, there⟩ fewer ⟨rfl, named⟩
  refine .bind (agree_intern text) ?_
  rintro function _ _ ⟨rfl, rfl⟩
  refine .bind (agree_arguments (ready.fewer (Nat.le_of_lt named))) ?_
  rintro exprs others rest ⟨same, passed⟩
  refine .bind (agree_markExpr _ _) ?_
  rintro mark twin _ ⟨marks, rfl⟩
  refine .pure ⟨?_, by omega⟩
  simp only [Expr.remark, Expr.remarkAll_eq_map, marks, same]

/-- What begins with a name is a call, a qualified call or a constant, and the tokens behind the
name tell which. -/
theorem agree_namedExpr :
    Agree size (namedExpr bound inner) (namedExpr limit other) (Passed Expr.bare size) := by
  refine .bind agree_name ?_
  rintro ⟨text, span⟩ ⟨_, place⟩ fewer ⟨rfl, named⟩
  refine .bind (agree_accept .colonColon) ?_
  rintro qualified _ rest ⟨rfl, within, _⟩
  cases qualified with
  | true =>
      refine (agree_qualifiedCall (ready.fewer (by omega)) text span place).mono ?_
      rintro expr twin last ⟨same, passed⟩
      exact ⟨same, by omega⟩
  | false =>
      refine .bind (agree_nextIs .openParen) ?_
      rintro called _ _ ⟨rfl, rfl, _⟩
      cases called with
      | true =>
          refine .bind (agree_intern text) ?_
          rintro function _ _ ⟨rfl, rfl⟩
          refine .bind (agree_arguments (ready.fewer (by omega))) ?_
          rintro exprs others last ⟨same, passed⟩
          refine .bind (agree_markExpr span place) ?_
          rintro mark twin _ ⟨marks, rfl⟩
          refine .pure ⟨?_, by omega⟩
          simp only [Expr.remark, Expr.remarkAll_eq_map, marks, same]
      | false =>
          refine .bind (agree_constant text) ?_
          rintro value _ _ ⟨rfl, rfl⟩
          refine .bind (agree_markExpr span place) ?_
          rintro mark twin _ ⟨marks, rfl⟩
          refine .pure ⟨?_, by omega⟩
          simp only [Expr.remark, marks]

omit ready in
theorem agree_truth (value : Int64) :
    Agree size (truth value) (truth value) (Passed Expr.bare size) := by
  refine .bind agree_anyWord ?_
  rintro ⟨_, span⟩ ⟨_, place⟩ fewer ⟨_, passed⟩
  refine .bind (agree_markExpr span place) ?_
  rintro mark twin _ ⟨marks, rfl⟩
  refine .pure ⟨?_, passed⟩
  simp only [Expr.remark, marks]

theorem agree_detagExpr :
    Agree size (detagExpr inner) (detagExpr other) (Passed Expr.bare size) := by
  refine .bind (agree_word "detag") fun span place fewer passed => ?_
  refine .bind (agree_parenthesized (ready.fewer (Nat.le_of_lt passed))) ?_
  rintro expr twin rest ⟨same, closed⟩
  refine .bind (agree_markExpr span place) ?_
  rintro mark sibling _ ⟨marks, rfl⟩
  refine .pure ⟨?_, by omega⟩
  simp only [Expr.remark, marks, same]

omit ready in
/-- What a declaration copies from is there on both sides or on neither. -/
theorem agree_copySource : Agree size copySource copySource
    fun source other fewer => source = other ∧ fewer ≤ size := by
  refine .bind (agree_accept .colon) ?_
  rintro found _ fewer ⟨rfl, within, _⟩
  cases found with
  | false => exact .pure ⟨rfl, within⟩
  | true =>
      refine .bind agree_name ?_
      rintro ⟨text, _⟩ ⟨_, _⟩ rest ⟨rfl, passed⟩
      refine .bind (agree_intern text) ?_
      rintro symbol _ _ ⟨rfl, rfl⟩
      exact .pure ⟨rfl, by omega⟩

/-- A field of a declaration is read alike with its indices and its value. -/
theorem agree_fieldInit :
    Agree size (fieldInit bound inner) (fieldInit limit other)
      (Passed (FieldInit.remark Mark.bare) size) := by
  refine .bind agree_anyWord ?_
  rintro ⟨text, span⟩ ⟨_, place⟩ fewer ⟨rfl, named⟩
  refine .bind (agree_intern text) ?_
  rintro field _ _ ⟨rfl, rfl⟩
  refine .bind (agree_indices (ready.fewer (Nat.le_of_lt named))) ?_
  rintro exprs others rest ⟨indices, within⟩
  refine .bind (agree_expect .equals) fun _ _ behind equals => ?_
  refine .bind (ready.expression behind (by omega)) ?_
  rintro value twin after ⟨same, passed⟩
  refine .bind (agree_expect .semicolon) fun _ _ last ended => ?_
  refine .pure ⟨?_, by omega⟩
  simp only [FieldInit.remark, Expr.remarkAll_eq_map, indices, same]

/-- The fields and objects in the body of a declaration, without spans. -/
def bareMembers (members : List FieldInit × List ObjectDecl) : List FieldInit × List ObjectDecl :=
  (members.1.map (FieldInit.remark Mark.bare), members.2.map ObjectDecl.bare)

/-- A round of the body of a declaration passes a semicolon, reads a field or an object, or ends the
body. A keyword tells an object from a field. -/
theorem agree_memberRound {fewer : Nat} (within : fewer < size)
    {state twin : List FieldInit × List ObjectDecl}
    (related : bareMembers state = bareMembers twin) :
    Agree fewer (memberRound bound inner state) (memberRound limit other twin)
      (Turn (fun state twin => bareMembers state = bareMembers twin)
        (Passed bareMembers size) fewer) := by
  obtain ⟨fields, children⟩ := state
  obtain ⟨fieldsThere, childrenThere⟩ := twin
  obtain ⟨sameFields, sameChildren⟩ := Prod.mk.inj related
  have behind := ready.fewer (Nat.le_of_lt within)
  refine .bind agree_nextKind? ?_
  rintro kind _ _ ⟨rfl, rfl, positive⟩
  split
  · refine .pure ⟨?_, within⟩
    simp only [bareMembers, List.map_reverse, sameFields, sameChildren]
  · have more := positive rfl
    refine .bind agree_pass ?_
    rintro _ _ _ rfl
    exact .pure ⟨related, by omega⟩
  · refine .bind (agree_nextIsWord "new") ?_
    rintro isNew _ _ ⟨rfl, rfl, _⟩
    cases isNew with
    | true =>
        refine .bind (ready.parts .newObject _ within) ?_
        rintro child twin rest ⟨same, passed⟩
        refine .bind (agree_expect .semicolon) fun _ _ last ended => ?_
        refine .pure ⟨?_, by omega⟩
        have sameChild : child.bare = twin.bare := same
        simp only [bareMembers, List.map_cons, sameChild, sameFields, sameChildren]
    | false =>
        refine .bind (agree_nextIsWord "datablock") ?_
        rintro isDatablock _ _ ⟨rfl, rfl, _⟩
        cases isDatablock with
        | true =>
            refine .bind (ready.parts .datablock _ within) ?_
            rintro child twin rest ⟨same, passed⟩
            refine .bind (agree_expect .semicolon) fun _ _ last ended => ?_
            refine .pure ⟨?_, by omega⟩
            have sameChild : child.bare = twin.bare := same
            simp only [bareMembers, List.map_cons, sameChild, sameFields, sameChildren]
        | false =>
            refine .bind (agree_fieldInit behind) ?_
            rintro field twin rest ⟨same, passed⟩
            refine .pure ⟨?_, passed⟩
            simp only [bareMembers, List.map_cons, same, sameFields, sameChildren]
  · exact agree_failHere (by simp) _

/-- The body of a declaration is read alike in its braces. -/
theorem agree_objectBody :
    Agree size (objectBody bound inner) (objectBody limit other) (Passed bareMembers size) := by
  refine .bind (agree_expect .openCurly) fun _ _ fewer opened => ?_
  have loop := agree_repeatRounds (fun state twin rest within related =>
    agree_memberRound ready (Nat.lt_of_le_of_lt within opened) related)
    (Nat.lt_of_lt_of_le opened ready.enough) (Nat.lt_of_lt_of_le opened ready.plenty)
    (show bareMembers ([], []) = bareMembers ([], []) from rfl)
  refine .bind loop ?_
  rintro members others rest ⟨same, within⟩
  refine .bind (agree_expect .closeCurly) fun _ _ last closed => ?_
  exact .pure ⟨same, by omega⟩

omit ready in
theorem agree_declaredClass (keyword : String) :
    Agree size (declaredClass keyword) (declaredClass keyword) (Passed Prod.fst size) := by
  refine .bind (agree_word keyword) fun first place fewer passed => ?_
  refine .bind agree_name ?_
  rintro ⟨text, last⟩ ⟨_, there⟩ rest ⟨rfl, named⟩
  refine .bind (agree_intern text) ?_
  rintro symbol _ _ ⟨rfl, rfl⟩
  exact .pure ⟨rfl, by omega⟩

/-- An object is read alike: its class, its name, what it copies from and its body. -/
theorem agree_newObject :
    Agree size (newObject bound inner) (newObject limit other) (Passed ObjectDecl.bare size) := by
  refine .bind (agree_declaredClass "new") ?_
  rintro ⟨className, span⟩ ⟨_, place⟩ fewer ⟨rfl, declared⟩
  refine .bind (agree_expect .openParen) fun _ _ opened passed => ?_
  refine .bind agree_nextKind? ?_
  rintro kind _ open_ ⟨rfl, rfl, _⟩
  have finish (name twin : Option Expr) (fewest : Nat) (within : fewest ≤ open_)
      (names : name.map Expr.bare = twin.map Expr.bare) :
      Agree fewest
        (do
          let copied ← copySource
          let _ ← expect .closeParen
          let members ←
            if ← nextIs .openCurly then objectBody bound inner else Pure.pure ([], [])
          return ⟨← markExpr span, false, className, name, copied, members.1, members.2⟩)
        (do
          let copied ← copySource
          let _ ← expect .closeParen
          let members ←
            if ← nextIs .openCurly then objectBody limit other else Pure.pure ([], [])
          return ⟨← markExpr place, false, className, twin, copied, members.1, members.2⟩)
        (Passed ObjectDecl.bare size) := by
    refine .bind agree_copySource ?_
    rintro copied _ rest ⟨rfl, notMore⟩
    refine .bind (agree_expect .closeParen) fun _ _ _ behind => ?_
    refine .bind (agree_nextIs .openCurly) ?_
    rintro hasBody _ closed ⟨rfl, rfl, _⟩
    have last (members others : List FieldInit × List ObjectDecl) (left : Nat)
        (fits : left ≤ closed) (same : bareMembers members = bareMembers others) :
        Agree left
          (do return ⟨← markExpr span, false, className, name, copied, members.1, members.2⟩)
          (do return ⟨← markExpr place, false, className, twin, copied, others.1, others.2⟩)
          (Passed ObjectDecl.bare size) := by
      obtain ⟨sameFields, sameChildren⟩ := Prod.mk.inj same
      refine .bind (agree_markExpr span place) ?_
      rintro mark sibling _ ⟨marks, rfl⟩
      refine .pure ⟨?_, by omega⟩
      simp only [ObjectDecl.remark, Expr.remark?_eq_map, FieldInit.remarkAll_eq_map,
        ObjectDecl.remarkAll_eq_map, marks, names, sameFields, sameChildren]
    cases hasBody with
    | true =>
        refine .bind (agree_objectBody (ready.fewer (by omega))) ?_
        rintro members others left ⟨same, less⟩
        exact last members others left (by omega) same
    | false => exact last ([], []) ([], []) closed (Nat.le_refl closed) rfl
  split
  · exact finish none none _ (Nat.le_refl _) rfl
  · exact finish none none _ (Nat.le_refl _) rfl
  · refine .bind (agree_some (ready.expression open_ (by omega))) ?_
    rintro name twin rest ⟨same, less⟩
    exact finish name twin rest (Nat.le_of_lt less) same

/-- A datablock is read alike. Its name is an identifier, and its body is never left out. -/
theorem agree_datablock :
    Agree size (datablock bound inner) (datablock limit other) (Passed ObjectDecl.bare size) := by
  refine .bind (agree_declaredClass "datablock") ?_
  rintro ⟨className, span⟩ ⟨_, place⟩ fewer ⟨rfl, declared⟩
  refine .bind (agree_expect .openParen) fun _ _ opened passed => ?_
  refine .bind agree_name ?_
  rintro ⟨text, nameSpan⟩ ⟨_, namePlace⟩ named ⟨rfl, read⟩
  refine .bind (agree_constant text) ?_
  rintro value _ _ ⟨rfl, rfl⟩
  refine .bind (agree_markExpr nameSpan namePlace) ?_
  rintro nameMark nameTwin _ ⟨nameMarks, rfl⟩
  refine .bind agree_copySource ?_
  rintro copied _ rest ⟨rfl, within⟩
  refine .bind (agree_expect .closeParen) fun _ _ closed behind => ?_
  refine .bind (agree_objectBody (ready.fewer (by omega))) ?_
  rintro ⟨fields, children⟩ ⟨fieldsThere, childrenThere⟩ last ⟨members, ended⟩
  obtain ⟨sameFields, sameChildren⟩ := Prod.mk.inj members
  refine .bind (agree_markExpr span place) ?_
  rintro mark twin _ ⟨marks, rfl⟩
  refine .pure ⟨?_, by omega⟩
  simp only [ObjectDecl.remark, Expr.remark?_eq_map, Option.map_some, Expr.remark,
    FieldInit.remarkAll_eq_map, ObjectDecl.remarkAll_eq_map, marks, nameMarks, sameFields,
    sameChildren]

/-- What begins with an identifier is a truth value, a declaration, a `detag` or a name, as its word
tells. -/
theorem agree_wordExpr :
    Agree size (wordExpr bound inner) (wordExpr limit other) (Passed Expr.bare size) := by
  refine .bind agree_nextWord? ?_
  rintro word _ _ ⟨rfl, rfl, _⟩
  split
  · exact agree_truth 1
  · exact agree_truth 0
  · refine .map ((agree_newObject ready).mono ?_)
    rintro declaration twin rest ⟨same, passed⟩
    refine ⟨?_, passed⟩
    simp only [Expr.remark, same]
  · refine .bind agree_secondKind? ?_
    rintro kind _ _ ⟨rfl, rfl⟩
    split
    · exact agree_detagExpr ready
    · exact agree_namedExpr ready
  · exact agree_namedExpr ready

/-- An operand without what goes before or behind it is read alike, whichever token it begins with.
-/
theorem agree_primary :
    Agree size (primary bound inner) (primary limit other) (Passed Expr.bare size) := by
  have literal (value : Literal) (span place : Span) (fewer : Nat) (passed : fewer < size) :
      Agree fewer (do return .literal (← markExpr span) value)
        (do return .literal (← markExpr place) value) (Passed Expr.bare size) := by
    refine .bind (agree_markExpr span place) ?_
    rintro mark twin _ ⟨marks, rfl⟩
    refine .pure ⟨?_, passed⟩
    simp only [Expr.remark, marks]
  have text : Agree size
      (do
        let read ← string
        return .literal (← markExpr read.2) read.1)
      (do
        let read ← string
        return .literal (← markExpr read.2) read.1) (Passed Expr.bare size) := by
    refine .bind agree_string ?_
    rintro ⟨value, span⟩ ⟨_, place⟩ fewer ⟨rfl, passed⟩
    exact literal value span place fewer passed
  have place : Agree size
      (do
        let name ← variableName
        let symbol ← intern name.1
        let exprs ← indices bound inner
        return .variable (← markExpr name.2.2) name.2.1 symbol exprs)
      (do
        let name ← variableName
        let symbol ← intern name.1
        let exprs ← indices limit other
        return .variable (← markExpr name.2.2) name.2.1 symbol exprs) (Passed Expr.bare size) := by
    refine .bind agree_variableName ?_
    rintro ⟨text, scope, span⟩ ⟨_, _, place⟩ fewer ⟨same, named⟩
    obtain ⟨rfl, rfl⟩ := Prod.mk.inj same
    refine .bind (agree_intern text) ?_
    rintro symbol _ _ ⟨rfl, rfl⟩
    refine .bind (agree_indices (ready.fewer (Nat.le_of_lt named))) ?_
    rintro exprs others rest ⟨indices, within⟩
    refine .bind (agree_markExpr span place) ?_
    rintro mark twin _ ⟨marks, rfl⟩
    refine .pure ⟨?_, by omega⟩
    simp only [Expr.remark, Expr.remarkAll_eq_map, marks, indices]
  refine .bind agree_nextKind? ?_
  rintro kind _ _ ⟨rfl, rfl, _⟩
  split
  · exact agree_parenthesized ready
  · refine .bind agree_number ?_
    rintro ⟨value, span⟩ ⟨_, place⟩ fewer ⟨rfl, passed⟩
    exact literal value span place fewer passed
  · exact text
  · exact text
  · exact place
  · exact place
  · exact agree_wordExpr ready
  · exact agree_failHere (by simp) _

omit ready in
/-- A step behind an operand is read alike. It needs a place on both sides, as the operands look the
same. -/
theorem agree_stepAfter (op : UnaryOp) {operand twin : Expr} (same : operand.bare = twin.bare)
    (span place : Span) (positive : 0 < size) :
    Agree size (stepAfter op operand span) (stepAfter op twin place) (Passed Expr.bare size) := by
  refine .bind agree_pass ?_
  rintro _ _ _ rfl
  rw [Expr.isPlace_of_bare_eq same]
  split
  · refine .bind (agree_markExpr span place) ?_
    rintro mark sibling _ ⟨marks, rfl⟩
    refine .pure ⟨?_, Nat.sub_lt positive Nat.one_pos⟩
    simp only [Expr.remark, marks, same]
  · exact agree_failAt (by simp) _ _ _

/-- What follows a dot is a field with its indices or a call with its arguments. -/
theorem agree_memberAfter {object twin : Expr} (same : object.bare = twin.bare)
    (positive : 0 < size) :
    Agree size (memberAfter bound inner object) (memberAfter limit other twin)
      (Passed Expr.bare size) := by
  refine .bind agree_pass ?_
  rintro _ _ _ rfl
  refine .bind agree_anyWord ?_
  rintro ⟨text, span⟩ ⟨_, place⟩ fewer ⟨rfl, named⟩
  refine .bind (agree_intern text) ?_
  rintro symbol _ _ ⟨rfl, rfl⟩
  refine .bind (agree_nextIs .openParen) ?_
  rintro called _ fewest ⟨rfl, rfl, _⟩
  cases called with
  | true =>
      refine .bind (agree_arguments (ready.fewer (by omega))) ?_
      rintro exprs others rest ⟨arguments, passed⟩
      refine .bind (agree_markExpr span place) ?_
      rintro mark sibling _ ⟨marks, rfl⟩
      refine .pure ⟨?_, by omega⟩
      simp only [Expr.remark, Expr.remarkAll_eq_map, marks, arguments, same]
  | false =>
      refine .bind (agree_indices (ready.fewer (by omega))) ?_
      rintro exprs others rest ⟨indices, within⟩
      refine .bind (agree_markExpr span place) ?_
      rintro mark sibling _ ⟨marks, rfl⟩
      refine .pure ⟨?_, by omega⟩
      simp only [Expr.remark, Expr.remarkAll_eq_map, marks, indices, same]

/-- A loop that grows an expression behind a part of it that was read. -/
abbrev Grows (size fewer : Nat) : Round Expr Expr → Round Expr Expr → Nat → Prop :=
  Turn (fun expr twin => expr.bare = twin.bare) (Passed Expr.bare size) fewer

/-- A round behind an operand reads a step or a member, or ends it. -/
theorem agree_suffixRound {fewer : Nat} (within : fewer < size) {expr twin : Expr}
    (same : expr.bare = twin.bare) :
    Agree fewer (suffixRound bound inner expr) (suffixRound limit other twin)
      (Grows size fewer) := by
  have grown (parser twins : Parse Expr)
      (agree : Agree fewer parser twins (Passed Expr.bare fewer)) :
      Agree fewer (do return .again (← parser)) (do return .again (← twins))
        (Grows size fewer) :=
    .bind agree fun _ _ _ holds => .pure holds
  refine .peek (fun _ => .pure ⟨same, within⟩) ?_
  intro token sibling positive kinds _
  simp only [kinds]
  split
  · exact grown _ _ (agree_stepAfter .postIncrement same _ _ positive)
  · exact grown _ _ (agree_stepAfter .postDecrement same _ _ positive)
  · exact grown _ _ (agree_memberAfter (ready.fewer (Nat.le_of_lt within)) same positive)
  · exact .pure ⟨same, within⟩

/-- What was read grows round by round. -/
theorem agree_growing {start startThere : Parse Expr}
    {round roundThere : Expr → Parse (Round Expr Expr)}
    (first : Agree size start startThere (Passed Expr.bare size))
    (each : ∀ fewer, fewer < size → ∀ expr twin, expr.bare = twin.bare →
      Agree fewer (round expr) (roundThere twin) (Grows size fewer)) :
    Agree size (do repeatRounds bound round (← start))
      (do repeatRounds limit roundThere (← startThere)) (Passed Expr.bare size) := by
  refine .bind first ?_
  rintro expr twin fewer ⟨same, passed⟩
  have rounds (state sibling : Expr) (rest : Nat) (within : rest ≤ fewer)
      (related : state.bare = sibling.bare) :
      Agree rest (round state) (roundThere sibling) (Grows size rest) :=
    each rest (Nat.lt_of_le_of_lt within passed) state sibling related
  exact agree_repeatRounds rounds (Nat.lt_of_lt_of_le passed ready.enough)
    (Nat.lt_of_lt_of_le passed ready.plenty) same

theorem agree_suffixed :
    Agree size (suffixed bound inner) (suffixed limit other) (Passed Expr.bare size) :=
  agree_growing ready (agree_primary ready) fun _ within _ _ same =>
    agree_suffixRound ready within same

/-- An operand is read alike with the operators in front of it, each of which opens a level. -/
theorem agree_operand :
    Agree size (operand bound inner) (operand limit other) (Passed Expr.bare size) := by
  refine .bind (agree_nextOperator? prefixOf?) ?_
  rintro (_ | ⟨op, span⟩) (_ | ⟨_, place⟩) fewer ⟨ops, rfl, positive⟩
  · exact agree_suffixed ready
  · exact nomatch ops
  · exact nomatch ops
  · obtain rfl := Option.some.inj ops
    have more := positive rfl
    refine .bind agree_pass ?_
    rintro _ _ _ rfl
    have behind : fewer - 1 < fewer := by omega
    refine .bind (agree_nested (ready.parts .operand _ behind)) ?_
    rintro expr twin rest ⟨same, passed⟩
    have same : expr.bare = twin.bare := same
    rw [Expr.isPlace_of_bare_eq same]
    split
    · exact agree_failAt_bind (by simp) _ _ _ _ _
    · refine .bind (agree_markExpr span place) ?_
      rintro mark sibling _ ⟨marks, rfl⟩
      refine .pure ⟨?_, by omega⟩
      simp only [Expr.remark, marks, same]

omit ready in
/-- A round of a level reads an operator of the level and a tighter operand behind it, or ends it.
-/
theorem agree_levelRound {tighter twins : Parse Expr}
    (operands : Items Expr.bare size tighter twins) (level : List (OperatorToken × BinaryOp))
    {fewer : Nat} (within : fewer < size) {left leftThere : Expr}
    (same : left.bare = leftThere.bare) :
    Agree fewer (levelRound tighter level left) (levelRound twins level leftThere)
      (Grows size fewer) := by
  refine .peek (fun _ => .pure ⟨same, within⟩) ?_
  intro token sibling positive kinds texts
  have operators : operatorOf? level token = operatorOf? level sibling := by
    have spelled : (fun entry : OperatorToken × BinaryOp => entry.1.matches token) =
        fun entry => entry.1.matches sibling := by
      funext ⟨operator, _⟩
      cases operator <;> simp only [OperatorToken.matches, kinds, texts]
    unfold operatorOf?
    rw [spelled]
  simp only [operators]
  split
  · refine .bind agree_pass ?_
    rintro _ _ _ rfl
    refine .bind (operands _ (by omega)) ?_
    rintro right rightThere rest ⟨sameRight, passed⟩
    refine .bind (agree_markExpr _ _) ?_
    rintro mark twin _ ⟨marks, rfl⟩
    refine .pure ⟨?_, by omega⟩
    simp only [Expr.remark, marks, same, sameRight]
  · exact .pure ⟨same, within⟩

theorem agree_binary (levels : List (List (OperatorToken × BinaryOp))) :
    Agree size (binary bound inner levels) (binary limit other levels)
      (Passed Expr.bare size) := by
  -- Every operator passes a token, so operands are read where fewer tokens are left.
  induction levels generalizing size with
  | nil => exact agree_operand ready
  | cons level tighter ih =>
      refine agree_growing ready (ih ready) fun fewer within expr twin same => ?_
      refine agree_levelRound (fun rest less => ?_) level within same
      exact ih (ready.fewer (Nat.le_of_lt less))

/-- A choice is read alike: the question mark tells it from its test alone. -/
theorem agree_conditional :
    Agree size (conditional bound inner) (conditional limit other) (Passed Expr.bare size) := by
  refine .bind (agree_binary ready binaryLevels) ?_
  rintro test twin fewer ⟨same, passed⟩
  refine .peek (fun _ => .pure ⟨same, passed⟩) ?_
  intro token sibling positive kinds _
  simp only [kinds]
  split
  · refine .bind agree_pass ?_
    rintro _ _ _ rfl
    refine .bind (ready.expression _ (by omega)) ?_
    rintro yes yesThere rest ⟨sameYes, less⟩
    refine .bind (agree_expect .colon) fun _ _ last colon => ?_
    refine .bind (ready.expression _ (by omega)) ?_
    rintro no noThere final ⟨sameNo, least⟩
    refine .bind (agree_markExpr _ _) ?_
    rintro mark markThere _ ⟨marks, rfl⟩
    refine .pure ⟨?_, by omega⟩
    simp only [Expr.remark, marks, same, sameYes, sameNo]
  · exact .pure ⟨same, passed⟩

/-- An assignment is read alike. What is assigned to has to be a place, and is one on both sides or
on neither. -/
theorem agree_assignment :
    Agree size (assignment bound inner) (assignment limit other) (Passed Expr.bare size) := by
  refine .bind (agree_conditional ready) ?_
  rintro target twin fewer ⟨same, passed⟩
  refine .bind (agree_nextOperator? assignOf?) ?_
  rintro (_ | ⟨op, span⟩) (_ | ⟨_, place⟩) _ ⟨ops, rfl, positive⟩
  · exact .pure ⟨same, passed⟩
  · exact nomatch ops
  · exact nomatch ops
  · obtain rfl := Option.some.inj ops
    simp only [Expr.isPlace_of_bare_eq same]
    split
    · exact agree_failAt_bind (by simp) _ _ _ _ _
    · refine .bind agree_pass ?_
      rintro _ _ _ rfl
      refine .bind (ready.expression _ (by omega)) ?_
      rintro value valueThere rest ⟨sameValue, less⟩
      refine .bind (agree_markExpr span place) ?_
      rintro mark markThere _ ⟨marks, rfl⟩
      refine .pure ⟨?_, by omega⟩
      simp only [Expr.remark, marks, same, sameValue]

end Expressions

end ScriptConsole.Parse
