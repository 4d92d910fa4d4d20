import ScriptConsole.Proofs.Parse.Layout
import ScriptConsole.Proofs.Parse.Operands

/-! # Written expressions compile to themselves

The text of an expression is scanned into its tokens, and the tokens are parsed as the
expression, up to marks.
-/

namespace ScriptConsole

section Rows

open Token

/-- Tokens that can all stand between spaces. -/
def Inked (row : List TokenKey) : Prop :=
  ∀ key ∈ row, Written key

theorem inked_cons {key : TokenKey} {row : List TokenKey} (first : Written key)
    (others : Inked row) : Inked (key :: row) :=
  List.forall_mem_cons.mpr ⟨first, others⟩

theorem Inked.append {row next : List TokenKey} (first : Inked row) (others : Inked next) :
    Inked (row ++ next) :=
  List.forall_mem_append.mpr ⟨first, others⟩

theorem inked_singleton {key : TokenKey} (alone : Written key) : Inked [key] :=
  inked_cons alone fun _ member => absurd member List.not_mem_nil

/-- Rows that are written token by token are written with commas between them as well. -/
theorem inked_separated {rows : List (List TokenKey)} (each : ∀ row ∈ rows, Inked row) :
    Inked (separated rows) := by
  induction rows with
  | nil => exact fun _ member => absurd member List.not_mem_nil
  | cons row rows ih =>
      obtain ⟨first, others⟩ := List.forall_mem_cons.mp each
      cases rows with
      | nil => exact first
      | cons next rows =>
          have comma : Written (signToken .comma) := written_sign (by decide) (by decide)
          exact first.append (inked_cons comma (ih others))

theorem inked_listed {rows : List (List TokenKey)} (each : ∀ row ∈ rows, Inked row) :
    Inked (listed rows) := by
  have opening : Written (signToken .openParen) := written_sign (by decide) (by decide)
  have closing : Written (signToken .closeParen) := written_sign (by decide) (by decide)
  exact inked_cons opening ((inked_separated each).append (inked_singleton closing))

theorem inked_bracketed {rows : List (List TokenKey)} (each : ∀ row ∈ rows, Inked row) :
    Inked (bracketed rows) := by
  cases rows with
  | nil => exact fun _ member => absurd member List.not_mem_nil
  | cons row rows =>
      have opening : Written (signToken .openSquare) := written_sign (by decide) (by decide)
      have closing : Written (signToken .closeSquare) := written_sign (by decide) (by decide)
      exact inked_cons opening ((inked_separated each).append (inked_singleton closing))

theorem inked_enclosed {wanted level : Nat} {row : List TokenKey} (inked : Inked row) :
    Inked (enclosed wanted level row) := by
  unfold enclosed
  split
  · exact inked
  · exact inked_listed (List.forall_mem_singleton.mpr inked)

theorem written_assign (op : AssignOp) : Written (signToken op.sign) := by
  cases op <;> exact written_sign (by decide) (by decide)

theorem written_unary (op : UnaryOp) : Written (signToken op.sign) := by
  cases op <;> exact written_sign (by decide) (by decide)

theorem written_binary (op : BinaryOp) : Written op.token := by
  cases op
  case joinSpace => exact written_word ⟨_, _, rfl, rfl, List.all_eq_true.mp rfl⟩
  case joinTab => exact written_word ⟨_, _, rfl, rfl, List.all_eq_true.mp rfl⟩
  case joinNewline => exact written_word ⟨_, _, rfl, rfl, List.all_eq_true.mp rfl⟩
  all_goals exact written_sign (by decide) (by decide)

/-- The names of a callee and the sign between them are written as tokens. -/
theorem inked_callee {symbols : SymbolTable} {callee : Callee}
    (printable : callee.Printable symbols) : Inked callee.tokens := by
  have colons : Written (signToken .colonColon) := written_sign (by decide) (by decide)
  cases callee with
  | global name => exact inked_singleton (written_word printable.1.1.2)
  | qualified space name =>
      obtain ⟨first, -, last⟩ := printable
      exact inked_cons (written_word first.1.2)
        (inked_cons colons (inked_singleton (written_word last.1.2)))
  | parent name =>
      have first : Written (wordToken "Parent") :=
        written_word ⟨_, _, rfl, rfl, List.all_eq_true.mp rfl⟩
      exact inked_cons first (inked_cons colons (inked_singleton (written_word printable.1.2)))

mutual

/-- The tokens of an expression can stand between spaces. -/
theorem Expr.inked_tokens {symbols : SymbolTable} :
    (expr : Expr) → expr.Printable symbols → Inked expr.tokens
  | .assign _ op target value, ⟨_, printable, printableValue⟩ => by
      rw [Expr.tokens]
      exact (inked_enclosed (target.inked_tokens printable)).append
        (inked_cons (written_assign op) (value.inked_tokens printableValue))
  | .conditional _ test yes no, ⟨printable, printableYes, printableNo⟩ => by
      have question : Written (signToken .question) := written_sign (by decide) (by decide)
      have colon : Written (signToken .colon) := written_sign (by decide) (by decide)
      rw [Expr.tokens]
      exact (inked_enclosed (test.inked_tokens printable)).append
        (inked_cons question ((yes.inked_tokens printableYes).append
          (inked_cons colon (no.inked_tokens printableNo))))
  | .binary _ op left right, ⟨printable, printableRight⟩ => by
      rw [Expr.tokens]
      exact (inked_enclosed (left.inked_tokens printable)).append
        (inked_cons (written_binary op) (inked_enclosed (right.inked_tokens printableRight)))
  | .unary _ op operand, ⟨_, printable⟩ => by
      have inner := operand.inked_tokens printable
      rw [Expr.tokens]
      split
      · exact (inked_enclosed inner).append (inked_singleton (written_unary op))
      · exact inked_cons (written_unary op) (inked_enclosed inner)
  | .literal _ value, printable => by
      rw [Expr.tokens]
      exact inked_singleton (written_literal printable)
  | .variable _ scope name indices, ⟨printable, printableIndices⟩ => by
      rw [Expr.tokens]
      exact inked_cons (written_variable printable)
        (inked_bracketed (Expr.inked_rows indices printableIndices))
  | .slot _ owner field indices, ⟨printable, named, printableIndices⟩ => by
      have dot : Written (signToken .dot) := written_sign (by decide) (by decide)
      rw [Expr.tokens]
      exact (inked_enclosed (owner.inked_tokens printable)).append
        (inked_cons dot (inked_cons (written_word named.2)
          (inked_bracketed (Expr.inked_rows indices printableIndices))))
  | .call _ callee arguments, ⟨printable, printableArguments⟩ => by
      rw [Expr.tokens]
      exact (inked_callee printable).append
        (inked_listed (Expr.inked_rows arguments printableArguments))
  | .send _ owner method arguments, ⟨printable, named, printableArguments⟩ => by
      have dot : Written (signToken .dot) := written_sign (by decide) (by decide)
      rw [Expr.tokens]
      exact (inked_enclosed (owner.inked_tokens printable)).append
        (inked_cons dot (inked_cons (written_word named.2)
          (inked_listed (Expr.inked_rows arguments printableArguments))))
  | .object _, printable => printable.elim
  | .detag _ operand, printable => by
      have word : Written (wordToken "detag") :=
        written_word ⟨_, _, rfl, rfl, List.all_eq_true.mp rfl⟩
      rw [Expr.tokens]
      exact inked_cons word
        (inked_listed (List.forall_mem_singleton.mpr (operand.inked_tokens printable)))

theorem Expr.inked_rows {symbols : SymbolTable} :
    (exprs : List Expr) → Expr.AllPrintable symbols exprs → ∀ row ∈ Expr.rows exprs, Inked row
  | [], _ => fun _ member => absurd member List.not_mem_nil
  | expr :: exprs, ⟨printable, others⟩ =>
    List.forall_mem_cons.mpr ⟨expr.inked_tokens printable, Expr.inked_rows exprs others⟩

end

end Rows

section Trees

open Parse

theorem BinaryOp.level_le (op : BinaryOp) : op.level ≤ 12 := by
  cases op <;> decide

theorem Expr.level_le (expr : Expr) : expr.level ≤ 15 := by
  cases expr with
  | binary _ op => exact Nat.le_trans op.level_le (by decide)
  | unary _ op =>
      rw [Expr.level]
      split <;> decide
  | _ => exact Nat.le_of_ble_eq_true rfl

mutual

/-- The tokens of an expression are parsed as the expression at its level of the table. -/
theorem Expr.parses_tokens {symbols : SymbolTable} : (expr : Expr) → expr.Printable symbols →
    Parses symbols expr.level expr.tokens expr.depth expr
  | .assign _ op target value, ⟨place, printable, printableValue⟩ => by
      have first := (target.parses_tokens printable).enclosed 14 target.level_le (by decide)
      have second := (value.parses_tokens printableValue).of_le (Nat.zero_le _) value.level_le
      rw [Expr.tokens, Expr.depth]
      exact parses_assign place first second
  | .conditional _ test yes no, ⟨printable, printableYes, printableNo⟩ => by
      have first := (test.parses_tokens printable).enclosed 2 test.level_le (by decide)
      have second := (yes.parses_tokens printableYes).of_le (Nat.zero_le _) yes.level_le
      have third := (no.parses_tokens printableNo).of_le (Nat.zero_le _) no.level_le
      rw [Expr.tokens, Expr.depth]
      exact parses_conditional first second third
  | .binary _ op left right, ⟨printable, printableRight⟩ => by
      have tight := op.level_le
      have first := (left.parses_tokens printable).enclosed op.level left.level_le (by omega)
      have second := (right.parses_tokens printableRight).enclosed (op.level + 1) right.level_le
        (by omega)
      rw [Expr.tokens, Expr.depth]
      exact parses_binary first second
  | .unary _ op operand, ⟨place, printable⟩ => by
      have inner := operand.parses_tokens printable
      rw [Expr.tokens, Expr.depth, Expr.level]
      cases behind : op.follows with
      | true =>
          have writes : op.writes = true := by
            cases op <;> first | rfl | contradiction
          exact parses_step behind (place writes) (inner.enclosed 14 operand.level_le (by decide))
      | false => exact parses_prefix behind place (inner.enclosed 13 operand.level_le (by decide))
  | .literal _ value, printable => by
      rw [Expr.tokens, Expr.depth]
      exact (parses_literal printable).looser (by decide)
  | .variable _ scope name indices, ⟨printable, printableIndices⟩ => by
      rw [Expr.tokens, Expr.depth]
      exact (parses_variable printable (Expr.allParse indices printableIndices)).looser (by decide)
  | .slot _ owner field indices, ⟨printable, named, printableIndices⟩ => by
      have first := (owner.parses_tokens printable).enclosed 14 owner.level_le (by decide)
      rw [Expr.tokens, Expr.depth]
      exact parses_slot named (Expr.allParse indices printableIndices) first
  | .call _ callee arguments, ⟨printable, printableArguments⟩ => by
      rw [Expr.tokens, Expr.depth]
      exact (parses_call printable (Expr.allParse arguments printableArguments)).looser (by decide)
  | .send _ owner method arguments, ⟨printable, named, printableArguments⟩ => by
      have first := (owner.parses_tokens printable).enclosed 14 owner.level_le (by decide)
      rw [Expr.tokens, Expr.depth]
      exact parses_send named (Expr.allParse arguments printableArguments) first
  | .object _, printable => printable.elim
  | .detag _ operand, printable => by
      have inner := (operand.parses_tokens printable).of_le (Nat.zero_le _) operand.level_le
      rw [Expr.tokens, Expr.depth]
      exact (parses_detag inner).looser (by decide)

theorem Expr.allParse {symbols : SymbolTable} : (exprs : List Expr) →
    Expr.AllPrintable symbols exprs → AllParse symbols exprs
  | [], _ => fun _ member => absurd member List.not_mem_nil
  | expr :: exprs, ⟨printable, others⟩ =>
    List.forall_mem_cons.mpr
      ⟨(expr.parses_tokens printable).of_le (Nat.zero_le _) expr.level_le,
        Expr.allParse exprs others⟩

end

end Trees

section Statements

namespace Parse

variable {symbols : SymbolTable} {depth bound : Nat} {keys rest : List TokenKey} {expr : Expr}

/-- The result of reading an expression as a statement. -/
def IsStatementOf (expr : Expr) (stmt : Stmt) : Prop :=
  ∃ mark value, stmt = .expression mark value ∧ value.unmarked = expr.unmarked

/-- An expression with a semicolon behind it is a statement. -/
theorem Parses.reads_finish (parses : Parses symbols 0 keys depth expr)
    (enough : 2 * (keys.length + 1 + rest.length) + 1 ≤ bound) :
    Reads symbols (depth + 1) (keys ++ signToken .semicolon :: rest)
      (parser bound .expression >>= finishExpression) rest (IsStatementOf expr) := by
  have ends : Ends 0 (signToken .semicolon :: rest) := ends_cons (Nat.le_refl 0)
  apply Reads.bind (parses.reads_expression ends (by rw [List.length_cons]; omega))
  intro value same
  apply Reads.bind (reads_expect .semicolon)
  intro _ _
  apply Reads.bind (reads_markStmt _)
  intro mark _
  exact .pure ⟨mark, value, rfl, same⟩

/-- A word that is not reserved starts no other statement than an expression. -/
theorem wordStmt_of_free {inner : Parser} {keyword : String} (free : keyword ∉ reservedWords) :
    wordStmt bound inner keyword = inner .expression >>= finishExpression := by
  unfold wordStmt
  split
  all_goals first | exact absurd free (by decide) | rfl

/-- An expression with a semicolon behind it is read as a statement. -/
theorem Parses.reads_statement (parses : Parses symbols 0 keys depth expr)
    (enough : 2 * (keys.length + 1 + rest.length) + 2 ≤ bound) :
    Reads symbols (depth + 2) (keys ++ signToken .semicolon :: rest) (parser bound .statement) rest
      (IsStatementOf expr) := by
  obtain ⟨bound, rfl⟩ := Nat.exists_eq_succ_of_ne_zero (Nat.ne_of_gt (Nat.zero_lt_of_lt enough))
  apply Reads.nested
  have fits : 2 * (keys.length + 1 + rest.length) + 1 ≤ bound := Nat.le_of_succ_le_succ enough
  have finish := parses.reads_finish fits
  obtain ⟨key, more, rfl, opens⟩ := parses.opens
  obtain ⟨kind, text⟩ := key
  apply Reads.bind reads_nextKind?
  intro found same
  rw [same]
  cases kind with
  | punct punct =>
      have opens : punct = .openParen ∨ (prefixOf? punct).isSome = true := opens
      cases punct
      case openCurly => exact absurd opens (by decide)
      case semicolon => exact absurd opens (by decide)
      all_goals exact finish
  | identifier =>
      apply Reads.bind reads_nextWord?
      intro word spelled
      rw [spelled]
      dsimp only
      rw [wordStmt_of_free opens]
      exact finish
  | _ => exact finish

/-- At the root of a script a round reads the statement of an expression, which opens two levels
around it. -/
theorem Parses.reads_rootRound (parses : Parses symbols 0 keys depth expr)
    (enough : 2 * (keys.length + 1 + rest.length) + 2 ≤ bound) :
    Reads symbols (depth + 2) (keys ++ signToken .semicolon :: rest) (rootRound bound []) rest
      fun next => ∃ state, next = .again state ∧ ∃ stmt, state = [stmt] ∧
        IsStatementOf expr stmt := by
  have reads := parses.reads_statement enough
  obtain ⟨key, more, rfl, -⟩ := parses.opens
  apply Reads.peek
  intro _
  apply Reads.bind reads
  intro stmt holds
  exact .pure ⟨[stmt], rfl, stmt, rfl, holds⟩

/-- An expression with a semicolon behind it is read as a script of one statement. -/
theorem Parses.reads_root (parses : Parses symbols 0 keys depth expr)
    (enough : 2 * (keys.length + 1) + 2 ≤ bound) :
    Reads symbols (depth + 2) (keys ++ [signToken .semicolon]) (root bound) []
      fun statements => ∃ stmt, statements = [stmt] ∧ IsStatementOf expr stmt := by
  apply reads_repeatRounds
  intro exhausted
  have fits : 2 * (keys.length + 1 + ([] : List TokenKey).length) + 2 ≤ bound := enough
  have round := parses.reads_rootRound fits
  obtain ⟨more, rfl⟩ := Nat.exists_eq_add_of_le' (Nat.le_trans (Nat.le_add_left 2 _) enough)
  apply reads_rounds_again round
  intro statements reached
  apply reads_rounds_done
  apply Reads.peek_nil
  obtain ⟨stmt, rfl, holds⟩ := reached
  exact .pure ⟨[stmt], rfl, stmt, rfl, holds⟩

/-- The tokens of an expression as a statement are read as it if they are not nested too
deep. -/
theorem Parses.runRoot {tokens : List Token} {limit : Nat}
    (parses : Parses symbols 0 keys depth expr)
    (written : significant tokens = keys ++ [signToken .semicolon])
    (shallow : depth + 2 ≤ limit) :
    ∃ stmt final, Parse.runRoot (some limit) symbols tokens = .ok [stmt] final ∧
      IsStatementOf expr stmt := by
  have enough := enough_stepsFor tokens
  rw [written, List.length_append, List.length_singleton] at enough
  have stands : Stands symbols (depth + 2) (keys ++ [signToken .semicolon])
      (start (some limit) symbols tokens) := by
    refine ⟨written, .refl symbols, fun other same => ?_⟩
    obtain rfl : limit = other := Option.some.inj same
    exact Nat.le_trans (Nat.le_of_eq (Nat.zero_add _)) shallow
  obtain ⟨statements, final, ran, -, -, -, stmt, rfl, holds⟩ := parses.reads_root enough _ stands
  exact ⟨stmt, final, ran, holds⟩

end Parse

end Statements

section Texts

open Token

theorem gap_space : Gap (Utf8.encode " ") :=
  ⟨.space rfl .nil, rfl, rfl, paired_of_not_mem (by decide)⟩

/-- Texts with one space between neighbours are spaced. -/
theorem spaced_intercalate (texts : List (List UInt8)) :
    Spaced texts ((Utf8.encode " ").intercalate texts) := by
  induction texts with
  | nil => exact .nil
  | cons text texts ih =>
      cases texts with
      | nil =>
          have alone : (Utf8.encode " ").intercalate [text] = text := by
            simp only [List.intercalate, List.intersperse_singleton, List.flatten_cons,
              List.flatten_nil, List.append_nil]
          rw [alone]
          exact .single text
      | cons next texts =>
          rw [intercalate_cons_cons]
          exact .gap gap_space ih

theorem Inked.balanced {row : List TokenKey} (inked : Inked row) : Balanced row := by
  have level (depth : Nat) : depthAfter? depth row = some depth := by
    induction row with
    | nil => rfl
    | cons key row ih =>
        obtain ⟨first, others⟩ := List.forall_mem_cons.mp inked
        unfold depthAfter?
        rw [List.foldlM_cons, first.level]
        exact ih others
  exact level 0

/-- The text of an expression is scanned into its tokens. -/
theorem Expr.scan_statementText {symbols : SymbolTable} {expr : Expr}
    (printable : expr.Printable symbols) :
    ∃ tokens, scan expr.statementText = .ok tokens ∧
      significant tokens = expr.tokens ++ [signToken .semicolon] := by
  have semicolon : Written (signToken .semicolon) := written_sign (by decide) (by decide)
  have inked := (expr.inked_tokens printable).append (inked_singleton semicolon)
  exact scan_spaced (spaced_intercalate _)
    (fun key member => ⟨(inked key member).solid, (inked key member).noReturn⟩) inked.balanced

/-- The text of an expression compiles to a script of one statement that is the expression,
up to marks, if the text is not nested too deep. -/
theorem compileSource_statementText (filename : String) {symbols : SymbolTable} {expr : Expr}
    (printable : expr.Printable symbols) (shallow : expr.depth + 2 ≤ nestingLimit) :
    ∃ script mark value,
      (compileSource ⟨filename, expr.statementText⟩ symbols).1 = .ok script ∧
        script.root = [.expression mark value] ∧ value.unmarked = expr.unmarked := by
  obtain ⟨tokens, scanned, written⟩ := Expr.scan_statementText printable
  have parses := (expr.parses_tokens printable).of_le (Nat.zero_le _) expr.level_le
  obtain ⟨stmt, final, ran, mark, value, rfl, same⟩ := parses.runRoot written shallow
  have compiled : (compileSource ⟨filename, expr.statementText⟩ symbols).1 =
      .ok ⟨filename, [.expression mark value], final.counts⟩ := by
    unfold compileSource
    dsimp only
    rw [scanned]
    dsimp only
    rw [ran]
  exact ⟨_, mark, value, compiled, rfl, same⟩

/-- A product with a sum in parentheses, assigned to a variable. -/
theorem compileSource_statementText_product :
    let mark : Mark := ⟨0, .blank⟩
    let symbols := ((SymbolTable.empty 0).internAll ["a", "Open"]).2
    let variable_ := Expr.variable mark .ofCall ⟨0, false, "a"⟩ []
    let sum := Expr.binary mark .add variable_ (.literal mark (.int 2))
    let call := Expr.call mark (.global ⟨0, false, "Open"⟩) [.literal mark (.text ⟨0, true, "x"⟩)]
    let expr := Expr.assign mark .set variable_ (.binary mark .multiply sum (.unary mark .negate call))
    expr.statementText = Utf8.encode "%a = ( %a + 2 ) * - Open ( \"x\" ) ;" ∧
      expr.Printable symbols ∧ expr.depth + 2 ≤ nestingLimit ∧
        ∃ script mark value, (compileSource ⟨"a.cs", expr.statementText⟩ symbols).1 = .ok script ∧
          script.root = [.expression mark value] ∧ value.unmarked = expr.unmarked := by
  intro mark symbols variable_ sum call expr
  have a : symbols.Named ⟨0, false, "a"⟩ :=
    ⟨rfl, _, _, rfl, rfl, List.all_eq_true.mp rfl⟩
  have f : symbols.Callable ⟨0, false, "Open"⟩ :=
    ⟨⟨rfl, _, _, rfl, rfl, List.all_eq_true.mp rfl⟩, by decide +kernel⟩
  have printable : expr.Printable symbols := by
    have arguments : Expr.AllPrintable symbols [.literal mark (.text ⟨0, true, "x"⟩)] :=
      ⟨rfl, trivial⟩
    have two : (0 : Int64) ≤ 2 := by decide
    exact ⟨rfl, ⟨a, trivial⟩, ⟨⟨a, trivial⟩, two⟩, fun writes => absurd writes (by decide),
      ⟨f, by decide⟩, arguments⟩
  have shallow : expr.depth + 2 ≤ nestingLimit := by decide +kernel
  exact ⟨by decide +kernel, printable, shallow,
    compileSource_statementText "a.cs" printable shallow⟩

end Texts

end ScriptConsole
