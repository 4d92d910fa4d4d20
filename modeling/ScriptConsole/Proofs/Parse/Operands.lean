import ScriptConsole.Proofs.Parse.Levels
import ScriptConsole.Proofs.Token.Spelling

/-! # Operands and what stands behind them

Constants, variables, calls and texts of tags are parsed as operands from their tokens, and
fields, calls of methods and steps behind an operand go on with it.
-/

namespace ScriptConsole.Parse

variable {symbols : SymbolTable} {level depth bound : Nat} {keys rest : List TokenKey}
  {mark : Mark} {expr : Expr}

section Lists

variable {exprs : List Expr} {close : Punct}

theorem rows_eq_map (exprs : List Expr) : Expr.rows exprs = exprs.map Expr.tokens := by
  induction exprs with
  | nil => rfl
  | cons expr exprs ih => rw [Expr.rows, ih, List.map_cons]

theorem depth_lt_depthOfAll (member : expr ∈ exprs) : expr.depth < Expr.depthOfAll exprs := by
  induction exprs with
  | nil => exact absurd member List.not_mem_nil
  | cons first exprs ih =>
      rw [Expr.depthOfAll]
      rcases List.mem_cons.mp member with rfl | later
      · omega
      · have deeper := ih later
        omega

/-- There are no more rows than tokens in them and between them, and one. -/
theorem length_le_separated (rows : List (List TokenKey)) :
    rows.length ≤ (separated rows).length + 1 := by
  induction rows with
  | nil => exact Nat.zero_le 1
  | cons row rows ih =>
      cases rows with
      | nil => exact Nat.le_add_left 1 _
      | cons next rows =>
          rw [separated, List.length_append]
          simp only [List.length_cons] at ih ⊢
          omega

/-- An expression is read as an item of a list. -/
theorem Parses.itemReads {size deeper : Nat} (parses : Parses symbols 0 keys depth expr)
    (closes : close = .closeParen ∨ close = .closeSquare) (enough : 2 * size + 1 ≤ bound)
    (within : depth < deeper) :
    ItemReads symbols deeper size (parser bound .expression) close keys
      fun value => Expr.unmarked value = expr.unmarked where
  starts := by
    obtain ⟨key, more, rfl, opens⟩ := parses.opens
    refine ⟨key, more, rfl, fun same => ?_⟩
    unfold Opens at opens
    rw [same] at opens
    have opens : close = .openParen ∨ (prefixOf? close).isSome = true := opens
    rcases closes with rfl | rfl
    · exact absurd opens (by decide)
    · exact absurd opens (by decide)
  reads {rest} apart fits := by
    have ends : Ends 0 rest := by
      obtain ⟨keys, rfl | rfl⟩ := apart
      · rcases closes with rfl | rfl
        · exact ends_cons (Nat.le_refl 0)
        · exact ends_cons (Nat.le_refl 0)
      · exact ends_cons (Nat.le_refl 0)
    exact (parses.reads_expression ends (by omega)).deeper within

/-- Each of several expressions is parsed from its tokens. -/
def AllParse (symbols : SymbolTable) (exprs : List Expr) : Prop :=
  ∀ expr ∈ exprs, Parses symbols 0 expr.tokens expr.depth expr

theorem AllParse.itemReads {size : Nat} (all : AllParse symbols exprs)
    (closes : close = .closeParen ∨ close = .closeSquare) (enough : 2 * size + 1 ≤ bound) :
    ∀ expr ∈ exprs, ItemReads symbols (Expr.depthOfAll exprs) size (parser bound .expression)
      close expr.tokens fun value => Expr.unmarked value = expr.unmarked :=
  fun expr member => (all expr member).itemReads closes enough (depth_lt_depthOfAll member)

/-- Arguments are read back from their tokens in parentheses, separated by commas. -/
theorem reads_arguments (all : AllParse symbols exprs)
    (enough : 2 * ((listed (Expr.rows exprs)).length + rest.length) ≤ bound) :
    Reads symbols (Expr.depthOfAll exprs) (listed (Expr.rows exprs) ++ rest)
      (arguments bound (parser bound)) rest
      fun values => values.map Expr.unmarked = exprs.map Expr.unmarked := by
  have row : listed (Expr.rows exprs) ++ rest = signToken .openParen ::
      (separated (exprs.map Expr.tokens) ++ signToken .closeParen :: rest) := by
    simp only [listed, rows_eq_map, List.cons_append, List.append_assoc, List.nil_append]
  have short := length_le_separated (exprs.map Expr.tokens)
  rw [← List.length_append, row, List.length_cons] at enough
  rw [List.length_map] at short
  rw [row]
  apply reads_list (by decide) (all.itemReads (.inl rfl) (by omega)) (Nat.le_refl _)
  rw [List.length_append, List.length_cons] at enough
  omega

/-- Indices are read back from their tokens in brackets. Where there are none, no bracket may
follow. -/
theorem reads_indices (all : AllParse symbols exprs) (ends : Ends 15 rest)
    (enough : 2 * ((bracketed (Expr.rows exprs)).length + rest.length) ≤ bound) :
    Reads symbols (Expr.depthOfAll exprs) (bracketed (Expr.rows exprs) ++ rest)
      (indices bound (parser bound)) rest
      fun values => values.map Expr.unmarked = exprs.map Expr.unmarked := by
  apply Reads.bind reads_here
  intro _ _
  cases exprs with
  | nil =>
      apply Reads.bind (reads_list?_none (ends.not_next (by decide)))
      intro values none
      rw [none]
      exact .pure rfl
  | cons expr exprs =>
      have row : bracketed (Expr.rows (expr :: exprs)) ++ rest = signToken .openSquare ::
          (separated ((expr :: exprs).map Expr.tokens) ++ signToken .closeSquare :: rest) := by
        simp only [bracketed, Expr.rows, rows_eq_map, List.map_cons, List.cons_append,
          List.append_assoc, List.nil_append]
      have short := length_le_separated ((expr :: exprs).map Expr.tokens)
      rw [← List.length_append, row, List.length_cons] at enough
      rw [List.length_map] at short
      rw [row]
      apply Reads.bind
        (reads_list? (by decide) (all.itemReads (.inr rfl) (by omega)) (Nat.le_refl _) _)
      · intro found here
        obtain ⟨values, rfl, same⟩ := here
        cases values with
        | nil => contradiction
        | cons value values => exact .pure same
      · rw [List.length_append, List.length_cons] at enough
        omega

end Lists

section Constants

theorem reads_number {value : Int64} (positive : 0 ≤ value) :
    Reads symbols depth (Literal.token (.int value) :: keys) number keys
      fun found => found.1 = .int value := by
  apply Reads.peek
  intro span
  apply Reads.bind reads_pass
  intro _ _
  dsimp only [Literal.token]
  rw [Token.numberValue_digits value.toNatClampNeg_lt, Int64.ofNat_toNatClampNeg value positive]
  exact .pure rfl

/-- A string that is written in its quotes is read as the constant of its text. -/
theorem reads_string {kind : TokenKind} {quote : Char} {build : Symbol → Literal}
    {constant : Symbol} (known : constant = symbols.constant constant.text)
    (written : kind = .string ∧ quote = '"' ∧ build = Literal.text ∨
      kind = .tagged ∧ quote = '\'' ∧ build = Literal.tagged) :
    Reads symbols depth ((kind, quoted quote constant.text) :: keys) string keys
      fun found => found.1 = build constant := by
  apply Reads.peek
  intro span
  rcases written with ⟨rfl, rfl, rfl⟩ | ⟨rfl, rfl, rfl⟩
  · apply Reads.bind reads_pass
    intro _ _
    rw [Token.stringValue_quoted (.inl rfl)]
    apply Reads.bind (reads_constant constant.text)
    intro symbol same
    apply Reads.pure
    rw [same, ← known]
  · apply Reads.bind reads_pass
    intro _ _
    rw [Token.stringValue_quoted (.inr rfl)]
    apply Reads.bind (reads_constant constant.text)
    intro symbol same
    apply Reads.pure
    rw [same, ← known]

/-- What is read of a constant is marked. -/
theorem reads_marked {value : Literal} {parser : Parse (Literal × Span)} {before : List TokenKey}
    (reads : Reads symbols depth before parser keys fun found => found.1 = value) :
    Reads symbols depth before
      (do
        let (value, span) ← parser
        return .literal (← markExpr span) value : Parse Expr) keys
      fun found => found.unmarked = (Expr.literal mark value).unmarked := by
  apply Reads.bind reads
  intro found same
  apply Reads.bind (reads_markExpr found.2)
  intro _ _
  apply Reads.pure
  rw [same]
  rfl

/-- A constant is an operand. -/
theorem parses_literal {value : Literal} (printable : value.Printable symbols) :
    Parses symbols 15 [value.token] 0 (.literal mark value) := by
  apply ReadsAt.parses
  · cases value <;> exact trivial
  · intro punct kind
    cases value <;> contradiction
  · intro bound rest ends enough
    apply Reads.bind reads_nextKind?
    intro kind same
    rw [same]
    cases value with
    | int value => exact reads_marked (reads_number printable)
    | float value => exact printable.elim
    | text constant => exact reads_marked (reads_string printable (.inl ⟨rfl, rfl, rfl⟩))
    | tagged constant => exact reads_marked (reads_string printable (.inr ⟨rfl, rfl, rfl⟩))

end Constants

section Variables

/-- The name of a variable is read back with its scope, which is in its first sign. -/
theorem reads_variableName {scope : Scope} {name : Symbol}
    (printable : scope.Printable symbols name) :
    Reads symbols depth (scope.token name :: keys) variableName keys
      fun found => found.1 = name.text ∧ found.2.1 = scope := by
  apply Reads.peek
  intro span
  cases scope with
  | ofCall =>
      apply Reads.bind reads_pass
      intro _ _
      exact .pure ⟨Token.ofAscii_identifier printable.2, rfl⟩
  | ofConsole =>
      apply Reads.bind reads_pass
      intro _ _
      exact .pure ⟨Token.ofAscii_globalName printable.2, rfl⟩

theorem knows_of_printable {scope : Scope} {name : Symbol}
    (printable : scope.Printable symbols name) : symbols.Knows name := by
  cases scope with
  | ofCall => exact printable.1
  | ofConsole => exact printable.1

/-- A variable is an operand. -/
theorem parses_variable {scope : Scope} {name : Symbol} {indices : List Expr}
    (printable : scope.Printable symbols name) (all : AllParse symbols indices) :
    Parses symbols 15 (scope.token name :: bracketed (Expr.rows indices))
      (Expr.depthOfAll indices) (.variable mark scope name indices) := by
  have kinds : (scope.token name).1 = .localName ∨ (scope.token name).1 = .globalName := by
    cases scope with
    | ofCall => exact .inl rfl
    | ofConsole => exact .inr rfl
  apply ReadsAt.parses
  · unfold Opens
    rcases kinds with kind | kind
    · rw [kind]
      trivial
    · rw [kind]
      trivial
  · intro punct same
    rw [same] at kinds
    rcases kinds with kind | kind <;> contradiction
  · intro bound rest ends enough
    rw [List.length_cons] at enough
    have reads : Reads symbols (Expr.depthOfAll indices)
        (scope.token name :: (bracketed (Expr.rows indices) ++ rest))
        (do
          let found ← variableName
          let symbol ← intern found.1
          let exprs ← Parse.indices bound (parser bound)
          return .variable (← markExpr found.2.2) found.2.1 symbol exprs : Parse Expr) rest
        fun value => value.unmarked = (Expr.variable mark scope name indices).unmarked := by
      apply Reads.bind (reads_variableName printable)
      intro found same
      obtain ⟨text, found, span⟩ := found
      obtain ⟨rfl, rfl⟩ : text = name.text ∧ found = scope := same
      apply Reads.bind (reads_intern_known (knows_of_printable printable))
      intro symbol same
      apply Reads.bind (reads_indices all ends (by omega))
      intro values sameIndices
      apply Reads.bind (reads_markExpr span)
      intro mark _
      apply Reads.pure
      rw [same]
      exact Expr.unmarked_variable_congr sameIndices
    apply Reads.bind reads_nextKind?
    intro kind same
    rw [same]
    cases scope with
    | ofCall => exact reads
    | ofConsole => exact reads

end Variables

section Calls

variable {exprs : List Expr} {name : Symbol} {result : Expr → Prop}

/-- A name that is not reserved is read as what starts with a name. -/
theorem reads_wordExpr {text : List UInt8} (free : Utf8.ofAscii text ∉ reservedWords)
    (plain : Utf8.ofAscii text ≠ "detag" ∨
      keys.head?.map Prod.fst ≠ some (.punct .openParen))
    (reads : Reads symbols depth ((.identifier, text) :: keys) (namedExpr bound (parser bound)) rest
      result) :
    Reads symbols depth ((.identifier, text) :: keys) (wordExpr bound (parser bound)) rest
      result := by
  apply Reads.bind reads_nextWord?
  intro word same
  rw [same]
  split
  next reserved =>
    rw [Option.some.inj reserved] at free
    exact absurd free (by decide)
  next reserved =>
    rw [Option.some.inj reserved] at free
    exact absurd free (by decide)
  next reserved =>
    rw [Option.some.inj reserved] at free
    exact absurd free (by decide)
  next detag =>
    apply Reads.bind reads_secondKind?
    intro kind same
    have notCall := plain.resolve_left fun other => other (Option.some.inj detag)
    rw [← same] at notCall
    rw [if_neg notCall]
    exact reads
  next => exact reads

/-- What starts with a name is an operand. -/
theorem parses_named {text : List UInt8} (free : Utf8.ofAscii text ∉ reservedWords)
    (plain : Utf8.ofAscii text ≠ "detag" ∨
      ∃ key more, keys = key :: more ∧ key.1 ≠ .punct .openParen)
    (reads : ∀ (bound : Nat) (rest : List TokenKey),
      2 * (keys.length + 1 + rest.length) ≤ bound →
        Reads symbols depth ((.identifier, text) :: (keys ++ rest)) (namedExpr bound (parser bound))
          rest fun value => value.unmarked = expr.unmarked) :
    Parses symbols 15 ((.identifier, text) :: keys) depth expr := by
  apply ReadsAt.parses
  · exact free
  · intro punct kind
    contradiction
  · intro bound rest ends enough
    apply Reads.bind reads_nextKind?
    intro kind same
    rw [same]
    apply reads_wordExpr free _ (reads bound rest enough)
    rcases plain with other | ⟨key, more, rfl, notParen⟩
    · exact .inl other
    · exact .inr fun same => notParen (Option.some.inj same)

theorem ofAscii_callable (callable : symbols.Callable name) :
    Utf8.ofAscii (Utf8.encode name.text) = name.text ∧
      Utf8.ofAscii (Utf8.encode name.text) ∉ reservedWords := by
  have back := Token.ofAscii_identifier callable.1.2
  exact ⟨back, back.symm ▸ callable.2⟩

/-- The name of a function is read, and its symbol found. -/
theorem reads_functionName (callable : symbols.Callable name) :
    Reads symbols depth (wordToken name.text :: keys) Parse.name keys
      fun found => found.1 = name.text := by
  obtain ⟨back, free⟩ := ofAscii_callable callable
  apply (reads_name free).imp
  intro found same
  exact same.trans back

/-- A call that names a namespace. -/
theorem reads_qualified {space : String} {callee : Callee}
    (free : Utf8.ofAscii (Utf8.encode space) ∉ reservedWords)
    (back : Utf8.ofAscii (Utf8.encode space) = space) (callable : symbols.Callable name)
    (called : ∀ found, (∀ symbol, symbols.find? space = some symbol → found = symbol) →
      (if Text.sameFolded space "parent" then .parent name else .qualified found name) = callee)
    (all : AllParse symbols exprs)
    (enough : 2 * ((listed (Expr.rows exprs)).length + rest.length) ≤ bound) :
    Reads symbols (Expr.depthOfAll exprs)
      (wordToken space :: signToken .colonColon :: wordToken name.text ::
        (listed (Expr.rows exprs) ++ rest))
      (namedExpr bound (parser bound)) rest
      fun value => value.unmarked = (Expr.call mark callee exprs).unmarked := by
  apply Reads.bind (reads_name free)
  intro word spelled
  rw [back] at spelled
  apply Reads.bind (reads_accept .colonColon)
  intro found here
  rw [here, spelled]
  apply Reads.bind (reads_intern space)
  intro symbol known
  apply Reads.bind (reads_functionName callable)
  intro function spelled
  dsimp only
  rw [spelled]
  apply Reads.bind (reads_intern_known callable.1.1)
  intro symbol' same
  apply Reads.bind (reads_arguments all enough)
  intro values sameArguments
  apply Reads.bind (reads_markExpr _)
  intro _ _
  apply Reads.pure
  rw [same, called symbol known]
  exact Expr.unmarked_call_congr sameArguments

/-- A call that names a function alone. -/
theorem reads_global (callable : symbols.Callable name) (all : AllParse symbols exprs)
    (enough : 2 * ((listed (Expr.rows exprs)).length + rest.length) ≤ bound) :
    Reads symbols (Expr.depthOfAll exprs)
      (wordToken name.text :: (listed (Expr.rows exprs) ++ rest))
      (namedExpr bound (parser bound)) rest
      fun value => value.unmarked = (Expr.call mark (.global name) exprs).unmarked := by
  apply Reads.bind (reads_functionName callable)
  intro word spelled
  have notColons : (listed (Expr.rows exprs) ++ rest).head?.map Prod.fst ≠
      some (.punct .colonColon) :=
    fun same => absurd (TokenKind.punct.inj (Option.some.inj same)) (by decide)
  apply Reads.bind (reads_accept_other notColons)
  intro found none
  rw [none]
  apply Reads.bind (reads_nextIs .openParen)
  intro found here
  have here : found = true := here
  rw [here, spelled]
  apply Reads.bind (reads_intern_known callable.1.1)
  intro symbol same
  apply Reads.bind (reads_arguments all enough)
  intro values sameArguments
  apply Reads.bind (reads_markExpr _)
  intro _ _
  apply Reads.pure
  rw [same]
  exact Expr.unmarked_call_congr sameArguments

/-- A call is an operand. -/
theorem parses_call {callee : Callee} (printable : callee.Printable symbols)
    (all : AllParse symbols exprs) :
    Parses symbols 15 (callee.tokens ++ listed (Expr.rows exprs)) (Expr.depthOfAll exprs)
      (.call mark callee exprs) := by
  cases callee with
  | global name =>
      obtain ⟨back, free⟩ := ofAscii_callable printable.1
      apply parses_named free (.inl (back.symm ▸ printable.2))
      intro bound rest enough
      have enough : 2 * ((listed (Expr.rows exprs)).length + 1 + rest.length) ≤ bound := enough
      exact reads_global printable.1 all (by omega)
  | qualified space name =>
      obtain ⟨known, other, callable⟩ := printable
      obtain ⟨back, free⟩ := ofAscii_callable known
      apply parses_named free (.inr ⟨_, _, rfl, by decide⟩)
      intro bound rest enough
      have enough : 2 * ((listed (Expr.rows exprs)).length + 3 + rest.length) ≤ bound := enough
      apply reads_qualified free back callable _ all (by omega)
      intro found same
      rw [same space known.1.1, other]
      rfl
  | parent name =>
      apply parses_named (by decide) (.inr ⟨_, _, rfl, by decide⟩)
      intro bound rest enough
      have enough : 2 * ((listed (Expr.rows exprs)).length + 3 + rest.length) ≤ bound := enough
      apply reads_qualified (by decide) (by decide) printable _ all (by omega)
      intro found _
      exact if_pos (by decide)

/-- The text of a tag is an operand. -/
theorem parses_detag {operand : Expr} (parses : Parses symbols 0 keys depth operand) :
    Parses symbols 15 (wordToken "detag" :: listed [keys]) (depth + 1) (.detag mark operand) := by
  have free : Utf8.ofAscii (Utf8.encode "detag") ∉ reservedWords := by decide
  apply ReadsAt.parses
  · exact free
  · intro punct kind
    contradiction
  · intro bound rest ends enough
    rw [List.length_cons] at enough
    apply Reads.bind reads_nextKind?
    intro kind same
    rw [same]
    apply Reads.bind reads_nextWord?
    intro word same
    have word_eq : word = some "detag" := same.trans (by decide)
    rw [word_eq]
    apply Reads.bind reads_secondKind?
    intro kind same
    have call : kind = some (.punct .openParen) := same
    rw [if_pos call]
    apply Reads.bind (reads_word (by decide))
    intro span _
    apply Reads.bind (parses.reads_parenthesized (by omega))
    intro value same
    apply Reads.bind (reads_markExpr span)
    intro _ _
    apply Reads.pure
    exact congrArg (Expr.detag _) same

end Calls

section Suffixes

variable {owner : Expr} {name : Symbol} {exprs : List Expr}

/-- A step of a place is parsed behind it. -/
theorem parses_step {op : UnaryOp} (behind : op.follows = true) (place : owner.isPlace = true)
    (parses : Parses symbols 14 keys depth owner) :
    Parses symbols 14 (keys ++ [signToken op.sign]) depth (.unary mark op owner) := by
  have held (rest : List TokenKey) : Ends 15 ([signToken op.sign] ++ rest) := by
    apply ends_cons
    cases op <;> first | exact Nat.le_refl 15 | contradiction
  have round (bound : Nat) (rest : List TokenKey) (value : Expr)
      (same : value.unmarked = owner.unmarked) :
      Reads symbols 0 ([signToken op.sign] ++ rest) (suffixRound bound (parser bound) value) rest
        fun next => ∃ result, next = .again result ∧
          result.unmarked = (Expr.unary mark op owner).unmarked := by
    have step (span : Span) : Reads symbols 0 (signToken op.sign :: rest)
        (Round.again <$> stepAfter op value span : Parse (Round Expr Expr)) rest
        fun next => ∃ result, next = .again result ∧
          result.unmarked = (Expr.unary mark op owner).unmarked := by
      apply Reads.map
      apply Reads.bind reads_pass
      intro _ _
      rw [(Expr.isPlace_of_unmarked_eq same).trans place]
      apply Reads.bind (reads_markExpr span)
      intro _ _
      exact .pure ⟨_, rfl, congrArg (Expr.unary _ op) same⟩
    apply Reads.peek
    intro span
    cases op <;> first | exact step span | contradiction
  have grown := parses.goesOn (.inr rfl) (List.cons_ne_nil _ _) held
    fun bound rest value _ _ same => round bound rest value same
  rw [Nat.max_zero] at grown
  exact grown

/-- What is read behind the name of a member: arguments make a call of it, and indices may
stand behind a field. -/
def behindName (bound : Nat) (value : Expr) (symbol : Symbol) (span : Span) : Parse Expr := do
  if ← nextIs .openParen then
    let exprs ← arguments bound (parser bound)
    return .send (← markExpr span) value symbol exprs
  else
    let exprs ← indices bound (parser bound)
    return .slot (← markExpr span) value symbol exprs

/-- A member is parsed behind its object. -/
theorem parses_member {tail : List TokenKey} {more : Nat} {whole : Expr}
    (named : symbols.Named name) (parses : Parses symbols 14 keys depth owner)
    (reads : ∀ bound rest value span, Ends 15 rest → 2 * (tail.length + rest.length) ≤ bound →
      value.unmarked = owner.unmarked →
        Reads symbols more (tail ++ rest) (behindName bound value name span) rest
          fun result => result.unmarked = whole.unmarked) :
    Parses symbols 14 (keys ++ signToken .dot :: wordToken name.text :: tail) (max depth more)
      whole := by
  have held (rest : List TokenKey) :
      Ends 15 ((signToken .dot :: wordToken name.text :: tail) ++ rest) :=
    ends_cons (show 15 ≤ 15 from Nat.le_refl 15)
  apply parses.goesOn (.inr rfl) (List.cons_ne_nil _ _) held
  intro bound rest value ends enough same
  rw [List.length_cons, List.length_cons] at enough
  apply Reads.peek
  intro _
  apply Reads.map
  apply Reads.bind reads_pass
  intro _ _
  apply Reads.bind reads_anyWord
  intro word spelled
  obtain ⟨text, span⟩ := word
  obtain rfl : text = name.text := spelled.trans (Token.ofAscii_identifier named.2)
  apply Reads.bind (reads_intern_known named.1)
  intro symbol known
  rw [known]
  apply (reads bound rest value span ends (by omega) same).imp
  intro result same
  exact ⟨result, rfl, same⟩

/-- A field is parsed behind its object. -/
theorem parses_slot (named : symbols.Named name) (all : AllParse symbols exprs)
    (parses : Parses symbols 14 keys depth owner) :
    Parses symbols 14
      (keys ++ signToken .dot :: wordToken name.text :: bracketed (Expr.rows exprs))
      (max depth (Expr.depthOfAll exprs)) (.slot mark owner name exprs) := by
  apply parses_member named parses
  intro bound rest value span ends enough same
  have notCall : (bracketed (Expr.rows exprs) ++ rest).head?.map Prod.fst ≠
      some (.punct .openParen) := by
    cases exprs with
    | nil => exact ends.not_next (by decide)
    | cons expr exprs =>
        exact fun same => absurd (TokenKind.punct.inj (Option.some.inj same)) (by decide)
  apply Reads.bind (reads_nextIs .openParen)
  intro found here
  rw [decide_eq_false notCall] at here
  rw [here]
  apply Reads.bind (reads_indices all ends enough)
  intro values sameIndices
  apply Reads.bind (reads_markExpr span)
  intro _ _
  exact .pure (Expr.unmarked_slot_congr same sameIndices)

/-- A call of a method is parsed behind its object. -/
theorem parses_send (named : symbols.Named name) (all : AllParse symbols exprs)
    (parses : Parses symbols 14 keys depth owner) :
    Parses symbols 14
      (keys ++ signToken .dot :: wordToken name.text :: listed (Expr.rows exprs))
      (max depth (Expr.depthOfAll exprs)) (.send mark owner name exprs) := by
  apply parses_member named parses
  intro bound rest value span ends enough same
  apply Reads.bind (reads_nextIs .openParen)
  intro found here
  have here : found = true := here
  rw [here]
  apply Reads.bind (reads_arguments all enough)
  intro values sameArguments
  apply Reads.bind (reads_markExpr span)
  intro _ _
  exact .pure (Expr.unmarked_send_congr same sameArguments)

end Suffixes

end ScriptConsole.Parse
