import ScriptConsole.Parse.Script
import ScriptConsole.Proofs.Parse.Reads

/-! # The levels of the table of operators

A row of tokens is parsed at a level of the table if the parser of the level reads it as an
expression and leaves what no operator of the level or of a tighter one starts
(`ScriptConsole.Parse.Parses`). What is parsed at a level is parsed at every looser one.
-/

namespace ScriptConsole.Parse

section Table

/-- The parser of a level of the table. Level 15 is that of an operand alone. -/
def atLevel (bound : Nat) (inner : Parser) : Nat → Parse Expr
  | 0 => assignment bound inner
  | 1 => conditional bound inner
  | 14 => suffixed bound inner
  | 15 => primary bound inner
  | level => binary bound inner (binaryLevels.drop (level - 2))

/-- The binary operators of a level of the table. -/
def operatorsAt (level : Nat) : List (OperatorToken × BinaryOp) :=
  (binaryLevels[level - 2]?).getD []

/-- Whether expressions of a level are joined in a loop: by binary operators, or by what
follows an operand. -/
def IsLoop (level : Nat) : Prop :=
  2 ≤ level ∧ level ≤ 12 ∨ level = 14

/-- One round of the loop of a level. -/
def roundAt (bound : Nat) (inner : Parser) (level : Nat) (value : Expr) :
    Parse (Round Expr Expr) :=
  if level = 14 then suffixRound bound inner value
  else levelRound (atLevel bound inner (level + 1)) (operatorsAt level) value

theorem atLevel_loop {level : Nat} (loop : IsLoop level) (bound : Nat) (inner : Parser) :
    atLevel bound inner level = (do
      let first ← atLevel bound inner (level + 1)
      repeatRounds bound (roundAt bound inner level) first) := by
  have cases : level = 2 ∨ level = 3 ∨ level = 4 ∨ level = 5 ∨ level = 6 ∨ level = 7 ∨ level = 8 ∨
      level = 9 ∨ level = 10 ∨ level = 11 ∨ level = 12 ∨ level = 14 := by
    unfold IsLoop at loop
    omega
  rcases cases with rfl | rfl | rfl | rfl | rfl | rfl | rfl | rfl | rfl | rfl | rfl | rfl <;> rfl

/-- One more than the tightest level of the expressions that punctuation behind them goes on
with. An assignment goes on with a choice in its last branch. -/
def punctGrip : Punct → Nat
  | .equals | .plusEquals | .minusEquals | .starEquals | .slashEquals | .percentEquals
  | .andEquals | .orEquals | .caretEquals | .shiftLeftEquals | .shiftRightEquals
  | .question => 2
  | .orOr => 3
  | .andAnd => 4
  | .bar => 5
  | .caret => 6
  | .ampersand => 7
  | .equalEqual | .notEqual => 8
  | .openAngle | .closeAngle | .lessEquals | .greaterEquals => 9
  | .atSign | .dollarEquals | .notDollarEquals => 10
  | .shiftLeft | .shiftRight => 11
  | .plus | .minus => 12
  | .star | .slash | .percent => 13
  | .plusPlus | .minusMinus | .dot => 15
  | .openParen | .openSquare => 16
  | _ => 0

/-- One more than the tightest level of the expressions that a token goes on with. -/
def grip (key : TokenKey) : Nat :=
  match key.1 with
  | .punct punct => punctGrip punct
  | .identifier =>
    if key.2 = Utf8.encode "SPC" ∨ key.2 = Utf8.encode "TAB" ∨ key.2 = Utf8.encode "NL" then 10
    else 0
  | _ => 0

theorem grip_binary (op : BinaryOp) : grip op.token = op.level + 1 := by
  cases op <;> decide

theorem operatorOf?_token (op : BinaryOp) (span : Span) :
    operatorOf? (operatorsAt op.level) ⟨op.token.1, span, op.token.2⟩ = some op := by
  cases op <;> rfl

/-- The token that spells an operator. -/
def OperatorToken.key : OperatorToken → TokenKey
  | punct sign => signToken sign
  | word text => wordToken text

/-- A token that spells an operator binds as tightly as the operator. -/
theorem grip_of_matches {operator : OperatorToken} {token : Token}
    (spelled : operator.matches token = true) : grip token.key = grip operator.key := by
  obtain ⟨kind, span, text⟩ := token
  cases operator with
  | punct punct =>
      obtain rfl : kind = .punct punct := of_decide_eq_true spelled
      rfl
  | word word =>
      obtain ⟨isWord, same⟩ := Bool.and_eq_true_iff.mp spelled
      obtain rfl : kind = .identifier := of_decide_eq_true isWord
      obtain rfl : text = Utf8.encode word := of_decide_eq_true same
      rfl

theorem grip_operatorsAt : ∀ level < 13, 2 ≤ level →
    ∀ entry ∈ operatorsAt level, grip entry.1.key = level + 1 := by
  decide +kernel

/-- A token that spells an operator of a level goes on with expressions of the level. -/
theorem grip_of_operatorOf? {level : Nat} {op : BinaryOp} {token : Token} (low : 2 ≤ level)
    (spelled : operatorOf? (operatorsAt level) token = some op) :
    grip token.key = level + 1 := by
  obtain ⟨entry, found, -⟩ := Option.map_eq_some_iff.mp spelled
  have member := List.mem_of_find?_eq_some found
  have high : level < 13 := by
    refine Nat.lt_of_not_le fun high => ?_
    have none : operatorsAt level = [] := by
      unfold operatorsAt
      rw [List.getElem?_eq_none (Nat.le_sub_of_add_le (by exact high))]
      rfl
    rw [none] at member
    contradiction
  have spelled := List.find?_some found
  exact (grip_of_matches spelled).trans (grip_operatorsAt level high low entry member)

theorem assignOf?_sign (op : AssignOp) : assignOf? op.sign = some op := by
  cases op <;> rfl

theorem grip_assign (op : AssignOp) : grip (signToken op.sign) = 2 := by
  cases op <;> rfl

theorem grip_of_assignOf? {punct : Punct} {op : AssignOp} (spelled : assignOf? punct = some op)
    (text : List UInt8) : grip (.punct punct, text) = 2 := by
  cases punct <;> first | rfl | contradiction

/-- No token goes on with the loosest expressions alone: the sign of an assignment goes on with the
last branch of a choice as well. -/
theorem grip_ne_one (key : TokenKey) : grip key ≠ 1 := by
  obtain ⟨kind, text⟩ := key
  cases kind with
  | punct punct =>
      change punctGrip punct ≠ 1
      cases punct <;> decide
  | identifier =>
      unfold grip
      dsimp only
      split <;> decide
  | _ => exact Nat.zero_ne_one

theorem prefixOf?_sign {op : UnaryOp} (inFront : op.follows = false) :
    prefixOf? op.sign = some op := by
  cases op <;> first | rfl | contradiction

end Table

section Parsing

variable {symbols : SymbolTable} {level depth : Nat} {keys : List TokenKey} {expr : Expr}

/-- No operator of a level or of a tighter one is next. -/
def Ends (level : Nat) (rest : List TokenKey) : Prop :=
  ∀ key, rest.head? = some key → grip key ≤ level

theorem Ends.looser {tighter : Nat} {rest : List TokenKey} (ends : Ends level rest)
    (looser : level ≤ tighter) : Ends tighter rest :=
  fun key next => Nat.le_trans (ends key next) looser

/-- What ends a choice ends an assignment, too. -/
theorem Ends.loosest {rest : List TokenKey} (ends : Ends 1 rest) : Ends 0 rest := by
  intro key next
  have held := ends key next
  have never := grip_ne_one key
  omega

theorem ends_cons {key : TokenKey} {rest : List TokenKey} (held : grip key ≤ level) :
    Ends level (key :: rest) :=
  fun _ next => Option.some.inj next ▸ held

/-- What the parser of a level reads as an expression, up to marks. -/
def ReadsAt (symbols : SymbolTable) (level : Nat) (keys : List TokenKey) (depth : Nat)
    (expr : Expr) : Prop :=
  ∀ (bound : Nat) (rest : List TokenKey), Ends level rest →
    2 * (keys.length + rest.length) ≤ bound →
      Reads symbols depth (keys ++ rest) (atLevel bound (parser bound) level) rest
        fun value => value.unmarked = expr.unmarked

/-- What the parser of a level reads as an expression that the loop of the level may go on
with: it reads what the loop reads from the expression on. -/
def LoopsAt (symbols : SymbolTable) (level : Nat) (keys : List TokenKey) (depth : Nat)
    (expr : Expr) : Prop :=
  ∀ (bound count deeper : Nat) (rest after : List TokenKey) (result : Expr → Prop),
    Ends (level + 1) rest → 2 * (keys.length + rest.length) ≤ bound →
    count + keys.length ≤ bound → depth ≤ deeper →
    (∀ exhausted value many, value.unmarked = expr.unmarked → count ≤ many →
      Reads symbols deeper rest
        (rounds exhausted (roundAt bound (parser bound) level) many value) after result) →
      Reads symbols deeper (keys ++ rest) (atLevel bound (parser bound) level) after result

/-- Whether a token can be the first one of a written expression. -/
def Opens (key : TokenKey) : Prop :=
  match key.1 with
  | .punct punct => punct = .openParen ∨ (prefixOf? punct).isSome = true
  | .identifier => Utf8.ofAscii key.2 ∉ reservedWords
  | _ => True

/-- No operator in front of an operand is next. -/
def Unsigned (keys : List TokenKey) : Prop :=
  ∀ punct text, keys.head? = some (.punct punct, text) → prefixOf? punct = none

/-- A row of tokens is parsed as an expression at a level, up to marks, and opens at most so
many levels of nesting. -/
structure Parses (symbols : SymbolTable) (level : Nat) (keys : List TokenKey) (depth : Nat)
    (expr : Expr) : Prop where
  opens : ∃ key more, keys = key :: more ∧ Opens key
  unsigned : 14 ≤ level → Unsigned keys
  once : ¬ IsLoop level → ReadsAt symbols level keys depth expr
  loops : IsLoop level → LoopsAt symbols level keys depth expr

theorem Parses.nonempty (parses : Parses symbols level keys depth expr) : keys ≠ [] := by
  obtain ⟨key, more, rfl, -⟩ := parses.opens
  exact List.cons_ne_nil key more

/-- A loop is over where no token of its level is next. -/
theorem reads_roundAt_done {bound : Nat} {rest : List TokenKey} (loop : IsLoop level)
    (ends : Ends level rest) (value : Expr) :
    Reads symbols depth rest (roundAt bound (parser bound) level value) rest
      fun next => ∃ result, next = .done result ∧ result = value := by
  cases rest with
  | nil =>
      unfold roundAt
      split
      · exact .peek_nil (.pure ⟨value, rfl, rfl⟩)
      · exact .peek_nil (.pure ⟨value, rfl, rfl⟩)
  | cons key rest =>
      obtain ⟨kind, text⟩ := key
      have held := ends (kind, text) rfl
      unfold roundAt
      split
      next suffix =>
        subst suffix
        apply Reads.peek
        intro span
        dsimp only
        split
        next => exact absurd (show 15 ≤ 14 from held) (by decide)
        next => exact absurd (show 15 ≤ 14 from held) (by decide)
        next => exact absurd (show 15 ≤ 14 from held) (by decide)
        next => exact .pure ⟨value, rfl, rfl⟩
      next other =>
        have low : 2 ≤ level := by
          unfold IsLoop at loop
          omega
        apply Reads.peek
        intro span
        dsimp only
        split
        next op spelled =>
          have grips : grip (kind, text) = level + 1 := grip_of_operatorOf? low spelled
          omega
        next => exact .pure ⟨value, rfl, rfl⟩

/-- Where no operator of its level follows, an expression is read as it is, also at a level that has
a loop. -/
theorem Parses.readsAt (parses : Parses symbols level keys depth expr) :
    ReadsAt symbols level keys depth expr := by
  by_cases loop : IsLoop level
  · intro bound rest ends enough
    have positive := List.length_pos_iff.mpr parses.nonempty
    apply parses.loops loop bound 1 depth rest rest _ (ends.looser (Nat.le_succ level)) enough
      (by omega) (Nat.le_refl depth)
    intro exhausted value many same some
    obtain ⟨many, rfl⟩ := Nat.exists_eq_succ_of_ne_zero (Nat.ne_of_gt some)
    apply reads_rounds_done
    apply (reads_roundAt_done loop ends value).imp
    intro next finished
    obtain ⟨result, rfl, rfl⟩ := finished
    exact ⟨result, rfl, same⟩
  · exact parses.once loop

theorem ReadsAt.loopsAt (loop : IsLoop level)
    (reads : ReadsAt symbols (level + 1) keys depth expr) :
    LoopsAt symbols level keys depth expr := by
  intro bound count deeper rest after result ends enough some within goesOn
  rw [atLevel_loop loop]
  apply Reads.bind ((reads bound rest ends enough).deeper within)
  intro value same
  apply reads_repeatRounds
  intro exhausted
  exact goesOn exhausted value bound same (by omega)

end Parsing

section Steps

variable {symbols : SymbolTable} {level depth : Nat} {keys rest : List TokenKey} {expr : Expr}
  {bound : Nat}

section

variable {α : Type} {read : Punct → Option α}

/-- No operator is found where the next token is none of those that are looked for. -/
theorem reads_nextOperator?_none
    (other : ∀ punct text, keys.head? = some (.punct punct, text) → read punct = none) :
    Reads symbols depth keys (nextOperator? read) keys fun found => found = none := by
  cases keys with
  | nil => exact .peek_nil (.pure rfl)
  | cons key keys =>
      obtain ⟨kind, text⟩ := key
      apply Reads.peek
      intro span
      dsimp only
      split
      next punct =>
        apply Reads.pure
        rw [other punct text rfl, Option.map_none]
      next => exact .pure rfl

theorem reads_nextOperator?_some {punct : Punct} {op : α} (spelled : read punct = some op) :
    Reads symbols depth (signToken punct :: keys) (nextOperator? read) (signToken punct :: keys)
      fun found => ∃ span, found = some (op, span) := by
  apply Reads.peek
  intro span
  apply Reads.pure
  exact ⟨span, by rw [spelled, Option.map_some]⟩

end

/-- What stands in a choice is read alone where no choice follows. -/
theorem Parses.reads_conditional (parses : Parses symbols 2 keys depth expr) (ends : Ends 2 rest)
    (noChoice : rest.head?.map Prod.fst ≠ some (.punct .question))
    (enough : 2 * (keys.length + rest.length) ≤ bound) :
    Reads symbols depth (keys ++ rest) (conditional bound (parser bound)) rest
      fun value => value.unmarked = expr.unmarked := by
  apply Reads.bind (parses.readsAt bound rest ends enough)
  intro value same
  cases rest with
  | nil => exact .peek_nil (.pure same)
  | cons key rest =>
      apply Reads.peek
      intro span
      have notQuestion : key.1 ≠ .punct .question := fun question =>
        noChoice (congrArg some question)
      dsimp only
      rw [if_neg notQuestion]
      exact .pure same

/-- Punctuation that holds tighter than a level is not next where the level ends. -/
theorem Ends.not_next {punct : Punct} (ends : Ends level rest) (tight : level < punctGrip punct) :
    rest.head?.map Prod.fst ≠ some (.punct punct) := by
  intro next
  obtain ⟨key, next, kind⟩ := Option.map_eq_some_iff.mp next
  obtain ⟨_, text⟩ := key
  obtain rfl : _ = TokenKind.punct punct := kind
  have held : punctGrip punct ≤ level := ends _ next
  omega

theorem Ends.unassigned (ends : Ends 0 rest) (punct : Punct) (text : List UInt8)
    (next : rest.head? = some (.punct punct, text)) : assignOf? punct = none := by
  cases spelled : assignOf? punct with
  | none => rfl
  | some op =>
      have held := ends _ next
      have grips := grip_of_assignOf? spelled text
      omega

/-- What is parsed at a level is parsed at the next looser one. -/
theorem Parses.looser (parses : Parses symbols (level + 1) keys depth expr) (table : level < 15) :
    Parses symbols level keys depth expr where
  opens := parses.opens
  unsigned tight := parses.unsigned (Nat.le_succ_of_le tight)
  loops loop := ReadsAt.loopsAt loop parses.readsAt
  once notLoop := by
    intro bound rest ends enough
    have cases : level = 0 ∨ level = 1 ∨ level = 13 := by
      unfold IsLoop at notLoop
      omega
    rcases cases with rfl | rfl | rfl
    · have reads := parses.readsAt bound rest (ends.looser (Nat.zero_le 1)) enough
      apply Reads.bind reads
      intro value same
      apply Reads.bind (reads_nextOperator?_none ends.unassigned)
      intro found none
      rw [none]
      exact .pure same
    · exact parses.reads_conditional (ends.looser (Nat.le_succ 1))
        (ends.not_next (by decide)) enough
    · have reads := parses.readsAt bound rest (ends.looser (Nat.le_succ 13)) enough
      obtain ⟨key, more, rfl, -⟩ := parses.opens
      have unsigned : Unsigned (key :: more ++ rest) := parses.unsigned (Nat.le_refl 14)
      apply Reads.bind (reads_nextOperator?_none unsigned)
      intro found none
      rw [none]
      exact reads

/-- An expression of a tight level is one of every looser level, down to that of assignments. The
loops in between end at once. -/
theorem Parses.of_le {tighter : Nat} (parses : Parses symbols tighter keys depth expr)
    (looser : level ≤ tighter) (table : tighter ≤ 15) : Parses symbols level keys depth expr := by
  induction tighter with
  | zero =>
      obtain rfl : level = 0 := Nat.le_zero.mp looser
      exact parses
  | succ tighter ih =>
      by_cases here : level = tighter + 1
      · subst here
        exact parses
      · exact ih (parses.looser table) (by omega) (Nat.le_of_succ_le table)

/-- An expression by itself is one level of nesting deeper. -/
theorem Parses.reads_expression (parses : Parses symbols 0 keys depth expr) (ends : Ends 0 rest)
    (enough : 2 * (keys.length + rest.length) + 1 ≤ bound) :
    Reads symbols (depth + 1) (keys ++ rest) (parser bound .expression) rest
      fun value => Expr.unmarked value = expr.unmarked := by
  obtain ⟨bound, rfl⟩ := Nat.exists_eq_succ_of_ne_zero (Nat.ne_of_gt (Nat.zero_lt_of_lt enough))
  exact .nested (parses.readsAt bound rest ends (Nat.le_of_succ_le_succ enough))

/-- An expression in parentheses is read with its parentheses, whatever level it has, and opens one
level more. -/
theorem Parses.reads_parenthesized (parses : Parses symbols 0 keys depth expr)
    (enough : 2 * ((listed [keys]).length + rest.length) ≤ bound) :
    Reads symbols (depth + 1) (listed [keys] ++ rest) (Parse.parenthesized (parser bound)) rest
      fun value => value.unmarked = expr.unmarked := by
  have row : listed [keys] ++ rest =
      signToken .openParen :: (keys ++ signToken .closeParen :: rest) := by
    simp only [listed, separated, List.cons_append, List.append_assoc, List.nil_append]
  have ends : Ends 0 (signToken .closeParen :: rest) := ends_cons (Nat.le_refl 0)
  rw [← List.length_append, row, List.length_cons, List.length_append, List.length_cons] at enough
  rw [row]
  apply Reads.bind (reads_expect .openParen)
  intro _ _
  apply Reads.bind (parses.reads_expression ends (by rw [List.length_cons]; omega))
  intro value same
  apply Reads.bind (reads_expect .closeParen)
  intro _ _
  exact .pure same

/-- What the parser of operands reads is parsed at the tightest level. -/
theorem ReadsAt.parses {key : TokenKey} (opens : Opens key)
    (unsigned : ∀ punct, key.1 = .punct punct → prefixOf? punct = none)
    (reads : ReadsAt symbols 15 (key :: keys) depth expr) :
    Parses symbols 15 (key :: keys) depth expr where
  opens := ⟨key, keys, rfl, opens⟩
  unsigned _ punct _ next := unsigned punct (congrArg Prod.fst (Option.some.inj next))
  loops loop := absurd loop (by unfold IsLoop; omega)
  once _ := reads

/-- An expression in parentheses is an operand. -/
theorem Parses.parenthesized (parses : Parses symbols 0 keys depth expr) :
    Parses symbols 15 (listed [keys]) (depth + 1) expr := by
  apply ReadsAt.parses
  · exact .inl rfl
  · intro punct kind
    obtain rfl : Punct.openParen = punct := TokenKind.punct.inj kind
    rfl
  · intro bound rest ends enough
    apply Reads.bind reads_nextKind?
    intro kind same
    rw [same]
    exact parses.reads_parenthesized enough

/-- A row of tokens is parsed where a level is wanted, in parentheses if it is looser. -/
theorem Parses.enclosed (parses : Parses symbols level keys depth expr) (wanted : Nat)
    (table : level ≤ 15) (want : wanted ≤ 15) :
    Parses symbols wanted (enclosed wanted level keys) (enclosedDepth wanted level depth) expr := by
  unfold ScriptConsole.enclosed enclosedDepth
  split
  next tight => exact parses.of_le tight table
  next => exact (parses.of_le (Nat.zero_le level) table).parenthesized.of_le want (Nat.le_refl 15)

end Steps

section Operators

variable {symbols : SymbolTable} {level depth more : Nat} {keys behind : List TokenKey}
  {expr whole : Expr}

/-- What the loop of a level goes on with is parsed at the level behind what the loop started
with. -/
theorem Parses.goesOn (parses : Parses symbols level keys depth expr) (loop : IsLoop level)
    (some : behind ≠ []) (held : ∀ rest, Ends (level + 1) (behind ++ rest))
    (round : ∀ bound rest value, Ends (level + 1) rest →
      2 * (behind.length + rest.length) ≤ bound → value.unmarked = expr.unmarked →
        Reads symbols more (behind ++ rest) (roundAt bound (parser bound) level value) rest
          fun next => ∃ result, next = .again result ∧ result.unmarked = whole.unmarked) :
    Parses symbols level (keys ++ behind) (max depth more) whole where
  opens := by
    obtain ⟨key, others, rfl, opens⟩ := parses.opens
    exact ⟨key, others ++ behind, rfl, opens⟩
  unsigned tight := by
    obtain ⟨key, others, rfl, -⟩ := parses.opens
    exact parses.unsigned tight
  once notLoop := absurd loop notLoop
  loops _ := by
    intro bound count deeper rest after result ends enough many within goesOn
    have positive := List.length_pos_iff.mpr some
    rw [List.length_append] at enough many
    rw [List.append_assoc]
    apply parses.loops loop bound (count + 1) deeper (behind ++ rest) after result (held rest)
    · rw [List.length_append]
      omega
    · omega
    · exact Nat.le_trans (Nat.le_max_left depth more) within
    · intro exhausted value rounds same left
      obtain ⟨rounds, rfl⟩ := Nat.exists_eq_succ_of_ne_zero (Nat.ne_of_gt (Nat.zero_lt_of_lt left))
      have read := round bound rest value ends (by omega) same
      apply reads_rounds_again (read.deeper (Nat.le_trans (Nat.le_max_right depth more) within))
      intro next same
      exact goesOn exhausted next rounds same (Nat.le_of_succ_le_succ left)

/-- Two operands that are joined by an operator. The right one binds tighter, so what follows at the
same level joins to the left. -/
theorem parses_binary {mark : Mark} {op : BinaryOp} {left right : Expr} {depthLeft depthRight : Nat}
    {keysLeft keysRight : List TokenKey}
    (first : Parses symbols op.level keysLeft depthLeft left)
    (second : Parses symbols (op.level + 1) keysRight depthRight right) :
    Parses symbols op.level (keysLeft ++ op.token :: keysRight) (max depthLeft depthRight)
      (.binary mark op left right) := by
  have bounds : 2 ≤ op.level ∧ op.level ≤ 12 := by
    cases op <;> decide
  apply first.goesOn (.inl bounds) (List.cons_ne_nil _ _)
  · intro rest
    exact ends_cons (Nat.le_of_eq (grip_binary op))
  · intro bound rest value ends enough same
    have notSuffix : op.level ≠ 14 := by omega
    rw [List.length_cons] at enough
    unfold roundAt
    rw [if_neg notSuffix]
    apply Reads.peek
    intro span
    dsimp only
    rw [operatorOf?_token]
    apply Reads.bind reads_pass
    intro _ _
    apply Reads.bind (second.readsAt bound rest ends (by omega))
    intro operand sameRight
    apply Reads.bind (reads_markExpr span)
    intro mark _
    apply Reads.pure
    refine ⟨_, rfl, ?_⟩
    simp only [Expr.unmarked, Expr.remark] at same sameRight ⊢
    rw [same, sameRight]

/-- An assignment between a place and a value. The value is read again as a loose expression and
opens one level more. -/
theorem parses_assign {mark : Mark} {op : AssignOp} {target value : Expr}
    {depthTarget depthValue : Nat} {keysTarget keysValue : List TokenKey}
    (place : target.isPlace = true) (first : Parses symbols 14 keysTarget depthTarget target)
    (second : Parses symbols 0 keysValue depthValue value) :
    Parses symbols 0 (keysTarget ++ signToken op.sign :: keysValue)
      (max depthTarget (depthValue + 1)) (.assign mark op target value) where
  opens := by
    obtain ⟨key, others, rfl, opens⟩ := first.opens
    exact ⟨key, _, rfl, opens⟩
  unsigned tight := absurd tight (by decide)
  loops loop := absurd loop (by unfold IsLoop; omega)
  once _ := by
    intro bound rest ends enough
    rw [List.length_append, List.length_cons] at enough
    rw [List.append_assoc, List.cons_append]
    have notQuestion : op.sign ≠ .question := by
      cases op <;> decide
    have noChoice : (signToken op.sign :: (keysValue ++ rest)).head?.map Prod.fst ≠
        some (.punct .question) :=
      fun same => notQuestion (TokenKind.punct.inj (Option.some.inj same))
    have held : Ends 2 (signToken op.sign :: (keysValue ++ rest)) :=
      ends_cons (Nat.le_of_eq (grip_assign op))
    have fits : 2 * (keysTarget.length + (signToken op.sign :: (keysValue ++ rest)).length) ≤
        bound := by
      rw [List.length_cons, List.length_append]
      omega
    have fitsValue : 2 * (keysValue.length + rest.length) + 1 ≤ bound := by omega
    have tested := first.of_le (Nat.le_add_left 2 12) (Nat.le_succ 14)
    have reads := tested.reads_conditional held noChoice fits
    apply Reads.bind (reads.deeper (Nat.le_max_left _ _))
    intro found same
    apply Reads.bind (reads_nextOperator?_some (assignOf?_sign op))
    intro next here
    obtain ⟨span, rfl⟩ := here
    dsimp only
    rw [(Expr.isPlace_of_unmarked_eq same).trans place]
    apply Reads.bind reads_pass
    intro _ _
    have reads := second.reads_expression ends fitsValue
    apply Reads.bind (reads.deeper (Nat.le_max_right _ _))
    intro assigned sameValue
    apply Reads.bind (reads_markExpr span)
    intro mark _
    apply Reads.pure
    simp only [Expr.unmarked, Expr.remark] at same sameValue ⊢
    rw [same, sameValue]

/-- A choice. Its test is tighter than a choice, and both of its branches are loose and open one
level more. -/
theorem parses_conditional {mark : Mark} {test yes no : Expr}
    {depthTest depthYes depthNo : Nat} {keysTest keysYes keysNo : List TokenKey}
    (first : Parses symbols 2 keysTest depthTest test)
    (second : Parses symbols 0 keysYes depthYes yes) (third : Parses symbols 0 keysNo depthNo no) :
    Parses symbols 1
      (keysTest ++ signToken .question :: (keysYes ++ signToken .colon :: keysNo))
      (max depthTest (max (depthYes + 1) (depthNo + 1))) (.conditional mark test yes no) where
  opens := by
    obtain ⟨key, others, rfl, opens⟩ := first.opens
    exact ⟨key, _, rfl, opens⟩
  unsigned tight := absurd tight (by decide)
  loops loop := absurd loop (by unfold IsLoop; omega)
  once _ := by
    intro bound rest ends enough
    have row : keysTest ++ signToken .question :: (keysYes ++ signToken .colon :: keysNo) ++ rest =
        keysTest ++ signToken .question :: (keysYes ++ signToken .colon :: (keysNo ++ rest)) := by
      simp only [List.append_assoc, List.cons_append]
    rw [← List.length_append, row, List.length_append, List.length_cons, List.length_append,
      List.length_cons, List.length_append] at enough
    rw [row]
    have held : Ends 2 (signToken .question :: (keysYes ++ signToken .colon :: (keysNo ++ rest))) :=
      ends_cons (Nat.le_refl 2)
    have reads := first.readsAt bound _ held (by
      rw [List.length_cons, List.length_append, List.length_cons, List.length_append]
      omega)
    apply Reads.bind (reads.deeper (Nat.le_max_left _ _))
    intro asked sameTest
    apply Reads.peek
    intro span
    dsimp only [signToken]
    rw [if_pos rfl]
    apply Reads.bind reads_pass
    intro _ _
    have held : Ends 0 (signToken .colon :: (keysNo ++ rest)) := ends_cons (Nat.le_refl 0)
    have fitsYes : 2 * (keysYes.length + (signToken .colon :: (keysNo ++ rest)).length) + 1 ≤
        bound := by
      rw [List.length_cons, List.length_append]
      omega
    have fitsNo : 2 * (keysNo.length + rest.length) + 1 ≤ bound := by omega
    have reads := second.reads_expression held fitsYes
    apply Reads.bind (reads.deeper (by omega))
    intro taken sameYes
    apply Reads.bind (reads_expect .colon)
    intro _ _
    have reads := third.reads_expression ends.loosest fitsNo
    apply Reads.bind (reads.deeper (by omega))
    intro left sameNo
    apply Reads.bind (reads_markExpr span)
    intro mark _
    apply Reads.pure
    simp only [Expr.unmarked, Expr.remark] at sameTest sameYes sameNo ⊢
    rw [sameTest, sameYes, sameNo]

/-- An operator in front of an operand, which opens one level more. One that writes needs a place.
-/
theorem parses_prefix {mark : Mark} {op : UnaryOp} {operand : Expr} (inFront : op.follows = false)
    (place : op.writes = true → operand.isPlace = true)
    (parses : Parses symbols 13 keys depth operand) :
    Parses symbols 13 (signToken op.sign :: keys) (depth + 1) (.unary mark op operand) where
  opens := by
    refine ⟨_, _, rfl, .inr ?_⟩
    rw [prefixOf?_sign inFront]
    rfl
  unsigned tight := absurd tight (by decide)
  loops loop := absurd loop (by unfold IsLoop; omega)
  once _ := by
    intro bound rest ends enough
    rw [List.length_cons] at enough
    obtain ⟨bound, rfl⟩ := Nat.exists_eq_succ_of_ne_zero (show bound ≠ 0 by omega)
    apply Reads.bind (reads_nextOperator?_some (prefixOf?_sign inFront))
    intro next here
    obtain ⟨span, rfl⟩ := here
    apply Reads.bind reads_pass
    intro _ _
    apply Reads.bind (.nested (parses.readsAt bound rest ends (by omega)))
    intro found same
    have writable : (op.writes && !found.isPlace) = false := by
      cases writes : op.writes with
      | false => rfl
      | true =>
          rw [Expr.isPlace_of_unmarked_eq same, place writes]
          rfl
    rw [writable]
    apply Reads.bind (reads_markExpr span)
    intro mark _
    apply Reads.pure
    simp only [Expr.unmarked, Expr.remark] at same ⊢
    rw [same]

end Operators

end ScriptConsole.Parse
