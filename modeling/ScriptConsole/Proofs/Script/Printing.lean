import ScriptConsole.Parse.Word
import ScriptConsole.Proofs.Script.Marks
import ScriptConsole.Proofs.Symbol
import ScriptConsole.Token.Scan

/-! # Expressions as text

An expression is written as a row of tokens with one space between them. Parentheses stand
where the table of operators asks for them. The table has these levels: assignments (0),
choices between two expressions (1), the binary operators (2 to 12), the operators in front of
an operand (13), and what stands behind one (14).
-/

namespace ScriptConsole

/-- What a token is written as: its kind and its text. -/
abbrev TokenKey := TokenKind × List UInt8

section Tokens

/-- A punctuation token. -/
def signToken (punct : Punct) : TokenKey :=
  (.punct punct, Utf8.encode punct.spelling)

/-- A token that is a word. -/
def wordToken (text : String) : TokenKey :=
  (.identifier, Utf8.encode text)

/-- How a character is written in a string of either kind. -/
def escape (c : Char) : List Char :=
  if c = '\n' then ['\\', 'n']
  else if c = '\r' then ['\\', 'r']
  else if c = '\\' ∨ c = '"' ∨ c = '\'' then ['\\', c]
  else [c]

/-- A text in quotes. -/
def quoted (quote : Char) (text : String) : List UInt8 :=
  Utf8.encodeChars (quote :: (text.toList.flatMap escape ++ [quote]))

/-- The level of a binary operator. -/
def BinaryOp.level : BinaryOp → Nat
  | logicalOr => 2
  | logicalAnd => 3
  | bitOr => 4
  | bitXor => 5
  | bitAnd => 6
  | equal | notEqual => 7
  | less | greater | lessEqual | greaterEqual => 8
  | join | joinSpace | joinTab | joinNewline | sameText | differentText => 9
  | shiftLeft | shiftRight => 10
  | add | subtract => 11
  | multiply | divide | remainder => 12

/-- The token of a binary operator. -/
def BinaryOp.token : BinaryOp → TokenKey
  | logicalOr => signToken .orOr
  | logicalAnd => signToken .andAnd
  | bitOr => signToken .bar
  | bitXor => signToken .caret
  | bitAnd => signToken .ampersand
  | equal => signToken .equalEqual
  | notEqual => signToken .notEqual
  | less => signToken .openAngle
  | greater => signToken .closeAngle
  | lessEqual => signToken .lessEquals
  | greaterEqual => signToken .greaterEquals
  | join => signToken .atSign
  | joinSpace => wordToken "SPC"
  | joinTab => wordToken "TAB"
  | joinNewline => wordToken "NL"
  | sameText => signToken .dollarEquals
  | differentText => signToken .notDollarEquals
  | shiftLeft => signToken .shiftLeft
  | shiftRight => signToken .shiftRight
  | add => signToken .plus
  | subtract => signToken .minus
  | multiply => signToken .star
  | divide => signToken .slash
  | remainder => signToken .percent

/-- The punctuation of an assignment. -/
def AssignOp.sign : AssignOp → Punct
  | set => .equals
  | add => .plusEquals
  | subtract => .minusEquals
  | multiply => .starEquals
  | divide => .slashEquals
  | remainder => .percentEquals
  | bitAnd => .andEquals
  | bitOr => .orEquals
  | bitXor => .caretEquals
  | shiftLeft => .shiftLeftEquals
  | shiftRight => .shiftRightEquals

/-- The punctuation of an operator on one operand. -/
def UnaryOp.sign : UnaryOp → Punct
  | logicalNot => .exclamation
  | bitNot => .tilde
  | negate => .minus
  | preIncrement | postIncrement => .plusPlus
  | preDecrement | postDecrement => .minusMinus

/-- Whether an operator stands behind its operand. -/
def UnaryOp.follows : UnaryOp → Bool
  | postIncrement | postDecrement => true
  | _ => false

/-- The token of a constant. There are none for fractional numbers here. -/
def Literal.token : Literal → TokenKey
  | int value => (.number, Utf8.encode (toString value.toNatClampNeg))
  | float _ => (.number, [])
  | text constant => (.string, quoted '"' constant.text)
  | tagged constant => (.tagged, quoted '\'' constant.text)

/-- The token of a variable. -/
def Scope.token (name : Symbol) : Scope → TokenKey
  | ofCall => (.localName, '%'.toUInt8 :: Utf8.encode name.text)
  | ofConsole => (.globalName, '$'.toUInt8 :: Utf8.encode name.text)

/-- The tokens of what is called. -/
def Callee.tokens : Callee → List TokenKey
  | global name => [wordToken name.text]
  | qualified space name => [wordToken space.text, signToken .colonColon, wordToken name.text]
  | parent name => [wordToken "Parent", signToken .colonColon, wordToken name.text]

end Tokens

section Rows

/-- Rows of tokens with commas between them. -/
def separated : List (List TokenKey) → List TokenKey
  | [] => []
  | [row] => row
  | row :: next :: rows => row ++ signToken .comma :: separated (next :: rows)

/-- Rows of tokens in parentheses. -/
def listed (rows : List (List TokenKey)) : List TokenKey :=
  signToken .openParen :: (separated rows ++ [signToken .closeParen])

/-- Rows of tokens in square brackets, which are left out if there are none. -/
def bracketed : List (List TokenKey) → List TokenKey
  | [] => []
  | row :: rows => signToken .openSquare :: (separated (row :: rows) ++ [signToken .closeSquare])

/-- A row of tokens of a level where a level is wanted: in parentheses if it is looser. -/
def enclosed (wanted level : Nat) (row : List TokenKey) : List TokenKey :=
  if wanted ≤ level then row else listed [row]

end Rows

section Expressions

/-- The level of an expression in the table of operators. -/
def Expr.level : Expr → Nat
  | .assign .. => 0
  | .conditional .. => 1
  | .binary _ op _ _ => op.level
  | .unary _ op _ => if op.follows then 14 else 13
  | _ => 14

mutual

/-- The tokens of an expression, without parentheses around it. The branches of a choice and
the value of an assignment are whole expressions. -/
def Expr.tokens : Expr → List TokenKey
  | .assign _ op target value =>
    enclosed 14 target.level target.tokens ++ signToken op.sign :: value.tokens
  | .conditional _ test yes no =>
    enclosed 2 test.level test.tokens ++
      signToken .question :: (yes.tokens ++ signToken .colon :: no.tokens)
  | .binary _ op left right =>
    enclosed op.level left.level left.tokens ++
      op.token :: enclosed (op.level + 1) right.level right.tokens
  | .unary _ op operand =>
    if op.follows then enclosed 14 operand.level operand.tokens ++ [signToken op.sign]
    else signToken op.sign :: enclosed 13 operand.level operand.tokens
  | .literal _ value => [value.token]
  | .variable _ scope name indices => scope.token name :: bracketed (Expr.rows indices)
  | .slot _ owner field indices =>
    enclosed 14 owner.level owner.tokens ++
      signToken .dot :: wordToken field.text :: bracketed (Expr.rows indices)
  | .call _ callee arguments => callee.tokens ++ listed (Expr.rows arguments)
  | .send _ owner method arguments =>
    enclosed 14 owner.level owner.tokens ++
      signToken .dot :: wordToken method.text :: listed (Expr.rows arguments)
  | .object _ => []
  | .detag _ operand => wordToken "detag" :: listed [operand.tokens]

/-- The tokens of each of several expressions. -/
def Expr.rows : List Expr → List (List TokenKey)
  | [] => []
  | expr :: exprs => expr.tokens :: Expr.rows exprs

end

/-- One more level of nesting for parentheses. -/
def enclosedDepth (wanted level depth : Nat) : Nat :=
  if wanted ≤ level then depth else depth + 1

mutual

/-- How many levels of nesting the text of an expression opens inside itself: one for every
expression in it that stands by itself, as in parentheses, and for every operator in front of
an operand. -/
def Expr.depth : Expr → Nat
  | .assign _ _ target value =>
    max (enclosedDepth 14 target.level target.depth) (value.depth + 1)
  | .conditional _ test yes no =>
    max (enclosedDepth 2 test.level test.depth) (max (yes.depth + 1) (no.depth + 1))
  | .binary _ op left right =>
    max (enclosedDepth op.level left.level left.depth)
      (enclosedDepth (op.level + 1) right.level right.depth)
  | .unary _ op operand =>
    if op.follows then enclosedDepth 14 operand.level operand.depth
    else enclosedDepth 13 operand.level operand.depth + 1
  | .literal .. => 0
  | .variable _ _ _ indices => Expr.depthOfAll indices
  | .slot _ owner _ indices =>
    max (enclosedDepth 14 owner.level owner.depth) (Expr.depthOfAll indices)
  | .call _ _ arguments => Expr.depthOfAll arguments
  | .send _ owner _ arguments =>
    max (enclosedDepth 14 owner.level owner.depth) (Expr.depthOfAll arguments)
  | .object _ => 0
  | .detag _ operand => operand.depth + 1

/-- How many levels of nesting several expressions in a list open. -/
def Expr.depthOfAll : List Expr → Nat
  | [] => 0
  | expr :: exprs => max (expr.depth + 1) (Expr.depthOfAll exprs)

end

/-- The text of an expression as a statement. -/
def Expr.statementText (expr : Expr) : List UInt8 :=
  (Utf8.encode " ").intercalate ((expr.tokens ++ [signToken .semicolon]).map Prod.snd)

end Expressions

section Printable

/-- Whether bytes are an identifier. -/
def IsIdentifier (bytes : List UInt8) : Prop :=
  ∃ first rest, bytes = first :: rest ∧ Token.isNameStart first = true ∧
    ∀ byte ∈ rest, Token.isNameRest byte = true

/-- Whether bytes are identifiers joined by double colons. -/
def IsGlobalName (bytes : List UInt8) : Prop :=
  ∃ segments, segments ≠ [] ∧ (∀ segment ∈ segments, IsIdentifier segment) ∧
    bytes = (Utf8.encode "::").intercalate segments

variable (symbols : SymbolTable)

/-- Whether a symbol can name a member of an object. -/
def SymbolTable.Named (name : Symbol) : Prop :=
  symbols.Knows name ∧ IsIdentifier (Utf8.encode name.text)

/-- Whether a symbol can name a function or a namespace. -/
def SymbolTable.Callable (name : Symbol) : Prop :=
  symbols.Named name ∧ name.text ∉ Parse.reservedWords

/-- Constants that have a text: numbers that are not negative, and strings of the table. -/
def Literal.Printable : Literal → Prop
  | int value => 0 ≤ value
  | float _ => False
  | text constant | tagged constant => constant = symbols.constant constant.text

/-- Callees that have a text. -/
def Callee.Printable : Callee → Prop
  | global name => symbols.Callable name ∧ name.text ≠ "detag"
  | qualified space name =>
    symbols.Callable space ∧ Text.sameFolded space.text "parent" = false ∧ symbols.Callable name
  | parent name => symbols.Callable name

/-- Names of variables that have a text. -/
def Scope.Printable (name : Symbol) : Scope → Prop
  | ofCall => symbols.Named name
  | ofConsole => symbols.Knows name ∧ IsGlobalName (Utf8.encode name.text)

mutual

/-- Expressions that have a text: what is assigned to or stepped is a place, and names and
constants are those of a table. Object declarations are left out. -/
def Expr.Printable : Expr → Prop
  | .assign _ _ target value => target.isPlace = true ∧ target.Printable ∧ value.Printable
  | .conditional _ test yes no => test.Printable ∧ yes.Printable ∧ no.Printable
  | .binary _ _ left right => left.Printable ∧ right.Printable
  | .unary _ op operand => (op.writes = true → operand.isPlace = true) ∧ operand.Printable
  | .literal _ value => value.Printable symbols
  | .variable _ scope name indices => scope.Printable symbols name ∧ Expr.AllPrintable indices
  | .slot _ owner field indices =>
    owner.Printable ∧ symbols.Named field ∧ Expr.AllPrintable indices
  | .call _ callee arguments => callee.Printable symbols ∧ Expr.AllPrintable arguments
  | .send _ owner method arguments =>
    owner.Printable ∧ symbols.Named method ∧ Expr.AllPrintable arguments
  | .object _ => False
  | .detag _ operand => operand.Printable

/-- Expressions that all have a text. -/
def Expr.AllPrintable : List Expr → Prop
  | [] => True
  | expr :: exprs => expr.Printable ∧ Expr.AllPrintable exprs

end

end Printable

/-- An expression without its marks. -/
def Expr.unmarked (expr : Expr) : Expr :=
  expr.remark fun _ => ⟨0, .blank⟩

section Unmarked

variable {mark other : Mark} {left right : Expr} {exprs others : List Expr}

/-- Expressions that differ in marks alone are places alike. -/
theorem Expr.isPlace_of_unmarked_eq (same : left.unmarked = right.unmarked) :
    left.isPlace = right.isPlace := by
  have places := congrArg Expr.isPlace same
  unfold Expr.unmarked at places
  rwa [Expr.isPlace_remark, Expr.isPlace_remark] at places

theorem Expr.remarkAll_congr (same : exprs.map Expr.unmarked = others.map Expr.unmarked) :
    Expr.remarkAll (fun _ => ⟨0, .blank⟩) exprs = Expr.remarkAll (fun _ => ⟨0, .blank⟩) others := by
  rw [Expr.remarkAll_eq_map, Expr.remarkAll_eq_map]
  exact same

theorem Expr.unmarked_variable_congr {scope : Scope} {name : Symbol}
    (same : exprs.map Expr.unmarked = others.map Expr.unmarked) :
    (Expr.variable mark scope name exprs).unmarked =
      (Expr.variable other scope name others).unmarked :=
  congrArg (Expr.variable _ scope name) (Expr.remarkAll_congr same)

theorem Expr.unmarked_call_congr {callee : Callee}
    (same : exprs.map Expr.unmarked = others.map Expr.unmarked) :
    (Expr.call mark callee exprs).unmarked = (Expr.call other callee others).unmarked :=
  congrArg (Expr.call _ callee) (Expr.remarkAll_congr same)

theorem Expr.unmarked_slot_congr {name : Symbol} (owner : left.unmarked = right.unmarked)
    (same : exprs.map Expr.unmarked = others.map Expr.unmarked) :
    (Expr.slot mark left name exprs).unmarked = (Expr.slot other right name others).unmarked := by
  have lists := Expr.remarkAll_congr same
  unfold Expr.unmarked at owner ⊢
  rw [Expr.remark, Expr.remark, owner, lists]

theorem Expr.unmarked_send_congr {name : Symbol} (owner : left.unmarked = right.unmarked)
    (same : exprs.map Expr.unmarked = others.map Expr.unmarked) :
    (Expr.send mark left name exprs).unmarked = (Expr.send other right name others).unmarked := by
  have lists := Expr.remarkAll_congr same
  unfold Expr.unmarked at owner ⊢
  rw [Expr.remark, Expr.remark, owner, lists]

end Unmarked

end ScriptConsole
