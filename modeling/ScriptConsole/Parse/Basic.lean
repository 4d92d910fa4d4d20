import ScriptConsole.Rounds
import ScriptConsole.Script.Fault
import ScriptConsole.Script.Tree
import ScriptConsole.Token.Basic

/-! # Reading tokens

A parser moves through a list of tokens, interns names and numbers the nodes that it
completes. Comments are passed over when the next token is asked for.
-/

namespace ScriptConsole

/-- What a parser has left and what it has done. -/
structure ParseState where
  /-- The tokens that are left. -/
  tokens : List Token
  /-- Where the last token that was passed ends. -/
  passed : Position
  symbols : SymbolTable
  counts : NodeCounts
  /-- How many levels of nesting may be open at a time, if that is limited. -/
  limit : Option Nat
  /-- How many levels are open. -/
  depth : Nat
  /-- The most levels that were open at a time. -/
  deepest : Nat

/-- A computation that reads tokens and may fail. -/
abbrev Parse := EStateM Fault ParseState

/-- Drops comments in front of the next token; `passed` is where they end. -/
def skipComments (passed : Position) : List Token → Position × List Token
  | [] => (passed, [])
  | token :: tokens =>
    if token.kind.isComment then skipComments token.span.last tokens
    else (passed, token :: tokens)

namespace Parse

/-- Fails with a complaint about a place. -/
def failAt {α : Type} (position : Position) (complaint : Complaint) : Parse α :=
  throw ⟨position, complaint⟩

/-- The place that reading has come to: the start of what is left, comments included,
or the end of what was passed. -/
def here : Parse Position := do
  let state ← get
  match state.tokens with
  | [] => return state.passed
  | token :: _ => return token.span.first

/-- Fails with a complaint about the place that reading has come to. -/
def failHere {α : Type} (complaint : Complaint) : Parse α := do
  failAt (← here) complaint

/-- The next token, if there is one. -/
def next? : Parse (Option Token) := do
  let state ← get
  let (passed, tokens) := skipComments state.passed state.tokens
  set { state with passed, tokens }
  return tokens.head?

/-- The kind of the next token. -/
def nextKind? : Parse (Option TokenKind) := do
  return (← next?).map Token.kind

/-- Whether the next token is a punctuation token. -/
def nextIs (punct : Punct) : Parse Bool := do
  return (← nextKind?) = some (.punct punct)

/-- The kind of the token after the next one. -/
def secondKind? : Parse (Option TokenKind) := do
  let _ ← next?
  let state ← get
  return (skipComments state.passed (state.tokens.drop 1)).2.head?.map Token.kind

/-- Passes the next token. -/
def pass : Parse Unit := do
  let _ ← next?
  modify fun state =>
    match state.tokens with
    | [] => state
    | token :: tokens => { state with tokens, passed := token.span.last }

/-- The next identifier as a text, without passing it. -/
def nextWord? : Parse (Option String) := do
  match ← next? with
  | some token =>
    if token.kind = .identifier then return some (Utf8.ofAscii token.text) else return none
  | none => return none

/-- Whether the next token is the given identifier. -/
def nextIsWord (word : String) : Parse Bool := do
  return (← nextWord?) = some word

/-- Passes a token that has to be the next one. -/
def expect (punct : Punct) : Parse Span := do
  match ← next? with
  | some token =>
    if token.kind = .punct punct then
      pass
      return token.span
    else failHere (.expectedPunct punct)
  | none => failHere (.expectedPunct punct)

/-- Passes a token if it is the next one. -/
def accept (punct : Punct) : Parse Bool := do
  if ← nextIs punct then
    pass
    return true
  else return false

/-- Repeats a round, at most as often as the bound says. -/
def repeatRounds {σ β : Type} (bound : Nat) (round : σ → Parse (Round σ β)) (state : σ) :
    Parse β := do
  rounds ⟨← here, .outOfSteps⟩ round bound state

/-- One round of a list: the list ends, or an item follows the comma that has to be
before it. Items are collected in reverse. -/
def itemRound {α : Type} (close : Punct) (item : Parse α) (noun : String)
    (state : List α × Bool) : Parse (Round (List α × Bool) (List α)) := do
  let (items, afterComma) := state
  if ← accept close then return .done items.reverse
  else if !afterComma then failHere (.expectedItem close noun)
  else
    let first ← item
    return .again (first :: items, ← accept .comma)

/-- A list in delimiters, with commas between the items and perhaps after the last one;
`none` if the opening delimiter is not next. -/
def list? {α : Type} (bound : Nat) (opening close : Punct) (item : Parse α) (noun : String) :
    Parse (Option (List α)) := do
  if ← accept opening then
    return some (← repeatRounds bound (itemRound close item noun) ([], true))
  else return none

/-- A list in delimiters that has to be there. -/
def list {α : Type} (bound : Nat) (opening close : Punct) (item : Parse α)
    (noun listNoun : String) : Parse (List α) := do
  let start ← here
  match ← list? bound opening close item noun with
  | some items => return items
  | none => failAt start (.expectedList listNoun)

/-- Reads one level deeper, if the limit allows it. -/
def nested {α : Type} (parser : Parse α) : Parse α := do
  let state ← get
  match state.limit with
  | some limit => if limit ≤ state.depth then failHere (.nestedTooDeep limit)
  | none => pure ()
  modify fun state =>
    { state with depth := state.depth + 1, deepest := max state.deepest (state.depth + 1) }
  let result ← parser
  modify fun state => { state with depth := state.depth - 1 }
  return result

/-- The symbol of a name. -/
def intern (name : String) : Parse Symbol :=
  modifyGet fun state =>
    let (symbol, symbols) := state.symbols.intern name
    (symbol, { state with symbols })

/-- The symbol of a string constant. -/
def constant (text : String) : Parse Symbol := do
  return (← get).symbols.constant text

/-- The mark of an expression that is complete now. -/
def markExpr (span : Span) : Parse Mark :=
  modifyGet fun state =>
    (⟨state.counts.expressions, span⟩,
      { state with counts.expressions := state.counts.expressions + 1 })

/-- The mark of a statement that is complete now. -/
def markStmt (span : Span) : Parse Mark :=
  modifyGet fun state =>
    (⟨state.counts.statements, span⟩,
      { state with counts.statements := state.counts.statements + 1 })

/-- The mark of a definition that is complete now. -/
def markDefinition (span : Span) : Parse Mark :=
  modifyGet fun state =>
    (⟨state.counts.definitions, span⟩,
      { state with counts.definitions := state.counts.definitions + 1 })

end Parse

end ScriptConsole
