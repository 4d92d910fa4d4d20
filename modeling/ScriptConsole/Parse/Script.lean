import ScriptConsole.Parse.Statement
import ScriptConsole.Token.Scan

/-! # Compiling scripts

A source is scanned into tokens, which are read as statements up to their end. The
names in it are interned even if it does not compile.
-/

namespace ScriptConsole

namespace Parse

/-- Reads a part of a script, with parsers for what it contains. -/
def part (bound : Nat) (inner : Parser) : Parser
  | .statement => nested (statement bound inner)
  | .expression => nested (assignment bound inner)
  | .operand => operand bound inner
  | .newObject => newObject bound inner
  | .datablock => datablock bound inner

/-- Reads a part whose depth and whose loops are within a bound. -/
def parser : Nat → Parser
  | 0, _ => failHere .outOfSteps
  | bound + 1, goal => part bound (parser bound) goal

/-- One round of the statements of a script. -/
def rootRound (bound : Nat) (statements : List Stmt) :
    Parse (Round (List Stmt) (List Stmt)) := do
  match ← next? with
  | none => return .done statements.reverse
  | some _ => return .again ((← parser bound .statement) :: statements)

/-- Statements up to the end of the tokens. -/
def root (bound : Nat) : Parse (List Stmt) :=
  repeatRounds bound (rootRound bound) []

/-- A bound that no token list exceeds: a token opens at most one statement and the
expression at its start. -/
def stepsFor (tokens : List Token) : Nat :=
  2 * tokens.length + 2

/-- The state before the first of some tokens. -/
def start (limit : Option Nat) (symbols : SymbolTable) (tokens : List Token) : ParseState :=
  { tokens
    passed := ⟨1, 0⟩
    symbols
    counts := ⟨0, 0, 0⟩
    limit
    depth := 0
    deepest := 0 }

/-- Reads the statements of a list of tokens. -/
def runRoot (limit : Option Nat) (symbols : SymbolTable) (tokens : List Token) :
    EStateM.Result Fault ParseState (List Stmt) :=
  root (stepsFor tokens) (start limit symbols tokens)

end Parse

/-- How many statements, expressions and prefix operators may be open inside one
another. -/
def nestingLimit : Nat := 1024

/-- Compiles a source. -/
def compileSource (source : Source) (symbols : SymbolTable) :
    Except Diagnostic Script × SymbolTable :=
  match Token.scan source.bytes with
  | .error fault => (.error (fault.diagnose source), symbols)
  | .ok tokens =>
    match Parse.runRoot (some nestingLimit) symbols tokens with
    | .error fault state => (.error (fault.diagnose source), state.symbols)
    | .ok root state => (.ok ⟨source.filename, root, state.counts⟩, state.symbols)

/-- Compiles the text of a file. -/
def compile (filename text : String) (symbols : SymbolTable) :
    Except Diagnostic Script × SymbolTable :=
  compileSource (.ofText filename text) symbols

end ScriptConsole
