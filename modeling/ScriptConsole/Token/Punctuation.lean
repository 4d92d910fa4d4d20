import ScriptConsole.Text.Utf8

/-! # Punctuation

The fixed tokens of the script language and how they are spelled.
-/

namespace ScriptConsole

/-- A token with one fixed spelling. -/
inductive Punct where
  | shiftLeftEquals
  | shiftRightEquals
  | notDollarEquals
  | colonColon
  | plusPlus
  | plusEquals
  | minusMinus
  | minusEquals
  | starEquals
  | slashEquals
  | percentEquals
  | caretEquals
  | andAnd
  | andEquals
  | orOr
  | orEquals
  | equalEqual
  | notEqual
  | lessEquals
  | greaterEquals
  | shiftLeft
  | shiftRight
  | dollarEquals
  | exclamation
  | question
  | openAngle
  | openCurly
  | openParen
  | openSquare
  | closeAngle
  | closeCurly
  | closeParen
  | closeSquare
  | colon
  | comma
  | dot
  | semicolon
  | atSign
  | plus
  | minus
  | star
  | slash
  | percent
  | caret
  | ampersand
  | bar
  | tilde
  | equals
  deriving DecidableEq

namespace Punct

/-- Every punctuation token with its spelling. A longer spelling comes before the
spellings it starts with. -/
def table : List (String × Punct) := [
  ("<<=", shiftLeftEquals), (">>=", shiftRightEquals), ("!$=", notDollarEquals),
  ("::", colonColon), ("++", plusPlus), ("+=", plusEquals), ("--", minusMinus),
  ("-=", minusEquals), ("*=", starEquals), ("/=", slashEquals), ("%=", percentEquals),
  ("^=", caretEquals), ("&&", andAnd), ("&=", andEquals), ("||", orOr), ("|=", orEquals),
  ("==", equalEqual), ("!=", notEqual), ("<=", lessEquals), (">=", greaterEquals),
  ("<<", shiftLeft), (">>", shiftRight), ("$=", dollarEquals),
  ("!", exclamation), ("?", question), ("<", openAngle), ("\x7b", openCurly), ("(", openParen),
  ("[", openSquare), (">", closeAngle), ("\x7d", closeCurly), (")", closeParen),
  ("]", closeSquare), (":", colon), (",", comma), (".", dot), (";", semicolon),
  ("@", atSign), ("+", plus), ("-", minus), ("*", star), ("/", slash), ("%", percent),
  ("^", caret), ("&", ampersand), ("|", bar), ("~", tilde), ("=", equals)]

/-- How a punctuation token is spelled. -/
def spelling (punct : Punct) : String :=
  ((table.find? fun entry => entry.2 = punct).map Prod.fst).getD ""

/-- The table with spellings as bytes. -/
def byteTable : List (List UInt8 × Punct) :=
  table.map fun entry => (Utf8.encode entry.1, entry.2)

/-- The longest punctuation token at the start of the bytes, and its length. -/
def find? (bytes : List UInt8) : Option (Punct × Nat) :=
  (byteTable.find? fun entry => entry.1.isPrefixOf bytes).map
    fun entry => (entry.2, entry.1.length)

end Punct

end ScriptConsole
