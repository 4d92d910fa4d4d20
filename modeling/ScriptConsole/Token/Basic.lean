import ScriptConsole.Source.Position
import ScriptConsole.Token.Punctuation

/-! # Tokens -/

namespace ScriptConsole

/-- What a token is. -/
inductive TokenKind where
  | identifier
  /-- A local variable with its percent sign. -/
  | localName
  /-- A global variable with its dollar sign and the segments of its name. -/
  | globalName
  | number
  /-- A string in double quotes, quotes included. -/
  | string
  /-- A string in single quotes, quotes included. -/
  | tagged
  /-- A comment up to the end of its line. -/
  | lineComment
  /-- A comment between its two delimiters. -/
  | blockComment
  | punct (punct : Punct)
  deriving DecidableEq

/-- Whether the token says nothing to the grammar. -/
def TokenKind.isComment : TokenKind → Bool
  | lineComment | blockComment => true
  | _ => false

/-- A token, where it stands and its bytes. -/
structure Token where
  kind : TokenKind
  span : Span
  text : List UInt8
  deriving DecidableEq

end ScriptConsole
