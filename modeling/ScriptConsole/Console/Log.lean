import ScriptConsole.Text.Split

/-! # The log of a console

A console logs messages. What is logged appears as lines: a message ends its last line,
and newlines inside it end lines too.
-/

namespace ScriptConsole

/-- A logged message: whether it warns about a mistake that a script survived, and its
text. -/
structure Message where
  isWarning : Bool
  text : String
  deriving DecidableEq

/-- Where messages go. -/
inductive Sink where
  | memory
  | nowhere
  deriving DecidableEq

namespace Message

/-- The message as it is written. -/
def written (message : Message) : String :=
  if message.isWarning then "Warning: " ++ message.text else message.text

/-- Drops a carriage return at the end of a line. -/
def dropReturn (line : List Char) : List Char :=
  if line.getLast? = some '\r' then line.dropLast else line

/-- The lines that a message appears as. -/
def lines (message : Message) : List String :=
  (Text.split (· == '\n') message.written.toList).map fun line => String.ofList (dropReturn line)

end Message

end ScriptConsole
