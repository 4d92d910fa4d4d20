import ScriptConsole.Source.Basic

/-! # Diagnostics

A failure to compile is reported with its place and the line of source around it.
-/

namespace ScriptConsole

/-- A report about a place in a source. -/
structure Diagnostic where
  filename : String
  line : Nat
  /-- One more than the number of bytes before the place in its line. -/
  column : Nat
  /-- The text of the line. -/
  context : List Char
  message : String

namespace Diagnostic

/-- The report of a message at a place in a source. -/
def report (source : Source) (position : Position) (message : String) : Diagnostic :=
  { filename := source.filename
    line := position.line
    column := position.offset - source.lineStart position.line + 1
    context := Utf8.decodeLossy (source.lineBytes position.line)
    message }

/-- What a character of the context is printed as: a tab takes four columns. -/
def printed (c : Char) : List Char :=
  if c = '\t' then [' ', ' ', ' ', ' '] else [c]

/-- What stands under a character before the marker: as many blanks as it takes
columns. -/
def underline (c : Char) : List Char :=
  (printed c).map fun _ => ' '

/-- The line under the context, which ends in the marker. -/
def markerLine (diagnostic : Diagnostic) : List Char :=
  (diagnostic.context.take (diagnostic.column - 1)).flatMap underline ++ ['~']

/-- The whole report. -/
def render (diagnostic : Diagnostic) : String :=
  let place := if diagnostic.filename.isEmpty then "" else "in " ++ diagnostic.filename ++ " "
  "ERROR: " ++ diagnostic.message ++ "\n" ++
    " +- " ++ place ++ "at " ++ toString diagnostic.line ++ ":" ++ toString diagnostic.column ++
    "\n" ++
    " | \n" ++
    " | " ++ String.ofList (diagnostic.context.flatMap printed) ++ "\n" ++
    " | " ++ String.ofList diagnostic.markerLine

end Diagnostic

end ScriptConsole
