import ScriptConsole.Library.Builtin
import ScriptConsole.Text.Casing
import ScriptConsole.Text.Split
import ScriptConsole.Value.Basic

/-! # Functions on values

Words are what stands between blanks, tabs and newlines, and may be empty.
-/

namespace ScriptConsole

/-- Whether a character stands between words. -/
def endsWord (c : Char) : Bool :=
  c == ' ' || c == '\t' || c == '\n'

/-- The words of a text. -/
def words (text : String) : List (List Char) :=
  Text.split endsWord text.toList

/-- How many words a text has; the empty text has none. -/
def wordCount (text : String) : Nat :=
  if text.isEmpty then 0 else (words text).length

/-- The word at a place, counted from 0; no word is empty. -/
def wordAt (text : String) (place : Int64) : String :=
  if place < 0 then "" else String.ofList ((words text).getD place.toInt.toNat [])

/-- The characters from a place on, as many as a length says. A negative place counts
as the start, and a negative length or none takes the rest. -/
def substring (text : String) (start : Int64) (length : Option Int64) : String :=
  let rest := text.toList.drop start.toInt.toNat
  match length with
  | none => String.ofList rest
  | some length => String.ofList (if length < 0 then rest else rest.take length.toInt.toNat)

/-- The argument at a place; one that was not passed is empty. -/
def argument (arguments : List Value) (place : Nat) : Value :=
  arguments.getD place .empty

/-- The result of a function on its arguments. -/
def ValueFunction.apply (function : ValueFunction) (arguments : List Value) : Value :=
  let first := argument arguments 0
  match function with
  | length => .ofNat first.toText.length
  | toUpper => .text (Text.toUpper first.toText)
  | toLower => .text (Text.toLower first.toText)
  | wordCount => .ofNat (ScriptConsole.wordCount first.toText)
  | word => .text (wordAt first.toText (argument arguments 1).toInt)
  | substring =>
    .text (ScriptConsole.substring first.toText (argument arguments 1).toInt
      ((arguments[2]?).map Value.toInt))
  | floor => .int (Binary64.toInt64With Binary64.floor first.toNumber)
  | abs => .float (Binary64.abs first.toNumber)

end ScriptConsole
