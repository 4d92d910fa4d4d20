/-! # Letter case of names

Names are compared without regard to the case of their ASCII letters. Every other
character stands for itself.
-/

namespace ScriptConsole.Text

/-- The text with its ASCII letters in lower case: two texts that differ in case
only have the same folded form. -/
def fold (text : String) : String :=
  String.ofList (text.toList.map Char.toLower)

/-- The text with its ASCII letters in upper case. -/
def upperAscii (text : String) : String :=
  String.ofList (text.toList.map Char.toUpper)

/-- Whether two texts are equal up to the case of ASCII letters. -/
def sameFolded (first second : String) : Bool :=
  fold first == fold second

end ScriptConsole.Text
