/-! # Splitting text -/

namespace ScriptConsole.Text

/-- Puts a character in front of the first of some pieces, or starts a new piece at a
separator. -/
def splitStep (isSeparator : Char → Bool) (c : Char) : List (List Char) → List (List Char)
  | [] => [[c]]
  | piece :: pieces => if isSeparator c then [] :: piece :: pieces else (c :: piece) :: pieces

/-- The pieces between separators, in order. Separators that follow each other have an
empty piece between them. -/
def split (isSeparator : Char → Bool) (text : List Char) : List (List Char) :=
  text.foldr (splitStep isSeparator) [[]]

end ScriptConsole.Text
