import ScriptConsole.Parse.Basic

/-! # Identifiers and keywords -/

namespace ScriptConsole.Parse

/-- The words that cannot be used as names. -/
def reservedWords : List String := [
  "if", "else", "while", "do", "for", "break", "continue", "return", "switch", "switch$", "case",
  "default", "function", "package", "new", "datablock", "true", "false", "SPC", "TAB", "NL"]

/-- Any identifier, reserved or not. -/
def anyWord : Parse (String × Span) := do
  match ← next? with
  | some token =>
    if token.kind = .identifier then
      pass
      return (Utf8.ofAscii token.text, token.span)
    else failHere .expectedIdentifier
  | none => failHere .expectedIdentifier

/-- The given identifier. -/
def word (expected : String) : Parse Span := do
  let start ← here
  let (found, span) ← anyWord
  if found = expected then return span else failAt start (.expectedWord expected)

/-- An identifier that is not reserved. -/
def name : Parse (String × Span) := do
  let (found, span) ← anyWord
  if found ∈ reservedWords then failAt span.first .reservedWord else return (found, span)

/-- A variable: its name without the sign, its scope and its span. -/
def variableName : Parse (String × Scope × Span) := do
  match ← next? with
  | some token =>
    match token.kind with
    | .localName =>
      pass
      return (Utf8.ofAscii (token.text.drop 1), .ofCall, token.span)
    | .globalName =>
      pass
      return (Utf8.ofAscii (token.text.drop 1), .ofConsole, token.span)
    | _ => failHere .expectedVariable
  | none => failHere .expectedVariable

end ScriptConsole.Parse
