import ScriptConsole.Numeric.Numeral
import ScriptConsole.Parse.Basic

/-! # Numbers and strings in scripts -/

namespace ScriptConsole

/-- The value of a hexadecimal digit. -/
def hexDigitChar? (c : Char) : Option Nat :=
  if c.toNat < 0x80 then hexDigit? c.toUInt8 else none

/-- Resolves the escapes of a string. A backslash before a character that is no escape
stands for that character, and one at the end for itself. -/
def unescape : List Char → List Char
  | [] => []
  | c :: rest =>
    if c ≠ '\\' then c :: unescape rest
    else match rest with
      | [] => ['\\']
      | 'n' :: rest => '\n' :: unescape rest
      | 't' :: rest => '\t' :: unescape rest
      | 'r' :: rest => '\r' :: unescape rest
      | 'x' :: rest =>
        match rest with
        | [] => ['x']
        | first :: rest₁ =>
          match hexDigitChar? first with
          | none => 'x' :: unescape (first :: rest₁)
          | some high =>
            match rest₁ with
            | [] => [Char.ofNat high]
            | second :: rest₂ =>
              match hexDigitChar? second with
              | none => Char.ofNat high :: unescape (second :: rest₂)
              | some low => Char.ofNat (high * 16 + low) :: unescape rest₂
      | c :: rest => c :: unescape rest

/-- The text that a string token stands for. -/
def stringValue (token : List UInt8) : String :=
  String.ofList (unescape (Utf8.decodeLossy (token.drop 1).dropLast))

/-- The number of a token that has decimal digits only, if it fits 64 bits. -/
def integerValue? (token : List UInt8) : Option Nat :=
  if token.all isDigit then valueBelow? (Nat.pow 2 63) 10 (token.map digitValue) else none

/-- The number that a number token stands for. Digits that exceed 64 bits make a float. -/
def numberValue (token : List UInt8) : Except Complaint Literal :=
  match token with
  | zero :: x :: digits =>
    if zero = '0'.toUInt8 && (x = 'x'.toUInt8 || x = 'X'.toUInt8) then
      match valueBelow? (Nat.pow 2 63) 16 (digits.map hexDigitValue) with
      | some value => .ok (.int (Int64.ofNat value))
      | none => .error .hexTooLarge
    else decimalValue
  | _ => decimalValue
where
  decimalValue : Except Complaint Literal :=
    match integerValue? token with
    | some value => .ok (.int (Int64.ofNat value))
    | none =>
      match Numeral.readDecimal? token with
      | some (numeral, []) => .ok (.float numeral.toFloat)
      | _ => .error .malformedNumber

namespace Parse

/-- A number. -/
def number : Parse (Literal × Span) := do
  match ← next? with
  | some token =>
    if token.kind = .number then
      pass
      match numberValue token.text with
      | .ok value => return (value, token.span)
      | .error complaint => failAt token.span.first complaint
    else failHere .expectedNumber
  | none => failHere .expectedNumber

/-- A string, tagged or not. -/
def string : Parse (Literal × Span) := do
  match ← next? with
  | some token =>
    match token.kind with
    | .string =>
      pass
      return (.text (← constant (stringValue token.text)), token.span)
    | .tagged =>
      pass
      return (.tagged (← constant (stringValue token.text)), token.span)
    | _ => failHere .expectedString
  | none => failHere .expectedString

end Parse

end ScriptConsole
