import ScriptConsole.Numeric.Numeral
import ScriptConsole.Script.Fault
import ScriptConsole.Token.Basic

/-! # Scanning a source into tokens

At each place the longest piece that stands there is taken: white space, a comment or
a token. Curly braces have to balance, and every carriage return has to be followed by
a newline.
-/

namespace ScriptConsole.Token

/-- Whether a byte separates tokens. -/
def isSpace (byte : UInt8) : Bool :=
  byte = ' '.toUInt8 || byte = '\t'.toUInt8 || byte = '\n'.toUInt8 || byte = '\x0C'.toUInt8 ||
    byte = '\r'.toUInt8

/-- Whether a byte is an ASCII letter. -/
def isLetter (byte : UInt8) : Bool :=
  ('a'.toUInt8 ≤ byte && byte ≤ 'z'.toUInt8) || ('A'.toUInt8 ≤ byte && byte ≤ 'Z'.toUInt8)

/-- Whether a byte starts an identifier. -/
def isNameStart (byte : UInt8) : Bool :=
  isLetter byte || byte = '_'.toUInt8

/-- Whether a byte continues an identifier. -/
def isNameRest (byte : UInt8) : Bool :=
  isNameStart byte || isDigit byte

/-- How many bytes at the start continue an identifier. -/
def nameLength (bytes : List UInt8) : Nat :=
  (bytes.takeWhile isNameRest).length

/-- The keyword that takes a dollar sign as its last character. -/
def switchWord : List UInt8 :=
  Utf8.encode "switch"

/-- The length of the identifier at the start. -/
def identifierLength (bytes : List UInt8) : Nat :=
  let length := nameLength bytes
  if bytes.take length = switchWord && bytes[length]? = some '$'.toUInt8 then length + 1
  else length

/-- How many bytes at the start continue the name of a global: the rest of an
identifier and further identifiers after double colons. -/
def segmentsLength : List UInt8 → Nat
  | [] => 0
  | byte :: rest =>
    if isNameRest byte then segmentsLength rest + 1
    else if byte = ':'.toUInt8 then
      match rest with
      | [] => 0
      | second :: rest =>
        if second = ':'.toUInt8 && rest.head?.any isNameStart then segmentsLength rest + 2 else 0
    else 0

/-- The length of the hexadecimal number at the start, after its mark; `none` without
digits. -/
def hexLength? (digits : List UInt8) : Option Nat :=
  match (digits.takeWhile isHexDigit).length with
  | 0 => none
  | count => some (count + 2)

/-- The length of the fraction at the start: a point and digits. -/
def fractionLength : List UInt8 → Nat
  | [] => 0
  | byte :: rest =>
    match (rest.takeWhile isDigit).length with
    | 0 => 0
    | count => if byte = '.'.toUInt8 then count + 1 else 0

/-- The length of a sign at the start. -/
def signLength : List UInt8 → Nat
  | [] => 0
  | byte :: _ => if byte = '+'.toUInt8 || byte = '-'.toUInt8 then 1 else 0

/-- The length of the power of ten at the start: its letter, a sign and digits. -/
def exponentLength : List UInt8 → Nat
  | [] => 0
  | byte :: rest =>
    let sign := signLength rest
    match ((rest.drop sign).takeWhile isDigit).length with
    | 0 => 0
    | count => if byte = 'e'.toUInt8 || byte = 'E'.toUInt8 then sign + count + 1 else 0

/-- The length of the decimal number at the start. -/
def decimalLength (bytes : List UInt8) : Nat :=
  let whole := (bytes.takeWhile isDigit).length
  let fraction := fractionLength (bytes.drop whole)
  whole + fraction + exponentLength (bytes.drop (whole + fraction))

/-- The length of the number at the start. No identifier may follow it directly. A
failure says how many bytes ahead it is. -/
def numberLength (bytes : List UInt8) : Except (Nat × Complaint) Nat := do
  let length ← match bytes with
    | zero :: x :: digits =>
      if zero = '0'.toUInt8 && (x = 'x'.toUInt8 || x = 'X'.toUInt8) then
        match hexLength? digits with
        | some length => pure length
        | none => throw (0, .malformedHex)
      else pure (decimalLength bytes)
    | _ => pure (decimalLength bytes)
  if bytes[length]?.any isNameStart then throw (length, .characterAfterNumber)
  return length

/-- The length of a string up to its closing quote, given the length up to here. A
backslash takes the next byte with it, and a string ends on its line. -/
def stringLength? (quote : UInt8) (length : Nat) : List UInt8 → Option Nat
  | [] => none
  | byte :: rest =>
    if byte = '\n'.toUInt8 then none
    else if byte = '\\'.toUInt8 then
      match rest with
      | [] => none
      | escaped :: rest =>
        if escaped = '\n'.toUInt8 then none else stringLength? quote (length + 2) rest
    else if byte = quote then some (length + 1)
    else stringLength? quote (length + 1) rest

/-- The length of a comment up to its closing delimiter, given the length up to here
and whether the byte before was a star. -/
def commentLength? (length : Nat) (afterStar : Bool) : List UInt8 → Option Nat
  | [] => none
  | byte :: rest =>
    if afterStar && byte = '/'.toUInt8 then some (length + 1)
    else commentLength? (length + 1) (byte = '*'.toUInt8) rest

/-- The length of the rest of a line. -/
def lineLength (bytes : List UInt8) : Nat :=
  (bytes.takeWhile fun byte => byte ≠ '\n'.toUInt8 && byte ≠ '\r'.toUInt8).length

/-- A stretch of the source: white space, or a token of some kind. -/
inductive Piece where
  | space
  | token (kind : TokenKind)

/-- The string at the start, which opens with a quote. -/
def stringPiece (kind : TokenKind) (quote : UInt8) (rest : List UInt8) :
    Except (Nat × Complaint) (Piece × Nat) :=
  match stringLength? quote 1 rest with
  | some length => .ok (.token kind, length)
  | none => .error (0, .unterminatedString)

/-- The piece that stands at the start of the bytes, and its length. A failure says how
many bytes ahead it is. -/
def piece (first : UInt8) (rest : List UInt8) : Except (Nat × Complaint) (Piece × Nat) :=
  let bytes := first :: rest
  let second := rest.head?
  if first = '"'.toUInt8 then stringPiece .string first rest
  else if first = '\''.toUInt8 then stringPiece .tagged first rest
  else if isNameStart first then .ok (.token .identifier, identifierLength bytes)
  else if isDigit first || (first = '.'.toUInt8 && second.any isDigit) then
    (numberLength bytes).map fun length => (.token .number, length)
  else if first = '%'.toUInt8 && second.any isNameStart then
    .ok (.token .localName, nameLength rest + 1)
  else if first = '$'.toUInt8 && second.any isNameStart then
    .ok (.token .globalName, segmentsLength rest + 1)
  else if first = '/'.toUInt8 && second = some '/'.toUInt8 then
    .ok (.token .lineComment, lineLength bytes)
  else if first = '/'.toUInt8 && second = some '*'.toUInt8 then
    match commentLength? 2 false (rest.drop 1) with
    | some length => .ok (.token .blockComment, length)
    | none => .error (0, .unterminatedComment)
  else if isSpace first then .ok (.space, 1)
  else match Punct.find? bytes with
    | some (punct, length) => .ok (.token (.punct punct), length)
    | none => .error (0, .unexpectedCharacter)

/-- The braces that are open after a token, innermost first; `none` if the token closes
one that was never opened. -/
def braces? (opened : List Position) (token : Token) : Option (List Position) :=
  match token.kind with
  | .punct .openCurly => some (token.span.first :: opened)
  | .punct .closeCurly =>
    match opened with
    | [] => none
    | _ :: opened => some opened
  | _ => some opened

/-- Scans bytes that start at a position. The first `skip` bytes belong to a piece that
was already taken. Tokens are collected in reverse; the result is also the braces that
stay open. -/
def scanFrom (skip : Nat) (position : Position) (opened : List Position) (tokens : List Token) :
    List UInt8 → Except Fault (List Position × List Token)
  | [] => .ok (opened, tokens.reverse)
  | first :: rest =>
    let next := position.step first
    match skip with
    | skip + 1 => scanFrom skip next opened tokens rest
    | 0 =>
      match piece first rest with
      | .error (ahead, complaint) =>
        .error ⟨position.advance ((first :: rest).take ahead), complaint⟩
      | .ok (.space, length) => scanFrom (length - 1) next opened tokens rest
      | .ok (.token kind, length) =>
        let text := (first :: rest).take length
        let token := ⟨kind, ⟨position, position.advance text⟩, text⟩
        match braces? opened token with
        | none => .error ⟨position, .unmatchedClose⟩
        | some opened => scanFrom (length - 1) next opened (token :: tokens) rest

/-- The place of the first carriage return that no newline follows. -/
def loneReturn? (position : Position) : List UInt8 → Option Position
  | [] => none
  | byte :: rest =>
    if byte = '\r'.toUInt8 && rest.head? ≠ some '\n'.toUInt8 then some position
    else loneReturn? (position.step byte) rest

/-- The tokens of a source, comments included. -/
def scan (bytes : List UInt8) : Except Fault (List Token) := do
  let (opened, tokens) ← scanFrom 0 .start [] [] bytes
  if let some position := loneReturn? .start bytes then throw ⟨position, .loneReturn⟩
  if let some position := opened.head? then throw ⟨position, .unmatchedOpen⟩
  return tokens

end ScriptConsole.Token
