import ScriptConsole.Numeric.Binary64
import ScriptConsole.Text.Blank
import ScriptConsole.Text.Utf8

/-! # Numerals in text

A text reads as a number when it starts with a numeral: a signed hexadecimal one
such as `-0x1F`, or a signed decimal one such as `1.5e3`. The longest numeral that
the text starts with counts, and text without one reads as zero.
-/

namespace ScriptConsole

/-- Whether a byte is a decimal digit. -/
def isDigit (byte : UInt8) : Bool :=
  '0'.toUInt8 ≤ byte && byte ≤ '9'.toUInt8

/-- The value of a byte as a hexadecimal digit. -/
def hexDigit? (byte : UInt8) : Option Nat :=
  let code := byte.toNat
  if 0x30 ≤ code && code ≤ 0x39 then some (code - 0x30)
  else if 0x41 ≤ code && code ≤ 0x46 then some (code - 0x41 + 10)
  else if 0x61 ≤ code && code ≤ 0x66 then some (code - 0x61 + 10)
  else none

/-- Whether a byte is a hexadecimal digit. -/
def isHexDigit (byte : UInt8) : Bool :=
  (hexDigit? byte).isSome

/-- The value of a byte that is a decimal digit. -/
def digitValue (byte : UInt8) : Nat :=
  byte.toNat - 0x30

/-- The value of a byte that is a hexadecimal digit. -/
def hexDigitValue (byte : UInt8) : Nat :=
  (hexDigit? byte).getD 0

/-- The number that decimal digits write. -/
def digitsValue (digits : List UInt8) : Nat :=
  digits.foldl (fun value byte => value * 10 + digitValue byte) 0

/-- The 64-bit integer that hexadecimal digits write. What exceeds 64 bits is lost. -/
def hexWord (digits : List UInt8) : Int64 :=
  digits.foldl (fun word byte => word * 16 + Int64.ofNat (hexDigitValue byte)) 0

/-- The number that the digits of a base write, if it is below a bound. Digits are read
until the bound is reached, since no further digit makes the number smaller. -/
def valueBelow? (bound base : Nat) (digits : List Nat) : Option Nat :=
  digits.foldlM (fun value digit =>
    let next := value * base + digit
    if next < bound then some next else none) 0

/-- A numeral as it is written, without blanks. -/
inductive Numeral where
  /-- Hexadecimal digits after `0x`. -/
  | hex (negative : Bool) (digits : List UInt8)
  /-- Digits before and after the point, and the power of ten that follows them. -/
  | decimal (negative : Bool) (whole fraction : List UInt8) (exponent : Int)
  deriving DecidableEq

namespace Numeral

/-- Splits off a sign; `true` for a minus. -/
def splitSign : List UInt8 → Bool × List UInt8
  | [] => (false, [])
  | byte :: rest =>
    if byte = '-'.toUInt8 then (true, rest)
    else if byte = '+'.toUInt8 then (false, rest)
    else (false, byte :: rest)

/-- A hexadecimal numeral at the start, and what follows it. -/
def readHex? (text : List UInt8) : Option (Numeral × List UInt8) :=
  let (negative, body) := splitSign text
  match body with
  | zero :: x :: rest =>
    if zero = '0'.toUInt8 && (x = 'x'.toUInt8 || x = 'X'.toUInt8) then
      match rest.takeWhile isHexDigit with
      | [] => none
      | digits => some (.hex negative digits, rest.dropWhile isHexDigit)
    else none
  | _ => none

/-- The fraction at the start, without its point, and what follows it. A point counts
even without digits. -/
def splitFraction : List UInt8 → List UInt8 × List UInt8
  | [] => ([], [])
  | byte :: rest =>
    if byte = '.'.toUInt8 then (rest.takeWhile isDigit, rest.dropWhile isDigit)
    else ([], byte :: rest)

/-- A power of ten that has reached this bound takes no further digit. -/
def exponentBound : Nat := 0x10000

/-- The power of ten that digits write. The digits after the one that reaches the bound
are ignored, so a power of any length has a size of at most ten times the bound. -/
def exponentValue (digits : List UInt8) : Nat :=
  digits.foldl (fun power byte =>
    if power < exponentBound then power * 10 + digitValue byte else power) 0

/-- The power of ten at the start and what follows it. It counts only with digits. -/
def splitExponent (text : List UInt8) : Int × List UInt8 :=
  match text with
  | [] => (0, [])
  | byte :: rest =>
    if byte = 'e'.toUInt8 || byte = 'E'.toUInt8 then
      let (negative, body) := splitSign rest
      match body.takeWhile isDigit with
      | [] => (0, text)
      | digits =>
        let power : Int := exponentValue digits
        (if negative then -power else power, body.dropWhile isDigit)
    else (0, text)

/-- A decimal numeral at the start, and what follows it. It has a digit before or
after the point. -/
def readDecimal? (text : List UInt8) : Option (Numeral × List UInt8) :=
  let (negative, body) := splitSign text
  let whole := body.takeWhile isDigit
  let (fraction, rest) := splitFraction (body.dropWhile isDigit)
  if whole.isEmpty && fraction.isEmpty then none
  else
    let (exponent, rest) := splitExponent rest
    some (.decimal negative whole fraction exponent, rest)

/-- The longest numeral at the start, and what follows it. -/
def read? (text : List UInt8) : Option (Numeral × List UInt8) :=
  (readHex? text).or (readDecimal? text)

/-- How many digits decide to which float a number rounds: a number halfway between two
floats has fewer digits than this. -/
def decisiveDigits : Nat := 800

/-- A natural number and a power of ten for digits that a power of ten follows. Whether
there is a digit other than zero beyond the decisive ones is kept as one last digit. -/
def decisiveValue (digits : List UInt8) (power : Int) : Nat × Int :=
  let tail := digits.drop decisiveDigits
  if tail.isEmpty then (digitsValue digits, power)
  else
    let last := if tail.all (· = '0'.toUInt8) then 0 else 1
    (digitsValue (digits.take decisiveDigits) * 10 + last, power + tail.length - 1)

/-- The float nearest to the number that digits and a power of ten after them write.
Numbers that no float reaches are decided by their size alone. -/
def decimalFloat (negative : Bool) (digits : List UInt8) (power : Int) : Float :=
  let digits := digits.dropWhile (· = '0'.toUInt8)
  let size := power + digits.length
  if digits.isEmpty || size < -330 then Binary64.ofSignAndBits negative 0
  else if 310 < size then Binary64.ofSignAndBits negative Binary64.infinityBits
  else
    let (value, power) := decisiveValue digits power
    if 0 ≤ power then Binary64.ofRatio negative (value * Nat.pow 10 power.toNat) 1
    else Binary64.ofRatio negative value (Nat.pow 10 (-power).toNat)

/-- The float that a numeral denotes. Hexadecimal digits are taken modulo 2 ^ 64 as a
signed integer before the sign is applied. -/
def toFloat : Numeral → Float
  | .hex negative digits =>
    let value := Binary64.ofInt (hexWord digits).toInt
    if negative then -value else value
  | .decimal negative whole fraction exponent =>
    decimalFloat negative (whole ++ fraction) (exponent - fraction.length)

end Numeral

/-- The bytes of a text after the white space at its start. -/
def numeralBytes (text : String) : List UInt8 :=
  Utf8.encodeChars (Text.trimStart text.toList)

/-- The number that a text starts with, zero if it starts with none. -/
def parseNumber (text : String) : Float :=
  match Numeral.read? (numeralBytes text) with
  | some (numeral, _) => numeral.toFloat
  | none => 0

/-- Whether a text is one numeral with white space around it. -/
def isNumeric (text : String) : Bool :=
  let bytes := Utf8.encodeChars (Text.trim text.toList)
  let whole (read : Option (Numeral × List UInt8)) : Bool :=
    match read with
    | some (_, rest) => rest.isEmpty
    | none => false
  whole (Numeral.readHex? bytes) || whole (Numeral.readDecimal? bytes)

/-- Reads a natural number below a bound from decimal digits, with a plus sign
allowed in front. -/
def parseNat? (bound : Nat) (text : List Char) : Option Nat :=
  let digits := match text with
    | '+' :: rest => rest
    | text => text
  if digits.isEmpty || !digits.all Char.isDigit then none
  else valueBelow? bound 10 (digits.map fun c => c.toNat - 0x30)

end ScriptConsole
