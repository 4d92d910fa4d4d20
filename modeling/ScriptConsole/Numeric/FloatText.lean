import ScriptConsole.Numeric.Binary64

/-! # The text of floats

Integers below 10 ^ 15 are written without a fraction. Every other float is rounded
to six significant digits, on a tie to the even digit, and written without trailing
zeros: positionally for powers of ten from -4 to 5, and with an exponent of at least
two digits otherwise.
-/

namespace ScriptConsole.FloatText

/-- How many significant digits a float is rounded to. -/
def precision : Nat := 6

/-- The power of ten of the first digit of a fraction below one: multiplies by ten
until it reaches one. -/
def shiftUp : Nat → Nat → Nat → Nat → Int
  | 0, _, _, shift => -shift
  | fuel + 1, num, den, shift =>
    if den ≤ num then -shift else shiftUp fuel (num * 10) den (shift + 1)

/-- The power of ten of the first significant digit of a positive fraction. -/
def leadingPower (num den : Nat) : Int :=
  if den ≤ num then (Nat.toDigits 10 (num / den)).length - 1
  else shiftUp den.log2 (num * 10) den 1

/-- The fraction rounded to six significant digits, with the power of ten of the
first one. -/
def significantDigits (num den : Nat) : Nat × Int :=
  let power := leadingPower num den
  let unit := power - (precision - 1 : Nat)
  let digits :=
    if 0 ≤ unit then Binary64.roundDiv num (den * Nat.pow 10 unit.toNat)
    else Binary64.roundDiv (num * Nat.pow 10 (-unit).toNat) den
  if digits = Nat.pow 10 precision then (Nat.pow 10 (precision - 1), power + 1) else (digits, power)

/-- Whole and fractional digits with a point between them, without the zeros at the
end of the fraction. -/
def positional (whole fraction : List Char) : List Char :=
  match (fraction.reverse.dropWhile (· == '0')).reverse with
  | [] => whole
  | digits => whole ++ '.' :: digits

/-- A decimal exponent with its sign and at least two digits. -/
def exponentText (power : Int) : List Char :=
  let digits := Nat.toDigits 10 power.natAbs
  'e' :: (if power < 0 then '-' else '+') :: (if digits.length < 2 then '0' :: digits else digits)

/-- The text of a positive fraction in six significant digits. -/
def renderRatio (num den : Nat) : List Char :=
  let (digits, power) := significantDigits num den
  let digits := Nat.toDigits 10 digits
  if power < -4 || 6 ≤ power then positional (digits.take 1) (digits.drop 1) ++ exponentText power
  else if power < 0 then positional ['0'] (List.replicate (-power - 1).toNat '0' ++ digits)
  else positional (digits.take (power.toNat + 1)) (digits.drop (power.toNat + 1))

/-- The text of a float. -/
def render (x : Float) : String :=
  let bits := Binary64.magnitudeBits x
  if Binary64.infinityBits < bits then "nan"
  else if bits = Binary64.infinityBits then if Binary64.isNegative x then "-inf" else "inf"
  else
    let (num, den) := Binary64.magnitude x
    let sign := if Binary64.isNegative x then ['-'] else []
    if num % den = 0 && num / den < Nat.pow 10 15 then toString (Binary64.truncate x)
    else String.ofList (sign ++ renderRatio num den)

end ScriptConsole.FloatText
