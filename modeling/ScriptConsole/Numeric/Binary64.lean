/-! # Exact arithmetic on 64-bit floats

A finite float is a natural number times a power of two. Conversions from and to
other kinds of numbers are computed exactly on that form and rounded once, to the
nearest float and on a tie to the even one.
-/

namespace ScriptConsole.Binary64

/-- The significand of a float that is not tiny lies between this power of two and the
next one. -/
def leadingBit : Nat := Nat.pow 2 52

/-- The bit that holds the sign of a float. -/
def signBit : Nat := Nat.pow 2 63

/-- The quotient rounded to the nearest natural number, on a tie to the even one. -/
def roundDiv (num den : Nat) : Nat :=
  let quotient := num / den
  let twice := 2 * (num % den)
  if twice < den then quotient
  else if den < twice then quotient + 1
  else quotient + quotient % 2

/-- The fraction `num / den` divided by a power of two. -/
def scale (num den : Nat) (power : Int) : Nat × Nat :=
  if 0 ≤ power then (num, den * Nat.pow 2 power.toNat) else (num * Nat.pow 2 (-power).toNat, den)

/-- The power of two of the unit in the last place of a float near `num / den`. The
estimate from the bit lengths is at most one too large. -/
def unitPower (num den : Nat) : Int :=
  let estimate : Int := (num.log2 : Int) - den.log2 - 52
  let scaled := scale num den estimate
  let power := if scaled.1 / scaled.2 < leadingBit then estimate - 1 else estimate
  max power (-1074)

/-- The bits of positive infinity. -/
def infinityBits : Nat := 0x7FF * leadingBit

/-- The bits of the float nearest to `num / den`. A carry out of the significand moves
into the exponent. -/
def nearestBits (num den : Nat) : Nat :=
  if num = 0 then 0
  else
    let power := unitPower num den
    let scaled := scale num den power
    min ((power + 1074).toNat * leadingBit + roundDiv scaled.1 scaled.2) infinityBits

/-- The float with a sign and the bits of a magnitude. -/
def ofSignAndBits (negative : Bool) (bits : Nat) : Float :=
  Float.ofBits (UInt64.ofNat (if negative then bits + signBit else bits))

/-- The float nearest to a fraction, with a sign of its own. -/
def ofRatio (negative : Bool) (num den : Nat) : Float :=
  ofSignAndBits negative (nearestBits num den)

/-- The float nearest to an integer. -/
def ofInt (n : Int) : Float :=
  ofRatio (n < 0) n.natAbs 1

/-- Whether the sign bit is set. -/
def isNegative (x : Float) : Bool :=
  signBit ≤ x.toBits.toNat

/-- The bits below the sign. -/
def magnitudeBits (x : Float) : Nat :=
  x.toBits.toNat % signBit

/-- The float without its sign. -/
def abs (x : Float) : Float :=
  ofSignAndBits false (magnitudeBits x)

/-- The significand `m` and power `p` with which a finite float is `m * 2 ^ p` in
magnitude. -/
def significand (x : Float) : Nat × Int :=
  let bits := magnitudeBits x
  let exponent : Nat := bits / leadingBit
  let fraction : Nat := bits % leadingBit
  if exponent = 0 then (fraction, -1074) else (fraction + leadingBit, (exponent : Int) - 1075)

/-- The magnitude of a finite float as a fraction. -/
def magnitude (x : Float) : Nat × Nat :=
  let (m, p) := significand x
  if 0 ≤ p then (m * Nat.pow 2 p.toNat, 1) else (m, Nat.pow 2 (-p).toNat)

/-- Whether a finite float is an integer. -/
def isIntegral (x : Float) : Bool :=
  let (num, den) := magnitude x
  num % den = 0

/-- The integer part of a finite float, rounded towards zero. -/
def truncate (x : Float) : Int :=
  let (num, den) := magnitude x
  if isNegative x then -↑(num / den) else ↑(num / den)

/-- The greatest integer that is not above a finite float. -/
def floor (x : Float) : Int :=
  let (num, den) := magnitude x
  if isNegative x then -↑((num + den - 1) / den) else ↑(num / den)

/-- The least magnitude that no positive 64-bit integer has. -/
def wordBound : Int := ↑(Nat.pow 2 63)

/-- The 64-bit integer nearest to an integer. -/
def clamp (n : Int) : Int64 :=
  Int64.ofInt (max (-wordBound) (min n (wordBound - 1)))

/-- Brings a float to 64 bits with a rounding of finite floats. What is not a number
becomes zero and an infinity the nearest bound. -/
def toInt64With (round : Float → Int) (x : Float) : Int64 :=
  if infinityBits < magnitudeBits x then 0
  else if magnitudeBits x = infinityBits then
    if isNegative x then clamp (-wordBound) else clamp wordBound
  else clamp (round x)

/-- The 64-bit integer part of a float. -/
def toInt64 (x : Float) : Int64 :=
  toInt64With truncate x

end ScriptConsole.Binary64
