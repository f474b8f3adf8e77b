/-!
# Binary Floating-Point Formats

What a bit pattern of an IEEE 754 binary interchange format denotes, and which
pattern a rational number rounds to.

Floating-point numbers enter the server as bit patterns, are compared as bit
patterns and leave as bit patterns, so the library never computes with a
machine's floating-point unit. A pattern is read into a sign, a whole
significand and a power of two; arithmetic is done on whole numbers; and
`BinaryFormat.round` brings the exact result back to the nearest pattern, an
exact tie going to the even one.

The format is a parameter. Everything said here holds of the 32-bit and the
64-bit format alike, and the difference between them is two numbers.

`round` relies on one property of the encoding: above zero, patterns taken as
whole numbers are in the order of the values they denote, and consecutive
patterns denote neighbouring values. With `e` the exponent of the rounded
significand `q` and `f` the number of fraction bits, the pattern is
`(e - least) * 2 ^ f + q` whether `q` is subnormal, normal, or one past the
largest significand because rounding carried.

## Main definitions

* `BinaryFormat`: The widths of the two fields of a format.
* `Magnitude`: What a pattern denotes.
* `BinaryFormat.read`: The number a pattern denotes.
* `BinaryFormat.round`: The pattern nearest to a rational.
* `BinaryFormat.same`: Equality of the denoted numbers.
-/

namespace Switchboard

/-- A power of two. -/
def twoPow (n : Nat) : Nat := Nat.pow 2 n

/-- A power of ten. -/
def tenPow (n : Nat) : Nat := Nat.pow 10 n

/-- The field widths of a binary interchange format. Above the fraction stands
    the exponent, and above that one sign bit. -/
structure BinaryFormat where
  /-- Bits of the stored fraction. -/
  fractionBits : Nat
  /-- Bits of the biased exponent. -/
  exponentBits : Nat

/-- What a bit pattern denotes. -/
inductive Magnitude where
  /-- No number at all. -/
  | nan
  /-- An infinity of either sign. -/
  | infinite (negative : Bool)
  /-- The number `significand * 2 ^ exponent`, negated if `negative`. Zero
      keeps its sign. -/
  | finite (negative : Bool) (significand : Nat) (exponent : Int)
  deriving DecidableEq, Repr

namespace BinaryFormat

/-- The format with 24 bits of precision. -/
def single : BinaryFormat := ⟨23, 8⟩

/-- The format with 53 bits of precision. -/
def double : BinaryFormat := ⟨52, 11⟩

variable (f : BinaryFormat)

/-- The pattern of positive infinity: an exponent of all ones, no fraction. -/
def infinity : Nat := (twoPow f.exponentBits - 1) * twoPow f.fractionBits

/-- The weight of the sign bit. -/
def signBit : Nat := twoPow (f.fractionBits + f.exponentBits)

/-- The pattern of the quiet not-a-number without payload. -/
def quietNaN : Nat := f.infinity + twoPow (f.fractionBits - 1)

/-- The exponent of the least positive number, which is also the exponent of
    every subnormal significand. -/
def leastExponent : Int := 2 - (twoPow (f.exponentBits - 1) : Nat) - f.fractionBits

/-- Sets the sign bit of a positive pattern. -/
def withSign (negative : Bool) (pattern : Nat) : Nat :=
  if negative then f.signBit + pattern else pattern

/-- Whether the pattern denotes no number. -/
def isNaN (pattern : Nat) : Bool := f.infinity < pattern % f.signBit

/-- The number a pattern denotes. -/
def read (pattern : Nat) : Magnitude :=
  let negative := pattern / f.signBit % 2 == 1
  let magnitude := pattern % f.signBit
  if f.infinity < magnitude then .nan
  else if magnitude = f.infinity then .infinite negative
  else
    let field := magnitude / twoPow f.fractionBits
    let fraction := magnitude % twoPow f.fractionBits
    if field = 0 then .finite negative fraction f.leastExponent
    else .finite negative (twoPow f.fractionBits + fraction) (f.leastExponent + (field - 1 : Nat))

/-- The number of bits before the point of `num / den`, less one: the greatest
    `e` with `2 ^ e ≤ num / den`, for positive arguments. -/
def floorLog2 (num den : Nat) : Int :=
  let guess : Int := (num.log2 : Int) - den.log2
  -- The quotient of the leading powers is right or one too large.
  if num * twoPow (-guess).toNat < den * twoPow guess.toNat then guess - 1 else guess

/-- The quotient rounded to the nearest whole number, a half to the even one. -/
def divideToEven (num den : Nat) : Nat :=
  let quotient := num / den
  let twice := 2 * (num % den)
  if twice < den then quotient
  else if den < twice then quotient + 1
  else quotient + quotient % 2

/-- The pattern nearest to `num / den` with the given sign. Beyond the largest
    finite number it is infinity; zero and what is too small for the least
    positive number is zero of that sign. -/
def round (negative : Bool) (num den : Nat) : Nat :=
  if num = 0 then f.withSign negative 0
  else
    let exponent := max f.leastExponent (floorLog2 num den - f.fractionBits)
    let significand := divideToEven (num * twoPow (-exponent).toNat) (den * twoPow exponent.toNat)
    let pattern := (exponent - f.leastExponent).toNat * twoPow f.fractionBits + significand
    f.withSign negative (min pattern f.infinity)

/-- The pattern nearest to `significand * 2 ^ exponent`. -/
def roundScaled (negative : Bool) (significand : Nat) (exponent : Int) : Nat :=
  f.round negative (significand * twoPow exponent.toNat) (twoPow (-exponent).toNat)

/-- The pattern nearest to what another format's pattern denotes. -/
def ofMagnitude : Magnitude → Nat
  | .nan => f.quietNaN
  | .infinite negative => f.withSign negative f.infinity
  | .finite negative significand exponent => f.roundScaled negative significand exponent

/-- The pattern nearest to a whole number. -/
def ofInt (n : Int) : Nat := f.round (n < 0) n.natAbs 1

/-- Whether two patterns denote the same number: zeros of either sign agree,
    and no number is no equal of anything. -/
def same (p q : Nat) : Bool :=
  !f.isNaN p && !f.isNaN q && (p == q || (p % f.signBit == 0 && q % f.signBit == 0))

end BinaryFormat

end Switchboard
