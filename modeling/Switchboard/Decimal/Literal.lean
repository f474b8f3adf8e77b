import Switchboard.Binary.Basic

/-!
# Reading Decimal Numbers

What a decimal literal denotes: a whole number if it is written as one and
fits a 64-bit word, a double-precision number otherwise.

A double is read the quick way. As many leading digits as fit an unsigned
64-bit word form the significand, the others only count towards the exponent;
the significand is rounded to a double and then scaled by a power of ten with
one more rounding. The result is exact for short literals and may be off in
the last place for long ones, so it is part of the format rather than of
arithmetic, and is stated here as the sequence of rounded steps it is.

## Main definitions

* `DecimalLiteral`: The parts of a literal.
* `DecimalReading`: What a literal can denote.
* `DecimalLiteral.read`: What a literal does denote.
-/

namespace Switchboard

/-- A decimal literal taken apart. -/
structure DecimalLiteral where
  /-- Whether a minus sign leads. -/
  negative : Bool
  /-- The digits before the point. -/
  whole : List Nat
  /-- The digits after the point, if there is one. -/
  fraction : Option (List Nat)
  /-- The power of ten, if one is written. -/
  exponent : Option Int
  deriving DecidableEq, Repr

/-- What a literal denotes. -/
inductive DecimalReading where
  /-- A whole number between the least signed and the greatest unsigned 64-bit
      word. -/
  | integer (n : Int)
  /-- A number that is written with a fraction, an exponent, a negative zero,
      or too many digits. -/
  | real (x : Binary64)
  /-- A number beyond the largest double. -/
  | outOfRange
  deriving DecidableEq, Repr

namespace DecimalLiteral

/-- The greatest significand, a 64-bit word of ones. -/
def greatestSignificand : Nat := 18446744073709551615

/-- Appends digits to a significand while it fits a word, and counts those
    left over. -/
def accumulate (significand : Nat) : List Nat → Nat × Nat
  | [] => (significand, 0)
  | digit :: rest =>
    if significand * 10 + digit ≤ greatestSignificand then
      accumulate (significand * 10 + digit) rest
    else (significand, rest.length + 1)

/-- Divides by a power of ten, in steps no larger than a double can hold.
    Once the number is zero it stays so. -/
def scaleDown (x : Binary64) (power : Nat) : Binary64 :=
  if power ≤ Binary64.greatestPow10 then x.overPow10 power
  else if x.isZero then x
  else scaleDown (x.overPow10 Binary64.greatestPow10) (power - Binary64.greatestPow10)
termination_by power
decreasing_by
  simp only [Binary64.greatestPow10] at *
  omega

/-- A significand times a power of ten, or `none` beyond the largest double. -/
def scale? (significand : Nat) (exponent : Int) : Option Binary64 :=
  let x := Binary64.ofInt significand
  if exponent < 0 then some (scaleDown x exponent.natAbs)
  else if x.isZero then some x
  else if Binary64.greatestPow10 < exponent then none
  else
    let y := x.timesPow10 exponent.toNat
    if y.isInfinite then none else some y

/-- Turns the sign of a number that is not negative. -/
def signed (negative : Bool) (x : Binary64) : Binary64 :=
  if negative then ⟨x.bits + 0x8000000000000000⟩ else x

/-- What the literal denotes when it is no whole number. -/
def readReal (l : DecimalLiteral) : DecimalReading :=
  let fraction := l.fraction.getD []
  let (leading, droppedWhole) := accumulate 0 l.whole
  let (significand, droppedFraction) := accumulate leading fraction
  let places : Int := (fraction.length : Int) - droppedFraction
  match scale? significand (droppedWhole - places + l.exponent.getD 0) with
  | some x => .real (signed l.negative x)
  | none => .outOfRange

/-- What the literal denotes. A minus sign before zero makes a real zero, and
    one before a word beyond the signed range a real number. -/
def read (l : DecimalLiteral) : DecimalReading :=
  match l.fraction, l.exponent, accumulate 0 l.whole with
  | none, none, (n, 0) =>
    if !l.negative then .integer n
    else if 0 < n ∧ n ≤ 9223372036854775808 then .integer (-n)
    else l.readReal
  | _, _, _ => l.readReal

end DecimalLiteral

end Switchboard
