import Switchboard.Binary.Basic

/-!
# Shortest Decimals

The fewest decimal digits that still read back as a given binary number, and
among those the nearest to it.

Every binary number stands for the interval of reals that round to it: half
way to each neighbour, ends included when its significand is even, and with
the lower half narrower when the number is a power of two. A decimal reads
back exactly when it lies in that interval. For one digit, two digits, and so
on, `shortest` looks at the two multiples of the digit's weight on either side
of the number; the first count for which one of them lies in the interval
wins, and of two that do, the nearer. Where the number is exactly half way
between the two, both are as good, and whoever asks for digits says which one
to take.

Looking at the two neighbours is enough. If any multiple of a weight lies in
an interval around the number, so does the nearest multiple on its side.

## Main definitions

* `Decimal`: Digits and the place of the decimal point.
* `Interval`: The reals that round to a number, in quarters of its last place.
* `Tie`: Which of two equally near decimals is taken.
* `Decimal.shortest`: The digits of a number.
-/

namespace Switchboard

/-- The number `0.d₁d₂… * 10 ^ point`, with no zero at either end of the
    digits. Zero has no digits. -/
structure Decimal where
  /-- The significant digits, as characters. -/
  digits : List Char
  /-- How many digits stand before the point; not positive when zeros follow
      the point. -/
  point : Int
  deriving DecidableEq, Repr

/-- Which of two equally near decimals is taken. -/
inductive Tie where
  /-- The one whose last digit is even. -/
  | toEven
  /-- The greater one. -/
  | up
  deriving DecidableEq, Repr

/-- The quotient rounded to the nearest whole number. -/
def Tie.divide (tie : Tie) (num den : Nat) : Nat :=
  match tie with
  | .toEven => BinaryFormat.divideToEven num den
  | .up => (2 * num + den) / (2 * den)

/-- The reals that round to `4 * significand` quarters of `2 ^ exponent`. Its
    ends are in the same quarters. -/
structure Interval where
  /-- The lower end. -/
  low : Nat
  /-- The number itself. -/
  middle : Nat
  /-- The upper end. -/
  high : Nat
  /-- Whether the ends belong to the interval. -/
  closed : Bool
  /-- The power of two that one quarter weighs. -/
  exponent : Int

namespace Interval

/-- The interval of `significand * 2 ^ exponent` in a format. Below a power of
    two the neighbour is half as far away. -/
def of (f : BinaryFormat) (significand : Nat) (exponent : Int) : Interval where
  low :=
    if significand = twoPow f.fractionBits ∧ f.leastExponent < exponent then 4 * significand - 1
    else 4 * significand - 2
  middle := 4 * significand
  high := 4 * significand + 2
  closed := significand % 2 = 0
  exponent := exponent - 2

/-- Whether `num / den` lies in the interval. -/
def holds (i : Interval) (num den : Nat) : Bool :=
  let scaled := num * twoPow (-i.exponent).toNat
  let unit := den * twoPow i.exponent.toNat
  if i.closed then i.low * unit ≤ scaled && scaled ≤ i.high * unit
  else i.low * unit < scaled && scaled < i.high * unit

end Interval

namespace Decimal

/-- How many decimal digits a whole number has. -/
def digitCount (n : Nat) : Nat := (Nat.toDigits 10 n).length

/-- The least `e` with `num / den < 10 ^ e`, for positive arguments. -/
def pointOf (num den : Nat) : Int :=
  let guess : Int := (digitCount num : Int) - digitCount den
  -- The quotient lies within one power of ten on either side of the guess.
  if den * tenPow guess.toNat ≤ num * tenPow (-guess).toNat then guess + 1 else guess

/-- Drops the zeros at the end of a list of digits. -/
def dropTrailingZeros (digits : List Char) : List Char :=
  (digits.reverse.dropWhile (· == '0')).reverse

/-- The decimal `count * 10 ^ weight`. -/
def ofScaled (count : Nat) (weight : Int) : Decimal :=
  let digits := Nat.toDigits 10 count
  ⟨dropTrailingZeros digits, digits.length + weight⟩

/-- The neighbour of the interval's middle among the multiples of
    `10 ^ weight` that lies in the interval, the nearer of two. -/
def onGrid? (tie : Tie) (i : Interval) (weight : Int) : Option Nat :=
  let up := tenPow weight.toNat
  let down := tenPow (-weight).toNat
  let num := i.middle * twoPow i.exponent.toNat * down
  let den := twoPow (-i.exponent).toNat * up
  let below := num / den
  let fits (count : Nat) : Bool := i.holds (count * up) down
  match fits below, fits (below + 1) with
  | true, false => some below
  | false, true => some (below + 1)
  | true, true => some (tie.divide num den)
  | false, false => none

/-- The first grid of at most `left` digits more that has a point in the
    interval, starting from the weight of the digit in hand. -/
def search (tie : Tie) (i : Interval) (left : Nat) (weight : Int) : Decimal :=
  match left with
  | 0 => ofScaled 0 weight
  | left + 1 =>
    match onGrid? tie i weight with
    | some count => ofScaled count weight
    | none => search tie i left (weight - 1)

/-- Digits that always suffice: seventeen for the wider format. -/
def enoughDigits : Nat := 17

/-- The shortest decimal that reads back as `significand * 2 ^ exponent`,
    nearest to it among the shortest, for a positive significand. -/
def shortest (tie : Tie) (f : BinaryFormat) (significand : Nat) (exponent : Int) : Decimal :=
  let i := Interval.of f significand exponent
  let point := pointOf (i.middle * twoPow i.exponent.toNat) (twoPow (-i.exponent).toNat)
  search tie i enoughDigits (point - 1)

end Decimal

end Switchboard
