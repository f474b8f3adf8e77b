import Switchboard.Binary.Format

/-!
# Single and Double Precision

The two floating-point types of the value model, each a bit pattern of its
width. Two numbers of a type are the same Lean value exactly when their
patterns agree bit for bit, which is what a faithful encoding has to preserve;
the comparison that clients mean by "equal" is the separate, coarser `same`.

Sums and scalings are computed exactly on whole numbers and rounded once, as
the standard demands of a single operation.

## Main definitions

* `Binary32`, `Binary64`: The two types.
* `Binary32.widen`, `Binary64.narrow`: Conversions between them.
* `Binary64.add`, `Binary64.timesPow10`, `Binary64.overPow10`: Correctly
  rounded operations.
-/

namespace Switchboard

/-- A single-precision number, by its bit pattern. -/
structure Binary32 where
  /-- The pattern. -/
  bits : UInt32
  deriving DecidableEq, Repr, Inhabited

/-- A double-precision number, by its bit pattern. -/
structure Binary64 where
  /-- The pattern. -/
  bits : UInt64
  deriving DecidableEq, Repr, Inhabited

namespace Binary32

/-- What the pattern denotes. -/
def magnitude (x : Binary32) : Magnitude := BinaryFormat.single.read x.bits.toNat

/-- Numeric equality: zeros agree, and no number equals nothing. -/
def same (x y : Binary32) : Bool := BinaryFormat.single.same x.bits.toNat y.bits.toNat

/-- The nearest number to a whole number. -/
def ofInt (n : Int) : Binary32 := ⟨(BinaryFormat.single.ofInt n).toUInt32⟩

/-- The same number in the wider format, which holds all of this one. -/
def widen (x : Binary32) : Binary64 :=
  ⟨(BinaryFormat.double.ofMagnitude x.magnitude).toUInt64⟩

end Binary32

namespace Binary64

/-- What the pattern denotes. -/
def magnitude (x : Binary64) : Magnitude := BinaryFormat.double.read x.bits.toNat

/-- Numeric equality: zeros agree, and no number equals nothing. -/
def same (x y : Binary64) : Bool := BinaryFormat.double.same x.bits.toNat y.bits.toNat

/-- The nearest number to a whole number. -/
def ofInt (n : Int) : Binary64 := ⟨(BinaryFormat.double.ofInt n).toUInt64⟩

/-- The nearest number in the narrower format. -/
def narrow (x : Binary64) : Binary32 :=
  ⟨(BinaryFormat.single.ofMagnitude x.magnitude).toUInt32⟩

/-- The nearest number to `num / den` with a sign. -/
def ofRatio (negative : Bool) (num den : Nat) : Binary64 :=
  ⟨(BinaryFormat.double.round negative num den).toUInt64⟩

/-- Zero of either sign. -/
def zero (negative : Bool) : Binary64 := ofRatio negative 0 1

/-- An infinity of either sign. -/
def infinity (negative : Bool) : Binary64 :=
  ⟨(BinaryFormat.double.ofMagnitude (.infinite negative)).toUInt64⟩

/-- No number. -/
def nan : Binary64 := ⟨BinaryFormat.double.quietNaN.toUInt64⟩

/-- The sum, rounded once. A sum that cancels exactly is positive zero; zeros
    of one sign keep it. -/
def add (x y : Binary64) : Binary64 :=
  match x.magnitude, y.magnitude with
  | .nan, _ => nan
  | _, .nan => nan
  | .infinite a, .infinite b => if a == b then infinity a else nan
  | .infinite a, .finite .. => infinity a
  | .finite .., .infinite b => infinity b
  | .finite a m d, .finite b n e =>
    let low := min d e
    let signed (negative : Bool) (significand : Nat) (exponent : Int) : Int :=
      let whole : Int := significand * twoPow (exponent - low).toNat
      if negative then -whole else whole
    let sum := signed a m d + signed b n e
    if sum = 0 then zero (a && b)
    else ⟨(BinaryFormat.double.roundScaled (sum < 0) sum.natAbs low).toUInt64⟩

/-- The largest power of ten below the largest finite number. -/
def greatestPow10 : Nat := 308

/-- The finite number and a power of ten as whole numbers over a common power
    of two, the operands of a scaling. The power is itself rounded to a number
    of this type first. -/
def scaleOperands (x : Binary64) (power : Nat) : Option (Bool × Nat × Int × Nat × Int) :=
  match x.magnitude, (ofInt (tenPow power)).magnitude with
  | .finite negative m d, .finite _ n e => some (negative, m, d, n, e)
  | _, _ => none

/-- A finite number times a power of ten, rounded once. -/
def timesPow10 (x : Binary64) (power : Nat) : Binary64 :=
  match scaleOperands x power with
  | some (negative, m, d, n, e) =>
    ⟨(BinaryFormat.double.roundScaled negative (m * n) (d + e)).toUInt64⟩
  | none => x

/-- A finite number divided by a power of ten, rounded once. -/
def overPow10 (x : Binary64) (power : Nat) : Binary64 :=
  match scaleOperands x power with
  | some (negative, m, d, n, e) =>
    let shift := d - e
    ofRatio negative (m * twoPow shift.toNat) (n * twoPow (-shift).toNat)
  | none => x

/-- Whether the number is zero of either sign. -/
def isZero (x : Binary64) : Bool :=
  match x.magnitude with
  | .finite _ significand _ => significand == 0
  | _ => false

/-- Whether the number is an infinity. -/
def isInfinite (x : Binary64) : Bool :=
  match x.magnitude with
  | .infinite _ => true
  | _ => false

end Binary64

end Switchboard
