import Switchboard.Decimal.Shortest

/-!
# Writing Floating-Point Numbers

How the digits chosen for a number are laid out as text. The digits are the
same everywhere, ties apart; what differs between the places that write numbers
is when they stop writing out all places and turn to an exponent, and whether a
whole number says that it could have had a fraction. Each place states its
choices in one `Layout`.

## Main definitions

* `Layout`: When an exponent is written, what follows a whole number, and
  where ties go.
* `Layout.write`: The text of a finite number.
* `Layout.plain`: Every place written out, nothing added to whole numbers.
* `Binary32.text`, `Binary64.text`: The text of a number in messages.
-/

namespace Switchboard

/-- The choices a place that writes numbers makes. -/
structure Layout where
  /-- The exponents of the first digit for which all places are written out;
      `none` if they always are. -/
  positional : Option (Int × Int)
  /-- What follows the last digit of a whole number. -/
  wholeSuffix : List Char
  /-- Which of two equally near decimals is written. -/
  tie : Tie

namespace Layout

/-- All places written out, whatever the size. Ties go up. -/
def plain : Layout := ⟨none, [], .up⟩

/-- The digits with every place between them and the point filled in. -/
def writeOut (l : Layout) (d : Decimal) : List Char :=
  if d.point ≤ 0 then
    '0' :: '.' :: (List.replicate (-d.point).toNat '0' ++ d.digits)
  else if (d.digits.length : Int) ≤ d.point then
    d.digits ++ List.replicate (d.point - d.digits.length).toNat '0' ++ l.wholeSuffix
  else
    d.digits.take d.point.toNat ++ '.' :: d.digits.drop d.point.toNat

/-- One digit before the point and the power of ten with its sign. -/
def writeExponent (d : Decimal) : List Char :=
  let exponent := d.point - 1
  let fraction :=
    match d.digits.drop 1 with
    | [] => []
    | rest => '.' :: rest
  d.digits.take 1 ++ fraction ++
    'e' :: (if exponent < 0 then '-' else '+') :: Nat.toDigits 10 exponent.natAbs

/-- The digits of a positive number as text. -/
def writeDecimal (l : Layout) (d : Decimal) : List Char :=
  match l.positional with
  | none => l.writeOut d
  | some (least, greatest) =>
    if least ≤ d.point - 1 ∧ d.point - 1 ≤ greatest then l.writeOut d else writeExponent d

/-- The text of `significand * 2 ^ exponent` with its sign. -/
def write (l : Layout) (f : BinaryFormat) (negative : Bool) (significand : Nat)
    (exponent : Int) : List Char :=
  let sign := if negative then ['-'] else []
  if significand = 0 then sign ++ '0' :: l.wholeSuffix
  else sign ++ l.writeDecimal (Decimal.shortest l.tie f significand exponent)

/-- The text of a number in a message, with words for what is not finite. -/
def text (l : Layout) (f : BinaryFormat) : Magnitude → String
  | .nan => "NaN"
  | .infinite negative => if negative then "-inf" else "inf"
  | .finite negative significand exponent =>
    String.ofList (l.write f negative significand exponent)

end Layout

/-- The text of a single-precision number in a message. -/
def Binary32.text (x : Binary32) : String := Layout.plain.text .single x.magnitude

/-- The text of a double-precision number in a message. -/
def Binary64.text (x : Binary64) : String := Layout.plain.text .double x.magnitude

end Switchboard
