/-!
# Reading Integers

Reading a 32-bit integer from a text that holds nothing else: an optional
sign and at least one decimal digit. Digits are taken from the left, and the
first one that cannot be taken decides what is wrong with the text, so a
number that has grown out of range is reported even if letters follow.

## Main definitions

* `IntegerFault`: What is wrong with a text, with `IntegerFault.message`.
* `readInt32`: The integer a text stands for.
-/

namespace Switchboard

/-- What is wrong with a text that stands for no integer. -/
inductive IntegerFault where
  | empty
  | invalidDigit
  | tooLarge
  | tooSmall
  deriving DecidableEq, Repr

/-- What a client is told. -/
def IntegerFault.message : IntegerFault → String
  | .empty => "cannot parse integer from empty string"
  | .invalidDigit => "invalid digit found in string"
  | .tooLarge => "number too large to fit in target type"
  | .tooSmall => "number too small to fit in target type"

/-- The value of a decimal digit. -/
def digitValue? (c : Char) : Option Nat := if c.isDigit then some (c.toNat - 48) else none

/-- Takes the digits of a number with the given sign, on top of the value of
    those already taken. -/
def takeDigits (negative : Bool) (value : Int) : List Char → Except IntegerFault Int32
  | [] => .ok (Int32.ofInt value)
  | c :: rest =>
    match digitValue? c with
    | none => .error .invalidDigit
    | some digit =>
      let value := if negative then value * 10 - digit else value * 10 + digit
      if value < -2147483648 then .error .tooSmall
      else if 2147483647 < value then .error .tooLarge
      else takeDigits negative value rest

/-- The 32-bit integer a text stands for. -/
def readInt32 (s : String) : Except IntegerFault Int32 :=
  match s.toList with
  | [] => .error .empty
  | ['-'] => .error .invalidDigit
  | ['+'] => .error .invalidDigit
  | '-' :: digits => takeDigits true 0 digits
  | '+' :: digits => takeDigits false 0 digits
  | digits => takeDigits false 0 digits

end Switchboard
