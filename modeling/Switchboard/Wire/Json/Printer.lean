import Switchboard.Wire.Node
import Switchboard.Decimal.Layout

/-!
# Writing JSON

A tree as JSON text, without blanks. Only what must be escaped is: the quote,
the backslash, and control characters below the blank, the usual five of them
by letter. Numbers that JSON cannot express are written as null. Octets are an
array of numbers.

Floating-point numbers have the fewest digits that read back, written out for
exponents in a middle range and with an exponent outside it. The range is
narrower for single precision.

## Main definitions

* `Json.escape`: A character inside a string.
* `Json.print`: The text of a tree.
-/

namespace Switchboard.Wire.Json

/-- The layout of single-precision numbers. -/
def singleLayout : Layout := ⟨some (-6, 12), ['.', '0'], .toEven⟩

/-- The layout of double-precision numbers. -/
def doubleLayout : Layout := ⟨some (-5, 15), ['.', '0'], .toEven⟩

/-- The hexadecimal digit of a value below sixteen. -/
def hexDigit (n : Nat) : Char :=
  if n < 10 then Char.ofNat (48 + n) else Char.ofNat (87 + n)

/-- A character as it stands inside a string. -/
def escape (c : Char) : List Char :=
  if c = '"' then ['\\', '"']
  else if c = '\\' then ['\\', '\\']
  else if c = '\n' then ['\\', 'n']
  else if c = '\r' then ['\\', 'r']
  else if c = '\t' then ['\\', 't']
  else if c.toNat = 8 then ['\\', 'b']
  else if c.toNat = 12 then ['\\', 'f']
  else if c.toNat < 32 then
    ['\\', 'u', '0', '0', hexDigit (c.toNat / 16), hexDigit (c.toNat % 16)]
  else [c]

/-- A string with its quotes. -/
def quote (s : String) : List Char := '"' :: (s.toList.flatMap escape ++ ['"'])

/-- A whole number. -/
def printInteger (n : Int) : List Char :=
  (if n < 0 then ['-'] else []) ++ Nat.toDigits 10 n.natAbs

/-- A floating-point number; null if it is not finite. -/
def printFloat (layout : Layout) (f : BinaryFormat) : Magnitude → List Char
  | .finite negative significand exponent => layout.write f negative significand exponent
  | _ => ['n', 'u', 'l', 'l']

/-- The written parts between brackets, with commas between them. -/
def enclose (open_ close : Char) (parts : List (List Char)) : List Char :=
  open_ :: (List.intercalate [','] parts ++ [close])

/-- Octets as an array of numbers. -/
def printOctets (bs : List UInt8) : List Char :=
  enclose '[' ']' (bs.map fun b => printInteger b.toNat)

mutual

/-- The characters of a tree. -/
def chars : Node → List Char
  | .null => ['n', 'u', 'l', 'l']
  | .bool true => ['t', 'r', 'u', 'e']
  | .bool false => ['f', 'a', 'l', 's', 'e']
  | .natural n => printInteger n
  | .integer n => printInteger n
  | .single x => printFloat singleLayout .single x.magnitude
  | .double x => printFloat doubleLayout .double x.magnitude
  | .text s => quote s
  | .octets bs => printOctets bs
  | .crude bs => printOctets bs
  | .array items => enclose '[' ']' (charsOfItems items)
  | .object entries => enclose '\x7b' '\x7d' (charsOfEntries entries)
  | .unusable => ['n', 'u', 'l', 'l']

/-- The characters of each item of an array. -/
def charsOfItems : List Node → List (List Char)
  | [] => []
  | n :: ns => chars n :: charsOfItems ns

/-- The characters of each entry of an object. -/
def charsOfEntries : List (Node × Node) → List (List Char)
  | [] => []
  | (key, n) :: rest => (chars key ++ ':' :: chars n) :: charsOfEntries rest

end

/-- The text of a tree. -/
def print (n : Node) : String := String.ofList (chars n)

end Switchboard.Wire.Json
