import Switchboard.Wire.Node

/-!
# Writing MsgPack

A tree as MsgPack bytes. Every item begins with a marker byte that says what
it is and how long it is, so an item is never a proper prefix of another. The
shortest marker that fits is used, for whole numbers as well as for lengths;
numbers that are not negative are always written without a sign.

## Main definitions

* `MsgPack.bigEndian`: A number in a fixed count of bytes.
* `MsgPack.header`: The marker of something with a length.
* `MsgPack.bytes`: The bytes of a tree.
-/

namespace Switchboard.Wire.MsgPack

/-- The last `width` bytes of a number, the most significant first. -/
def bigEndian : Nat → Nat → List UInt8
  | 0, _ => []
  | width + 1, n => bigEndian width (n / 256) ++ [n.toUInt8]

/-- How the length of one kind of item is written. -/
structure HeaderForm where
  /-- The first of the markers that hold the length themselves, and how many
      there are. -/
  fixed : Nat × Nat
  /-- The marker before a length of one byte, if there is one. -/
  byte : Option Nat
  /-- The marker before a length of two bytes. -/
  short : Nat
  /-- The marker before a length of four bytes. -/
  long : Nat

/-- Text. -/
def textForm : HeaderForm := ⟨(0xA0, 32), some 0xD9, 0xDA, 0xDB⟩

/-- Octets. -/
def octetsForm : HeaderForm := ⟨(0, 0), some 0xC4, 0xC5, 0xC6⟩

/-- Arrays. -/
def arrayForm : HeaderForm := ⟨(0x90, 16), none, 0xDC, 0xDD⟩

/-- Objects. -/
def objectForm : HeaderForm := ⟨(0x80, 16), none, 0xDE, 0xDF⟩

/-- The shortest header for a length. -/
def header (form : HeaderForm) (length : Nat) : List UInt8 :=
  if length < form.fixed.2 then [(form.fixed.1 + length).toUInt8]
  else
    let wider : List UInt8 :=
      if length < 0x10000 then form.short.toUInt8 :: bigEndian 2 length
      else form.long.toUInt8 :: bigEndian 4 length
    match form.byte with
    | some marker =>
      if length < 0x100 then marker.toUInt8 :: bigEndian 1 length else wider
    | none => wider

/-- A number without sign in the shortest form. -/
def naturalBytes (n : Nat) : List UInt8 :=
  if n < 0x80 then [n.toUInt8]
  else if n < 0x100 then 0xCC :: bigEndian 1 n
  else if n < 0x10000 then 0xCD :: bigEndian 2 n
  else if n < 0x100000000 then 0xCE :: bigEndian 4 n
  else 0xCF :: bigEndian 8 n

/-- A whole number in the shortest form. Negative ones are written as their
    complement to the power of two of the width. -/
def integerBytes : Int → List UInt8
  | .ofNat n => naturalBytes n
  | .negSucc n =>
    if n < 0x20 then [(0xFF - n).toUInt8]
    else if n < 0x80 then 0xD0 :: bigEndian 1 (0xFF - n)
    else if n < 0x8000 then 0xD1 :: bigEndian 2 (0xFFFF - n)
    else if n < 0x80000000 then 0xD2 :: bigEndian 4 (0xFFFFFFFF - n)
    else 0xD3 :: bigEndian 8 (0xFFFFFFFFFFFFFFFF - n)

mutual

/-- The bytes of a tree. -/
def bytes : Node → List UInt8
  | .null => [0xC0]
  | .bool false => [0xC2]
  | .bool true => [0xC3]
  | .natural n => naturalBytes n
  | .integer n => integerBytes n
  | .single x => 0xCA :: bigEndian 4 x.bits.toNat
  | .double x => 0xCB :: bigEndian 8 x.bits.toNat
  | .text s =>
    let octets := encodeUtf8 s
    header textForm octets.length ++ octets
  | .octets bs => header octetsForm bs.length ++ bs
  | .crude bs => header octetsForm bs.length ++ bs
  | .array items => header arrayForm items.length ++ bytesOfItems items
  | .object entries => header objectForm entries.length ++ bytesOfEntries entries
  | .unusable => [0xC0]

/-- The bytes of the items of an array, one after the other. -/
def bytesOfItems : List Node → List UInt8
  | [] => []
  | n :: ns => bytes n ++ bytesOfItems ns

/-- The bytes of the entries of an object, each key before its value. -/
def bytesOfEntries : List (Node × Node) → List UInt8
  | [] => []
  | (key, n) :: rest => bytes key ++ (bytes n ++ bytesOfEntries rest)

end

end Switchboard.Wire.MsgPack
