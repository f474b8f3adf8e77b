import Switchboard.Wire.Nesting

/-!
# Reading MsgPack

A tree from MsgPack bytes. Numbers and lengths are accepted in every width,
not only in the shortest. Text that is not UTF-8 is kept as octets, and an
item of an extension type is `unusable`, whatever it holds. The reserved
marker is refused, and so is input that ends early; bytes after the first item
are left alone.

The readers are built level by level: `readItem?` reads one item with a given
reader for the items inside it, and `readNode?` ties the levels together. Each
level takes at least one byte, so there can be no more levels than bytes.

## Main definitions

* `MsgPack.nesting`: How deep messages may be nested.
* `MsgPack.natOf`, `MsgPack.intOf`: The number in a run of bytes.
* `MsgPack.Head`: What a marker byte announces.
* `MsgPack.readItem?`: An item and what is left after it.
* `MsgPack.read?`: The first item of some bytes.
-/

namespace Switchboard.Wire.MsgPack

/-- Everything with an inside is a level, be it skipped or not, except for the
    object around the content of a choice. -/
def nesting : Nesting := ⟨1023, false, true⟩

/-- The number that bytes spell, the most significant first. -/
def natOf (bs : List UInt8) : Nat := bs.foldl (fun n b => n * 256 + b.toNat) 0

/-- The signed number that bytes spell as a complement. -/
def intOf (bs : List UInt8) : Int :=
  let n := natOf bs
  let modulus := Nat.pow 256 bs.length
  if 2 * n < modulus then n else (n : Int) - modulus

/-- The first bytes and what is left after them, if there are enough. -/
def splitBytes? (count : Nat) (bs : List UInt8) : Option (List UInt8 × List UInt8) :=
  let front := bs.take count
  if front.length = count then some (front, bs.drop count) else none

/-- What a marker byte announces. -/
inductive Head where
  /-- An item that the marker already is. -/
  | whole (node : Node)
  /-- An unsigned number of some bytes. -/
  | unsigned (width : Nat)
  /-- A signed number of some bytes. -/
  | signed (width : Nat)
  /-- The pattern of a single-precision number. -/
  | single
  /-- The pattern of a double-precision number. -/
  | double
  /-- Text of a known length. -/
  | text (length : Nat)
  /-- Text with a length of some bytes in front. -/
  | textAfter (width : Nat)
  /-- Octets with a length of some bytes in front. -/
  | octetsAfter (width : Nat)
  /-- An array of a known length. -/
  | array (length : Nat)
  /-- An array with a length of some bytes in front. -/
  | arrayAfter (width : Nat)
  /-- An object of a known number of entries. -/
  | object (length : Nat)
  /-- An object with a number of entries of some bytes in front. -/
  | objectAfter (width : Nat)
  /-- An extension of a known length. -/
  | extension (length : Nat)
  /-- An extension with a length of some bytes in front. -/
  | extensionAfter (width : Nat)

/-- What a marker announces; `none` for the reserved one. -/
def head? (marker : Nat) : Option Head :=
  if marker < 0x80 then some (.whole (.natural marker))
  else if marker < 0x90 then some (.object (marker - 0x80))
  else if marker < 0xA0 then some (.array (marker - 0x90))
  else if marker < 0xC0 then some (.text (marker - 0xA0))
  else if 0xE0 ≤ marker then some (.whole (.integer ((marker : Int) - 0x100)))
  else
    match marker with
    | 0xC0 => some (.whole .null)
    | 0xC2 => some (.whole (.bool false))
    | 0xC3 => some (.whole (.bool true))
    | 0xC4 => some (.octetsAfter 1)
    | 0xC5 => some (.octetsAfter 2)
    | 0xC6 => some (.octetsAfter 4)
    | 0xC7 => some (.extensionAfter 1)
    | 0xC8 => some (.extensionAfter 2)
    | 0xC9 => some (.extensionAfter 4)
    | 0xCA => some .single
    | 0xCB => some .double
    | 0xCC => some (.unsigned 1)
    | 0xCD => some (.unsigned 2)
    | 0xCE => some (.unsigned 4)
    | 0xCF => some (.unsigned 8)
    | 0xD0 => some (.signed 1)
    | 0xD1 => some (.signed 2)
    | 0xD2 => some (.signed 4)
    | 0xD3 => some (.signed 8)
    | 0xD4 => some (.extension 1)
    | 0xD5 => some (.extension 2)
    | 0xD6 => some (.extension 4)
    | 0xD7 => some (.extension 8)
    | 0xD8 => some (.extension 16)
    | 0xD9 => some (.textAfter 1)
    | 0xDA => some (.textAfter 2)
    | 0xDB => some (.textAfter 4)
    | 0xDC => some (.arrayAfter 2)
    | 0xDD => some (.arrayAfter 4)
    | 0xDE => some (.objectAfter 2)
    | 0xDF => some (.objectAfter 4)
    | _ => none

/-- The tree of text bytes: text if they are UTF-8, octets otherwise. -/
def textNode (bs : List UInt8) : Node :=
  match decodeUtf8? bs with
  | some s => .text s
  | none => .octets bs

/-- A length in front and what is left after it. -/
def readLength? (width : Nat) (bs : List UInt8) : Option (Nat × List UInt8) := do
  let (front, rest) ← splitBytes? width bs
  return (natOf front, rest)

/-- Text of a length and what is left after it. -/
def readText? (length : Nat) (bs : List UInt8) : Option (Node × List UInt8) := do
  let (front, rest) ← splitBytes? length bs
  return (textNode front, rest)

/-- An extension of a length, not counting the byte that says which one it is,
    and what is left after it. -/
def readExtension? (length : Nat) (bs : List UInt8) : Option (Node × List UInt8) := do
  let (_, rest) ← splitBytes? (1 + length) bs
  return (.unusable, rest)

section Nested

variable {α : Type} (readNested? : List UInt8 → Option (α × List UInt8))

/-- So many items, one after the other, and what is left after them. -/
def readItems? : Nat → List UInt8 → Option (List α × List UInt8)
  | 0, bs => some ([], bs)
  | length + 1, bs => do
    let (item, rest) ← readNested? bs
    let (items, rest) ← readItems? length rest
    return (item :: items, rest)

/-- An entry, the key before the value, and what is left after it. -/
def readPair? (bs : List UInt8) : Option ((α × α) × List UInt8) := do
  let (key, rest) ← readNested? bs
  let (item, rest) ← readNested? rest
  return ((key, item), rest)

end Nested

/-- An item and what is left after it, given how to read what is inside it. -/
def readItem? (readNested? : List UInt8 → Option (Node × List UInt8)) :
    List UInt8 → Option (Node × List UInt8)
  | [] => none
  | marker :: bs => do
    match ← head? marker.toNat with
    | .whole node => return (node, bs)
    | .unsigned width =>
      let (front, rest) ← splitBytes? width bs
      return (.natural (natOf front), rest)
    | .signed width =>
      let (front, rest) ← splitBytes? width bs
      return (.integer (intOf front), rest)
    | .single =>
      let (front, rest) ← splitBytes? 4 bs
      return (.single ⟨(natOf front).toUInt32⟩, rest)
    | .double =>
      let (front, rest) ← splitBytes? 8 bs
      return (.double ⟨(natOf front).toUInt64⟩, rest)
    | .text length => readText? length bs
    | .textAfter width =>
      let (length, rest) ← readLength? width bs
      readText? length rest
    | .octetsAfter width =>
      let (length, rest) ← readLength? width bs
      let (front, rest) ← splitBytes? length rest
      return (.octets front, rest)
    | .array length =>
      let (items, rest) ← readItems? readNested? length bs
      return (.array items, rest)
    | .arrayAfter width =>
      let (length, rest) ← readLength? width bs
      let (items, rest) ← readItems? readNested? length rest
      return (.array items, rest)
    | .object length =>
      let (entries, rest) ← readItems? (readPair? readNested?) length bs
      return (.object entries, rest)
    | .objectAfter width =>
      let (length, rest) ← readLength? width bs
      let (entries, rest) ← readItems? (readPair? readNested?) length rest
      return (.object entries, rest)
    | .extension length => readExtension? length bs
    | .extensionAfter width =>
      let (length, rest) ← readLength? width bs
      readExtension? length rest

/-- An item and what is left after it, where items lie inside each other at
    most so many levels deep. -/
def readNode? : Nat → List UInt8 → Option (Node × List UInt8)
  | 0, _ => none
  | levels + 1, bs => readItem? (readNode? levels) bs

/-- The first item of some bytes. -/
def read? (bs : List UInt8) : Option Node := (readNode? (bs.length + 1) bs).map (·.1)

end Switchboard.Wire.MsgPack
