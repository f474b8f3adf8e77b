import Switchboard.Wire.Json.Printer
import Switchboard.Wire.Json.Reader
import Switchboard.Wire.MsgPack.Printer
import Switchboard.Wire.MsgPack.Reader
import Switchboard.Wire.Record

/-!
# Serialisable Types

A type is serialisable when its values have trees. Everything else follows:
the two encodings write and read trees, so a type that has them can be sent in
either.

## Main definitions

* `Serial`: Types with trees.
* `toJson`, `ofJson?`: The JSON form of a value.
* `toMsgPack`, `ofMsgPack?`: The MsgPack form of a value.
-/

namespace Switchboard.Wire

/-- A type whose values can be written as trees and read from them. -/
class Serial (α : Type) where
  /-- The tree of a value. -/
  toNode : α → Node
  /-- The value of a tree, if it is the tree of one and nested no deeper than
      allowed. -/
  ofNode? : Nesting → Node → Option α

export Serial (toNode ofNode?)

variable {α : Type} [Serial α]

/-- The JSON text of a value. -/
def toJson (a : α) : String := Json.print (toNode a)

/-- The value that a JSON text is the form of. -/
def ofJson? (s : String) : Option α := do ofNode? Json.nesting (← Json.read? s)

/-- The MsgPack bytes of a value. -/
def toMsgPack (a : α) : List UInt8 := MsgPack.bytes (toNode a)

/-- The value whose form the first item of some bytes is. -/
def ofMsgPack? (bs : List UInt8) : Option α := do ofNode? MsgPack.nesting (← MsgPack.read? bs)

end Switchboard.Wire
