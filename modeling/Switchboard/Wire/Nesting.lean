import Switchboard.Wire.Node

/-!
# Nesting

How deep the parts of a message may lie inside each other. An encoding allows
so many levels, and a message that needs one more is refused.

What is a level is a matter of what the message means and not only of its
tree. The arrays and records of a message are levels in every encoding. The
object around the content of a choice looks like a record with one field, but
an encoding may take it for part of the content. And what is skipped may be
free, or count with everything that is nested in it. So the levels are counted
where trees are turned into messages, and `Nesting` is what is left of them.

## Main definitions

* `Nesting`: The levels still allowed, and what counts as one.
* `Nesting.enter?`, `Nesting.enterChoice?`: What is left one level further in.
* `Nesting.canSkip`: Whether a tree may stand where nobody asks for it.
* `Nesting.items?`, `Nesting.octets?`: The contents of arrays.
-/

namespace Switchboard.Wire

/-- How deep a tree may be nested and what is counted. -/
structure Nesting where
  /-- How many more levels there may be. -/
  room : Nat
  /-- Whether the object around the content of a choice is a level. -/
  countsChoices : Bool
  /-- Whether there are levels in what is skipped. -/
  countsSkipped : Bool
  deriving DecidableEq, Repr, Inhabited

namespace Nesting

/-- What is left inside an array or a record. -/
def enter? (d : Nesting) : Option Nesting :=
  match d.room with
  | 0 => none
  | room + 1 => some { d with room := room }

/-- What is left inside the object around the content of a choice. -/
def enterChoice? (d : Nesting) : Option Nesting :=
  if d.countsChoices then d.enter? else some d

/-- Whether a tree may stand where nobody asks for it. -/
def canSkip (d : Nesting) (node : Node) : Bool :=
  node.isSkippable && (!d.countsSkipped || node.height ≤ d.room)

/-- The items of an array and what is left inside it. No octets are as good as
    no items, and have no inside. -/
def items? (d : Nesting) : Node → Option (Nesting × List Node)
  | .array items => do return (← d.enter?, items)
  | .octets [] => some (d, [])
  | _ => none

/-- Bytes: octets, the octets of a text, or an array of eight-bit words. -/
def octets? (d : Nesting) : Node → Option (List UInt8)
  | .octets bs => some bs
  | .crude bs => some bs
  | .text s => some (encodeUtf8 s)
  | .array items => do
    let _ ← d.enter?
    items.mapM Node.octet?
  | _ => none

end Nesting

end Switchboard.Wire
