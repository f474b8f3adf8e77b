import Switchboard.Binary.Basic

/-!
# What Stands on the Wire

The data model both encodings share: a tree of null, booleans, whole and
floating-point numbers, text, octets, arrays and objects.

A message is turned into a tree, and the tree into JSON text or MsgPack bytes;
reading goes the other way. So the encodings know nothing about messages and
the messages nothing about encodings, and a law about either is proved once.

Reading has to be more tolerant than the trees that are written. Fields nobody
asked for are skipped with little regard to what they hold, so a text is not
malformed because of a number no field could take or a half of a character
pair, as long as nobody asks for it. The reader gives such a thing the tree
`unusable`, or leaves it as octets, and the functions here that extract a
value from a tree refuse it.

The opposite exists too. A string may be malformed for everybody but the one
who asks for its octets, and then it may not even be skipped. It becomes
`crude`, and `isSkippable` finds it wherever it stands in a tree.

## Main definitions

* `Node`: The trees.
* `Node.ofInt`: The tree of a whole number.
* `Node.isSkippable`: Whether a tree is well formed for everybody.
* `Node.height`: How many levels of nesting a tree has.
* `Node.integer?`, `Node.text?`, …: What a tree holds, if it is of a form that
  can be asked for it.
-/

namespace Switchboard.Wire

/-- A tree of serialised data. -/
inductive Node where
  | null
  | bool (b : Bool)
  /-- A whole number of an encoding that tells numbers without sign from
      numbers with one. It may stand for a name, by its place in a list. -/
  | natural (n : Nat)
  | integer (n : Int)
  | single (x : Binary32)
  | double (x : Binary64)
  | text (s : String)
  /-- Bytes that need not be text. -/
  | octets (bs : List UInt8)
  /-- The bytes of a string that is well formed only as bytes. -/
  | crude (bs : List UInt8)
  | array (items : List Node)
  | object (entries : List (Node × Node))
  /-- Something well formed that no field can hold. -/
  | unusable
  deriving Inhabited

/-- The text that octets spell in UTF-8, if they do. -/
def decodeUtf8? (bs : List UInt8) : Option String := String.fromUTF8? ⟨bs.toArray⟩

/-- The UTF-8 octets of a text. -/
def encodeUtf8 (s : String) : List UInt8 := s.toUTF8.data.toList

namespace Node

/-- The tree of a whole number. -/
def ofInt : Int → Node
  | .ofNat n => .natural n
  | .negSucc n => .integer (.negSucc n)

mutual

/-- Whether no part of a tree is malformed unless read as octets. -/
def isSkippable : Node → Bool
  | .crude _ => false
  | .array items => areSkippable items
  | .object entries => entriesAreSkippable entries
  | _ => true

/-- Whether all of several trees are skippable. -/
def areSkippable : List Node → Bool
  | [] => true
  | n :: ns => isSkippable n && areSkippable ns

/-- Whether the keys and the values of all entries are skippable. -/
def entriesAreSkippable : List (Node × Node) → Bool
  | [] => true
  | (key, n) :: rest => isSkippable key && (isSkippable n && entriesAreSkippable rest)

end

mutual

/-- How many levels of nesting a tree has. Whatever is unusable counts as one,
    since it may have an inside. -/
def height : Node → Nat
  | .array items => heightOfItems items + 1
  | .object entries => heightOfEntries entries + 1
  | .unusable => 1
  | _ => 0

/-- The height of the highest of several trees. -/
def heightOfItems : List Node → Nat
  | [] => 0
  | n :: ns => max (height n) (heightOfItems ns)

/-- The height of the highest of the keys and values of several entries. -/
def heightOfEntries : List (Node × Node) → Nat
  | [] => 0
  | (key, n) :: rest => max (max (height key) (height n)) (heightOfEntries rest)

end

/-- A truth value; nothing else counts as one. -/
def bool? : Node → Option Bool
  | .bool b => some b
  | _ => none

/-- A whole number. Floating-point numbers are never taken for whole ones. -/
def whole? : Node → Option Int
  | .natural n => some n
  | .integer n => some n
  | _ => none

/-- A whole number within bounds. -/
def integer? (least greatest : Int) (node : Node) : Option Int := do
  let n ← node.whole?
  if least ≤ n ∧ n ≤ greatest then some n else none

/-- A single-precision number. Whole numbers and doubles are rounded to it. -/
def single? : Node → Option Binary32
  | .single x => some x
  | .double x => some x.narrow
  | n => n.whole?.map Binary32.ofInt

/-- A double-precision number. Whole numbers are rounded to it. -/
def double? : Node → Option Binary64
  | .single x => some x.widen
  | .double x => some x
  | n => n.whole?.map Binary64.ofInt

/-- A text, which may also stand as octets that spell one. -/
def text? : Node → Option String
  | .text s => some s
  | .octets bs => decodeUtf8? bs
  | _ => none

/-- One of several names: its text, or its place among them. -/
def name? (names : List String) : Node → Option String
  | .natural n => names[n]?
  | n => n.text?

/-- The word of eight bits that a tree holds. -/
def octet? (n : Node) : Option UInt8 :=
  (n.integer? 0 255).map fun n => n.toNat.toUInt8

end Node

end Switchboard.Wire
