import Switchboard.Ty
import Switchboard.Binary.Basic

/-!
# Values

The values that procedures take and return, on both sides of the wire.

Clients and native procedures see the same value shapes and differ in one
point only: a client holds an object by a reference number, a native procedure
holds the instance itself. `Datum` is therefore a single type with the kind of
reference as its parameter. `Value` is what travels, `Datum ObjectId`; the
native side instantiates it with instances. Whatever does not depend on the
kind of reference — the name of a shape, conformance to a type, adding one to
every integer — is said once, for both.

Enumeration members travel as their integer, never by name. Maps and sets keep
the order they were given in, although `Datum.equal` disregards it.

## Main definitions

* `Datum`: Values over a kind of object reference.
* `ObjectId`, `Value`: References and values on the wire.
* `Datum.kind`: The name of a value's shape in messages.
* `Datum.conforms`: The structural check of a value against a type.
* `Datum.traverse`: Replacing the object references of a value.
-/

namespace Switchboard

/-- A value whose objects are held by references of type `ρ`. -/
inductive Datum (ρ : Type) where
  | null
  | bool (b : Bool)
  | int32 (n : Int32)
  | int64 (n : Int64)
  | float32 (x : Binary32)
  | float64 (x : Binary64)
  | string (s : String)
  | bytes (bs : List UInt8)
  | list (items : List (Datum ρ))
  | map (entries : List (Datum ρ × Datum ρ))
  | set (items : List (Datum ρ))
  | tuple (items : List (Datum ρ))
  /-- A member of an enumeration, by its integer. -/
  | enum (n : Int32)
  | object (ref : ρ)
  deriving Inhabited

/-- The number a client knows an object by. Numbers are handed out from one
    upward; none is handed out twice. -/
abbrev ObjectId := Nat

/-- A value as it travels between client and server. -/
abbrev Value := Datum ObjectId

namespace Datum

variable {ρ σ : Type}

/-- The name of a value's shape in messages. -/
def kind : Datum ρ → String
  | .null => "Null"
  | .bool _ => "Bool"
  | .int32 _ => "Int32"
  | .int64 _ => "Int64"
  | .float32 _ => "Float32"
  | .float64 _ => "Float64"
  | .string _ => "String"
  | .bytes _ => "Bytes"
  | .list _ => "List"
  | .map _ => "Map"
  | .set _ => "Set"
  | .tuple _ => "Tuple"
  | .enum _ => "Enumeration"
  | .object _ => "Class"

/-- Whether the value is the null value. -/
def isNull : Datum ρ → Bool
  | .null => true
  | _ => false

mutual

/-- Whether a value has the shape a type asks for. Null fits optional types
    alone; every enumeration integer fits every enumeration, and every object
    every class, because membership and class are not matters of shape. -/
def conforms : Ty → Datum ρ → Bool
  | .optional _, .null => true
  | .optional inner, v => conforms inner v
  | .bool, .bool _ => true
  | .int32, .int32 _ => true
  | .int64, .int64 _ => true
  | .float32, .float32 _ => true
  | .float64, .float64 _ => true
  | .string, .string _ => true
  | .bytes, .bytes _ => true
  | .enumeration .., .enum _ => true
  | .instanceOf .., .object _ => true
  | .list element, .list items => items.all (conforms element)
  | .set element, .set items => items.all (conforms element)
  | .map key value, .map entries => entries.all fun e => conforms key e.1 && conforms value e.2
  | .tuple elements, .tuple items => conformPairwise elements items
  | _, _ => false

/-- Whether the items of a tuple fit its types one to one. -/
def conformPairwise : List Ty → List (Datum ρ) → Bool
  | [], [] => true
  | t :: ts, v :: vs => conforms t v && conformPairwise ts vs
  | _, _ => false

end

mutual

/-- Replaces the object references of a value from left to right, with an
    effect for each. -/
def traverse {m : Type → Type} [Monad m] (f : ρ → m σ) : Datum ρ → m (Datum σ)
  | .null => pure .null
  | .bool b => pure (.bool b)
  | .int32 n => pure (.int32 n)
  | .int64 n => pure (.int64 n)
  | .float32 x => pure (.float32 x)
  | .float64 x => pure (.float64 x)
  | .string s => pure (.string s)
  | .bytes bs => pure (.bytes bs)
  | .enum n => pure (.enum n)
  | .object ref => do return .object (← f ref)
  | .list items => do return .list (← traverseAll f items)
  | .set items => do return .set (← traverseAll f items)
  | .tuple items => do return .tuple (← traverseAll f items)
  | .map entries => do return .map (← traverseEntries f entries)

/-- Replaces the object references of several values. -/
def traverseAll {m : Type → Type} [Monad m] (f : ρ → m σ) :
    List (Datum ρ) → m (List (Datum σ))
  | [] => pure []
  | v :: vs => do
    let w ← traverse f v
    let ws ← traverseAll f vs
    return w :: ws

/-- Replaces the object references of the entries of a map. -/
def traverseEntries {m : Type → Type} [Monad m] (f : ρ → m σ) :
    List (Datum ρ × Datum ρ) → m (List (Datum σ × Datum σ))
  | [] => pure []
  | (k, v) :: rest => do
    let k' ← traverse f k
    let v' ← traverse f v
    let rest' ← traverseEntries f rest
    return (k', v') :: rest'

end

end Datum

end Switchboard
