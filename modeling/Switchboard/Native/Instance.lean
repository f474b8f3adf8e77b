import Switchboard.Datum.Basic
import Switchboard.Decimal.Layout
import Switchboard.Text.Quoted

/-!
# Instances and Native Values

What native procedures work on. Where a client sees a reference number, a
procedure sees an instance, and the identity of an instance is where it was
allocated rather than what it holds: two instances with the same contents are
two objects.

An instance has a native type, and a procedure that wants one type is not
served by another. Only the part of an instance that never changes stands in
the instance itself; fields that procedures may set are kept by address in the
state the procedures share.

`NativeValue.text` is the form in which native values appear in diagnostics.
Unlike messages to clients it shows contents, but neither bytes nor instances.

## Main definitions

* `Payload`, `Instance`: An object on the native side.
* `NativeValue`: Values over instances.
* `countInt32`, `countInt64`: Counts as values.
* `NativeValue.text`: The diagnostic form.
-/

namespace Switchboard

/-- The constant part of an instance, by native type. -/
inductive Payload where
  /-- A text under which scripted procedures know an instance. -/
  | label (text : String)
  /-- An object of the fixture's class, with the value it was made with. -/
  | fixture (value : String)
  deriving DecidableEq, Repr, Inhabited

/-- The name of the native type of labelled instances. -/
def labelTypeName : String := "alloc::string::String"

/-- The name of the native type of the fixture's objects. -/
def fixtureTypeName : String := "kestrel_server::service::domain::test_service::TestClass"

/-- An object on the native side. No two instances that are held at the same
    time share an address. -/
structure Instance where
  address : Nat
  payload : Payload
  deriving DecidableEq, Repr, Inhabited

/-- A value on the native side. -/
abbrev NativeValue := Datum Instance

/-! ## Counts

Counts have no bound, and the integers of a value do. A count that does not
fit is reported as the greatest one that does. -/

/-- A count as a 64-bit integer. -/
def countInt64 {ρ : Type} (n : Nat) : Datum ρ := .int64 (Int64.ofNat (min n 9223372036854775807))

/-- A count as a 32-bit integer. -/
def countInt32 {ρ : Type} (n : Nat) : Datum ρ := .int32 (Int32.ofNat (min n 2147483647))

/-! ## Diagnostics -/

namespace NativeValue

/-- Parts in brackets after the name of what they are part of. -/
def group (name : String) (parts : List String) : String :=
  name ++ "([" ++ String.intercalate ", " parts ++ "])"

mutual

/-- The diagnostic form of a value. -/
def text : NativeValue → String
  | .null => "Null"
  | .bool b => if b then "Bool(true)" else "Bool(false)"
  | .int32 n => "Int32(" ++ toString n ++ ")"
  | .int64 n => "Int64(" ++ toString n ++ ")"
  | .float32 x => "Float32(" ++ x.text ++ ")"
  | .float64 x => "Float64(" ++ x.text ++ ")"
  | .string s => "String(" ++ quote s ++ ")"
  | .bytes bs => "Bytes(" ++ bs.length.repr ++ " bytes)"
  | .list items => group "List" (texts items)
  | .map entries => group "Map" (entryTexts entries)
  | .set items => group "Set" (texts items)
  | .tuple items => group "Tuple" (texts items)
  | .enum n => "Enum(" ++ toString n ++ ")"
  | .object i => "Object(0x" ++ hexText i.address ++ ")"

/-- The diagnostic forms of several values. -/
def texts : List NativeValue → List String
  | [] => []
  | v :: vs => text v :: texts vs

/-- The diagnostic forms of the entries of a map. -/
def entryTexts : List (NativeValue × NativeValue) → List String
  | [] => []
  | (k, v) :: rest => ("(" ++ text k ++ ", " ++ text v ++ ")") :: entryTexts rest

end

end NativeValue

end Switchboard
