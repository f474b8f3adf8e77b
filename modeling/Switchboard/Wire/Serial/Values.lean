import Switchboard.Wire.Serial.Basic
import Switchboard.Datum.Basic

/-!
# Serialising Types and Values

Type descriptors and values are choices: the name of the form, and its content
if it has any. The null value is the bare name `Null`, so that a field which
holds the null value can be told from a field that is missing or null on the
wire. Where a form may be named by its place, `Ty.forms` and `Value.forms` say
which place it has.

An object reference is a bare number below two to the sixty-fourth.

## Main definitions

* `Ty.forms`, `Value.forms`: The names of the forms.
* `Ty.node`, `Ty.ofNode?`: Trees of type descriptors.
* `Value.node`, `Value.ofNode?`: Trees of values.
-/

namespace Switchboard

open Wire

namespace Ty

/-- The names of the forms of descriptors. -/
def forms : List String :=
  ["Bool", "Int32", "Int64", "Float32", "Float64", "String", "Bytes", "List", "Map", "Set",
   "Tuple", "Enumeration", "Class", "Optional"]

/-- The tree of the name of a class or an enumeration. -/
def nameNode (service name : String) : Node :=
  record [("service", .text service), ("name", .text name)]

mutual

/-- The tree of a descriptor. -/
def node : Ty → Node
  | .bool => .text "Bool"
  | .int32 => .text "Int32"
  | .int64 => .text "Int64"
  | .float32 => .text "Float32"
  | .float64 => .text "Float64"
  | .string => .text "String"
  | .bytes => .text "Bytes"
  | .list element => choice "List" element.node
  | .map key value => choice "Map" (.array [key.node, value.node])
  | .set element => choice "Set" element.node
  | .tuple elements => choice "Tuple" (.array (nodes elements))
  | .enumeration service name => choice "Enumeration" (nameNode service name)
  | .instanceOf service name => choice "Class" (nameNode service name)
  | .optional inner => choice "Optional" inner.node

/-- The trees of several descriptors. -/
def nodes : List Ty → List Node
  | [] => []
  | t :: ts => t.node :: nodes ts

end

/-- The service and the name that name a class or an enumeration. -/
def readName? (d : Nesting) (n : Node) : Option (String × String) := do
  match ← fields? d ["service", "name"] n with
  | (_, [service, name]) => return (← required Node.text? service, ← required Node.text? name)
  | _ => none

/-- The descriptor that a form without content names. -/
def bare? : String → Option Ty
  | "Bool" => some .bool
  | "Int32" => some .int32
  | "Int64" => some .int64
  | "Float32" => some .float32
  | "Float64" => some .float64
  | "String" => some .string
  | "Bytes" => some .bytes
  | _ => none

mutual

/-- The descriptor that a tree stands for. -/
def ofNode? : Nesting → Node → Option Ty
  | d, .object [(key, content)] => do
    let d ← d.enterChoice?
    match ← key.name? forms with
    | "List" => return .list (← ofNode? d content)
    | "Set" => return .set (← ofNode? d content)
    | "Optional" => return .optional (← ofNode? d content)
    | "Map" =>
      match content with
      | .array [key, value] =>
        let d ← d.enter?
        return .map (← ofNode? d key) (← ofNode? d value)
      | _ => none
    | "Tuple" => return .tuple (← ofItems? d content)
    | "Enumeration" => (readName? d content).map fun n => .enumeration n.1 n.2
    | "Class" => (readName? d content).map fun n => .instanceOf n.1 n.2
    | name => if isBare content then bare? name else none
  | _, .object _ => none
  | _, n => do bare? (← n.name? forms)

/-- The descriptors that the items of a tree stand for. -/
def ofItems? : Nesting → Node → Option (List Ty)
  | d, .array items => do ofNodes? (← d.enter?) items
  | _, .octets [] => some []
  | _, _ => none

/-- The descriptors that several trees stand for. -/
def ofNodes? : Nesting → List Node → Option (List Ty)
  | _, [] => some []
  | d, n :: ns => do return (← ofNode? d n) :: (← ofNodes? d ns)

end

instance : Serial Ty := ⟨node, ofNode?⟩

end Ty

namespace Value

/-- The names of the forms of values. -/
def forms : List String :=
  ["Null", "Bool", "Int32", "Int64", "Float32", "Float64", "String", "Bytes", "List", "Map",
   "Set", "Tuple", "Enum", "Object"]

/-- The tree of a bounded whole number. -/
def int32? (n : Node) : Option Int32 :=
  (n.integer? (-2147483648) 2147483647).map Int32.ofInt

/-- The 64-bit word with sign that a tree holds. -/
def int64? (n : Node) : Option Int64 :=
  (n.integer? (-9223372036854775808) 9223372036854775807).map Int64.ofInt

/-- The object reference that a tree holds. -/
def objectId? (n : Node) : Option ObjectId := (n.integer? 0 18446744073709551615).map Int.toNat

mutual

/-- The tree of a value. -/
def node : Value → Node
  | .null => .text "Null"
  | .bool b => choice "Bool" (.bool b)
  | .int32 n => choice "Int32" (.ofInt n.toInt)
  | .int64 n => choice "Int64" (.ofInt n.toInt)
  | .float32 x => choice "Float32" (.single x)
  | .float64 x => choice "Float64" (.double x)
  | .string s => choice "String" (.text s)
  | .bytes bs => choice "Bytes" (.octets bs)
  | .list items => choice "List" (.array (nodes items))
  | .map entries => choice "Map" (.array (entryNodes entries))
  | .set items => choice "Set" (.array (nodes items))
  | .tuple items => choice "Tuple" (.array (nodes items))
  | .enum n => choice "Enum" (.ofInt n.toInt)
  | .object id => choice "Object" (.natural id)

/-- The trees of several values. -/
def nodes : List Value → List Node
  | [] => []
  | v :: vs => node v :: nodes vs

/-- The trees of the entries of a map, each an array of key and value. -/
def entryNodes : List (Value × Value) → List Node
  | [] => []
  | (k, v) :: rest => .array [node k, node v] :: entryNodes rest

end

mutual

/-- The value that a tree stands for. -/
def ofNode? : Nesting → Node → Option Value
  | d, .object [(key, content)] => do
    let d ← d.enterChoice?
    match ← key.name? forms with
    | "Null" => if isBare content then return .null else none
    | "Bool" => return .bool (← content.bool?)
    | "Int32" => return .int32 (← int32? content)
    | "Int64" => return .int64 (← int64? content)
    | "Float32" => return .float32 (← content.single?)
    | "Float64" => return .float64 (← content.double?)
    | "String" => return .string (← content.text?)
    | "Bytes" => return .bytes (← d.octets? content)
    | "Enum" => return .enum (← int32? content)
    | "Object" => return .object (← objectId? content)
    | "List" => return .list (← ofItems? d content)
    | "Set" => return .set (← ofItems? d content)
    | "Tuple" => return .tuple (← ofItems? d content)
    | "Map" => return .map (← ofEntries? d content)
    | _ => none
  | _, .object _ => none
  | _, n => do if (← n.name? forms) = "Null" then return .null else none

/-- The values that the items of a tree stand for. -/
def ofItems? : Nesting → Node → Option (List Value)
  | d, .array items => do ofNodes? (← d.enter?) items
  | _, .octets [] => some []
  | _, _ => none

/-- The entries that the items of a tree stand for. -/
def ofEntries? : Nesting → Node → Option (List (Value × Value))
  | d, .array items => do ofEntryNodes? (← d.enter?) items
  | _, .octets [] => some []
  | _, _ => none

/-- The values that several trees stand for. -/
def ofNodes? : Nesting → List Node → Option (List Value)
  | _, [] => some []
  | d, n :: ns => do return (← ofNode? d n) :: (← ofNodes? d ns)

/-- The entries that several trees stand for. -/
def ofEntryNodes? : Nesting → List Node → Option (List (Value × Value))
  | _, [] => some []
  | d, .array [k, v] :: rest => do
    let inner ← d.enter?
    return (← ofNode? inner k, ← ofNode? inner v) :: (← ofEntryNodes? d rest)
  | _, _ => none

end

instance : Serial Value := ⟨node, ofNode?⟩

end Value

end Switchboard
