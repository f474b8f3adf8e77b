/-!
# Type Descriptors

The closed lattice of types a procedure can declare for its parameters and
its result. Collections nest; a class and an enumeration are named together
with the service that declares them, so that one service can use another's.

A descriptor is what clients are shown and what mismatch messages quote, so
its text is part of the interface.

## Main definitions

* `Ty`: The descriptors.
* `Ty.text`: Their written form.
* `Ty.named`: The classes and enumerations a descriptor mentions, in the order
  they are written.
* `Ty.unwrapped`: What is left of a descriptor when one optional is removed.
-/

namespace Switchboard

/-- The type of a parameter or a result. -/
inductive Ty where
  | bool
  | int32
  | int64
  | float32
  | float64
  | string
  | bytes
  | list (element : Ty)
  | map (key value : Ty)
  | set (element : Ty)
  | tuple (elements : List Ty)
  /-- One of the members an enumeration declares. -/
  | enumeration (service name : String)
  /-- A reference to an object of a class. -/
  | instanceOf (service name : String)
  /-- The inner type, or nothing. -/
  | optional (inner : Ty)
  deriving Inhabited, Repr

namespace Ty

mutual

/-- The written form of a descriptor. -/
def text : Ty → String
  | .bool => "Bool"
  | .int32 => "Int32"
  | .int64 => "Int64"
  | .float32 => "Float32"
  | .float64 => "Float64"
  | .string => "String"
  | .bytes => "Bytes"
  | .list element => "List(" ++ element.text ++ ")"
  | .map key value => "Map(" ++ key.text ++ "," ++ value.text ++ ")"
  | .set element => "Set(" ++ element.text ++ ")"
  | .tuple elements => "Tuple(" ++ String.intercalate "," (texts elements) ++ ")"
  | .enumeration service name => "Enumeration(" ++ service ++ "." ++ name ++ ")"
  | .instanceOf service name => "Class(" ++ service ++ "." ++ name ++ ")"
  | .optional inner => "Optional(" ++ inner.text ++ ")"

/-- The written forms of several descriptors. -/
def texts : List Ty → List String
  | [] => []
  | t :: ts => t.text :: texts ts

end

mutual

/-- The class and enumeration descriptors inside a descriptor, from left to
    right as it is written. -/
def named : Ty → List Ty
  | .list element => element.named
  | .set element => element.named
  | .optional inner => inner.named
  | .map key value => key.named ++ value.named
  | .tuple elements => namedAll elements
  | .enumeration service name => [.enumeration service name]
  | .instanceOf service name => [.instanceOf service name]
  | _ => []

/-- The class and enumeration descriptors inside several descriptors. -/
def namedAll : List Ty → List Ty
  | [] => []
  | t :: ts => t.named ++ namedAll ts

end

/-- The descriptor with one optional removed from around it. -/
def unwrapped : Ty → Ty
  | .optional inner => inner
  | t => t

/-- Whether the descriptor allows for nothing at all. -/
def isOptional : Ty → Bool
  | .optional _ => true
  | _ => false

end Ty

end Switchboard
