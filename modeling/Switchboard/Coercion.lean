import Switchboard.Catalog
import Switchboard.Objects

/-!
# Coercion

Between what clients send and what procedures work on. Types decide: a value
is read against the declared type of its parameter, and a returned value is
written against the declared return type. There is no conversion between
shapes; what changes is that object numbers become instances and instances
become numbers, and that the integers of enumerations are checked against
their members.

Reading changes nothing. Writing enters instances into the table of live
objects as it comes across them, from left to right, and a value that turns
out not to fit leaves entered what was entered before the misfit.

Null is where the two directions differ. A client may pass null only where the
type is optional, while a procedure may also return it where an object is
expected.

## Main definitions

* `Datum.describe`: A value's shape in the message of a misfit.
* `decode`: A client's value as a native value.
* `encode`: A native value as a client's value.
* `bindArguments`: One native value for each parameter.
-/

namespace Switchboard

/-- The shape of a value in messages. Of a list, set or tuple the shape of its
    first item is shown as well. -/
def Datum.describe {ρ : Type} : Datum ρ → String
  | .list [] => "List()"
  | .list (first :: _) => "List(" ++ first.describe ++ ", ..)"
  | .set [] => "Set()"
  | .set (first :: _) => "Set(" ++ first.describe ++ ", ..)"
  | .tuple [] => "Tuple()"
  | .tuple (first :: _) => "Tuple(" ++ first.describe ++ ", ..)"
  | v => v.kind

/-- The qualified name that objects of a class are entered under. -/
def classKey (service name : String) : String := service ++ "." ++ name

/-- Refuses an integer that the enumeration does not declare. -/
def checkMember (services : Services) (context : String) (ty : Ty) (n : Int32) :
    Except CallError Unit :=
  if services.hasMember ty n then .ok ()
  else .error (.typeMismatch context ty.text ("undeclared value " ++ toString n))

/-! ## Reading -/

mutual

/-- A client's value, read against a type. The context says where the value
    stands, for the message if it does not fit. -/
def decode (services : Services) (objects : ObjectTable) (context : String) :
    Ty → Value → Except CallError NativeValue
  | .optional _, .null => .ok .null
  | .optional inner, v => decode services objects context inner v
  | .bool, .bool b => .ok (.bool b)
  | .int32, .int32 n => .ok (.int32 n)
  | .int64, .int64 n => .ok (.int64 n)
  | .float32, .float32 x => .ok (.float32 x)
  | .float64, .float64 x => .ok (.float64 x)
  | .string, .string s => .ok (.string s)
  | .bytes, .bytes bs => .ok (.bytes bs)
  | .list element, .list items => do
    return .list (← items.mapM (decode services objects context element))
  | .set element, .set items => do
    return .set (← items.mapM (decode services objects context element))
  | .map key value, .map entries => do
    return .map (← entries.mapM fun (k, v) => do
      let k' ← decode services objects context key k
      let v' ← decode services objects context value v
      return (k', v'))
  | .tuple elements, .tuple items =>
    if items.length = elements.length then do
      return .tuple (← decodePairwise services objects context elements items)
    else .error (.typeMismatch context (Ty.tuple elements).text (Datum.tuple items).describe)
  | .enumeration service name, .enum n => do
    checkMember services context (.enumeration service name) n
    return .enum n
  | .instanceOf service name, .object id => do
    return .object (← objects.resolveAs id (classKey service name) context)
  | ty, v => .error (.typeMismatch context ty.text v.describe)

/-- The items of a tuple, each read against its own type. -/
def decodePairwise (services : Services) (objects : ObjectTable) (context : String) :
    List Ty → List Value → Except CallError (List NativeValue)
  | t :: ts, v :: vs => do
    let first ← decode services objects context t v
    return first :: (← decodePairwise services objects context ts vs)
  | _, _ => .ok []

end

/-! ## Writing -/

/-- Writing may enter instances and may fail, and what was entered before a
    failure stays entered. -/
abbrev Writing := ExceptT CallError (StateM ObjectTable)

/-- Enters an instance for a connection and gives its number. -/
def Writing.register (object : Instance) (className : String) (owner : ConnectionId) :
    Writing ObjectId :=
  modifyGet fun objects =>
    let (reference, objects) := objects.register object className owner
    (reference.id, objects)

mutual

/-- A native value, written against a type for the connection that will own
    the objects in it. -/
def encode (services : Services) (owner : ConnectionId) (context : String) :
    Ty → NativeValue → Writing Value
  | .optional _, .null => return .null
  | .instanceOf .., .null => return .null
  | .optional inner, v => encode services owner context inner v
  | .bool, .bool b => return .bool b
  | .int32, .int32 n => return .int32 n
  | .int64, .int64 n => return .int64 n
  | .float32, .float32 x => return .float32 x
  | .float64, .float64 x => return .float64 x
  | .string, .string s => return .string s
  | .bytes, .bytes bs => return .bytes bs
  | .list element, .list items => do
    return .list (← items.mapM (encode services owner context element))
  | .set element, .set items => do
    return .set (← items.mapM (encode services owner context element))
  | .map key value, .map entries => do
    return .map (← entries.mapM fun (k, v) => do
      let k' ← encode services owner context key k
      let v' ← encode services owner context value v
      return (k', v'))
  | .tuple elements, .tuple items =>
    if items.length = elements.length then do
      return .tuple (← encodePairwise services owner context elements items)
    else throw (.typeMismatch context (Ty.tuple elements).text "Tuple")
  | .enumeration service name, .enum n => do
    liftExcept (checkMember services context (.enumeration service name) n)
    return .enum n
  | .instanceOf service name, .object object => do
    return .object (← Writing.register object (classKey service name) owner)
  | ty, v => throw (.typeMismatch context ty.text v.kind)

/-- The items of a tuple, each written against its own type. -/
def encodePairwise (services : Services) (owner : ConnectionId) (context : String) :
    List Ty → List NativeValue → Writing (List Value)
  | t :: ts, v :: vs => do
    let first ← encode services owner context t v
    return first :: (← encodePairwise services owner context ts vs)
  | _, _ => return []

end

/-! ## Binding arguments -/

/-- Adds an argument to those that were supplied before it. A position past
    the last parameter is refused, and so is one that is supplied already. -/
def supply (procedure : String) (parameters : Nat) (supplied : Table Value) (a : Argument) :
    Except CallError (Table Value) :=
  let position := a.position.toNat
  if parameters ≤ position then
    .error (.typeMismatch procedure ("at most " ++ parameters.repr ++ " arguments")
      ("an argument at position " ++ position.repr))
  else if supplied.contains position then
    .error (.typeMismatch procedure ("one value at position " ++ position.repr) "several")
  else .ok (supplied.insert position a.value)

/-- The native value for a parameter. Null counts as supplied only where the
    type is optional; elsewhere it asks for the default, like a value that was
    left out. -/
def bindParameter (services : Services) (objects : ObjectTable) (procedure : String)
    (parameter : Parameter) (supplied : Option Value) : Except CallError NativeValue :=
  let context := procedure ++ " argument '" ++ parameter.name ++ "'"
  match supplied with
  | some .null =>
    if parameter.ty.isOptional then .ok .null else fallback context
  | some v => decode services objects context parameter.ty v
  | none => fallback context
where
  /-- The default of the parameter. A default of null needs no optional type. -/
  fallback (context : String) : Except CallError NativeValue :=
    match parameter.defaultValue with
    | some .null => .ok .null
    | some v => decode services objects context parameter.ty v
    | none => .error (.missingArgument procedure parameter.name)

/-- One native value for each parameter, in declaration order. All arguments
    are placed before any is read. -/
def bindArguments (services : Services) (objects : ObjectTable) (procedure : String)
    (parameters : List Parameter) (arguments : List Argument) :
    Except CallError (List NativeValue) := do
  let supplied ← arguments.foldlM (supply procedure parameters.length) {}
  parameters.zipIdx.mapM fun (parameter, position) =>
    bindParameter services objects procedure parameter (supplied.get? position)

end Switchboard
