import Switchboard.Datum.Basic

/-!
# The Service Catalog

The public description of everything a server offers. It is derived once from
the declarations and never changes afterwards; clients fetch it, and the
server consults it for enumeration members and for the types signatures name.

Names in the catalog are already derived: the getter of a property `X` is the
procedure `get_X`, and so on. A procedure is therefore found by its service's
name, a dot, and its own name, where the first dot is the one that separates.

Lookups take the first match. Nothing in the records themselves rules out two
procedures of one name; that is the scanner's business.

## Main definitions

* `Services`, `Service`, `Procedure`, `Parameter`: The records.
* `Enumeration`, `EnumerationMember`, `ClassInfo`: Named types.
* `Services.procedure?`: Lookup by qualified name.
* `Services.enumerationFor?`, `Services.resolves`: What a type descriptor
  names.
-/

namespace Switchboard

/-- A parameter of a procedure. A default of null is a default; no default is
    `none`. -/
structure Parameter where
  name : String
  ty : Ty
  defaultValue : Option Value

/-- A callable operation under its derived name. -/
structure Procedure where
  name : String
  parameters : List Parameter
  returnType : Option Ty
  /-- Empty when undocumented. -/
  documentation : String
  /-- Whether the native side may ask to be resumed on a later tick. -/
  blocking : Bool

/-- A tag for a family of server-side objects. -/
structure ClassInfo where
  name : String
  documentation : String
  deriving DecidableEq

/-- A member of an enumeration. Members need be neither contiguous nor in
    order. -/
structure EnumerationMember where
  name : String
  value : Int32
  documentation : String
  deriving DecidableEq

/-- An enumeration and its members in declaration order. -/
structure Enumeration where
  name : String
  members : List EnumerationMember
  documentation : String
  deriving DecidableEq

/-- A named group of procedures, classes and enumerations. -/
structure Service where
  name : String
  procedures : List Procedure
  classes : List ClassInfo
  enumerations : List Enumeration
  /-- Empty when undocumented. -/
  documentation : String

/-- All services of a server, in declaration order. -/
structure Services where
  services : List Service

/-- How many values a caller has to supply. -/
def Procedure.required (p : Procedure) : Nat :=
  p.parameters.countP fun parameter => parameter.defaultValue.isNone

namespace Enumeration

/-- The first member with an integer value. -/
def member? (e : Enumeration) (value : Int32) : Option EnumerationMember :=
  e.members.find? fun m => m.value == value

/-- The first member with a name. -/
def memberNamed? (e : Enumeration) (name : String) : Option EnumerationMember :=
  e.members.find? fun m => m.name == name

end Enumeration

namespace Service

/-- The procedure with a derived name. -/
def procedure? (s : Service) (name : String) : Option Procedure :=
  s.procedures.find? fun p => p.name == name

/-- The class with a name. -/
def class? (s : Service) (name : String) : Option ClassInfo :=
  s.classes.find? fun c => c.name == name

/-- The enumeration with a name. -/
def enumeration? (s : Service) (name : String) : Option Enumeration :=
  s.enumerations.find? fun e => e.name == name

end Service

/-- What stands before and after the first dot of a name. -/
def splitQualified? (name : String) : Option (String × String) :=
  let before := name.toList.takeWhile (· != '.')
  match name.toList.drop before.length with
  | [] => none
  | _ :: after => some (String.ofList before, String.ofList after)

namespace Services

/-- The service with a name. -/
def service? (s : Services) (name : String) : Option Service :=
  s.services.find? fun service => service.name == name

/-- The procedure with a qualified name. -/
def procedure? (s : Services) (qualifiedName : String) : Option Procedure := do
  let (service, procedure) ← splitQualified? qualifiedName
  (← s.service? service).procedure? procedure

/-- The enumeration that an enumeration descriptor names. -/
def enumerationFor? (s : Services) : Ty → Option Enumeration
  | .enumeration service name => do (← s.service? service).enumeration? name
  | _ => none

/-- Whether an integer is a declared member of the enumeration a descriptor
    names. -/
def hasMember (s : Services) (t : Ty) (value : Int32) : Bool :=
  match s.enumerationFor? t with
  | some e => (e.member? value).isSome
  | none => false

/-- Whether a class or enumeration descriptor names something some service
    declares. Other descriptors name nothing, so nothing can be missing. -/
def resolves (s : Services) : Ty → Bool
  | .instanceOf service name =>
    match s.service? service with
    | some found => (found.class? name).isSome
    | none => false
  | .enumeration service name => (s.enumerationFor? (.enumeration service name)).isSome
  | _ => true

end Services

end Switchboard
