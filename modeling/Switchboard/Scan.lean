import Switchboard.Declaration
import Switchboard.Directory
import Switchboard.Documentation

/-!
# Scanning Declarations

From declarations to a catalog. A scan derives the procedures that stand for
properties and class members, refuses names declared twice, procedures nobody
implements, types nobody declares and defaults that do not fit, and publishes
the rest. It refuses everything or nothing: there is no partial catalog, and
the first problem in the order below is the one reported.

The order is: services declared twice; then service by service its classes,
its enumerations and its derived procedures; then, procedure by procedure over
all services, the types of the signature and after them the defaults. Types
come last because a signature may name a class of a service declared later.

Derived names follow one table.

* procedure `P`: `P`
* property `X`: `get_X`, then `set_X` with a parameter `value`
* constructor of class `C`: `C_new`, which returns the class
* method `M` of class `C`: `C_M`, with a leading parameter `this`
* property `X` of class `C`: `C_get_X`, `C_set_X`, each with a leading `this`
* static `S` of class `C`: `C_static_S`

## Main definitions

* `Derived`, `ServiceDecl.derived`: The procedures a service stands for.
* `ScanError`: Why declarations are refused.
* `scan`: The catalog of a list of declarations.
-/

namespace Switchboard

/-- Why declarations are refused. -/
inductive ScanError where
  | duplicateServiceName (name : String)
  | duplicateProcedureName (service procedure : String)
  | duplicateClassName (service className : String)
  | duplicateEnumerationName (service enumeration : String)
  | unknownType (procedure : String) (ty : Ty)
  | invalidDefault (procedure parameter : String) (ty : Ty)
  | missingHandler (procedure : String)

/-- What an operator is told. -/
def ScanError.message : ScanError → String
  | .duplicateServiceName name => "service " ++ name ++ " is declared more than once"
  | .duplicateProcedureName service procedure =>
    "service " ++ service ++ " declares procedure " ++ procedure ++ " more than once"
  | .duplicateClassName service className =>
    "service " ++ service ++ " declares class " ++ className ++ " more than once"
  | .duplicateEnumerationName service enumeration =>
    "service " ++ service ++ " declares enumeration " ++ enumeration ++ " more than once"
  | .unknownType procedure ty => procedure ++ " refers to unknown type " ++ ty.text
  | .invalidDefault procedure parameter ty =>
    procedure ++ " parameter '" ++ parameter ++ "': default value does not conform to " ++ ty.text
  | .missingHandler procedure => procedure ++ " has no native implementation"

/-- The first name that stands earlier in the list too. -/
def firstRepeated? (names : List String) : Option String :=
  go [] names
where
  /-- The first name that stands among those already seen or before itself. -/
  go (seen : List String) : List String → Option String
    | [] => none
    | name :: rest => if name ∈ seen then some name else go (name :: seen) rest

/-! ## Derived procedures -/

/-- What a declaration gives rise to. -/
inductive Derived where
  /-- A procedure under its derived name. -/
  | procedure (procedure : Procedure) (handler : Option Handler)
  /-- A property with neither getter nor setter, by the name its getter would
      have. -/
  | bareProperty (getterName : String)

/-- What a declared procedure gives rise to, given its derived name, the
    parameters before its own, and its return type. -/
def ProcedureDecl.derive (decl : ProcedureDecl) (name : String) (leading : List Parameter)
    (returnType : Option Ty) : Derived :=
  .procedure
    ⟨name, leading ++ decl.parameters, returnType, documentation decl.summary, decl.blocking⟩
    decl.handler

/-- What a property gives rise to, given what stands before its derived names
    and before the parameters. -/
def PropertyDecl.derive (decl : PropertyDecl) (start : String) (leading : List Parameter) :
    List Derived :=
  let getterName := start ++ "get_" ++ decl.name
  let setterName := start ++ "set_" ++ decl.name
  let getter : Procedure :=
    ⟨getterName, leading, some decl.ty, documentation decl.summary, false⟩
  let value : Parameter := ⟨"value", decl.ty, none⟩
  let setter : Procedure :=
    ⟨setterName, leading ++ [value], none, documentation decl.summary, false⟩
  match decl.getter, decl.setter with
  | none, none => [.bareProperty getterName]
  | some get, none => [.procedure getter (some get)]
  | none, some set => [.procedure setter (some set)]
  | some get, some set => [.procedure getter (some get), .procedure setter (some set)]

/-- What a class of a service gives rise to. -/
def ClassDecl.derive (decl : ClassDecl) (service : String) : List Derived :=
  let self := Ty.instanceOf service decl.name
  let this : Parameter := ⟨"this", self, none⟩
  let start := decl.name ++ "_"
  decl.constructor.toList.map (fun p => p.derive (start ++ "new") [] (some self)) ++
    decl.methods.map (fun p => p.derive (start ++ p.name) [this] p.returnType) ++
    decl.properties.flatMap (fun p => p.derive start [this]) ++
    decl.statics.map (fun p => p.derive (start ++ "static_" ++ p.name) [] p.returnType)

/-- Everything a service gives rise to, in catalog order. -/
def ServiceDecl.derived (decl : ServiceDecl) : List Derived :=
  decl.procedures.map (fun p => p.derive p.name [] p.returnType) ++
    decl.properties.flatMap (fun p => p.derive "" []) ++
    decl.classes.flatMap (fun c => c.derive decl.name)

/-! ## One service -/

/-- The directory entries of a service's derived procedures, unless a name
    comes twice or a handler is missing. Of a name that comes twice without a
    handler the name is reported. -/
def accept (service : String) (seen : List String) :
    List Derived → Except ScanError (List Descriptor)
  | [] => .ok []
  | .bareProperty getterName :: _ => .error (.missingHandler (service ++ "." ++ getterName))
  | .procedure procedure handler :: rest =>
    if procedure.name ∈ seen then
      .error (.duplicateProcedureName service procedure.name)
    else
      match handler with
      | none => .error (.missingHandler (service ++ "." ++ procedure.name))
      | some handler => do
        let accepted ← accept service (procedure.name :: seen) rest
        return ⟨service ++ "." ++ procedure.name, service, procedure, handler⟩ :: accepted

/-- The public description of a class. -/
def ClassDecl.info (decl : ClassDecl) : ClassInfo := ⟨decl.name, documentation decl.summary⟩

/-- The public description of an enumeration. -/
def EnumerationDecl.info (decl : EnumerationDecl) : Enumeration :=
  ⟨decl.name, decl.members.map fun m => ⟨m.name, m.value, documentation m.summary⟩,
    documentation decl.summary⟩

/-- The directory entries of one service. -/
def ServiceDecl.accept (decl : ServiceDecl) : Except ScanError (List Descriptor) :=
  match firstRepeated? (decl.classes.map (·.name)) with
  | some name => .error (.duplicateClassName decl.name name)
  | none =>
    match firstRepeated? (decl.enumerations.map (·.name)) with
    | some name => .error (.duplicateEnumerationName decl.name name)
    | none => Switchboard.accept decl.name [] decl.derived

/-- The public description of a service with the given directory entries. -/
def ServiceDecl.info (decl : ServiceDecl) (accepted : List Descriptor) : Service :=
  ⟨decl.name, accepted.map (·.procedure), decl.classes.map (·.info),
    decl.enumerations.map (·.info), documentation decl.summary⟩

/-! ## All services -/

/-- Whether a default can stand for an argument. Null always can; another value
    has to have the shape of the type, and a member of an enumeration has to be
    declared, which is checked through at most one optional. -/
def Services.admitsDefault (services : Services) (value : Value) (ty : Ty) : Bool :=
  value.isNull ||
    (value.conforms ty &&
      match value, ty.unwrapped with
      | .enum n, .enumeration service name => services.hasMember (.enumeration service name) n
      | _, _ => true)

/-- The named types of a signature, parameters first. -/
def Procedure.namedTypes (p : Procedure) : List Ty :=
  p.parameters.flatMap (·.ty.named) ++ p.returnType.toList.flatMap (·.named)

/-- Refuses an entry whose signature names an unknown type or has a default
    that does not fit. -/
def Services.validate (services : Services) (entry : Descriptor) : Except ScanError Unit :=
  match entry.procedure.namedTypes.find? fun ty => !services.resolves ty with
  | some ty => .error (.unknownType entry.qualifiedName ty)
  | none =>
    match entry.procedure.parameters.find? fun p =>
        p.defaultValue.any fun value => !services.admitsDefault value p.ty with
    | some p => .error (.invalidDefault entry.qualifiedName p.name p.ty)
    | none => .ok ()

/-- The catalog of a list of declarations. -/
def scan (decls : List ServiceDecl) : Except ScanError Catalog :=
  match firstRepeated? (decls.map (·.name)) with
  | some name => .error (.duplicateServiceName name)
  | none => do
    let accepted ← decls.mapM ServiceDecl.accept
    let services : Services := ⟨List.zipWith ServiceDecl.info decls accepted⟩
    let descriptors := accepted.flatten
    descriptors.forM services.validate
    return ⟨services, ⟨descriptors⟩⟩

end Switchboard
