import Switchboard.Catalog
import Switchboard.Wire.Serial.Values

/-!
# Serialising the Catalog

The catalog records. A procedure without result leaves out its return type and
a parameter without default its default; a default of null is the name of the
null value and stays distinct from no default.
-/

namespace Switchboard

open Wire

instance : Serial Parameter where
  toNode p := record
    ([("name", .text p.name), ("type", toNode p.ty)] ++
      fieldIfSome "defaultValue" toNode p.defaultValue)
  ofNode? d n := do
    match ← fields? d ["name", "type", "defaultValue"] n with
    | (d, [name, ty, defaultValue]) =>
      return ⟨← required Node.text? name, ← required (ofNode? d) ty,
        ← optional (ofNode? d) defaultValue⟩
    | _ => none

instance : Serial Procedure where
  toNode p := record
    ([("name", .text p.name), ("parameters", .array (p.parameters.map toNode))] ++
      fieldIfSome "returnType" toNode p.returnType ++
      [("documentation", .text p.documentation), ("blocking", .bool p.blocking)])
  ofNode? d n := do
    match ← fields? d ["name", "parameters", "returnType", "documentation", "blocking"] n with
    | (d, [name, parameters, returnType, documentation, blocking]) =>
      return {
        name := ← required Node.text? name
        parameters := ← required (listOf ofNode? d) parameters
        returnType := ← optional (ofNode? d) returnType
        documentation := ← required Node.text? documentation
        blocking := ← required Node.bool? blocking }
    | _ => none

instance : Serial ClassInfo where
  toNode c := record [("name", .text c.name), ("documentation", .text c.documentation)]
  ofNode? d n := do
    match ← fields? d ["name", "documentation"] n with
    | (_, [name, documentation]) =>
      return ⟨← required Node.text? name, ← required Node.text? documentation⟩
    | _ => none

instance : Serial EnumerationMember where
  toNode m := record [
    ("name", .text m.name),
    ("value", .ofInt m.value.toInt),
    ("documentation", .text m.documentation)]
  ofNode? d n := do
    match ← fields? d ["name", "value", "documentation"] n with
    | (_, [name, value, documentation]) =>
      return ⟨← required Node.text? name, ← required Value.int32? value,
        ← required Node.text? documentation⟩
    | _ => none

instance : Serial Enumeration where
  toNode e := record [
    ("name", .text e.name),
    ("values", .array (e.members.map toNode)),
    ("documentation", .text e.documentation)]
  ofNode? d n := do
    match ← fields? d ["name", "values", "documentation"] n with
    | (d, [name, members, documentation]) =>
      return ⟨← required Node.text? name, ← required (listOf ofNode? d) members,
        ← required Node.text? documentation⟩
    | _ => none

instance : Serial Service where
  toNode s := record [
    ("name", .text s.name),
    ("procedures", .array (s.procedures.map toNode)),
    ("classes", .array (s.classes.map toNode)),
    ("enumerations", .array (s.enumerations.map toNode)),
    ("documentation", .text s.documentation)]
  ofNode? d n := do
    match ← fields? d ["name", "procedures", "classes", "enumerations", "documentation"] n with
    | (d, [name, procedures, classes, enumerations, documentation]) =>
      return {
        name := ← required Node.text? name
        procedures := ← required (listOf ofNode? d) procedures
        classes := ← required (listOf ofNode? d) classes
        enumerations := ← required (listOf ofNode? d) enumerations
        documentation := ← required Node.text? documentation }
    | _ => none

instance : Serial Services where
  toNode s := record [("services", .array (s.services.map toNode))]
  ofNode? d n := do
    match ← fields? d ["services"] n with
    | (d, [services]) => return ⟨← required (listOf ofNode? d) services⟩
    | _ => none

end Switchboard
