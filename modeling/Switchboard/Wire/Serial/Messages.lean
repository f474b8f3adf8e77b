import Switchboard.Message
import Switchboard.Wire.Serial.Values

/-!
# Serialising Requests and Responses

The envelopes as records. Only the arguments of a call and the two parts of a
result may be left out, and a result leaves out the part it does not have.
-/

namespace Switchboard

open Wire

namespace Argument

/-- The 32-bit position that a tree holds. -/
def position? (n : Node) : Option UInt32 :=
  (n.integer? 0 4294967295).map fun n => n.toNat.toUInt32

instance : Serial Argument where
  toNode a := record [("position", .natural a.position.toNat), ("value", toNode a.value)]
  ofNode? d n := do
    match ← fields? d ["position", "value"] n with
    | (d, [position, value]) =>
      return ⟨← required position? position, ← required (Wire.ofNode? d) value⟩
    | _ => none

end Argument

instance : Serial ProcedureCall where
  toNode call := record [
    ("service", .text call.service),
    ("procedure", .text call.procedure),
    ("arguments", .array (call.arguments.map toNode))]
  ofNode? d n := do
    match ← fields? d ["service", "procedure", "arguments"] n with
    | (d, [service, procedure, arguments]) =>
      let service ← required Node.text? service
      let procedure ← required Node.text? procedure
      let arguments ← match arguments with
        | none => some []
        | some node => listOf ofNode? d node
      return ⟨service, procedure, arguments⟩
    | _ => none

instance : Serial Request where
  toNode request := record [("calls", .array (request.calls.map toNode))]
  ofNode? d n := do
    match ← fields? d ["calls"] n with
    | (d, [calls]) => return ⟨← required (listOf ofNode? d) calls⟩
    | _ => none

namespace ErrorKind

/-- The kinds of error, in the order that gives each its place. -/
def all : List ErrorKind :=
  [.noSuchProcedure, .missingArgument, .typeMismatch, .invalidReference, .nativeFault]

/-- The kind that travels under a name. -/
def ofWireName? (name : String) : Option ErrorKind := all.find? fun kind => kind.wireName == name

/-- The kind that a tree names. -/
def named? (n : Node) : Option ErrorKind := do ofWireName? (← n.name? (all.map wireName))

instance : Serial ErrorKind where
  toNode kind := .text kind.wireName
  ofNode?
    | d, .object [(key, content)] => do
      let _ ← d.enterChoice?
      if isBare content then named? key else none
    | _, n => named? n

end ErrorKind

instance : Serial ErrorReport where
  toNode report := record [("kind", toNode report.kind), ("message", .text report.message)]
  ofNode? d n := do
    match ← fields? d ["kind", "message"] n with
    | (d, [kind, message]) => return ⟨← required (ofNode? d) kind, ← required Node.text? message⟩
    | _ => none

instance : Serial ProcedureResult where
  toNode result := record
    (fieldIfSome "value" toNode result.value ++ fieldIfSome "error" toNode result.error)
  ofNode? d n := do
    match ← fields? d ["value", "error"] n with
    | (d, [value, error]) => return ⟨← optional (ofNode? d) value, ← optional (ofNode? d) error⟩
    | _ => none

instance : Serial Response where
  toNode response := record [("results", .array (response.results.map toNode))]
  ofNode? d n := do
    match ← fields? d ["results"] n with
    | (d, [results]) => return ⟨← required (listOf ofNode? d) results⟩
    | _ => none

end Switchboard
