import Switchboard.Wire.Nesting

/-!
# Records and Choices

How a message's structure is laid over trees. A record is written as an object
with its fields in order and read from such an object, or from an array that
gives the fields by position. A choice between named alternatives is written
as the bare name if the alternative carries nothing and as an object with that
name as its only key otherwise. A name may also be given by its place, counted
from zero, among the names that are possible.

Of an object's entries those with unknown names are skipped; a known name may
occur once. In an array nothing may be left over, and what is missing at its
end is missing. Whether a missing field is an error is up to the field:
`required` ones must be there, `optional` ones may be absent or null.

## Main definitions

* `fields?`: The trees of a record's fields, each present or missing.
* `required`, `optional`: Reading a field.
* `isBare`: The content of a choice that carries nothing.
* `record`, `choice`: Writing them.
-/

namespace Switchboard.Wire

/-- The field that a key stands for: `some none` for a key that is none of the
    names, `none` for what cannot be a key at all. -/
def fieldName? (names : List String) : Node → Option (Option String)
  | .text s => some (names.find? (· == s))
  | .octets bs => some (do names.find? (· == (← decodeUtf8? bs)))
  | .natural n => some names[n]?
  | _ => none

/-- The entries whose keys are among the names. The others have to be such
    that they can be skipped. -/
def knownEntries? (d : Nesting) (names : List String) :
    List (Node × Node) → Option (List (String × Node))
  | [] => some []
  | (key, node) :: rest => do
    let name ← fieldName? names key
    let known ← knownEntries? d names rest
    match name with
    | some name => return (name, node) :: known
    | none => if d.canSkip node then return known else none

/-- The trees found for the named fields, in the order of the names, and what
    is left of the nesting inside the record. -/
def fields? (d : Nesting) (names : List String) :
    Node → Option (Nesting × List (Option Node))
  | .object entries => do
    let d ← d.enter?
    let known ← knownEntries? d names entries
    if (known.map (·.1)).Nodup then
      return (d, names.map fun name => (known.find? fun e => e.1 == name).map (·.2))
    else none
  | node => do
    let (d, items) ← d.items? node
    if items.length ≤ names.length then
      return (d, items.map some ++ List.replicate (names.length - items.length) none)
    else none

/-- Reads a field that has to be there. -/
def required {α : Type} (read? : Node → Option α) (field : Option Node) : Option α :=
  field.bind read?

/-- Reads a field that may be missing or null. -/
def optional {α : Type} (read? : Node → Option α) : Option Node → Option (Option α)
  | none => some none
  | some .null => some none
  | some node => (read? node).map some

/-- Reads an array, item by item. -/
def listOf {α : Type} (read? : Nesting → Node → Option α) (d : Nesting) (node : Node) :
    Option (List α) := do
  let (d, items) ← d.items? node
  items.mapM (read? d)

/-- Whether the content of a choice is that of one which carries nothing. -/
def isBare : Node → Bool
  | .null => true
  | _ => false

/-- Writes a record. -/
def record (fields : List (String × Node)) : Node :=
  .object (fields.map fun f => (.text f.1, f.2))

/-- Writes a field unless its value is absent. -/
def fieldIfSome {α : Type} (name : String) (write : α → Node) :
    Option α → List (String × Node)
  | none => []
  | some a => [(name, write a)]

/-- Writes a choice with content. -/
def choice (name : String) (content : Node) : Node := .object [(.text name, content)]

end Switchboard.Wire
