import Switchboard.Native.Handler

/-!
# The Procedure Directory

How a called name finds its implementation. The directory lists every
procedure of the catalog in catalog order, each with its qualified name, its
public description and its handler. It is built once, together with the
catalog, and never changes.

Names are unique in directories that come from a scan of services without dots
in their names. The directory itself does not ask for that: where two entries
share a name the later one answers to it, and both are listed.

## Main definitions

* `Descriptor`: An entry.
* `Directory.find?`, `Directory.get`: Lookup by qualified name.
* `Catalog`: The services and the directory of one scan.
-/

namespace Switchboard

/-- A procedure that can be called. -/
structure Descriptor where
  /-- The service's name, a dot, and the procedure's name. -/
  qualifiedName : String
  service : String
  procedure : Procedure
  handler : Handler

/-- The diagnostic form of an entry. Its description and its handler are left
    out. -/
def Descriptor.text (d : Descriptor) : String :=
  "ProcedureDescriptor \x7b qualified_name: " ++ quote d.qualifiedName ++
    ", parameters: " ++ d.procedure.parameters.length.repr ++
    ", blocking: " ++ (if d.procedure.blocking then "true" else "false") ++ ", .. \x7d"

/-- Every procedure of a server, in catalog order. -/
structure Directory where
  descriptors : List Descriptor := []

namespace Directory

/-- The entry that answers to a name. -/
def find? (d : Directory) (name : String) : Option Descriptor :=
  d.descriptors.reverse.find? fun entry => entry.qualifiedName == name

/-- The entry that answers to a name, or the error a caller gets. -/
def get (d : Directory) (name : String) : Except CallError Descriptor :=
  match d.find? name with
  | some entry => .ok entry
  | none => .error (.noSuchProcedure name)

/-- Whether some entry answers to a name. -/
def contains (d : Directory) (name : String) : Bool := (d.find? name).isSome

/-- The names in catalog order. -/
def names (d : Directory) : List String := d.descriptors.map (·.qualifiedName)

/-- The number of entries. -/
def size (d : Directory) : Nat := d.descriptors.length

end Directory

/-- What a scan publishes: the description for clients, and the directory that
    answers their calls. -/
structure Catalog where
  services : Services
  directory : Directory

end Switchboard
