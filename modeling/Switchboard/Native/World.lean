import Switchboard.Native.Instance
import Switchboard.Table

/-!
# The State Native Procedures Share

What native procedures can remember between calls. The server itself never
looks at it: it is handed to a procedure with each step and taken back
afterwards, whether the step succeeded or not.

The world holds the allocator of instances, named slots that scripted
procedures store values in, and the properties of the fixture services. The
mutable properties of the fixture's objects are kept by address, so that an
object keeps them for as long as anybody holds it, registered or not.

## Main definitions

* `World`: The shared state.
* `World.allocate`: A new instance.
* `World.labelled`: The one instance known by a label.
-/

namespace Switchboard

/-- The properties of the fixture services and of their objects. -/
structure FixtureState where
  stringProperty : String := ""
  privateGetProperty : String := ""
  objectProperty : Option Instance := none
  /-- The integer property of each object that had it set, by address. -/
  intProperties : Table Int32 := {}
  /-- The object property of each object that has one, by address. -/
  objectProperties : Table Instance := {}
  deriving Inhabited

/-- The state that native procedures share. -/
structure World where
  /-- The address of the next instance. -/
  nextAddress : Nat := 1
  /-- The instances known by a label. -/
  labels : List (String × Instance) := []
  /-- The values stored by name. -/
  slots : List (String × NativeValue) := []
  fixture : FixtureState := {}
  deriving Inhabited

namespace World

/-- Makes a new instance. -/
def allocate (w : World) (payload : Payload) : Instance × World :=
  (⟨w.nextAddress, payload⟩, { w with nextAddress := w.nextAddress + 1 })

/-- The instance known by a label, made when it is asked for the first time. -/
def labelled (w : World) (label : String) : Instance × World :=
  match w.labels.lookup label with
  | some i => (i, w)
  | none =>
    let (i, w) := w.allocate (.label label)
    (i, { w with labels := (label, i) :: w.labels })

/-- The value stored under a name, null if there is none. -/
def load (w : World) (slot : String) : NativeValue := (w.slots.lookup slot).getD .null

/-- Stores a value under a name. -/
def store (w : World) (slot : String) (value : NativeValue) : World :=
  { w with slots := (slot, value) :: w.slots }

end World

end Switchboard
