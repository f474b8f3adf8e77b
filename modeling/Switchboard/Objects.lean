import Switchboard.Call
import Switchboard.Native.Instance
import Switchboard.Table

/-!
# Live Objects

Which instances clients hold, and under which numbers.

A client never sees an instance. When a procedure returns one, it is entered
here and the client gets its number; when a client passes the number back, the
instance is looked up. An instance has one number for as long as it is
entered, no matter how often it is returned and to whom, and every connection
that was given the number owns the entry. An entry goes when it is released,
or when the last connection that owns it disconnects.

Numbers are never used twice, not even for an instance that comes back after
its entry was released, so a stale number cannot come to mean another object.

A connection that has disconnected stays closed. A step of one of its calls
that was under way may still return instances; they get numbers, since the
step has to finish, but nothing is entered for a connection that nobody will
disconnect again.

## Main definitions

* `ObjectEntry`, `ObjectTable`: The entries and the tables over them.
* `ObjectTable.register`: Entering an instance.
* `ObjectTable.resolve`, `ObjectTable.resolveAs`: Looking a number up.
* `ObjectTable.release`, `ObjectTable.releaseOwner`: Removal.
-/

namespace Switchboard

/-- An instance that clients hold. -/
structure ObjectEntry where
  object : Instance
  /-- The qualified name of the class it was first returned as. -/
  className : String
  /-- The connections that were given its number. -/
  owners : IdSet
  deriving Inhabited

/-- Whether a connection owns an entry and nobody else does. -/
def ObjectEntry.ownedOnlyBy (entry : ObjectEntry) (owner : ConnectionId) : Bool :=
  entry.owners.contains owner && (entry.owners.erase owner).isEmpty

/-- What a client is given for an instance. -/
structure ObjectReference where
  id : ObjectId
  className : String
  deriving DecidableEq, Repr

/-- All entries, by number and by address. -/
structure ObjectTable where
  entries : Table ObjectEntry := {}
  /-- The number of the instance at each address. -/
  addresses : Table ObjectId := {}
  /-- The next number to hand out. -/
  nextId : ObjectId := 1
  /-- The connections that have disconnected. -/
  closed : IdSet := {}
  deriving Inhabited

namespace ObjectTable

/-- The entry of an instance, with its number. -/
def entryOf? (t : ObjectTable) (object : Instance) : Option (ObjectId × ObjectEntry) := do
  let id ← t.addresses.get? object.address
  return (id, ← t.entries.get? id)

/-- Enters an instance for a connection. An instance that is entered already
    keeps its number and its class. -/
def register (t : ObjectTable) (object : Instance) (className : String) (owner : ConnectionId) :
    ObjectReference × ObjectTable :=
  match t.entryOf? object with
  | some (id, entry) =>
    (⟨id, entry.className⟩,
      if t.closed.contains owner then t
      else
        { t with
          entries := t.entries.insert id { entry with owners := entry.owners.add owner } })
  | none =>
    let id := t.nextId
    (⟨id, className⟩,
      if t.closed.contains owner then { t with nextId := id + 1 }
      else
        { t with
          entries := t.entries.insert id ⟨object, className, .of owner⟩
          addresses := t.addresses.insert object.address id
          nextId := id + 1 })

/-- The instance behind a number. -/
def resolve (t : ObjectTable) (id : ObjectId) : Except CallError Instance :=
  match t.entries.get? id with
  | some entry => .ok entry.object
  | none => .error (.invalidReference id)

/-- The instance behind a number if it was entered under the class asked for.
    The context says where it was asked for. -/
def resolveAs (t : ObjectTable) (id : ObjectId) (className context : String) :
    Except CallError Instance :=
  match t.entries.get? id with
  | some entry =>
    if entry.className = className then .ok entry.object
    else
      .error (.typeMismatch context ("Class(" ++ className ++ ")")
        ("Class(" ++ entry.className ++ ")"))
  | none => .error (.invalidReference id)

/-- Removes an entry and its address. -/
def drop (t : ObjectTable) (id : ObjectId) (entry : ObjectEntry) : ObjectTable :=
  { t with
    entries := t.entries.erase id
    addresses := t.addresses.erase entry.object.address }

/-- Removes an entry whoever owns it, and says whether there was one. -/
def release (t : ObjectTable) (id : ObjectId) : Bool × ObjectTable :=
  match t.entries.get? id with
  | some entry => (true, t.drop id entry)
  | none => (false, t)

/-- Closes a connection: it leaves every entry, and entries that nobody else
    owns are removed. Says how many were. -/
def releaseOwner (t : ObjectTable) (owner : ConnectionId) : Nat × ObjectTable :=
  let orphaned := t.entries.filter fun _ entry => entry.ownedOnlyBy owner
  let left : ObjectTable :=
    { t with
      entries := t.entries.mapRows fun _ entry => { entry with owners := entry.owners.erase owner }
      closed := t.closed.add owner }
  (orphaned.size, orphaned.rows.foldl (fun table row => table.drop row.1 row.2) left)

/-- Whether a number is live. -/
def contains (t : ObjectTable) (id : ObjectId) : Bool := t.entries.contains id

/-- The number of live entries. -/
def size (t : ObjectTable) : Nat := t.entries.size

/-- Whether nothing is live. -/
def isEmpty (t : ObjectTable) : Bool := t.entries.isEmpty

end ObjectTable

end Switchboard
