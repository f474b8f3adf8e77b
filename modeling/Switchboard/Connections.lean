import Switchboard.Dispatcher

/-!
# Connections

Who is connected. A connection has a number that is never used again, the name
the client gave itself if any, and a count of the calls it has made. The count
is a 64-bit word and wraps around.

Whatever a client leaves in the server goes when it is disconnected, and only
a registered connection can be: of a connection that is not registered nothing
is cleaned up, because there is nothing left to clean up after the first time.

## Main definitions

* `Client`, `Connections`: The clients.
* `Connections.register`, `Connections.remove`, `Connections.drain`: Coming
  and going.
* `Connections.record`: Counting calls.
* `Connections.disconnect`: Going for good.
-/

namespace Switchboard

/-- A client that is connected. -/
structure Client where
  id : ConnectionId
  name : Option String
  calls : UInt64 := 0
  deriving DecidableEq, Repr

/-- The clients that are connected. -/
structure Connections where
  clients : Table Client := {}
  /-- The number of the next connection. -/
  nextId : ConnectionId := 1

namespace Connections

/-- Lets a client in. -/
def register (c : Connections) (name : Option String) : Client × Connections :=
  let client : Client := { id := c.nextId, name }
  (client, { clients := c.clients.insert c.nextId client, nextId := c.nextId + 1 })

/-- The client of a connection. -/
def get? (c : Connections) (id : ConnectionId) : Option Client := c.clients.get? id

/-- Whether a connection is registered. -/
def contains (c : Connections) (id : ConnectionId) : Bool := c.clients.contains id

/-- Takes a client out. -/
def remove (c : Connections) (id : ConnectionId) : Option Client × Connections :=
  (c.clients.get? id, { c with clients := c.clients.erase id })

/-- Counts calls of a client, and gives the new count. -/
def record (c : Connections) (id : ConnectionId) (calls : UInt64) :
    Option UInt64 × Connections :=
  match c.clients.get? id with
  | none => (none, c)
  | some client =>
    let total := client.calls + calls
    (some total, { c with clients := c.clients.insert id { client with calls := total } })

/-- How many clients are connected. -/
def count (c : Connections) : Nat := c.clients.size

/-- All clients, by number. -/
def all (c : Connections) : List Client := c.clients.values

/-- Takes all clients out. -/
def drain (c : Connections) : List Client × Connections :=
  (c.clients.values, { c with clients := {} })

/-- Takes a client out and cleans up after it. Nothing happens if the
    connection is not registered. -/
def disconnect (c : Connections) (id : ConnectionId) (d : Dispatcher) :
    Option DisconnectSummary × Connections × Dispatcher :=
  match c.remove id with
  | (none, _) => (none, c, d)
  | (some _, c) =>
    let (summary, d) := d.disconnect id
    (some summary, c, d)

end Connections

end Switchboard
