import Switchboard.Directory
import Switchboard.Table

/-!
# Pending Calls

Where a blocking call waits between two of its steps. What waits is everything
the next step needs: the procedure, the arguments as they were bound when the
call came in, the progress the last step left behind, and how many steps there
have been.

A call is either here or being worked on and never both: advancing it takes it
out, and putting it back is the step's last act. Putting back fails once the
connection has disconnected, so a step that was under way at that moment
leaves nothing behind.

## Main definitions

* `Continuation`: A call between two steps.
* `PendingCalls`: All of them, and the connections that may add none.
* `PendingCalls.park`, `PendingCalls.take`: In and out.
* `PendingCalls.discard`, `PendingCalls.discardConnection`: Giving calls up.

## Theorems

* `PendingCalls.get?_discardConnection_eq_some_iff`: The calls of other connections
  are left.
-/

namespace Switchboard

/-- A blocking call between two of its steps. -/
structure Continuation where
  descriptor : Descriptor
  ctx : CallContext
  arguments : List NativeValue
  /-- What the last step left behind. -/
  progress : NativeValue
  /-- How many steps there have been. -/
  steps : Nat

/-- The calls that wait for their next step. -/
structure PendingCalls where
  waiting : Table Continuation := {}
  /-- The connections that have disconnected. -/
  closed : IdSet := {}

namespace PendingCalls

/-- Puts a call in, unless its connection has disconnected. -/
def park (p : PendingCalls) (c : Continuation) : Bool × PendingCalls :=
  if p.closed.contains c.ctx.connection then (false, p)
  else (true, { p with waiting := p.waiting.insert c.ctx.call c })

/-- Takes a call out. -/
def take (p : PendingCalls) (id : CallId) : Option Continuation × PendingCalls :=
  (p.waiting.get? id, { p with waiting := p.waiting.erase id })

/-- The calls that wait, oldest first. -/
def ids (p : PendingCalls) : List CallId := p.waiting.keys

/-- Gives a call up, and says whether it was waiting. -/
def discard (p : PendingCalls) (id : CallId) : Bool × PendingCalls :=
  (p.waiting.contains id, { p with waiting := p.waiting.erase id })

/-- Closes a connection and gives its calls up. Says how many there were. -/
def discardConnection (p : PendingCalls) (connection : ConnectionId) : Nat × PendingCalls :=
  ((p.waiting.filter fun _ c => c.ctx.connection == connection).size,
    { waiting := p.waiting.filter fun _ c => c.ctx.connection != connection
      closed := p.closed.add connection })

/-- What is left is what belongs to other connections. -/
theorem get?_discardConnection_eq_some_iff {p : PendingCalls} {connection : ConnectionId}
    {id : CallId} {c : Continuation} :
    (p.discardConnection connection).2.waiting.get? id = some c ↔
      p.waiting.get? id = some c ∧ c.ctx.connection ≠ connection := by
  unfold discardConnection
  rw [Table.get?_filter_eq_some_iff, bne_iff_ne]

/-- Whether a call waits. -/
def contains (p : PendingCalls) (id : CallId) : Bool := p.waiting.contains id

/-- How many calls wait. -/
def size (p : PendingCalls) : Nat := p.waiting.size

end PendingCalls

end Switchboard
