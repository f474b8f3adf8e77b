import Switchboard.RequestLoop

/-!
# The Desk

Where requests are handed in and replies are picked up. Whoever hands a request
in gets a ticket; the reply is kept out for that ticket once, and a submitter
who no longer cares may give the ticket up at any time before. Giving up does
not stop the request: its calls run as before and their reply goes nowhere.

## Main definitions

* `Desk`: A request loop with its open tickets.
* `Desk.submit`, `Desk.collect`, `Desk.giveUp`: Handing in, picking up,
  walking away.
-/

namespace Switchboard

/-- A request loop with the tickets somebody still waits for. -/
structure Desk where
  loop : RequestLoop
  nextTicket : Ticket := 1
  waiting : IdSet := {}

namespace Desk

/-- Changes the loop behind the desk. -/
def onLoop {α : Type} (d : Desk) (f : RequestLoop → α × RequestLoop) : α × Desk :=
  let (a, loop) := f d.loop
  (a, { d with loop })

/-- Hands a request in. -/
def submit (d : Desk) (connection : ConnectionId) (request : Request) : Ticket × Desk :=
  (d.nextTicket,
    { loop := d.loop.submit d.nextTicket connection request
      nextTicket := d.nextTicket + 1
      waiting := d.waiting.add d.nextTicket })

/-- Walks away from a ticket, and says whether it was still open. -/
def giveUp (d : Desk) (ticket : Ticket) : Bool × Desk :=
  (d.waiting.contains ticket, { d with waiting := d.waiting.erase ticket })

/-- Picks up the replies for tickets that are still open, in the order of the
    tickets, and closes those. -/
def collect (d : Desk) : Table Reply × Desk :=
  let (replies, loop) := d.loop.collect
  let wanted := replies.filter fun reply => d.waiting.contains reply.1
  (wanted.foldl (fun table reply => table.insert reply.1 reply.2) {},
    { d with
      loop
      waiting := d.waiting.filter fun ticket _ => !wanted.any fun reply => reply.1 == ticket })

end Desk

end Switchboard
