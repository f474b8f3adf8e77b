import Switchboard.Desk
import Switchboard.Proofs.Dispatcher.Finals

/-!
# The Ledger

What has happened at a desk, written down beside it. A desk forgets: a batch
goes when it is answered or dropped, a call that was dispatched is known only by
its number, and a reply says nothing of the calls behind it. To say that every
reply was the right one, all of this has to be remembered by somebody else.

The ledger is that memory. Every request is entered under its ticket, with its
calls and with a mark once its connection was disconnected or the loop was shut
down; every batch is entered under its number, with its ticket; every call that
was dispatched is entered with its place and its number; and everything that
happened to calls is kept in a record. The record is that of a session which is
driven by nothing but the loop, so the numbers in the ledger mean something
there. The desk itself never looks at the ledger.

Two steps of the loop could go wrong without being noticed, since a list that
is written to out of range stays as it is and a number that is nought stays
nought: entering a result at a place, and counting a batch down. The checked
steps come to nothing where this would happen.

## Main definitions

* `Task`, `Desk.perform`: What a desk is asked to do.
* `Filing`, `Start`, `Ledger`: What is written down.
* `Ledger.enter`: Writing down one task.
* `Run`, `Run.replay`: A desk with its ledger under many tasks.
* `RequestLoop.tick?`, `Desk.perform?`: With indices checked.
-/

namespace Switchboard

/-! ## Tasks -/

/-- What a desk is asked to do, and what the host program does beside it. -/
inductive Task where
  | submit (connection : ConnectionId) (request : Request)
  | disconnect (connection : ConnectionId)
  | tick
  | shutdown
  /-- Clients come and go, or make themselves known, without the loop. -/
  | clients (now : Connections)
  /-- The host program changes what procedures share. -/
  | alter (world : World)

/-- One task. -/
def Desk.perform (d : Desk) : Task → Desk
  | .submit connection request => (d.submit connection request).2
  | .disconnect connection => (d.onLoop fun l => l.disconnect connection).2
  | .tick => { d with loop := d.loop.tick }
  | .shutdown => { d with loop := d.loop.shutdown }
  | .clients now => { d with loop := { d.loop with connections := now } }
  | .alter world =>
    { d with loop := { d.loop with dispatcher := { d.loop.dispatcher with world } } }

/-- Whether a task cuts the requests of a connection off. -/
def Task.severs (connection : ConnectionId) : Task → Bool
  | .disconnect c => c == connection
  | .shutdown => true
  | _ => false

/-! ## The ledger -/

/-- A place in a batch. -/
abbrev Place := BatchId × Nat

/-- The place of a call in its batch. -/
def Queued.place (q : Queued) : Place := (q.batch, q.slot)

/-- A request that was handed in. -/
structure Filing where
  connection : ConnectionId
  calls : List ProcedureCall
  /-- Whether it was cut off since. -/
  severed : Bool := false

/-- A call that was dispatched. -/
structure Start where
  entry : Queued
  ticket : Ticket
  id : CallId

/-- What has happened at a desk. -/
structure Ledger where
  record : Record
  /-- The requests, by ticket. -/
  requests : Table Filing := {}
  /-- The tickets of the batches. -/
  tickets : Table Ticket := {}
  /-- The calls that were dispatched, oldest first. -/
  starts : List Start := []

namespace Ledger

/-- Marks the requests that a task cuts off. -/
def sever (g : Ledger) (task : Task) : Ledger :=
  { g with
    requests := g.requests.mapRows fun _ filing =>
      { filing with severed := filing.severed || task.severs filing.connection } }

/-- Writes an operation on the dispatcher down. -/
def operate (g : Ledger) (op : Operation) : Ledger := { g with record := g.record.operate op }

/-- Writes a request down. It has a batch if it has calls. -/
def file (g : Ledger) (ticket : Ticket) (batch : BatchId) (connection : ConnectionId)
    (calls : List ProcedureCall) : Ledger :=
  { g with
    requests := g.requests.insert ticket { connection, calls }
    tickets := if calls.isEmpty then g.tickets else g.tickets.insert batch ticket }

/-- The number of the next call. -/
def nextCall (g : Ledger) : CallId := g.record.session.dispatcher.nextCall

/-- Writes down that a call is dispatched: it is given the next number. -/
def start (g : Ledger) (q : Queued) : Ledger :=
  { g with
    record := g.record.call q.connection q.call.qualifiedName q.call.arguments
    starts := g.starts ++ [⟨q, (g.tickets.get? q.batch).getD 0, g.nextCall⟩] }

/-- Writes down what a desk does for a task. A tick advances the pending calls
    and then dispatches those of the queue that may run; a connection that is
    not registered is not disconnected from the dispatcher. -/
def enter (g : Ledger) (d : Desk) : Task → Ledger
  | .submit connection request => g.file d.nextTicket d.loop.nextBatch connection request.calls
  | .disconnect connection =>
    if d.loop.connections.contains connection then
      (g.sever (.disconnect connection)).operate (.disconnect connection)
    else g.sever (.disconnect connection)
  | .tick =>
    (d.loop.dispatcher.config.takeRunnable d.loop.queue).1.foldl start (g.operate .tick)
  | .shutdown => g.sever .shutdown
  | .clients _ => g
  | .alter world => g.operate (.alter world)

end Ledger

/-- A desk with its ledger. -/
structure Run where
  desk : Desk
  ledger : Ledger

namespace Run

/-- A desk that opens, over a dispatcher that has done nothing yet. -/
def fresh (catalog : Catalog) (config : ServerConfig) (world : World) (connections : Connections) :
    Run where
  desk := { loop := { dispatcher := { catalog, config, world }, connections } }
  ledger := { record := { session := .fresh catalog config world } }

/-- One task. -/
def perform (r : Run) (task : Task) : Run := ⟨r.desk.perform task, r.ledger.enter r.desk task⟩

/-- One task after the other. -/
def replay (r : Run) (tasks : List Task) : Run := tasks.foldl perform r

theorem replay_cons (r : Run) (task : Task) (rest : List Task) :
    r.replay (task :: rest) = (r.perform task).replay rest := rfl

theorem replay_append (r : Run) (tasks later : List Task) :
    r.replay (tasks ++ later) = (r.replay tasks).replay later := List.foldl_append ..

end Run

/-! ## Checked steps -/

namespace RequestLoop

/-- Entering a result, provided that the place exists in its batch and that the
    batch can be counted down. -/
def settle? (l : RequestLoop) (id : BatchId) (slot : Nat) (outcome : Outcome) :
    Option RequestLoop :=
  match outcome.result?, l.batches.get? id with
  | some _, some batch =>
    if slot < batch.results.length ∧ 0 < batch.remaining then some (l.settle id slot outcome)
    else none
  | _, _ => some l

/-- Settling a call that was pending, checked. -/
def settleParked? (l : RequestLoop) (ctx : CallContext) (outcome : Outcome) :
    Option RequestLoop :=
  if outcome.isFinal then
    match l.parked.get? ctx.call with
    | some (batch, slot) =>
      { l with parked := l.parked.erase ctx.call }.settle? batch slot outcome
    | none => some l
  else some l

/-- Dispatching a call from the queue, checked. -/
def start? (l : RequestLoop) (q : Queued) : Option RequestLoop :=
  let (ctx, dispatcher) := l.dispatcher.context q.connection
  let (outcome, dispatcher) := dispatcher.dispatch (.ofWire ctx q.call)
  let l := { l with dispatcher }
  match outcome with
  | .continuing id => some { l with parked := l.parked.insert id (q.batch, q.slot) }
  | outcome => l.settle? q.batch q.slot outcome

/-- A tick, checked. -/
def tick? (l : RequestLoop) : Option RequestLoop := do
  let (results, dispatcher) := l.dispatcher.tick
  let l ← results.foldlM (fun l (ctx, outcome) => l.settleParked? ctx outcome)
    { l with dispatcher }
  let (runnable, heldBack) := l.dispatcher.config.takeRunnable l.queue
  runnable.foldlM start? { l with queue := heldBack }

end RequestLoop

/-- A task, checked. -/
def Desk.perform? (d : Desk) : Task → Option Desk
  | .tick => d.loop.tick?.map fun loop => { d with loop }
  | task => some (d.perform task)

end Switchboard
