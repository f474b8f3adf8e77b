import Switchboard.Connections

/-!
# The Request Loop

How whole requests are answered. A request is a batch of calls. Its calls wait
in one queue with those of all other requests; each tick first advances the
calls that are pending and then dispatches calls from the queue, oldest first,
and when the last call of a batch has its final result the batch is answered.
A call that takes many ticks is therefore one ordinary call to the client.

The server may limit how many fresh calls of one connection a tick dispatches.
The limit is counted for each connection on its own, so a client that floods
the queue delays nobody else, and calls held back keep their places.

Replies leave through an outbox. A request that is not going to be answered,
because its client disconnected or the loop was shut down, is replied to as
well: its submitter is told that it was dropped.

## Main definitions

* `RequestLoop`: The queue and the batches, over a dispatcher.
* `RequestLoop.submit`, `RequestLoop.tick`: Requests in, replies out.
* `takeRunnable`: What a tick may dispatch.
* `RequestLoop.disconnect`, `RequestLoop.shutdown`: Dropping requests.
-/

namespace Switchboard

/-- The number by which a submitter recognises the reply to its request. -/
abbrev Ticket := Nat

/-- The number of a batch inside the loop, from one upward. -/
abbrev BatchId := Nat

/-- What becomes of a request. -/
inductive Reply where
  | answered (response : Response)
  | dropped

/-- A request that is being answered. -/
structure Batch where
  ticket : Ticket
  connection : ConnectionId
  /-- The result of each call, once it has one. -/
  results : List (Option ProcedureResult)
  /-- How many calls have no result yet. -/
  remaining : Nat

/-- A call that has not been dispatched. -/
structure Queued where
  batch : BatchId
  /-- The place of the call in its batch. -/
  slot : Nat
  connection : ConnectionId
  call : ProcedureCall

/-- The loop that answers requests. -/
structure RequestLoop where
  dispatcher : Dispatcher
  connections : Connections := {}
  /-- Calls that wait to be dispatched, oldest first. -/
  queue : List Queued := []
  batches : Table Batch := {}
  /-- The batch and the place of each call that is pending. -/
  parked : Table (BatchId × Nat) := {}
  nextBatch : BatchId := 1
  /-- Replies that nobody has fetched, oldest first. -/
  outbox : List (Ticket × Reply) := []

/-- Divides a queue into the calls that may be dispatched and those held back,
    given how many of each connection may be and how many have been counted.
    Both parts keep the order of the queue. -/
def takeRunnable (limit : Nat) (counted : Table Nat) : List Queued → List Queued × List Queued
  | [] => ([], [])
  | q :: rest =>
    let used := (counted.get? q.connection).getD 0
    if used < limit then
      let (runnable, heldBack) := takeRunnable limit (counted.insert q.connection (used + 1)) rest
      (q :: runnable, heldBack)
    else
      let (runnable, heldBack) := takeRunnable limit counted rest
      (runnable, q :: heldBack)

/-- Divides a queue by the configured limit. Without a limit everything may be
    dispatched, and no limit is below one. -/
def ServerConfig.takeRunnable (config : ServerConfig) (queue : List Queued) :
    List Queued × List Queued :=
  match config.maxCallsPerTick with
  | none => (queue, [])
  | some limit => Switchboard.takeRunnable (max limit 1) {} queue

namespace RequestLoop

/-- Puts a reply into the outbox. -/
def reply (l : RequestLoop) (ticket : Ticket) (r : Reply) : RequestLoop :=
  { l with outbox := l.outbox ++ [(ticket, r)] }

/-- Empties the outbox. -/
def collect (l : RequestLoop) : List (Ticket × Reply) × RequestLoop :=
  (l.outbox, { l with outbox := [] })

/-- Lets a client in. -/
def connect (l : RequestLoop) (name : Option String) : ConnectionId × RequestLoop :=
  let (client, connections) := l.connections.register name
  (client.id, { l with connections })

/-! ## Requests in -/

/-- The queue entries of a batch. -/
def entriesOf (batch : BatchId) (connection : ConnectionId) (calls : List ProcedureCall) :
    List Queued :=
  calls.zipIdx.map fun (call, slot) => ⟨batch, slot, connection, call⟩

/-- Takes a request in. A request without calls is answered at once. -/
def submit (l : RequestLoop) (ticket : Ticket) (connection : ConnectionId) (request : Request) :
    RequestLoop :=
  if request.calls.isEmpty then l.reply ticket (.answered ⟨[]⟩)
  else
    let id := l.nextBatch
    let batch : Batch :=
      ⟨ticket, connection, request.calls.map fun _ => none, request.calls.length⟩
    { l with
      queue := l.queue ++ entriesOf id connection request.calls
      batches := l.batches.insert id batch
      nextBatch := id + 1 }

/-! ## Replies out -/

/-- Enters the final result of a call into its batch, and answers the batch if
    that was the last. Outcomes that are not final and batches that were
    dropped are passed over. -/
def settle (l : RequestLoop) (id : BatchId) (slot : Nat) (outcome : Outcome) : RequestLoop :=
  match outcome.result?, l.batches.get? id with
  | some result, some batch =>
    let results := batch.results.set slot (some result)
    let remaining := batch.remaining - 1
    if 0 < remaining then
      { l with batches := l.batches.insert id { batch with results, remaining } }
    else
      { l with batches := l.batches.erase id }.reply batch.ticket
        (.answered ⟨results.filterMap fun result => result⟩)
  | _, _ => l

/-- Settles a call that was pending, if a tick finished it. -/
def settleParked (l : RequestLoop) (ctx : CallContext) (outcome : Outcome) : RequestLoop :=
  if outcome.isFinal then
    match l.parked.get? ctx.call with
    | some (batch, slot) =>
      { l with parked := l.parked.erase ctx.call }.settle batch slot outcome
    | none => l
  else l

/-- Dispatches a call from the queue, and remembers its batch if it is going
    to take more ticks. -/
def start (l : RequestLoop) (q : Queued) : RequestLoop :=
  let (ctx, dispatcher) := l.dispatcher.context q.connection
  let (outcome, dispatcher) := dispatcher.dispatch (.ofWire ctx q.call)
  let l := { l with dispatcher }
  match outcome with
  | .continuing id => { l with parked := l.parked.insert id (q.batch, q.slot) }
  | outcome => l.settle q.batch q.slot outcome

/-- Advances every pending call by one step and settles those that finish. -/
def advancePending (l : RequestLoop) : RequestLoop :=
  let (results, dispatcher) := l.dispatcher.tick
  results.foldl (fun l (ctx, outcome) => l.settleParked ctx outcome) { l with dispatcher }

/-- Dispatches the calls of the queue that may run. -/
def startRunnable (l : RequestLoop) : RequestLoop :=
  let (runnable, heldBack) := l.dispatcher.config.takeRunnable l.queue
  runnable.foldl start { l with queue := heldBack }

/-- One tick: pending calls first, then fresh ones. -/
def tick (l : RequestLoop) : RequestLoop := l.advancePending.startRunnable

/-! ## Dropping requests -/

/-- Drops the batches a test selects, and tells their submitters. -/
def dropBatches (l : RequestLoop) (selected : Batch → Bool) : RequestLoop :=
  let dropped := (l.batches.filter fun _ b => selected b).values
  { l with
    batches := l.batches.filter fun _ b => !selected b
    outbox := l.outbox ++ dropped.map fun b => (b.ticket, .dropped) }

/-- Drops what a client has queued and in flight, and disconnects it. -/
def disconnect (l : RequestLoop) (connection : ConnectionId) :
    Option DisconnectSummary × RequestLoop :=
  let l := { l with queue := l.queue.filter fun q => q.connection != connection }
  let l := l.dropBatches fun b => b.connection == connection
  let l := { l with parked := l.parked.filter fun _ place => l.batches.contains place.1 }
  let (summary, connections, dispatcher) := l.connections.disconnect connection l.dispatcher
  (summary, { l with connections, dispatcher })

/-- Drops everything that waits. The dispatcher and the connections stay as
    they are. -/
def shutdown (l : RequestLoop) : RequestLoop :=
  { l.dropBatches fun _ => true with queue := [], parked := {} }

end RequestLoop

end Switchboard
