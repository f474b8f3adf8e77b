import Switchboard.Desk

/-!
# The Server

A running server on a clock. The clock counts milliseconds and stands still
while anything can be done; it moves when a client sleeps or waits for a reply.
Ticks fall on the multiples of the tick interval, which is at least one, and a
client that waits for a reply goes on right after the tick that brought it.

A client that is not registered is turned away before anything else is looked
at. Once the server has stopped nothing is taken in any more, but clients may
still register and look at the status.

## Main definitions

* `HostError`: Why a request got no response.
* `Server`: A request desk, a clock, and the requests handed in without
  waiting.
* `Server.submit`, `Server.call`, `Server.spawn`, `Server.join`: Requests.
* `Server.sleep`, `Server.disconnect`, `Server.stop`: Everything else.
-/

namespace Switchboard

/-- Why a request got no response. -/
inductive HostError where
  | notRegistered (connection : ConnectionId)
  | notRunning
  | requestDropped (connection : ConnectionId)
  /-- A response without the one result that was asked for. -/
  | emptyResponse
  deriving DecidableEq, Repr

/-- What a client is told. -/
def HostError.message : HostError → String
  | .notRegistered connection => "connection " ++ connection.repr ++ " is not registered"
  | .notRunning => "worker not running"
  | .requestDropped connection => "request from connection " ++ connection.repr ++ " was dropped"
  | .emptyResponse => "empty response"

/-- A request that was handed in. -/
structure Submission where
  ticket : Ticket
  connection : ConnectionId

/-- A server on a clock. -/
structure Server where
  desk : Desk
  /-- Milliseconds since the start. -/
  now : Nat := 0
  running : Bool := true
  /-- Replies that were picked up and not yet asked for. -/
  arrived : Table Reply := {}
  /-- The requests handed in without waiting, by number, unless they have been
      waited for. -/
  spawned : Table (Except HostError Submission) := {}
  nextSpawn : Nat := 1

namespace Server

/-- A server that has just started on a catalog. -/
def start (catalog : Catalog) (config : ServerConfig) : Server where
  desk := { loop := { dispatcher := Dispatcher.setHealth { catalog, config } .ready } }

/-- The dispatcher inside. -/
def dispatcher (s : Server) : Dispatcher := s.desk.loop.dispatcher

/-- The client of a connection. -/
def client? (s : Server) (connection : ConnectionId) : Option Client :=
  s.desk.loop.connections.get? connection

/-- Milliseconds between ticks. -/
def interval (s : Server) : Nat := max s.dispatcher.config.tickInterval 1

/-- Picks up the replies that are there. -/
def collect (s : Server) : Server :=
  let (replies, desk) := s.desk.collect
  { s with desk, arrived := replies.rows.foldl (fun t row => t.insert row.1 row.2) s.arrived }

/-- Changes the request loop. -/
def onLoop {α : Type} (s : Server) (f : RequestLoop → α × RequestLoop) : α × Server :=
  let (a, desk) := s.desk.onLoop f
  (a, { s with desk }.collect)

/-! ## The clock -/

/-- Runs one tick, unless the server has stopped. -/
def tick (s : Server) : Server :=
  if s.running then (s.onLoop fun l => ((), l.tick)).2 else s

/-- Runs several ticks. -/
def ticks (s : Server) : Nat → Server
  | 0 => s
  | n + 1 => s.tick.ticks n

/-- Lets time pass. -/
def sleep (s : Server) (milliseconds : Nat) : Server :=
  let wake := s.now + milliseconds
  { s.ticks (wake / s.interval - s.now / s.interval) with now := wake }

/-- Lets time pass until right after the next tick. -/
def untilTick (s : Server) : Server :=
  { s.tick with now := (s.now / s.interval + 1) * s.interval }

/-! ## Requests -/

/-- Lets a client in. -/
def connect (s : Server) (name : Option String) : ConnectionId × Server :=
  s.onLoop fun l => l.connect name

/-- Hands a request in. The calls of a registered client are counted even if
    the server has stopped. -/
def handIn (s : Server) (connection : ConnectionId) (request : Request) :
    Except HostError Submission × Server :=
  if s.desk.loop.connections.contains connection then
    let (_, s) := s.onLoop fun l =>
      let (_, connections) := l.connections.record connection (.ofNat request.calls.length)
      ((), { l with connections })
    if s.running then
      let (ticket, desk) := s.desk.submit connection request
      (.ok ⟨ticket, connection⟩, { s with desk }.collect)
    else (.error .notRunning, s)
  else (.error (.notRegistered connection), s)

/-- Takes the reply to a request if it has arrived. -/
def takeReply (s : Server) (submission : Submission) :
    Option (Except HostError Response) × Server :=
  match s.arrived.get? submission.ticket with
  | none => (none, s)
  | some reply =>
    let s := { s with arrived := s.arrived.erase submission.ticket }
    match reply with
    | .answered response => (some (.ok response), s)
    | .dropped => (some (.error (.requestDropped submission.connection)), s)

/-- Waits for the reply to a request, for at most as many ticks as allowed. -/
def await (submission : Submission) :
    Nat → Server → Option (Except HostError Response) × Server
  | 0, s => s.takeReply submission
  | allowed + 1, s =>
    match s.takeReply submission with
    | (some response, s) => (some response, s)
    | (none, s) => await submission allowed s.untilTick

/-- Hands a request in and waits for its response, for at most as many ticks
    as allowed. -/
def submit (s : Server) (allowed : Nat) (connection : ConnectionId) (request : Request) :
    Option (Except HostError Response) × Server :=
  match s.handIn connection request with
  | (.error e, s) => (some (.error e), s)
  | (.ok submission, s) => await submission allowed s

/-- Makes one call and waits for its result, for at most as many ticks as
    allowed. -/
def call (s : Server) (allowed : Nat) (connection : ConnectionId) (c : ProcedureCall) :
    Option (Except HostError ProcedureResult) × Server :=
  let (answer, s) := s.submit allowed connection ⟨[c]⟩
  (answer.map fun outcome => do
    match (← outcome).results with
    | [] => .error .emptyResponse
    | result :: _ => .ok result, s)

/-- Hands a request in without waiting, and gives the number to wait by. -/
def spawn (s : Server) (connection : ConnectionId) (request : Request) : Nat × Server :=
  let (submission, s) := s.handIn connection request
  (s.nextSpawn,
    { s with spawned := s.spawned.insert s.nextSpawn submission, nextSpawn := s.nextSpawn + 1 })

/-- Waits for a request that was handed in without waiting. A request can be
    waited for once. -/
def join (s : Server) (allowed : Nat) (number : Nat) :
    Option (Except HostError Response) × Server :=
  match s.spawned.get? number with
  | none => (none, s)
  | some submission =>
    let s := { s with spawned := s.spawned.erase number }
    match submission with
    | .error e => (some (.error e), s)
    | .ok submission => await submission allowed s

/-! ## Leaving -/

/-- Disconnects a client. -/
def disconnect (s : Server) (connection : ConnectionId) :
    Except HostError (Option DisconnectSummary) × Server :=
  if s.running then
    let (summary, s) := s.onLoop fun l => l.disconnect connection
    (.ok summary, s)
  else (.error .notRunning, s)

/-- Stops the server: drops all requests and disconnects all clients. Clients
    that came after a first stop are disconnected by the next. -/
def stop (s : Server) : Server :=
  let s := if s.running then (s.onLoop fun l => ((), l.shutdown)).2 else s
  let (_, s) := s.onLoop fun l =>
    let (clients, connections) := l.connections.drain
    let dispatcher := clients.foldl (fun d client => (d.disconnect client.id).2) l.dispatcher
    ((), { l with connections, dispatcher := dispatcher.setHealth .stopped })
  { s with running := false }

end Server

end Switchboard
