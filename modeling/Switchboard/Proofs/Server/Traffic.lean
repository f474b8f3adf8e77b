import Switchboard.Proofs.RequestLoop.Ledger
import Switchboard.Server

/-!
# Traffic

A server with what is on the way to it. A client does not talk to the loop. What it
wants is sent, and it reaches the loop some time later; what several clients send may
reach it in any order, and so may what one client sends without waiting. In
particular a request may be overtaken by the farewell of its own connection, because
whether a connection is registered is looked at when a request is sent and not when
it arrives.

The operations of a server hand a request in and let it arrive at once
(`Server.handIn_snd`, `Server.disconnect_snd`). Here the two are apart, and everything
that clients may do can happen in between.

Besides what clients do and the ticks, the host program may change what procedures
share.

## Main definitions

* `Errand`: Something that is on its way to the loop.
* `Traffic`, `Traffic.perform`: A server and the errands on their way.
* `Traffic.replay`: One move after the other.

## Theorems

* `Server.handIn_snd`, `Server.disconnect_snd`: Errands that arrive at once.
-/

namespace Switchboard

/-- Something that is on its way to the loop. -/
inductive Errand where
  | request (connection : ConnectionId) (request : Request)
  | farewell (connection : ConnectionId)

/-- The connection that an errand is for. -/
def Errand.connection : Errand → ConnectionId
  | .request connection _ => connection
  | .farewell connection => connection

namespace Server

/-- Counts the calls of a request, before it is sent. -/
def count (s : Server) (connection : ConnectionId) (request : Request) : Server :=
  (s.onLoop fun l =>
    ((), { l with
      connections := (l.connections.record connection (.ofNat request.calls.length)).2 })).2

/-- Lets an errand arrive. -/
def receive (s : Server) : Errand → Server
  | .request connection request =>
    { s with desk := (s.desk.submit connection request).2 }.collect
  | .farewell connection => (s.onLoop fun l => l.disconnect connection).2

/-- Changes what procedures share. -/
def alter (s : Server) (world : World) : Server :=
  { s with desk := s.desk.perform (.alter world) }

/-- Handing a request in is sending it and letting it arrive at once. -/
theorem handIn_snd {s : Server} {connection : ConnectionId}
    (hregistered : s.desk.loop.connections.contains connection = true)
    (hrunning : s.running = true) (request : Request) :
    (s.handIn connection request).2 =
      (s.count connection request).receive (.request connection request) := by
  unfold handIn
  rw [if_pos hregistered]
  exact congrArg Prod.snd (if_pos hrunning)

/-- Disconnecting is sending a farewell and letting it arrive at once. -/
theorem disconnect_snd {s : Server} (hrunning : s.running = true) (connection : ConnectionId) :
    (s.disconnect connection).2 = s.receive (.farewell connection) := by
  unfold disconnect
  rw [if_pos hrunning]
  rfl

end Server

/-- A server, and the errands that are on their way to it. -/
structure Traffic where
  server : Server
  underway : List Errand := []

namespace Traffic

/-- What can happen while a server runs. -/
inductive Move where
  | connect (name : Option String)
  /-- A request is sent. -/
  | submit (connection : ConnectionId) (request : Request)
  /-- A farewell is sent. -/
  | disconnect (connection : ConnectionId)
  /-- One of the errands arrives, not necessarily the oldest. -/
  | arrive (place : Nat)
  | tick
  /-- The host program changes what procedures share. -/
  | alter (world : World)

/-- A server that has just started. -/
def start (catalog : Catalog) (config : ServerConfig) : Traffic where
  server := .start catalog config

/-- One move. A request is sent only for a connection that is registered. -/
def perform (t : Traffic) : Move → Traffic
  | .connect name => { t with server := (t.server.connect name).2 }
  | .submit connection request =>
    if t.server.desk.loop.connections.contains connection then
      { server := t.server.count connection request
        underway := t.underway ++ [.request connection request] }
    else t
  | .disconnect connection => { t with underway := t.underway ++ [.farewell connection] }
  | .arrive place =>
    match t.underway[place]? with
    | some errand =>
      { server := t.server.receive errand, underway := t.underway.eraseIdx place }
    | none => t
  | .tick => { t with server := t.server.tick }
  | .alter world => { t with server := t.server.alter world }

/-- One move after the other. -/
def replay (t : Traffic) (moves : List Move) : Traffic := moves.foldl perform t

end Traffic

end Switchboard
