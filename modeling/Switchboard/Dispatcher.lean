import Switchboard.Coercion
import Switchboard.Pending

/-!
# The Dispatcher

Runs calls. A call is looked up by name, its arguments are bound, its handler
runs one step, and what the step came to is concluded: a finished value is
written for the client, progress is parked until the next tick, and anything
else is a failure of this call alone.

The dispatcher is a value, and every operation gives the next one. What an
operation may touch can be read off the pieces it is made of. Starting a step
changes only what procedures share; concluding it changes the live objects, or
the pending calls, and nothing else; counting is done around both. These
pieces are also what can interleave with a disconnect when steps run side by
side: a step that was started before a disconnect may be concluded after it,
and finds the connection closed in both tables.

A tick advances each call that was pending when the tick began, oldest first,
by exactly one step. A call that parks itself again waits for the next tick.

## Main definitions

* `Dispatcher`: All state of a server apart from its connections and queues.
* `Dispatcher.dispatch`, `Dispatcher.resume`, `Dispatcher.tick`: Running calls.
* `Dispatcher.runStep`, `Dispatcher.conclude`: The two halves of a step.
* `Dispatcher.disconnect`, `Dispatcher.release`: Letting go.
* `Dispatcher.run`: Ticks until nothing is pending.
-/

namespace Switchboard

/-- What a disconnect removed. -/
structure DisconnectSummary where
  releasedObjects : Nat
  discardedContinuations : Nat
  deriving DecidableEq, Repr

/-- The state of a server. -/
structure Dispatcher where
  catalog : Catalog
  config : ServerConfig := {}
  objects : ObjectTable := {}
  pending : PendingCalls := {}
  status : Status := {}
  nextCall : CallId := 1
  /-- What native procedures share. -/
  world : World := {}

/-- A call whose turn it is: what its next step needs. -/
structure Turn where
  descriptor : Descriptor
  ctx : CallContext
  arguments : List NativeValue
  /-- What the step before left behind; `none` on the first step. -/
  progress : Option NativeValue := none
  /-- How many steps there have been. -/
  steps : Nat := 0

namespace Dispatcher

/-- A context for a new call of a connection. -/
def context (d : Dispatcher) (connection : ConnectionId) : CallContext × Dispatcher :=
  (⟨d.nextCall, connection⟩, { d with nextCall := d.nextCall + 1 })

/-- Everything the server reports, as of now. -/
def snapshot (d : Dispatcher) : Snapshot where
  version := d.config.version
  health := d.status.health
  callsDispatched := d.status.callsDispatched
  callsFailed := d.status.callsFailed
  continuationsResumed := d.status.continuationsResumed
  ticks := d.status.ticks
  liveObjects := d.objects.size
  pendingContinuations := d.pending.size
  services := d.catalog.services.services.length
  procedures := d.catalog.directory.size

/-- Moves the server to a stage of its life. -/
def setHealth (d : Dispatcher) (health : Health) : Dispatcher :=
  { d with status := { d.status with health } }

/-! ## The two halves of a step -/

/-- Runs a handler for one step. Only what procedures share can change. -/
def runStep (d : Dispatcher) (p : Turn) : Except Interrupt Step × Dispatcher :=
  let (result, world) := p.descriptor.handler.react
    { ctx := p.ctx
      procedure := p.descriptor.qualifiedName
      services := d.catalog.services
      snapshot := d.snapshot
      arguments := p.arguments
      progress := p.progress }
    d.world
  (result, { d with world })

/-- Writes what a finished procedure gives back. A procedure without a return
    type must give nothing, and one with a return type that gives nothing is
    taken to give null. -/
def writeReturn (services : Services) (p : Turn) (value : Option NativeValue) :
    Writing (Option Value) :=
  let context := p.descriptor.qualifiedName ++ " return value"
  match p.descriptor.procedure.returnType, value with
  | none, none => return none
  | none, some v => throw (.typeMismatch context "no value" v.kind)
  | some ty, v => do
    return some (← encode services p.ctx.connection context ty (v.getD .null))

/-- The failure of a procedure that yields although it was not declared
    blocking. -/
def cannotYield (procedure : String) : CallError :=
  .nativeFault ("procedure " ++ procedure ++ " is not blocking and cannot yield")

/-- The failure of a call whose connection disconnected while a step ran. -/
def connectionGone (connection : ConnectionId) : CallError :=
  .nativeFault ("connection " ++ connection.repr ++ " disconnected")

/-- Draws the consequences of a step: writes its value, or parks the call, or
    fails. -/
def conclude (d : Dispatcher) (p : Turn) : Except Interrupt Step → Outcome × Dispatcher
  | .error interrupt => (.failed interrupt.toError, d)
  | .ok (.complete value) =>
    match (writeReturn d.catalog.services p value).run.run d.objects with
    | (.ok written, objects) => (.completed written, { d with objects })
    | (.error e, objects) => (.failed e, { d with objects })
  | .ok (.yield progress) =>
    if p.descriptor.procedure.blocking then
      match d.pending.park ⟨p.descriptor, p.ctx, p.arguments, progress, p.steps + 1⟩ with
      | (true, pending) => (.continuing p.ctx.call, { d with pending })
      | (false, pending) => (.failed (connectionGone p.ctx.connection), { d with pending })
    else (.failed (cannotYield p.descriptor.qualifiedName), d)

/-- Runs one step and draws its consequences. -/
def step (d : Dispatcher) (p : Turn) : Outcome × Dispatcher :=
  let (result, d) := d.runStep p
  d.conclude p result

/-! ## Counting -/

/-- Counts a call that came in. -/
def countDispatch (d : Dispatcher) : Dispatcher :=
  { d with status := { d.status with callsDispatched := d.status.callsDispatched + 1 } }

/-- Counts a step of a call that was pending. -/
def countResume (d : Dispatcher) : Dispatcher :=
  { d with status := { d.status with continuationsResumed := d.status.continuationsResumed + 1 } }

/-- Counts a tick. -/
def countTick (d : Dispatcher) : Dispatcher :=
  { d with status := { d.status with ticks := d.status.ticks + 1 } }

/-- Counts an outcome, of which only failures are counted. -/
def countOutcome (outcome : Outcome) (d : Dispatcher) : Dispatcher :=
  match outcome with
  | .failed _ => { d with status := { d.status with callsFailed := d.status.callsFailed + 1 } }
  | _ => d

/-! ## Running calls -/

/-- The first step of a call, or why there can be none. -/
def prepare (d : Dispatcher) (call : Call) : Except CallError Turn := do
  let descriptor ← d.catalog.directory.get call.procedure
  let arguments ← bindArguments d.catalog.services d.objects descriptor.qualifiedName
    descriptor.procedure.parameters call.arguments
  return { descriptor, ctx := call.ctx, arguments }

/-- Runs the first step of a call. -/
def dispatch (d : Dispatcher) (call : Call) : Outcome × Dispatcher :=
  let d := d.countDispatch
  let (outcome, d) :=
    match d.prepare call with
    | .ok p => d.step p
    | .error e => (.failed e, d)
  (outcome, d.countOutcome outcome)

/-- Runs the next step of a pending call and says whose call it was. -/
def advance (d : Dispatcher) (id : CallId) : Option (CallContext × Outcome) × Dispatcher :=
  match d.pending.take id with
  | (none, _) => (none, d)
  | (some c, pending) =>
    let d := { d with pending }.countResume
    let (outcome, d) := d.step ⟨c.descriptor, c.ctx, c.arguments, some c.progress, c.steps⟩
    (some (c.ctx, outcome), d.countOutcome outcome)

/-- Runs the next step of a pending call. -/
def resume (d : Dispatcher) (id : CallId) : Option Outcome × Dispatcher :=
  let (result, d) := d.advance id
  (result.map (·.2), d)

/-- Advances calls one after the other; those that are no longer pending when
    their turn comes are passed over. -/
def advanceAll (d : Dispatcher) : List CallId → List (CallContext × Outcome) × Dispatcher
  | [] => ([], d)
  | id :: rest =>
    let (result, d) := d.advance id
    let (results, d) := d.advanceAll rest
    (result.toList ++ results, d)

/-- Advances every call that is pending now by one step. -/
def tick (d : Dispatcher) : List (CallContext × Outcome) × Dispatcher :=
  let d := d.countTick
  d.advanceAll d.pending.ids

/-- Ticks until nothing is pending, but not more often than allowed. Gives the
    number of ticks and the final outcomes in the order they came about. -/
def run (d : Dispatcher) : Nat → (Nat × List (CallContext × Outcome)) × Dispatcher
  | 0 => ((0, []), d)
  | allowed + 1 =>
    if d.pending.size = 0 then ((0, []), d)
    else
      let (results, d) := d.tick
      let ((ticks, rest), d) := d.run allowed
      ((ticks + 1, results.filter (·.2.isFinal) ++ rest), d)

/-! ## Letting go -/

/-- Closes a connection for good: releases the objects that it alone owns and
    gives its pending calls up. -/
def disconnect (d : Dispatcher) (connection : ConnectionId) : DisconnectSummary × Dispatcher :=
  let (releasedObjects, objects) := d.objects.releaseOwner connection
  let (discardedContinuations, pending) := d.pending.discardConnection connection
  (⟨releasedObjects, discardedContinuations⟩, { d with objects, pending })

/-- Releases an object whoever owns it. -/
def release (d : Dispatcher) (id : ObjectId) : Bool × Dispatcher :=
  let (released, objects) := d.objects.release id
  (released, { d with objects })

end Dispatcher

end Switchboard
