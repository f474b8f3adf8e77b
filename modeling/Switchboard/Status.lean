/-!
# Server Status

What a server reports about itself: its health, four counters that only grow,
and a snapshot that adds the sizes of its tables. Procedures may look at the
snapshot while they run, so it is taken before each step.

## Main definitions

* `Health`: From starting through ready to stopped.
* `Status`: Health and counters.
* `Snapshot`: Everything reported at one moment.
* `ServerConfig`: What an operator can set.
-/

namespace Switchboard

/-- The stages of a server's life. -/
inductive Health where
  | starting
  | ready
  | stopped
  deriving DecidableEq, Repr

/-- The word for a stage in reports. -/
def Health.word : Health → String
  | .starting => "starting"
  | .ready => "ready"
  | .stopped => "stopped"

/-- Health and counters. A call that fails counts as dispatched too, and a
    call that is resumed counts once for each resumption. -/
structure Status where
  health : Health := .starting
  callsDispatched : Nat := 0
  callsFailed : Nat := 0
  continuationsResumed : Nat := 0
  ticks : Nat := 0
  deriving DecidableEq, Repr

/-- What an operator can set. -/
structure ServerConfig where
  /-- The version the server reports. -/
  version : String := "0.1.0"
  /-- How many fresh calls of one connection a tick may dispatch; `none` for
      all that are queued. -/
  maxCallsPerTick : Option Nat := none
  /-- Milliseconds between ticks. -/
  tickInterval : Nat := 20
  /-- How many tasks may be on their way to the host loop. -/
  queueCapacity : Nat := 256
  deriving DecidableEq, Repr

/-- Everything a server reports, at one moment. -/
structure Snapshot where
  version : String
  health : Health
  callsDispatched : Nat
  callsFailed : Nat
  continuationsResumed : Nat
  ticks : Nat
  liveObjects : Nat
  pendingContinuations : Nat
  services : Nat
  procedures : Nat
  deriving DecidableEq, Repr

end Switchboard
