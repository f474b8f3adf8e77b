import Switchboard.Scan
import Switchboard.Wire.Serial.Catalog

/-!
# The Core Service

The service every server offers first: its status, its catalog, and the
caller's own identity. A server that offers it leaves its name to no other
service.

## Main definitions

* `coreService`: The declaration.
* `scanWithCore`: The catalog of the core service and others after it.
-/

namespace Switchboard

namespace Core

/-- Version and counts. -/
def status : Handler := do
  let snapshot := (← read).snapshot
  return .value (.tuple
    [.string snapshot.version, countInt64 snapshot.callsDispatched,
      countInt64 snapshot.callsFailed, countInt64 snapshot.liveObjects,
      countInt64 snapshot.pendingContinuations])

/-- The catalog in the form it travels in. -/
def services : Handler := do
  return .value (.bytes (Wire.toMsgPack (← read).services))

/-- The caller's connection. -/
def clientId : Handler := do
  return .value (countInt64 (← read).ctx.connection)

/-- The number of live objects. -/
def objectCount : Handler := do
  return .value (countInt32 (← read).snapshot.liveObjects)

end Core

/-- The service every server offers. -/
def coreService : ServiceDecl where
  name := "Core"
  summary := some "Server status and service introspection."
  procedures :=
    [{ name := "GetStatus"
       summary := some
         "Version, calls dispatched, calls failed, live objects and pending continuations."
       returnType := some (.tuple [.string, .int64, .int64, .int64, .int64])
       handler := some Core.status },
     { name := "GetServices"
       summary := some "The service catalog, encoded as named MsgPack."
       returnType := some .bytes
       handler := some Core.services },
     { name := "GetClientId"
       summary := some "Identifier of the calling connection."
       returnType := some .int64
       handler := some Core.clientId }]
  properties :=
    [{ name := "ObjectCount"
       ty := .int32
       summary := some "Number of live object references."
       getter := some Core.objectCount }]

/-- The catalog of the core service with others after it. -/
def scanWithCore (services : List ServiceDecl) : Except ScanError Catalog :=
  scan (coreService :: services)

end Switchboard
