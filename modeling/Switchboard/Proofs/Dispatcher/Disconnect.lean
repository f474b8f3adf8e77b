import Switchboard.Dispatcher
import Switchboard.Proofs.Objects.Departure

/-!
# What a Disconnect Takes Away

A disconnect takes away what belongs to the connection alone and nothing else. Of the
live objects these are the ones that it is the only owner of; an object that others
own as well stays what it is and has one owner less. Of the pending calls these are
its own. The numbers that are given back are the numbers of what is gone.

The two tables do not know of each other, so each half is treated by itself and the
dispatcher puts them together. Both halves are departures: what is counted is what is
missing afterwards, a second time changes nothing, and the order of two is of no
matter. For pending calls this is plain, since each belongs to one connection. For live
objects it is not, since whichever of two connections leaves first decides to whom a
shared object is charged, and so the numbers agree in sum only.

## Main definitions

* `Dispatcher.Severed`: All that a disconnect does.

## Theorems

* `PendingCalls.discardConnection_departure`: Disconnects are departures from the
  pending calls.
* `disconnect_severed`: A disconnect and its numbers.
* `disconnect_removes_exactly`: Disconnects, alone, repeated and in either order.
-/

namespace Switchboard

namespace PendingCalls

/-- The number of calls that are given up. -/
theorem discardConnection_fst (p : PendingCalls) (connection : ConnectionId) :
    (p.discardConnection connection).1 =
      p.waiting.values.countP fun c => c.ctx.connection = connection := by
  unfold discardConnection
  rw [Table.size_filter_eq_countP]
  exact List.countP_congr fun c _ => by rw [beq_iff_eq, decide_eq_true_eq]

/-- What is given up is what is missing afterwards. -/
theorem size_discardConnection (p : PendingCalls) (connection : ConnectionId) :
    (p.discardConnection connection).1 + (p.discardConnection connection).2.size = p.size :=
  p.waiting.size_filter_add_size_filter_not fun _ c => c.ctx.connection == connection

/-- Tables that hold the same calls and have the same connections closed are equal. -/
theorem ext_waiting {p q : PendingCalls}
    (hwaiting : ∀ id c, p.waiting.get? id = some c ↔ q.waiting.get? id = some c)
    (hclosed : p.closed = q.closed) : p = q := by
  have htable : p.waiting = q.waiting :=
    Table.ext_get? fun id => Option.ext fun c => hwaiting id c
  cases p
  cases q
  simp only at htable hclosed
  rw [htable, hclosed]

/-- Disconnects are departures from the pending calls. -/
theorem discardConnection_departure : Departure size discardConnection where
  missing := size_discardConnection
  comm := by
    intro p a b
    refine ext_waiting (fun id c => ?_) (IdSet.add_comm p.closed a b)
    simp only [get?_discardConnection_eq_some_iff, and_assoc]
    rw [and_comm (a := c.ctx.connection ≠ a)]
  same := by
    intro p connection
    refine ext_waiting (fun id c => ?_) (IdSet.add_add p.closed connection)
    simp only [get?_discardConnection_eq_some_iff, and_assoc, and_self]

end PendingCalls

namespace Dispatcher

/-- A connection was disconnected, with the numbers that were given back. -/
structure Severed (d : Dispatcher) (connection : ConnectionId) (summary : DisconnectSummary)
    (d' : Dispatcher) : Prop where
  /-- The live objects whose owners are the connection and nobody else were released. -/
  released : summary.releasedObjects =
    d.objects.entries.values.countP fun entry => entry.owners.keys = [connection]
  /-- The pending calls of the connection were given up. -/
  discarded : summary.discardedContinuations =
    d.pending.waiting.values.countP fun c => c.ctx.connection = connection
  /-- Every other object keeps its number, its instance and its class, and the
      connection is taken out of its owners. -/
  entries : ∀ id entry, d'.objects.entries.get? id = some entry ↔
    ∃ before, d.objects.entries.get? id = some before ∧ before.owners.keys ≠ [connection] ∧
      entry = { before with owners := before.owners.erase connection }
  /-- An address leads where it led, unless it is the address of an object that was
      released. -/
  addresses : ∀ a id, d'.objects.addresses.get? a = some id ↔
    d.objects.addresses.get? a = some id ∧
      ∀ k entry, d.objects.entries.get? k = some entry → entry.owners.keys = [connection] →
        entry.object.address ≠ a
  /-- Every other call waits as it did. -/
  waiting : ∀ id c, d'.pending.waiting.get? id = some c ↔
    d.pending.waiting.get? id = some c ∧ c.ctx.connection ≠ connection
  /-- Both tables know that the connection is gone. -/
  closed : d'.objects.closed = d.objects.closed.add connection ∧
    d'.pending.closed = d.pending.closed.add connection
  /-- The next object gets the number that it would have got. -/
  nextId : d'.objects.nextId = d.objects.nextId
  /-- Nothing else changes, such as the number of the next call or the counters. -/
  others : d' = { d with objects := d'.objects, pending := d'.pending }

variable (d : Dispatcher) (connection other : ConnectionId)

theorem disconnect_severed :
    d.Severed connection (d.disconnect connection).1 (d.disconnect connection).2 where
  released := ObjectTable.releaseOwner_fst d.objects connection
  discarded := PendingCalls.discardConnection_fst d.pending connection
  entries := by
    intro id entry
    have hthinned := (ObjectTable.releaseOwner_thinned d.objects connection).entries id
    unfold disconnect
    rw [hthinned, Option.bind_eq_some_iff]
    simp only [ObjectEntry.leave?_eq_some_iff]
  addresses := by
    intro a id
    simp only [← ObjectEntry.ownedOnlyBy_iff]
    exact ObjectTable.addresses_releaseOwner d.objects connection a id
  waiting := by
    intro id c
    exact PendingCalls.get?_discardConnection_eq_some_iff
  closed := ⟨ObjectTable.releaseOwner_closed d.objects connection, rfl⟩
  nextId := ObjectTable.releaseOwner_nextId d.objects connection
  others := rfl

theorem disconnect_again :
    (d.disconnect connection).2.disconnect connection =
      (⟨0, 0⟩, (d.disconnect connection).2) := by
  unfold disconnect
  simp only [ObjectTable.releaseOwner_departure.again,
    PendingCalls.discardConnection_departure.again]

theorem disconnect_comm :
    ((d.disconnect connection).2.disconnect other).2 =
      ((d.disconnect other).2.disconnect connection).2 := by
  unfold disconnect
  simp only [ObjectTable.releaseOwner_departure.comm d.objects connection other,
    PendingCalls.discardConnection_departure.comm d.pending connection other]

/-- What disconnecting a connection does, in whatever state. It removes the objects
    that the connection alone owns and its pending calls, gives back how many they
    were, and leaves everything else as it is. Disconnecting it once more removes
    nothing and changes nothing. Two disconnects lead to the same state in either
    order, and remove the same numbers in sum. -/
theorem disconnect_removes_exactly :
    d.Severed connection (d.disconnect connection).1 (d.disconnect connection).2 ∧
    (d.disconnect connection).2.disconnect connection = (⟨0, 0⟩, (d.disconnect connection).2) ∧
    ((d.disconnect connection).2.disconnect other).2 =
      ((d.disconnect other).2.disconnect connection).2 ∧
    (d.disconnect connection).1.releasedObjects +
        ((d.disconnect connection).2.disconnect other).1.releasedObjects =
      (d.disconnect other).1.releasedObjects +
        ((d.disconnect other).2.disconnect connection).1.releasedObjects ∧
    (d.disconnect connection).1.discardedContinuations +
        ((d.disconnect connection).2.disconnect other).1.discardedContinuations =
      (d.disconnect other).1.discardedContinuations +
        ((d.disconnect other).2.disconnect connection).1.discardedContinuations :=
  ⟨disconnect_severed d connection, disconnect_again d connection,
    disconnect_comm d connection other,
    ObjectTable.releaseOwner_departure.fst_add d.objects connection other,
    PendingCalls.discardConnection_departure.fst_add d.pending connection other⟩

end Dispatcher

end Switchboard
