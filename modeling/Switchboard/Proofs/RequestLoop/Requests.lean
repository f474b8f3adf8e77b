import Switchboard.Proofs.RequestLoop.Tick

/-!
# The Books over a Request

Handing a request in keeps the books, and so does cutting requests off. A new
request has a ticket and, if it has calls, a batch that nobody has seen before,
so nothing that the ledger says of others is disturbed. Disconnecting a client
and shutting the loop down are one thing as far as the books go: requests whose
connection is gone are dropped with all that waits for them (`Books.cutOff`).

A client that is disconnected from the dispatcher loses its pending calls there.
None of them is parked any more, because what is parked is pending for the
connection that asked for it, and that one's batches are gone.

## Main definitions

* `Books.newBatch`: The batch of a request that has just been handed in.

## Theorems

* `Books.submit`: Handing a request in.
* `Books.cutOff`: Dropping requests.
* `Books.disconnect`, `Books.shutdown`, `Books.alter`: The other tasks.
-/

namespace Switchboard

/-! ## Clients that go -/

namespace RequestLoop

/-- Disconnecting a client that is not registered is no matter of the dispatcher. -/
theorem disconnect_eq (l : RequestLoop) (connection : ConnectionId) :
    (l.connections.clients.get? connection = none ∧
      (l.disconnect connection).2.connections = l.connections ∧
      (l.disconnect connection).2.dispatcher = l.dispatcher) ∨
    ((l.disconnect connection).2.connections =
        { l.connections with clients := l.connections.clients.erase connection } ∧
      (l.disconnect connection).2.dispatcher = (l.dispatcher.disconnect connection).2) := by
  unfold disconnect Connections.disconnect Connections.remove
  cases hclient : l.connections.clients.get? connection with
  | none =>
      left
      simp only [dropBatches, hclient, and_self]
  | some client =>
      right
      simp only [dropBatches, hclient, and_self]

end RequestLoop

/-! ## The entries of a batch -/

theorem map_place_entriesOf (b : BatchId) (connection : ConnectionId)
    (calls : List ProcedureCall) :
    (RequestLoop.entriesOf b connection calls).map Queued.place =
      (List.range calls.length).map fun slot => (b, slot) := by
  have hslots := List.zipIdx_map_snd 0 calls
  rw [← List.range_eq_range'] at hslots
  rw [← hslots, List.map_map]
  unfold RequestLoop.entriesOf
  rw [List.map_map]
  rfl

theorem mem_entriesOf_iff {b : BatchId} {connection : ConnectionId} {calls : List ProcedureCall}
    {q : Queued} :
    q ∈ RequestLoop.entriesOf b connection calls ↔
      q.batch = b ∧ q.connection = connection ∧ calls[q.slot]? = some q.call := by
  unfold RequestLoop.entriesOf
  rw [List.mem_map]
  constructor
  · rintro ⟨⟨call, slot⟩, hmem, rfl⟩
    exact ⟨rfl, rfl, List.mem_zipIdx_iff_getElem?.mp hmem⟩
  · rintro ⟨rfl, rfl, hcall⟩
    exact ⟨(q.call, q.slot), List.mem_zipIdx_iff_getElem?.mpr hcall, rfl⟩

namespace Books

variable {g : Ledger} {l : RequestLoop} {unstarted : List Queued}
  {settling : List (CallContext × Outcome)} {hand : Option Place}

/-! ## Handing a request in -/

-- The next batch has no ticket.
theorem unfiled_nextBatch (h : Books g l unstarted settling hand) :
    g.tickets.get? l.nextBatch = none := by
  cases hb : g.tickets.get? l.nextBatch with
  | none => rfl
  | some t => exact absurd (h.below hb) (Nat.lt_irrefl _)

/-- What waits, or was dispatched, is in a batch with a ticket. -/
theorem not_waiting_of_unfiled (h : Books g l unstarted settling hand) {b : BatchId}
    (hb : g.tickets.get? b = none) :
    (∀ q ∈ unstarted, q.batch ≠ b) ∧ (∀ x ∈ g.starts, x.entry.batch ≠ b) ∧
      l.batches.get? b = none := by
  have hnot : ∀ {q : Queued} {t : Ticket}, g.Asked q t → q.batch ≠ b := by
    rintro q t ⟨s, hfiled, _⟩ rfl
    rw [hfiled.ticket] at hb
    exact absurd hb (by simp only [reduceCtorEq, not_false_eq_true])
  refine ⟨?_, ?_, ?_⟩
  · intro q hq
    rcases (h.queued q hq).1 with ⟨t, hasked⟩
    exact hnot hasked
  · intro x hx
    exact hnot (h.coherent.proper x hx).asked
  · cases hbatch : l.batches.get? b with
    | none => rfl
    | some batch =>
        rcases (h.batches hbatch).filed with ⟨s, hfiled, _⟩
        rw [hfiled.ticket] at hb
        exact absurd hb (by simp only [reduceCtorEq, not_false_eq_true])

-- No batch is for a request that has not been handed in.
theorem ticket_ne_of_unfiled (h : Books g l unstarted settling hand) {t : Ticket}
    (hticket : g.requests.get? t = none) {b : BatchId} {batch : Batch}
    (hb : l.batches.get? b = some batch) : batch.ticket ≠ t := by
  intro hsame
  rcases (h.batches hb).filed with ⟨s, hfiled, _⟩
  have hrequest := hfiled.request
  rw [hsame, hticket] at hrequest
  exact absurd hrequest (by simp only [reduceCtorEq, not_false_eq_true])

/-- A request without calls. -/
theorem submit_empty {t : Ticket} {calls : List ProcedureCall}
    (h : Books g l unstarted settling hand) (hticket : g.requests.get? t = none)
    (hempty : calls.isEmpty = true) (connection : ConnectionId) :
    Books (g.file t l.nextBatch connection calls) (l.reply t (.answered ⟨[]⟩)) unstarted settling
      hand := by
  have hbatch := h.unfiled_nextBatch
  have hextends := Ledger.extends_file hticket hbatch connection calls
  have hanswers : (g.file t l.nextBatch connection calls).Answers t ⟨[]⟩ := by
    refine ⟨⟨connection, calls, false⟩, ?_, ?_, ?_⟩
    · simp only [Ledger.file, Table.get?_insert, if_true]
    · simp only [List.isEmpty_iff.mp hempty, List.length_nil]
    · intro i result hi
      exact absurd hi (by simp)
  refine { h with
    toReplies := h.toReplies.answer hextends hanswers (h.not_replied hticket) Ledger.requests_file
      (fun {_ _} => ⟨fun hb => ⟨hb, h.ticket_ne_of_unfiled hticket hb⟩, And.left⟩)
    coherent := Ledger.coherent_file h.coherent hticket hbatch connection calls
    below := ?_
    batches := fun hb => hextends.holds (h.batches hb)
    queued := fun q hq => hextends.queued rfl (h.queued q hq) }
  intro b t' hb
  rcases Ledger.tickets_file hb with ⟨_, _, hfalse⟩ | hold
  · rw [hempty] at hfalse
    exact Bool.noConfusion hfalse
  · exact h.below hold

/-- The batch of a request that has just been handed in. -/
def newBatch (t : Ticket) (connection : ConnectionId) (calls : List ProcedureCall) : Batch :=
  ⟨t, connection, calls.map fun _ => none, calls.length⟩

theorem holds_newBatch {t : Ticket} {b : BatchId} {connection : ConnectionId}
    {calls : List ProcedureCall} (hfiled : g.Filed b t ⟨connection, calls, false⟩)
    (hempty : calls.isEmpty = false) : g.Holds b (newBatch t connection calls) where
  filed := ⟨_, hfiled, rfl, List.length_map _⟩
  remaining := by
    simp only [newBatch, List.countP_map]
    exact (List.countP_eq_length.mpr fun _ _ => rfl).symm
  unfinished := List.length_pos_of_ne_nil (List.isEmpty_eq_false_iff.mp hempty)
  entered {slot result} hslot := by
    rw [newBatch, List.getElem?_map, Option.map_eq_some_iff] at hslot
    rcases hslot with ⟨_, _, hnone⟩
    exact absurd hnone (by simp only [reduceCtorEq, not_false_eq_true])

/-- What waits with a new batch: what waited before, and its own calls. -/
theorem waits_newBatch (h : Books g l unstarted settling hand) {b : BatchId}
    (hb : g.tickets.get? b = none) (t : Ticket) (connection : ConnectionId)
    (calls : List ProcedureCall) (p : Place) :
    ((∃ q ∈ unstarted ++ RequestLoop.entriesOf b connection calls, q.place = p) ∨
        (∃ id, l.parked.get? id = some p) ∨ hand = some p) ↔
      ∃ batch, (l.batches.insert b (newBatch t connection calls)).get? p.1 = some batch ∧
        batch.results[p.2]? = some none := by
  rcases h.not_waiting_of_unfiled hb with ⟨hqueued, hstarted, _⟩
  rw [Table.get?_insert]
  by_cases heq : p.1 = b
  · -- Nothing else waits in the new batch, so only its own calls matter.
    simp only [newBatch, if_pos heq, Option.some.injEq, exists_eq_left', List.getElem?_map,
      Option.map_eq_some_iff]
    constructor
    · rintro (⟨q, hq, hplace⟩ | ⟨id, hid⟩ | hhand)
      · rcases List.mem_append.mp hq with hq | hq
        · exact absurd ((congrArg Prod.fst hplace).trans heq) (hqueued q hq)
        · rw [← hplace]
          exact ⟨q.call, (mem_entriesOf_iff.mp hq).2.2, trivial⟩
      · rcases h.parked hid with ⟨x, hx, _, hplace, _⟩
        exact absurd ((congrArg Prod.fst hplace).trans heq) (hstarted x hx)
      · rcases h.worked hhand with ⟨x, hx, hplace, _⟩
        exact absurd ((congrArg Prod.fst hplace).trans heq) (hstarted x hx)
    · rintro ⟨call, hcall, _⟩
      refine Or.inl ⟨⟨p.1, p.2, connection, call⟩, ?_, rfl⟩
      exact List.mem_append_right _ (mem_entriesOf_iff.mpr ⟨heq, rfl, hcall⟩)
  · simp only [if_neg heq]
    rw [← h.waits_iff p]
    have hentries : (∃ q ∈ unstarted ++ RequestLoop.entriesOf b connection calls,
        q.place = p) ↔ ∃ q ∈ unstarted, q.place = p := by
      constructor
      · rintro ⟨q, hq, hplace⟩
        rcases List.mem_append.mp hq with hq | hq
        · exact ⟨q, hq, hplace⟩
        · exact absurd ((congrArg Prod.fst hplace).symm.trans (mem_entriesOf_iff.mp hq).1) heq
      · rintro ⟨q, hq, hplace⟩
        exact ⟨q, List.mem_append_left _ hq, hplace⟩
    rw [hentries]

/-- A request with calls. -/
theorem submit_batch {t : Ticket} {calls : List ProcedureCall}
    (h : Books g l unstarted settling hand) (hticket : g.requests.get? t = none)
    (hempty : calls.isEmpty = false) (connection : ConnectionId) :
    Books (g.file t l.nextBatch connection calls)
      { l with
        batches := l.batches.insert l.nextBatch (newBatch t connection calls)
        nextBatch := l.nextBatch + 1 }
      (unstarted ++ RequestLoop.entriesOf l.nextBatch connection calls) settling hand := by
  have hbatch := h.unfiled_nextBatch
  have hextends := Ledger.extends_file hticket hbatch connection calls
  have hfiled : (g.file t l.nextBatch connection calls).Filed l.nextBatch t
      ⟨connection, calls, false⟩ := by
    constructor
    · simp only [Ledger.file, hempty, Bool.false_eq_true, if_false, Table.get?_insert, if_true]
    · simp only [Ledger.file, Table.get?_insert, if_true]
  -- The batch is new, so nothing that was there is in it.
  rcases h.not_waiting_of_unfiled hbatch with ⟨hqueued, hstarted, hnone⟩
  refine { h with
    toReplies := h.toReplies.opened hextends Ledger.requests_file (h.not_replied hticket) hnone rfl
    coherent := Ledger.coherent_file h.coherent hticket hbatch connection calls
    below := ?_
    batches := ?_
    waits_iff := h.waits_newBatch hbatch t connection calls
    queued := ?_
    unstartedOnce := ?_ }
  · intro b t' hb
    rcases Ledger.tickets_file hb with ⟨rfl, _, _⟩ | hold
    · exact Nat.lt_succ_self _
    · exact Nat.lt_succ_of_lt (h.below hold)
  · intro b batch hb
    simp only [Table.get?_insert] at hb
    by_cases heq : b = l.nextBatch
    · rw [if_pos heq, Option.some.injEq] at hb
      rw [heq, ← hb]
      exact holds_newBatch hfiled hempty
    · rw [if_neg heq] at hb
      exact hextends.holds (h.batches hb)
  · intro q hq
    rcases List.mem_append.mp hq with hq | hq
    · exact hextends.queued rfl (h.queued q hq)
    · rcases mem_entriesOf_iff.mp hq with ⟨hb, hconnection, hcall⟩
      refine ⟨⟨t, _, by rw [hb]; exact hfiled, hconnection, hcall⟩, ?_⟩
      intro x hx hplace
      exact hstarted x hx ((congrArg Prod.fst hplace).trans hb)
  · rw [List.map_append, map_place_entriesOf, List.nodup_append]
    refine ⟨h.unstartedOnce, ?_, ?_⟩
    · exact List.nodup_range.map fun i j hij => (Prod.mk.inj hij).2
    · intro p hp p' hp' hsame
      rcases List.mem_map.mp hp with ⟨q, hq, hplace⟩
      rcases List.mem_map.mp hp' with ⟨slot, _, hplace'⟩
      exact hqueued q hq (congrArg Prod.fst (hplace.trans (hsame.trans hplace'.symm)))

theorem submit {d : Desk} (h : Books g d.loop d.loop.queue settling hand)
    (hticket : g.requests.get? d.nextTicket = none) (connection : ConnectionId)
    (request : Request) :
    Books (g.enter d (.submit connection request)) (d.submit connection request).2.loop
      (d.submit connection request).2.loop.queue settling hand := by
  unfold Desk.submit RequestLoop.submit Ledger.enter
  cases hempty : request.calls.isEmpty with
  | true => exact h.submit_empty hticket hempty connection
  | false => exact (h.submit_batch hticket hempty connection).of_queue _

/-! ## Cutting requests off -/

/-- A call and the batch of its place belong to one connection. -/
theorem asked_connection (h : Books g l unstarted settling hand) {q : Queued} {t : Ticket}
    {batch : Batch} (hasked : g.Asked q t) (hb : l.batches.get? q.batch = some batch) :
    q.connection = batch.connection := by
  rcases hasked with ⟨s, hfiled, hconnection, _⟩
  rcases (h.batches hb).filed with ⟨s', hfiled', hconnection', _⟩
  have ht : t = batch.ticket := Option.some.inj (hfiled.ticket.symm.trans hfiled'.ticket)
  subst ht
  rw [hconnection, hconnection',
    Option.some.inj (hfiled.request.symm.trans hfiled'.request)]

/-- What waits when requests are dropped: what waited for those that stay. -/
theorem waits_cutOff (h : Books g l unstarted [] none) {gone : ConnectionId → Bool}
    {parked : Table Place}
    (hparked : ∀ {id : CallId} {p : Place}, parked.get? id = some p ↔ l.parked.get? id = some p ∧
      ∃ batch, l.batches.get? p.1 = some batch ∧ gone batch.connection = false) (p : Place) :
    ((∃ q ∈ unstarted.filter fun q => !gone q.connection, q.place = p) ∨
        (∃ id, parked.get? id = some p) ∨ (none : Option Place) = some p) ↔
      ∃ batch, (l.batches.get? p.1 = some batch ∧ gone batch.connection = false) ∧
        batch.results[p.2]? = some none := by
  simp only [List.mem_filter, Bool.not_eq_true']
  constructor
  · rintro (⟨q, ⟨hq, hstays⟩, hplace⟩ | ⟨id, hid⟩ | hnone)
    -- A call stays in the queue exactly if its batch stays.
    · rcases (h.waits_iff p).mp (Or.inl ⟨q, hq, hplace⟩) with ⟨batch, hb, hslot⟩
      rcases (h.queued q hq).1 with ⟨t, hasked⟩
      have hconnection := h.asked_connection hasked (by rw [← hb, ← hplace]; rfl)
      exact ⟨batch, ⟨hb, hconnection ▸ hstays⟩, hslot⟩
    · rcases hparked.mp hid with ⟨hold, batch, hb, hstays⟩
      rcases (h.waits_iff p).mp (Or.inr (Or.inl ⟨id, hold⟩)) with ⟨batch', hb', hslot⟩
      rw [hb, Option.some.injEq] at hb'
      exact ⟨batch, ⟨hb, hstays⟩, hb' ▸ hslot⟩
    · exact absurd hnone (by simp only [reduceCtorEq, not_false_eq_true])
  · rintro ⟨batch, ⟨hb, hstays⟩, hslot⟩
    rcases (h.waits_iff p).mpr ⟨batch, hb, hslot⟩ with ⟨q, hq, hplace⟩ | ⟨id, hid⟩ | hnone
    · rcases (h.queued q hq).1 with ⟨t, hasked⟩
      have hconnection := h.asked_connection hasked (by rw [← hb, ← hplace]; rfl)
      exact Or.inl ⟨q, ⟨hq, hconnection ▸ hstays⟩, hplace⟩
    · exact Or.inr (Or.inl ⟨id, hparked.mpr ⟨hid, batch, hb, hstays⟩⟩)
    · exact absurd hnone (by simp only [reduceCtorEq, not_false_eq_true])

/-- The requests of connections that are gone are dropped, with what waits for
    them. -/
theorem cutOff (h : Books g l unstarted [] none) (task : Task) (gone : ConnectionId → Bool)
    (queue : List Queued) (parked : Table Place)
    (hgone : ∀ c, task.severs c = gone c)
    (hqueue : queue = unstarted.filter fun q => !gone q.connection)
    (hparked : ∀ {id : CallId} {p : Place}, parked.get? id = some p ↔ l.parked.get? id = some p ∧
      ∃ batch, l.batches.get? p.1 = some batch ∧ gone batch.connection = false) :
    Books (g.sever task) { l.dropBatches fun b => gone b.connection with queue, parked }
      queue [] none := by
  have hextends := Ledger.extends_sever g task
  have hget : ∀ {b : BatchId} {batch : Batch},
      (l.batches.filter fun _ b => !gone b.connection).get? b = some batch ↔
        l.batches.get? b = some batch ∧ gone batch.connection = false := by
    intro b batch
    rw [Table.get?_filter_eq_some_iff, Bool.not_eq_true']
  -- Batches are dropped for connections that are gone, and their requests are
  -- marked for the same reason.
  have hsevered : ∀ {b : BatchId} {batch : Batch}, l.batches.get? b = some batch →
      gone batch.connection = true → (g.sever task).Severed batch.ticket := by
    intro b batch hb hgone'
    rcases (h.batches hb).filed with ⟨s, hfiled, hconnection, _⟩
    exact Ledger.severed_sever hfiled.request (by rw [hgone, ← hconnection]; exact hgone')
  subst hqueue
  refine { h with
    toReplies := h.toReplies.drop hextends Ledger.requests_sever h.batches_apart hsevered
    coherent := Ledger.coherent_sever h.coherent task
    batches := fun hb => hextends.holds (h.batches (hget.mp hb).1)
    waits_iff := ?_
    queued := fun q hq => hextends.queued rfl (h.queued q (List.mem_filter.mp hq).1)
    unstartedOnce := h.unstartedOnce.sublist (List.filter_sublist.map Queued.place)
    parked := fun hp => h.parked (hparked.mp hp).1
    worked := fun hp => absurd hp (by simp only [reduceCtorEq, not_false_eq_true]) }
  intro p
  rw [h.waits_cutOff hparked p]
  simp only [RequestLoop.dropBatches, hget]

/-! ## The other tasks -/

/-- A parked call belongs to the connection of its batch. -/
theorem parked_connection (h : Books g l unstarted settling hand) {id : CallId} {p : Place}
    (hp : l.parked.get? id = some p) {c : Continuation}
    (hw : g.record.session.waiting id = some c) :
    ∃ batch, l.batches.get? p.1 = some batch ∧ c.ctx.connection = batch.connection := by
  rcases (h.waits_iff p).mp (Or.inr (Or.inl ⟨id, hp⟩)) with ⟨batch, hb, _⟩
  rcases h.parked hp with ⟨x, hx, hid, hplace, _⟩
  have hproper := h.coherent.proper x hx
  refine ⟨batch, hb, ?_⟩
  rw [hproper.waiting (hid ▸ hw)]
  exact h.asked_connection hproper.asked (by rw [← hb, ← hplace]; rfl)

/-- Disconnecting a client from the dispatcher when nothing of it is left in
    the loop. -/
theorem disconnectDispatcher (h : Books g l unstarted [] none) (connection : ConnectionId)
    (hnone : ∀ {b : BatchId} {batch : Batch}, l.batches.get? b = some batch →
      batch.connection ≠ connection) :
    Books (g.operate (.disconnect connection))
      { l with dispatcher := (l.dispatcher.disconnect connection).2 } unstarted [] none := by
  have hbooks := h.operate (.disconnect connection) [] rfl
    (by
      intro id p hp hw
      refine Or.inl ?_
      rcases Option.ne_none_iff_exists'.mp hw with ⟨c, hc⟩
      rcases h.parked_connection hp hc with ⟨batch, hb, hconnection⟩
      -- Only calls of the connection are given up there, and none is parked.
      have hchange := Session.change_disconnect g.record.session connection id
      generalize ([] : List Event) = happened at hchange
      cases hchange with
      | untouched _ hwaiting _ =>
          rw [hwaiting]
          exact hw
      | advanced hadvances _ _ _ _ => exact Bool.noConfusion hadvances
      | dropped hdrops hwaiting _ _ =>
          rw [hc, Option.some.injEq] at hwaiting
          rw [Operation.drops, beq_iff_eq, ← hwaiting, hconnection] at hdrops
          exact absurd hdrops.symm (hnone hb))
    (fun report hreport => absurd hreport List.not_mem_nil)
  rw [← h.dispatcher]
  exact hbooks

theorem disconnect {d : Desk} (h : Books g d.loop d.loop.queue [] none)
    (connection : ConnectionId) :
    Books (g.enter d (.disconnect connection)) (d.loop.disconnect connection).2
      (d.loop.disconnect connection).2.queue [] none := by
  have hcut := h.cutOff (.disconnect connection) (fun c => c == connection)
    (d.loop.queue.filter fun q => q.connection != connection)
    (d.loop.parked.filter fun _ place =>
      (d.loop.batches.filter fun _ b => !(b.connection == connection)).contains place.1)
    (fun c => by rw [Task.severs, Bool.eq_iff_iff, beq_iff_eq, beq_iff_eq, eq_comm]) rfl
    (by
      intro id p
      rw [Table.get?_filter_eq_some_iff, Table.contains_iff]
      simp only [Table.get?_filter_eq_some_iff, Bool.not_eq_true'])
  -- The dispatcher hears of clients that were registered, and of no others.
  cases hclient : d.loop.connections.clients.get? connection with
  | none =>
      have hunknown : d.loop.connections.contains connection = false :=
        Table.contains_eq_false_iff.mpr hclient
      unfold Ledger.enter RequestLoop.disconnect Connections.disconnect Connections.remove
      simp only [RequestLoop.dropBatches, hunknown, hclient, Bool.false_eq_true, if_false]
      exact { hcut with coherent := hcut.coherent }
  | some client =>
      have hknown : d.loop.connections.contains connection = true :=
        Table.contains_iff.mpr ⟨client, hclient⟩
      have hclosed := hcut.disconnectDispatcher connection (by
        intro b batch hb
        have hleft := (Table.get?_filter_eq_some_iff.mp hb).2
        rw [Bool.not_eq_true', beq_eq_false_iff_ne] at hleft
        exact hleft)
      unfold Ledger.enter RequestLoop.disconnect Connections.disconnect Connections.remove
      simp only [RequestLoop.dropBatches, hknown, hclient, if_true]
      exact { hclosed with coherent := hclosed.coherent }

theorem shutdown {d : Desk} (h : Books g d.loop d.loop.queue [] none) :
    Books (g.enter d .shutdown) d.loop.shutdown d.loop.shutdown.queue [] none := by
  have hcut := h.cutOff .shutdown (fun _ => true) [] {} (fun _ => rfl)
    (by rw [List.filter_eq_nil_iff.mpr]; exact fun _ _ => Bool.false_ne_true)
    (by
      intro id p
      simp only [Table.get?_emptyCollection, reduceCtorEq, and_false, exists_false])
  exact { hcut with coherent := hcut.coherent }

/-- The host program changes what procedures share. -/
theorem alter {d : Desk} (h : Books g d.loop d.loop.queue [] none) (world : World) :
    Books (g.enter d (.alter world)) (d.perform (.alter world)).loop d.loop.queue [] none := by
  have hbooks := h.operate (.alter world) [] rfl (fun _ hw => Or.inl hw)
    (fun report hreport => absurd hreport List.not_mem_nil)
  unfold Ledger.enter Desk.perform
  rw [← h.dispatcher]
  exact hbooks

end Books

end Switchboard
