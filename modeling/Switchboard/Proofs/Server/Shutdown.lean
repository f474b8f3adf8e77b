import Switchboard.Proofs.Dispatcher.Holdings
import Switchboard.Proofs.RequestLoop.Requests
import Switchboard.Proofs.Server.Traffic

/-!
# Nothing Outlives the Server

Stopping a server disconnects the clients that are registered, and nobody else. That
this leaves nothing behind rests on an invariant that three parts of the server share.
Who owns a live object or waits for a call is registered; and to a connection that has
gone both tables of the dispatcher are closed, so errands of it that arrive late
cannot bring anything back.

A number that was given to a client is that of a registered client or of one that has
gone (`Connections.Departed`), and every call in the queue and every request on its way
is for such a number. That is all that has to be known of it.

## Main definitions

* `Connections.Issued`, `Connections.Departed`: Numbers that were given to clients.
* `RequestLoop.Guarded`: The invariant of the loop.
* `Traffic.Guarded`: The invariant of a server with what is on its way.

## Theorems

* `RequestLoop.Guarded.tick`, `RequestLoop.Guarded.disconnect`: What the loop does.
* `Held.disconnectAll`: Several connections go.
* `Traffic.guarded_replay`: The invariant holds in every reachable state.
* `nothing_outlives_stop`: Nothing is left once the server has stopped.
-/

namespace Switchboard

/-! ## Connections -/

namespace Connections

/-- The number was given to a client. -/
def Issued (c : Connections) (id : ConnectionId) : Prop := 0 < id ∧ id < c.nextId

/-- The number was given to a client that has gone since. -/
def Departed (c : Connections) (id : ConnectionId) : Prop :=
  c.Issued id ∧ c.contains id = false

/-- Every client is kept under its own number, and the number was given to it. -/
structure Sound (c : Connections) : Prop where
  named : ∀ {id : ConnectionId} {client : Client}, c.clients.get? id = some client →
    client.id = id
  issued : ∀ {id : ConnectionId}, c.contains id = true → c.Issued id
  positive : 0 < c.nextId

theorem contains_or_departed {c : Connections} {id : ConnectionId} (h : c.Issued id) :
    c.contains id = true ∨ c.Departed id := by
  cases hc : c.contains id with
  | true => exact .inl rfl
  | false => exact .inr ⟨h, hc⟩

theorem sound_empty : ({} : Connections).Sound :=
  ⟨nofun, nofun, Nat.one_pos⟩

variable {c : Connections}

theorem contains_register (name : Option String) {id : ConnectionId} :
    (c.register name).2.contains id = true ↔ id = c.nextId ∨ c.contains id = true :=
  Table.contains_insert

theorem sound_register (h : c.Sound) (name : Option String) : (c.register name).2.Sound := by
  refine ⟨?_, ?_, Nat.succ_pos _⟩
  · intro id client hclient
    simp only [register, Table.get?_insert] at hclient
    split at hclient
    next hid => rw [← Option.some.inj hclient, hid]
    next => exact h.named hclient
  · intro id hid
    rcases (contains_register name).mp hid with rfl | hold
    · exact ⟨h.positive, Nat.lt_succ_self _⟩
    · exact ⟨(h.issued hold).1, Nat.lt_succ_of_lt (h.issued hold).2⟩

/-- Counting calls changes nobody's number. -/
theorem record_same (h : c.Sound) (connection : ConnectionId) (calls : UInt64) :
    (c.record connection calls).2.Sound ∧ (c.record connection calls).2.nextId = c.nextId ∧
      ∀ id, (c.record connection calls).2.contains id = true ↔ c.contains id = true := by
  unfold record
  cases hclient : c.clients.get? connection with
  | none => exact ⟨h, rfl, fun _ => Iff.rfl⟩
  | some client =>
      -- The client was there before, so there is nobody new.
      have hcontains : ∀ id, Table.contains (c.clients.insert connection
          { client with calls := client.calls + calls }) id = true ↔
            c.clients.contains id = true := by
        intro id
        rw [Table.contains_insert, or_iff_right_of_imp]
        rintro rfl
        exact Table.contains_iff.mpr ⟨client, hclient⟩
      refine ⟨⟨?_, fun hid => h.issued ((hcontains _).mp hid), h.positive⟩, rfl, hcontains⟩
      intro id client' hclient'
      simp only [Table.get?_insert] at hclient'
      split at hclient'
      next hid =>
        have hnamed : client.id = connection := h.named hclient
        rw [← Option.some.inj hclient', hid, hnamed]
      next => exact h.named hclient'

theorem sound_erase (h : c.Sound) (connection : ConnectionId) :
    Sound { c with clients := c.clients.erase connection } where
  named hclient := h.named (Table.get?_erase_eq_some_iff.mp hclient).1
  issued hid := h.issued (Table.contains_erase.mp hid).2
  positive := h.positive

theorem contains_erase {connection id : ConnectionId} :
    Connections.contains { c with clients := c.clients.erase connection } id = true ↔
      id ≠ connection ∧ c.contains id = true :=
  Table.contains_erase

end Connections

/-! ## The loop -/

namespace RequestLoop

/-- Who holds something is registered, to who has gone both tables are closed, and
    calls in the queue are for clients who are the one or the other. -/
structure Guarded (l : RequestLoop) : Prop where
  connections : l.connections.Sound
  held : Held (fun id => l.connections.contains id = true) l.connections.Departed
    l.dispatcher.objects l.dispatcher.pending
  queued : ∀ q ∈ l.queue, l.connections.Issued q.connection

namespace Guarded

variable {l : RequestLoop}

theorem fresh {d : Dispatcher} (hobjects : d.objects = {}) (hpending : d.pending = {}) :
    Guarded { dispatcher := d } where
  connections := Connections.sound_empty
  held := by
    rw [hobjects, hpending]
    exact (Held.fresh _).imp id fun hgone =>
      absurd hgone.1 fun hissued => Nat.not_lt.mpr hissued.1 hissued.2
  queued := nofun

/-- Only the connections, the queue, the objects and the pending calls matter. -/
theorem congr {l' : RequestLoop} (h : l.Guarded) (hconnections : l'.connections = l.connections)
    (hqueue : ∀ q ∈ l'.queue, q ∈ l.queue)
    (hobjects : l'.dispatcher.objects = l.dispatcher.objects)
    (hpending : l'.dispatcher.pending = l.dispatcher.pending) : l'.Guarded := by
  constructor
  · rw [hconnections]
    exact h.connections
  · rw [hconnections, hobjects, hpending]
    exact h.held
  · intro q hq
    rw [hconnections]
    exact h.queued q (hqueue q hq)

theorem collect (h : l.Guarded) : l.collect.2.Guarded := h.congr rfl (fun _ hq => hq) rfl rfl

theorem connect (h : l.Guarded) (name : Option String) : (l.connect name).2.Guarded where
  connections := Connections.sound_register h.connections name
  held := by
    refine h.held.imp (fun hc => (Connections.contains_register name).mpr (.inr hc)) ?_
    -- The new client is registered, so whoever has gone has gone before.
    rintro id ⟨⟨hpos, hlt⟩, hgone⟩
    have hnobody := (Connections.contains_register name).not.mp (Bool.eq_false_iff.mp hgone)
    rw [not_or] at hnobody
    have hle : id ≤ l.connections.nextId := Nat.le_of_lt_succ hlt
    exact ⟨⟨hpos, Nat.lt_of_le_of_ne hle hnobody.1⟩, Bool.eq_false_iff.mpr hnobody.2⟩
  queued q hq := ⟨(h.queued q hq).1, Nat.lt_succ_of_lt (h.queued q hq).2⟩

theorem record (h : l.Guarded) (connection : ConnectionId) (calls : UInt64) :
    Guarded { l with connections := (l.connections.record connection calls).2 } := by
  rcases Connections.record_same h.connections connection calls with ⟨hsound, hnext, hcontains⟩
  refine ⟨hsound, ?_, ?_⟩
  · refine h.held.imp (hcontains _).mpr ?_
    rintro id ⟨⟨hpos, hlt⟩, hgone⟩
    exact ⟨⟨hpos, hnext ▸ hlt⟩, Bool.eq_false_iff.mpr fun hhere =>
      absurd ((hcontains id).mpr hhere) (Bool.eq_false_iff.mp hgone)⟩
  · intro q hq
    exact ⟨(h.queued q hq).1, hnext.symm ▸ (h.queued q hq).2⟩

theorem submit (h : l.Guarded) (ticket : Ticket) {connection : ConnectionId}
    (hissued : l.connections.Issued connection) (request : Request) :
    (l.submit ticket connection request).Guarded := by
  unfold RequestLoop.submit
  split
  · exact h.congr rfl (fun _ hq => hq) rfl rfl
  · refine ⟨h.connections, h.held, fun q hq => ?_⟩
    rcases List.mem_append.mp hq with hold | hnew
    · exact h.queued q hold
    · rcases List.mem_map.mp hnew with ⟨_, _, rfl⟩
      exact hissued

theorem start (h : l.Guarded) {q : Queued} (hq : l.connections.Issued q.connection) :
    (l.start q).Guarded := by
  have hheld := Held.dispatch (d := (l.dispatcher.context q.connection).2) h.held
    (.ofWire (l.dispatcher.context q.connection).1 q.call) (Connections.contains_or_departed hq)
  have huntouched := l.start_untouched q
  constructor
  · rw [huntouched.connections]
    exact h.connections
  · rw [huntouched.connections, start_dispatcher]
    exact hheld
  · rw [huntouched.connections, huntouched.queue]
    exact h.queued

theorem startAll (h : l.Guarded) {todo : List Queued}
    (htodo : ∀ q ∈ todo, l.connections.Issued q.connection) :
    (todo.foldl RequestLoop.start l).Guarded := by
  induction todo generalizing l with
  | nil => exact h
  | cons q rest ih =>
      rw [List.forall_mem_cons] at htodo
      refine ih (h.start htodo.1) fun q' hq' => ?_
      rw [(l.start_untouched q).connections]
      exact htodo.2 q' hq'

theorem advancePending (h : l.Guarded) : l.advancePending.Guarded := by
  rcases l.advancePending_untouched with ⟨huntouched, hdispatcher⟩
  have hticked : Guarded { l with dispatcher := l.dispatcher.tick.2 } :=
    ⟨h.connections, h.held.tick, h.queued⟩
  exact hticked.congr huntouched.connections (fun _ hq => huntouched.queue ▸ hq)
    (congrArg _ hdispatcher) (congrArg _ hdispatcher)

/-- A tick starts calls of the queue and keeps the others. -/
theorem tick (h : l.Guarded) : l.tick.Guarded := by
  have hadvanced := h.advancePending
  unfold RequestLoop.tick RequestLoop.startRunnable
  have hparts := l.advancePending.dispatcher.config.takeRunnable_perm l.advancePending.queue
  have hheldBack : Guarded { l.advancePending with
      queue := (l.advancePending.dispatcher.config.takeRunnable l.advancePending.queue).2 } :=
    hadvanced.congr rfl (fun q hq => hparts.mem_iff.mpr (List.mem_append_right _ hq)) rfl rfl
  exact hheldBack.startAll fun q hq =>
    hadvanced.queued q (hparts.mem_iff.mpr (List.mem_append_left _ hq))

/-- A client that was registered goes; of any other there is nothing. -/
theorem disconnect (h : l.Guarded) (connection : ConnectionId) :
    (l.disconnect connection).2.Guarded := by
  have hqueue : ∀ q ∈ (l.disconnect connection).2.queue, q ∈ l.queue := fun q hq =>
    (List.mem_filter.mp hq).1
  rcases disconnect_eq l connection with
    ⟨_, hconnections, hdispatcher⟩ | ⟨hconnections, hdispatcher⟩
  · exact h.congr hconnections hqueue (congrArg _ hdispatcher) (congrArg _ hdispatcher)
  · constructor
    · rw [hconnections]
      exact Connections.sound_erase h.connections connection
    · rw [hconnections, hdispatcher]
      refine (h.held.disconnect connection).imp
        (fun hc => Connections.contains_erase.mpr hc.symm) ?_
      rintro id ⟨hissued, hgone⟩
      have hnobody := Connections.contains_erase.not.mp (Bool.eq_false_iff.mp hgone)
      have hissued' : l.connections.Issued id := hissued
      rcases Connections.contains_or_departed hissued' with hhere | hbefore
      · exact .inr (Decidable.of_not_not fun hne => hnobody ⟨hne, hhere⟩)
      · exact .inl hbefore
    · intro q hq
      rw [hconnections]
      exact h.queued q (hqueue q hq)

end Guarded

end RequestLoop

/-! ## Several connections go -/

/-- After several clients have been disconnected none of them holds anything. -/
theorem Held.disconnectAll {among gone : ConnectionId → Prop} {d : Dispatcher}
    (h : Held among gone d.objects d.pending) (clients : List Client) :
    Held (fun id => among id ∧ ∀ client ∈ clients, id ≠ client.id) gone
      (clients.foldl (fun d client => (d.disconnect client.id).2) d).objects
      (clients.foldl (fun d client => (d.disconnect client.id).2) d).pending := by
  induction clients generalizing among d with
  | nil => exact h.imp (fun hc => ⟨hc, nofun⟩) id
  | cons client rest ih =>
      have hfirst : Held (fun id => among id ∧ id ≠ client.id) gone
          (d.disconnect client.id).2.objects (d.disconnect client.id).2.pending :=
        (h.disconnect client.id).imp id .inl
      refine (ih hfirst).imp (fun hc => ⟨hc.1.1, ?_⟩) id
      exact List.forall_mem_cons.mpr ⟨hc.1.2, hc.2⟩

/-- After all clients have been disconnected nobody holds anything. -/
theorem RequestLoop.Guarded.drained {l : RequestLoop} (h : l.Guarded) :
    Held (fun _ => False) l.connections.Departed
      (l.connections.drain.1.foldl (fun d client => (d.disconnect client.id).2)
        l.dispatcher).objects
      (l.connections.drain.1.foldl (fun d client => (d.disconnect client.id).2)
        l.dispatcher).pending := by
  refine (h.held.disconnectAll l.connections.drain.1).imp ?_ id
  -- A client is kept under its own number, so whoever is registered was disconnected.
  rintro id ⟨hhere, hnone⟩
  rcases Table.contains_iff.mp hhere with ⟨client, hclient⟩
  exact hnone client (Table.mem_values_iff.mpr ⟨id, hclient⟩) (h.connections.named hclient).symm

/-! ## The server -/

namespace Traffic

/-- A running server whose loop is guarded, and to which only requests for its clients
    are on the way. -/
structure Guarded (t : Traffic) : Prop where
  running : t.server.running = true
  loop : t.server.desk.loop.Guarded
  underway : ∀ {connection : ConnectionId} {request : Request},
    .request connection request ∈ t.underway →
      t.server.desk.loop.connections.Issued connection

theorem guarded_start (catalog : Catalog) (config : ServerConfig) :
    (start catalog config).Guarded :=
  ⟨rfl, .fresh rfl rfl, nofun⟩

variable {t : Traffic}

/-- An errand that arrives is for a client, or is a farewell. -/
theorem guarded_receive (h : t.Guarded) {errand : Errand} (hmem : errand ∈ t.underway) :
    (t.server.receive errand).desk.loop.Guarded ∧
      (t.server.receive errand).desk.loop.connections.nextId =
        t.server.desk.loop.connections.nextId := by
  cases errand with
  | request connection request =>
      refine ⟨(h.loop.submit _ (h.underway hmem) request).collect, ?_⟩
      simp only [Server.receive, Server.collect, Desk.submit, Desk.collect, RequestLoop.collect,
        RequestLoop.submit]
      split <;> rfl
  | farewell connection =>
      refine ⟨(h.loop.disconnect connection).collect, ?_⟩
      rcases t.server.desk.loop.disconnect_eq connection with
        ⟨_, hconnections, _⟩ | ⟨hconnections, _⟩
      · exact (congrArg Connections.nextId hconnections).trans rfl
      · exact (congrArg Connections.nextId hconnections).trans rfl

theorem guarded_perform (h : t.Guarded) (move : Move) : (t.perform move).Guarded := by
  cases move with
  | connect name =>
      refine ⟨h.running, (h.loop.connect name).collect, fun hmem => ?_⟩
      have hissued := h.underway hmem
      exact ⟨hissued.1, Nat.lt_succ_of_lt hissued.2⟩
  | submit connection request =>
      simp only [perform]
      split
      next hregistered =>
        have hcounted := h.loop.record connection (.ofNat request.calls.length)
        have hsame := (Connections.record_same h.loop.connections connection
          (.ofNat request.calls.length)).2.1
        refine ⟨h.running, hcounted.collect, fun {connection'} {request'} hmem => ?_⟩
        -- What was on its way is for clients, and so is what is sent now.
        have hissued : t.server.desk.loop.connections.Issued connection' := by
          rcases List.mem_append.mp hmem with hold | hnew
          · exact h.underway hold
          · rw [List.mem_singleton, Errand.request.injEq] at hnew
            rw [hnew.1]
            exact h.loop.connections.issued hregistered
        exact ⟨hissued.1, Nat.lt_of_lt_of_eq hissued.2 hsame.symm⟩
      next => exact h
  | disconnect connection =>
      refine ⟨h.running, h.loop, fun hmem => ?_⟩
      rcases List.mem_append.mp hmem with hold | hnew
      · exact h.underway hold
      · exact nomatch List.mem_singleton.mp hnew
  | arrive place =>
      simp only [perform]
      cases herrand : t.underway[place]? with
      | none => exact h
      | some errand =>
          rcases guarded_receive h (List.mem_of_getElem? herrand) with ⟨hloop, hnext⟩
          refine ⟨?_, hloop, fun hmem => ?_⟩
          · cases errand <;> exact h.running
          · have hissued := h.underway (List.mem_of_mem_eraseIdx hmem)
            exact ⟨hissued.1, Nat.lt_of_lt_of_eq hissued.2 hnext.symm⟩
  | tick =>
      have hticked : t.server.tick = (t.server.onLoop fun l => ((), l.tick)).2 :=
        if_pos h.running
      simp only [perform, hticked]
      refine ⟨h.running, h.loop.tick.collect, fun hmem => ?_⟩
      have hissued := h.underway hmem
      have hnext := congrArg Connections.nextId t.server.desk.loop.tick_connections
      exact ⟨hissued.1, Nat.lt_of_lt_of_eq hissued.2 hnext.symm⟩
  | alter world => exact ⟨h.running, h.loop.congr rfl (fun _ hq => hq) rfl rfl, h.underway⟩

theorem guarded_replay (h : t.Guarded) (moves : List Move) : (t.replay moves).Guarded := by
  induction moves generalizing t with
  | nil => exact h
  | cons move rest ih => exact ih (guarded_perform h move)

/-- Stopping drops everything in the loop and then disconnects all clients. -/
theorem stop_loop {s : Server} (hrunning : s.running = true) :
    s.stop.desk.loop =
      { s.desk.loop.shutdown with
        connections := s.desk.loop.connections.drain.2
        dispatcher :=
          (s.desk.loop.connections.drain.1.foldl (fun d client => (d.disconnect client.id).2)
            s.desk.loop.dispatcher).setHealth .stopped
        outbox := [] } := by
  unfold Server.stop
  rw [if_pos hrunning]
  rfl

end Traffic

/-- In every state that a server can come to, whatever is on the way to it, who owns a
    live object or waits for a call is registered. When it is stopped in such a state,
    nothing is pending, nothing is live, and the loop has forgotten every call and
    every request. -/
theorem nothing_outlives_stop (catalog : Catalog) (config : ServerConfig)
    (moves : List Traffic.Move) :
    (∀ id entry owner,
      ((Traffic.start catalog config).replay moves).server.dispatcher.objects.entries.get? id =
        some entry → entry.owners.contains owner = true →
      ∃ client, ((Traffic.start catalog config).replay moves).server.client? owner =
        some client) ∧
    (∀ id c,
      ((Traffic.start catalog config).replay moves).server.dispatcher.pending.waiting.get? id =
        some c →
      ∃ client, ((Traffic.start catalog config).replay moves).server.client?
        c.ctx.connection = some client) ∧
    ((Traffic.start catalog config).replay moves).server.stop.dispatcher.pending.size = 0 ∧
    ((Traffic.start catalog config).replay moves).server.stop.dispatcher.objects.size = 0 ∧
    ((Traffic.start catalog config).replay moves).server.stop.desk.loop.queue = [] ∧
    ((Traffic.start catalog config).replay moves).server.stop.desk.loop.batches.size = 0 ∧
    ((Traffic.start catalog config).replay moves).server.stop.desk.loop.parked.size = 0 := by
  have hguarded := Traffic.guarded_replay (Traffic.guarded_start catalog config) moves
  generalize (Traffic.start catalog config).replay moves = t at hguarded
  have hnothing := hguarded.loop.drained.nothing
  have hbatches : t.server.desk.loop.shutdown.batches = {} := by
    refine Table.ext_get? fun id => ?_
    simp only [RequestLoop.shutdown, RequestLoop.dropBatches, Table.get?_filter]
    cases t.server.desk.loop.batches.get? id <;> rfl
  refine ⟨fun id entry owner hentry howner => ?_, fun id c hc => ?_, ?_⟩
  · exact Table.contains_iff.mp (hguarded.loop.held.owners hentry howner)
  · exact Table.contains_iff.mp (hguarded.loop.held.callers hc)
  · rw [Server.dispatcher, Traffic.stop_loop hguarded.running]
    exact ⟨hnothing.2, hnothing.1, rfl, congrArg Table.size hbatches, rfl⟩

end Switchboard
