import Switchboard.Proofs.RequestLoop.Requests

/-!
# Every Request Is Answered Once

A request that is handed in is replied to at most once. If it is answered, the
response has one result for each of its calls, in the order of the calls, and
each is what the one final outcome of that call amounts to. If it is not, it was
cut off, or one of its calls waits where it will be found: in the queue, or
parked under a number that is pending in the dispatcher.

This holds for every sequence of tasks, since every task keeps the books. It
also holds for the checked tasks, which come to the same, so a result is never
entered out of place and no batch is counted down below nought.

## Main definitions

* `Run.Sound`: What holds of every run.
* `Run.RightFor`: A response is the right one for some calls.

## Theorems

* `sound_replay`: Every run is sound.
* `request_replay`: What becomes of a request in the ledger.
* `answers_every_request`: The whole of it.
-/

namespace Switchboard

/-- The books of a loop over which nothing has happened. -/
theorem Books.fresh (catalog : Catalog) (config : ServerConfig) (world : World)
    (connections : Connections) :
    Books { record := { session := .fresh catalog config world } }
      { dispatcher := { catalog, config, world }, connections } [] [] none where
  coherent :=
    { valid := Record.valid_fresh catalog config world
      unissued := fun _ => rfl
      filed := fun hb => absurd hb (by simp only [Table.get?_emptyCollection, reduceCtorEq,
        not_false_eq_true])
      injective := fun hb => absurd hb (by simp only [Table.get?_emptyCollection, reduceCtorEq,
        not_false_eq_true])
      proper := fun _ hx => absurd hx List.not_mem_nil
      places := List.nodup_nil
      ids := List.nodup_nil }
  dispatcher := rfl
  below hb := absurd hb (by simp only [Table.get?_emptyCollection, reduceCtorEq,
    not_false_eq_true])
  batches hb := absurd hb (by simp only [Table.get?_emptyCollection, reduceCtorEq,
    not_false_eq_true])
  waits_iff p := by
    simp only [List.not_mem_nil, false_and, exists_false, Table.get?_emptyCollection,
      reduceCtorEq, or_self]
  queued _ hq := absurd hq List.not_mem_nil
  unstartedOnce := List.nodup_nil
  parked hp := absurd hp (by simp only [Table.get?_emptyCollection, reduceCtorEq,
    not_false_eq_true])
  reported _ hreport := absurd hreport List.not_mem_nil
  worked hp := absurd hp (by simp only [reduceCtorEq, not_false_eq_true])
  repliedOnce := List.nodup_nil
  unreplied hb := absurd hb (by simp only [Table.get?_emptyCollection, reduceCtorEq,
    not_false_eq_true])
  answered ht := absurd ht List.not_mem_nil
  dropped ht := absurd ht List.not_mem_nil
  held hs := absurd hs (by simp only [Table.get?_emptyCollection, reduceCtorEq,
    not_false_eq_true])

namespace Run

/-- What holds of every run: the books are kept, and tickets are handed out in
    order. -/
structure Sound (r : Run) : Prop where
  books : Books r.ledger r.desk.loop r.desk.loop.queue [] none
  below : ∀ {t : Ticket} {s : Filing}, r.ledger.requests.get? t = some s → t < r.desk.nextTicket

theorem sound_fresh (catalog : Catalog) (config : ServerConfig) (world : World)
    (connections : Connections) : (fresh catalog config world connections).Sound where
  books := .fresh catalog config world connections
  below hs := absurd hs (by simp only [fresh, Table.get?_emptyCollection, reduceCtorEq,
    not_false_eq_true])

/-- The next ticket has not been handed out. -/
theorem Sound.unfiled {r : Run} (h : r.Sound) :
    r.ledger.requests.get? r.desk.nextTicket = none := by
  cases hs : r.ledger.requests.get? r.desk.nextTicket with
  | none => rfl
  | some s => exact absurd (h.below hs) (Nat.lt_irrefl _)

/-- Dispatching calls does not touch the requests. -/
theorem requests_startAll (g : Ledger) (todo : List Queued) :
    (todo.foldl Ledger.start g).requests = g.requests := by
  induction todo generalizing g with
  | nil => rfl
  | cons q rest ih => rw [List.foldl_cons, ih, Ledger.start]

/-- What a task does to the requests: handing one in enters it, and some are
    marked. -/
theorem requests_perform (r : Run) (task : Task) (t : Ticket) :
    (r.perform task).ledger.requests.get? t =
      match task with
      | .submit connection request =>
        if t = r.desk.nextTicket then some ⟨connection, request.calls, false⟩
        else r.ledger.requests.get? t
      | task => (r.ledger.requests.get? t).map fun s =>
          { s with severed := s.severed || task.severs s.connection } := by
  -- A task that cuts nothing off leaves every mark as it is.
  have hsame : ∀ task : Task, (∀ c, task.severs c = false) →
      (r.ledger.requests.get? t).map (fun s =>
        { s with severed := s.severed || task.severs s.connection }) =
      r.ledger.requests.get? t := by
    intro task hnone
    cases r.ledger.requests.get? t with
    | none => rfl
    | some s => simp only [hnone, Bool.or_false, Option.map_some]
  cases task with
  | submit connection request => exact Table.get?_insert ..
  | disconnect connection =>
      simp only [perform, Ledger.enter]
      split <;> exact Table.get?_mapRows ..
  | tick =>
      refine Eq.trans ?_ (hsame .tick (fun _ => rfl)).symm
      simp only [perform, Ledger.enter, requests_startAll]
      rfl
  | shutdown => exact Table.get?_mapRows ..
  | clients now => exact (hsame (.clients now) (fun _ => rfl)).symm
  | alter world => exact (hsame (.alter world) (fun _ => rfl)).symm

theorem books_perform {r : Run} (h : r.Sound) (task : Task) :
    Books (r.perform task).ledger (r.perform task).desk.loop (r.perform task).desk.loop.queue []
      none := by
  cases task with
  | submit connection request => exact h.books.submit h.unfiled connection request
  | disconnect connection => exact h.books.disconnect connection
  | tick => exact h.books.tick.2
  | shutdown => exact h.books.shutdown
  | clients now => exact { h.books with coherent := h.books.coherent }
  | alter world => exact h.books.alter world

theorem sound_perform {r : Run} (h : r.Sound) (task : Task) : (r.perform task).Sound := by
  refine ⟨books_perform h task, ?_⟩
  intro t s hs
  rw [requests_perform] at hs
  cases task with
  | submit connection request =>
      have hnext : (r.perform (.submit connection request)).desk.nextTicket =
          r.desk.nextTicket + 1 := rfl
      rw [hnext]
      by_cases heq : t = r.desk.nextTicket
      · rw [heq]
        exact Nat.lt_succ_self _
      · simp only [if_neg heq] at hs
        exact Nat.lt_succ_of_lt (h.below hs)
  | disconnect connection =>
      rcases Option.map_eq_some_iff.mp hs with ⟨_, hs', _⟩
      exact h.below hs'
  | tick =>
      rcases Option.map_eq_some_iff.mp hs with ⟨_, hs', _⟩
      exact h.below hs'
  | shutdown =>
      rcases Option.map_eq_some_iff.mp hs with ⟨_, hs', _⟩
      exact h.below hs'
  | clients now =>
      rcases Option.map_eq_some_iff.mp hs with ⟨_, hs', _⟩
      exact h.below hs'
  | alter world =>
      rcases Option.map_eq_some_iff.mp hs with ⟨_, hs', _⟩
      exact h.below hs'

theorem sound_replay {r : Run} (h : r.Sound) (tasks : List Task) : (r.replay tasks).Sound := by
  induction tasks generalizing r with
  | nil => exact h
  | cons task rest ih => exact ih (sound_perform h task)

/-- What becomes of a request: it stays as it was handed in, and is marked as
    soon as a task cuts it off. -/
theorem request_replay {r : Run} (h : r.Sound) (tasks : List Task) {t : Ticket} {s : Filing}
    (hs : r.ledger.requests.get? t = some s) :
    (r.replay tasks).ledger.requests.get? t =
      some { s with severed := s.severed || tasks.any (Task.severs s.connection) } := by
  induction tasks generalizing r s with
  | nil => rw [List.any_nil, Bool.or_false, replay, List.foldl_nil, hs]
  | cons task rest ih =>
      have hstep : (r.perform task).ledger.requests.get? t =
          some { s with severed := s.severed || task.severs s.connection } := by
        rw [requests_perform]
        cases task with
        | submit connection request =>
            -- Later requests have later tickets.
            have hne : t ≠ r.desk.nextTicket := Nat.ne_of_lt (h.below hs)
            simp only [if_neg hne, hs, Task.severs, Bool.or_false]
        | _ => simp only [hs, Option.map_some]
      rw [replay_cons, ih (sound_perform h task) hstep, List.any_cons, Bool.or_assoc]

/-- What is in the ledger of a request that is handed in and then left to the
    loop. -/
theorem request_submitted {r : Run} (h : r.Sound) (connection : ConnectionId) (request : Request)
    (after : List Task) :
    (r.replay (.submit connection request :: after)).ledger.requests.get? r.desk.nextTicket =
      some ⟨connection, request.calls, after.any (Task.severs connection)⟩ := by
  have hfiled : (r.perform (.submit connection request)).ledger.requests.get? r.desk.nextTicket =
      some ⟨connection, request.calls, false⟩ := by
    rw [requests_perform]
    exact if_pos rfl
  rw [replay_cons, request_replay (sound_perform h _) after hfiled, Bool.false_or]

/-- The checked tasks come to the same. -/
theorem checked_replay {r : Run} (h : r.Sound) (tasks : List Task) :
    tasks.foldlM Desk.perform? r.desk = some (r.replay tasks).desk := by
  induction tasks generalizing r with
  | nil => rfl
  | cons task rest ih =>
      have hstep : r.desk.perform? task = some (r.perform task).desk := by
        cases task with
        | tick => simp only [Desk.perform?, h.books.tick.1, Option.map_some]; rfl
        | _ => rfl
      rw [List.foldlM_cons, hstep, replay_cons]
      exact ih (sound_perform h task)

/-- A response is the right one for the calls of a request: it has one result
    for each of them, in their order, and each is what the one final outcome of
    the call that was dispatched for that place amounts to. -/
structure RightFor (run : Run) (ticket : Ticket) (connection : ConnectionId)
    (calls : List ProcedureCall) (response : Response) : Prop where
  length : response.results.length = calls.length
  results : ∀ (i : Nat) (result : ProcedureResult), response.results[i]? = some result →
    ∃ x ∈ run.ledger.starts, x.ticket = ticket ∧ x.entry.slot = i ∧
      x.entry.connection = connection ∧ calls[i]? = some x.entry.call ∧
      ∃ o, finals x.id run.ledger.record.events = [o] ∧ o.result? = some result

/-- A call of the request waits in the queue. -/
def QueuedFor (run : Run) (ticket : Ticket) : Prop :=
  ∃ q ∈ run.desk.loop.queue, ∃ batch, run.desk.loop.batches.get? q.batch = some batch ∧
    batch.ticket = ticket

/-- A call of the request is parked under a number that is pending in the
    dispatcher. -/
def ParkedFor (run : Run) (ticket : Ticket) : Prop :=
  ∃ id p, run.desk.loop.parked.get? id = some p ∧
    run.desk.loop.dispatcher.pending.contains id = true ∧
    ∃ batch, run.desk.loop.batches.get? p.1 = some batch ∧ batch.ticket = ticket

/-- A response that is sent is the right one. -/
theorem Sound.rightFor {r : Run} (h : r.Sound) {t : Ticket} {s : Filing} {response : Response}
    (hs : r.ledger.requests.get? t = some s)
    (ht : (t, Reply.answered response) ∈ r.desk.loop.outbox) :
    r.RightFor t s.connection s.calls response := by
  rcases h.books.answered ht with ⟨s', hs', hlength, hresults⟩
  have hsame : s' = s := Option.some.inj (hs'.symm.trans hs)
  subst hsame
  refine ⟨hlength, ?_⟩
  intro i result hi
  rcases hresults i result hi with ⟨b, hb, x, hx, hplace, o, ho, hresult⟩
  rcases (h.books.coherent.proper x hx).asked with ⟨s'', hfiled, hconnection, hcall⟩
  have hbatch : x.entry.batch = b := congrArg Prod.fst hplace
  have hslot : x.entry.slot = i := congrArg Prod.snd hplace
  -- The call was entered under the ticket of its batch, which is this one.
  have hticket : x.ticket = t := by
    have hfiled' := hfiled.ticket
    rw [hbatch, hb, Option.some.injEq] at hfiled'
    exact hfiled'.symm
  have hrequest := hfiled.request
  rw [hticket, hs, Option.some.injEq] at hrequest
  rw [← hrequest] at hconnection hcall
  exact ⟨x, hx, hticket, hslot, hconnection, hslot ▸ hcall, o, ho, hresult⟩

/-- A request that has not been answered or cut off waits somewhere. -/
theorem Sound.waits {r : Run} (h : r.Sound) {t : Ticket} {s : Filing}
    (hs : r.ledger.requests.get? t = some s) :
    (∃ response, (t, Reply.answered response) ∈ r.desk.loop.outbox) ∨ s.severed = true ∨
      r.QueuedFor t ∨ r.ParkedFor t := by
  rcases h.books.held hs with hreplied | ⟨b, batch, hb, hticket⟩
  · rcases List.mem_map.mp hreplied with ⟨⟨t', reply⟩, hmem, rfl⟩
    cases reply with
    | answered response => exact Or.inl ⟨response, hmem⟩
    | dropped =>
        rcases h.books.dropped hmem with ⟨s', hs', hsevered⟩
        rw [hs, Option.some.injEq] at hs'
        rw [hs']
        exact Or.inr (Or.inl hsevered)
  · -- A batch is not finished, so one of its places is free.
    have hholds := h.books.batches hb
    have hfree : 0 < batch.results.countP Option.isNone := hholds.remaining ▸ hholds.unfinished
    rcases List.countP_pos_iff.mp hfree with ⟨a, ha, hnone⟩
    rw [Option.isNone_iff_eq_none] at hnone
    subst hnone
    rcases List.getElem?_of_mem ha with ⟨slot, hslot⟩
    rcases (h.books.waits_iff (b, slot)).mpr ⟨batch, hb, hslot⟩ with
      ⟨q, hq, hplace⟩ | ⟨id, hid⟩ | hnone
    · refine Or.inr (Or.inr (Or.inl ⟨q, hq, batch, ?_, hticket⟩))
      rw [show q.batch = b from congrArg Prod.fst hplace]
      exact hb
    · refine Or.inr (Or.inr (Or.inr ⟨id, (b, slot), hid, ?_, batch, hb, hticket⟩))
      rcases h.books.parked hid with ⟨_, _, _, _, hwaits | ⟨_, hreport, _⟩⟩
      · rcases Option.ne_none_iff_exists'.mp hwaits with ⟨c, hc⟩
        rw [Session.waiting, h.books.dispatcher] at hc
        exact Table.contains_iff.mpr ⟨c, hc⟩
      · exact absurd hreport List.not_mem_nil
    · exact absurd hnone (by simp only [reduceCtorEq, not_false_eq_true])

/-- No call is dispatched twice. -/
theorem Sound.startedOnce {r : Run} (h : r.Sound) :
    (r.ledger.starts.map fun x => (x.ticket, x.entry.slot)).Nodup := by
  refine List.Nodup.map_on ?_ (List.Nodup.of_map _ h.books.coherent.places)
  intro x hx y hy hxy
  rcases (h.books.coherent.proper x hx).asked with ⟨_, hfiled, _⟩
  rcases (h.books.coherent.proper y hy).asked with ⟨_, hfiled', _⟩
  rcases Prod.mk.inj hxy with ⟨hticket, hslot⟩
  -- One ticket has one batch, so the two calls have one place.
  have hbatch := h.books.coherent.injective hfiled.ticket (hticket ▸ hfiled'.ticket)
  exact List.inj_on_of_nodup_map h.books.coherent.places hx hy (Prod.ext hbatch hslot)

/-- Whatever a desk is asked to do, in whatever order, with whatever handlers:
    each request is replied to at most once and no call is dispatched twice. A
    request that is answered is answered with the right results for its calls; a
    request that is not was cut off after it was handed in, or one of its calls
    waits in the queue, or under a number that is pending. No result is ever
    entered out of place. -/
theorem answers_every_request (catalog : Catalog) (config : ServerConfig) (world : World)
    (connections : Connections) (tasks : List Task) :
    let opened := fresh catalog config world connections
    let run := opened.replay tasks
    -- The ledger is about this dispatcher, which the loop alone has driven.
    run.ledger.record.session.dispatcher = run.desk.loop.dispatcher ∧
    (run.desk.loop.outbox.map Prod.fst).Nodup ∧
    (run.ledger.starts.map fun x => (x.ticket, x.entry.slot)).Nodup ∧
    (run.ledger.starts.map Start.id).Nodup ∧
    (∀ before connection request after,
      tasks = before ++ .submit connection request :: after →
      let ticket := (opened.replay before).desk.nextTicket
      (∀ response, (ticket, Reply.answered response) ∈ run.desk.loop.outbox →
        run.RightFor ticket connection request.calls response) ∧
      ((∃ response, (ticket, Reply.answered response) ∈ run.desk.loop.outbox) ∨
        (∃ task ∈ after, task.severs connection = true) ∨
        run.QueuedFor ticket ∨ run.ParkedFor ticket)) ∧
    tasks.foldlM Desk.perform? opened.desk = some run.desk := by
  intro opened run
  have hopened : opened.Sound := sound_fresh catalog config world connections
  have hrun : run.Sound := sound_replay hopened tasks
  refine ⟨hrun.books.dispatcher, hrun.books.repliedOnce, hrun.startedOnce,
    hrun.books.coherent.ids, ?_, checked_replay hopened tasks⟩
  intro before connection request after htasks ticket
  have hkept := request_submitted (sound_replay hopened before) connection request after
  rw [← replay_append, ← htasks] at hkept
  refine ⟨fun response ht => hrun.rightFor hkept ht, ?_⟩
  rcases hrun.waits hkept with hanswered | hsevered | hwaits
  · exact Or.inl hanswered
  · rw [List.any_eq_true] at hsevered
    exact Or.inr (Or.inl hsevered)
  · exact Or.inr (Or.inr hwaits)

end Run

end Switchboard
