import Switchboard.Proofs.RequestLoop.Books

/-!
# The Books over a Tick

A tick keeps the books. It is followed through its parts in the order in which
they are done: the dispatcher's tick, after which the parked calls that ended
are only known from its reports; the settling of the reports, each of which
takes a place in hand and finishes it; and the dispatching of calls from the
queue, each of which takes a place in hand and either finishes it or parks it.

That the checked tick succeeds is proved along the way, since it needs the books
in just those states where a result is entered.

## Main definitions

* `RequestLoop.Untouched`: What dispatching and settling leave alone.

## Theorems

* `Books.settleReports`: Settling what a tick reports.
* `Books.tickDispatcher`: The dispatcher's own tick.
* `Books.startAll`: Dispatching from the queue.
* `RequestLoop.tick_eq`: A tick dispatches what the limit allows of the old queue.
* `Books.tick`: The whole of a tick.
-/

namespace Switchboard

namespace Books

variable {g : Ledger} {l : RequestLoop} {unstarted : List Queued}
  {settling : List (CallContext × Outcome)} {hand : Option Place}

/-! ## Settling what a tick reports -/

/-- A report of a call that did not end, or that nobody waits for, is passed
    over. -/
theorem passOver {report : CallContext × Outcome}
    (h : Books g l unstarted (report :: settling) none)
    (hidle : report.2.isFinal = true → l.parked.get? report.1.call = none) :
    Books g l unstarted settling none := by
  refine { h with parked := ?_, reported := ?_ }
  · intro id p hp
    rcases h.parked hp with ⟨x, hx, hid, hplace, hwaits | ⟨r, hr, hcall, hfinal⟩⟩
    · exact ⟨x, hx, hid, hplace, Or.inl hwaits⟩
    · refine ⟨x, hx, hid, hplace, Or.inr ⟨r, ?_, hcall, hfinal⟩⟩
      rcases List.mem_cons.mp hr with rfl | hr
      -- A call that is parked is not one that nobody waits for.
      · rw [hcall, hp] at hidle
        exact absurd (hidle hfinal) (by simp only [reduceCtorEq, not_false_eq_true])
      · exact hr
  · intro r hr
    exact h.reported r (List.mem_cons_of_mem _ hr)

/-- A parked call that ended is taken in hand. -/
theorem takeUp {report : CallContext × Outcome} {p : Place}
    (h : Books g l unstarted (report :: settling) none)
    (hp : l.parked.get? report.1.call = some p) :
    Books g { l with parked := l.parked.erase report.1.call } unstarted settling (some p) := by
  refine { h with waits_iff := ?_, parked := ?_, reported := ?_, worked := ?_ }
  · intro p'
    rw [← h.waits_iff p']
    -- The place moves from the parked ones into the hand.
    have hparked : ((∃ id, (l.parked.erase report.1.call).get? id = some p') ∨ some p = some p') ↔
        ((∃ id, l.parked.get? id = some p') ∨ none = some p') := by
      simp only [Table.get?_erase_eq_some_iff, reduceCtorEq, or_false]
      constructor
      · rintro (⟨id, hid, _⟩ | hsome)
        · exact ⟨id, hid⟩
        · exact ⟨report.1.call, hp.trans hsome⟩
      · rintro ⟨id, hid⟩
        by_cases heq : id = report.1.call
        · rw [heq, hp] at hid
          exact Or.inr hid
        · exact Or.inl ⟨id, hid, heq⟩
    rw [hparked]
  · intro id p' hp'
    rcases Table.get?_erase_eq_some_iff.mp hp' with ⟨hold, hne⟩
    rcases h.parked hold with ⟨x, hx, hid, hplace, hwaits | ⟨r, hr, hcall, hfinal⟩⟩
    · exact ⟨x, hx, hid, hplace, Or.inl hwaits⟩
    · refine ⟨x, hx, hid, hplace, Or.inr ⟨r, ?_, hcall, hfinal⟩⟩
      rcases List.mem_cons.mp hr with rfl | hr
      · exact absurd hcall.symm hne
      · exact hr
  · intro r hr
    exact h.reported r (List.mem_cons_of_mem _ hr)
  · intro p' hp'
    rw [Option.some.injEq] at hp'
    rcases h.parked hp with ⟨x, hx, hid, hplace, _⟩
    refine ⟨x, hx, hplace.trans hp', ?_⟩
    rw [hid]
    simp only [Table.get?_erase, if_true]

/-- The call behind a report that is final has come to what was reported. -/
theorem concluded_of_report {report : CallContext × Outcome} {p : Place} {result : ProcedureResult}
    (h : Books g l unstarted (report :: settling) none) (hfinal : report.2.isFinal = true)
    (hp : l.parked.get? report.1.call = some p) (hresult : report.2.result? = some result) :
    g.Concluded p result := by
  rcases h.parked hp with ⟨x, hx, hid, hplace, _⟩
  refine ⟨x, hx, hplace, report.2, ?_, hresult⟩
  rw [hid]
  exact h.reported report List.mem_cons_self hfinal

/-- A final outcome amounts to a result. -/
theorem result?_of_isFinal {o : Outcome} (h : o.isFinal = true) :
    ∃ result, o.result? = some result := by
  cases o with
  | completed value => exact ⟨_, rfl⟩
  | continuing call => exact Bool.noConfusion h
  | failed error => exact ⟨_, rfl⟩

theorem settleParked {report : CallContext × Outcome}
    (h : Books g l unstarted (report :: settling) none) :
    l.settleParked? report.1 report.2 = some (l.settleParked report.1 report.2) ∧
      Books g (l.settleParked report.1 report.2) unstarted settling none := by
  unfold RequestLoop.settleParked? RequestLoop.settleParked
  by_cases hfinal : report.2.isFinal = true
  · rw [if_pos hfinal, if_pos hfinal]
    cases hp : l.parked.get? report.1.call with
    | none => exact ⟨rfl, h.passOver fun _ => hp⟩
    | some p =>
        rcases result?_of_isFinal hfinal with ⟨result, hresult⟩
        have htaken := h.takeUp hp
        exact ⟨htaken.settle?_eq report.2,
          htaken.settle (h.concluded_of_report hfinal hp hresult) hresult⟩
  · rw [if_neg hfinal, if_neg hfinal]
    exact ⟨rfl, h.passOver fun hf => absurd hf hfinal⟩

theorem settleReports (h : Books g l unstarted settling none) :
    settling.foldlM (fun l (ctx, outcome) => l.settleParked? ctx outcome) l =
        some (settling.foldl (fun l (ctx, outcome) => l.settleParked ctx outcome) l) ∧
      Books g (settling.foldl (fun l (ctx, outcome) => l.settleParked ctx outcome) l) unstarted []
        none := by
  induction settling generalizing l with
  | nil => exact ⟨rfl, h⟩
  | cons report rest ih =>
      rcases report with ⟨ctx, outcome⟩
      rcases h.settleParked with ⟨hchecked, hbooks⟩
      simp only [List.foldlM_cons, List.foldl_cons, hchecked]
      exact ih hbooks

/-! ## The dispatcher's tick -/

/-- An operation on the dispatcher alone, after which what is parked is still
    pending or its end is reported. -/
theorem operate (h : Books g l unstarted [] none) (op : Operation)
    (reports : List (CallContext × Outcome))
    (hissued : (g.record.session.perform op).issued = g.record.session.issued)
    (hparked : ∀ {id : CallId} {p : Place}, l.parked.get? id = some p →
      g.record.session.waiting id ≠ none →
      (g.record.session.perform op).waiting id ≠ none ∨
        ∃ report ∈ reports, report.1.call = id ∧ report.2.isFinal = true)
    (hreported : ∀ report ∈ reports, report.2.isFinal = true →
      finals report.1.call (g.record.operate op).events = [report.2]) :
    Books (g.operate op) { l with dispatcher := (g.record.session.perform op).dispatcher }
      unstarted reports none := by
  have hextends := Ledger.extends_operate h.coherent op
  refine { h with
    coherent := Ledger.coherent_operate h.coherent hissued
    dispatcher := rfl
    batches := fun hb => hextends.holds (h.batches hb)
    queued := fun q hq => hextends.queued rfl (h.queued q hq)
    parked := ?_
    reported := hreported
    worked := h.worked
    toReplies := h.toReplies.later hextends (fun hs => ⟨_, hs⟩) }
  -- The operation may end what is parked, but then its reports say so.
  intro id p hp
  rcases h.parked hp with ⟨x, hx, hid, hplace, hwaits | ⟨r, hr, _⟩⟩
  · exact ⟨x, hx, hid, hplace, hparked hp hwaits⟩
  · exact absurd hr List.not_mem_nil

theorem tickDispatcher (h : Books g l unstarted [] none) :
    Books (g.operate .tick) { l with dispatcher := l.dispatcher.tick.2 } unstarted
      l.dispatcher.tick.1 none := by
  have hbooks := h.operate .tick l.dispatcher.tick.1 rfl
    (by
      intro id p _ hw
      rw [← h.dispatcher]
      exact Record.waiting_or_reported h.coherent.valid hw)
    (by
      intro report hreport hfinal
      rw [← h.dispatcher] at hreport
      exact Record.finals_of_report h.coherent.valid hreport hfinal)
  rw [← h.dispatcher] at hbooks ⊢
  exact hbooks

/-! ## Dispatching from the queue -/

/-- What becomes of a call that was dispatched, by what dispatching gave. -/
theorem start_eq (h : Books g l unstarted settling hand) (q : Queued) :
    l.start q =
      match (g.record.callResult q.connection q.call.qualifiedName q.call.arguments).1 with
      | .continuing id =>
        { l with
          dispatcher :=
            (g.record.callResult q.connection q.call.qualifiedName q.call.arguments).2
          parked := l.parked.insert id q.place }
      | outcome =>
        { l with
          dispatcher :=
            (g.record.callResult q.connection q.call.qualifiedName q.call.arguments).2 }.settle
          q.place.1 q.place.2 outcome := by
  unfold RequestLoop.start Record.callResult
  rw [h.dispatcher]
  rfl

theorem start?_eq (h : Books g l unstarted settling hand) (q : Queued) :
    l.start? q =
      match (g.record.callResult q.connection q.call.qualifiedName q.call.arguments).1 with
      | .continuing id =>
        some { l with
          dispatcher :=
            (g.record.callResult q.connection q.call.qualifiedName q.call.arguments).2
          parked := l.parked.insert id q.place }
      | outcome =>
        { l with
          dispatcher :=
            (g.record.callResult q.connection q.call.qualifiedName q.call.arguments).2 }.settle?
          q.place.1 q.place.2 outcome := by
  unfold RequestLoop.start? Record.callResult
  rw [h.dispatcher]
  rfl

/-- A call that is dispatched is taken in hand. -/
theorem handOver {q : Queued} (h : Books g l (q :: unstarted) [] none) :
    Books (g.start q)
      { l with
        dispatcher :=
          (g.record.callResult q.connection q.call.qualifiedName q.call.arguments).2 }
      unstarted [] (some q.place) := by
  have hextends := Ledger.extends_start h.coherent q
  rcases h.queued q List.mem_cons_self with ⟨⟨t, hasked⟩, hnew⟩
  have honce := h.unstartedOnce
  rw [List.map_cons, List.nodup_cons] at honce
  refine { h with
    coherent := Ledger.coherent_start h.coherent hasked hnew
    dispatcher := Record.call_dispatcher ..
    batches := fun hb => hextends.holds (h.batches hb)
    waits_iff := ?_
    queued := ?_
    unstartedOnce := honce.2
    parked := ?_
    reported := fun report hreport => absurd hreport List.not_mem_nil
    worked := ?_
    toReplies := h.toReplies.later hextends (fun hs => ⟨_, hs⟩) }
  -- The place moves from the queue into the hand.
  · intro p
    rw [← h.waits_iff p]
    simp only [List.exists_mem_cons_iff, Option.some.injEq, reduceCtorEq, or_false]
    constructor
    · rintro (hq | hid | hp)
      · exact Or.inl (Or.inr hq)
      · exact Or.inr hid
      · exact Or.inl (Or.inl hp)
    · rintro ((hp | hq) | hid)
      · exact Or.inr (Or.inr hp)
      · exact Or.inl hq
      · exact Or.inr (Or.inl hid)
  · intro q' hq'
    rcases h.queued q' (List.mem_cons_of_mem _ hq') with ⟨⟨t', hasked'⟩, hnew'⟩
    refine ⟨⟨t', hextends.asked hasked'⟩, ?_⟩
    intro x hx
    rw [Ledger.start, List.mem_append, List.mem_singleton] at hx
    rcases hx with hx | rfl
    · exact hnew' x hx
    · intro hsame
      exact honce.1 (List.mem_map.mpr ⟨q', hq', hsame.symm⟩)
  · intro id p hp
    rcases h.parked hp with ⟨x, hx, hid, hplace, hwaits | ⟨r, hr, _⟩⟩
    · refine ⟨x, hextends.starts x hx, hid, hplace, Or.inl ?_⟩
      -- Calls that wait are older, so this one does not touch them.
      have hne : id ≠ g.nextCall := hid ▸ h.coherent.id_ne_nextCall hx
      have hsame := Record.call_waiting_other h.coherent.valid q.connection q.call.qualifiedName
        q.call.arguments hne
      rw [Ledger.start, hsame]
      exact hwaits
    · exact absurd hr List.not_mem_nil
  · intro p hp
    rw [Option.some.injEq] at hp
    refine ⟨⟨q, _, g.nextCall⟩, List.mem_append_right _ (List.mem_singleton.mpr rfl), hp, ?_⟩
    -- What is parked has a number that was given out before.
    cases hparked : l.parked.get? g.nextCall with
    | none => rfl
    | some p' =>
        rcases h.parked hparked with ⟨x, hx, hid, _⟩
        exact absurd hid (h.coherent.id_ne_nextCall hx)

/-- What is in hand is parked under its number. -/
theorem park {x : Start} (h : Books g l unstarted settling (some x.entry.place))
    (hx : x ∈ g.starts) (hw : g.record.session.waiting x.id ≠ none) :
    Books g { l with parked := l.parked.insert x.id x.entry.place } unstarted settling none := by
  -- What was in hand is not parked already.
  have hfree : l.parked.get? x.id = none := by
    rcases h.worked rfl with ⟨y, hy, hplace, hfree⟩
    rw [List.inj_on_of_nodup_map h.coherent.places hx hy hplace.symm]
    exact hfree
  have hget : ∀ id, (l.parked.insert x.id x.entry.place).get? id =
      if id = x.id then some x.entry.place else l.parked.get? id := fun id => Table.get?_insert ..
  refine { h with waits_iff := ?_, parked := ?_, worked := ?_ }
  · intro p
    rw [← h.waits_iff p]
    have hparked : ((∃ id, (l.parked.insert x.id x.entry.place).get? id = some p) ∨
          (none : Option Place) = some p) ↔
        ((∃ id, l.parked.get? id = some p) ∨ some x.entry.place = some p) := by
      simp only [reduceCtorEq, or_false]
      constructor
      · rintro ⟨id, hid⟩
        rw [hget] at hid
        by_cases heq : id = x.id
        · rw [if_pos heq] at hid
          exact Or.inr hid
        · rw [if_neg heq] at hid
          exact Or.inl ⟨id, hid⟩
      · rintro (⟨id, hid⟩ | hplace)
        · refine ⟨id, ?_⟩
          rw [hget, if_neg, hid]
          intro heq
          rw [heq, hfree] at hid
          exact absurd hid (by simp only [reduceCtorEq, not_false_eq_true])
        · exact ⟨x.id, by rw [hget, if_pos rfl, hplace]⟩
    rw [hparked]
  · intro id p hp
    rw [hget] at hp
    by_cases heq : id = x.id
    · rw [if_pos heq, Option.some.injEq] at hp
      exact ⟨x, hx, heq.symm, hp, Or.inl (heq ▸ hw)⟩
    · rw [if_neg heq] at hp
      exact h.parked hp
  · intro p hp
    exact absurd hp (by simp only [reduceCtorEq, not_false_eq_true])

theorem startCall {q : Queued} (h : Books g l (q :: unstarted) [] none) :
    l.start? q = some (l.start q) ∧ Books (g.start q) (l.start q) unstarted [] none := by
  have htaken := h.handOver
  have hmem : (⟨q, (g.tickets.get? q.batch).getD 0, g.nextCall⟩ : Start) ∈ (g.start q).starts :=
    List.mem_append_right _ (List.mem_singleton.mpr rfl)
  have hends := Record.call_ends h.coherent.valid q.connection q.call.qualifiedName
    q.call.arguments
  rw [h.start_eq, h.start?_eq]
  generalize g.record.callResult q.connection q.call.qualifiedName q.call.arguments = result
    at hends htaken
  rcases result with ⟨outcome, dispatcher⟩
  rcases hends with ⟨hfinal, honly⟩ | ⟨houtcome, c, hw, _⟩
  -- It ended at once, with what dispatching gave.
  · have hconcluded : ∀ {r}, outcome.result? = some r → (g.start q).Concluded q.place r :=
      fun hr => ⟨_, hmem, rfl, outcome, honly, hr⟩
    cases outcome with
    | continuing id => exact Bool.noConfusion hfinal
    | completed value => exact ⟨htaken.settle?_eq _, htaken.settle (hconcluded rfl) rfl⟩
    | failed error => exact ⟨htaken.settle?_eq _, htaken.settle (hconcluded rfl) rfl⟩
  -- It waits, under the number that it was given.
  · have hwaits : (g.start q).record.session.waiting g.nextCall ≠ none := by
      rw [show (g.start q).record.session.waiting g.nextCall = some c from hw]
      exact Option.some_ne_none c
    simp only at houtcome
    rw [houtcome]
    exact ⟨rfl, htaken.park hmem hwaits⟩

theorem startAll {todo heldBack : List Queued} (h : Books g l (todo ++ heldBack) [] none) :
    todo.foldlM RequestLoop.start? l = some (todo.foldl RequestLoop.start l) ∧
      Books (todo.foldl Ledger.start g) (todo.foldl RequestLoop.start l) heldBack [] none := by
  induction todo generalizing g l with
  | nil => exact ⟨rfl, h⟩
  | cons q rest ih =>
      rcases h.startCall with ⟨hchecked, hbooks⟩
      simp only [List.foldlM_cons, List.foldl_cons, hchecked]
      exact ih hbooks

end Books

/-! ## What the parts of a tick leave alone -/

/-- Dividing a queue loses nothing and adds nothing. -/
theorem takeRunnable_perm (limit : Nat) (counted : Table Nat) (queue : List Queued) :
    queue.Perm ((takeRunnable limit counted queue).1 ++ (takeRunnable limit counted queue).2) := by
  induction queue generalizing counted with
  | nil => exact List.Perm.refl _
  | cons q rest ih =>
      unfold takeRunnable
      by_cases hused : (counted.get? q.connection).getD 0 < limit
      · simp only [if_pos hused, List.cons_append]
        exact (ih _).cons q
      · simp only [if_neg hused]
        exact ((ih _).cons q).trans List.perm_middle.symm

theorem ServerConfig.takeRunnable_perm (config : ServerConfig) (queue : List Queued) :
    queue.Perm ((config.takeRunnable queue).1 ++ (config.takeRunnable queue).2) := by
  unfold ServerConfig.takeRunnable
  cases config.maxCallsPerTick with
  | none => rw [List.append_nil]
  | some limit => exact Switchboard.takeRunnable_perm ..

namespace RequestLoop

/-- What is not touched when calls are dispatched and their results entered. -/
structure Untouched (l l' : RequestLoop) : Prop where
  queue : l'.queue = l.queue
  connections : l'.connections = l.connections
  nextBatch : l'.nextBatch = l.nextBatch

theorem Untouched.refl (l : RequestLoop) : l.Untouched l := ⟨rfl, rfl, rfl⟩

theorem Untouched.trans {l l' l'' : RequestLoop} (h : l.Untouched l') (h' : l'.Untouched l'') :
    l.Untouched l'' :=
  ⟨h'.queue.trans h.queue, h'.connections.trans h.connections, h'.nextBatch.trans h.nextBatch⟩

theorem settle_untouched (l : RequestLoop) (id : BatchId) (slot : Nat) (o : Outcome) :
    l.Untouched (l.settle id slot o) ∧ (l.settle id slot o).dispatcher = l.dispatcher := by
  unfold settle
  split
  · simp only
    split <;> exact ⟨⟨rfl, rfl, rfl⟩, rfl⟩
  · exact ⟨.refl l, rfl⟩

theorem settleParked_untouched (l : RequestLoop) (ctx : CallContext) (o : Outcome) :
    l.Untouched (l.settleParked ctx o) ∧ (l.settleParked ctx o).dispatcher = l.dispatcher := by
  unfold settleParked
  split
  · split
    · rcases settle_untouched { l with parked := l.parked.erase ctx.call } _ _ o with ⟨h, hd⟩
      exact ⟨⟨h.queue, h.connections, h.nextBatch⟩, hd⟩
    · exact ⟨.refl l, rfl⟩
  · exact ⟨.refl l, rfl⟩

theorem settleReports_untouched (l : RequestLoop) (reports : List (CallContext × Outcome)) :
    let l' := reports.foldl (fun l (ctx, outcome) => l.settleParked ctx outcome) l
    l.Untouched l' ∧ l'.dispatcher = l.dispatcher := by
  induction reports generalizing l with
  | nil => exact ⟨.refl l, rfl⟩
  | cons report rest ih =>
      rcases settleParked_untouched l report.1 report.2 with ⟨hfirst, hdispatcher⟩
      rcases ih (l.settleParked report.1 report.2) with ⟨hrest, hdispatcher'⟩
      exact ⟨hfirst.trans hrest, hdispatcher'.trans hdispatcher⟩

theorem advancePending_untouched (l : RequestLoop) :
    l.Untouched l.advancePending ∧ l.advancePending.dispatcher = l.dispatcher.tick.2 := by
  rcases settleReports_untouched { l with dispatcher := l.dispatcher.tick.2 } l.dispatcher.tick.1
    with ⟨h, hdispatcher⟩
  exact ⟨⟨h.queue, h.connections, h.nextBatch⟩, hdispatcher⟩

theorem start_untouched (l : RequestLoop) (q : Queued) : l.Untouched (l.start q) := by
  unfold start
  simp only
  split
  · exact ⟨rfl, rfl, rfl⟩
  · rcases (settle_untouched { l with dispatcher := _ } q.batch q.slot _).1 with ⟨hq, hc, hn⟩
    exact ⟨hq, hc, hn⟩

theorem start_dispatcher (l : RequestLoop) (q : Queued) :
    (l.start q).dispatcher =
      ((l.dispatcher.context q.connection).2.dispatch
        (.ofWire (l.dispatcher.context q.connection).1 q.call)).2 := by
  unfold start
  simp only
  split
  · rfl
  · exact (settle_untouched ..).2

theorem startAll_untouched (l : RequestLoop) (todo : List Queued) :
    l.Untouched (todo.foldl start l) := by
  induction todo generalizing l with
  | nil => exact .refl l
  | cons q rest ih => exact (start_untouched l q).trans (ih (l.start q))

/-! A tick divides the queue by the limit that there was before. -/

theorem startAll_config (l : RequestLoop) (todo : List Queued) :
    (todo.foldl start l).dispatcher.config = l.dispatcher.config := by
  induction todo generalizing l with
  | nil => rfl
  | cons q rest ih =>
      rw [List.foldl_cons, ih, start_dispatcher, Dispatcher.dispatch_config]
      rfl

theorem advancePending_config (l : RequestLoop) :
    l.advancePending.dispatcher.config = l.dispatcher.config := by
  rw [l.advancePending_untouched.2, Dispatcher.tick_config]

theorem tick_eq (l : RequestLoop) :
    l.tick = (l.dispatcher.config.takeRunnable l.queue).1.foldl start
      { l.advancePending with queue := (l.dispatcher.config.takeRunnable l.queue).2 } := by
  unfold tick startRunnable
  simp only [l.advancePending_config, l.advancePending_untouched.1.queue]

theorem tick_queue (l : RequestLoop) :
    l.tick.queue = (l.dispatcher.config.takeRunnable l.queue).2 := by
  rw [tick_eq, (startAll_untouched _ _).queue]

theorem tick_connections (l : RequestLoop) : l.tick.connections = l.connections := by
  rw [tick_eq, (startAll_untouched _ _).connections]
  exact l.advancePending_untouched.1.connections

theorem tick_nextBatch (l : RequestLoop) : l.tick.nextBatch = l.nextBatch := by
  rw [tick_eq, (startAll_untouched _ _).nextBatch]
  exact l.advancePending_untouched.1.nextBatch

theorem tick_config (l : RequestLoop) : l.tick.dispatcher.config = l.dispatcher.config := by
  rw [tick_eq, startAll_config]
  exact l.advancePending_config

end RequestLoop

/-! ## A whole tick -/

namespace Books

/-- The books are not about the queue of the loop itself. -/
theorem of_queue {g : Ledger} {l : RequestLoop} {unstarted : List Queued}
    {settling : List (CallContext × Outcome)} {hand : Option Place}
    (h : Books g l unstarted settling hand) (queue : List Queued) :
    Books g { l with queue } unstarted settling hand :=
  { h with coherent := h.coherent }

/-- A tick keeps the books, and enters no result out of place. -/
theorem tick {g : Ledger} {d : Desk} (h : Books g d.loop d.loop.queue [] none) :
    d.loop.tick? = some d.loop.tick ∧
      Books (g.enter d .tick) d.loop.tick d.loop.tick.queue [] none := by
  rcases h.tickDispatcher.settleReports with ⟨hchecked, hsettled⟩
  -- From here on only the state after the reports matters.
  have hstate : d.loop.advancePending =
      d.loop.dispatcher.tick.1.foldl (fun l (ctx, outcome) => l.settleParked ctx outcome)
        { d.loop with dispatcher := d.loop.dispatcher.tick.2 } := rfl
  rw [← hstate] at hchecked hsettled
  -- What may run and what is held back are together the old queue.
  have hparts := d.loop.dispatcher.config.takeRunnable_perm d.loop.queue
  have hstarted := ((hsettled.of_perm hparts).of_queue
    (d.loop.dispatcher.config.takeRunnable d.loop.queue).2).startAll
  constructor
  · unfold RequestLoop.tick?
    simp only [hchecked, Option.bind_eq_bind, Option.bind_some, d.loop.advancePending_config,
      d.loop.advancePending_untouched.1.queue, d.loop.tick_eq]
    exact hstarted.1
  · rw [d.loop.tick_queue, d.loop.tick_eq]
    exact hstarted.2

end Books

end Switchboard
