import Switchboard.Proofs.Dispatcher.Session

/-!
# Final Outcomes

A call has at most one final outcome, however it is resumed, and has none as
long as it waits. This is what allows whoever waits for a call to forget it as
soon as a final outcome turns up.

The statement is about everything that happened in a session, so it cannot be
read off the state alone: a call that is gone looks like one that never was. A
`Record` therefore keeps the events beside the session, and `Record.Accounted`
says what the state knows of the events of one call. It is kept by every
operation, because `Session.Change` leaves only one way to a final outcome, by
a turn of a call that had none.

## Main definitions

* `finals`: The final outcomes of a call.
* `Record`, `Record.operate`: A session with everything that happened in it.
* `Record.call`: A call that is dispatched as soon as it has a number.
* `Record.Accounted`, `Record.Valid`: What the state knows of the events.

## Theorems

* `Record.valid_operate`, `Record.valid_replay`: A record stays valid.
* `Record.Valid.finals_operate`: A final outcome stays the only one.
* `Record.call_ends`: What becomes of a call at first.
-/

namespace Switchboard

/-- The final outcomes of a call among some events. -/
def finals (id : CallId) (events : List Event) : List Outcome :=
  ((eventsOf id events).map Event.outcome).filter Outcome.isFinal

theorem finals_append (id : CallId) (events later : List Event) :
    finals id (events ++ later) = finals id events ++ finals id later := by
  unfold finals
  rw [eventsOf_append, List.map_append, List.filter_append]

theorem finals_of_eventsOf_nil {id : CallId} {events : List Event} (h : eventsOf id events = []) :
    finals id events = [] := by
  rw [finals, h, List.map_nil, List.filter_nil]

theorem finals_of_final {id : CallId} {events : List Event} {e : Event}
    (h : eventsOf id events = [e]) (hfinal : e.outcome.isFinal = true) :
    finals id events = [e.outcome] := by
  simp only [finals, h, List.map_cons, List.map_nil, List.filter_cons, List.filter_nil, hfinal,
    if_true]

theorem finals_of_continuing {id : CallId} {events : List Event} {e : Event}
    (h : eventsOf id events = [e]) (hfinal : e.outcome.isFinal = false) :
    finals id events = [] := by
  simp only [finals, h, List.map_cons, List.map_nil, List.filter_cons, List.filter_nil, hfinal,
    Bool.false_eq_true, if_false]

/-- A turn adds its outcome if it is final; otherwise the call waits. -/
theorem Turn.Took.finals {p : Turn} {services : Services} {connected : Bool}
    {objects objects' : ObjectTable} {e : Event} {next : Option Continuation}
    (h : p.Took services connected objects e next objects') {id : CallId} {events : List Event}
    (he : eventsOf id events = [e]) :
    (next = none ∧ e.outcome.isFinal = true ∧ Switchboard.finals id events = [e.outcome]) ∨
      (next ≠ none ∧ e.outcome = .continuing p.ctx.call ∧ Switchboard.finals id events = []) := by
  rcases h.final_or_parked with ⟨hfinal, hn⟩ | ⟨progress, _, _, ho, hn⟩
  · exact Or.inl ⟨hn, hfinal, finals_of_final he hfinal⟩
  · refine Or.inr ⟨?_, ho, finals_of_continuing he (by rw [ho]; rfl)⟩
    rw [hn]
    exact Option.some_ne_none _

/-! ## Records -/

/-- A session with everything that happened in it. -/
structure Record where
  session : Session
  events : List Event := []

namespace Record

/-- An operation on the session, with what happens in it. -/
def operate (r : Record) (op : Operation) : Record where
  session := r.session.perform op
  events := r.events ++ r.session.events op

/-- What the state of a session knows of the events of one call. -/
structure Accounted (r : Record) (id : CallId) : Prop where
  unknown : r.session.dispatcher.nextCall ≤ id → eventsOf id r.events = []
  issued : ∀ {c : ConnectionId}, r.session.issued.get? id = some c → eventsOf id r.events = []
  waiting : ∀ {c : Continuation}, r.session.waiting id = some c → finals id r.events = []
  once : (finals id r.events).length ≤ 1

/-- A sound session whose state agrees with what happened in it. -/
structure Valid (r : Record) : Prop where
  sound : r.session.Sound
  accounted : ∀ id, r.Accounted id

theorem valid_fresh (catalog : Catalog) (config : ServerConfig) (world : World) :
    Valid { session := .fresh catalog config world } where
  sound := Session.sound_fresh catalog config world
  accounted := fun _ => ⟨fun _ => rfl, fun _ => rfl, fun _ => rfl, Nat.zero_le _⟩

/-- A call that has been dispatched is accounted for if it has one final
    outcome and is gone, or has none. -/
theorem Accounted.of_dispatched {r : Record} {id : CallId}
    (hbelow : id < r.session.dispatcher.nextCall) (hissued : r.session.issued.get? id = none)
    (hends : (r.session.waiting id = none ∧ (finals id r.events).length ≤ 1) ∨
      finals id r.events = []) : r.Accounted id where
  unknown hle := absurd hle (Nat.not_le.mpr hbelow)
  issued hc := by
    rw [hissued] at hc
    exact absurd hc (by simp only [reduceCtorEq, not_false_eq_true])
  waiting hc := by
    rcases hends with ⟨hgone, _⟩ | hnone
    · rw [hgone] at hc
      exact absurd hc (by simp only [reduceCtorEq, not_false_eq_true])
    · exact hnone
  once := by
    rcases hends with ⟨_, honce⟩ | hnone
    · exact honce
    · rw [hnone]
      exact Nat.zero_le _

-- A call with a final outcome waits no more.
theorem Accounted.over {r : Record} {id : CallId} (h : r.Accounted id) {o : Outcome}
    (ho : finals id r.events = [o]) : r.session.waiting id = none := by
  cases hw : r.session.waiting id with
  | none => rfl
  | some c => exact absurd (ho.symm.trans (h.waiting hw)) (List.cons_ne_nil _ _)

theorem accounted_operate {r : Record} (h : r.Valid) (op : Operation) (id : CallId) :
    (r.operate op).Accounted id := by
  have ha := h.accounted id
  have hkept := Session.kept_perform h.sound op
  have hevents : eventsOf id (r.operate op).events =
      eventsOf id r.events ++ eventsOf id (r.session.events op) := eventsOf_append ..
  have hfinals : finals id (r.operate op).events =
      finals id r.events ++ finals id (r.session.events op) := finals_append ..
  have hchange := Session.change h.sound op id
  generalize hhappened : eventsOf id (r.session.events op) = happened at hchange hevents
  -- Only a call that waited or was about to start has a turn, and it had no
  -- final outcome; the turn adds at most one.
  cases hchange with
  | untouched hissued hwaiting _ =>
      rw [List.append_nil] at hevents
      rw [finals_of_eventsOf_nil hhappened, List.append_nil] at hfinals
      constructor
      · intro hle
        rw [hevents]
        exact ha.unknown (Nat.le_trans hkept.nextCall hle)
      · intro c hc
        rw [hevents]
        exact ha.issued (hissued.symm.trans hc)
      · intro c hc
        rw [hfinals]
        exact ha.waiting (hwaiting.symm.trans hc)
      · rw [hfinals]
        exact ha.once
  | @issued connection hid _ _ =>
      have hnothing : eventsOf id (r.operate (.issue connection)).events = [] := by
        rw [hevents, List.append_nil]
        exact ha.unknown (Nat.le_of_eq hid.symm)
      have hnone := finals_of_eventsOf_nil hnothing
      exact ⟨fun _ => hnothing, fun _ => hnothing, fun _ => hnone,
        by rw [hnone]; exact Nat.zero_le _⟩
  | refused hissued _ hissued' hwaiting =>
      refine .of_dispatched (Nat.lt_of_lt_of_le (h.sound.issuedBelow hissued) hkept.nextCall)
        hissued' (Or.inl ⟨hwaiting, ?_⟩)
      rw [hfinals, finals_of_eventsOf_nil (ha.issued hissued), finals_of_final hhappened rfl]
      exact Nat.le_refl _
  | begun hissued _ htook hissued' hwaiting =>
      refine .of_dispatched (Nat.lt_of_lt_of_le (h.sound.issuedBelow hissued) hkept.nextCall)
        hissued' ?_
      rw [hfinals, finals_of_eventsOf_nil (ha.issued hissued), List.nil_append]
      rcases htook.finals hhappened with ⟨hn, _, hfinal⟩ | ⟨_, _, hnone⟩
      · rw [hfinal]
        exact Or.inl ⟨hwaiting.trans hn, Nat.le_refl _⟩
      · exact Or.inr hnone
  | advanced _ hwaiting htook hissued hwaiting' =>
      have hunissued : r.session.issued.get? id = none := h.sound.unissued_of_waiting hwaiting
      refine .of_dispatched (Nat.lt_of_lt_of_le (h.sound.waitingBelow hwaiting) hkept.nextCall)
        (hissued.trans hunissued) ?_
      rw [hfinals, ha.waiting hwaiting, List.nil_append]
      rcases htook.finals hhappened with ⟨hn, _, hfinal⟩ | ⟨_, _, hnone⟩
      · rw [hfinal]
        exact Or.inl ⟨hwaiting'.trans hn, Nat.le_refl _⟩
      · exact Or.inr hnone
  | dropped _ hwaiting hissued hwaiting' =>
      have hunissued : r.session.issued.get? id = none := h.sound.unissued_of_waiting hwaiting
      refine .of_dispatched (Nat.lt_of_lt_of_le (h.sound.waitingBelow hwaiting) hkept.nextCall)
        (hissued.trans hunissued) (Or.inr ?_)
      rw [hfinals, ha.waiting hwaiting, finals_of_eventsOf_nil hhappened, List.nil_append]

theorem valid_operate {r : Record} (h : r.Valid) (op : Operation) : (r.operate op).Valid :=
  ⟨Session.sound_perform h.sound op, accounted_operate h op⟩

theorem valid_replay {r : Record} (h : r.Valid) (operations : List Operation) :
    Valid ⟨r.session.replay operations, r.events ++ r.session.history operations⟩ := by
  induction operations generalizing r with
  | nil =>
      rw [Session.history, List.append_nil]
      exact h
  | cons op rest ih =>
      have hrest := ih (valid_operate h op)
      simp only [operate, List.append_assoc] at hrest
      exact hrest

/-- A final outcome stays the only one, whatever is done. -/
theorem Valid.finals_operate {r : Record} (h : r.Valid) (op : Operation) {id : CallId}
    {o : Outcome} (ho : finals id r.events = [o]) : finals id (r.operate op).events = [o] := by
  -- There is one already, and there is never more than one.
  have honce := (accounted_operate h op id).once
  have hfinals : finals id (r.operate op).events =
      finals id r.events ++ finals id (r.session.events op) := finals_append ..
  rw [hfinals, ho, List.length_append, List.length_singleton] at honce
  have hnone : finals id (r.session.events op) = [] := List.eq_nil_of_length_eq_zero (by omega)
  rw [hfinals, ho, hnone, List.append_nil]

/-! ## A tick -/

/-- What a tick of a valid record reports is final for good. -/
theorem finals_of_report {r : Record} (h : r.Valid) {report : CallContext × Outcome}
    (hreport : report ∈ r.session.dispatcher.tick.1) (hfinal : report.2.isFinal = true) :
    finals report.1.call (r.operate .tick).events = [report.2] := by
  rw [Dispatcher.tick_results, List.mem_map] at hreport
  rcases hreport with ⟨e, he, rfl⟩
  have hown : e ∈ eventsOf e.ctx.call (r.session.events .tick) := mem_eventsOf_iff.mpr ⟨he, rfl⟩
  have hchange := Session.change h.sound .tick e.ctx.call
  generalize hhappened : eventsOf e.ctx.call (r.session.events .tick) = happened at hchange hown
  cases hchange with
  | untouched _ _ _ => exact absurd hown List.not_mem_nil
  -- It waited, so there was no final outcome before this one.
  | advanced _ hwaiting _ _ _ =>
      rw [List.mem_singleton] at hown
      rw [← hown] at hhappened
      have happend : finals e.ctx.call (r.operate .tick).events =
          finals e.ctx.call r.events ++ finals e.ctx.call (r.session.events .tick) :=
        finals_append ..
      rw [happend, (h.accounted _).waiting hwaiting, finals_of_final hhappened hfinal,
        List.nil_append]
  | dropped hdrops _ _ _ => exact Bool.noConfusion hdrops

/-- A call that waits before a tick waits after it, or its end is reported. -/
theorem waiting_or_reported {r : Record} (h : r.Valid) {id : CallId}
    (hw : r.session.waiting id ≠ none) :
    (r.session.perform .tick).waiting id ≠ none ∨
      ∃ report ∈ r.session.dispatcher.tick.1, report.1.call = id ∧ report.2.isFinal = true := by
  have hchange := Session.change h.sound .tick id
  generalize hhappened : eventsOf id (r.session.events .tick) = happened at hchange
  cases hchange with
  | untouched _ hwaiting _ =>
      rw [hwaiting]
      exact Or.inl hw
  | @advanced _ c e next _ _ _ hwaiting htook _ hwaiting' =>
      rcases htook.finals hhappened with ⟨_, hfinal, _⟩ | ⟨hnext, _, _⟩
      · have hmem : e ∈ eventsOf id (r.session.events .tick) := by
          rw [hhappened]
          exact List.mem_cons_self
        rcases mem_eventsOf_iff.mp hmem with ⟨he, hcall⟩
        refine Or.inr ⟨(e.ctx, e.outcome), ?_, hcall, hfinal⟩
        rw [Dispatcher.tick_results]
        exact List.mem_map_of_mem he
      · rw [hwaiting']
        exact Or.inl hnext
  | dropped hdrops _ _ _ => exact Bool.noConfusion hdrops

/-! ## A call that is dispatched at once -/

/-- A call is given the next number and dispatched under it. -/
def call (r : Record) (connection : ConnectionId) (procedure : String)
    (arguments : List Argument) : Record :=
  (r.operate (.issue connection)).operate
    (.dispatch r.session.dispatcher.nextCall procedure arguments)

theorem valid_call {r : Record} (h : r.Valid) (connection : ConnectionId) (procedure : String)
    (arguments : List Argument) : (r.call connection procedure arguments).Valid :=
  valid_operate (valid_operate h _) _

/-- What dispatching gives for such a call. -/
def callResult (r : Record) (connection : ConnectionId) (procedure : String)
    (arguments : List Argument) : Outcome × Dispatcher :=
  let (ctx, d) := r.session.dispatcher.context connection
  d.dispatch ⟨ctx, procedure, arguments⟩

/-- The number of the call was given out before it was dispatched. -/
theorem issued_operate_issue (r : Record) (connection : ConnectionId) :
    (r.operate (.issue connection)).session.issued.get? r.session.dispatcher.nextCall =
      some connection := by
  simp only [operate, Session.perform, Dispatcher.context, Table.get?_insert, if_true]

theorem call_dispatcher (r : Record) (connection : ConnectionId) (procedure : String)
    (arguments : List Argument) :
    (r.call connection procedure arguments).session.dispatcher =
      (r.callResult connection procedure arguments).2 := by
  have h := (Session.dispatch_issued (r.issued_operate_issue connection) procedure arguments).1
  exact congrArg Session.dispatcher h

theorem call_unissued {r : Record} (hunissued : ∀ id, r.session.issued.get? id = none)
    (connection : ConnectionId) (procedure : String) (arguments : List Argument) (id : CallId) :
    (r.call connection procedure arguments).session.issued.get? id = none := by
  have h := (Session.dispatch_issued (r.issued_operate_issue connection) procedure arguments).1
  have hissued := congrArg (fun s => s.issued.get? id) h
  simp only [operate, Session.perform, Dispatcher.context, Table.get?_erase, Table.get?_insert]
    at hissued
  refine hissued.trans ?_
  by_cases hid : id = r.session.dispatcher.nextCall
  · rw [if_pos hid]
  · rw [if_neg hid, if_neg hid]
    exact hunissued id

-- Nothing had happened to the call before it was dispatched.
theorem eventsOf_call {r : Record} (h : r.Valid) (connection : ConnectionId) (procedure : String)
    (arguments : List Argument) :
    eventsOf r.session.dispatcher.nextCall (r.call connection procedure arguments).events =
      eventsOf r.session.dispatcher.nextCall ((r.operate (.issue connection)).session.events
        (.dispatch r.session.dispatcher.nextCall procedure arguments)) := by
  have hnothing := ((valid_operate h (.issue connection)).accounted _).issued
    (r.issued_operate_issue connection)
  refine (eventsOf_append ..).trans ?_
  rw [hnothing, List.nil_append]

/-- A call ends when it is dispatched, with what dispatching gives as its only
    final outcome, or it waits. -/
theorem call_ends {r : Record} (h : r.Valid) (connection : ConnectionId) (procedure : String)
    (arguments : List Argument) :
    ((r.callResult connection procedure arguments).1.isFinal = true ∧
      finals r.session.dispatcher.nextCall (r.call connection procedure arguments).events =
        [(r.callResult connection procedure arguments).1]) ∨
    ((r.callResult connection procedure arguments).1 =
        .continuing r.session.dispatcher.nextCall ∧
      ∃ c, (r.call connection procedure arguments).session.waiting r.session.dispatcher.nextCall =
        some c ∧ c.ctx = ⟨r.session.dispatcher.nextCall, connection⟩) := by
  -- The number has just been given out, so the call begins.
  have hsound := (valid_operate h (.issue connection)).sound
  have hissued := r.issued_operate_issue connection
  have hown := eventsOf_call h connection procedure arguments
  have hevents := (Session.dispatch_issued hissued procedure arguments).2
  rcases Session.begins hsound hissued procedure arguments with
    ⟨error, _, hrefused, _⟩ | ⟨p, e, next, objects', _, hbegun, hctx, htook, hw⟩
  · have hevent := List.singleton_inj.mp (hevents.symm.trans hrefused)
    have houtcome : (r.callResult connection procedure arguments).1 = .failed error :=
      congrArg Event.outcome hevent
    rw [hrefused, eventsOf_self (by rfl)] at hown
    rw [houtcome]
    refine Or.inl ⟨rfl, ?_⟩
    rw [finals, hown]
    rfl
  · have hevent := List.singleton_inj.mp (hevents.symm.trans hbegun)
    have houtcome : (r.callResult connection procedure arguments).1 = e.outcome :=
      congrArg Event.outcome hevent
    rw [hbegun, eventsOf_self (by rw [hctx])] at hown
    have hsame : p.ctx = ⟨r.session.dispatcher.nextCall, connection⟩ := htook.ctx.symm.trans hctx
    rw [houtcome]
    rcases htook.finals hown with ⟨_, hfinal, honly⟩ | ⟨hnext, hcontinuing, _⟩
    · exact Or.inl ⟨hfinal, honly⟩
    · rcases Option.ne_none_iff_exists'.mp hnext with ⟨c, hc⟩
      refine Or.inr ⟨by rw [hcontinuing, hsame], c, hw.trans hc, ?_⟩
      rw [(htook.next_eq hc).1, hsame]

/-- Other calls wait as before. -/
theorem call_waiting_other {r : Record} (h : r.Valid) (connection : ConnectionId)
    (procedure : String) (arguments : List Argument) {id : CallId}
    (hid : id ≠ r.session.dispatcher.nextCall) :
    (r.call connection procedure arguments).session.waiting id = r.session.waiting id := by
  have h₁ := valid_operate h (.issue connection)
  have hissued := r.issued_operate_issue connection
  have hperform := (Session.dispatch_issued hissued procedure arguments).1
  have hafter := congrArg (fun s => s.waiting id) hperform
  refine hafter.trans ?_
  cases hprepare : (r.operate (.issue connection)).session.dispatcher.prepare
      ⟨⟨r.session.dispatcher.nextCall, connection⟩, procedure, arguments⟩ with
  | error error =>
      rcases Dispatcher.dispatch_refused hprepare with ⟨_, hbecame⟩
      exact congrArg (fun p : PendingCalls => p.waiting.get? id) hbecame.pending
  | ok p =>
      rcases Dispatcher.dispatch_moved hprepare (h₁.sound.apart hissued) with ⟨_, _, _, hmoved⟩
      rw [Dispatcher.prepare_ctx hprepare] at hmoved
      exact hmoved.waiting_of_ne hid

/-- If the call waits, then for its connection. -/
theorem call_waiting_ctx {r : Record} (h : r.Valid) (connection : ConnectionId)
    (procedure : String) (arguments : List Argument) {c : Continuation}
    (hw : (r.call connection procedure arguments).session.waiting r.session.dispatcher.nextCall =
      some c) : c.ctx = ⟨r.session.dispatcher.nextCall, connection⟩ := by
  rcases call_ends h connection procedure arguments with ⟨_, honly⟩ | ⟨_, c', hw', hctx⟩
  · rw [((valid_call h connection procedure arguments).accounted _).over honly] at hw
    exact absurd hw (by simp only [reduceCtorEq, not_false_eq_true])
  · rw [hw', Option.some.injEq] at hw
    rw [← hw]
    exact hctx

end Record

end Switchboard
