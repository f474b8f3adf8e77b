import Switchboard.Proofs.Dispatcher.Turn

/-!
# Calls Taking Turns

What turns do to the pending calls, one call at a time. A turn of one call
leaves all others where they are, so the pending calls after it differ from
those before in that call alone (`Dispatcher.Moved`), and what is put back is
kept under its own number, may yield, and has a connection that is still there
(`PendingCalls.Orderly`).

A tick is many turns, one after the other. That it gives every waiting call one
turn, no matter what the turns before it did, is `advanceAll_of_mem`; that it
does nothing to a call that does not wait is `advanceAll_of_not_mem`.

## Main definitions

* `eventsOf`: What happened to one call.
* `PendingCalls.Orderly`: What holds of pending calls.
* `Dispatcher.Moved`, `Dispatcher.Unmoved`: What turns leave alone.

## Theorems

* `dispatch_moved`, `advance_moved`: One turn.
* `tick_results`: What a tick reports.
* `advanceAll_of_mem`, `advanceAll_of_not_mem`: What a tick does to one call.
-/

namespace Switchboard

/-! ## The events of a call -/

/-- Those of some events that are about one call. -/
def eventsOf (id : CallId) (events : List Event) : List Event :=
  events.filter fun e => e.ctx.call == id

@[simp] theorem eventsOf_nil (id : CallId) : eventsOf id [] = [] := rfl

theorem eventsOf_append (id : CallId) (events later : List Event) :
    eventsOf id (events ++ later) = eventsOf id events ++ eventsOf id later :=
  List.filter_append ..

theorem eventsOf_self {id : CallId} {e : Event} (h : e.ctx.call = id) : eventsOf id [e] = [e] := by
  simp only [eventsOf, List.filter_cons, List.filter_nil, h, beq_self_eq_true, if_true]

theorem eventsOf_other {id : CallId} {e : Event} (h : e.ctx.call ≠ id) : eventsOf id [e] = [] := by
  simp only [eventsOf, List.filter_cons, List.filter_nil, beq_iff_eq, h, if_false]

theorem mem_eventsOf_iff {id : CallId} {events : List Event} {e : Event} :
    e ∈ eventsOf id events ↔ e ∈ events ∧ e.ctx.call = id := by
  unfold eventsOf
  rw [List.mem_filter, beq_iff_eq]

/-! ## Pending calls -/

namespace PendingCalls

/-- Every pending call is kept under its own number, may yield, and belongs to
    a connection that has not disconnected. -/
structure Orderly (p : PendingCalls) : Prop where
  named : ∀ {id : CallId} {c : Continuation}, p.waiting.get? id = some c → c.ctx.call = id
  blocking : ∀ {id : CallId} {c : Continuation}, p.waiting.get? id = some c →
    c.descriptor.procedure.blocking = true
  connected : ∀ {id : CallId} {c : Continuation}, p.waiting.get? id = some c →
    p.closed.contains c.ctx.connection = false

/-- Fewer pending calls are orderly as well. -/
theorem Orderly.of_waiting_subset {p q : PendingCalls} (h : p.Orderly)
    (hclosed : ∀ {id : CallId} {c : Continuation}, q.waiting.get? id = some c →
      q.closed.contains c.ctx.connection = p.closed.contains c.ctx.connection)
    (hsub : ∀ {id : CallId} {c : Continuation}, q.waiting.get? id = some c →
      p.waiting.get? id = some c) : q.Orderly where
  named hw := h.named (hsub hw)
  blocking hw := h.blocking (hsub hw)
  connected hw := by
    rw [hclosed hw]
    exact h.connected (hsub hw)

theorem get?_keep {p : PendingCalls} {next : Option Continuation} {id : CallId}
    (hnext : ∀ c, next = some c → c.ctx.call = id) (hfree : p.waiting.get? id = none)
    (k : CallId) :
    (p.keep next).waiting.get? k = if k = id then next else p.waiting.get? k := by
  cases next with
  | none =>
      by_cases hk : k = id
      · rw [if_pos hk, hk]
        exact hfree
      · rw [if_neg hk]
        rfl
  | some c =>
      unfold keep
      rw [Table.get?_insert, hnext c rfl]

end PendingCalls

namespace Dispatcher

/-! ## One call at a time -/

/-- A dispatcher whose pending calls differ from those of another at most in
    one call. -/
structure Moved (d : Dispatcher) (id : CallId) (next : Option Continuation) (d' : Dispatcher) :
    Prop where
  catalog : d'.catalog = d.catalog
  config : d'.config = d.config
  nextCall : d'.nextCall = d.nextCall
  closed : d'.pending.closed = d.pending.closed
  waiting : ∀ k, d'.pending.waiting.get? k =
    if k = id then next else d.pending.waiting.get? k

theorem Moved.waiting_self {d d' : Dispatcher} {id : CallId} {next : Option Continuation}
    (h : d.Moved id next d') : d'.pending.waiting.get? id = next := by
  rw [h.waiting, if_pos rfl]

theorem Moved.waiting_of_ne {d d' : Dispatcher} {id k : CallId} {next : Option Continuation}
    (h : d.Moved id next d') (hk : k ≠ id) :
    d'.pending.waiting.get? k = d.pending.waiting.get? k := by
  rw [h.waiting, if_neg hk]

/-- A turn of a call leaves the pending calls orderly. -/
theorem Moved.orderly {d d' : Dispatcher} {p : Turn} {objects objects' : ObjectTable} {e : Event}
    {next : Option Continuation} (h : d.Moved p.ctx.call next d') (horderly : d.pending.Orderly)
    (htook : p.Took d.catalog.services (d.connected p.ctx) objects e next objects') :
    d'.pending.Orderly := by
  -- A call that is pending now was put back by the turn, or was there before.
  have hcases : ∀ {k : CallId} {c : Continuation}, d'.pending.waiting.get? k = some c →
      (k = p.ctx.call ∧ next = some c) ∨ d.pending.waiting.get? k = some c := by
    intro k c hk
    rw [h.waiting] at hk
    split at hk
    next heq => exact Or.inl ⟨heq, hk⟩
    next => exact Or.inr hk
  constructor
  · intro k c hk
    rcases hcases hk with ⟨rfl, hnext⟩ | hold
    · rw [(htook.next_eq hnext).1]
    · exact horderly.named hold
  · intro k c hk
    rcases hcases hk with ⟨_, hnext⟩ | hold
    · rcases htook.next_eq hnext with ⟨_, hdescriptor, _, _, hblocking, _⟩
      rw [hdescriptor]
      exact hblocking
    · exact horderly.blocking hold
  · intro k c hk
    rw [h.closed]
    rcases hcases hk with ⟨_, hnext⟩ | hold
    · rcases htook.next_eq hnext with ⟨hctx, _, _, _, _, hconnected⟩
      rw [hctx]
      rw [connected, Bool.not_eq_true'] at hconnected
      exact hconnected
    · exact horderly.connected hold

/-- The call that is put back after a turn has the number of the call. -/
theorem next_named {p : Turn} {services : Services} {connected : Bool}
    {objects objects' : ObjectTable} {e : Event} {next : Option Continuation}
    (htook : p.Took services connected objects e next objects') :
    ∀ c, next = some c → c.ctx.call = p.ctx.call := by
  intro c hc
  rw [(htook.next_eq hc).1]

theorem dispatch_moved {d : Dispatcher} {call : Call} {p : Turn}
    (hprepare : d.prepare call = .ok p)
    (hfree : d.pending.waiting.get? call.ctx.call = none) :
    ∃ next objects',
      p.Took d.catalog.services (d.connected p.ctx) d.objects (d.dispatchEvent call) next
        objects' ∧
      d.Moved p.ctx.call next (d.dispatch call).2 := by
  rcases dispatch_prepared hprepare with ⟨next, objects', htook, hbecame⟩
  refine ⟨next, objects', htook, hbecame.catalog, hbecame.config, hbecame.nextCall, ?_, ?_⟩
  · rw [hbecame.pending, PendingCalls.keep_closed]
  · intro k
    rw [hbecame.pending]
    rw [← prepare_ctx hprepare] at hfree
    exact PendingCalls.get?_keep (next_named htook) hfree k

/-- The connection of a pending call has not disconnected. -/
theorem connected_of_waiting {d : Dispatcher} {id : CallId} {c : Continuation}
    (horderly : d.pending.Orderly) (hwaiting : d.pending.waiting.get? id = some c) :
    d.connected c.ctx = true := by
  rw [connected, horderly.connected hwaiting]
  rfl

/-- A call that is taken out for its turn, and is all that is put back, is the only one
    that moves. -/
theorem Became.moved {d d' : Dispatcher} {id : CallId} {objects' : ObjectTable}
    {next : Option Continuation} (h : d.Became objects' ((d.without id).pending.keep next) d')
    (hnext : ∀ c, next = some c → c.ctx.call = id) : d.Moved id next d' := by
  refine ⟨h.catalog, h.config, h.nextCall, ?_, ?_⟩
  · rw [h.pending, PendingCalls.keep_closed]
    rfl
  · intro k
    rw [h.pending,
      PendingCalls.get?_keep hnext (by simp only [without, Table.get?_erase, if_true])]
    by_cases hk : k = id
    · rw [if_pos hk, if_pos hk]
    · rw [if_neg hk, if_neg hk]
      simp only [without, Table.get?_erase, if_neg hk]

theorem advance_moved {d : Dispatcher} {id : CallId} {c : Continuation}
    (horderly : d.pending.Orderly) (hwaiting : d.pending.waiting.get? id = some c) :
    ∃ e next objects',
      d.advanceEvent? id = some e ∧ (d.advance id).1 = some (e.ctx, e.outcome) ∧
      c.turn.Took d.catalog.services true d.objects e next objects' ∧
      d.Moved id next (d.advance id).2 ∧ (d.advance id).2.pending.Orderly := by
  rcases advance_waiting hwaiting with ⟨e, next, objects', hevent, hresult, htook, hbecame⟩
  have hnamed : c.turn.ctx.call = id := horderly.named hwaiting
  have hmoved : d.Moved c.turn.ctx.call next (d.advance id).2 := by
    rw [← hnamed] at hbecame ⊢
    exact hbecame.moved (next_named htook)
  have horderly' := hmoved.orderly horderly htook
  rw [connected_of_waiting horderly hwaiting] at htook
  rw [hnamed] at hmoved
  exact ⟨e, next, objects', hevent, hresult, htook, hmoved, horderly'⟩

/-! ## What stays -/

/-- What turns leave alone, and that pending calls are orderly after them. -/
structure Unmoved (d d' : Dispatcher) : Prop where
  catalog : d'.catalog = d.catalog
  config : d'.config = d.config
  nextCall : d'.nextCall = d.nextCall
  closed : d'.pending.closed = d.pending.closed
  orderly : d'.pending.Orderly

theorem dispatch_unmoved {d : Dispatcher} (horderly : d.pending.Orderly) {call : Call}
    (hfree : d.pending.waiting.get? call.ctx.call = none) : d.Unmoved (d.dispatch call).2 := by
  -- A call that is refused leaves no trace in the pending calls.
  cases hprepare : d.prepare call with
  | error e =>
      rcases dispatch_refused hprepare with ⟨_, hbecame⟩
      refine ⟨hbecame.catalog, hbecame.config, hbecame.nextCall, ?_, ?_⟩
      · rw [hbecame.pending]
      · rw [hbecame.pending]
        exact horderly
  | ok p =>
      rcases dispatch_moved hprepare hfree with ⟨_, _, htook, hmoved⟩
      exact ⟨hmoved.catalog, hmoved.config, hmoved.nextCall, hmoved.closed,
        hmoved.orderly horderly htook⟩

theorem advance_unmoved {d : Dispatcher} (horderly : d.pending.Orderly) (id : CallId) :
    d.Unmoved (d.advance id).2 := by
  cases hw : d.pending.waiting.get? id with
  | none =>
      rw [(advance_absent hw).2]
      exact ⟨rfl, rfl, rfl, rfl, horderly⟩
  | some c =>
      rcases advance_moved horderly hw with ⟨_, _, _, _, _, _, hmoved, horderly'⟩
      exact ⟨hmoved.catalog, hmoved.config, hmoved.nextCall, hmoved.closed, horderly'⟩

theorem advanceAll_unmoved {d : Dispatcher} (horderly : d.pending.Orderly) (ids : List CallId) :
    d.Unmoved (d.advanceAll ids).2 := by
  induction ids generalizing d with
  | nil => exact ⟨rfl, rfl, rfl, rfl, horderly⟩
  | cons id rest ih =>
      have hfirst := advance_unmoved horderly id
      have hrest := ih hfirst.orderly
      exact ⟨hrest.catalog.trans hfirst.catalog, hrest.config.trans hfirst.config,
        hrest.nextCall.trans hfirst.nextCall, hrest.closed.trans hfirst.closed, hrest.orderly⟩

/-! ## A tick -/

/-- What happens when calls are advanced one after the other. -/
def advanceEvents (d : Dispatcher) : List CallId → List Event
  | [] => []
  | id :: rest => (d.advanceEvent? id).toList ++ (d.advance id).2.advanceEvents rest

/-- What a tick reports is what happened. -/
theorem advanceAll_results (d : Dispatcher) (ids : List CallId) :
    (d.advanceAll ids).1 = (d.advanceEvents ids).map fun e => (e.ctx, e.outcome) := by
  induction ids generalizing d with
  | nil => rfl
  | cons id rest ih =>
      unfold advanceAll advanceEvents
      simp only [ih, List.map_append]
      congr 1
      -- What is passed over reports nothing and adds no event.
      cases hw : d.pending.waiting.get? id with
      | none => simp only [advance_absent hw, Option.toList_none, List.map_nil]
      | some c =>
          rcases advance_waiting hw with ⟨e, next, objects', hevent, hresult, _, _⟩
          simp only [hevent, hresult, Option.toList_some, List.map_cons, List.map_nil]

/-- The events that advancing one call adds are its own. -/
theorem advanceEvent?_other {d : Dispatcher} (horderly : d.pending.Orderly) {id k : CallId}
    (hk : k ≠ id) :
    eventsOf k (d.advanceEvent? id).toList = [] := by
  cases hw : d.pending.waiting.get? id with
  | none => rw [(advance_absent hw).1, Option.toList_none, eventsOf_nil]
  | some c =>
      rcases advance_moved horderly hw with ⟨e, _, _, hevent, _, htook, _⟩
      rw [hevent, Option.toList_some]
      apply eventsOf_other
      rw [htook.ctx, ne_comm]
      intro heq
      exact hk (heq.trans (horderly.named hw))

theorem advance_other {d : Dispatcher} (horderly : d.pending.Orderly) {id k : CallId}
    (hk : k ≠ id) :
    (d.advance id).2.pending.waiting.get? k = d.pending.waiting.get? k := by
  cases hw : d.pending.waiting.get? id with
  | none => rw [(advance_absent hw).2]
  | some c =>
      rcases advance_moved horderly hw with ⟨_, _, _, _, _, _, hmoved, _⟩
      exact hmoved.waiting_of_ne hk

/-- What a tick reports is what happened in it. -/
theorem tick_results (d : Dispatcher) :
    d.tick.1 = (d.countTick.advanceEvents d.pending.ids).map fun e => (e.ctx, e.outcome) :=
  d.countTick.advanceAll_results d.pending.ids

/-- Advancing others leaves a call as it is. -/
theorem advanceAll_of_not_mem {d : Dispatcher} (horderly : d.pending.Orderly) {ids : List CallId}
    {k : CallId} (hk : k ∉ ids) :
    eventsOf k (d.advanceEvents ids) = [] ∧
      (d.advanceAll ids).2.pending.waiting.get? k = d.pending.waiting.get? k := by
  induction ids generalizing d with
  | nil => exact ⟨rfl, rfl⟩
  | cons id rest ih =>
      have hne : k ≠ id := fun heq => hk (heq ▸ List.mem_cons_self)
      have hrest : k ∉ rest := fun hmem => hk (List.mem_cons_of_mem _ hmem)
      rcases ih (advance_unmoved horderly id).orderly hrest with ⟨hevents, hwaiting⟩
      constructor
      · unfold advanceEvents
        rw [eventsOf_append, advanceEvent?_other horderly hne, hevents, List.nil_append]
      · unfold advanceAll
        simp only [hwaiting]
        exact advance_other horderly hne

/-- Each call that is advanced takes one turn, whatever the calls before it
    have done in theirs. -/
theorem advanceAll_of_mem {d : Dispatcher} (horderly : d.pending.Orderly) {ids : List CallId}
    (hnodup : ids.Nodup) {k : CallId} (hk : k ∈ ids) {c : Continuation}
    (hw : d.pending.waiting.get? k = some c) :
    ∃ e next objects objects',
      eventsOf k (d.advanceEvents ids) = [e] ∧
      c.turn.Took d.catalog.services true objects e next objects' ∧
      (d.advanceAll ids).2.pending.waiting.get? k = next := by
  induction ids generalizing d with
  | nil => exact absurd hk (by simp only [List.not_mem_nil, not_false_eq_true])
  | cons id rest ih =>
      rw [List.nodup_cons] at hnodup
      have hfirst := advance_unmoved horderly id
      unfold advanceEvents advanceAll
      by_cases heq : k = id
      · -- Its turn has come; the rest of the tick is about others.
        subst heq
        rcases advance_moved horderly hw with
          ⟨e, next, objects', hevent, _, htook, hmoved, _⟩
        rcases advanceAll_of_not_mem hfirst.orderly hnodup.1 with ⟨hevents, hwaiting⟩
        refine ⟨e, next, d.objects, objects', ?_, htook, ?_⟩
        · have hown : e.ctx.call = k := by
            rw [htook.ctx]
            exact horderly.named hw
          rw [eventsOf_append, hevents, hevent, Option.toList_some, List.append_nil,
            eventsOf_self hown]
        · simp only [hwaiting]
          exact hmoved.waiting_self
      · have hmem : k ∈ rest := by
          rcases List.mem_cons.mp hk with h | h
          · exact absurd h heq
          · exact h
        have hw' : (d.advance id).2.pending.waiting.get? k = some c := by
          rw [advance_other horderly heq, hw]
        rcases ih hfirst.orderly hnodup.2 hmem hw' with
          ⟨e, next, objects, objects', hevents, htook, hnext⟩
        rw [hfirst.catalog] at htook
        refine ⟨e, next, objects, objects', ?_, htook, hnext⟩
        rw [eventsOf_append, advanceEvent?_other horderly heq, hevents, List.nil_append]

end Dispatcher

end Switchboard
