import Switchboard.Dispatcher

/-!
# Turns

What one turn of a call can come to, said once for every place where a call
takes a turn. A call takes its first turn when it is dispatched and each
further one when it is advanced; the two differ in what the handler is given
and in nothing else, so both are described by `Turn.Took`.

`Turn.Concludes` has one constructor for each end of a turn, and each says
everything about it: what the handler came to, the outcome, the call that is
put back to wait if it is, and what became of the live objects. Only a value
that is written can touch the objects, and only progress of a blocking
procedure whose connection is still there puts the call back.

The run of the handler is kept with what it was given (`HandlerRun`). What it
came to is not recorded beside it but computed from it, so a record cannot
claim a result that the handler would not have given.

Everything a turn leaves alone is `Dispatcher.Became`: apart from the shared
world and the counters, a dispatcher after a turn differs from the one before
it in its objects and its pending calls, and those two are given.

## Main definitions

* `HandlerRun`, `Event`: The record of a turn.
* `Turn.Concludes`: What a turn can come to.
* `Turn.Took`: An event that is a turn of a call.
* `Dispatcher.Became`: What a dispatcher can become by a turn.
* `Dispatcher.dispatchEvent`, `Dispatcher.advanceEvent?`: What happens when a
  call is dispatched or advanced.

## Theorems

* `step_concludes`, `step_leaves`: A step comes to one of the ends, and leaves the
  rest alone.
* `dispatch_refused`, `dispatch_prepared`: A first turn.
* `advance_absent`, `advance_waiting`: A further turn.
-/

namespace Switchboard

/-- One run of a handler, with everything it was given. -/
structure HandlerRun where
  handler : Handler
  invocation : Invocation
  world : World

/-- What a handler came to in a run. -/
def HandlerRun.result (run : HandlerRun) : Except Interrupt Step :=
  (run.handler.react run.invocation run.world).1

/-- The world after a run. -/
def HandlerRun.after (run : HandlerRun) : World :=
  (run.handler.react run.invocation run.world).2

/-- Something that happened to a call. -/
structure Event where
  ctx : CallContext
  /-- The run of the handler, unless the call was refused before it. -/
  run : Option HandlerRun
  outcome : Outcome

/-- The turn a waiting call takes next. -/
def Continuation.turn (c : Continuation) : Turn :=
  ⟨c.descriptor, c.ctx, c.arguments, some c.progress, c.steps⟩

namespace Turn

/-- The call that is put back to wait after a turn that left progress. -/
def parked (p : Turn) (progress : NativeValue) : Continuation :=
  ⟨p.descriptor, p.ctx, p.arguments, progress, p.steps + 1⟩

/-- What a turn comes to: from what the handler came to and the live objects
    to the outcome, the call that is put back, and the live objects after it.
    Whether the connection of the call is still there is a parameter. -/
inductive Concludes (services : Services) (connected : Bool) (p : Turn) (objects : ObjectTable) :
    Except Interrupt Step → Outcome → Option Continuation → ObjectTable → Prop
  | interrupted (interrupt : Interrupt) :
    Concludes services connected p objects (.error interrupt) (.failed interrupt.toError) none
      objects
  | completed {value : Option NativeValue} {written : Option Value} {objects' : ObjectTable} :
    (Dispatcher.writeReturn services p value).run.run objects = (.ok written, objects') →
    Concludes services connected p objects (.ok (.complete value)) (.completed written) none
      objects'
  | unwritable {value : Option NativeValue} {e : CallError} {objects' : ObjectTable} :
    (Dispatcher.writeReturn services p value).run.run objects = (.error e, objects') →
    Concludes services connected p objects (.ok (.complete value)) (.failed e) none objects'
  | parked (progress : NativeValue) :
    p.descriptor.procedure.blocking = true → connected = true →
    Concludes services connected p objects (.ok (.yield progress)) (.continuing p.ctx.call)
      (some (p.parked progress)) objects
  | disconnected (progress : NativeValue) :
    p.descriptor.procedure.blocking = true → connected = false →
    Concludes services connected p objects (.ok (.yield progress))
      (.failed (Dispatcher.connectionGone p.ctx.connection)) none objects
  | notBlocking (progress : NativeValue) :
    p.descriptor.procedure.blocking = false →
    Concludes services connected p objects (.ok (.yield progress))
      (.failed (Dispatcher.cannotYield p.descriptor.qualifiedName)) none objects

/-- A run of a handler that was given what a turn has. -/
structure Serves (p : Turn) (run : HandlerRun) : Prop where
  handler : run.handler = p.descriptor.handler
  ctx : run.invocation.ctx = p.ctx
  procedure : run.invocation.procedure = p.descriptor.qualifiedName
  arguments : run.invocation.arguments = p.arguments
  progress : run.invocation.progress = p.progress

/-- An event that is a turn of a call, with the call that is put back and the
    live objects before and after it. -/
structure Took (services : Services) (connected : Bool) (p : Turn) (objects : ObjectTable)
    (e : Event) (next : Option Continuation) (objects' : ObjectTable) : Prop where
  ctx : e.ctx = p.ctx
  run : ∃ run, e.run = some run ∧ p.Serves run ∧
    p.Concludes services connected objects run.result e.outcome next objects'

variable {services : Services} {connected : Bool} {p : Turn} {objects objects' : ObjectTable}
  {result : Except Interrupt Step} {outcome : Outcome} {next : Option Continuation} {e : Event}

/-- A turn is final, or the call is put back for another one. -/
theorem Concludes.final_or_parked
    (h : p.Concludes services connected objects result outcome next objects') :
    (outcome.isFinal = true ∧ next = none) ∨
      (∃ progress, result = .ok (.yield progress) ∧ p.descriptor.procedure.blocking = true ∧
        connected = true ∧ outcome = .continuing p.ctx.call ∧
        next = some (p.parked progress)) := by
  cases h with
  | interrupted i => exact Or.inl ⟨rfl, rfl⟩
  | completed _ => exact Or.inl ⟨rfl, rfl⟩
  | unwritable _ => exact Or.inl ⟨rfl, rfl⟩
  | parked progress hb hc => exact Or.inr ⟨progress, rfl, hb, hc, rfl, rfl⟩
  | disconnected progress _ _ => exact Or.inl ⟨rfl, rfl⟩
  | notBlocking progress _ => exact Or.inl ⟨rfl, rfl⟩

theorem Took.final_or_parked (h : p.Took services connected objects e next objects') :
    (e.outcome.isFinal = true ∧ next = none) ∨
      (∃ progress, p.descriptor.procedure.blocking = true ∧ connected = true ∧
        e.outcome = .continuing p.ctx.call ∧ next = some (p.parked progress)) := by
  rcases h.run with ⟨run, _, _, hconcludes⟩
  rcases hconcludes.final_or_parked with hfinal | ⟨progress, _, hb, hc, ho, hn⟩
  · exact Or.inl hfinal
  · exact Or.inr ⟨progress, hb, hc, ho, hn⟩

/-- A call that is put back is the same call. -/
theorem Took.next_eq (h : p.Took services connected objects e next objects') {c : Continuation}
    (hc : next = some c) :
    c.ctx = p.ctx ∧ c.descriptor = p.descriptor ∧ c.arguments = p.arguments ∧
      c.steps = p.steps + 1 ∧ p.descriptor.procedure.blocking = true ∧ connected = true := by
  rcases h.final_or_parked with ⟨_, hn⟩ | ⟨progress, hb, hconn, _, hn⟩
  -- A final turn puts nothing back, so there is progress.
  · rw [hn] at hc
    exact absurd hc (by simp only [reduceCtorEq, not_false_eq_true])
  · rw [hn, Option.some.injEq] at hc
    rw [← hc]
    exact ⟨rfl, rfl, rfl, rfl, hb, hconn⟩

/-- The outcome says whether the call is put back. -/
theorem Took.continuing_iff (h : p.Took services connected objects e next objects') :
    next ≠ none ↔ e.outcome = .continuing p.ctx.call := by
  rcases h.final_or_parked with ⟨hfinal, hn⟩ | ⟨progress, _, _, ho, hn⟩
  · rw [hn]
    constructor
    · intro hne
      exact absurd rfl hne
    · intro ho
      rw [ho] at hfinal
      exact Bool.noConfusion hfinal
  · rw [hn, ho]
    simp only [ne_eq, reduceCtorEq, not_false_eq_true]

end Turn

/-- The pending calls after a turn put a call back, if it did. -/
def PendingCalls.keep (pending : PendingCalls) : Option Continuation → PendingCalls
  | none => pending
  | some c => { pending with waiting := pending.waiting.insert c.ctx.call c }

theorem PendingCalls.keep_closed (pending : PendingCalls) (next : Option Continuation) :
    (pending.keep next).closed = pending.closed := by
  cases next <;> rfl

namespace Dispatcher

/-- A dispatcher that differs from another at most in the shared world, in its
    counters, and in the given objects and pending calls. -/
structure Became (d : Dispatcher) (objects : ObjectTable) (pending : PendingCalls)
    (d' : Dispatcher) : Prop where
  catalog : d'.catalog = d.catalog
  config : d'.config = d.config
  nextCall : d'.nextCall = d.nextCall
  objects : d'.objects = objects
  pending : d'.pending = pending

theorem Became.countOutcome {d d' : Dispatcher} {objects : ObjectTable} {pending : PendingCalls}
    (h : d.Became objects pending d') (outcome : Outcome) :
    d.Became objects pending (countOutcome outcome d') := by
  cases outcome with
  | completed value => exact h
  | continuing call => exact h
  | failed error => exact ⟨h.catalog, h.config, h.nextCall, h.objects, h.pending⟩

/-! Counting an outcome leaves everything but the counters alone. -/

theorem countOutcome_objects (outcome : Outcome) (d : Dispatcher) :
    (countOutcome outcome d).objects = d.objects := by
  cases outcome <;> rfl

theorem countOutcome_pending (outcome : Outcome) (d : Dispatcher) :
    (countOutcome outcome d).pending = d.pending := by
  cases outcome <;> rfl

theorem countOutcome_world (outcome : Outcome) (d : Dispatcher) :
    (countOutcome outcome d).world = d.world := by
  cases outcome <;> rfl

/-- Whether the connection of a call has not disconnected. -/
def connected (d : Dispatcher) (ctx : CallContext) : Bool :=
  !d.pending.closed.contains ctx.connection

/-! ## One step -/

/-- The run of the handler in a turn. -/
def handled (d : Dispatcher) (p : Turn) : HandlerRun where
  handler := p.descriptor.handler
  invocation :=
    { ctx := p.ctx
      procedure := p.descriptor.qualifiedName
      services := d.catalog.services
      snapshot := d.snapshot
      arguments := p.arguments
      progress := p.progress }
  world := d.world

theorem runStep_eq (d : Dispatcher) (p : Turn) :
    d.runStep p = ((d.handled p).result, { d with world := (d.handled p).after }) := rfl

theorem handled_serves (d : Dispatcher) (p : Turn) : p.Serves (d.handled p) :=
  ⟨rfl, rfl, rfl, rfl, rfl⟩

theorem conclude_concludes (d : Dispatcher) (p : Turn) (result : Except Interrupt Step) :
    ∃ next objects',
      p.Concludes d.catalog.services (d.connected p.ctx) d.objects result (d.conclude p result).1
        next objects' ∧
      d.Became objects' (d.pending.keep next) (d.conclude p result).2 := by
  cases result with
  | error interrupt => exact ⟨none, d.objects, .interrupted interrupt, rfl, rfl, rfl, rfl, rfl⟩
  | ok step =>
      cases step with
      | complete value =>
          simp only [conclude]
          rcases hw : (writeReturn d.catalog.services p value).run.run d.objects with ⟨w, objects'⟩
          cases w with
          | ok written => exact ⟨none, objects', .completed hw, rfl, rfl, rfl, rfl, rfl⟩
          | error e => exact ⟨none, objects', .unwritable hw, rfl, rfl, rfl, rfl, rfl⟩
      | yield progress =>
          simp only [conclude, PendingCalls.park]
          -- Progress is refused first for the procedure and then for the connection.
          cases hb : p.descriptor.procedure.blocking with
          | false => exact ⟨none, d.objects, .notBlocking progress hb, rfl, rfl, rfl, rfl, rfl⟩
          | true =>
              cases hc : d.pending.closed.contains p.ctx.connection with
              | true =>
                  have hgone : d.connected p.ctx = false := by rw [connected, hc]; rfl
                  rw [hgone]
                  exact ⟨none, d.objects, .disconnected progress hb rfl, rfl, rfl, rfl, rfl, rfl⟩
              | false =>
                  have hhere : d.connected p.ctx = true := by rw [connected, hc]; rfl
                  rw [hhere]
                  exact ⟨some (p.parked progress), d.objects, .parked progress hb rfl, rfl, rfl,
                    rfl, rfl, rfl⟩

/-- Drawing consequences changes the live objects and the pending calls and nothing
    else. -/
theorem conclude_leaves (d : Dispatcher) (p : Turn) (result : Except Interrupt Step) :
    ∃ objects pending, (d.conclude p result).2 = { d with objects, pending } := by
  cases result with
  | error interrupt => exact ⟨d.objects, d.pending, rfl⟩
  | ok step =>
      cases step with
      | complete value =>
          simp only [conclude]
          rcases (writeReturn d.catalog.services p value).run.run d.objects with ⟨_ | _, objects'⟩
          · exact ⟨objects', d.pending, rfl⟩
          · exact ⟨objects', d.pending, rfl⟩
      | yield progress =>
          simp only [conclude]
          split
          · rcases d.pending.park ⟨p.descriptor, p.ctx, p.arguments, progress, p.steps + 1⟩ with
              ⟨_ | _, pending⟩
            · exact ⟨d.objects, pending, rfl⟩
            · exact ⟨d.objects, pending, rfl⟩
          · exact ⟨d.objects, d.pending, rfl⟩

/-- A step leaves the counters alone, and the world is as the handler left it. -/
theorem step_leaves (d : Dispatcher) (p : Turn) :
    (d.step p).2.status = d.status ∧ (d.step p).2.world = (d.handled p).after := by
  unfold step
  rw [runStep_eq]
  rcases conclude_leaves { d with world := (d.handled p).after } p (d.handled p).result with
    ⟨_, _, hleft⟩
  simp only [hleft, and_self]

theorem step_concludes (d : Dispatcher) (p : Turn) :
    ∃ next objects',
      p.Concludes d.catalog.services (d.connected p.ctx) d.objects (d.handled p).result
        (d.step p).1 next objects' ∧
      d.Became objects' (d.pending.keep next) (d.step p).2 := by
  unfold step
  rw [runStep_eq]
  -- Running the handler has changed nothing that a conclusion looks at.
  rcases conclude_concludes { d with world := (d.handled p).after } p (d.handled p).result with
    ⟨next, objects', hconcludes, hbecame⟩
  exact ⟨next, objects', hconcludes, hbecame.catalog, hbecame.config, hbecame.nextCall,
    hbecame.objects, hbecame.pending⟩

/-! ## The first turn -/

/-- What happens when a call is dispatched. -/
def dispatchEvent (d : Dispatcher) (call : Call) : Event where
  ctx := call.ctx
  run :=
    match d.prepare call with
    | .ok p => some (d.countDispatch.handled p)
    | .error _ => none
  outcome := (d.dispatch call).1

/-- A call that cannot be prepared is only counted. -/
theorem dispatch_of_error {d : Dispatcher} {call : Call} {e : CallError}
    (h : d.prepare call = .error e) :
    d.dispatch call = (.failed e, countOutcome (.failed e) d.countDispatch) := by
  have h' : d.countDispatch.prepare call = .error e := h
  unfold dispatch
  simp only [h']

/-- A call that is prepared is a step, counted on both sides of it. -/
theorem dispatch_of_ok {d : Dispatcher} {call : Call} {p : Turn} (h : d.prepare call = .ok p) :
    d.dispatch call = ((d.countDispatch.step p).1,
      countOutcome (d.countDispatch.step p).1 (d.countDispatch.step p).2) := by
  have h' : d.countDispatch.prepare call = .ok p := h
  unfold dispatch
  simp only [h']

theorem dispatch_refused {d : Dispatcher} {call : Call} {e : CallError}
    (h : d.prepare call = .error e) :
    d.dispatchEvent call = ⟨call.ctx, none, .failed e⟩ ∧
      d.Became d.objects d.pending (d.dispatch call).2 := by
  unfold dispatchEvent
  rw [dispatch_of_error h, h]
  exact ⟨rfl, rfl, rfl, rfl, rfl, rfl⟩

/-- A call is prepared if its procedure exists and its arguments can be bound. -/
theorem prepare_eq_ok {d : Dispatcher} {call : Call} {p : Turn} (h : d.prepare call = .ok p) :
    ∃ descriptor arguments, d.catalog.directory.get call.procedure = .ok descriptor ∧
      bindArguments d.catalog.services d.objects descriptor.qualifiedName
        descriptor.procedure.parameters call.arguments = .ok arguments ∧
      p = ⟨descriptor, call.ctx, arguments, none, 0⟩ := by
  unfold prepare at h
  cases hget : d.catalog.directory.get call.procedure with
  | error e => rw [hget] at h; exact nomatch h
  | ok descriptor =>
      rw [hget] at h
      simp only [bind, Except.bind] at h
      split at h
      next => exact nomatch h
      next arguments hbind =>
        exact ⟨descriptor, arguments, rfl, hbind, (Except.ok.inj h).symm⟩

/-- A call is refused for its name or for its arguments. -/
theorem prepare_eq_error {d : Dispatcher} {call : Call} {error : CallError}
    (h : d.prepare call = .error error) :
    d.catalog.directory.get call.procedure = .error error ∨
      ∃ descriptor, d.catalog.directory.get call.procedure = .ok descriptor ∧
        bindArguments d.catalog.services d.objects descriptor.qualifiedName
          descriptor.procedure.parameters call.arguments = .error error := by
  unfold prepare at h
  cases hget : d.catalog.directory.get call.procedure with
  | error e =>
      rw [hget] at h
      exact .inl (congrArg Except.error (Except.error.inj h))
  | ok descriptor =>
      rw [hget] at h
      refine .inr ⟨descriptor, rfl, ?_⟩
      simp only [bind, Except.bind] at h
      split at h
      next e hbind => exact hbind.trans (congrArg Except.error (Except.error.inj h))
      next => exact nomatch h

theorem prepare_ctx {d : Dispatcher} {call : Call} {p : Turn} (h : d.prepare call = .ok p) :
    p.ctx = call.ctx := by
  rcases prepare_eq_ok h with ⟨_, _, _, _, rfl⟩
  rfl

theorem dispatch_prepared {d : Dispatcher} {call : Call} {p : Turn}
    (h : d.prepare call = .ok p) :
    ∃ next objects',
      p.Took d.catalog.services (d.connected p.ctx) d.objects (d.dispatchEvent call) next
        objects' ∧
      d.Became objects' (d.pending.keep next) (d.dispatch call).2 := by
  -- Counting the call is no part of its turn.
  rcases step_concludes d.countDispatch p with ⟨next, objects', hconcludes, hbecame⟩
  unfold dispatchEvent
  rw [dispatch_of_ok h, h]
  refine ⟨next, objects', ⟨(prepare_ctx h).symm, d.countDispatch.handled p, rfl,
    handled_serves _ _, hconcludes⟩, ?_⟩
  have hcounted := hbecame.countOutcome (d.countDispatch.step p).1
  exact ⟨hcounted.catalog, hcounted.config, hcounted.nextCall, hcounted.objects,
    hcounted.pending⟩

/-! ## Further turns -/

/-- The pending calls while one of them takes a turn. -/
def without (d : Dispatcher) (id : CallId) : Dispatcher :=
  { d with pending := { d.pending with waiting := d.pending.waiting.erase id } }

/-- What happens when a call is advanced, if it waits. -/
def advanceEvent? (d : Dispatcher) (id : CallId) : Option Event :=
  (d.pending.waiting.get? id).map fun c =>
    ⟨c.ctx, some ((d.without id).countResume.handled c.turn),
      ((d.without id).countResume.step c.turn).1⟩

theorem advance_absent {d : Dispatcher} {id : CallId} (h : d.pending.waiting.get? id = none) :
    d.advanceEvent? id = none ∧ d.advance id = (none, d) := by
  unfold advanceEvent? advance PendingCalls.take
  simp only [h, Option.map_none, true_and]

theorem resume_absent {d : Dispatcher} {id : CallId} (h : d.pending.waiting.get? id = none) :
    d.resume id = (none, d) := by
  unfold resume
  rw [(advance_absent h).2]
  rfl

/-- A call that waits is taken out for its step, so what is put back is all that is
    left of it. -/
theorem advance_of_waiting {d : Dispatcher} {id : CallId} {c : Continuation}
    (h : d.pending.waiting.get? id = some c) :
    d.advance id = (some (c.ctx, ((d.without id).countResume.step c.turn).1),
      countOutcome ((d.without id).countResume.step c.turn).1
        ((d.without id).countResume.step c.turn).2) := by
  unfold advance PendingCalls.take
  simp only [h]
  rfl

theorem advance_waiting {d : Dispatcher} {id : CallId} {c : Continuation}
    (h : d.pending.waiting.get? id = some c) :
    ∃ e next objects',
      d.advanceEvent? id = some e ∧ (d.advance id).1 = some (e.ctx, e.outcome) ∧
      c.turn.Took d.catalog.services (d.connected c.ctx) d.objects e next objects' ∧
      d.Became objects' ((d.without id).pending.keep next) (d.advance id).2 := by
  rcases step_concludes (d.without id).countResume c.turn with
    ⟨next, objects', hconcludes, hbecame⟩
  refine ⟨⟨c.ctx, some ((d.without id).countResume.handled c.turn),
    ((d.without id).countResume.step c.turn).1⟩, next, objects', ?_, ?_, ?_, ?_⟩
  · rw [advanceEvent?, h, Option.map_some]
  · rw [advance_of_waiting h]
  · exact ⟨rfl, _, rfl, handled_serves _ _, hconcludes⟩
  · rw [advance_of_waiting h]
    have hcounted := hbecame.countOutcome ((d.without id).countResume.step c.turn).1
    exact ⟨hcounted.catalog, hcounted.config, hcounted.nextCall, hcounted.objects,
      hcounted.pending⟩

/-! ## The configuration -/

theorem dispatch_config (d : Dispatcher) (call : Call) : (d.dispatch call).2.config = d.config := by
  cases hprepare : d.prepare call with
  | error e => exact (dispatch_refused hprepare).2.config
  | ok p =>
      rcases dispatch_prepared hprepare with ⟨_, _, _, hbecame⟩
      exact hbecame.config

theorem advance_config (d : Dispatcher) (id : CallId) : (d.advance id).2.config = d.config := by
  cases hwaiting : d.pending.waiting.get? id with
  | none => rw [(advance_absent hwaiting).2]
  | some c =>
      rcases advance_waiting hwaiting with ⟨_, _, _, _, _, _, hbecame⟩
      exact hbecame.config

theorem tick_config (d : Dispatcher) : d.tick.2.config = d.config := by
  have hall : ∀ (ids : List CallId) (d : Dispatcher), (d.advanceAll ids).2.config = d.config := by
    intro ids
    induction ids with
    | nil => exact fun _ => rfl
    | cons id rest ih => exact fun d => (ih (d.advance id).2).trans (d.advance_config id)
  exact hall _ d.countTick

end Dispatcher

end Switchboard
