import Switchboard.Proofs.Interleaving.System

/-!
# A Worker Alone

That workers do what the dispatcher's operations say. An operation is one
function on the dispatcher, and a worker takes several actions for it. If nobody
else acts in the meantime, these actions leave the dispatcher that the operation
gives, the worker has nothing left to do, and it has come to the outcomes that
the operation reports, in the same order.

So every run of operations one after the other is an interleaving, and what
holds of all interleavings holds of it. What a worker leaves to the environment
is chosen here as the operation has it: arguments are bound to what the live
objects say at that moment, and a handler comes to what it would come to in the
world as it is.

## Main definitions

* `outcomesIn`: The outcomes in a history.
* `System.Alone`: What a worker that acts alone can bring about.
* `System.boundNow`: What the arguments of a call are bound to at a moment.

## Theorems

* `Alone.trans`: One thing after another.
* `turn_alone`: A turn is a step of the dispatcher.
* `dispatch_alone`, `advance_alone`, `resume_alone`, `tick_alone`: The operations
  of a worker.
* `disconnect_halves`: A disconnect is its two halves.
-/

namespace Switchboard

/-- The outcome that finished writing amounts to. -/
def writtenOutcome : Except CallError (Option Value) → Outcome
  | .ok value => .completed value
  | .error e => .failed e

/-- The outcome in an entry of the history. -/
def Happening.outcome? : Happening → Option (CallContext × Outcome)
  | .concluded ctx outcome => some (ctx, outcome)
  | _ => none

/-- The outcomes in a history, earliest first. -/
def outcomesIn (history : List Happening) : List (CallContext × Outcome) :=
  (history.filterMap Happening.outcome?).reverse

theorem outcomesIn_concluded (ctx : CallContext) (outcome : Outcome) (history : List Happening) :
    outcomesIn (.concluded ctx outcome :: history) = outcomesIn history ++ [(ctx, outcome)] :=
  List.reverse_cons

/-- The worker that acts, if it is one. -/
def Action.worker? : Action → Option WorkerId
  | .dispatch w _ _ => some w
  | .look w => some w
  | .want w _ => some w
  | .take w => some w
  | .handle w _ _ => some w
  | .proceed w => some w
  | _ => none

/-- What comes of putting a call back. -/
def Dispatcher.parkOutcome (d : Dispatcher) (c : Continuation) : Outcome × Dispatcher :=
  match d.pending.park c with
  | (true, pending) => (.continuing c.ctx.call, { d with pending })
  | (false, pending) => (.failed (connectionGone c.ctx.connection), { d with pending })

namespace System

/-- The system when a worker has changed the dispatcher, and perhaps taken a call
    off the queue. -/
def after (s : System) (w : WorkerId) (worker : Worker) (d : Dispatcher)
    (queued : Table ConnectionId) (history : List Happening) : System :=
  { s with dispatcher := d, queued, history }.assign w worker

theorem after_workers (s : System) (w : WorkerId) (worker : Worker) (d : Dispatcher)
    (queued : Table ConnectionId) (history : List Happening) :
    (s.after w worker d queued history).workers w = worker :=
  if_pos rfl

theorem after_after (s : System) (w : WorkerId) (worker worker' : Worker) (d d' : Dispatcher)
    (queued queued' : Table ConnectionId) (history history' : List Happening) :
    (s.after w worker d queued history).after w worker' d' queued' history' =
      s.after w worker' d' queued' history' := by
  unfold after assign
  congr 1
  funext other
  by_cases hother : other = w
  · simp only [if_pos hother]
  · simp only [if_neg hother]

theorem after_same (s : System) (w : WorkerId) :
    s.after w (s.workers w) s.dispatcher s.queued s.history = s := by
  unfold after assign
  congr 1
  funext other
  by_cases hother : other = w
  · rw [if_pos hother, hother]
  · rw [if_neg hother]

theorem invoke_eq (s : System) (w : WorkerId) (p : Turn) :
    s.invoke w p =
      s.after w { s.workers w with activity := .running p } s.dispatcher s.queued
        (.invoked p :: s.history) := rfl

theorem conclude_eq (s : System) (w : WorkerId) (ctx : CallContext) (outcome : Outcome) :
    s.conclude w ctx outcome =
      s.after w { s.workers w with activity := .idle } (s.dispatcher.countOutcome outcome) s.queued
        (.concluded ctx outcome :: s.history) := rfl

/-- What a worker can bring about alone: what it goes on with, the dispatcher
    that it leaves, and the outcomes that it comes to on the way. -/
def Alone (s : System) (w : WorkerId) (worker : Worker) (d : Dispatcher)
    (results : List (CallContext × Outcome)) : Prop :=
  ∃ actions queued history, (∀ action ∈ actions, action.worker? = some w) ∧
    s.replay actions = s.after w worker d queued history ∧
    outcomesIn history = outcomesIn s.history ++ results

variable {s : System} {w : WorkerId} {worker worker' : Worker} {wanted : List CallId}
  {d d' : Dispatcher} {queued : Table ConnectionId} {history : List Happening}
  {results results' : List (CallContext × Outcome)} {action : Action}

namespace Alone

/-- Doing nothing. -/
theorem stay (s : System) (w : WorkerId) : s.Alone w (s.workers w) s.dispatcher [] :=
  ⟨[], s.queued, s.history, List.forall_mem_nil _, (s.after_same w).symm, (List.append_nil _).symm⟩

/-- A single action. -/
theorem act (hworker : action.worker? = some w)
    (hperform : s.perform action = s.after w worker d queued history)
    (hresults : outcomesIn history = outcomesIn s.history ++ results) :
    s.Alone w worker d results :=
  ⟨[action], queued, history, List.forall_mem_singleton.mpr hworker, hperform, hresults⟩

/-- One thing after another. -/
theorem trans (h : s.Alone w worker d results)
    (h' : ∀ queued history,
      (s.after w worker d queued history).Alone w worker' d' results') :
    s.Alone w worker' d' (results ++ results') := by
  rcases h with ⟨actions, queued, history, hby, hreplay, hresults⟩
  rcases h' queued history with ⟨actions', queued', history', hby', hreplay', hresults'⟩
  refine ⟨actions ++ actions', queued', history', List.forall_mem_append.mpr ⟨hby, hby'⟩, ?_, ?_⟩
  · rw [replay_append, hreplay, hreplay', after_after]
  · rw [hresults', ← List.append_assoc, ← hresults]
    rfl

end Alone

/-! ## A step -/

/-- Writing with nobody in between is done in one go. -/
theorem writing_alone {p : Turn} {draft : Draft (Option Value)}
    (h : s.workers w = { wanted, activity := .writing p draft }) :
    s.Alone w { wanted }
      (Dispatcher.countOutcome
        (writtenOutcome (draft.finish p.ctx.connection s.dispatcher.objects).1)
        { s.dispatcher with
          objects := (draft.finish p.ctx.connection s.dispatcher.objects).2 })
      [(p.ctx, writtenOutcome (draft.finish p.ctx.connection s.dispatcher.objects).1)] := by
  induction draft generalizing s with
  | done result =>
      have hperform : s.perform (.proceed w) = s.conclude w p.ctx (writtenOutcome result) := by
        rw [perform, h]
        cases result <;> rfl
      rw [conclude_eq, h] at hperform
      exact .act rfl hperform (outcomesIn_concluded p.ctx (writtenOutcome result) _)
  | enter object className rest ih =>
      have hperform : s.perform (.proceed w) = s.write w p (.enter object className rest) := by
        rw [perform, h]
      simp only [write, occupy, h] at hperform
      -- The rest is written into the table that the instance has been entered in.
      have hfirst : s.Alone w _ _ [] := .act rfl hperform (List.append_nil _).symm
      exact hfirst.trans fun _ _ => ih _ (after_workers ..)

theorem conclude_complete (d : Dispatcher) (p : Turn) (value : Option NativeValue) :
    d.conclude p (.ok (.complete value)) =
      (writtenOutcome
        ((returnDraft d.catalog.services p value).finish p.ctx.connection d.objects).1,
        { d with objects :=
          ((returnDraft d.catalog.services p value).finish p.ctx.connection d.objects).2 }) := by
  simp only [Dispatcher.conclude]
  rw [writeReturn_drafted]
  rcases (returnDraft d.catalog.services p value).finish p.ctx.connection d.objects with
    ⟨result, objects⟩
  cases result <;> rfl

/-- A call is put back, or its connection turns out to be gone. -/
theorem parking_alone {c : Continuation} (h : s.workers w = { wanted, activity := .parking c }) :
    s.Alone w { wanted }
      (Dispatcher.countOutcome (Dispatcher.parkOutcome s.dispatcher c).1
        (Dispatcher.parkOutcome s.dispatcher c).2)
      [(c.ctx, (Dispatcher.parkOutcome s.dispatcher c).1)] := by
  have hperform : s.perform (.proceed w) = s.park w c := by rw [perform, h]
  unfold Dispatcher.parkOutcome
  cases hpark : s.dispatcher.pending.park c with
  | mk accepted pending =>
      cases accepted with
      | true =>
          simp only [park, hpark, remember, conclude_eq, h] at hperform
          exact .act rfl hperform (outcomesIn_concluded ..)
      | false =>
          simp only [park, hpark, conclude_eq, h] at hperform
          exact .act rfl hperform (outcomesIn_concluded ..)

/-- What a handler came to is concluded as the dispatcher says, if nobody gets
    in between. -/
theorem handle_alone {p : Turn} (h : s.workers w = { wanted, activity := .running p })
    (result : Except Interrupt Step) (world : World) :
    s.Alone w { wanted }
      (Dispatcher.countOutcome (Dispatcher.conclude { s.dispatcher with world } p result).1
        (Dispatcher.conclude { s.dispatcher with world } p result).2)
      [(p.ctx, (Dispatcher.conclude { s.dispatcher with world } p result).1)] := by
  have hperform : s.perform (.handle w result world) =
      { s with dispatcher := { s.dispatcher with world } }.handle w p result := by
    rw [perform, h]
  cases result with
  | error interrupt =>
      rw [handle, conclude_eq] at hperform
      simp only [h] at hperform
      exact .act rfl hperform (outcomesIn_concluded ..)
  | ok step =>
      cases step with
      | complete value =>
          rw [handle, occupy] at hperform
          simp only [h] at hperform
          -- The worker has turned to writing, and no table has changed yet.
          have hfirst : s.Alone w _ _ [] := .act rfl hperform (List.append_nil _).symm
          rw [conclude_complete]
          exact hfirst.trans fun _ _ => writing_alone (after_workers ..)
      | yield progress =>
          rw [handle] at hperform
          simp only [Dispatcher.conclude]
          cases hblocking : p.descriptor.procedure.blocking with
          | false =>
              rw [hblocking, if_neg (by simp), conclude_eq] at hperform
              simp only [h] at hperform
              exact .act rfl hperform (outcomesIn_concluded ..)
          | true =>
              rw [hblocking, if_pos rfl, occupy] at hperform
              simp only [h] at hperform
              have hfirst : s.Alone w _ _ [] := .act rfl hperform (List.append_nil _).symm
              exact hfirst.trans fun _ _ => parking_alone (after_workers ..)

/-- A turn that was given is a step of the dispatcher. -/
theorem turn_alone {p : Turn} (h : s.workers w = { wanted, activity := .running p }) :
    s.Alone w { wanted }
      (Dispatcher.countOutcome (s.dispatcher.step p).1 (s.dispatcher.step p).2)
      [(p.ctx, (s.dispatcher.step p).1)] :=
  handle_alone h (s.dispatcher.handled p).result (s.dispatcher.handled p).after

/-! ## The operations of a worker -/

/-- What the arguments of a call are bound to as things stand. -/
def boundNow (d : Dispatcher) (call : Call) : Except CallError (List NativeValue) := do
  let descriptor ← d.catalog.directory.get call.procedure
  bindArguments d.catalog.services d.objects descriptor.qualifiedName
    descriptor.procedure.parameters call.arguments

theorem dispatch_boundNow (s : System) (w : WorkerId) (call : Call) :
    s.dispatch w call (boundNow s.dispatcher call) =
      match s.dispatcher.prepare call with
      | .ok p => (s.unqueue call).invoke w p
      | .error e => (s.unqueue call).conclude w call.ctx (.failed e) := by
  unfold dispatch boundNow Dispatcher.prepare
  cases s.dispatcher.catalog.directory.get call.procedure with
  | error e => rfl
  | ok descriptor =>
      simp only [bind, Except.bind]
      cases bindArguments s.dispatcher.catalog.services s.dispatcher.objects
        descriptor.qualifiedName descriptor.procedure.parameters call.arguments <;> rfl

/-- A worker dispatches a call as the dispatcher does. -/
theorem dispatch_alone (hfree : s.workers w = {}) (call : Call) :
    s.Alone w {} (s.dispatcher.dispatch call).2 [(call.ctx, (s.dispatcher.dispatch call).1)] := by
  have hperform : s.perform (.dispatch w call (boundNow s.dispatcher call)) =
      s.dispatch w call (boundNow s.dispatcher call) := by
    rw [perform, hfree]
  have hworkers : (s.unqueue call).workers w = {} := hfree
  rw [dispatch_boundNow] at hperform
  cases hprepare : s.dispatcher.prepare call with
  | error e =>
      simp only [hprepare, conclude_eq, hworkers] at hperform
      rw [Dispatcher.dispatch_of_error hprepare]
      exact .act rfl hperform (outcomesIn_concluded ..)
  | ok p =>
      simp only [hprepare, invoke_eq, hworkers] at hperform
      rw [Dispatcher.dispatch_of_ok hprepare, ← Dispatcher.prepare_ctx hprepare]
      have hfirst : s.Alone w _ s.dispatcher.countDispatch [] :=
        .act rfl hperform (List.append_nil _).symm
      exact hfirst.trans fun _ _ => turn_alone (after_workers ..)

/-- A worker advances a call it wants as the dispatcher does. -/
theorem advance_alone {id : CallId} {rest : List CallId}
    (hworker : s.workers w = { wanted := id :: rest }) :
    s.Alone w { wanted := rest } (s.dispatcher.advance id).2
      (s.dispatcher.advance id).1.toList := by
  have hperform : s.perform (.take w) = s.take w id rest := by rw [perform, hworker]
  unfold Dispatcher.advance
  cases htake : s.dispatcher.pending.take id with
  | mk found pending =>
      cases found with
      | none =>
          simp only [take, htake] at hperform
          exact .act rfl hperform (List.append_nil _).symm
      | some c =>
          have htaken : s.take w id rest =
              (s.after w { wanted := rest } { s.dispatcher with pending }.countResume s.queued
                s.history).invoke w c.turn := by
            simp only [take, htake]
            rfl
          rw [htaken, invoke_eq, after_after, after_workers] at hperform
          have hfirst : s.Alone w _ _ [] := .act rfl hperform (List.append_nil _).symm
          exact hfirst.trans fun _ _ => turn_alone (after_workers ..)

theorem advanceAll_alone {ids : List CallId} (hworker : s.workers w = { wanted := ids }) :
    s.Alone w {} (s.dispatcher.advanceAll ids).2 (s.dispatcher.advanceAll ids).1 := by
  induction ids generalizing s with
  | nil => exact hworker ▸ .stay s w
  | cons id rest ih =>
      exact (advance_alone hworker).trans fun _ _ => ih (after_workers ..)

/-- A worker that means to advance a call does what resuming it does. -/
theorem resume_alone (hfree : s.workers w = {}) (id : CallId) :
    s.Alone w {} (s.dispatcher.resume id).2 (s.dispatcher.advance id).1.toList := by
  have hperform : s.perform (.want w id) = s.assign w { wanted := [id] } := by
    rw [perform, hfree]
  have hfirst : s.Alone w { wanted := [id] } s.dispatcher [] :=
    .act rfl hperform (List.append_nil _).symm
  exact hfirst.trans fun _ _ => advance_alone (after_workers ..)

/-- A worker that looks which calls are pending does what a tick does. -/
theorem tick_alone (hfree : s.workers w = {}) :
    s.Alone w {} s.dispatcher.tick.2 s.dispatcher.tick.1 := by
  have hperform : s.perform (.look w) =
      { s with dispatcher := s.dispatcher.countTick }.assign w
        { wanted := s.dispatcher.pending.ids } := by
    rw [perform, hfree]
  have hfirst : s.Alone w { wanted := s.dispatcher.pending.ids } s.dispatcher.countTick [] :=
    .act rfl hperform (List.append_nil _).symm
  exact hfirst.trans fun _ _ => advanceAll_alone (after_workers ..)

/-- A disconnect with nobody in between is its two halves. -/
theorem disconnect_halves (s : System) (connection : ConnectionId) :
    (s.replay [.vacate connection, .clear connection]).dispatcher =
      (s.dispatcher.disconnect connection).2 := rfl

end System

end Switchboard
