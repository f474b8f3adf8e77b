import Switchboard.Proofs.Dispatcher.Turn
import Switchboard.Proofs.Interleaving.Draft

/-!
# Workers Side by Side

One dispatcher used by any number of workers at once. What a worker does for a
call takes several actions, and between any two of them others may act. An
action is what happens under one lock: it touches the live objects or the
pending calls once, or it is what a worker does by itself between two such
moments. The dispatcher's own operations are made of these actions, and a
worker that is left alone does with them what the operations say.

What does not lie in the tables is left to the environment. A handler runs
without a lock, so whatever else goes on it may come to any result and may leave
the shared world in any state. Arguments are bound from several looks at the
live objects, so they may be bound to anything. Both are part of the action, and
what holds for all of them holds for those that a program would bring about.

An action that is impossible where it is asked for does nothing. So every list
of actions is an interleaving, and none has to be ruled out.

The history is kept for the theorems only; nothing looks at it.

## Main definitions

* `Activity`, `Worker`: What a worker is in the middle of.
* `Happening`: What is recorded.
* `System`: A dispatcher and its workers.
* `Action`, `System.perform`, `System.replay`: What can happen.
* `System.start`: Before anything has happened.
* `System.Did`: What an action has done.

## Theorems

* `did_perform`: Every action has done one of these things.
* `Did.pending`: What becomes of the pending calls.
* `Did.history`, `history_replay`: The history only grows.
-/

namespace Switchboard

/-- The identity of a worker. -/
abbrev WorkerId := Nat

/-- What a worker is in the middle of. -/
inductive Activity where
  | idle
  /-- The handler of a call runs. -/
  | running (p : Turn)
  /-- The handler yielded, and the call is to be put back. -/
  | parking (c : Continuation)
  /-- The handler finished, and its value is being written. -/
  | writing (p : Turn) (draft : Draft (Option Value))

/-- A worker, with the calls that it still means to advance. -/
structure Worker where
  wanted : List CallId := []
  activity : Activity := .idle

/-- Something that is remembered. -/
inductive Happening where
  /-- A handler was given a turn. -/
  | invoked (p : Turn)
  /-- A call was put back to wait. -/
  | parked (c : Continuation)
  /-- A step came to an outcome. -/
  | concluded (ctx : CallContext) (outcome : Outcome)
  /-- The objects of a connection were let go. -/
  | vacated (connection : ConnectionId)
  /-- The pending calls of a connection were given up. -/
  | cleared (connection : ConnectionId)

/-- A dispatcher that several workers use. -/
structure System where
  dispatcher : Dispatcher
  /-- The calls that have an identity and have not been dispatched, with their
      connections. -/
  queued : Table ConnectionId := {}
  workers : WorkerId → Worker := fun _ => {}
  /-- What has happened, latest first. -/
  history : List Happening := []

/-- What can happen next. -/
inductive Action where
  /-- A call comes in and is given an identity. -/
  | arrive (connection : ConnectionId)
  /-- A worker starts a call, its arguments being bound as given. -/
  | dispatch (w : WorkerId) (call : Call) (bound : Except CallError (List NativeValue))
  /-- A worker begins a tick by looking which calls are pending. -/
  | look (w : WorkerId)
  /-- A worker means to advance a single call. -/
  | want (w : WorkerId) (id : CallId)
  /-- A worker takes the next call it wants, if it is pending. -/
  | take (w : WorkerId)
  /-- The handler that a worker runs comes to a result. -/
  | handle (w : WorkerId) (result : Except Interrupt Step) (world : World)
  /-- A worker does what is next after its handler has run. -/
  | proceed (w : WorkerId)
  /-- The first half of a disconnect. -/
  | vacate (connection : ConnectionId)
  /-- The second half of a disconnect. -/
  | clear (connection : ConnectionId)
  /-- A pending call is given up. -/
  | discard (id : CallId)
  /-- An object is released. -/
  | release (id : ObjectId)

namespace System

/-- A system in which nothing has happened yet. -/
def start (catalog : Catalog) (config : ServerConfig) : System :=
  { dispatcher := { catalog, config } }

/-- Gives a worker something else to do. -/
def assign (s : System) (w : WorkerId) (worker : Worker) : System :=
  { s with workers := fun other => if other = w then worker else s.workers other }

/-- Lets a worker go on with the same calls to advance. -/
def occupy (s : System) (w : WorkerId) (activity : Activity) : System :=
  s.assign w { s.workers w with activity }

/-- Remembers that something happened. -/
def remember (s : System) (h : Happening) : System := { s with history := h :: s.history }

/-- Gives a worker a turn of a call, which starts the handler. -/
def invoke (s : System) (w : WorkerId) (p : Turn) : System :=
  (s.occupy w (.running p)).remember (.invoked p)

/-- Ends a worker's step with an outcome. -/
def conclude (s : System) (w : WorkerId) (ctx : CallContext) (outcome : Outcome) : System :=
  ({ s with dispatcher := s.dispatcher.countOutcome outcome }.occupy w .idle).remember
    (.concluded ctx outcome)

/-- Takes a call as dispatched. -/
def unqueue (s : System) (call : Call) : System :=
  { s with
    dispatcher := s.dispatcher.countDispatch
    queued := s.queued.erase call.ctx.call }

/-- A worker starts a call. -/
def dispatch (s : System) (w : WorkerId) (call : Call)
    (bound : Except CallError (List NativeValue)) : System :=
  match s.dispatcher.catalog.directory.get call.procedure, bound with
  | .ok descriptor, .ok arguments =>
    (s.unqueue call).invoke w { descriptor, ctx := call.ctx, arguments }
  | .error e, _ => (s.unqueue call).conclude w call.ctx (.failed e)
  | .ok _, .error e => (s.unqueue call).conclude w call.ctx (.failed e)

/-- A worker takes a call if it is pending, and passes it over otherwise. -/
def take (s : System) (w : WorkerId) (id : CallId) (rest : List CallId) : System :=
  match s.dispatcher.pending.take id with
  | (none, _) => s.assign w { wanted := rest }
  | (some c, pending) =>
    ({ s with dispatcher := { s.dispatcher with pending }.countResume }.assign w
      { wanted := rest }).invoke w c.turn

/-- The handler of a turn comes to a result. -/
def handle (s : System) (w : WorkerId) (p : Turn) : Except Interrupt Step → System
  | .error interrupt => s.conclude w p.ctx (.failed interrupt.toError)
  | .ok (.complete value) =>
    s.occupy w (.writing p (returnDraft s.dispatcher.catalog.services p value))
  | .ok (.yield progress) =>
    if p.descriptor.procedure.blocking then s.occupy w (.parking (p.parked progress))
    else s.conclude w p.ctx (.failed (Dispatcher.cannotYield p.descriptor.qualifiedName))

/-- A worker puts a call back, or finds that its connection is gone. -/
def park (s : System) (w : WorkerId) (c : Continuation) : System :=
  match s.dispatcher.pending.park c with
  | (true, pending) =>
    ({ s with dispatcher := { s.dispatcher with pending } }.remember (.parked c)).conclude w c.ctx
      (.continuing c.ctx.call)
  | (false, pending) =>
    { s with dispatcher := { s.dispatcher with pending } }.conclude w c.ctx
      (.failed (Dispatcher.connectionGone c.ctx.connection))

/-- A worker writes on until the next instance has been entered. -/
def write (s : System) (w : WorkerId) (p : Turn) : Draft (Option Value) → System
  | .done (.ok value) => s.conclude w p.ctx (.completed value)
  | .done (.error e) => s.conclude w p.ctx (.failed e)
  | .enter object className rest =>
    let (reference, objects) := s.dispatcher.objects.register object className p.ctx.connection
    { s with dispatcher := { s.dispatcher with objects } }.occupy w
      (.writing p (rest reference.id))

/-- The system after an action. -/
def perform (s : System) : Action → System
  | .arrive connection =>
    let (ctx, dispatcher) := s.dispatcher.context connection
    { s with dispatcher, queued := s.queued.insert ctx.call connection }
  | .dispatch w call bound =>
    match s.workers w with
    | ⟨[], .idle⟩ => s.dispatch w call bound
    | _ => s
  | .look w =>
    match s.workers w with
    | ⟨[], .idle⟩ =>
      { s with dispatcher := s.dispatcher.countTick }.assign w
        { wanted := s.dispatcher.pending.ids }
    | _ => s
  | .want w id =>
    match s.workers w with
    | ⟨[], .idle⟩ => s.assign w { wanted := [id] }
    | _ => s
  | .take w =>
    match s.workers w with
    | ⟨id :: rest, .idle⟩ => s.take w id rest
    | _ => s
  | .handle w result world =>
    match (s.workers w).activity with
    | .running p => { s with dispatcher := { s.dispatcher with world } }.handle w p result
    | _ => s
  | .proceed w =>
    match (s.workers w).activity with
    | .parking c => s.park w c
    | .writing p draft => s.write w p draft
    | _ => s
  | .vacate connection =>
    { s with dispatcher :=
        { s.dispatcher with objects := (s.dispatcher.objects.releaseOwner connection).2 }
      }.remember (.vacated connection)
  | .clear connection =>
    { s with dispatcher :=
        { s.dispatcher with pending := (s.dispatcher.pending.discardConnection connection).2 }
      }.remember (.cleared connection)
  | .discard id =>
    { s with dispatcher :=
      { s.dispatcher with pending := (s.dispatcher.pending.discard id).2 } }
  | .release id => { s with dispatcher := (s.dispatcher.release id).2 }

/-- The system after several actions. -/
def replay (s : System) (actions : List Action) : System := actions.foldl perform s

theorem replay_append (s : System) (actions rest : List Action) :
    s.replay (actions ++ rest) = (s.replay actions).replay rest :=
  List.foldl_append

/-! ## What an action has done -/

/-- What an action has done: nothing, or one thing that is spelled out with all
    that had to be the case for it. -/
inductive Did (s : System) : Action → System → Prop
  | nothing (action : Action) : Did s action s
  | arrived (connection : ConnectionId) :
    Did s (.arrive connection)
      { s with
        dispatcher := (s.dispatcher.context connection).2
        queued := s.queued.insert s.dispatcher.nextCall connection }
  | started {w : WorkerId} {call : Call} {bound : Except CallError (List NativeValue)} {p : Turn} :
    s.workers w = {} → p.ctx = call.ctx → p.progress = none → p.steps = 0 →
    Did s (.dispatch w call bound) ((s.unqueue call).invoke w p)
  | refused {w : WorkerId} {call : Call} {bound : Except CallError (List NativeValue)}
    (e : CallError) :
    s.workers w = {} →
    Did s (.dispatch w call bound) ((s.unqueue call).conclude w call.ctx (.failed e))
  | looked {w : WorkerId} :
    s.workers w = {} →
    Did s (.look w)
      ({ s with dispatcher := s.dispatcher.countTick }.assign w
        { wanted := s.dispatcher.pending.ids })
  | meant {w : WorkerId} {id : CallId} :
    s.workers w = {} → Did s (.want w id) (s.assign w { wanted := [id] })
  | missed {w : WorkerId} {id : CallId} {rest : List CallId} :
    s.workers w = { wanted := id :: rest } → s.dispatcher.pending.waiting.get? id = none →
    Did s (.take w) (s.assign w { wanted := rest })
  | taken {w : WorkerId} {id : CallId} {rest : List CallId} {c : Continuation} :
    s.workers w = { wanted := id :: rest } → s.dispatcher.pending.waiting.get? id = some c →
    Did s (.take w)
      (({ s with dispatcher := (s.dispatcher.without id).countResume }.assign w
        { wanted := rest }).invoke w c.turn)
  | failed {w : WorkerId} {result : Except Interrupt Step} {p : Turn} (world : World)
    (e : CallError) :
    (s.workers w).activity = .running p →
    Did s (.handle w result world)
      ({ s with dispatcher := { s.dispatcher with world } }.conclude w p.ctx (.failed e))
  | finished {w : WorkerId} {p : Turn} (world : World) (value : Option NativeValue) :
    (s.workers w).activity = .running p →
    Did s (.handle w (.ok (.complete value)) world)
      ({ s with dispatcher := { s.dispatcher with world } }.occupy w
        (.writing p (returnDraft s.dispatcher.catalog.services p value)))
  | yielded {w : WorkerId} {p : Turn} (world : World) (progress : NativeValue) :
    (s.workers w).activity = .running p →
    Did s (.handle w (.ok (.yield progress)) world)
      ({ s with dispatcher := { s.dispatcher with world } }.occupy w
        (.parking (p.parked progress)))
  | kept {w : WorkerId} {c : Continuation} :
    (s.workers w).activity = .parking c →
    s.dispatcher.pending.closed.contains c.ctx.connection = false →
    Did s (.proceed w)
      (({ s with dispatcher := { s.dispatcher with pending := s.dispatcher.pending.keep (some c) }
        }.remember (.parked c)).conclude w c.ctx (.continuing c.ctx.call))
  | turnedAway {w : WorkerId} {c : Continuation} :
    (s.workers w).activity = .parking c →
    s.dispatcher.pending.closed.contains c.ctx.connection = true →
    Did s (.proceed w)
      (s.conclude w c.ctx (.failed (Dispatcher.connectionGone c.ctx.connection)))
  | entered {w : WorkerId} {p : Turn} {object : Instance} {className : String}
    {rest : ObjectId → Draft (Option Value)} :
    (s.workers w).activity = .writing p (.enter object className rest) →
    Did s (.proceed w)
      ({ s with dispatcher := { s.dispatcher with
          objects := (s.dispatcher.objects.register object className p.ctx.connection).2 }
        }.occupy w (.writing p
          (rest (s.dispatcher.objects.register object className p.ctx.connection).1.id)))
  | written {w : WorkerId} {p : Turn} {draft : Draft (Option Value)} {outcome : Outcome} :
    (s.workers w).activity = .writing p draft → outcome.isFinal = true →
    Did s (.proceed w) (s.conclude w p.ctx outcome)
  | vacated (connection : ConnectionId) :
    Did s (.vacate connection)
      ({ s with dispatcher :=
          { s.dispatcher with objects := (s.dispatcher.objects.releaseOwner connection).2 }
        }.remember (.vacated connection))
  | cleared (connection : ConnectionId) :
    Did s (.clear connection)
      ({ s with dispatcher :=
          { s.dispatcher with pending := (s.dispatcher.pending.discardConnection connection).2 }
        }.remember (.cleared connection))
  | discarded (id : CallId) :
    Did s (.discard id) { s with dispatcher := s.dispatcher.without id }
  | released (id : ObjectId) :
    Did s (.release id)
      { s with dispatcher :=
        { s.dispatcher with objects := (s.dispatcher.objects.release id).2 } }

theorem did_dispatch (s : System) {w : WorkerId} (hfree : s.workers w = {}) (call : Call)
    (bound : Except CallError (List NativeValue)) :
    s.Did (.dispatch w call bound) (s.dispatch w call bound) := by
  unfold dispatch
  cases s.dispatcher.catalog.directory.get call.procedure with
  | error e => exact .refused e hfree
  | ok descriptor =>
      cases bound with
      | error e => exact .refused e hfree
      | ok arguments => exact .started hfree rfl rfl rfl

theorem did_take (s : System) {w : WorkerId} {id : CallId} {rest : List CallId}
    (hworker : s.workers w = { wanted := id :: rest }) : s.Did (.take w) (s.take w id rest) := by
  unfold take PendingCalls.take
  cases hget : s.dispatcher.pending.waiting.get? id with
  | none => exact .missed hworker hget
  | some c => exact .taken hworker hget

theorem did_handle (s : System) {w : WorkerId} {p : Turn}
    (hrunning : (s.workers w).activity = .running p) (result : Except Interrupt Step)
    (world : World) :
    s.Did (.handle w result world)
      ({ s with dispatcher := { s.dispatcher with world } }.handle w p result) := by
  cases result with
  | error interrupt => exact .failed world _ hrunning
  | ok step =>
      cases step with
      | complete value => exact .finished world value hrunning
      | yield progress =>
          unfold handle
          cases p.descriptor.procedure.blocking with
          | true => exact .yielded world progress hrunning
          | false => exact .failed world _ hrunning

theorem did_park (s : System) {w : WorkerId} {c : Continuation}
    (hparking : (s.workers w).activity = .parking c) : s.Did (.proceed w) (s.park w c) := by
  unfold park PendingCalls.park
  cases hclosed : s.dispatcher.pending.closed.contains c.ctx.connection with
  | true => exact .turnedAway hparking hclosed
  | false => exact .kept hparking hclosed

theorem did_write (s : System) {w : WorkerId} {p : Turn} {draft : Draft (Option Value)}
    (hwriting : (s.workers w).activity = .writing p draft) :
    s.Did (.proceed w) (s.write w p draft) := by
  cases draft with
  | done result =>
      cases result with
      | ok value => exact .written hwriting rfl
      | error e => exact .written hwriting rfl
  | enter object className rest => exact .entered hwriting

/-- Every action has done one of these things. -/
theorem did_perform (s : System) (action : Action) : s.Did action (s.perform action) := by
  cases action with
  | arrive connection => exact .arrived connection
  | dispatch w call bound =>
      rw [perform]
      split
      · next hfree => exact s.did_dispatch hfree call bound
      · exact .nothing _
  | look w =>
      rw [perform]
      split
      · next hfree => exact .looked hfree
      · exact .nothing _
  | want w id =>
      rw [perform]
      split
      · next hfree => exact .meant hfree
      · exact .nothing _
  | take w =>
      rw [perform]
      split
      · next hworker => exact s.did_take hworker
      · exact .nothing _
  | handle w result world =>
      rw [perform]
      split
      · next hrunning => exact s.did_handle hrunning result world
      · exact .nothing _
  | proceed w =>
      rw [perform]
      split
      · next hparking => exact s.did_park hparking
      · next hwriting => exact s.did_write hwriting
      · exact .nothing _
  | vacate connection => exact .vacated connection
  | clear connection => exact .cleared connection
  | discard id => exact .discarded id
  | release id => exact .released id

/-! ## What is done to the tables -/

@[simp] theorem conclude_objects (s : System) (w : WorkerId) (ctx : CallContext)
    (outcome : Outcome) :
    (s.conclude w ctx outcome).dispatcher.objects = s.dispatcher.objects := by
  cases outcome <;> rfl

@[simp] theorem conclude_pending (s : System) (w : WorkerId) (ctx : CallContext)
    (outcome : Outcome) :
    (s.conclude w ctx outcome).dispatcher.pending = s.dispatcher.pending := by
  cases outcome <;> rfl

@[simp] theorem conclude_nextCall (s : System) (w : WorkerId) (ctx : CallContext)
    (outcome : Outcome) :
    (s.conclude w ctx outcome).dispatcher.nextCall = s.dispatcher.nextCall := by
  cases outcome <;> rfl

/-- An action does at most one thing to the pending calls: it takes a call out,
    puts one in and remembers that, or gives those of a connection up. -/
theorem Did.pending {s s' : System} {action : Action} (h : s.Did action s') :
    s'.dispatcher.pending = s.dispatcher.pending ∨
      (∃ id, s'.dispatcher.pending = (s.dispatcher.without id).pending) ∨
      (∃ c, s.dispatcher.pending.closed.contains c.ctx.connection = false ∧
        .parked c ∈ s'.history ∧
        s'.dispatcher.pending = s.dispatcher.pending.keep (some c)) ∨
      ∃ connection,
        s'.dispatcher.pending = (s.dispatcher.pending.discardConnection connection).2 := by
  cases h with
  | taken _ _ => exact Or.inr (Or.inl ⟨_, rfl⟩)
  | discarded id => exact Or.inr (Or.inl ⟨id, rfl⟩)
  | kept _ hopen =>
      exact Or.inr (Or.inr (Or.inl ⟨_, hopen, .tail _ (.head _), conclude_pending ..⟩))
  | cleared connection => exact Or.inr (Or.inr (Or.inr ⟨connection, rfl⟩))
  | refused => exact Or.inl (conclude_pending ..)
  | failed => exact Or.inl (conclude_pending ..)
  | turnedAway => exact Or.inl (conclude_pending ..)
  | written => exact Or.inl (conclude_pending ..)
  | _ => exact Or.inl rfl

/-- An action adds to the history, and a half of a disconnect only where it
    happens. -/
theorem Did.history {s s' : System} {action : Action} (h : s.Did action s') :
    ∃ recent, s'.history = recent ++ s.history ∧ ∀ connection,
      (.vacated connection ∈ recent → action = .vacate connection) ∧
      (.cleared connection ∈ recent → action = .clear connection) := by
  cases h with
  | started => exact ⟨[_], rfl, by simp⟩
  | refused => exact ⟨[_], rfl, by simp⟩
  | taken => exact ⟨[_], rfl, by simp⟩
  | failed => exact ⟨[_], rfl, by simp⟩
  | kept => exact ⟨[_, _], rfl, by simp⟩
  | turnedAway => exact ⟨[_], rfl, by simp⟩
  | written => exact ⟨[_], rfl, by simp⟩
  | vacated => exact ⟨[_], rfl, by simp [eq_comm]⟩
  | cleared => exact ⟨[_], rfl, by simp [eq_comm]⟩
  | _ => exact ⟨[], rfl, by simp⟩

theorem history_replay (s : System) (actions : List Action) :
    ∃ recent, (s.replay actions).history = recent ++ s.history := by
  induction actions generalizing s with
  | nil => exact ⟨[], rfl⟩
  | cons action rest ih =>
      rcases ih (s.perform action) with ⟨recent, hrest⟩
      rcases (s.did_perform action).history with ⟨first, hfirst, _⟩
      refine ⟨recent ++ first, ?_⟩
      rw [List.append_assoc, ← hfirst]
      exact hrest

end System

end Switchboard
