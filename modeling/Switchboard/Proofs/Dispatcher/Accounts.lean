import Switchboard.Proofs.Dispatcher.Failures
import Switchboard.Proofs.Dispatcher.Finals
import Switchboard.Proofs.Dispatcher.Transcript

/-!
# Call Accounting

The counters of a server say how many calls have come in, how many have failed, and how
often a pending call was resumed. What has become of the calls is known elsewhere, by
those who made them: some were told an outcome, some wait, and some were given up. The
two agree at all times. Each call that came in has ended with a value, or has failed,
or waits, or was given up, and it is one of these only.

`Dispatcher.Counts` compares two states of a dispatcher, by what happened to calls from
the one to the other and by how many calls were given up. It composes, so what is said
of a session is put together from its operations, and of a tick from its turns. A turn
has its place in the books because it ends its call or puts it back
(`Turn.Took.size_keep`): the number of the pending calls goes down by what ends and by
what is given up, and by nothing else.

## Main definitions

* `Session.returns`, `Session.returned`: The outcomes that calls are told.
* `Session.givesUp`, `Session.givenUp`: How many calls are given up.
* `Dispatcher.Counts`: The counters agree with what happened.
* `Session.Accounts`: The counters agree with everything that happened.

## Theorems

* `dispatch_counts`, `advance_counts`: A turn of a call.
* `perform_counts`, `replay_counts`: An operation, and many.
* `returned_eq_history`: What calls are told is what happened to them.
* `calls_accounted`: The books of every session.
-/

namespace Switchboard

/-! ## What is counted -/

/-- Whether a procedure finished. -/
def Outcome.isCompleted : Outcome → Bool
  | .completed _ => true
  | _ => false

/-- Whether a call failed. -/
def Outcome.isFailed : Outcome → Bool
  | .failed _ => true
  | _ => false

/-- Whether a handler was run on what an earlier run of it had left behind. -/
def Event.isResumed (e : Event) : Bool := e.given?.isSome

/-- What is final is a success or a failure. -/
theorem countP_isFinal (outcomes : List Outcome) :
    outcomes.countP Outcome.isFinal =
      outcomes.countP Outcome.isCompleted + outcomes.countP Outcome.isFailed := by
  induction outcomes with
  | nil => rfl
  | cons outcome rest ih =>
      have hone : (if outcome.isFinal then 1 else 0) =
          (if outcome.isCompleted then 1 else 0) + if outcome.isFailed then 1 else 0 := by
        cases outcome <;> rfl
      simp only [List.countP_cons, ih, hone]
      omega

theorem length_finals (id : CallId) (events : List Event) :
    (finals id events).length =
      events.countP fun e => e.ctx.call == id && e.outcome.isFinal := by
  rw [finals, eventsOf, List.filter_map, List.length_map, List.filter_filter,
    List.countP_eq_length_filter]
  congr 1
  exact List.filter_congr fun e _ => Bool.and_comm _ _

namespace Session

/-- The outcomes that an operation gives back, with the calls that they are of. -/
def returns (s : Session) : Operation → List (CallId × Outcome)
  | .dispatch id procedure arguments =>
    ((s.callOf? id procedure arguments).map fun call => (id, (s.dispatcher.dispatch call).1)).toList
  | .tick => s.dispatcher.tick.1.map fun report => (report.1.call, report.2)
  | .resume id => ((s.dispatcher.resume id).1.map fun outcome => (id, outcome)).toList
  | _ => []

/-- How many pending calls an operation gives up, as it says itself. -/
def givesUp (s : Session) : Operation → Nat
  | .disconnect connection => (s.dispatcher.disconnect connection).1.discardedContinuations
  | .discard id => (s.dispatcher.pending.discard id).1.toNat
  | _ => 0

/-- All outcomes that are given back in a session. -/
def returned (s : Session) : List Operation → List (CallId × Outcome)
  | [] => []
  | op :: rest => s.returns op ++ (s.perform op).returned rest

/-- How many pending calls are given up in a session. -/
def givenUp (s : Session) : List Operation → Nat
  | [] => 0
  | op :: rest => s.givesUp op + (s.perform op).givenUp rest

end Session

/-! ## Turns -/

section Turn

variable {p : Turn} {services : Services} {connected : Bool} {objects objects' : ObjectTable}
  {e : Event} {next : Option Continuation}

/-- A turn ends its call or puts it back. -/
theorem Turn.Took.size_keep (h : p.Took services connected objects e next objects')
    {pending : PendingCalls} (hfree : pending.waiting.get? p.ctx.call = none) :
    (pending.keep next).size + [e.outcome].countP Outcome.isFinal = pending.size + 1 := by
  rcases h.final_or_parked with ⟨hfinal, rfl⟩ | ⟨progress, _, _, houtcome, rfl⟩
  · rw [List.countP_cons_of_pos hfinal]
    rfl
  · have hcontinues : ¬ e.outcome.isFinal = true := by
      rw [houtcome]
      exact Bool.false_ne_true
    rw [List.countP_cons_of_neg hcontinues]
    exact Table.size_insert hfree _

end Turn

namespace Dispatcher

/-- From one state of a dispatcher to another, some things happened to calls and some
    calls were given up, and the counters have gone up accordingly. Every call that
    came in has ended, or is one pending call more, or was given up. -/
structure Counts (d : Dispatcher) (events : List Event) (givenUp : Nat) (d' : Dispatcher) :
    Prop where
  balance : d'.status.callsDispatched + d.pending.size =
    d.status.callsDispatched + (events.map Event.outcome).countP Outcome.isFinal +
      d'.pending.size + givenUp
  failed : d'.status.callsFailed =
    d.status.callsFailed + (events.map Event.outcome).countP Outcome.isFailed
  resumed : d'.status.continuationsResumed =
    d.status.continuationsResumed + events.countP Event.isResumed

variable {d d' d'' : Dispatcher}

/-- Where the counters are left alone, pending calls can only have been given up. -/
theorem Counts.parting {givenUp : Nat}
    (hdispatched : d'.status.callsDispatched = d.status.callsDispatched)
    (hfailed : d'.status.callsFailed = d.status.callsFailed)
    (hresumed : d'.status.continuationsResumed = d.status.continuationsResumed)
    (hpending : d.pending.size = d'.pending.size + givenUp) : d.Counts [] givenUp d' where
  balance := by
    rw [hdispatched, hpending, List.map_nil, List.countP_nil]
    omega
  failed := hfailed
  resumed := hresumed

theorem Counts.trans {events later : List Event} {givenUp givenUpLater : Nat}
    (h : d.Counts events givenUp d') (h' : d'.Counts later givenUpLater d'') :
    d.Counts (events ++ later) (givenUp + givenUpLater) d'' := by
  have hbalance := h.balance
  have hbalance' := h'.balance
  constructor
  · rw [List.map_append, List.countP_append]
    omega
  · rw [h'.failed, h.failed, List.map_append, List.countP_append, Nat.add_assoc]
  · rw [h'.resumed, h.resumed, List.countP_append, Nat.add_assoc]

/-! ## Calls -/

/-- Of outcomes, only failures are counted. -/
theorem countOutcome_status (outcome : Outcome) (d : Dispatcher) :
    (countOutcome outcome d).status =
      { d.status with
        callsFailed := d.status.callsFailed + [outcome].countP Outcome.isFailed } := by
  cases outcome <;> rfl

theorem dispatch_status (d : Dispatcher) (call : Call) :
    (d.dispatch call).2.status =
      { d.status with
        callsDispatched := d.status.callsDispatched + 1
        callsFailed := d.status.callsFailed +
          [(d.dispatchEvent call).outcome].countP Outcome.isFailed } := by
  -- Whether there is a step or not, there is one outcome, and it is counted last.
  unfold dispatchEvent
  cases hprepare : d.prepare call with
  | error e =>
      rw [dispatch_of_error hprepare, countOutcome_status]
      rfl
  | ok p =>
      rw [dispatch_of_ok hprepare, countOutcome_status, step_status]
      rfl

theorem advance_status {id : CallId} {e : Event} (h : d.advanceEvent? id = some e) :
    (d.advance id).2.status =
      { d.status with
        continuationsResumed := d.status.continuationsResumed + 1
        callsFailed := d.status.callsFailed + [e.outcome].countP Outcome.isFailed } := by
  rcases Option.map_eq_some_iff.mp h with ⟨c, hw, rfl⟩
  rw [advance_of_waiting hw, countOutcome_status, step_status]
  rfl

theorem dispatch_counts {call : Call} (hfree : d.pending.waiting.get? call.ctx.call = none) :
    d.Counts [d.dispatchEvent call] 0 (d.dispatch call).2 := by
  have hstatus := dispatch_status d call
  -- The first turn of a call has nothing to go on from.
  have hfirst : (d.dispatchEvent call).isResumed = false ∧
      (d.dispatch call).2.pending.size +
        [(d.dispatchEvent call).outcome].countP Outcome.isFinal = d.pending.size + 1 := by
    cases hprepare : d.prepare call with
    | error error =>
        rcases dispatch_refused hprepare with ⟨hevent, hbecame⟩
        rw [hevent, hbecame.pending]
        exact ⟨rfl, rfl⟩
    | ok p =>
        rcases dispatch_prepared hprepare with ⟨next, objects', htook, hbecame⟩
        rcases prepare_eq_ok hprepare with ⟨descriptor, arguments, _, _, rfl⟩
        rw [hbecame.pending, Event.isResumed, htook.given]
        exact ⟨rfl, htook.size_keep hfree⟩
  constructor
  · have hsize := hfirst.2
    rw [hstatus, List.map_singleton]
    simp only
    omega
  · rw [hstatus, List.map_singleton]
  · rw [List.countP_cons_of_neg (by rw [hfirst.1]; exact Bool.false_ne_true), hstatus]
    rfl

theorem advance_counts (horderly : d.pending.Orderly) (id : CallId) :
    d.Counts (d.advanceEvent? id).toList 0 (d.advance id).2 := by
  cases hw : d.pending.waiting.get? id with
  | none =>
      rcases advance_absent hw with ⟨hevent, hadvance⟩
      rw [hevent, hadvance]
      exact .parting rfl rfl rfl rfl
  | some c =>
      rcases advance_waiting hw with ⟨e, next, objects', hevent, _, htook, hbecame⟩
      have hstatus := advance_status hevent
      -- It is taken out for its turn, so that there is room for it to be put back.
      have hfree : (d.without id).pending.waiting.get? c.turn.ctx.call = none := by
        have hnamed : c.turn.ctx.call = id := horderly.named hw
        rw [hnamed]
        exact (Table.get?_erase _ _ _).trans (if_pos rfl)
      have hsize := htook.size_keep hfree
      have htaken : (d.without id).pending.size + 1 = d.pending.size := Table.size_erase hw
      have hresumed : e.isResumed = true := by
        rw [Event.isResumed, htook.given]
        rfl
      rw [hevent]
      constructor
      · rw [hbecame.pending, hstatus, Option.toList_some, List.map_singleton]
        simp only
        omega
      · rw [hstatus]
        rfl
      · rw [hstatus, Option.toList_some, List.countP_cons_of_pos hresumed]
        rfl

theorem advanceAll_counts (horderly : d.pending.Orderly) (ids : List CallId) :
    d.Counts (d.advanceEvents ids) 0 (d.advanceAll ids).2 := by
  induction ids generalizing d with
  | nil => exact .parting rfl rfl rfl rfl
  | cons id rest ih =>
      exact (advance_counts horderly id).trans (ih (advance_unmoved horderly id).orderly)

end Dispatcher

/-! ## Sessions -/

namespace Session

variable {s : Session}

theorem perform_counts (h : s.Sound) (op : Operation) :
    s.dispatcher.Counts (s.events op) (s.givesUp op) (s.perform op).dispatcher := by
  cases op with
  | dispatch id procedure arguments =>
      cases hissued : s.issued.get? id with
      | none =>
          rcases dispatch_unissued hissued procedure arguments with ⟨hperform, hevents⟩
          rw [hperform, hevents]
          exact .parting rfl rfl rfl rfl
      | some connection =>
          rcases dispatch_issued hissued procedure arguments with ⟨hperform, hevents⟩
          rw [hperform, hevents]
          exact Dispatcher.dispatch_counts (h.apart hissued)
  | tick =>
      have hcounted : s.dispatcher.Counts [] 0 s.dispatcher.countTick := .parting rfl rfl rfl rfl
      exact hcounted.trans (Dispatcher.advanceAll_counts (d := s.dispatcher.countTick) h.orderly _)
  | resume id => exact Dispatcher.advance_counts h.orderly id
  | disconnect connection =>
      -- What is given up and what is left are the two parts of what was there.
      have hparts := s.dispatcher.pending.waiting.size_filter_add_size_filter_not
        fun _ c => c.ctx.connection == connection
      have hbalance : s.dispatcher.pending.size =
          (s.perform (.disconnect connection)).dispatcher.pending.size +
            s.givesUp (.disconnect connection) := hparts.symm.trans (Nat.add_comm _ _)
      exact .parting rfl rfl rfl hbalance
  | discard id =>
      have hbalance : s.dispatcher.pending.size =
          (s.perform (.discard id)).dispatcher.pending.size + s.givesUp (.discard id) :=
        (s.dispatcher.pending.waiting.size_erase_add_contains id).symm
      exact .parting rfl rfl rfl hbalance
  | issue _ | release _ | alter _ | report _ => exact .parting rfl rfl rfl rfl

theorem replay_counts (h : s.Sound) (operations : List Operation) :
    s.dispatcher.Counts (s.history operations) (s.givenUp operations)
      (s.replay operations).dispatcher := by
  induction operations generalizing s with
  | nil => exact .parting rfl rfl rfl rfl
  | cons op rest ih => exact (perform_counts h op).trans (ih (sound_perform h op))

/-! ## What calls are told -/

theorem returns_eq_events (h : s.Sound) (op : Operation) :
    s.returns op = (s.events op).map fun e => (e.ctx.call, e.outcome) := by
  cases op with
  | dispatch id procedure arguments =>
      simp only [returns, events, callOf?]
      cases s.issued.get? id <;> rfl
  | tick =>
      simp only [returns, events, Dispatcher.tick_results, List.map_map]
      rfl
  | resume id =>
      simp only [returns, events, Dispatcher.resume]
      cases hw : s.dispatcher.pending.waiting.get? id with
      | none =>
          rcases Dispatcher.advance_absent hw with ⟨hevent, hadvance⟩
          rw [hevent, hadvance]
          rfl
      | some c =>
          rcases Dispatcher.advance_waiting hw with ⟨e, _, _, hevent, hresult, htook, _⟩
          have hcall : e.ctx.call = id := by
            rw [htook.ctx]
            exact h.orderly.named hw
          rw [hevent, hresult, ← hcall]
          rfl
  | issue _ | release _ | disconnect _ | discard _ | alter _ | report _ => rfl

theorem returned_eq_history (h : s.Sound) (operations : List Operation) :
    s.returned operations = (s.history operations).map fun e => (e.ctx.call, e.outcome) := by
  induction operations generalizing s with
  | nil => rfl
  | cons op rest ih =>
      rw [returned, history, List.map_append, returns_eq_events h op, ih (sound_perform h op)]

/-- The counters of a session agree with everything that happened in it from its
    beginning on, and no call was told two final outcomes. -/
structure Accounts (beginning : Session) (operations : List Operation) (s : Session) : Prop where
  dispatched : s.dispatcher.status.callsDispatched =
    ((beginning.returned operations).map Prod.snd).countP Outcome.isCompleted +
      s.dispatcher.status.callsFailed + s.dispatcher.pending.size + beginning.givenUp operations
  failed : s.dispatcher.status.callsFailed =
    ((beginning.returned operations).map Prod.snd).countP Outcome.isFailed
  resumed : s.dispatcher.status.continuationsResumed =
    (beginning.history operations).countP Event.isResumed
  once : ∀ id, (beginning.returned operations).countP
    (fun told => told.1 == id && told.2.isFinal) ≤ 1

/-- The books of every session, in every state of it. -/
theorem calls_accounted (catalog : Catalog) (config : ServerConfig) (world : World)
    (operations : List Operation) :
    (fresh catalog config world).Accounts operations
      ((fresh catalog config world).replay operations) := by
  have hsound := sound_fresh catalog config world
  have hcounts := replay_counts hsound operations
  have hreturned := returned_eq_history hsound operations
  have houtcomes : ((fresh catalog config world).returned operations).map Prod.snd =
      ((fresh catalog config world).history operations).map Event.outcome := by
    rw [hreturned, List.map_map]
    rfl
  -- In the beginning every counter is zero and nothing is pending.
  have hfailed := hcounts.failed.trans (Nat.zero_add _)
  constructor
  · have hbalance := hcounts.balance
    rw [countP_isFinal, ← hfailed, ← houtcomes] at hbalance
    refine hbalance.trans ?_
    rw [show (fresh catalog config world).dispatcher.status.callsDispatched = 0 from rfl]
    omega
  · rw [houtcomes, hfailed]
  · exact hcounts.resumed.trans (Nat.zero_add _)
  · intro id
    have honce := ((Record.valid_replay (Record.valid_fresh catalog config world)
      operations).accounted id).once
    rw [List.nil_append, length_finals] at honce
    rw [hreturned, List.countP_map]
    exact honce

end Session

end Switchboard
