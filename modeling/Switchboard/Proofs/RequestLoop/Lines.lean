import Switchboard.Proofs.RequestLoop.Requests

/-!
# Lines

The queue of the loop is shared, and the calls of all connections stand in it in the
order in which they were handed in. Seen from one connection it is a line of its own.
Its calls join the line at the end. A tick takes as many as the limit allows from the
front, because the budget of a connection is used up by its own calls only. And if the
connection is cut off the line is empty. Nothing else happens to it, whatever other
connections do.

`Line` is that line, with the calls that have left it at the front. It is moved by the
tasks of the desk, and it is all that one connection can see of the queue: the calls of
the connection in a run of the loop move as the line does (`Run.line_replay`). Only the
numbers of the batches are given out over all connections.

## Main definitions

* `callsOf`: The calls of one connection in a queue.
* `Line`, `Line.perform`: The line of a connection, and what a task does to it.
* `Run.line`: The line of a connection in a run.

## Theorems

* `callsOf_takeRunnable`: A budget takes from the front of each line.
* `Run.line_perform`, `Run.line_replay`: Runs move the line of a connection as if it
  were alone.
-/

namespace Switchboard

/-- The calls of one connection. -/
def callsOf (connection : ConnectionId) (queue : List Queued) : List Queued :=
  queue.filter fun q => q.connection == connection

variable {connection : ConnectionId}

theorem callsOf_append (queue later : List Queued) :
    callsOf connection (queue ++ later) = callsOf connection queue ++ callsOf connection later :=
  List.filter_append ..

theorem callsOf_cons_self {q : Queued} (h : q.connection = connection) (queue : List Queued) :
    callsOf connection (q :: queue) = q :: callsOf connection queue :=
  List.filter_cons_of_pos (beq_iff_eq.mpr h)

theorem callsOf_cons_other {q : Queued} (h : q.connection ≠ connection) (queue : List Queued) :
    callsOf connection (q :: queue) = callsOf connection queue :=
  List.filter_cons_of_neg (mt beq_iff_eq.mp h)

/-! ## Budgets -/

/-- What is left of the budget of a connection is taken from the front of its line. -/
theorem callsOf_takeRunnable (connection : ConnectionId) (limit : Nat) (counted : Table Nat)
    (queue : List Queued) :
    callsOf connection (takeRunnable limit counted queue).1 =
        (callsOf connection queue).take (limit - (counted.get? connection).getD 0) ∧
      callsOf connection (takeRunnable limit counted queue).2 =
        (callsOf connection queue).drop (limit - (counted.get? connection).getD 0) := by
  induction queue generalizing counted with
  | nil => exact ⟨List.take_nil.symm, List.drop_nil.symm⟩
  | cons q rest ih =>
      unfold takeRunnable
      by_cases hown : q.connection = connection
      · by_cases hused : (counted.get? q.connection).getD 0 < limit
        · -- One more of the line is taken, and one less may be taken after it.
          have hcounted : ((counted.insert q.connection
              ((counted.get? q.connection).getD 0 + 1)).get? connection).getD 0 =
              (counted.get? connection).getD 0 + 1 := by
            rw [hown, Table.get?_insert, if_pos rfl, Option.getD_some]
          have hleft : limit - (counted.get? connection).getD 0 =
              limit - ((counted.get? connection).getD 0 + 1) + 1 := by
            rw [hown] at hused
            omega
          simp only [if_pos hused, callsOf_cons_self hown, ih, hcounted, hleft,
            List.take_succ_cons, List.drop_succ_cons, and_self]
        · -- The budget is used up.
          have hleft : limit - (counted.get? connection).getD 0 = 0 := by
            rw [hown] at hused
            omega
          simp only [if_neg hused, callsOf_cons_self hown, ih, hleft, List.take_zero,
            List.drop_zero, and_self]
      · by_cases hused : (counted.get? q.connection).getD 0 < limit
        · -- It counts for another connection.
          have hcounted : (counted.insert q.connection
              ((counted.get? q.connection).getD 0 + 1)).get? connection =
              counted.get? connection := by
            rw [Table.get?_insert, if_neg (Ne.symm hown)]
          simp only [if_pos hused, callsOf_cons_other hown, ih, hcounted, and_self]
        · simp only [if_neg hused, callsOf_cons_other hown, ih, and_self]

/-- A tick may take as many calls of each connection as the configuration says. -/
theorem ServerConfig.callsOf_takeRunnable {config : ServerConfig} {limit : Nat}
    (h : config.maxCallsPerTick = some limit) (connection : ConnectionId) (queue : List Queued) :
    callsOf connection (config.takeRunnable queue).1 =
        (callsOf connection queue).take (max limit 1) ∧
      callsOf connection (config.takeRunnable queue).2 =
        (callsOf connection queue).drop (max limit 1) := by
  unfold ServerConfig.takeRunnable
  rw [h]
  have hparts := Switchboard.callsOf_takeRunnable connection (max limit 1) {} queue
  rwa [Table.get?_emptyCollection, Option.getD_none, Nat.sub_zero] at hparts

/-! ## The line of a connection -/

/-- The calls of a connection: those that were dispatched, oldest first, and those that
    wait to be, in the order in which they will be. -/
structure Line where
  started : List Queued := []
  waiting : List Queued := []

/-- The number of the next batch after a task. -/
def Task.nextBatch (next : BatchId) : Task → BatchId
  | .submit _ request => if request.calls.isEmpty then next else next + 1
  | _ => next

/-- The calls that a task hands in for a connection. -/
def Task.handsIn (connection : ConnectionId) (next : BatchId) : Task → List Queued
  | .submit c request => callsOf connection (RequestLoop.entriesOf next c request.calls)
  | _ => []

namespace Line

/-- What a task does to the line of a connection: calls join it at the end, a tick takes
    some from the front, and a task that cuts the connection off empties it. -/
def perform (limit : Nat) (connection : ConnectionId) (next : BatchId) (x : Line) : Task → Line
  | .submit c request =>
    { x with waiting := x.waiting ++ (Task.submit c request).handsIn connection next }
  | .tick => ⟨x.started ++ x.waiting.take limit, x.waiting.drop limit⟩
  | task => if task.severs connection then { x with waiting := [] } else x

/-- One task after the other, with the number of the next batch. -/
def replay (limit : Nat) (connection : ConnectionId) : BatchId → Line → List Task → Line
  | _, x, [] => x
  | next, x, task :: rest =>
    replay limit connection (task.nextBatch next) (x.perform limit connection next task) rest

end Line

namespace Ledger

/-- Dispatched calls are entered in the order in which they are dispatched. -/
theorem entries_startAll (g : Ledger) (todo : List Queued) :
    (todo.foldl start g).starts.map Start.entry = g.starts.map Start.entry ++ todo := by
  induction todo generalizing g with
  | nil => exact (List.append_nil _).symm
  | cons q rest ih =>
      rw [List.foldl_cons, ih, start, List.map_append, List.append_assoc]
      rfl

end Ledger

namespace Run

/-- The line of a connection in a run. -/
def line (r : Run) (connection : ConnectionId) : Line where
  started := callsOf connection (r.ledger.starts.map Start.entry)
  waiting := callsOf connection r.desk.loop.queue

/-- The calls that a tick dispatches. -/
theorem line_tick {r : Run} {limit : Nat}
    (h : r.desk.loop.dispatcher.config.maxCallsPerTick = some limit) :
    (r.perform .tick).line connection =
      ⟨(r.line connection).started ++ (r.line connection).waiting.take (max limit 1),
        (r.line connection).waiting.drop (max limit 1)⟩ := by
  rcases ServerConfig.callsOf_takeRunnable h connection r.desk.loop.queue with
    ⟨hrunnable, hheldBack⟩
  refine Line.mk.injEq .. ▸ ⟨?_, ?_⟩
  · have hstarts := Ledger.entries_startAll (r.ledger.operate .tick)
      (r.desk.loop.dispatcher.config.takeRunnable r.desk.loop.queue).1
    simp only [line, perform, Ledger.enter, hstarts, callsOf_append, hrunnable]
    rfl
  · have hqueue : (r.perform .tick).desk.loop.queue =
        (r.desk.loop.dispatcher.config.takeRunnable r.desk.loop.queue).2 :=
      r.desk.loop.tick_queue
    simp only [line, hqueue, hheldBack]

theorem line_submit (r : Run) (c : ConnectionId) (request : Request) :
    (r.perform (.submit c request)).line connection =
      { r.line connection with waiting := (r.line connection).waiting ++
          (Task.submit c request).handsIn connection r.desk.loop.nextBatch } := by
  simp only [line, perform, Ledger.enter, Ledger.file, Desk.perform, Desk.submit,
    RequestLoop.submit, Task.handsIn]
  split
  next hempty =>
    -- Without calls there is nothing to hand in.
    rw [List.isEmpty_iff.mp hempty]
    exact congrArg (Line.mk _) (List.append_nil _).symm
  next => rw [callsOf_append]

theorem line_disconnect (r : Run) (c : ConnectionId) :
    (r.perform (.disconnect c)).line connection =
      if c == connection then { r.line connection with waiting := [] } else r.line connection := by
  have hstarts : (r.ledger.enter r.desk (.disconnect c)).starts = r.ledger.starts := by
    unfold Ledger.enter
    simp only
    split <;> rfl
  have hqueue : (r.desk.perform (.disconnect c)).loop.queue =
      r.desk.loop.queue.filter fun q => q.connection != c := rfl
  simp only [line, perform, hstarts, hqueue, callsOf, List.filter_filter]
  by_cases hc : c = connection
  · -- What is left of the queue is for others.
    rw [if_pos (beq_iff_eq.mpr hc)]
    refine congrArg (Line.mk _) (List.filter_eq_nil_iff.mpr fun q _ => ?_)
    simp [hc]
  · rw [if_neg (mt beq_iff_eq.mp hc)]
    refine congrArg (Line.mk _) (List.filter_congr fun q _ => ?_)
    by_cases hown : q.connection = connection
    · simp [hown, Ne.symm hc]
    · simp [hown]

/-- A task does to the line of a connection what it does to a line. -/
theorem line_perform {r : Run} {limit : Nat}
    (h : r.desk.loop.dispatcher.config.maxCallsPerTick = some limit) (task : Task) :
    (r.perform task).line connection =
      (r.line connection).perform (max limit 1) connection r.desk.loop.nextBatch task := by
  cases task with
  | submit c request => exact line_submit r c request
  | disconnect c => exact line_disconnect r c
  | tick => exact line_tick h
  | shutdown => rfl
  | clients now => rfl
  | alter world => rfl

theorem nextBatch_perform (r : Run) (task : Task) :
    (r.perform task).desk.loop.nextBatch = task.nextBatch r.desk.loop.nextBatch := by
  cases task with
  | submit c request =>
      simp only [perform, Desk.perform, Desk.submit, RequestLoop.submit, Task.nextBatch]
      split <;> rfl
  | tick => exact r.desk.loop.tick_nextBatch
  | _ => rfl

theorem config_perform (r : Run) (task : Task) :
    (r.perform task).desk.loop.dispatcher.config = r.desk.loop.dispatcher.config := by
  cases task with
  | submit c request =>
      simp only [perform, Desk.perform, Desk.submit, RequestLoop.submit]
      split <;> rfl
  | disconnect c =>
      rcases RequestLoop.disconnect_eq r.desk.loop c with ⟨_, _, hdispatcher⟩ | ⟨_, hdispatcher⟩
      · exact congrArg Dispatcher.config hdispatcher
      · exact (congrArg Dispatcher.config hdispatcher).trans rfl
  | tick => exact r.desk.loop.tick_config
  | _ => rfl

theorem config_replay (r : Run) (tasks : List Task) :
    (r.replay tasks).desk.loop.dispatcher.config = r.desk.loop.dispatcher.config := by
  induction tasks generalizing r with
  | nil => rfl
  | cons task rest ih => exact (ih (r.perform task)).trans (r.config_perform task)

/-- However the loop is driven, the line of a connection moves as if it were alone. -/
theorem line_replay {r : Run} {limit : Nat}
    (h : r.desk.loop.dispatcher.config.maxCallsPerTick = some limit) (tasks : List Task) :
    (r.replay tasks).line connection =
      (r.line connection).replay (max limit 1) connection r.desk.loop.nextBatch tasks := by
  induction tasks generalizing r with
  | nil => rfl
  | cons task rest ih =>
      rw [replay_cons, ih ((congrArg _ (r.config_perform task)).trans h), line_perform h,
        nextBatch_perform]
      rfl

end Run

end Switchboard
