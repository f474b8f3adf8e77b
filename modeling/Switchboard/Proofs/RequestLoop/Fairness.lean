import Switchboard.Proofs.RequestLoop.Answers
import Switchboard.Proofs.RequestLoop.Lines

/-!
# Fair Shares

With a limit on fresh calls, how long a call waits depends on the calls of its own
connection that are in line before it, and on nothing else. A tick takes as many as the
limit from the front of the line, so the call that has `k` others before it is taken by
the tick that comes after `k / limit` others, unless the connection is cut off before.

All of this is said of lines, where there is only one connection. The calls in a line
are those that were handed in, in that order, and a task either adds to them or cuts the
waiting ones off; so the calls that were dispatched are in the order in which they were
handed in. A call that was cut off does not come back, because later calls are in later
batches.

## Main definitions

* `handedIn`: The calls that tasks hand in for a connection.
* `ticksBefore`: How many ticks come before a connection is cut off.
* `Line.Fresh`: No call is twice in a line, and later calls are in later batches.

## Theorems

* `Line.all_perform`, `Line.all_replay_sublist`: A line keeps the order of its calls.
* `Line.Fresh.mem_started_replay_iff`: In which tick a call is dispatched.
* `Run.limited_fairly`: So it is in every run.
-/

namespace Switchboard

/-- The calls that tasks hand in for a connection, in the order in which they do. -/
def handedIn (connection : ConnectionId) : BatchId → List Task → List Queued
  | _, [] => []
  | next, task :: rest =>
    task.handsIn connection next ++ handedIn connection (task.nextBatch next) rest

def Task.isTick : Task → Bool
  | .tick => true
  | _ => false

/-- How many ticks there are before a task cuts the connection off. -/
def ticksBefore (connection : ConnectionId) (tasks : List Task) : Nat :=
  (tasks.takeWhile fun task => !task.severs connection).countP Task.isTick

variable {limit : Nat} {connection : ConnectionId} {next : BatchId} {q : Queued}

/-! ## What is handed in -/

namespace Task

/-- What is handed in is in the next batch, and then there is another next one. -/
theorem mem_handsIn {task : Task} (h : q ∈ task.handsIn connection next) :
    q.batch = next ∧ task.nextBatch next = next + 1 := by
  cases task with
  | submit c request =>
      rcases mem_entriesOf_iff.mp (List.mem_filter.mp h).1 with ⟨hbatch, -, hcall⟩
      refine ⟨hbatch, if_neg fun hempty => ?_⟩
      rw [List.isEmpty_iff.mp hempty] at hcall
      exact nomatch hcall
  | _ => exact absurd h List.not_mem_nil

theorem nodup_handsIn (task : Task) : (task.handsIn connection next).Nodup := by
  cases task with
  | submit c request =>
      have hplaces : ((RequestLoop.entriesOf next c request.calls).map Queued.place).Nodup := by
        rw [map_place_entriesOf]
        exact List.nodup_range.map fun _ _ h => (Prod.mk.inj h).2
      exact (List.Nodup.of_map _ hplaces).filter _
  | _ => exact List.nodup_nil

theorem handsIn_of_severs {task : Task} (h : task.severs connection = true) :
    task.handsIn connection next = [] := by
  cases task with
  | submit c request => exact nomatch h
  | _ => rfl

theorem le_nextBatch (task : Task) : next ≤ task.nextBatch next := by
  cases task with
  | submit c request =>
      rw [nextBatch]
      split
      · exact Nat.le_refl _
      · exact Nat.le_succ _
  | _ => exact Nat.le_refl _

end Task

theorem le_batch_of_mem_handedIn {tasks : List Task} (h : q ∈ handedIn connection next tasks) :
    next ≤ q.batch := by
  induction tasks generalizing next with
  | nil => exact absurd h List.not_mem_nil
  | cons task rest ih =>
      rcases List.mem_append.mp h with hnow | hlater
      · exact Nat.le_of_eq (Task.mem_handsIn hnow).1.symm
      · exact Nat.le_trans task.le_nextBatch (ih hlater)

namespace Line

variable {x : Line}

/-! ## The order of a line -/

/-- The calls of a line in the order in which they joined it. -/
def all (x : Line) : List Queued := x.started ++ x.waiting

theorem perform_of_severs {task : Task} (h : task.severs connection = true) :
    x.perform limit connection next task = { x with waiting := [] } := by
  cases task with
  | submit c request => exact nomatch h
  | tick => exact nomatch h
  | clients now => exact nomatch h
  | alter world => exact nomatch h
  | disconnect c => exact if_pos h
  | shutdown => rfl

/-- Of a task that does not cut the connection off a line keeps everything. -/
theorem all_perform {task : Task} (h : task.severs connection = false) :
    (x.perform limit connection next task).all = x.all ++ task.handsIn connection next := by
  cases task with
  | submit c request => exact (List.append_assoc ..).symm
  | tick =>
      simp only [all, perform, Task.handsIn, List.append_assoc, List.take_append_drop,
        List.append_nil]
  | disconnect c =>
      simp only [all, perform, h, Bool.false_eq_true, if_false, Task.handsIn, List.append_nil]
  | shutdown => exact Bool.noConfusion h
  | clients now => exact (List.append_nil _).symm
  | alter world => exact (List.append_nil _).symm

theorem started_prefix_perform (task : Task) :
    x.started <+: (x.perform limit connection next task).started := by
  cases task with
  | tick => exact List.prefix_append ..
  | disconnect c =>
      simp only [perform]
      split <;> exact List.prefix_rfl
  | _ => exact List.prefix_rfl

theorem started_prefix_replay (tasks : List Task) :
    x.started <+: (x.replay limit connection next tasks).started := by
  induction tasks generalizing next x with
  | nil => exact List.prefix_rfl
  | cons task rest ih => exact (started_prefix_perform task).trans ih

/-- The calls in a line are some of those that were in it and of those that were handed
    in since, in that order. -/
theorem all_replay_sublist (tasks : List Task) :
    (x.replay limit connection next tasks).all.Sublist
      (x.all ++ handedIn connection next tasks) := by
  induction tasks generalizing next x with
  | nil => exact (List.append_nil x.all).symm ▸ List.Sublist.refl _
  | cons task rest ih =>
      refine ih.trans ?_
      rw [handedIn, ← List.append_assoc]
      refine List.Sublist.append_right ?_ _
      cases hsevers : task.severs connection with
      | false => exact all_perform hsevers ▸ List.Sublist.refl _
      | true =>
          rw [perform_of_severs hsevers, Task.handsIn_of_severs hsevers, all, all,
            List.append_nil, List.append_nil]
          exact List.sublist_append_left ..

/-- If the connection is never cut off they are all of those. -/
theorem all_replay {tasks : List Task} (h : ∀ task ∈ tasks, task.severs connection = false) :
    (x.replay limit connection next tasks).all = x.all ++ handedIn connection next tasks := by
  induction tasks generalizing next x with
  | nil => exact (List.append_nil x.all).symm
  | cons task rest ih =>
      rw [List.forall_mem_cons] at h
      rw [replay, ih h.2, all_perform h.1, handedIn, List.append_assoc]

/-! ## The tick of a call -/

/-- No call is twice in the line, and every call is in a batch before the next. -/
structure Fresh (next : BatchId) (x : Line) : Prop where
  once : x.all.Nodup
  below : ∀ q ∈ x.all, q.batch < next

theorem Fresh.perform (h : x.Fresh next) (task : Task) :
    (x.perform limit connection next task).Fresh (task.nextBatch next) := by
  cases hsevers : task.severs connection with
  | true =>
      rw [perform_of_severs hsevers]
      have hsublist : ({ x with waiting := [] } : Line).all.Sublist x.all :=
        List.Sublist.append_left (List.nil_sublist _) _
      refine ⟨h.once.sublist hsublist, fun q hq => ?_⟩
      exact Nat.lt_of_lt_of_le (h.below q (hsublist.subset hq)) task.le_nextBatch
  | false =>
      constructor
      · rw [all_perform hsevers, List.nodup_append]
        refine ⟨h.once, task.nodup_handsIn, ?_⟩
        -- What is handed in is in a batch that was not there before.
        rintro q hold _ hnew rfl
        exact absurd (Task.mem_handsIn hnew).1 (Nat.ne_of_lt (h.below q hold))
      · rw [all_perform hsevers]
        intro q hq
        rcases List.mem_append.mp hq with hold | hnew
        · exact Nat.lt_of_lt_of_le (h.below q hold) task.le_nextBatch
        · rcases Task.mem_handsIn hnew with ⟨hbatch, hnext⟩
          rw [hbatch, hnext]
          exact Nat.lt_succ_self next

/-- What waits has not been dispatched. -/
theorem Fresh.not_mem_started (h : x.Fresh next) (hq : q ∈ x.waiting) : q ∉ x.started :=
  fun hstarted => (List.nodup_append.mp h.once).2.2 q hstarted q hq rfl

/-- A call that has been cut off is not dispatched any more. -/
theorem Fresh.not_mem_replay_of_severs (h : x.Fresh next) (hq : q ∈ x.waiting) {task : Task}
    (hsevers : task.severs connection = true) (rest : List Task) :
    q ∉ (x.replay limit connection next (task :: rest)).started := by
  rw [Line.replay, perform_of_severs hsevers]
  intro hstarted
  have hmem := (all_replay_sublist rest).subset (List.mem_append_left _ hstarted)
  rcases List.mem_append.mp hmem with hold | hnew
  · rw [all, List.append_nil] at hold
    exact h.not_mem_started hq hold
  · have hbelow := h.below q (List.mem_append_right _ hq)
    have hle := Nat.le_trans task.le_nextBatch (le_batch_of_mem_handedIn hnew)
    exact absurd hbelow (Nat.not_lt.mpr hle)

theorem ticksBefore_of_severs {task : Task} (h : task.severs connection = true)
    (rest : List Task) : ticksBefore connection (task :: rest) = 0 := by
  rw [ticksBefore, List.takeWhile_cons_of_neg (by rw [h]; exact Bool.false_ne_true)]
  rfl

theorem ticksBefore_of_kept {task : Task} (h : task.severs connection = false)
    (rest : List Task) :
    ticksBefore connection (task :: rest) =
      ticksBefore connection rest + if task.isTick then 1 else 0 := by
  rw [ticksBefore, List.takeWhile_cons_of_pos (by rw [h]; rfl), List.countP_cons]
  rfl

/-- The call that has `k` others before it is dispatched by the tick that comes after
    `k / limit` others, unless the connection is cut off before. -/
theorem Fresh.mem_started_replay_iff (hlimit : 0 < limit) {tasks : List Task}
    (h : x.Fresh next) {k : Nat} (hk : x.waiting[k]? = some q) :
    q ∈ (x.replay limit connection next tasks).started ↔
      k / limit < ticksBefore connection tasks := by
  induction tasks generalizing next x k with
  | nil => exact iff_of_false (h.not_mem_started (List.mem_of_getElem? hk)) (Nat.not_lt_zero _)
  | cons task rest ih =>
      cases hsevers : task.severs connection with
      | true =>
          rw [ticksBefore_of_severs hsevers]
          exact iff_of_false (h.not_mem_replay_of_severs (List.mem_of_getElem? hk) hsevers rest)
            (Nat.not_lt_zero _)
      | false =>
          have hrest : ∀ {k : Nat}, (x.perform limit connection next task).waiting[k]? = some q →
              (q ∈ (x.replay limit connection next (task :: rest)).started ↔
                k / limit < ticksBefore connection rest) := ih (h.perform task)
          rw [ticksBefore_of_kept hsevers]
          cases task with
          | submit c request =>
              have hplace := (List.getElem?_eq_some_iff.mp hk).1
              exact hrest ((List.getElem?_append_left hplace).trans hk)
          | tick =>
              rw [Task.isTick, if_pos rfl]
              by_cases hturn : k < limit
              · -- It is the turn of the call.
                have hnow : q ∈ (x.perform limit connection next .tick).started :=
                  List.mem_append_right _
                    (List.mem_of_getElem? ((List.getElem?_take_of_lt hturn).trans hk))
                rw [Nat.div_eq_of_lt hturn]
                exact iff_of_true ((started_prefix_replay rest).subset hnow) (Nat.succ_pos _)
              · -- The calls that are taken stood before it.
                have hle := Nat.not_lt.mp hturn
                have hlater : (x.perform limit connection next .tick).waiting[k - limit]? =
                    some q := by
                  rw [Line.perform, List.getElem?_drop, Nat.add_sub_cancel' hle]
                  exact hk
                rw [hrest hlater, Nat.div_eq_sub_div hlimit hle, Nat.add_lt_add_iff_right]
          | disconnect c =>
              simp only [Line.perform, hsevers, Bool.false_eq_true, if_false] at hrest
              exact hrest hk
          | shutdown => exact nomatch hsevers
          | clients now => exact hrest hk
          | alter world => exact hrest hk

end Line

namespace Run

/-- In a run no call is twice in the line of a connection. -/
theorem fresh_line_replay {r : Run} {limit : Nat}
    (hlimit : r.desk.loop.dispatcher.config.maxCallsPerTick = some limit)
    (h : (r.line connection).Fresh r.desk.loop.nextBatch) (tasks : List Task) :
    ((r.replay tasks).line connection).Fresh (r.replay tasks).desk.loop.nextBatch := by
  induction tasks generalizing r with
  | nil => exact h
  | cons task rest ih =>
      refine ih ((congrArg _ (r.config_perform task)).trans hlimit) ?_
      rw [line_perform hlimit, nextBatch_perform]
      exact h.perform task

/-- With a limit on fresh calls, whatever a desk was asked to do before. A tick
    dispatches of each connection at most as many calls as the limit, which counts as
    one if it is nought. The calls of a connection are dispatched in the order in which
    they were handed in, and while the connection has not been cut off each of them has
    been dispatched or waits. And whatever the desk is asked to do next, of the calls
    of a connection that wait now the one with `k` others before it is dispatched by
    the tick that comes after `k / limit` others, unless the connection is cut off
    before. -/
theorem limited_fairly (catalog : Catalog) (config : ServerConfig) (world : World)
    (connections : Connections) (limit : Nat) (before after : List Task)
    (connection : ConnectionId) :
    let run := (fresh catalog { config with maxCallsPerTick := some limit } world
      connections).replay before
    -- The ledger is about this dispatcher, which the loop alone has driven.
    run.ledger.record.session.dispatcher = run.desk.loop.dispatcher ∧
    (∃ now, ((run.perform .tick).line connection).started =
        (run.line connection).started ++ now ∧ now.length ≤ max limit 1) ∧
    (run.line connection).started.Sublist (handedIn connection 1 before) ∧
    ((∀ task ∈ before, task.severs connection = false) →
      (run.line connection).started ++ (run.line connection).waiting =
        handedIn connection 1 before) ∧
    ∀ (k : Nat) (q : Queued), (run.line connection).waiting[k]? = some q →
      (q ∈ ((run.replay after).line connection).started ↔
        k / max limit 1 < ticksBefore connection after) := by
  intro run
  let opened := fresh catalog { config with maxCallsPerTick := some limit } world connections
  have hopened : (opened.line connection).Fresh opened.desk.loop.nextBatch :=
    ⟨List.nodup_nil, fun _ hq => absurd hq List.not_mem_nil⟩
  have hconfig : run.desk.loop.dispatcher.config.maxCallsPerTick = some limit :=
    congrArg _ (opened.config_replay before)
  have hline : run.line connection = _ := opened.line_replay rfl before
  refine ⟨(sound_replay (sound_fresh ..) before).books.dispatcher, ?_, ?_, ?_, fun k q hk => ?_⟩
  · refine ⟨(run.line connection).waiting.take (max limit 1), ?_, List.length_take_le ..⟩
    rw [line_tick hconfig]
  · rw [hline]
    have hstarted : ∀ x : Line, x.started.Sublist x.all := fun x => List.sublist_append_left ..
    exact (hstarted _).trans (Line.all_replay_sublist before)
  · intro hkept
    rw [hline]
    exact Line.all_replay hkept
  · rw [line_replay hconfig after]
    exact (fresh_line_replay rfl hopened before).mem_started_replay_iff
      (Nat.lt_of_lt_of_le Nat.one_pos (Nat.le_max_right ..)) hk

/-- Of three calls two are dispatched, and the call of another connection behind them
    too. -/
example :
    let run := (fresh ⟨⟨[]⟩, ⟨[]⟩⟩ { maxCallsPerTick := some 2 } {} {}).replay
      [.submit 1 ⟨List.replicate 3 (.bare "S" "P")⟩, .submit 2 ⟨[.bare "S" "P"]⟩, .tick]
    (run.line 1).started.map Queued.slot = [0, 1] ∧ (run.line 1).waiting.map Queued.slot = [2] ∧
      (run.line 2).started.map Queued.slot = [0] := by
  decide

end Run

end Switchboard
