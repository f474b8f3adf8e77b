import Switchboard.Proofs.RequestLoop.Lines

/-!
# Dividing the Queue

A tick divides the queue into the calls that it dispatches and those that it holds back.
It goes through the queue once, with a count for each connection of the calls it has let
through. What comes of that can be said without counts: a call is let through if fewer
calls of its connection stand before it than the limit allows, wherever the calls of other
connections stand. The counts are right because what has been counted for a connection is
the number of its calls so far, until that reaches the limit.

Each part is therefore the queue with some positions left out, and what one part leaves
out the other keeps. That two calls may be alike makes no difference, since it is positions
that are divided.

## Main definitions

* `ahead`: How many calls of the same connection stand before a position.
* `callsAt`: The calls at some of the positions.

## Theorems

* `takeRunnable_eq`: A pass through the queue, from any position on.
* `ServerConfig.takeRunnable_eq`: Which calls are let through.
* `divides_in_order`: What the parts are, for every configuration.
-/

namespace Switchboard

/-- How many calls of the same connection stand before a position of a queue. -/
def ahead (queue : List Queued) (position : Queued × Nat) : Nat :=
  (callsOf position.1.connection (queue.take position.2)).length

/-- The calls at the positions that a test selects, in the order of the queue. -/
def callsAt (queue : List Queued) (selected : Queued × Nat → Bool) : List Queued :=
  (queue.zipIdx.filter selected).map Prod.fst

theorem callsAt_sublist (queue : List Queued) (selected : Queued × Nat → Bool) :
    (callsAt queue selected).Sublist queue := by
  have hpositions : (queue.zipIdx.filter selected).Sublist queue.zipIdx := List.filter_sublist
  have hcalls := hpositions.map Prod.fst
  rwa [List.zipIdx_map_fst] at hcalls

/-! ## Counting -/

/-- What is counted for each connection after some calls: how many there are of it, up to the
    limit. -/
def CountedAfter (limit : Nat) (counted : Table Nat) (before : List Queued) : Prop :=
  ∀ connection, (counted.get? connection).getD 0 = min limit (callsOf connection before).length

variable {limit : Nat} {counted : Table Nat} {before : List Queued} {q : Queued}

theorem countedAfter_nil (limit : Nat) : CountedAfter limit {} [] := by
  intro connection
  rw [Table.get?_emptyCollection]
  exact (Nat.min_zero limit).symm

/-- A call that is let through is counted. -/
theorem CountedAfter.letThrough (h : CountedAfter limit counted before)
    (hroom : (callsOf q.connection before).length < limit) :
    CountedAfter limit
      (counted.insert q.connection ((counted.get? q.connection).getD 0 + 1)) (before ++ [q]) := by
  intro connection
  rw [Table.get?_insert, callsOf_append, List.length_append]
  by_cases hown : connection = q.connection
  · subst hown
    rw [if_pos rfl, Option.getD_some, h, callsOf_cons_self rfl]
    have hone : (q :: callsOf q.connection []).length = 1 := rfl
    omega
  · rw [if_neg hown, h, callsOf_cons_other (Ne.symm hown)]
    rfl

/-- One that is held back makes no difference, because its connection has nothing left. -/
theorem CountedAfter.holdBack (h : CountedAfter limit counted before)
    (hfull : ¬(callsOf q.connection before).length < limit) :
    CountedAfter limit counted (before ++ [q]) := by
  intro connection
  rw [h, callsOf_append, List.length_append]
  by_cases hown : q.connection = connection
  · subst hown
    omega
  · rw [callsOf_cons_other hown]
    rfl

/-- From any position of a queue on, the calls that are let through are those with fewer of
    their connection before them than the limit, counted from the front of the queue. -/
theorem takeRunnable_eq (queue : List Queued) (h : CountedAfter limit counted before) :
    takeRunnable limit counted queue =
      (((queue.zipIdx before.length).filter fun position =>
          decide (ahead (before ++ queue) position < limit)).map Prod.fst,
        ((queue.zipIdx before.length).filter fun position =>
          !decide (ahead (before ++ queue) position < limit)).map Prod.fst) := by
  -- By induction on what is left of the queue, with the calls already gone through in front.
  induction queue generalizing counted before with
  | nil => rfl
  | cons q rest ih =>
      have hahead : ahead (before ++ q :: rest) (q, before.length) =
          (callsOf q.connection before).length := by
        rw [ahead, List.take_left]
      have hwhole : before ++ [q] ++ rest = before ++ q :: rest := by
        rw [List.append_assoc, List.singleton_append]
      have hlength : (before ++ [q]).length = before.length + 1 := List.length_append
      rw [takeRunnable, List.zipIdx_cons]
      by_cases hroom : (callsOf q.connection before).length < limit
      · have hused : (counted.get? q.connection).getD 0 < limit := by
          rw [h]
          omega
        have hrest := ih (h.letThrough hroom)
        rw [hwhole, hlength] at hrest
        simp only [if_pos hused, hrest, List.filter_cons, hahead, hroom, decide_true,
          Bool.not_true, Bool.false_eq_true, if_true, if_false, List.map_cons]
      · have hused : ¬(counted.get? q.connection).getD 0 < limit := by
          rw [h]
          omega
        have hrest := ih (h.holdBack hroom)
        rw [hwhole, hlength] at hrest
        simp only [if_neg hused, hrest, List.filter_cons, hahead, hroom, decide_false,
          Bool.not_false, Bool.false_eq_true, if_true, if_false, List.map_cons]

/-- With a limit, a call is let through if it is among the first of its connection. -/
theorem ServerConfig.takeRunnable_eq {config : ServerConfig} {limit : Nat}
    (h : config.maxCallsPerTick = some limit) (queue : List Queued) :
    config.takeRunnable queue =
      (callsAt queue fun position => decide (ahead queue position < max limit 1),
        callsAt queue fun position => !decide (ahead queue position < max limit 1)) := by
  unfold ServerConfig.takeRunnable
  rw [h]
  exact Switchboard.takeRunnable_eq queue (countedAfter_nil (max limit 1))

/-- However the queue is and whatever the limit, dividing it keeps the order of the queue in
    both parts, loses no call and takes none twice. With a limit, which counts as one if it is
    nought, the calls that may be dispatched are those with fewer of their connection before
    them than the limit; of each connection these are the first of its calls, as many as the
    limit allows or as there are. Without a limit they are all calls, and none is held back. -/
theorem divides_in_order (config : ServerConfig) (queue : List Queued) :
    (config.takeRunnable queue).1.Sublist queue ∧
    (config.takeRunnable queue).2.Sublist queue ∧
    queue.Perm ((config.takeRunnable queue).1 ++ (config.takeRunnable queue).2) ∧
    match config.maxCallsPerTick with
    | some limit =>
      config.takeRunnable queue =
        (callsAt queue fun position => decide (ahead queue position < max limit 1),
          callsAt queue fun position => !decide (ahead queue position < max limit 1)) ∧
      ∀ connection,
        callsOf connection (config.takeRunnable queue).1 =
          (callsOf connection queue).take (min (max limit 1) (callsOf connection queue).length) ∧
        callsOf connection (config.takeRunnable queue).2 =
          (callsOf connection queue).drop (min (max limit 1) (callsOf connection queue).length)
    | none => config.takeRunnable queue = (queue, []) := by
  have hperm := config.takeRunnable_perm queue
  cases hlimit : config.maxCallsPerTick with
  | none =>
      have hall : config.takeRunnable queue = (queue, []) := by
        unfold ServerConfig.takeRunnable
        rw [hlimit]
      exact ⟨hall ▸ List.Sublist.refl _, hall ▸ List.nil_sublist _, hperm, hall⟩
  | some limit =>
      have hparts := ServerConfig.takeRunnable_eq hlimit queue
      refine ⟨hparts ▸ callsAt_sublist .., hparts ▸ callsAt_sublist .., hperm, hparts,
        fun connection => ?_⟩
      rcases ServerConfig.callsOf_takeRunnable hlimit connection queue with ⟨hfirst, hrest⟩
      exact ⟨hfirst.trans List.take_eq_take_min, hrest.trans List.drop_eq_drop_min⟩

end Switchboard
