import Mathlib.Data.List.Sort
import Switchboard.Proofs.Dispatcher.Accounts

/-!
# Rounds

A tick is a round. Every call that is pending when it begins takes one turn, in the
order in which the calls were made, and nobody else does.

The table of pending calls changes while the round goes on. Each turn takes its call
out and may put it back under the same number, so the calls that have had their turn
and the calls that have not stand side by side in the table. What keeps them apart is
the list of those that are still to come. A turn touches its own call only
(`TookTurn.moved`), so the calls on the list wait as they did when the round began,
and a call that was put back is not on the list any more.

`Turns` says this of any list of calls, and everything else is read off it by going
through the list. In particular the handlers that ran are one for each call, and each
ran on what the one before it made of the world (`HandlerRun.Chain`). So no handler ran
besides these, and the world at the end is what they made of it.

## Main definitions

* `HandlerRun.Chain`: Runs of handlers one after the other.
* `Dispatcher.TookTurn`, `Dispatcher.Turns`: One turn, and one turn of each of many.
* `Dispatcher.Round`: What a tick does.

## Theorems

* `advance_tookTurn`: Advancing a call that waits is a turn of it.
* `advanceAll_turns`: Advancing calls that wait is a turn of each.
* `Turns.ran`, `Turns.left`, `Turns.counted`: What the turns of many come to.
* `tick_round`: Every tick of every session is a round.
-/

namespace Switchboard

/-- The keys of a table that has no key which another has not. -/
theorem Table.keys_eq_filter {α β : Type} {t : Table α} {u : Table β}
    (h : ∀ key, u.contains key = true → t.contains key = true) :
    u.keys = t.keys.filter u.contains := by
  refine u.keys_ascending.eq_of_mem_iff (t.keys_ascending.filter _) fun key => ?_
  rw [List.mem_filter, mem_keys_iff, mem_keys_iff, ← contains_iff, ← contains_iff]
  exact ⟨fun hu => ⟨h key hu, hu⟩, And.right⟩

/-- Runs of handlers one after the other, each on the world that the one before it
    left, from one world to another. -/
def HandlerRun.Chain : World → List HandlerRun → World → Prop
  | w, [], w' => w' = w
  | w, run :: rest, w' => run.world = w ∧ Chain run.after rest w'

/-- The calls that wait are listed under their numbers. -/
theorem PendingCalls.Orderly.ids_eq {p : PendingCalls} (h : p.Orderly) :
    p.waiting.values.map (fun c => c.ctx.call) = p.ids := by
  unfold ids Table.keys Table.values
  rw [List.map_map]
  refine List.map_congr_left fun row hrow => ?_
  exact h.named (Table.mem_rows_iff.mp hrow)

namespace Dispatcher

/-- A call that waited took a turn. Its handler ran once, on the world as it was, and
    whatever it came to decided what was told and whether the call waits again. -/
structure TookTurn (d : Dispatcher) (c : Continuation) (e : Event) (d' : Dispatcher) : Prop where
  waiting : d.pending.waiting.get? c.ctx.call = some c
  took : c.turn.Took d.catalog.services true d.objects e
    (d'.pending.waiting.get? c.ctx.call) d'.objects
  ran : ∃ run, e.run = some run ∧ run.world = d.world ∧ d'.world = run.after
  /-- No other call was touched. -/
  moved : d.Moved c.ctx.call (d'.pending.waiting.get? c.ctx.call) d'
  status : d'.status =
    { d.status with
      continuationsResumed := d.status.continuationsResumed + 1
      callsFailed := d.status.callsFailed + [e.outcome].countP Outcome.isFailed }

/-- Calls took one turn each, one after the other, with what happened in them. -/
inductive Turns : Dispatcher → List Continuation → List Event → Dispatcher → Prop
  | done (d : Dispatcher) : Turns d [] [] d
  | turn {d d₁ d' : Dispatcher} {c : Continuation} {e : Event} {cs : List Continuation}
      {es : List Event} :
    d.TookTurn c e d₁ → Turns d₁ cs es d' → Turns d (c :: cs) (e :: es) d'

/-! ## One turn -/

/-- Advancing a call that waits is a turn of it. -/
theorem advance_tookTurn {d : Dispatcher} {c : Continuation} (horderly : d.pending.Orderly)
    (hwaiting : d.pending.waiting.get? c.ctx.call = some c) :
    ∃ e, d.advanceEvent? c.ctx.call = some e ∧ d.TookTurn c e (d.advance c.ctx.call).2 := by
  rcases advance_waiting hwaiting with ⟨e, next, objects', hevent, -, htook, hbecame⟩
  have hmoved := hbecame.moved (next_named htook)
  refine ⟨e, hevent, hwaiting, ?_, ?_, ?_, advance_status hevent⟩
  · rw [hmoved.waiting_self, hbecame.objects, ← connected_of_waiting horderly hwaiting]
    exact htook
  · -- The handler was run with the call taken out and the turn counted already, and
    -- neither touches the world.
    rw [advanceEvent?, hwaiting, Option.map_some, Option.some.injEq] at hevent
    refine ⟨(d.without c.ctx.call).countResume.handled c.turn, by rw [← hevent], rfl, ?_⟩
    rw [advance_of_waiting hwaiting, countOutcome_world]
    exact (step_leaves _ _).2
  · rw [hmoved.waiting_self]
    exact hmoved

/-! ## One turn of each -/

/-- Advancing calls that wait is a turn of each. -/
theorem advanceAll_turns {d : Dispatcher} (horderly : d.pending.Orderly)
    {cs : List Continuation} (hnodup : (cs.map fun c => c.ctx.call).Nodup)
    (hwaiting : ∀ c ∈ cs, d.pending.waiting.get? c.ctx.call = some c) :
    d.Turns cs (d.advanceEvents (cs.map fun c => c.ctx.call))
      (d.advanceAll (cs.map fun c => c.ctx.call)).2 := by
  induction cs generalizing d with
  | nil => exact .done d
  | cons c rest ih =>
      rw [List.map_cons, List.nodup_cons] at hnodup
      rcases advance_tookTurn horderly (hwaiting c List.mem_cons_self) with ⟨e, hevent, hturn⟩
      -- The others wait as before, since none of them is the call that was advanced.
      have hwaiting' : ∀ c' ∈ rest,
          (d.advance c.ctx.call).2.pending.waiting.get? c'.ctx.call = some c' := by
        intro c' hc'
        rw [hturn.moved.waiting_of_ne, hwaiting c' (List.mem_cons_of_mem _ hc')]
        intro hsame
        exact hnodup.1 (hsame ▸ List.mem_map_of_mem hc')
      rw [List.map_cons, advanceEvents, advanceAll, hevent]
      exact .turn hturn (ih (advance_unmoved horderly _).orderly hnodup.2 hwaiting')

namespace Turns

variable {d d' : Dispatcher} {cs : List Continuation} {es : List Event}

theorem calls (h : d.Turns cs es d') :
    (es.map fun e => e.ctx.call) = cs.map fun c => c.ctx.call := by
  induction h with
  | done => rfl
  | turn hturn _ ih =>
      rw [List.map_cons, List.map_cons, ih, hturn.took.ctx]
      rfl

/-- A call that has no turn stays as it is. -/
theorem waiting_of_not_mem (h : d.Turns cs es d') {id : CallId}
    (hid : id ∉ cs.map fun c => c.ctx.call) :
    d'.pending.waiting.get? id = d.pending.waiting.get? id := by
  induction h with
  | done => rfl
  | turn hturn _ ih =>
      rw [List.map_cons, List.mem_cons, not_or] at hid
      rw [ih hid.2, hturn.moved.waiting_of_ne hid.1]

/-- The handlers that ran are one for each call, and they made the world what it is. -/
theorem ran (h : d.Turns cs es d') :
    ∃ runs, es.map Event.run = runs.map some ∧
      List.Forall₂ (fun c run => c.turn.Serves run) cs runs ∧
      HandlerRun.Chain d.world runs d'.world := by
  induction h with
  | done d => exact ⟨[], rfl, .nil, rfl⟩
  | turn hturn _ ih =>
      rcases ih with ⟨runs, hruns, hserved, hchain⟩
      rcases hturn.ran with ⟨run, hrun, hbefore, hafter⟩
      rcases hturn.took.run with ⟨run', hrun', hserves, -⟩
      rw [hrun, Option.some.injEq] at hrun'
      rw [← hrun'] at hserves
      rw [hafter] at hchain
      refine ⟨run :: runs, ?_, .cons hserves hserved, hbefore, hchain⟩
      rw [List.map_cons, List.map_cons, hrun, hruns]

/-- What a call was told and what is left of it. It waits if and only if it was told
    that it continues, and then it has taken one step more. -/
theorem left (h : d.Turns cs es d') (hnodup : (cs.map fun c => c.ctx.call).Nodup) :
    List.Forall₂ (fun c e => e.ctx = c.ctx ∧
      ((e.outcome.isFinal = true ∧ d'.pending.waiting.get? c.ctx.call = none) ∨
        ∃ progress, e.outcome = .continuing c.ctx.call ∧
          d'.pending.waiting.get? c.ctx.call =
            some { c with progress, steps := c.steps + 1 })) cs es := by
  induction h with
  | done => exact .nil
  | turn hturn hrest ih =>
      rw [List.map_cons, List.nodup_cons] at hnodup
      refine .cons ⟨hturn.took.ctx, ?_⟩ (ih hnodup.2)
      -- None of the turns after it was its own.
      rw [hrest.waiting_of_not_mem hnodup.1]
      rcases hturn.took.final_or_parked with hfinal | ⟨progress, -, -, houtcome, hnext⟩
      · exact .inl hfinal
      · exact .inr ⟨progress, houtcome, hnext⟩

/-- If every call that waits has a turn, the calls that wait afterwards are those that
    were told so. -/
theorem pending (h : d.Turns cs es d') (hcs : (cs.map fun c => c.ctx.call) = d.pending.ids) :
    d'.pending.ids = (es.filter fun e => !e.outcome.isFinal).map fun e => e.ctx.call := by
  have hnodup : (cs.map fun c => c.ctx.call).Nodup := by
    rw [hcs]
    exact d.pending.waiting.keys_nodup
  -- Nothing waits that has not waited before, as what has no turn stays as it is.
  have hbefore : ∀ id, d'.pending.waiting.contains id = true →
      d.pending.waiting.contains id = true := by
    intro id hid
    by_cases hmem : id ∈ cs.map fun c => c.ctx.call
    · rw [hcs] at hmem
      exact Table.contains_iff.mpr (Table.mem_keys_iff.mp hmem)
    · rw [Table.contains, h.waiting_of_not_mem hmem] at hid
      exact hid
  have hids : d.pending.ids = es.map fun e => e.ctx.call := hcs.symm.trans h.calls.symm
  rw [PendingCalls.ids, Table.keys_eq_filter hbefore, ← PendingCalls.ids, hids, List.filter_map]
  refine congrArg _ (List.filter_congr (forall_mem_right (h.left hnodup) fun c e hleft => ?_))
  rcases hleft with ⟨hctx, ⟨hfinal, hgone⟩ | ⟨progress, hcontinues, hwaits⟩⟩
  · rw [Function.comp_apply, hctx, Table.contains, hgone, hfinal]
    rfl
  · rw [Function.comp_apply, hctx, Table.contains, hwaits, hcontinues]
    rfl

theorem counted (h : d.Turns cs es d') :
    d'.status.ticks = d.status.ticks ∧
      d'.status.continuationsResumed = d.status.continuationsResumed + es.length := by
  induction h with
  | done => exact ⟨rfl, rfl⟩
  | turn hturn _ ih =>
      rw [ih.1, ih.2, hturn.status, List.length_cons]
      refine ⟨rfl, ?_⟩
      simp only
      omega

end Turns

/-! ## Ticks -/

/-- What a tick does, with what happens in it and what it reports. -/
structure Round (d : Dispatcher) (events : List Event) (reports : List (CallContext × Outcome))
    (d' : Dispatcher) : Prop where
  /-- There is one report for each call that was pending, oldest first. -/
  calls : reports.map (·.1.call) = d.pending.ids
  ascending : (reports.map (·.1.call)).Pairwise (· < ·)
  told : reports = events.map fun e => (e.ctx, e.outcome)
  /-- Each of these calls took one turn, and no other call took any. -/
  turns : d.countTick.Turns d.pending.waiting.values events d'
  /-- The handlers that ran are one for each call, and they made the world what it is. -/
  ran : ∃ runs, events.map Event.run = runs.map some ∧
    List.Forall₂ (fun c run => c.turn.Serves run) d.pending.waiting.values runs ∧
    HandlerRun.Chain d.world runs d'.world
  /-- A call waits afterwards if and only if it was told that it continues, and then it
      has taken one step more. -/
  left : List.Forall₂ (fun c report => report.1 = c.ctx ∧
    ((report.2.isFinal = true ∧ d'.pending.waiting.get? c.ctx.call = none) ∨
      ∃ progress, report.2 = .continuing c.ctx.call ∧
        d'.pending.waiting.get? c.ctx.call =
          some { c with progress, steps := c.steps + 1 })) d.pending.waiting.values reports
  /-- The calls that wait afterwards are those that were told so. -/
  pending : d'.pending.ids = (reports.filter fun report => !report.2.isFinal).map (·.1.call)
  ticks : d'.status.ticks = d.status.ticks + 1
  resumed : d'.status.continuationsResumed = d.status.continuationsResumed + reports.length

theorem tick_turns {d : Dispatcher} (horderly : d.pending.Orderly) :
    d.countTick.Turns d.pending.waiting.values (d.countTick.advanceEvents d.pending.ids)
      d.tick.2 := by
  have hcounted : d.countTick.pending.Orderly := horderly
  have hnodup : (d.pending.waiting.values.map fun c => c.ctx.call).Nodup := by
    rw [horderly.ids_eq]
    exact d.pending.waiting.keys_nodup
  have hturns := advanceAll_turns hcounted hnodup fun c hc => by
    rcases Table.mem_values_iff.mp hc with ⟨id, hid⟩
    rw [horderly.named hid]
    exact hid
  rw [horderly.ids_eq] at hturns
  exact hturns

theorem round_of_orderly {d : Dispatcher} (horderly : d.pending.Orderly) :
    d.Round (d.countTick.advanceEvents d.pending.ids) d.tick.1 d.tick.2 := by
  have hids := horderly.ids_eq
  have hturns := tick_turns horderly
  have hcalls : d.tick.1.map (·.1.call) = d.pending.ids := by
    rw [d.tick_results, List.map_map]
    exact hturns.calls.trans hids
  refine ⟨hcalls, ?_, d.tick_results, hturns, hturns.ran, ?_, ?_, ?_, ?_⟩
  · rw [hcalls]
    exact d.pending.waiting.keys_ascending
  · rw [d.tick_results]
    refine List.forall₂_map_right_iff.mpr (hturns.left ?_)
    rw [hids]
    exact d.pending.waiting.keys_nodup
  · rw [hturns.pending hids, d.tick_results, List.filter_map, List.map_map]
    rfl
  · exact hturns.counted.1
  · rw [d.tick_results, List.length_map]
    exact hturns.counted.2

/-- A tick in whatever state a session has led to. Every call that is pending when it
    begins is reported once, in the order in which the calls were made, after one run
    of its handler. What waits afterwards are the calls that were told so, with one
    step more, and the counters have gone up by one tick and by as many steps as there
    are reports. -/
theorem tick_round (catalog : Catalog) (config : ServerConfig) (world : World)
    (operations : List Operation) :
    let s := (Session.fresh catalog config world).replay operations
    s.dispatcher.Round (s.events .tick) s.dispatcher.tick.1 s.dispatcher.tick.2 :=
  round_of_orderly
    (Session.sound_replay (Session.sound_fresh catalog config world) operations).orderly

end Dispatcher

end Switchboard
