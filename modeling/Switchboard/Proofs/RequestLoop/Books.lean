import Switchboard.Proofs.RequestLoop.Replies

/-!
# The Books

How a request loop and its ledger agree. A call that was submitted and not cut
off is in one of three places: it has not been dispatched, or it is parked under
its number, or its result stands in its batch. That there is no fourth, and that
no call is in two of them, is `Books.waits_iff` with what is known of the three.

A tick passes through states in which this is not quite so, and the invariant
has to hold there too. Between dispatching a call and entering its result the
call is in none of the three places: it is `hand`, the place that is being
worked on. Between the dispatcher's tick and the settling of what it reported a
parked call may be gone from the dispatcher: what is still to be settled is
`settling`. And the calls of the queue that a tick may run are taken off it
before the first of them is dispatched: all that have not been dispatched are
`unstarted`. Between two tasks there is no hand, nothing is settling, and what
has not been dispatched is the queue.

## Main definitions

* `Books`: The loop and the ledger agree.
* `Batch.enter`: A batch with one more result.

## Theorems

* `Books.of_perm`: The order in which calls are dispatched does not matter.
* `Books.waits_of_done`: What waits when a place is finished with.
* `Books.settle`: Entering a result.
-/

namespace Switchboard

/-! ## Batches -/

/-- A batch with one more result. -/
def Batch.enter (batch : Batch) (slot : Nat) (result : ProcedureResult) : Batch :=
  { batch with
    results := batch.results.set slot (some result), remaining := batch.remaining - 1 }

theorem countP_isNone_set {α : Type} {results : List (Option α)} {slot : Nat}
    (h : results[slot]? = some none) (a : α) :
    (results.set slot (some a)).countP Option.isNone = results.countP Option.isNone - 1 := by
  rcases List.getElem?_eq_some_iff.mp h with ⟨hslot, hnone⟩
  rw [List.countP_set hslot, hnone]
  rfl

/-- A batch in which no result is missing gives its results in order. -/
theorem map_some_filterMap {α : Type} {results : List (Option α)}
    (h : results.countP Option.isNone = 0) :
    (results.filterMap fun result => result).map some = results := by
  induction results with
  | nil => rfl
  | cons head rest ih =>
      cases head with
      | none =>
          rw [List.countP_cons_of_pos rfl] at h
          exact absurd h (Nat.succ_ne_zero _)
      | some a =>
          rw [List.countP_cons_of_neg (by rw [Option.isNone_some]; decide)] at h
          simp only [List.filterMap_cons, List.map_cons, ih h]

/-! ## The loop and the ledger -/

/-- The loop and the ledger agree, where the given calls have not been
    dispatched, the given reports of a tick have not been settled, and the given
    place is being worked on. -/
structure Books (g : Ledger) (l : RequestLoop) (unstarted : List Queued)
    (settling : List (CallContext × Outcome)) (hand : Option Place) : Prop
    extends Replies g l.batches l.outbox where
  coherent : g.Coherent
  dispatcher : g.record.session.dispatcher = l.dispatcher
  below : ∀ {b : BatchId} {t : Ticket}, g.tickets.get? b = some t → b < l.nextBatch
  batches : ∀ {b : BatchId} {batch : Batch}, l.batches.get? b = some batch → g.Holds b batch
  /-- The places without a result are those of calls that wait somewhere. -/
  waits_iff : ∀ p : Place,
    ((∃ q ∈ unstarted, q.place = p) ∨ (∃ id, l.parked.get? id = some p) ∨ hand = some p) ↔
      ∃ batch, l.batches.get? p.1 = some batch ∧ batch.results[p.2]? = some none
  /-- What has not been dispatched is the call of a request. -/
  queued : ∀ q ∈ unstarted, (∃ t, g.Asked q t) ∧ ∀ x ∈ g.starts, x.entry.place ≠ q.place
  unstartedOnce : (unstarted.map Queued.place).Nodup
  /-- What is parked is pending, or its end has been reported. -/
  parked : ∀ {id : CallId} {p : Place}, l.parked.get? id = some p →
    ∃ x ∈ g.starts, x.id = id ∧ x.entry.place = p ∧
      (g.record.session.waiting id ≠ none ∨
        ∃ report ∈ settling, report.1.call = id ∧ report.2.isFinal = true)
  /-- What has been reported is final for good. -/
  reported : ∀ report ∈ settling, report.2.isFinal = true →
    finals report.1.call g.record.events = [report.2]
  /-- What is being worked on was dispatched and is not parked. -/
  worked : ∀ {p : Place}, hand = some p →
    ∃ x ∈ g.starts, x.entry.place = p ∧ l.parked.get? x.id = none

namespace Books

variable {g g' : Ledger} {l : RequestLoop} {unstarted : List Queued}
  {settling : List (CallContext × Outcome)} {hand : Option Place}

/-- The order of the calls that have not been dispatched does not matter. -/
theorem of_perm {unstarted' : List Queued} (h : Books g l unstarted settling hand)
    (hperm : unstarted.Perm unstarted') : Books g l unstarted' settling hand :=
  { h with
    waits_iff := by
      intro p
      rw [← h.waits_iff p]
      simp only [hperm.mem_iff]
    queued := fun q hq => h.queued q (hperm.mem_iff.mpr hq)
    unstartedOnce := (hperm.map Queued.place).nodup_iff.mp h.unstartedOnce }

/-- What is being worked on waits nowhere else. -/
theorem worked_alone {p : Place} (h : Books g l unstarted settling (some p)) :
    (¬ ∃ q ∈ unstarted, q.place = p) ∧ ∀ id, l.parked.get? id ≠ some p := by
  rcases h.worked rfl with ⟨x, hx, hplace, hfree⟩
  constructor
  · rintro ⟨q, hq, hqp⟩
    exact (h.queued q hq).2 x hx (hplace.trans hqp.symm)
  · intro id hid
    rcases h.parked hid with ⟨y, hy, hyid, hyplace, _⟩
    -- Both calls were dispatched for this place, so they are one call.
    have hxy : x = y := List.inj_on_of_nodup_map h.coherent.places hx hy (hplace.trans hyplace.symm)
    rw [hxy, hyid, hid] at hfree
    exact absurd hfree (by simp only [reduceCtorEq, not_false_eq_true])

/-! ## Entering a result -/

/-- The batch of what is being worked on, and that its place is free. -/
theorem worked_batch {p : Place} (h : Books g l unstarted settling (some p)) :
    ∃ batch, l.batches.get? p.1 = some batch ∧ batch.results[p.2]? = some none :=
  (h.waits_iff p).mp (Or.inr (Or.inr rfl))

/-- Entering a result is checked successfully. -/
theorem settle?_eq {p : Place} (h : Books g l unstarted settling (some p)) (o : Outcome) :
    l.settle? p.1 p.2 o = some (l.settle p.1 p.2 o) := by
  rcases h.worked_batch with ⟨batch, hbatch, hslot⟩
  have hlength : p.2 < batch.results.length := (List.getElem?_eq_some_iff.mp hslot).1
  have hremaining : 0 < batch.remaining := (h.batches hbatch).unfinished
  unfold RequestLoop.settle?
  cases ho : o.result? with
  | none => simp only [RequestLoop.settle, ho]
  | some result => simp only [hbatch, hlength, hremaining, and_self, if_true]

/-- What waits when what was worked on is done: what waited elsewhere. -/
theorem waits_of_done {p : Place} (h : Books g l unstarted settling (some p)) (p' : Place) :
    ((∃ q ∈ unstarted, q.place = p') ∨ (∃ id, l.parked.get? id = some p') ∨
        (none : Option Place) = some p') ↔
      p' ≠ p ∧ ∃ batch, l.batches.get? p'.1 = some batch ∧ batch.results[p'.2]? = some none := by
  rcases h.worked_alone with ⟨hunstarted, hparked⟩
  rw [← h.waits_iff p']
  -- What was in hand waited nowhere else, so nothing else is done with it.
  constructor
  · rintro (hq | ⟨id, hid⟩ | hnone)
    · exact ⟨fun heq => hunstarted (heq ▸ hq), Or.inl hq⟩
    · exact ⟨fun heq => hparked id (heq ▸ hid), Or.inr (Or.inl ⟨id, hid⟩)⟩
    · exact absurd hnone (by simp only [reduceCtorEq, not_false_eq_true])
  · rintro ⟨hne, hq | hid | hsome⟩
    · exact Or.inl hq
    · exact Or.inr (Or.inl hid)
    · exact absurd (Option.some.inj hsome).symm hne

theorem settle_eq {p : Place} {batch : Batch} {o : Outcome} {result : ProcedureResult}
    (ho : o.result? = some result) (hbatch : l.batches.get? p.1 = some batch) :
    l.settle p.1 p.2 o =
      if 0 < batch.remaining - 1 then
        { l with batches := l.batches.insert p.1 (batch.enter p.2 result) }
      else
        { l with batches := l.batches.erase p.1 }.reply batch.ticket
          (.answered ⟨(batch.enter p.2 result).results.filterMap fun result => result⟩) := by
  unfold RequestLoop.settle
  simp only [ho, hbatch]
  rfl

/-- A place that is still free after a result was entered. -/
theorem enter_free_iff {batch : Batch} {p : Place} (hslot : batch.results[p.2]? = some none)
    (result : ProcedureResult) {p' : Place} (hfirst : p'.1 = p.1) :
    (batch.enter p.2 result).results[p'.2]? = some none ↔
      p' ≠ p ∧ batch.results[p'.2]? = some none := by
  -- Within the batch, a place is told by its slot alone.
  have hne : p' ≠ p ↔ p.2 ≠ p'.2 := by
    rw [ne_eq, Prod.ext_iff, not_and]
    exact ⟨fun h heq => h hfirst heq.symm, fun h _ heq => h heq.symm⟩
  rw [Batch.enter, List.getElem?_set, hne]
  by_cases heq : p.2 = p'.2
  · rw [if_pos heq, if_pos (List.getElem?_eq_some_iff.mp hslot).1]
    simp [heq]
  · rw [if_neg heq]
    simp [heq]

/-- What a batch holds with one more result: all of them are right. -/
theorem enter_entered {batch : Batch} {p : Place} {result : ProcedureResult}
    (hb : g.Holds p.1 batch) (hc : g.Concluded p result) {slot : Nat} {r : ProcedureResult}
    (hr : (batch.enter p.2 result).results[slot]? = some (some r)) :
    g.Concluded (p.1, slot) r := by
  rw [Batch.enter, List.getElem?_set] at hr
  split at hr
  next heq =>
    split at hr
    next =>
      rw [Option.some.injEq, Option.some.injEq] at hr
      rw [← heq, ← hr]
      exact hc
    next => exact absurd hr (by simp only [reduceCtorEq, not_false_eq_true])
  next => exact hb.entered hr

theorem enter_remaining {batch : Batch} {p : Place} (hb : g.Holds p.1 batch)
    (hslot : batch.results[p.2]? = some none) (result : ProcedureResult) :
    (batch.enter p.2 result).remaining =
      (batch.enter p.2 result).results.countP Option.isNone := by
  simp only [Batch.enter, countP_isNone_set hslot, hb.remaining]

/-- A result that is not the last of its batch. -/
theorem settle_more {p : Place} {batch : Batch} {result : ProcedureResult}
    (h : Books g l unstarted settling (some p)) (hc : g.Concluded p result)
    (hbatch : l.batches.get? p.1 = some batch) (hslot : batch.results[p.2]? = some none)
    (hmore : 0 < batch.remaining - 1) :
    Books g { l with batches := l.batches.insert p.1 (batch.enter p.2 result) }
      unstarted settling none := by
  have hb := h.batches hbatch
  have hget : ∀ b, (l.batches.insert p.1 (batch.enter p.2 result)).get? b =
      if b = p.1 then some (batch.enter p.2 result) else l.batches.get? b :=
    fun b => Table.get?_insert ..
  -- The batch stays and has one free place less; everything else is as it was.
  refine { h with
    toReplies := h.toReplies.replace hbatch rfl, batches := ?_, waits_iff := ?_, worked := ?_ }
  · intro b batch' hb'
    rw [hget] at hb'
    by_cases heq : b = p.1
    · rw [if_pos heq, Option.some.injEq] at hb'
      rw [heq, ← hb']
      refine ⟨?_, enter_remaining hb hslot result, hmore, fun hr => enter_entered hb hc hr⟩
      rcases hb.filed with ⟨s, hfiled, hconnection, hlength⟩
      exact ⟨s, hfiled, hconnection, by rw [Batch.enter, List.length_set]; exact hlength⟩
    · rw [if_neg heq] at hb'
      exact h.batches hb'
  · intro p'
    rw [h.waits_of_done p', hget]
    by_cases heq : p'.1 = p.1
    · simp only [if_pos heq, Option.some.injEq, exists_eq_left', enter_free_iff hslot result heq]
      rw [heq, hbatch]
      simp only [Option.some.injEq, exists_eq_left']
    · rw [if_neg heq]
      exact ⟨And.right, fun hfree => ⟨fun hpp => heq (congrArg Prod.fst hpp), hfree⟩⟩
  · intro p' hp'
    exact absurd hp' (by simp only [reduceCtorEq, not_false_eq_true])

/-- Two batches are not for one ticket. -/
theorem batches_apart (h : Books g l unstarted settling hand) {b b' : BatchId}
    {batch batch' : Batch} (hb : l.batches.get? b = some batch)
    (hb' : l.batches.get? b' = some batch') (hsame : batch.ticket = batch'.ticket) : b = b' := by
  rcases (h.batches hb).filed with ⟨_, hfiled, _⟩
  rcases (h.batches hb').filed with ⟨_, hfiled', _⟩
  exact h.coherent.injective hfiled.ticket (hsame ▸ hfiled'.ticket)

/-- A batch in which no result is missing is the right answer to its request. -/
theorem answers_of_full {b : BatchId} {batch : Batch} (hb : g.Holds b batch)
    {results : List (Option ProcedureResult)} (hlength : results.length = batch.results.length)
    (hall : results.countP Option.isNone = 0)
    (hentered : ∀ {slot : Nat} {r : ProcedureResult}, results[slot]? = some (some r) →
      g.Concluded (b, slot) r) :
    g.Answers batch.ticket ⟨results.filterMap fun result => result⟩ := by
  have hmap := map_some_filterMap hall
  rcases hb.filed with ⟨s, hfiled, _, hcalls⟩
  refine ⟨s, hfiled.request, ?_, ?_⟩
  · rw [← hcalls, ← hlength, ← congrArg List.length hmap, List.length_map]
  · intro i r hr
    refine ⟨b, hfiled.ticket, hentered ?_⟩
    rw [← hmap, List.getElem?_map, hr]
    rfl

/-- The last result of a batch, with which it is answered. -/
theorem settle_last {p : Place} {batch : Batch} {result : ProcedureResult}
    (h : Books g l unstarted settling (some p)) (hc : g.Concluded p result)
    (hbatch : l.batches.get? p.1 = some batch) (hslot : batch.results[p.2]? = some none)
    (hlast : ¬ 0 < batch.remaining - 1) :
    Books g
      { l with
        batches := l.batches.erase p.1
        outbox := l.outbox ++ [(batch.ticket,
          .answered ⟨(batch.enter p.2 result).results.filterMap fun result => result⟩)] }
      unstarted settling none := by
  have hb := h.batches hbatch
  have hget : ∀ b, (l.batches.erase p.1).get? b = if b = p.1 then none else l.batches.get? b :=
    fun b => Table.get?_erase ..
  have hall : (batch.enter p.2 result).results.countP Option.isNone = 0 := by
    rw [← enter_remaining hb hslot result, Batch.enter]
    exact Nat.eq_zero_of_not_pos hlast
  -- Taking the batch away takes away what is for its ticket, and nothing else.
  have hleft : ∀ {b : BatchId} {batch' : Batch}, (l.batches.erase p.1).get? b = some batch' ↔
      l.batches.get? b = some batch' ∧ batch'.ticket ≠ batch.ticket := by
    intro b batch'
    rw [Table.get?_erase_eq_some_iff]
    constructor
    · rintro ⟨hold, hne⟩
      exact ⟨hold, fun hsame => hne (h.batches_apart hold hbatch hsame)⟩
    · rintro ⟨hold, hne⟩
      refine ⟨hold, ?_⟩
      intro heq
      rw [heq, hbatch, Option.some.injEq] at hold
      exact hne (by rw [hold])
  refine { h with
    toReplies := h.toReplies.answer (.refl g) ?_ (h.unreplied hbatch) (fun hs => Or.inr ⟨_, hs⟩)
      hleft
    batches := fun hb' => h.batches (hleft.mp hb').1
    waits_iff := ?_
    worked := ?_ }
  · exact answers_of_full hb (by rw [Batch.enter, List.length_set]) hall
      fun hr => enter_entered hb hc hr
  · intro p'
    rw [h.waits_of_done p']
    by_cases heq : p'.1 = p.1
    · -- The batch is gone, and no place of it was free any more.
      simp only [hget, if_pos heq, reduceCtorEq, false_and, exists_false,
        iff_false]
      rw [heq, hbatch]
      simp only [Option.some.injEq, exists_eq_left']
      rw [← enter_free_iff hslot result heq]
      intro hfree
      have hmem := List.mem_of_getElem? hfree
      exact List.countP_eq_zero.mp hall _ hmem rfl
    · simp only [hget, if_neg heq]
      exact ⟨And.right, fun hfree => ⟨fun hpp => heq (congrArg Prod.fst hpp), hfree⟩⟩
  · intro p' hp'
    exact absurd hp' (by simp only [reduceCtorEq, not_false_eq_true])

/-- Entering the result of what was worked on finishes it. -/
theorem settle {p : Place} {o : Outcome} {result : ProcedureResult}
    (h : Books g l unstarted settling (some p)) (hc : g.Concluded p result)
    (ho : o.result? = some result) : Books g (l.settle p.1 p.2 o) unstarted settling none := by
  rcases h.worked_batch with ⟨batch, hbatch, hslot⟩
  rw [settle_eq ho hbatch]
  by_cases hmore : 0 < batch.remaining - 1
  · rw [if_pos hmore]
    exact h.settle_more hc hbatch hslot hmore
  · rw [if_neg hmore]
    exact h.settle_last hc hbatch hslot hmore

end Books

end Switchboard
