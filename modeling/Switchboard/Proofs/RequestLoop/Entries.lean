import Mathlib.Data.List.Nodup
import Switchboard.Proofs.RequestLoop.Ledger

/-!
# Entries

What a ledger says, and that it goes on saying it. Nothing is ever crossed out:
a later entry may set the mark of a request that was cut off, and apart from
that everything that was written down stays true (`Ledger.Extends`). So a result
that was right when it was entered is right for good, and a batch need not be
looked at again because of what is done to others.

A ledger that is kept in this way is coherent: its tickets and batches belong
together one to one, no place and no number occurs twice among the calls that
were dispatched, and each of these calls was asked for.

## Main definitions

* `Ledger.Filed`, `Ledger.Asked`, `Ledger.Concluded`: What the ledger says.
* `Ledger.Coherent`: What holds of the ledger itself.
* `Ledger.Extends`: What later entries leave as it is.

## Theorems

* `Extends.asked`, `Extends.concluded`, `Extends.holds`: What stays true.
* `coherent_operate`, `coherent_start`, `coherent_file`, `coherent_sever`: Every
  entry leaves the ledger coherent.
-/

namespace Switchboard

namespace Ledger

/-- The batch has the ticket, and the request was handed in under it. -/
structure Filed (g : Ledger) (b : BatchId) (t : Ticket) (s : Filing) : Prop where
  ticket : g.tickets.get? b = some t
  request : g.requests.get? t = some s

/-- The call at a place was dispatched, and the result is what its one final
    outcome amounts to. -/
def Concluded (g : Ledger) (p : Place) (result : ProcedureResult) : Prop :=
  ∃ x ∈ g.starts, x.entry.place = p ∧
    ∃ o, finals x.id g.record.events = [o] ∧ o.result? = some result

/-- The entry of a queue is the call at its place of the request that was handed
    in under the ticket. -/
def Asked (g : Ledger) (q : Queued) (t : Ticket) : Prop :=
  ∃ s, g.Filed q.batch t s ∧ q.connection = s.connection ∧ s.calls[q.slot]? = some q.call

/-- A call that was dispatched was asked for, and waits for the connection that
    asked for it. -/
structure Proper (g : Ledger) (x : Start) : Prop where
  below : x.id < g.nextCall
  asked : g.Asked x.entry x.ticket
  waiting : ∀ {c : Continuation}, g.record.session.waiting x.id = some c →
    c.ctx.connection = x.entry.connection

/-- What holds of a ledger by itself. -/
structure Coherent (g : Ledger) : Prop where
  valid : g.record.Valid
  unissued : ∀ id, g.record.session.issued.get? id = none
  filed : ∀ {b : BatchId} {t : Ticket}, g.tickets.get? b = some t →
    ∃ s, g.requests.get? t = some s
  injective : ∀ {b b' : BatchId} {t : Ticket}, g.tickets.get? b = some t →
    g.tickets.get? b' = some t → b = b'
  proper : ∀ x ∈ g.starts, g.Proper x
  places : (g.starts.map fun x => x.entry.place).Nodup
  ids : (g.starts.map Start.id).Nodup

/-- What a batch of the loop is, by the ledger. -/
structure Holds (g : Ledger) (b : BatchId) (batch : Batch) : Prop where
  filed : ∃ s, g.Filed b batch.ticket s ∧ batch.connection = s.connection ∧
    batch.results.length = s.calls.length
  remaining : batch.remaining = batch.results.countP Option.isNone
  unfinished : 0 < batch.remaining
  entered : ∀ {slot : Nat} {result : ProcedureResult},
    batch.results[slot]? = some (some result) → g.Concluded (b, slot) result

/-- A response is the right one for a ticket: it has one result for each call
    of the request, the one that the call's final outcome amounts to. -/
def Answers (g : Ledger) (t : Ticket) (response : Response) : Prop :=
  ∃ s, g.requests.get? t = some s ∧ response.results.length = s.calls.length ∧
    ∀ (i : Nat) (result : ProcedureResult), response.results[i]? = some result →
      ∃ b, g.tickets.get? b = some t ∧ g.Concluded (b, i) result

/-- The request of a ticket was cut off. -/
def Severed (g : Ledger) (t : Ticket) : Prop :=
  ∃ s, g.requests.get? t = some s ∧ s.severed = true

/-! ## Later entries -/

/-- What later entries leave as it is. Only the mark of a request may change,
    and only to being set. -/
structure Extends (g g' : Ledger) : Prop where
  tickets : ∀ {b : BatchId} {t : Ticket}, g.tickets.get? b = some t →
    g'.tickets.get? b = some t
  requests : ∀ {t : Ticket} {s : Filing}, g.requests.get? t = some s →
    ∃ severed, g'.requests.get? t = some { s with severed } ∧ (s.severed = true → severed = true)
  starts : ∀ x ∈ g.starts, x ∈ g'.starts
  finals : ∀ {id : CallId} {o : Outcome}, finals id g.record.events = [o] →
    Switchboard.finals id g'.record.events = [o]

variable {g g' : Ledger}

theorem Extends.refl (g : Ledger) : g.Extends g where
  tickets hb := hb
  requests {_ s} hs := ⟨s.severed, hs, id⟩
  starts _ hx := hx
  finals ho := ho

theorem Extends.filed (h : g.Extends g') {b : BatchId} {t : Ticket} {s : Filing}
    (hf : g.Filed b t s) : ∃ severed, g'.Filed b t { s with severed } := by
  rcases h.requests hf.request with ⟨severed, hrequest, _⟩
  exact ⟨severed, h.tickets hf.ticket, hrequest⟩

theorem Extends.asked (h : g.Extends g') {q : Queued} {t : Ticket} (ha : g.Asked q t) :
    g'.Asked q t := by
  rcases ha with ⟨s, hfiled, hconnection, hcall⟩
  rcases h.filed hfiled with ⟨severed, hfiled'⟩
  exact ⟨_, hfiled', hconnection, hcall⟩

-- What waits to be dispatched still does when nothing has been.
theorem Extends.queued (h : g.Extends g') (hstarts : g'.starts = g.starts) {q : Queued}
    (hq : (∃ t, g.Asked q t) ∧ ∀ x ∈ g.starts, x.entry.place ≠ q.place) :
    (∃ t, g'.Asked q t) ∧ ∀ x ∈ g'.starts, x.entry.place ≠ q.place := by
  rcases hq with ⟨⟨t, hasked⟩, hnew⟩
  rw [hstarts]
  exact ⟨⟨t, h.asked hasked⟩, hnew⟩

theorem Extends.concluded (h : g.Extends g') {p : Place} {result : ProcedureResult}
    (hc : g.Concluded p result) : g'.Concluded p result := by
  rcases hc with ⟨x, hx, hp, o, ho, hresult⟩
  exact ⟨x, h.starts x hx, hp, o, h.finals ho, hresult⟩

theorem Extends.holds (h : g.Extends g') {b : BatchId} {batch : Batch} (hb : g.Holds b batch) :
    g'.Holds b batch := by
  rcases hb.filed with ⟨s, hfiled, hconnection, hlength⟩
  rcases h.filed hfiled with ⟨severed, hfiled'⟩
  exact ⟨⟨_, hfiled', hconnection, hlength⟩, hb.remaining, hb.unfinished,
    fun hslot => h.concluded (hb.entered hslot)⟩

theorem Extends.answers (h : g.Extends g') {t : Ticket} {response : Response}
    (ha : g.Answers t response) : g'.Answers t response := by
  rcases ha with ⟨s, hrequest, hlength, hresults⟩
  rcases h.requests hrequest with ⟨severed, hrequest', _⟩
  refine ⟨_, hrequest', hlength, ?_⟩
  intro i result hi
  rcases hresults i result hi with ⟨b, hb, hconcluded⟩
  exact ⟨b, h.tickets hb, h.concluded hconcluded⟩

theorem Extends.severed (h : g.Extends g') {t : Ticket} (hs : g.Severed t) : g'.Severed t := by
  rcases hs with ⟨s, hrequest, hsevered⟩
  rcases h.requests hrequest with ⟨severed, hrequest', hkeep⟩
  exact ⟨_, hrequest', hkeep hsevered⟩

/-! ## Operations and calls -/

theorem extends_operate (h : g.Coherent) (op : Operation) : g.Extends (g.operate op) where
  tickets hb := hb
  requests {_ s} hs := ⟨s.severed, hs, id⟩
  starts _ hx := hx
  finals ho := h.valid.finals_operate op ho

theorem coherent_operate (h : g.Coherent) {op : Operation}
    (hissued : (g.record.session.perform op).issued = g.record.session.issued) :
    (g.operate op).Coherent where
  valid := Record.valid_operate h.valid op
  unissued id := by
    have hsame : (g.operate op).record.session.issued = g.record.session.issued := hissued
    rw [hsame]
    exact h.unissued id
  filed := h.filed
  injective := h.injective
  proper x hx := by
    have hx' := h.proper x hx
    refine ⟨?_, (extends_operate h op).asked hx'.asked, ?_⟩
    · exact Nat.lt_of_lt_of_le hx'.below (Session.kept_perform h.valid.sound op).nextCall
    -- What waits now waited before, for the same client.
    · intro c hc
      rcases Session.waiting_of_perform h.valid.sound (h.unissued x.id) hc with ⟨c', hc', hctx⟩
      rw [hctx]
      exact hx'.waiting hc'
  places := h.places
  ids := h.ids

/-- The number of a call that was dispatched is not the next one. -/
theorem Coherent.id_ne_nextCall (h : g.Coherent) {x : Start} (hx : x ∈ g.starts) :
    x.id ≠ g.nextCall := Nat.ne_of_lt (h.proper x hx).below

theorem extends_start (h : g.Coherent) (q : Queued) : g.Extends (g.start q) where
  tickets hb := hb
  requests {_ s} hs := ⟨s.severed, hs, id⟩
  starts _ hx := List.mem_append_left _ hx
  finals ho := (Record.valid_operate h.valid _).finals_operate _ (h.valid.finals_operate _ ho)

theorem nextCall_start (h : g.Coherent) (q : Queued) : g.nextCall < (g.start q).nextCall := by
  have hissue := Session.nextCall_lt_issue g.record.session q.connection
  have hkept := Session.kept_perform (Record.valid_operate h.valid (.issue q.connection)).sound
    (.dispatch g.nextCall q.call.qualifiedName q.call.arguments)
  exact Nat.lt_of_lt_of_le hissue hkept.nextCall

/-- Dispatching a call that was asked for and has not been dispatched. -/
theorem coherent_start (h : g.Coherent) {q : Queued} {t : Ticket} (hasked : g.Asked q t)
    (hnew : ∀ x ∈ g.starts, x.entry.place ≠ q.place) : (g.start q).Coherent where
  valid := Record.valid_call h.valid _ _ _
  unissued := Record.call_unissued h.unissued _ _ _
  filed := h.filed
  injective := h.injective
  proper := by
    intro x hx
    rw [start, List.mem_append, List.mem_singleton] at hx
    rcases hx with hx | rfl
    · have hx' := h.proper x hx
      refine ⟨Nat.lt_trans hx'.below (nextCall_start h q), (extends_start h q).asked hx'.asked, ?_⟩
      intro c hc
      exact hx'.waiting
        ((Record.call_waiting_other h.valid _ _ _ (h.id_ne_nextCall hx)).symm.trans hc)
    · refine ⟨nextCall_start h q, (extends_start h q).asked ?_, ?_⟩
      · rcases hasked with ⟨s, hfiled, hrest⟩
        refine ⟨s, ⟨?_, ?_⟩, hrest⟩
        · rw [hfiled.ticket]
          rfl
        · rw [hfiled.ticket]
          exact hfiled.request
      · intro c hc
        rw [Record.call_waiting_ctx h.valid _ _ _ hc]
  places := by
    rw [start, List.map_append, List.map_singleton, ← List.concat_eq_append]
    refine .concat ?_ h.places
    intro hmem
    rcases List.mem_map.mp hmem with ⟨x, hx, hplace⟩
    exact hnew x hx hplace
  ids := by
    rw [start, List.map_append, List.map_singleton, ← List.concat_eq_append]
    refine .concat ?_ h.ids
    intro hmem
    rcases List.mem_map.mp hmem with ⟨x, hx, hid⟩
    exact h.id_ne_nextCall hx hid

/-! ## Filing a request -/

theorem extends_file (hticket : g.requests.get? t = none) (hbatch : g.tickets.get? b = none)
    (connection : ConnectionId) (calls : List ProcedureCall) :
    g.Extends (g.file t b connection calls) where
  tickets {b' _} hb' := by
    unfold file
    by_cases hempty : calls.isEmpty = true
    · simp only [if_pos hempty]
      exact hb'
    · simp only [if_neg hempty, Table.get?_insert]
      rw [if_neg, hb']
      intro heq
      rw [heq, hbatch] at hb'
      exact absurd hb' (by simp only [reduceCtorEq, not_false_eq_true])
  requests {t' s} ht' := by
    refine ⟨s.severed, ?_, id⟩
    simp only [file, Table.get?_insert]
    rw [if_neg, ht']
    intro heq
    rw [heq, hticket] at ht'
    exact absurd ht' (by simp only [reduceCtorEq, not_false_eq_true])
  starts _ hx := hx
  finals ho := ho

/-- The requests after one is filed: the old ones, and the new one. -/
theorem requests_file {connection : ConnectionId} {calls : List ProcedureCall} {t' : Ticket}
    {s : Filing} (hs : (g.file t b connection calls).requests.get? t' = some s) :
    t' = t ∨ ∃ s', g.requests.get? t' = some s' := by
  by_cases heq : t' = t
  · exact Or.inl heq
  · simp only [file, Table.get?_insert, if_neg heq] at hs
    exact Or.inr ⟨s, hs⟩

/-- The tickets of batches after a request is filed: the old ones, and its own
    if it has calls. -/
theorem tickets_file {connection : ConnectionId} {calls : List ProcedureCall} {b' : BatchId}
    {t' : Ticket} (hb' : (g.file t b connection calls).tickets.get? b' = some t') :
    (b' = b ∧ t' = t ∧ calls.isEmpty = false) ∨ g.tickets.get? b' = some t' := by
  unfold file at hb'
  by_cases hempty : calls.isEmpty = true
  · simp only [if_pos hempty] at hb'
    exact Or.inr hb'
  · simp only [if_neg hempty, Table.get?_insert] at hb'
    by_cases heq : b' = b
    · rw [if_pos heq, Option.some.injEq] at hb'
      exact Or.inl ⟨heq, hb'.symm, Bool.eq_false_iff.mpr hempty⟩
    · rw [if_neg heq] at hb'
      exact Or.inr hb'

theorem coherent_file (h : g.Coherent) (hticket : g.requests.get? t = none)
    (hbatch : g.tickets.get? b = none) (connection : ConnectionId) (calls : List ProcedureCall) :
    (g.file t b connection calls).Coherent := by
  have hextends := extends_file hticket hbatch connection calls
  -- No batch had the new ticket.
  have hunused : ∀ b', g.tickets.get? b' ≠ some t := by
    intro b' hb'
    rcases h.filed hb' with ⟨s, hs⟩
    rw [hticket] at hs
    exact absurd hs (by simp only [reduceCtorEq, not_false_eq_true])
  refine { h with filed := ?_, injective := ?_, proper := ?_ }
  · intro b' t' hb'
    rcases tickets_file hb' with ⟨_, rfl, _⟩ | hold
    · exact ⟨⟨connection, calls, false⟩, by simp only [file, Table.get?_insert, if_true]⟩
    · rcases h.filed hold with ⟨s, hs⟩
      rcases hextends.requests hs with ⟨severed, hs', _⟩
      exact ⟨_, hs'⟩
  -- Two batches with one ticket are both new or both old.
  · intro b₁ b₂ t' h₁ h₂
    rcases tickets_file h₁ with ⟨hb₁, ht₁, _⟩ | hold₁
    · rcases tickets_file h₂ with ⟨hb₂, _, _⟩ | hold₂
      · exact hb₁.trans hb₂.symm
      · exact absurd (ht₁ ▸ hold₂) (hunused b₂)
    · rcases tickets_file h₂ with ⟨_, ht₂, _⟩ | hold₂
      · exact absurd (ht₂ ▸ hold₁) (hunused b₁)
      · exact h.injective hold₁ hold₂
  · intro x hx
    have hx' := h.proper x hx
    exact ⟨hx'.below, hextends.asked hx'.asked, hx'.waiting⟩

/-! ## Cutting requests off -/

theorem extends_sever (g : Ledger) (task : Task) : g.Extends (g.sever task) where
  tickets hb := hb
  requests {t s} hs := by
    refine ⟨s.severed || task.severs s.connection, ?_, ?_⟩
    · simp only [sever, Table.get?_mapRows, hs, Option.map_some]
    · intro hsevered
      rw [hsevered, Bool.true_or]
  starts _ hx := hx
  finals ho := ho

theorem coherent_sever (h : g.Coherent) (task : Task) : (g.sever task).Coherent := by
  have hextends := extends_sever g task
  refine { h with filed := ?_, proper := ?_ }
  · intro b' t' hb'
    rcases h.filed hb' with ⟨s, hs⟩
    rcases hextends.requests hs with ⟨severed, hs', _⟩
    exact ⟨_, hs'⟩
  · intro x hx
    have hx' := h.proper x hx
    exact ⟨hx'.below, hextends.asked hx'.asked, hx'.waiting⟩

/-- The requests after some are cut off: the same ones. -/
theorem requests_sever {task : Task} {s : Filing}
    (hs : (g.sever task).requests.get? t = some s) : ∃ s', g.requests.get? t = some s' := by
  simp only [sever, Table.get?_mapRows, Option.map_eq_some_iff] at hs
  rcases hs with ⟨s', hs', _⟩
  exact ⟨s', hs'⟩

/-- Cutting off marks the requests of the connections that are gone. -/
theorem severed_sever {task : Task} {s : Filing} (hs : g.requests.get? t = some s)
    (hgone : task.severs s.connection = true) : (g.sever task).Severed t := by
  refine ⟨{ s with severed := s.severed || task.severs s.connection }, ?_, ?_⟩
  · simp only [sever, Table.get?_mapRows, hs, Option.map_some]
  · rw [hgone, Bool.or_true]

end Ledger

end Switchboard
