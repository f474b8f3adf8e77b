import Switchboard.Proofs.RequestLoop.Entries

/-!
# Replies

How the outbox of a loop agrees with its ledger. A request is in one of two
states for ever after it was handed in: it has a batch, or it was replied to.
It goes from the first to the second once, when its batch is answered or
dropped, so there are never two replies for it.

Each way a batch comes or goes is one lemma here, in terms of the batches and
the outbox alone. What else the loop does at the same moment is of no matter.

## Main definitions

* `Replies`: The outbox and the ledger agree.

## Theorems

* `Replies.later`: Other entries do not matter.
* `Replies.answer`, `Replies.drop`: Batches go, with a reply.
* `Replies.opened`, `Replies.replace`: A batch comes, or gets a result.
-/

namespace Switchboard

/-- The outbox and the ledger agree, given the batches that are left. -/
structure Replies (g : Ledger) (batches : Table Batch) (outbox : List (Ticket × Reply)) :
    Prop where
  /-- No two replies are for one ticket, and no reply is for a batch. -/
  repliedOnce : (outbox.map Prod.fst).Nodup
  unreplied : ∀ {b : BatchId} {batch : Batch}, batches.get? b = some batch →
    batch.ticket ∉ outbox.map Prod.fst
  answered : ∀ {t : Ticket} {response : Response}, (t, Reply.answered response) ∈ outbox →
    g.Answers t response
  dropped : ∀ {t : Ticket}, (t, Reply.dropped) ∈ outbox → g.Severed t
  /-- Every request was replied to or is a batch. -/
  held : ∀ {t : Ticket} {s : Filing}, g.requests.get? t = some s →
    t ∈ outbox.map Prod.fst ∨ ∃ b batch, batches.get? b = some batch ∧ batch.ticket = t

namespace Replies

variable {g g' : Ledger} {batches batches' : Table Batch} {outbox : List (Ticket × Reply)}
  {t : Ticket}

-- A reply is for a request.
theorem filed (h : Replies g batches outbox) (ht : t ∈ outbox.map Prod.fst) :
    ∃ s, g.requests.get? t = some s := by
  rcases List.mem_map.mp ht with ⟨⟨t', reply⟩, hmem, rfl⟩
  cases reply with
  | answered response =>
      rcases h.answered hmem with ⟨s, hs, _⟩
      exact ⟨s, hs⟩
  | dropped =>
      rcases h.dropped hmem with ⟨s, hs, _⟩
      exact ⟨s, hs⟩

theorem not_replied (h : Replies g batches outbox) (hunfiled : g.requests.get? t = none) :
    t ∉ outbox.map Prod.fst := by
  intro hmem
  rcases h.filed hmem with ⟨s, hs⟩
  rw [hunfiled] at hs
  exact absurd hs (by simp only [reduceCtorEq, not_false_eq_true])

/-- Entries that are not requests do not matter to the outbox. -/
theorem later (h : Replies g batches outbox) (hextends : g.Extends g')
    (hrequests : ∀ {t : Ticket} {s : Filing}, g'.requests.get? t = some s →
      ∃ s', g.requests.get? t = some s') : Replies g' batches outbox where
  repliedOnce := h.repliedOnce
  unreplied := h.unreplied
  answered ht := hextends.answers (h.answered ht)
  dropped ht := hextends.severed (h.dropped ht)
  held hs := by
    rcases hrequests hs with ⟨s', hs'⟩
    exact h.held hs'

/-- A ticket is answered whose batch, if it had one, is taken away. The request
    may be one that has only just been entered. -/
theorem answer (h : Replies g batches outbox) (hextends : g.Extends g') {response : Response}
    (hanswers : g'.Answers t response) (hnew : t ∉ outbox.map Prod.fst)
    (hrequests : ∀ {t' : Ticket} {s : Filing}, g'.requests.get? t' = some s →
      t' = t ∨ ∃ s', g.requests.get? t' = some s')
    (hleft : ∀ {b : BatchId} {batch : Batch}, batches'.get? b = some batch ↔
      batches.get? b = some batch ∧ batch.ticket ≠ t) :
    Replies g' batches' (outbox ++ [(t, .answered response)]) := by
  have hreplied : ∀ {t' : Ticket}, t' ∈ (outbox ++ [(t, Reply.answered response)]).map Prod.fst ↔
      t' ∈ outbox.map Prod.fst ∨ t' = t := by
    intro t'
    rw [List.map_append, List.mem_append, List.map_singleton, List.mem_singleton]
  constructor
  · rw [List.map_append, List.map_singleton, ← List.concat_eq_append]
    exact .concat hnew h.repliedOnce
  · intro b batch hb
    rcases hleft.mp hb with ⟨hold, hother⟩
    rw [hreplied, not_or]
    exact ⟨h.unreplied hold, hother⟩
  · intro t' response' ht'
    rcases List.mem_append.mp ht' with hold | hlast
    · exact hextends.answers (h.answered hold)
    · rcases Prod.mk.inj (List.mem_singleton.mp hlast) with ⟨rfl, hsame⟩
      rw [Reply.answered.inj hsame]
      exact hanswers
  · intro t' ht'
    rcases List.mem_append.mp ht' with hold | hlast
    · exact hextends.severed (h.dropped hold)
    · exact absurd (Prod.mk.inj (List.mem_singleton.mp hlast)).2
        (by simp only [reduceCtorEq, not_false_eq_true])
  · intro t' s hs
    rw [hreplied]
    by_cases heq : t' = t
    · exact Or.inl (Or.inr heq)
    · rcases (hrequests hs).resolve_left heq with ⟨s', hs'⟩
      rcases h.held hs' with hold | ⟨b, batch, hb, hticket⟩
      · exact Or.inl (Or.inl hold)
      · exact Or.inr ⟨b, batch, hleft.mpr ⟨hb, by rw [hticket]; exact heq⟩, hticket⟩

/-- A batch comes, for a request that has only just been entered. -/
theorem opened (h : Replies g batches outbox) (hextends : g.Extends g')
    (hrequests : ∀ {t' : Ticket} {s : Filing}, g'.requests.get? t' = some s →
      t' = t ∨ ∃ s', g.requests.get? t' = some s')
    (hnew : t ∉ outbox.map Prod.fst) {b : BatchId} (hfree : batches.get? b = none) {batch : Batch}
    (hticket : batch.ticket = t) : Replies g' (batches.insert b batch) outbox where
  repliedOnce := h.repliedOnce
  unreplied {b' batch'} hb' := by
    rw [Table.get?_insert] at hb'
    by_cases heq : b' = b
    · rw [if_pos heq, Option.some.injEq] at hb'
      rw [← hb', hticket]
      exact hnew
    · rw [if_neg heq] at hb'
      exact h.unreplied hb'
  answered ht := hextends.answers (h.answered ht)
  dropped ht := hextends.severed (h.dropped ht)
  held {t' s} hs := by
    rcases hrequests hs with rfl | ⟨s', hs'⟩
    · exact Or.inr ⟨b, batch, by rw [Table.get?_insert, if_pos rfl], hticket⟩
    · rcases h.held hs' with hold | ⟨b', batch', hb', hticket'⟩
      · exact Or.inl hold
      · refine Or.inr ⟨b', batch', ?_, hticket'⟩
        rw [Table.get?_insert, if_neg, hb']
        intro heq
        rw [heq, hfree] at hb'
        exact absurd hb' (by simp only [reduceCtorEq, not_false_eq_true])

/-- A batch is replaced by one for the same ticket. -/
theorem replace (h : Replies g batches outbox) {b : BatchId} {batch batch' : Batch}
    (hbatch : batches.get? b = some batch) (hticket : batch'.ticket = batch.ticket) :
    Replies g (batches.insert b batch') outbox where
  repliedOnce := h.repliedOnce
  unreplied {b₁ batch₁} hb₁ := by
    rw [Table.get?_insert] at hb₁
    by_cases heq : b₁ = b
    · rw [if_pos heq, Option.some.injEq] at hb₁
      rw [← hb₁, hticket]
      exact h.unreplied hbatch
    · rw [if_neg heq] at hb₁
      exact h.unreplied hb₁
  answered := h.answered
  dropped := h.dropped
  held {t' s} hs := by
    rcases h.held hs with hold | ⟨b₁, batch₁, hb₁, hticket₁⟩
    · exact Or.inl hold
    · by_cases heq : b₁ = b
      · rw [heq, hbatch, Option.some.injEq] at hb₁
        refine Or.inr ⟨b, batch', by rw [Table.get?_insert, if_pos rfl], ?_⟩
        rw [hticket, hb₁, hticket₁]
      · exact Or.inr ⟨b₁, batch₁, by rw [Table.get?_insert, if_neg heq, hb₁], hticket₁⟩

/-! ## Dropping batches -/

theorem mem_dropped_iff {selected : Batch → Bool} :
    t ∈ (batches.filter fun _ b => selected b).values.map Batch.ticket ↔
      ∃ b batch, batches.get? b = some batch ∧ selected batch = true ∧ batch.ticket = t := by
  simp only [List.mem_map, Table.mem_values_iff, Table.get?_filter_eq_some_iff]
  constructor
  · rintro ⟨batch, ⟨b, hb, hselected⟩, ht⟩
    exact ⟨b, batch, hb, hselected, ht⟩
  · rintro ⟨b, batch, hb, hselected, ht⟩
    exact ⟨batch, ⟨b, hb, hselected⟩, ht⟩

/-- The batches that a test selects are dropped. Their requests were cut off,
    and no two batches are for one request. -/
theorem drop (h : Replies g batches outbox) (hextends : g.Extends g')
    (hrequests : ∀ {t : Ticket} {s : Filing}, g'.requests.get? t = some s →
      ∃ s', g.requests.get? t = some s')
    (hapart : ∀ {b b' : BatchId} {batch batch' : Batch}, batches.get? b = some batch →
      batches.get? b' = some batch' → batch.ticket = batch'.ticket → b = b')
    {selected : Batch → Bool}
    (hsevered : ∀ {b : BatchId} {batch : Batch}, batches.get? b = some batch →
      selected batch = true → g'.Severed batch.ticket) :
    Replies g' (batches.filter fun _ b => !selected b)
      (outbox ++ (batches.filter fun _ b => selected b).values.map fun b =>
        (b.ticket, .dropped)) := by
  have hleft : ∀ {b : BatchId} {batch : Batch},
      (batches.filter fun _ b => !selected b).get? b = some batch ↔
        batches.get? b = some batch ∧ selected batch = false := by
    intro b batch
    rw [Table.get?_filter_eq_some_iff, Bool.not_eq_true']
  have hreplied : (outbox ++ (batches.filter fun _ b => selected b).values.map fun b =>
        (b.ticket, Reply.dropped)).map Prod.fst =
      outbox.map Prod.fst ++ (batches.filter fun _ b => selected b).values.map Batch.ticket := by
    rw [List.map_append, List.map_map]
    rfl
  constructor
  · rw [hreplied, List.nodup_append]
    refine ⟨h.repliedOnce, ?_, ?_⟩
    · apply Table.values_map_nodup
      intro b b' batch batch' hb hb' hsame
      rw [Table.get?_filter_eq_some_iff] at hb hb'
      exact hapart hb.1 hb'.1 hsame
    · intro t ht t' ht' htt
      rcases mem_dropped_iff.mp ht' with ⟨b, batch, hb, _, hticket⟩
      exact h.unreplied hb (by rw [hticket, ← htt]; exact ht)
  · intro b batch hb
    rcases hleft.mp hb with ⟨hold, hstays⟩
    rw [hreplied, List.mem_append, not_or]
    refine ⟨h.unreplied hold, ?_⟩
    intro hdropped
    rcases mem_dropped_iff.mp hdropped with ⟨b', batch', hb', hselected, hticket⟩
    rw [hapart hb' hold hticket, hold, Option.some.injEq] at hb'
    rw [← hb', hstays] at hselected
    exact Bool.noConfusion hselected
  · intro t response ht
    rcases List.mem_append.mp ht with hold | hdropped
    · exact hextends.answers (h.answered hold)
    · rcases List.mem_map.mp hdropped with ⟨batch, _, hbatch⟩
      exact absurd (Prod.mk.inj hbatch).2 (by simp only [reduceCtorEq, not_false_eq_true])
  · intro t ht
    rcases List.mem_append.mp ht with hold | hdropped
    · exact hextends.severed (h.dropped hold)
    · rcases List.mem_map.mp hdropped with ⟨batch, hbatch, hticket⟩
      rcases Table.mem_values_iff.mp hbatch with ⟨b, hb⟩
      rcases Table.get?_filter_eq_some_iff.mp hb with ⟨hold, hselected⟩
      rw [← (Prod.mk.inj hticket).1]
      exact hsevered hold hselected
  · intro t s hs
    rcases hrequests hs with ⟨s', hs'⟩
    rw [hreplied, List.mem_append]
    rcases h.held hs' with hold | ⟨b, batch, hb, hticket⟩
    · exact Or.inl (Or.inl hold)
    · cases hselected : selected batch with
      | true => exact Or.inl (Or.inr (mem_dropped_iff.mpr ⟨b, batch, hb, hselected, hticket⟩))
      | false => exact Or.inr ⟨b, batch, hleft.mpr ⟨hb, hselected⟩, hticket⟩

end Replies

end Switchboard
