import Switchboard.Proofs.Interleaving.System
import Switchboard.Proofs.Objects.Numbers

/-!
# After a Disconnect

What is left of a connection once both halves of its disconnect have happened,
wherever they fell among the steps that were under way.

A step that runs has its call out of the table, and what it returns is entered
one instance at a time. So it is not enough that a disconnect empties the tables.
Steps that were under way come back to them later, and calls of the connection
may still be dispatched. What makes it final is that each table keeps a list of
the connections that are gone, and refuses what is brought for one of them.

The invariant is about these lists and not about steps (`Barred`). They only
grow, an owner of a live object is never on the one, and the connection of a
pending call is never on the other. The two halves put the connection on one list
each, and as neither table looks at the other's, it makes no difference what
happens between them.

## Main definitions

* `System.Barred`: What both tables know of the connections that are gone.

## Theorems

* `ObjectTable.register_closed`: Nothing is entered for a connection that is
  gone.
* `Barred.did`, `Barred.replay`: Every action keeps the lists.
* `Barred.proceed_parking`, `Barred.proceed_writing`: What a step that was under
  way meets with.
* `disconnected_for_good`: What is left of a connection.
-/

namespace Switchboard

namespace ObjectTable

/-- A connection that has disconnected stays closed. -/
theorem closed_perform {t : ObjectTable} {op : ObjectOperation} {connection : ConnectionId}
    (h : t.closed.contains connection = true) :
    (t.perform op).closed.contains connection = true := by
  cases op with
  | register object className owner =>
      simp only [perform]
      cases hf : t.entryOf? object with
      | some found =>
          rw [register_known hf]
          cases t.closed.contains owner <;> exact h
      | none =>
          rw [register_new hf]
          cases t.closed.contains owner <;> exact h
  | release id =>
      simp only [perform]
      rw [release_eq]
      cases t.entries.get? id <;> exact h
  | releaseOwner owner =>
      simp only [perform]
      rw [releaseOwner_closed, IdSet.contains_add]
      exact Or.inr h

/-- Entering an instance for a connection that is gone enters nothing. An
    instance that nobody else has is given a number that leads nowhere. -/
theorem register_closed {t : ObjectTable} (ht : t.Consistent) (object : Instance)
    (className : String) {owner : ConnectionId} (h : t.closed.contains owner = true) :
    (t.register object className owner).2.entries = t.entries ∧
    (t.register object className owner).2.addresses = t.addresses ∧
    (t.entryOf? object = none →
      (t.register object className owner).2.resolve (t.register object className owner).1.id =
        .error (.invalidReference (t.register object className owner).1.id)) := by
  cases hf : t.entryOf? object with
  | some found =>
      rw [register_known hf, if_pos h]
      exact ⟨rfl, rfl, fun hnone => nomatch hnone⟩
  | none =>
      rw [register_new hf, if_pos h]
      refine ⟨rfl, rfl, fun _ => (resolve_of_get?_eq_none ?_).1⟩
      cases hget : t.entries.get? t.nextId with
      | none => rfl
      | some entry => exact absurd (ht.issued t.nextId entry hget).2 (Nat.lt_irrefl _)

end ObjectTable

namespace System

variable {s s' : System} {action : Action}

/-- An action does at most one thing to the live objects. -/
theorem Did.objects (h : s.Did action s') :
    s'.dispatcher.objects = s.dispatcher.objects ∨
      ∃ op, s'.dispatcher.objects = s.dispatcher.objects.perform op := by
  cases h with
  | entered _ => exact Or.inr ⟨.register _ _ _, rfl⟩
  | vacated connection => exact Or.inr ⟨.releaseOwner connection, rfl⟩
  | released id => exact Or.inr ⟨.release id, rfl⟩
  | refused => exact Or.inl (conclude_objects ..)
  | failed => exact Or.inl (conclude_objects ..)
  | kept => exact Or.inl (conclude_objects ..)
  | turnedAway => exact Or.inl (conclude_objects ..)
  | written => exact Or.inl (conclude_objects ..)
  | _ => exact Or.inl rfl

/-- What is remembered of a disconnect was remembered before or has just
    happened. -/
theorem Did.halves (h : s.Did action s') (connection : ConnectionId) :
    (.vacated connection ∈ s'.history →
      action = .vacate connection ∨ .vacated connection ∈ s.history) ∧
    (.cleared connection ∈ s'.history →
      action = .clear connection ∨ .cleared connection ∈ s.history) := by
  rcases h.history with ⟨recent, hrecent, hhalves⟩
  rw [hrecent, List.mem_append, List.mem_append]
  exact ⟨Or.imp_left (hhalves connection).1, Or.imp_left (hhalves connection).2⟩

/-- What both tables know of the connections that are gone. -/
structure Barred (s : System) : Prop where
  consistent : s.dispatcher.objects.Consistent
  vacated : ∀ connection, .vacated connection ∈ s.history →
    s.dispatcher.objects.closed.contains connection = true
  cleared : ∀ connection, .cleared connection ∈ s.history →
    s.dispatcher.pending.closed.contains connection = true
  waiting_open : ∀ id c, s.dispatcher.pending.waiting.get? id = some c →
    s.dispatcher.pending.closed.contains c.ctx.connection = false

namespace Barred

theorem start (catalog : Catalog) (config : ServerConfig) :
    (System.start catalog config).Barred where
  consistent := .init
  vacated _ h := absurd h List.not_mem_nil
  cleared _ h := absurd h List.not_mem_nil
  waiting_open _ _ h := nomatch h

theorem did (h : s.Barred) (hdid : s.Did action s') : s'.Barred where
  consistent := by
    rcases hdid.objects with hsame | ⟨op, hop⟩
    · exact hsame ▸ h.consistent
    · exact hop ▸ h.consistent.perform op
  vacated connection hmem := by
    rcases (hdid.halves connection).1 hmem with rfl | hold
    · cases hdid with
      | nothing => exact h.vacated connection hmem
      | vacated =>
          simp only [remember, ObjectTable.releaseOwner_closed, IdSet.contains_add, true_or]
    · rcases hdid.objects with hsame | ⟨op, hop⟩
      · exact hsame ▸ h.vacated connection hold
      · exact hop ▸ ObjectTable.closed_perform (h.vacated connection hold)
  cleared connection hmem := by
    rcases (hdid.halves connection).2 hmem with rfl | hold
    · cases hdid with
      | nothing => exact h.cleared connection hmem
      | cleared =>
          simp only [remember, PendingCalls.discardConnection, IdSet.contains_add, true_or]
    · have hclosed := h.cleared connection hold
      rcases hdid.pending with hsame | ⟨id, hid⟩ | ⟨c, _, _, hc⟩ | ⟨other, hother⟩
      · exact hsame ▸ hclosed
      · exact hid ▸ hclosed
      · exact hc ▸ hclosed
      · rw [hother, PendingCalls.discardConnection, IdSet.contains_add]
        exact Or.inr hclosed
  waiting_open id c hget := by
    rcases hdid.pending with hsame | ⟨id', hid⟩ | ⟨c', hopen, _, hc⟩ | ⟨other, hother⟩
    · rw [hsame] at hget ⊢
      exact h.waiting_open id c hget
    · rw [hid] at hget ⊢
      exact h.waiting_open id c (Table.get?_erase_eq_some_iff.mp hget).1
    · rw [hc] at hget ⊢
      simp only [PendingCalls.keep, Table.get?_insert] at hget ⊢
      by_cases hsame : id = c'.ctx.call
      · rw [if_pos hsame, Option.some.injEq] at hget
        exact hget ▸ hopen
      · rw [if_neg hsame] at hget
        exact h.waiting_open id c hget
    · rw [hother] at hget ⊢
      rw [PendingCalls.discardConnection, Table.get?_filter_eq_some_iff, bne_iff_ne] at hget
      -- What is kept belongs to others, and they are as open as before.
      rw [PendingCalls.discardConnection, ← Bool.not_eq_true, IdSet.contains_add, not_or]
      exact ⟨hget.2, Bool.not_eq_true _ ▸ h.waiting_open id c hget.1⟩

theorem replay (h : s.Barred) (actions : List Action) : (s.replay actions).Barred := by
  induction actions generalizing s with
  | nil => exact h
  | cons action rest ih => exact ih (h.did (s.did_perform action))

/-- A step of a connection that is gone cannot put its call back. -/
theorem proceed_parking (h : s.Barred) {w : WorkerId} {c : Continuation}
    (hparking : (s.workers w).activity = .parking c)
    (hcleared : .cleared c.ctx.connection ∈ s.history) :
    s.perform (.proceed w) =
      s.conclude w c.ctx (.failed (Dispatcher.connectionGone c.ctx.connection)) := by
  have hclosed := h.cleared _ hcleared
  rw [perform, hparking]
  simp only [park, PendingCalls.park, hclosed, if_true]

/-- A step of a connection that is gone enters nothing. -/
theorem proceed_writing (h : s.Barred) {w : WorkerId} {p : Turn} {object : Instance}
    {className : String} {rest : ObjectId → Draft (Option Value)}
    (hwriting : (s.workers w).activity = .writing p (.enter object className rest))
    (hvacated : .vacated p.ctx.connection ∈ s.history) :
    (s.perform (.proceed w)).dispatcher.objects.entries = s.dispatcher.objects.entries ∧
    (s.perform (.proceed w)).dispatcher.objects.addresses = s.dispatcher.objects.addresses ∧
    ∃ id, ((s.perform (.proceed w)).workers w).activity = .writing p (rest id) ∧
      (s.dispatcher.objects.entryOf? object = none →
        (s.perform (.proceed w)).dispatcher.objects.resolve id =
          .error (.invalidReference id)) := by
  rcases ObjectTable.register_closed h.consistent object className (h.vacated _ hvacated) with
    ⟨hentries, haddresses, hresolve⟩
  rw [perform, hwriting]
  exact ⟨hentries, haddresses, _, by simp only [write, occupy, assign, if_true], hresolve⟩

end Barred

/-! ## Disconnected for good -/

/-- Once both halves of a disconnect have happened, whatever happens around and
    after them, no live object has the connection among its owners and no call
    of it is pending. A step that still ran cannot put its call back and fails
    for that; nothing is entered for what it returns, and an instance that
    nobody else has is given a number that leads nowhere. -/
theorem disconnected_for_good (catalog : Catalog) (config : ServerConfig)
    (earlier later : List Action) (connection : ConnectionId)
    (hvacated : .vacated connection ∈ ((System.start catalog config).replay earlier).history)
    (hcleared : .cleared connection ∈ ((System.start catalog config).replay earlier).history) :
    ∀ s, s = (System.start catalog config).replay (earlier ++ later) →
      (∀ id entry, s.dispatcher.objects.entries.get? id = some entry →
        entry.owners.contains connection = false) ∧
      (∀ id c, s.dispatcher.pending.waiting.get? id = some c → c.ctx.connection ≠ connection) ∧
      (∀ w c, (s.workers w).activity = .parking c → c.ctx.connection = connection →
        (s.perform (.proceed w)).dispatcher.pending = s.dispatcher.pending ∧
        ((s.perform (.proceed w)).workers w).activity = .idle ∧
        ∃ e, (s.perform (.proceed w)).history = .concluded c.ctx (.failed e) :: s.history ∧
          e.kind = .nativeFault ∧ e.message = "connection " ++ connection.repr ++ " disconnected") ∧
      ∀ w p object className rest,
        (s.workers w).activity = .writing p (.enter object className rest) →
        p.ctx.connection = connection →
        (s.perform (.proceed w)).dispatcher.objects.entries = s.dispatcher.objects.entries ∧
        (s.perform (.proceed w)).dispatcher.objects.addresses = s.dispatcher.objects.addresses ∧
        ∃ id, ((s.perform (.proceed w)).workers w).activity = .writing p (rest id) ∧
          (s.dispatcher.objects.entryOf? object = none →
            (s.perform (.proceed w)).dispatcher.objects.resolve id =
              .error (.invalidReference id)) := by
  rintro s rfl
  have hbarred := (Barred.start catalog config).replay (earlier ++ later)
  rcases history_replay ((System.start catalog config).replay earlier) later with
    ⟨recent, hrecent⟩
  rw [← replay_append] at hrecent
  have hvacated' := hrecent ▸ List.mem_append_right recent hvacated
  have hcleared' := hrecent ▸ List.mem_append_right recent hcleared
  refine ⟨fun id entry hentry => ?_, fun id c hget => ?_, ?_, ?_⟩
  · cases howns : entry.owners.contains connection with
    | false => rfl
    | true =>
        have hopen := hbarred.consistent.owners_open id entry connection hentry howns
        rw [hbarred.vacated connection hvacated'] at hopen
        exact absurd hopen (by decide)
  · rintro rfl
    have hopen := hbarred.waiting_open id c hget
    rw [hbarred.cleared _ hcleared'] at hopen
    exact absurd hopen (by decide)
  · rintro w c hparking rfl
    rw [hbarred.proceed_parking hparking hcleared']
    exact ⟨conclude_pending .., by simp only [conclude, remember, occupy, assign, if_true],
      _, rfl, rfl, rfl⟩
  · rintro w p object className rest hwriting rfl
    exact hbarred.proceed_writing hwriting hvacated'

/-- A procedure that waits, and one that returns an object. -/
def gatedCatalog : Catalog where
  services := ⟨[]⟩
  directory := ⟨[
    ⟨"S.Wait", "S", ⟨"Wait", [], none, "", true⟩, return .yield .null⟩,
    ⟨"S.Make", "S", ⟨"Make", [], some (.instanceOf "S" "C"), "", false⟩,
      return .value (.object ⟨5, .label "made"⟩)⟩]⟩

/-- A connection disconnects while both procedures are under way for it. -/
def gatedActions : List Action :=
  [.arrive 1, .arrive 1,
    .dispatch 0 (Call.bare ⟨1, 1⟩ "S.Wait") (.ok []),
    .dispatch 1 (Call.bare ⟨2, 1⟩ "S.Make") (.ok []),
    .handle 0 (.ok (.yield .null)) {},
    .vacate 1,
    .handle 1 (.ok (.value (.object ⟨5, .label "made"⟩))) {},
    .clear 1]

theorem gatedActions_leave_nothing :
    .vacated 1 ∈ ((System.start gatedCatalog {}).replay gatedActions).history ∧
    .cleared 1 ∈ ((System.start gatedCatalog {}).replay gatedActions).history ∧
    ∀ s, s = (System.start gatedCatalog {}).replay (gatedActions ++ [.arrive 2]) →
      (∃ e, (s.perform (.proceed 0)).history = .concluded ⟨1, 1⟩ (.failed e) :: s.history ∧
        e.message = "connection 1 disconnected") ∧
      ∃ id, (s.perform (.proceed 1)).dispatcher.objects.resolve id =
        .error (.invalidReference id) := by
  have hvacated : .vacated 1 ∈ ((System.start gatedCatalog {}).replay gatedActions).history :=
    .tail _ (.head _)
  have hcleared : .cleared 1 ∈ ((System.start gatedCatalog {}).replay gatedActions).history :=
    .head _
  refine ⟨hvacated, hcleared, ?_⟩
  rintro s rfl
  rcases disconnected_for_good gatedCatalog {} gatedActions [.arrive 2] 1 hvacated hcleared _ rfl
    with ⟨_, _, hparking, hwriting⟩
  rcases hparking 0 _ rfl rfl with ⟨_, _, e, hhistory, _, hmessage⟩
  rcases hwriting 1 _ _ _ _ rfl rfl with ⟨_, _, id, _, hnowhere⟩
  exact ⟨⟨e, hhistory, hmessage⟩, id, hnowhere rfl⟩

end System

end Switchboard
