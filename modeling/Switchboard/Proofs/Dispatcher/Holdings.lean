import Switchboard.Proofs.Coercion.Misfits
import Switchboard.Proofs.Dispatcher.Provenance

/-!
# Who Holds What

A connection holds the objects that it owns and the calls of its own that wait. It
comes to hold something only by a turn of one of its calls. Such a turn may come late,
after its connection has disconnected, and then it adds nothing: both tables are
closed to the connection, so no entry gains it as an owner and no call of it is put
back.

`Held` says of some connections that nobody else holds anything, and of some others
that they are gone. A turn keeps this if its connection is one of either. Disconnecting
takes a connection from the first to the second, and after the last one nothing is
held, and so nothing is left: an entry always has an owner, and a pending call always
has a connection.

## Main definitions

* `Held`: Who may hold something, and who is gone.

## Theorems

* `Held.dispatch`, `Held.advanceAll`: Turns of calls.
* `Held.disconnect`: A connection goes.
* `Held.nothing`: Nothing is left if nobody holds anything.
* `Session.held_replay`: Whatever is done to a dispatcher, its tables are in order.
-/

namespace Switchboard

/-- Objects and pending calls are in order. The connections that own an object or wait
    for a call are among the first ones given, and both tables are closed to the
    second ones. -/
structure Held (among gone : ConnectionId → Prop) (objects : ObjectTable)
    (pending : PendingCalls) : Prop where
  consistent : objects.Consistent
  orderly : pending.Orderly
  owners : ∀ {id : ObjectId} {entry : ObjectEntry} {owner : ConnectionId},
    objects.entries.get? id = some entry → entry.owners.contains owner = true → among owner
  callers : ∀ {id : CallId} {c : Continuation}, pending.waiting.get? id = some c →
    among c.ctx.connection
  disowned : ∀ {connection : ConnectionId}, gone connection →
    objects.closed.contains connection = true
  uncalled : ∀ {connection : ConnectionId}, gone connection →
    pending.closed.contains connection = true

namespace PendingCalls

/-- A call that is pending was put back, or was pending before. -/
theorem of_get?_keep {pending : PendingCalls} {next : Option Continuation} {id : CallId}
    {c : Continuation} (h : (pending.keep next).waiting.get? id = some c) :
    (id = c.ctx.call ∧ next = some c) ∨ pending.waiting.get? id = some c := by
  cases next with
  | none => exact .inr h
  | some parked =>
      rw [keep, Table.get?_insert] at h
      split at h
      next hid =>
        obtain rfl : parked = c := Option.some.inj h
        exact .inl ⟨hid, rfl⟩
      next => exact .inr h

/-- A call that is put back was connected and may yield. -/
theorem Orderly.keep {pending : PendingCalls} (h : pending.Orderly) {next : Option Continuation}
    (hnext : ∀ c, next = some c → c.descriptor.procedure.blocking = true ∧
      pending.closed.contains c.ctx.connection = false) : (pending.keep next).Orderly where
  named hc := by
    rcases of_get?_keep hc with ⟨hid, _⟩ | hold
    · exact hid.symm
    · exact h.named hold
  blocking hc := by
    rcases of_get?_keep hc with ⟨_, hparked⟩ | hold
    · exact (hnext _ hparked).1
    · exact h.blocking hold
  connected hc := by
    rw [keep_closed]
    rcases of_get?_keep hc with ⟨_, hparked⟩ | hold
    · exact (hnext _ hparked).2
    · exact h.connected hold

end PendingCalls

/-! ## Turns -/

namespace Dispatcher

/-- A step only adds to the live objects. -/
theorem step_grows {d : Dispatcher} (h : d.objects.Consistent) (p : Turn) :
    d.objects.Grows p.ctx.connection (fun _ => True) (d.step p).2.objects := by
  rcases step_objects d p with hsame | ⟨value, _, hwritten⟩
  · rw [hsame]
    exact .refl _ _ _
  · rw [hwritten]
    exact (writeReturn_grows h d.catalog.services p value).mono fun _ _ => trivial

theorem step_consistent {d : Dispatcher} (h : d.objects.Consistent) (p : Turn) :
    (d.step p).2.objects.Consistent := by
  rcases step_objects d p with hsame | ⟨value, _, hwritten⟩
  · rw [hsame]
    exact h
  · rcases writeReturn_along d.catalog.services p value d.objects with ⟨entered, _, htable⟩
    rw [hwritten, htable]
    exact h.enterAll p.ctx.connection entered

end Dispatcher

namespace Held

open Dispatcher

variable {among gone : ConnectionId → Prop} {d : Dispatcher}

theorem fresh (among : ConnectionId → Prop) : Held among (fun _ => False) {} {} where
  consistent := .init
  orderly := ⟨nofun, nofun, nofun⟩
  owners := nofun
  callers := nofun
  disowned := nofun
  uncalled := nofun

/-- Others may hold something, and others may be gone as far as it is known. -/
theorem imp {among' gone' : ConnectionId → Prop} {objects : ObjectTable} {pending : PendingCalls}
    (h : Held among gone objects pending) (hamong : ∀ {c}, among c → among' c)
    (hgone : ∀ {c}, gone' c → gone c) : Held among' gone' objects pending :=
  { h with
    owners := fun he ho => hamong (h.owners he ho)
    callers := fun hc => hamong (h.callers hc)
    disowned := fun hc => h.disowned (hgone hc)
    uncalled := fun hc => h.uncalled (hgone hc) }

/-- A step of a call of a connection that may hold something or is gone. -/
theorem step (h : Held among gone d.objects d.pending) {p : Turn}
    (hp : among p.ctx.connection ∨ gone p.ctx.connection) :
    Held among gone (d.step p).2.objects (d.step p).2.pending := by
  have hgrows := step_grows h.consistent p
  have hconsistent := step_consistent h.consistent p
  rcases step_concludes d p with ⟨next, objects', hconcludes, hbecame⟩
  -- A call that is put back is that of the turn, and was connected.
  have hnext : ∀ c, next = some c → c.ctx = p.ctx ∧ c.descriptor.procedure.blocking = true ∧
      d.pending.closed.contains c.ctx.connection = false := by
    intro c hc
    rcases hconcludes.final_or_parked with ⟨_, hn⟩ | ⟨progress, _, hblocking, hhere, _, hn⟩
    · exact nomatch hc.symm.trans hn
    · obtain rfl : c = p.parked progress := Option.some.inj (hc.symm.trans hn)
      rw [connected, Bool.not_eq_true'] at hhere
      exact ⟨rfl, hblocking, hhere⟩
  refine ⟨hconsistent, ?_, ?_, ?_, ?_, ?_⟩
  · rw [hbecame.pending]
    exact h.orderly.keep fun c hc => (hnext c hc).2
  · intro id entry owner hentry howner
    rcases hgrows.owned hentry howner with rfl | ⟨entry₀, hbefore, hold⟩
    · -- It is the connection of the turn, and it has not disconnected.
      have hopen := hconsistent.owners_open id entry _ hentry howner
      rw [hgrows.closed] at hopen
      rcases hp with hp | hp
      · exact hp
      · exact absurd (hopen.symm.trans (h.disowned hp)) Bool.false_ne_true
    · exact h.owners hbefore hold
  · intro id c hc
    rw [hbecame.pending] at hc
    rcases PendingCalls.of_get?_keep hc with ⟨_, hparked⟩ | hold
    · rcases hnext c hparked with ⟨hctx, _, hopen⟩
      rw [hctx] at hopen ⊢
      rcases hp with hp | hp
      · exact hp
      · exact absurd (hopen.symm.trans (h.uncalled hp)) Bool.false_ne_true
    · exact h.callers hold
  · rw [hgrows.closed]
    exact h.disowned
  · rw [hbecame.pending, PendingCalls.keep_closed]
    exact h.uncalled

theorem dispatch (h : Held among gone d.objects d.pending) (call : Call)
    (hcall : among call.ctx.connection ∨ gone call.ctx.connection) :
    Held among gone (d.dispatch call).2.objects (d.dispatch call).2.pending := by
  cases hprepare : d.prepare call with
  | error e =>
      rcases dispatch_refused hprepare with ⟨_, hbecame⟩
      rw [hbecame.objects, hbecame.pending]
      exact h
  | ok p =>
      have hctx := prepare_ctx hprepare
      rw [dispatch_of_ok hprepare, countOutcome_objects, countOutcome_pending]
      exact Held.step (d := d.countDispatch) h (hctx ▸ hcall)

theorem without (h : Held among gone d.objects d.pending) (id : CallId) :
    Held among gone (d.without id).objects (d.without id).pending :=
  { h with
    orderly := Session.orderly_erase h.orderly id
    callers := fun hc => h.callers (Table.get?_erase_eq_some_iff.mp hc).1 }

theorem advance (h : Held among gone d.objects d.pending) (id : CallId) :
    Held among gone (d.advance id).2.objects (d.advance id).2.pending := by
  cases hw : d.pending.waiting.get? id with
  | none =>
      rw [(advance_absent hw).2]
      exact h
  | some c =>
      rw [advance_of_waiting hw, countOutcome_objects, countOutcome_pending]
      -- It was pending, so its connection may hold something.
      exact Held.step (d := (d.without id).countResume) (p := c.turn) (h.without id)
        (.inl (h.callers hw))

theorem advanceAll (h : Held among gone d.objects d.pending) (ids : List CallId) :
    Held among gone (d.advanceAll ids).2.objects (d.advanceAll ids).2.pending := by
  induction ids generalizing d with
  | nil => exact h
  | cons id rest ih => exact ih (h.advance id)

theorem tick (h : Held among gone d.objects d.pending) :
    Held among gone d.tick.2.objects d.tick.2.pending :=
  Held.advanceAll (d := d.countTick) h d.pending.ids

/-! ## Letting go -/

theorem release (h : Held among gone d.objects d.pending) (id : ObjectId) :
    Held among gone (d.release id).2.objects (d.release id).2.pending := by
  have hleft : (d.release id).2.objects.closed = d.objects.closed ∧
      ∀ {k entry}, (d.release id).2.objects.entries.get? k = some entry →
        d.objects.entries.get? k = some entry := by
    simp only [Dispatcher.release, ObjectTable.release_eq]
    cases d.objects.entries.get? id with
    | none => exact ⟨rfl, fun hk => hk⟩
    | some released => exact ⟨rfl, fun hk => (Table.get?_erase_eq_some_iff.mp hk).1⟩
  exact
    { h with
      consistent := h.consistent.release id
      owners := fun he => h.owners (hleft.2 he)
      disowned := fun hc => hleft.1 ▸ h.disowned hc }

/-- A connection that disconnects holds nothing any more and is gone. -/
theorem disconnect (h : Held among gone d.objects d.pending) (connection : ConnectionId) :
    Held (fun c => among c ∧ c ≠ connection) (fun c => gone c ∨ c = connection)
      (d.disconnect connection).2.objects (d.disconnect connection).2.pending := by
  refine ⟨h.consistent.releaseOwner connection, Session.orderly_disconnect h.orderly connection,
    ?_, ?_, ?_, ?_⟩
  · intro id entry owner hentry howner
    have hleft : (d.objects.releaseOwner connection).2.entries.get? id = some entry := hentry
    rw [ObjectTable.get?_releaseOwner, Option.map_eq_some_iff] at hleft
    rcases hleft with ⟨entry₀, hlive, rfl⟩
    rcases (IdSet.contains_erase _ _ _).mp howner with ⟨hne, howner₀⟩
    exact ⟨h.owners (Option.filter_eq_some_iff.mp hlive).1 howner₀, hne⟩
  · intro id c hc
    rcases PendingCalls.get?_discardConnection_eq_some_iff.mp hc with ⟨hwaiting, hother⟩
    exact ⟨h.callers hwaiting, hother⟩
  · intro c hc
    have hclosed : (d.objects.releaseOwner connection).2.closed.contains c = true := by
      rw [ObjectTable.releaseOwner_closed, IdSet.contains_add]
      exact hc.symm.imp_right h.disowned
    exact hclosed
  · intro c hc
    exact (IdSet.contains_add _ _ _).mpr (hc.symm.imp_right h.uncalled)

/-- What nobody holds is not there. -/
theorem nothing {objects : ObjectTable} {pending : PendingCalls}
    (h : Held (fun _ => False) gone objects pending) : objects.size = 0 ∧ pending.size = 0 := by
  constructor
  · refine List.length_eq_zero_iff.mpr (List.eq_nil_iff_forall_not_mem.mpr fun row hrow => ?_)
    have hentry := Table.mem_rows_iff.mp hrow
    rcases Table.isEmpty_eq_false_iff.mp (h.consistent.owned _ _ hentry) with ⟨owner, howner⟩
    exact h.owners hentry howner
  · refine List.length_eq_zero_iff.mpr (List.eq_nil_iff_forall_not_mem.mpr fun row hrow => ?_)
    exact h.callers (Table.mem_rows_iff.mp hrow)

theorem discard (h : Held among gone d.objects d.pending) (id : CallId) :
    Held among gone d.objects (d.pending.discard id).2 := h.without id

end Held

/-! ## Sessions -/

/-- In a session objects and pending calls stay in order. -/
theorem Session.held_replay (catalog : Catalog) (config : ServerConfig) (world : World)
    (operations : List Operation) :
    Held (fun _ => True) (fun _ => False)
      ((fresh catalog config world).replay operations).dispatcher.objects
      ((fresh catalog config world).replay operations).dispatcher.pending := by
  have hfresh : Held (fun _ => True) (fun _ => False)
      (fresh catalog config world).dispatcher.objects
      (fresh catalog config world).dispatcher.pending := .fresh _
  generalize fresh catalog config world = s at hfresh
  induction operations generalizing s with
  | nil => exact hfresh
  | cons op rest ih =>
      refine ih (s.perform op) ?_
      cases op with
      | issue | alter | report => exact hfresh
      | dispatch id procedure arguments =>
          simp only [perform]
          cases s.callOf? id procedure arguments with
          | none => exact hfresh
          | some call => exact hfresh.dispatch call (.inl trivial)
      | tick => exact hfresh.tick
      | resume id => exact hfresh.advance id
      | release id => exact hfresh.release id
      | disconnect connection =>
          exact (hfresh.disconnect connection).imp (fun _ => trivial) fun hnone => hnone.elim
      | discard id => exact hfresh.discard id

end Switchboard
