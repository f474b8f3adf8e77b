import Switchboard.Proofs.Dispatcher.Advance

/-!
# Sessions

A dispatcher under everything that can be done to it, in any order. A call gets
its number first and is dispatched with it later, and any number of other things
may happen between the two; a session therefore keeps the numbers that were
given out and not yet used, with the connections they were given out for. A
number is used once: dispatching without having been given a number does
nothing. Besides its own operations a session allows for what the host program
does on its own: it may change what procedures share, and the health it
reports, at any time.

An operation is judged by what it does to a single call, because calls
interleave and nothing can be said of all of them at once. `Session.Change`
lists what can happen to one call, whatever the operation is and whatever it
does to others: usually nothing; once, its first turn; while it waits, one more
turn each time it is its turn; and at last it may be given up.

## Main definitions

* `Operation`, `Session`: What can be done, and to what.
* `Session.perform`, `Session.events`: One operation.
* `Session.replay`, `Session.history`: Many.
* `Session.Sound`: What always holds.
* `Session.Change`: What an operation does to one call.

## Theorems

* `change`: Every operation does one of the listed things to a call.
* `sound_perform`, `sound_replay`: Soundness is kept.
* `absent_replay`: Nothing happens to a call that does not wait.
-/

namespace Switchboard

/-! ## Sessions -/

/-- What can be done to a dispatcher. -/
inductive Operation where
  /-- A number is given out for a call of a connection. -/
  | issue (connection : ConnectionId)
  /-- A call is dispatched under a number that was given out. -/
  | dispatch (id : CallId) (procedure : String) (arguments : List Argument)
  | tick
  | resume (id : CallId)
  | release (id : ObjectId)
  | disconnect (connection : ConnectionId)
  | discard (id : CallId)
  /-- The host program changes what procedures share. -/
  | alter (world : World)
  /-- The host program changes the health it reports. -/
  | report (health : Health)

/-- Whether an operation gives a pending call a turn. -/
def Operation.advances (id : CallId) : Operation → Bool
  | .tick => true
  | .resume id' => id' == id
  | _ => false

/-- Whether an operation gives up a pending call. -/
def Operation.drops (ctx : CallContext) : Operation → Bool
  | .disconnect connection => connection == ctx.connection
  | .discard id => id == ctx.call
  | _ => false

/-- A dispatcher with the numbers that were given out and not used. -/
structure Session where
  dispatcher : Dispatcher
  /-- The connection each of the numbers was given out for. -/
  issued : Table ConnectionId := {}

namespace Session

/-- A session that begins. -/
def fresh (catalog : Catalog) (config : ServerConfig) (world : World) : Session :=
  { dispatcher := { catalog, config, world } }

/-- The continuation of a call that is pending. -/
def waiting (s : Session) (id : CallId) : Option Continuation :=
  s.dispatcher.pending.waiting.get? id

/-- The call that an operation dispatches, if its number was given out. -/
def callOf? (s : Session) (id : CallId) (procedure : String) (arguments : List Argument) :
    Option Call :=
  (s.issued.get? id).map fun connection => ⟨⟨id, connection⟩, procedure, arguments⟩

/-- One operation. -/
def perform (s : Session) : Operation → Session
  | .issue connection =>
    { dispatcher := (s.dispatcher.context connection).2
      issued := s.issued.insert (s.dispatcher.context connection).1.call connection }
  | .dispatch id procedure arguments =>
    match s.callOf? id procedure arguments with
    | some call =>
      { dispatcher := (s.dispatcher.dispatch call).2, issued := s.issued.erase id }
    | none => s
  | .tick => { s with dispatcher := s.dispatcher.tick.2 }
  | .resume id => { s with dispatcher := (s.dispatcher.resume id).2 }
  | .release id => { s with dispatcher := (s.dispatcher.release id).2 }
  | .disconnect connection => { s with dispatcher := (s.dispatcher.disconnect connection).2 }
  | .discard id =>
    { s with
      dispatcher := { s.dispatcher with pending := (s.dispatcher.pending.discard id).2 } }
  | .alter world => { s with dispatcher := { s.dispatcher with world } }
  | .report health => { s with dispatcher := s.dispatcher.setHealth health }

/-- What happens to calls in an operation. -/
def events (s : Session) : Operation → List Event
  | .dispatch id procedure arguments =>
    ((s.callOf? id procedure arguments).map s.dispatcher.dispatchEvent).toList
  | .tick => s.dispatcher.countTick.advanceEvents s.dispatcher.pending.ids
  | .resume id => (s.dispatcher.advanceEvent? id).toList
  | _ => []

/-- One operation after the other. -/
def replay (s : Session) (operations : List Operation) : Session := operations.foldl perform s

/-- All that happens to calls in a session. -/
def history (s : Session) : List Operation → List Event
  | [] => []
  | op :: rest => s.events op ++ (s.perform op).history rest

theorem replay_cons (s : Session) (op : Operation) (rest : List Operation) :
    s.replay (op :: rest) = (s.perform op).replay rest := rfl

theorem replay_append (s : Session) (ops later : List Operation) :
    s.replay (ops ++ later) = (s.replay ops).replay later := List.foldl_append ..

/-- What holds of every session: pending calls are orderly, and a number that
    was given out is not above the counter and not pending. -/
structure Sound (s : Session) : Prop where
  orderly : s.dispatcher.pending.Orderly
  waitingBelow : ∀ {id : CallId} {c : Continuation}, s.waiting id = some c →
    id < s.dispatcher.nextCall
  issuedBelow : ∀ {id : CallId} {c : ConnectionId}, s.issued.get? id = some c →
    id < s.dispatcher.nextCall
  apart : ∀ {id : CallId} {c : ConnectionId}, s.issued.get? id = some c → s.waiting id = none

theorem Sound.unissued_of_waiting {s : Session} (h : s.Sound) {id : CallId} {c : Continuation}
    (hw : s.waiting id = some c) : s.issued.get? id = none := by
  cases hissued : s.issued.get? id with
  | none => rfl
  | some connection =>
      rw [h.apart hissued] at hw
      exact absurd hw (by simp only [reduceCtorEq, not_false_eq_true])

theorem sound_fresh (catalog : Catalog) (config : ServerConfig) (world : World) :
    (fresh catalog config world).Sound := by
  constructor
  · constructor <;> intro id c h <;> exact absurd h (by simp [fresh])
  · intro id c h
    exact absurd h (by simp [fresh, waiting])
  · intro id c h
    exact absurd h (by simp [fresh])
  · intro id c h
    exact absurd h (by simp [fresh])

/-- What an operation can do to one call, with the events it adds to it. -/
inductive Change (s s' : Session) (id : CallId) : Operation → List Event → Prop
  /-- Nothing happens to it, and it was not its turn. -/
  | untouched {op : Operation} :
    s'.issued.get? id = s.issued.get? id → s'.waiting id = s.waiting id →
    (op.advances id = true → s.waiting id = none) → Change s s' id op []
  /-- Its number is given out. -/
  | issued {connection : ConnectionId} :
    id = s.dispatcher.nextCall → s'.issued.get? id = some connection → s'.waiting id = none →
    Change s s' id (.issue connection) []
  /-- It is dispatched and refused. -/
  | refused {connection : ConnectionId} {procedure : String} {arguments : List Argument}
      {error : CallError} :
    s.issued.get? id = some connection →
    s.dispatcher.prepare ⟨⟨id, connection⟩, procedure, arguments⟩ = .error error →
    s'.issued.get? id = none → s'.waiting id = none →
    Change s s' id (.dispatch id procedure arguments) [⟨⟨id, connection⟩, none, .failed error⟩]
  /-- It is dispatched and takes its first turn. -/
  | begun {connection : ConnectionId} {procedure : String} {arguments : List Argument} {p : Turn}
      {e : Event} {next : Option Continuation} {objects' : ObjectTable} :
    s.issued.get? id = some connection →
    s.dispatcher.prepare ⟨⟨id, connection⟩, procedure, arguments⟩ = .ok p →
    p.Took s.dispatcher.catalog.services (s.dispatcher.connected p.ctx) s.dispatcher.objects e next
      objects' →
    s'.issued.get? id = none → s'.waiting id = next →
    Change s s' id (.dispatch id procedure arguments) [e]
  /-- It waits, and takes its next turn. -/
  | advanced {op : Operation} {c : Continuation} {e : Event} {next : Option Continuation}
      {objects objects' : ObjectTable} :
    op.advances id = true → s.waiting id = some c →
    c.turn.Took s.dispatcher.catalog.services true objects e next objects' →
    s'.issued.get? id = s.issued.get? id → s'.waiting id = next →
    Change s s' id op [e]
  /-- It waits, and is given up. -/
  | dropped {op : Operation} {c : Continuation} :
    op.drops c.ctx = true → s.waiting id = some c →
    s'.issued.get? id = s.issued.get? id → s'.waiting id = none → Change s s' id op []

/-! ## What an operation leaves alone -/

/-- What no operation changes, and the counter that only rises. -/
structure Kept (s s' : Session) : Prop where
  catalog : s'.dispatcher.catalog = s.dispatcher.catalog
  nextCall : s.dispatcher.nextCall ≤ s'.dispatcher.nextCall
  orderly : s'.dispatcher.pending.Orderly

theorem Kept.of_unmoved {s s' : Session} (h : s.dispatcher.Unmoved s'.dispatcher) : s.Kept s' :=
  ⟨h.catalog, Nat.le_of_eq h.nextCall.symm, h.orderly⟩

theorem tick_unmoved {d : Dispatcher} (horderly : d.pending.Orderly) : d.Unmoved d.tick.2 := by
  have hcounted : d.countTick.pending.Orderly := horderly
  have h := Dispatcher.advanceAll_unmoved hcounted d.countTick.pending.ids
  exact ⟨h.catalog, h.config, h.nextCall, h.closed, h.orderly⟩

theorem orderly_disconnect {p : PendingCalls} (h : p.Orderly) (connection : ConnectionId) :
    (p.discardConnection connection).2.Orderly := by
  apply h.of_waiting_subset
  · -- A call that is left is not of this connection, so closing it is no matter.
    intro id c hc
    have hother := (PendingCalls.get?_discardConnection_eq_some_iff.mp hc).2
    simp only [PendingCalls.discardConnection]
    rw [Bool.eq_iff_iff, IdSet.contains_add]
    exact or_iff_right hother
  · exact fun hc => (PendingCalls.get?_discardConnection_eq_some_iff.mp hc).1

theorem orderly_erase {p : PendingCalls} (h : p.Orderly) (id : CallId) :
    PendingCalls.Orderly { p with waiting := p.waiting.erase id } := by
  apply h.of_waiting_subset
  · intro k c _
    rfl
  · intro k c hc
    rw [Table.get?_erase] at hc
    split at hc
    · exact absurd hc (by simp only [reduceCtorEq, not_false_eq_true])
    · exact hc

theorem dispatch_issued {s : Session} {id : CallId} {connection : ConnectionId}
    (h : s.issued.get? id = some connection) (procedure : String) (arguments : List Argument) :
    s.perform (.dispatch id procedure arguments) =
        { dispatcher := (s.dispatcher.dispatch ⟨⟨id, connection⟩, procedure, arguments⟩).2
          issued := s.issued.erase id } ∧
      s.events (.dispatch id procedure arguments) =
        [s.dispatcher.dispatchEvent ⟨⟨id, connection⟩, procedure, arguments⟩] := by
  simp only [perform, events, callOf?, h, Option.map_some, Option.toList_some, and_self]

theorem dispatch_unissued {s : Session} {id : CallId} (h : s.issued.get? id = none)
    (procedure : String) (arguments : List Argument) :
    s.perform (.dispatch id procedure arguments) = s ∧
      s.events (.dispatch id procedure arguments) = [] := by
  simp only [perform, events, callOf?, h, Option.map_none, Option.toList_none, and_self]

theorem kept_perform {s : Session} (h : s.Sound) (op : Operation) : s.Kept (s.perform op) := by
  cases op with
  | issue connection => exact ⟨rfl, Nat.le_succ _, h.orderly⟩
  | dispatch id procedure arguments =>
      cases hissued : s.issued.get? id with
      | none =>
          rw [(dispatch_unissued hissued procedure arguments).1]
          exact ⟨rfl, Nat.le_refl _, h.orderly⟩
      | some connection =>
          rw [(dispatch_issued hissued procedure arguments).1]
          exact .of_unmoved (Dispatcher.dispatch_unmoved h.orderly (h.apart hissued))
  | tick => exact .of_unmoved (tick_unmoved h.orderly)
  | resume id => exact .of_unmoved (Dispatcher.advance_unmoved h.orderly id)
  | release id => exact ⟨rfl, Nat.le_refl _, h.orderly⟩
  | disconnect connection =>
      exact ⟨rfl, Nat.le_refl _, orderly_disconnect h.orderly connection⟩
  | discard id => exact ⟨rfl, Nat.le_refl _, orderly_erase h.orderly id⟩
  | alter world => exact ⟨rfl, Nat.le_refl _, h.orderly⟩
  | report health => exact ⟨rfl, Nat.le_refl _, h.orderly⟩

/-! ## What an operation does to one call -/

theorem change_issue {s : Session} (h : s.Sound) (connection : ConnectionId) (k : CallId) :
    s.Change (s.perform (.issue connection)) k (.issue connection) [] := by
  have hissued : (s.perform (.issue connection)).issued.get? k =
      if k = s.dispatcher.nextCall then some connection else s.issued.get? k := by
    simp only [perform, Dispatcher.context, Table.get?_insert]
  by_cases hk : k = s.dispatcher.nextCall
  · rw [if_pos hk] at hissued
    refine .issued hk hissued ?_
    -- The counter is above every number that was given out.
    cases hw : s.waiting k with
    | none => exact hw
    | some c => exact absurd hk (Nat.ne_of_lt (h.waitingBelow hw))
  · rw [if_neg hk] at hissued
    exact .untouched hissued rfl (fun hadv => Bool.noConfusion hadv)

/-- A call whose number was given out is refused, or takes its first turn. -/
theorem begins {s : Session} (h : s.Sound) {id : CallId} {connection : ConnectionId}
    (hissued : s.issued.get? id = some connection) (procedure : String)
    (arguments : List Argument) :
    (∃ error, s.dispatcher.prepare ⟨⟨id, connection⟩, procedure, arguments⟩ = .error error ∧
      s.events (.dispatch id procedure arguments) = [⟨⟨id, connection⟩, none, .failed error⟩] ∧
      (s.perform (.dispatch id procedure arguments)).waiting id = none) ∨
    ∃ p e next objects',
      s.dispatcher.prepare ⟨⟨id, connection⟩, procedure, arguments⟩ = .ok p ∧
      s.events (.dispatch id procedure arguments) = [e] ∧ e.ctx = ⟨id, connection⟩ ∧
      p.Took s.dispatcher.catalog.services (s.dispatcher.connected p.ctx) s.dispatcher.objects e
        next objects' ∧
      (s.perform (.dispatch id procedure arguments)).waiting id = next := by
  have hfree := h.apart hissued
  rcases dispatch_issued hissued procedure arguments with ⟨hperform, hevents⟩
  rw [hperform, hevents]
  cases hprepare : s.dispatcher.prepare ⟨⟨id, connection⟩, procedure, arguments⟩ with
  | error error =>
      rcases Dispatcher.dispatch_refused hprepare with ⟨hevent, hbecame⟩
      refine Or.inl ⟨error, rfl, by rw [hevent], ?_⟩
      rw [waiting, hbecame.pending]
      exact hfree
  | ok p =>
      rcases Dispatcher.dispatch_moved hprepare hfree with ⟨next, objects', htook, hmoved⟩
      have hctx : p.ctx = ⟨id, connection⟩ := Dispatcher.prepare_ctx hprepare
      rw [hctx] at hmoved
      exact Or.inr ⟨p, _, next, objects', rfl, rfl, htook.ctx.trans hctx, htook,
        hmoved.waiting_self⟩

theorem change_dispatch {s : Session} (h : s.Sound) (id : CallId) (procedure : String)
    (arguments : List Argument) (k : CallId) :
    s.Change (s.perform (.dispatch id procedure arguments)) k (.dispatch id procedure arguments)
      (eventsOf k (s.events (.dispatch id procedure arguments))) := by
  have hidle : Operation.advances k (.dispatch id procedure arguments) = true →
      s.waiting k = none := fun hadv => Bool.noConfusion hadv
  cases hissued : s.issued.get? id with
  | none =>
      rcases dispatch_unissued hissued procedure arguments with ⟨hperform, hevents⟩
      rw [hperform, hevents]
      exact .untouched rfl rfl hidle
  | some connection =>
      rcases dispatch_issued hissued procedure arguments with ⟨hperform, hevents⟩
      rw [hperform, hevents]
      have hfree := h.apart hissued
      -- Under its own number the call begins; to any other it is nothing.
      by_cases hk : k = id
      · subst hk
        have hgone : (s.issued.erase k).get? k = none := by rw [Table.get?_erase, if_pos rfl]
        rcases begins h hissued procedure arguments with
          ⟨error, hprepare, hevent, hw⟩ | ⟨p, e, next, objects', hprepare, hevent, hctx, htook, hw⟩
        · rw [← hevents, hevent, eventsOf_self (by rfl)]
          rw [hperform] at hw
          exact .refused hissued hprepare hgone hw
        · rw [← hevents, hevent, eventsOf_self (by rw [hctx])]
          rw [hperform] at hw
          exact .begun hissued hprepare htook hgone hw
      · have hother : (s.issued.erase id).get? k = s.issued.get? k := by
          rw [Table.get?_erase, if_neg hk]
        cases hprepare : s.dispatcher.prepare ⟨⟨id, connection⟩, procedure, arguments⟩ with
        | error error =>
            rcases Dispatcher.dispatch_refused hprepare with ⟨hevent, hbecame⟩
            rw [hevent, eventsOf_other (Ne.symm hk)]
            refine .untouched hother ?_ hidle
            simp only [waiting, hbecame.pending]
        | ok p =>
            rcases Dispatcher.dispatch_moved hprepare hfree with ⟨next, objects', htook, hmoved⟩
            have hctx : p.ctx = ⟨id, connection⟩ := Dispatcher.prepare_ctx hprepare
            rw [eventsOf_other (by rw [htook.ctx, hctx]; exact Ne.symm hk)]
            rw [hctx] at hmoved
            exact .untouched hother (hmoved.waiting_of_ne hk) hidle

theorem change_tick {s : Session} (h : s.Sound) (k : CallId) :
    s.Change (s.perform .tick) k .tick (eventsOf k (s.events .tick)) := by
  have hcounted : s.dispatcher.countTick.pending.Orderly := h.orderly
  cases hw : s.waiting k with
  | none =>
      -- A tick goes through the calls that were pending when it began.
      have hk : k ∉ s.dispatcher.pending.ids := by
        intro hmem
        rcases Table.mem_keys_iff.mp hmem with ⟨c, hc⟩
        rw [waiting, hc] at hw
        exact absurd hw (by simp only [reduceCtorEq, not_false_eq_true])
      rcases Dispatcher.advanceAll_of_not_mem hcounted hk with ⟨hevents, hwaiting⟩
      rw [events, hevents]
      exact .untouched rfl hwaiting (fun _ => hw)
  | some c =>
      have hk : k ∈ s.dispatcher.pending.ids := Table.mem_keys_iff.mpr ⟨c, hw⟩
      have hnodup : s.dispatcher.pending.ids.Nodup := Table.keys_nodup _
      rcases Dispatcher.advanceAll_of_mem hcounted hnodup hk hw with
        ⟨e, next, objects, objects', hevents, htook, hnext⟩
      rw [events, hevents]
      exact .advanced rfl hw htook rfl hnext

theorem change_resume {s : Session} (h : s.Sound) (id k : CallId) :
    s.Change (s.perform (.resume id)) k (.resume id) (eventsOf k (s.events (.resume id))) := by
  by_cases hk : k = id
  · subst hk
    cases hw : s.waiting k with
    | none =>
        rcases Dispatcher.advance_absent hw with ⟨hevent, hadvance⟩
        rw [events, hevent, Option.toList_none]
        refine .untouched rfl ?_ (fun _ => hw)
        simp only [waiting, perform, Dispatcher.resume, hadvance]
    | some c =>
        rcases Dispatcher.advance_moved h.orderly hw with
          ⟨e, next, objects', hevent, _, htook, hmoved, _⟩
        rw [events, hevent, Option.toList_some,
          eventsOf_self (by rw [htook.ctx]; exact h.orderly.named hw)]
        exact .advanced (beq_self_eq_true k) hw htook rfl hmoved.waiting_self
  · rw [events, Dispatcher.advanceEvent?_other h.orderly hk]
    refine .untouched rfl (Dispatcher.advance_other h.orderly hk) ?_
    intro hadv
    rw [Operation.advances, beq_iff_eq] at hadv
    exact absurd hadv.symm hk

theorem change_disconnect (s : Session) (connection : ConnectionId) (k : CallId) :
    s.Change (s.perform (.disconnect connection)) k (.disconnect connection) [] := by
  have hafter : (s.perform (.disconnect connection)).waiting k =
      (s.waiting k).filter fun c => c.ctx.connection != connection := by
    simp only [waiting, perform, Dispatcher.disconnect, PendingCalls.discardConnection,
      Table.get?_filter]
  -- Pending calls of the connection are given up, and those of others stay.
  cases hw : s.waiting k with
  | none =>
      rw [hw, Option.filter_none] at hafter
      exact .untouched rfl (hafter.trans hw.symm) (fun _ => hw)
  | some c =>
      rw [hw, Option.filter_some] at hafter
      by_cases hc : c.ctx.connection = connection
      · rw [if_neg (by simp only [hc, bne_self_eq_false, Bool.false_eq_true, not_false_eq_true])]
          at hafter
        exact .dropped (by rw [Operation.drops, beq_iff_eq, hc]) hw rfl hafter
      · rw [if_pos (by rw [bne_iff_ne]; exact hc)] at hafter
        exact .untouched rfl (hafter.trans hw.symm) (fun hadv => Bool.noConfusion hadv)

theorem change_discard {s : Session} (h : s.Sound) (id k : CallId) :
    s.Change (s.perform (.discard id)) k (.discard id) [] := by
  have hafter : (s.perform (.discard id)).waiting k = if k = id then none else s.waiting k := by
    simp only [waiting, perform, PendingCalls.discard, Table.get?_erase]
  by_cases hk : k = id
  · rw [if_pos hk] at hafter
    cases hw : s.waiting k with
    | none => exact .untouched rfl (hafter.trans hw.symm) (fun _ => hw)
    | some c =>
        refine .dropped ?_ hw rfl hafter
        rw [Operation.drops, beq_iff_eq, h.orderly.named hw, hk]
  · rw [if_neg hk] at hafter
    exact .untouched rfl hafter (fun hadv => Bool.noConfusion hadv)

/-- Whatever is done, a single call has one of the listed things happen to
    it. -/
theorem change {s : Session} (h : s.Sound) (op : Operation) (k : CallId) :
    s.Change (s.perform op) k op (eventsOf k (s.events op)) := by
  cases op with
  | issue connection => exact change_issue h connection k
  | dispatch id procedure arguments => exact change_dispatch h id procedure arguments k
  | tick => exact change_tick h k
  | resume id => exact change_resume h id k
  | release id => exact .untouched rfl rfl (fun hadv => Bool.noConfusion hadv)
  | disconnect connection => exact change_disconnect s connection k
  | discard id => exact change_discard h id k
  | alter world => exact .untouched rfl rfl (fun hadv => Bool.noConfusion hadv)
  | report health => exact .untouched rfl rfl (fun hadv => Bool.noConfusion hadv)

/-! ## Soundness -/

theorem nextCall_lt_issue (s : Session) (connection : ConnectionId) :
    s.dispatcher.nextCall < (s.perform (.issue connection)).dispatcher.nextCall :=
  Nat.lt_succ_self _

-- What soundness says of a single call.
structure Placed (s : Session) (id : CallId) : Prop where
  waitingBelow : ∀ {c : Continuation}, s.waiting id = some c → id < s.dispatcher.nextCall
  issuedBelow : ∀ {c : ConnectionId}, s.issued.get? id = some c → id < s.dispatcher.nextCall
  apart : ∀ {c : ConnectionId}, s.issued.get? id = some c → s.waiting id = none

theorem Placed.of_below {s : Session} {id : CallId} (hbelow : id < s.dispatcher.nextCall)
    (hends : s.issued.get? id = none ∨ s.waiting id = none) : s.Placed id where
  waitingBelow _ := hbelow
  issuedBelow _ := hbelow
  apart hissued := by
    rcases hends with hnone | hgone
    · rw [hnone] at hissued
      exact absurd hissued (by simp only [reduceCtorEq, not_false_eq_true])
    · exact hgone

theorem placed_perform {s : Session} (h : s.Sound) (op : Operation) (id : CallId) :
    (s.perform op).Placed id := by
  have hkept := (kept_perform h op).nextCall
  have hchange := change h op id
  generalize eventsOf id (s.events op) = happened at hchange
  cases hchange with
  -- A number gets below the counter when it is given out, and stays there.
  | untouched hissued hwaiting _ =>
      constructor
      · intro c hw
        exact Nat.lt_of_lt_of_le (h.waitingBelow (hwaiting.symm.trans hw)) hkept
      · intro connection hissued'
        exact Nat.lt_of_lt_of_le (h.issuedBelow (hissued.symm.trans hissued')) hkept
      · intro connection hissued'
        exact hwaiting.trans (h.apart (hissued.symm.trans hissued'))
  | issued hid _ hwaiting =>
      refine .of_below ?_ (Or.inr hwaiting)
      rw [hid]
      exact nextCall_lt_issue s _
  | refused hissued _ hissued' _ =>
      exact .of_below (Nat.lt_of_lt_of_le (h.issuedBelow hissued) hkept) (Or.inl hissued')
  | begun hissued _ _ hissued' _ =>
      exact .of_below (Nat.lt_of_lt_of_le (h.issuedBelow hissued) hkept) (Or.inl hissued')
  | advanced _ hwaiting _ hissued _ =>
      exact .of_below (Nat.lt_of_lt_of_le (h.waitingBelow hwaiting) hkept)
        (Or.inl (hissued.trans (h.unissued_of_waiting hwaiting)))
  | dropped _ hwaiting _ hwaiting' =>
      exact .of_below (Nat.lt_of_lt_of_le (h.waitingBelow hwaiting) hkept) (Or.inr hwaiting')

theorem sound_perform {s : Session} (h : s.Sound) (op : Operation) : (s.perform op).Sound where
  orderly := (kept_perform h op).orderly
  waitingBelow hw := (placed_perform h op _).waitingBelow hw
  issuedBelow hissued := (placed_perform h op _).issuedBelow hissued
  apart hissued := (placed_perform h op _).apart hissued

theorem sound_replay {s : Session} (h : s.Sound) (operations : List Operation) :
    (s.replay operations).Sound := by
  induction operations generalizing s with
  | nil => exact h
  | cons op rest ih => exact ih (sound_perform h op)

/-- A connection stays as it is unless it is what an operation gives up. -/
theorem closed_perform {s : Session} (h : s.Sound) {op : Operation} {ctx : CallContext}
    (hop : op.drops ctx = false) :
    (s.perform op).dispatcher.pending.closed.contains ctx.connection =
      s.dispatcher.pending.closed.contains ctx.connection := by
  cases op with
  | dispatch id procedure arguments =>
      cases hissued : s.issued.get? id with
      | none => rw [(dispatch_unissued hissued procedure arguments).1]
      | some connection =>
          rw [(dispatch_issued hissued procedure arguments).1,
            (Dispatcher.dispatch_unmoved h.orderly (h.apart hissued)).closed]
  | tick =>
      exact congrArg (fun s : IdSet => s.contains ctx.connection) (tick_unmoved h.orderly).closed
  | resume id =>
      exact congrArg (fun s : IdSet => s.contains ctx.connection)
        (Dispatcher.advance_unmoved h.orderly id).closed
  | disconnect connection =>
      simp only [perform, Dispatcher.disconnect, PendingCalls.discardConnection]
      rw [Operation.drops, beq_eq_false_iff_ne] at hop
      rw [Bool.eq_iff_iff, IdSet.contains_add]
      constructor
      · rintro (heq | hold)
        · exact absurd heq.symm hop
        · exact hold
      · exact Or.inr
  | issue connection => rfl
  | release id => rfl
  | discard id => rfl
  | alter world => rfl
  | report health => rfl

/-- The catalog of a session never changes. -/
theorem catalog_replay {s : Session} (h : s.Sound) (operations : List Operation) :
    (s.replay operations).dispatcher.catalog = s.dispatcher.catalog := by
  induction operations generalizing s with
  | nil => rfl
  | cons op rest ih =>
      rw [replay_cons, ih (sound_perform h op), (kept_perform h op).catalog]

/-- A call that waits after an operation and was not about to start waited
    before it. -/
theorem waiting_of_perform {s : Session} (h : s.Sound) {op : Operation} {id : CallId}
    (hunissued : s.issued.get? id = none) {c' : Continuation}
    (hw : (s.perform op).waiting id = some c') :
    ∃ c, s.waiting id = some c ∧ c'.ctx = c.ctx := by
  have hchange := change h op id
  generalize eventsOf id (s.events op) = happened at hchange
  cases hchange with
  | untouched _ hwaiting _ => exact ⟨c', hwaiting.symm.trans hw, rfl⟩
  | issued _ _ hwaiting =>
      rw [hwaiting] at hw
      exact absurd hw (by simp only [reduceCtorEq, not_false_eq_true])
  | refused hissued _ _ _ =>
      rw [hunissued] at hissued
      exact absurd hissued (by simp only [reduceCtorEq, not_false_eq_true])
  | begun hissued _ _ _ _ =>
      rw [hunissued] at hissued
      exact absurd hissued (by simp only [reduceCtorEq, not_false_eq_true])
  | @advanced _ c _ _ _ _ _ hwaiting htook _ hwaiting' =>
      exact ⟨c, hwaiting, (htook.next_eq (hwaiting'.symm.trans hw)).1⟩
  | dropped _ _ _ hwaiting =>
      rw [hwaiting] at hw
      exact absurd hw (by simp only [reduceCtorEq, not_false_eq_true])

/-- Nothing happens to a call that does not wait, unless it is what is dispatched. -/
theorem absent_perform {s : Session} (h : s.Sound) {op : Operation} {id : CallId}
    (hop : ∀ procedure arguments, op ≠ .dispatch id procedure arguments)
    (habsent : s.waiting id = none) :
    eventsOf id (s.events op) = [] ∧ (s.perform op).waiting id = none := by
  have hchange := change h op id
  generalize eventsOf id (s.events op) = happened at hchange
  cases hchange with
  | untouched _ hwaiting _ => exact ⟨rfl, hwaiting.trans habsent⟩
  | issued _ _ hwaiting => exact ⟨rfl, hwaiting⟩
  | refused _ _ _ _ => exact absurd rfl (hop _ _)
  | begun _ _ _ _ _ => exact absurd rfl (hop _ _)
  | advanced _ hwaiting _ _ _ => exact nomatch habsent.symm.trans hwaiting
  | dropped _ hwaiting _ hwaiting' => exact ⟨rfl, hwaiting'⟩

theorem absent_replay {s : Session} (h : s.Sound) {operations : List Operation} {id : CallId}
    (hops : ∀ op ∈ operations, ∀ procedure arguments, op ≠ .dispatch id procedure arguments)
    (habsent : s.waiting id = none) :
    eventsOf id (s.history operations) = [] ∧ (s.replay operations).waiting id = none := by
  induction operations generalizing s with
  | nil => exact ⟨rfl, habsent⟩
  | cons op rest ih =>
      rcases absent_perform h (hops op List.mem_cons_self) habsent with ⟨hnothing, habsent'⟩
      rcases ih (sound_perform h op) (fun op' hop' => hops op' (List.mem_cons_of_mem _ hop'))
        habsent' with ⟨hrest, hlast⟩
      rw [history, eventsOf_append, hnothing, hrest]
      exact ⟨rfl, hlast⟩

end Session

end Switchboard
