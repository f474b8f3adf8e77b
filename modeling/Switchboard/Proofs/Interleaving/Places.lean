import Switchboard.Proofs.Interleaving.System

/-!
# Where Calls Are

A call that is not answered yet is in one of three places: it waits to be
dispatched, it is pending, or a worker has it. It is never in two, although the
table of pending calls is free while a worker has one of them out.

The argument is a count. Every run of a handler and every return to the table is
given a mark made of the call and a number, and the numbers of a call go up by
one: its first run is 1, the progress left by that is 2, the run that uses it is
3. Where a call is, the number of its next mark is known (`due`), and no mark of
the call has it yet. So a mark can be made only once, and what makes two runs
with the same progress impossible is that the call would have to be in two
places.

All of this is about calls and places and not about tables, so it is said of any
assignment of calls to places (`Orderly`). An action either takes a call away or
moves one, and `forget`, `move` and `arrive` are all there is to it.

## Main definitions

* `Spot`, `System.at?`: Where calls are, and which mark is due there.
* `Happening.mark?`: The marks in the history.
* `Orderly`: Every call is in one place and its next mark is new.
* `System.Fresh`: Calls are dispatched once, as they were announced.

## Theorems

* `Orderly.forget`, `Orderly.move`, `Orderly.arrive`: What keeps order.
* `InOrder.did`, `InOrder.replay`: Every action keeps it.
-/

namespace Switchboard

/-- Where a call can be. -/
inductive Spot where
  /-- It waits to be dispatched. -/
  | queued (id : CallId)
  /-- It waits for its next step. -/
  | pending (id : CallId)
  /-- A worker is in the middle of one of its steps. -/
  | worker (w : WorkerId)
  deriving DecidableEq

/-- The mark of a run of a handler, or of progress that was left. -/
def Happening.mark? : Happening → Option (CallId × Nat)
  | .invoked p => some (p.ctx.call, 2 * p.steps + 1)
  | .parked c => some (c.ctx.call, 2 * c.steps)
  | _ => none

/-- The call that a worker has, and the mark due next. -/
def Activity.held? : Activity → Option (CallContext × Nat)
  | .idle => none
  | .running p => some (p.ctx, 2 * p.steps + 2)
  | .parking c => some (c.ctx, 2 * c.steps)
  | .writing p _ => some (p.ctx, 2 * p.steps + 2)

/-! ## Order among calls and places -/

/-- Every call is in one place, and the mark that is due there is new. -/
structure Orderly (at? : Spot → Option (CallContext × Nat)) (marks : List (CallId × Nat))
    (next : CallId) : Prop where
  keyed : ∀ id ctx due, at? (.queued id) = some (ctx, due) ∨ at? (.pending id) = some (ctx, due) →
    ctx.call = id
  apart : ∀ place place' ctx ctx' due due', at? place = some (ctx, due) →
    at? place' = some (ctx', due') → ctx.call = ctx'.call → place = place'
  issued : ∀ place ctx due, at? place = some (ctx, due) → ctx.call < next
  marked : ∀ place ctx due number, at? place = some (ctx, due) → (ctx.call, number) ∈ marks →
    number < due
  past : ∀ mark ∈ marks, mark.1 < next
  once : marks.Nodup

namespace Orderly

variable {at? at?' : Spot → Option (CallContext × Nat)} {marks : List (CallId × Nat)}
  {next : CallId}

theorem empty : Orderly (fun _ => none) [] 1 where
  keyed _ _ _ h := by rcases h with h | h <;> exact nomatch h
  apart _ _ _ _ _ _ h _ _ := nomatch h
  issued _ _ _ h := nomatch h
  marked _ _ _ _ h _ := nomatch h
  past _ h := absurd h List.not_mem_nil
  once := List.nodup_nil

/-- Calls that go away leave order behind. -/
theorem forget (h : Orderly at? marks next)
    (hsub : ∀ place found, at?' place = some found → at? place = some found) :
    Orderly at?' marks next where
  keyed id ctx due := fun hat => h.keyed id ctx due (hat.imp (hsub _ _) (hsub _ _))
  apart place place' ctx ctx' due due' hat hat' :=
    h.apart place place' ctx ctx' due due' (hsub _ _ hat) (hsub _ _ hat')
  issued place ctx due hat := h.issued place ctx due (hsub _ _ hat)
  marked place ctx due number hat := h.marked place ctx due number (hsub _ _ hat)
  past := h.past
  once := h.once

/-- A new call has a place of its own. -/
theorem arrive (h : Orderly at? marks next) (connection : ConnectionId)
    (hnew : at?' (.queued next) = some (⟨next, connection⟩, 0))
    (hold : ∀ place found, place ≠ .queued next → at?' place = some found →
      at? place = some found) : Orderly at?' marks (next + 1) := by
  have hcases : ∀ place ctx due, at?' place = some (ctx, due) →
      (place = .queued next ∧ ctx = ⟨next, connection⟩ ∧ due = 0) ∨
        (place ≠ .queued next ∧ at? place = some (ctx, due)) := by
    intro place ctx due hat
    by_cases hplace : place = .queued next
    · rw [hplace, hnew, Option.some.injEq, Prod.mk.injEq] at hat
      exact Or.inl ⟨hplace, hat.1.symm, hat.2.symm⟩
    · exact Or.inr ⟨hplace, hold place _ hplace hat⟩
  constructor
  · intro id ctx due hat
    rcases hat with hat | hat
    · rcases hcases _ _ _ hat with ⟨hplace, rfl, _⟩ | ⟨_, hat⟩
      · exact (Spot.queued.inj hplace).symm
      · exact h.keyed id ctx due (Or.inl hat)
    · rcases hcases _ _ _ hat with ⟨hplace, _⟩ | ⟨_, hat⟩
      · exact nomatch hplace
      · exact h.keyed id ctx due (Or.inr hat)
  · intro place place' ctx ctx' due due' hat hat' hcall
    rcases hcases _ _ _ hat with ⟨hplace, rfl, _⟩ | ⟨_, hat⟩ <;>
      rcases hcases _ _ _ hat' with ⟨hplace', rfl, _⟩ | ⟨_, hat'⟩
    · exact hplace.trans hplace'.symm
    · exact absurd hcall.symm (Nat.ne_of_lt (h.issued _ _ _ hat'))
    · exact absurd hcall (Nat.ne_of_lt (h.issued _ _ _ hat))
    · exact h.apart _ _ _ _ _ _ hat hat' hcall
  · intro place ctx due hat
    rcases hcases _ _ _ hat with ⟨_, rfl, _⟩ | ⟨_, hat⟩
    · exact Nat.lt_succ_self next
    · exact Nat.lt_succ_of_lt (h.issued _ _ _ hat)
  · intro place ctx due number hat hmark
    rcases hcases _ _ _ hat with ⟨_, rfl, _⟩ | ⟨_, hat⟩
    · exact absurd (h.past _ hmark) (Nat.lt_irrefl next)
    · exact h.marked _ _ _ _ hat hmark
  · exact fun mark hmark => Nat.lt_succ_of_lt (h.past mark hmark)
  · exact h.once

/-- A call that moves makes a mark on its way: the one that was due or a later
    one, and the next is later still. -/
theorem move (h : Orderly at? marks next) {source target : Spot} {ctx : CallContext}
    {due number due' : Nat} (hsource : at? source = some (ctx, due))
    (htarget : at?' target = some (ctx, due')) (hdue : due ≤ number) (hdue' : number < due')
    (hold : ∀ place found, place ≠ target → at?' place = some found →
      place ≠ source ∧ at? place = some found)
    (hkeyed : ∀ id, target = .queued id ∨ target = .pending id → ctx.call = id) :
    Orderly at?' ((ctx.call, number) :: marks) next := by
  have hcases : ∀ place ctx' due₁, at?' place = some (ctx', due₁) →
      (place = target ∧ ctx' = ctx ∧ due₁ = due') ∨
        (place ≠ target ∧ place ≠ source ∧ at? place = some (ctx', due₁)) := by
    intro place ctx' due₁ hat
    by_cases hplace : place = target
    · rw [hplace, htarget, Option.some.injEq, Prod.mk.injEq] at hat
      exact Or.inl ⟨hplace, hat.1.symm, hat.2.symm⟩
    · exact Or.inr ⟨hplace, hold place _ hplace hat⟩
  constructor
  · intro id ctx' due₁ hat
    rcases hat with hat | hat
    · rcases hcases _ _ _ hat with ⟨hplace, rfl, _⟩ | ⟨_, _, hat⟩
      · exact hkeyed id (Or.inl hplace.symm)
      · exact h.keyed id ctx' due₁ (Or.inl hat)
    · rcases hcases _ _ _ hat with ⟨hplace, rfl, _⟩ | ⟨_, _, hat⟩
      · exact hkeyed id (Or.inr hplace.symm)
      · exact h.keyed id ctx' due₁ (Or.inr hat)
  · intro place place' ctx₁ ctx₂ due₁ due₂ hat hat' hcall
    rcases hcases _ _ _ hat with ⟨hplace, rfl, _⟩ | ⟨_, hplace, hat⟩ <;>
      rcases hcases _ _ _ hat' with ⟨hplace', rfl, _⟩ | ⟨_, hplace', hat'⟩
    · exact hplace.trans hplace'.symm
    · exact absurd (h.apart _ _ _ _ _ _ hat' hsource hcall.symm) hplace'
    · exact absurd (h.apart _ _ _ _ _ _ hat hsource hcall) hplace
    · exact h.apart _ _ _ _ _ _ hat hat' hcall
  · intro place ctx' due₁ hat
    rcases hcases _ _ _ hat with ⟨_, rfl, _⟩ | ⟨_, _, hat⟩
    · exact h.issued _ _ _ hsource
    · exact h.issued _ _ _ hat
  · intro place ctx' due₁ number' hat hmem
    rcases hcases _ _ _ hat with ⟨_, rfl, rfl⟩ | ⟨_, hplace, hat⟩ <;>
      rcases List.mem_cons.mp hmem with hmem | hmem
    · exact (Prod.mk.inj hmem).2 ▸ hdue'
    · have hlt := h.marked _ _ _ _ hsource hmem
      exact Nat.lt_trans (Nat.lt_of_lt_of_le hlt hdue) hdue'
    -- Another call cannot have made the mark.
    · exact absurd (h.apart _ _ _ _ _ _ hat hsource (Prod.mk.inj hmem).1) hplace
    · exact h.marked _ _ _ _ hat hmem
  · exact List.forall_mem_cons.mpr ⟨h.issued _ _ _ hsource, h.past⟩
  · refine List.nodup_cons.mpr ⟨fun hmem => ?_, h.once⟩
    exact absurd (h.marked _ _ _ _ hsource hmem) (Nat.not_lt_of_le hdue)

end Orderly

/-! ## Order in a system -/

/-- A call is dispatched as it was announced, and was not dispatched before. -/
def Action.Fresh (s : System) : Action → Prop
  | .dispatch _ call _ => s.queued.get? call.ctx.call = some call.ctx.connection
  | _ => True

namespace System

/-- All calls are dispatched as they were announced. -/
def Fresh (s : System) : List Action → Prop
  | [] => True
  | action :: rest => action.Fresh s ∧ (s.perform action).Fresh rest

/-- The call at a place, and the mark due there. -/
def at? (s : System) : Spot → Option (CallContext × Nat)
  | .queued id => (s.queued.get? id).map fun connection => (⟨id, connection⟩, 0)
  | .pending id => (s.dispatcher.pending.waiting.get? id).map fun c => (c.ctx, 2 * c.steps + 1)
  | .worker w => (s.workers w).activity.held?

/-- The marks that have been made, latest first. -/
def marks (s : System) : List (CallId × Nat) := s.history.filterMap Happening.mark?

/-- Every call is in one place, and no mark has been made twice. -/
def InOrder (s : System) : Prop := Orderly s.at? s.marks s.dispatcher.nextCall

variable {s s' : System} {action : Action}

theorem held?_assign (s : System) {w : WorkerId} {worker : Worker}
    (h : ∀ found, worker.activity.held? = some found → (s.workers w).activity.held? = some found)
    (w' : WorkerId) (found : CallContext × Nat)
    (hheld : ((s.assign w worker).workers w').activity.held? = some found) :
    (s.workers w').activity.held? = some found := by
  unfold assign at hheld
  by_cases hw : w' = w
  · simp only [if_pos hw] at hheld
    exact hw ▸ h found hheld
  · simp only [if_neg hw] at hheld
    exact hheld

/-- A worker that was given a call has it, and the others have what they had. -/
theorem at?_assign (s : System) (w : WorkerId) (worker : Worker) (w' : WorkerId) :
    (s.assign w worker).at? (.worker w') =
      if w' = w then worker.activity.held? else s.at? (.worker w') := by
  unfold at? assign
  by_cases hw : w' = w
  · simp only [if_pos hw]
  · simp only [if_neg hw]

theorem at?_assign_ne {w w' : WorkerId} {worker : Worker} {found : CallContext × Nat}
    (hplace : Spot.worker w' ≠ .worker w)
    (hat : (s.assign w worker).at? (.worker w') = some found) :
    s.at? (.worker w') = some found := by
  rw [at?_assign, if_neg fun hw => hplace (congrArg Spot.worker hw)] at hat
  exact hat

/-- A worker that was given a turn has it. -/
theorem at?_invoke (s : System) (w : WorkerId) (p : Turn) :
    (s.invoke w p).at? (.worker w) = some (p.ctx, 2 * p.steps + 2) :=
  (s.at?_assign w _ w).trans (if_pos rfl)

/-- A worker that has come to an outcome has nothing. -/
theorem at?_conclude_worker (s : System) (w : WorkerId) (ctx : CallContext) (outcome : Outcome) :
    (s.conclude w ctx outcome).at? (.worker w) = none :=
  (at?_assign _ w _ w).trans (if_pos rfl)

/-- An outcome leaves the pending calls where they are. -/
theorem at?_conclude_pending (s : System) (w : WorkerId) (ctx : CallContext) (outcome : Outcome)
    (id : CallId) : (s.conclude w ctx outcome).at? (.pending id) = s.at? (.pending id) := by
  rw [at?, at?, conclude_pending]

/-- A call that was put back is pending. -/
theorem at?_keep (s : System) (w : WorkerId) (c : Continuation) (outcome : Outcome) :
    (({ s with dispatcher := { s.dispatcher with pending := s.dispatcher.pending.keep (some c) }
      }.remember (.parked c)).conclude w c.ctx outcome).at? (.pending c.ctx.call) =
        some (c.ctx, 2 * c.steps + 1) := by
  rw [at?_conclude_pending]
  simp only [at?, remember, PendingCalls.keep, Table.get?_insert, if_true, Option.map_some]

namespace InOrder

theorem start (catalog : Catalog) (config : ServerConfig) : (System.start catalog config).InOrder :=
  Orderly.empty.forget fun place found h => by cases place <;> exact nomatch h

/-- Order is kept where tables and workers lose calls at most. -/
theorem shrink (h : s.InOrder) (hmarks : s'.marks = s.marks)
    (hnext : s'.dispatcher.nextCall = s.dispatcher.nextCall)
    (hqueued : ∀ id connection, s'.queued.get? id = some connection →
      s.queued.get? id = some connection)
    (hwaiting : ∀ id c, s'.dispatcher.pending.waiting.get? id = some c →
      s.dispatcher.pending.waiting.get? id = some c)
    (hworkers : ∀ w found, (s'.workers w).activity.held? = some found →
      (s.workers w).activity.held? = some found) : s'.InOrder := by
  unfold InOrder
  rw [hmarks, hnext]
  refine h.forget fun place found hat => ?_
  cases place with
  | queued id =>
      rcases Option.map_eq_some_iff.mp hat with ⟨connection, hget, hfound⟩
      exact Option.map_eq_some_iff.mpr ⟨connection, hqueued id connection hget, hfound⟩
  | pending id =>
      rcases Option.map_eq_some_iff.mp hat with ⟨c, hget, hfound⟩
      exact Option.map_eq_some_iff.mpr ⟨c, hwaiting id c hget, hfound⟩
  | worker w => exact hworkers w found hat

/-- A worker that comes to an outcome lets go of its call. -/
theorem conclude (h : s.InOrder) (w : WorkerId) (ctx : CallContext) (outcome : Outcome) :
    (s.conclude w ctx outcome).InOrder := by
  refine h.shrink rfl (conclude_nextCall ..) (fun _ _ => id) (fun id c hget => ?_)
    (s.held?_assign fun _ hfound => nomatch hfound)
  rw [conclude_pending] at hget
  exact hget

/-- A worker goes on with the call it has, or with none. -/
theorem occupy (h : s.InOrder) {w : WorkerId} {activity : Activity}
    (hheld : activity.held? = (s.workers w).activity.held?) : (s.occupy w activity).InOrder :=
  h.shrink rfl rfl (fun _ _ => id) (fun _ _ => id) (s.held?_assign fun _ hfound => hheld ▸ hfound)

/-- A worker without a call stays without one. -/
theorem want (h : s.InOrder) (w : WorkerId) (wanted : List CallId) :
    (s.assign w { wanted }).InOrder :=
  h.shrink rfl rfl (fun _ _ => id) (fun _ _ => id) (s.held?_assign fun _ hfound => nomatch hfound)

theorem unqueue (h : s.InOrder) (call : Call) : (s.unqueue call).InOrder :=
  h.shrink rfl rfl (fun _ _ hget => (Table.get?_erase_eq_some_iff.mp hget).1) (fun _ _ => id)
    fun _ _ => id

theorem arrive (h : s.InOrder) (connection : ConnectionId) :
    (s.perform (.arrive connection)).InOrder := by
  refine Orderly.arrive h connection ?_ fun place found hplace hat => ?_
  · simp only [perform, at?, Dispatcher.context, Table.get?_insert, if_true, Option.map_some]
  · cases place with
    | queued id =>
        have hid : id ≠ s.dispatcher.nextCall := fun hid => hplace (congrArg Spot.queued hid)
        simp only [perform, at?, Dispatcher.context, Table.get?_insert, if_neg hid] at hat
        exact hat
    | pending id => exact hat
    | worker w => exact hat

/-- A call that is dispatched moves from the queue to a worker. -/
theorem started (h : s.InOrder) {call : Call} {p : Turn} (hctx : p.ctx = call.ctx)
    (hfresh : s.queued.get? call.ctx.call = some call.ctx.connection) (w : WorkerId) :
    ((s.unqueue call).invoke w p).InOrder := by
  have hsource : s.at? (.queued p.ctx.call) = some (p.ctx, 0) := by
    rw [at?, hctx, hfresh, Option.map_some]
  refine h.move hsource ((s.unqueue call).at?_invoke w p) (Nat.zero_le _) (Nat.lt_succ_self _)
    (fun place found hplace hat => ?_) fun _ hplace => nomatch hplace
  cases place with
  | queued id =>
      rcases Option.map_eq_some_iff.mp hat with ⟨connection, hget, hfound⟩
      rcases Table.get?_erase_eq_some_iff.mp hget with ⟨hget, hid⟩
      rw [← hctx] at hid
      exact ⟨fun heq => hid (Spot.queued.inj heq),
        Option.map_eq_some_iff.mpr ⟨connection, hget, hfound⟩⟩
  | pending id => exact ⟨Spot.noConfusion, hat⟩
  | worker w' => exact ⟨Spot.noConfusion, @at?_assign_ne (s.unqueue call) _ _ _ _ hplace hat⟩

/-- A call that is taken moves from the pending calls to a worker. -/
theorem taken (h : s.InOrder) {id : CallId} {c : Continuation}
    (hget : s.dispatcher.pending.waiting.get? id = some c) (w : WorkerId) (rest : List CallId) :
    (({ s with dispatcher := (s.dispatcher.without id).countResume }.assign w
      { wanted := rest }).invoke w c.turn).InOrder := by
  have hsource : s.at? (.pending id) = some (c.ctx, 2 * c.steps + 1) := by
    rw [at?, hget, Option.map_some]
  refine h.move hsource (at?_invoke _ w c.turn) (Nat.le_refl _) (Nat.lt_succ_self _)
    (fun place found hplace hat => ?_) fun _ hplace => nomatch hplace
  cases place with
  | queued id' => exact ⟨Spot.noConfusion, hat⟩
  | pending id' =>
      rcases Option.map_eq_some_iff.mp hat with ⟨c', hget', hfound⟩
      rcases Table.get?_erase_eq_some_iff.mp hget' with ⟨hget', hid⟩
      exact ⟨fun heq => hid (Spot.pending.inj heq),
        Option.map_eq_some_iff.mpr ⟨c', hget', hfound⟩⟩
  | worker w' => exact ⟨Spot.noConfusion, at?_assign_ne hplace (at?_assign_ne hplace hat)⟩

/-- A call that is put back moves from a worker to the pending calls. -/
theorem kept (h : s.InOrder) {w : WorkerId} {c : Continuation}
    (hparking : (s.workers w).activity = .parking c) (outcome : Outcome) :
    (({ s with dispatcher := { s.dispatcher with pending := s.dispatcher.pending.keep (some c) }
      }.remember (.parked c)).conclude w c.ctx outcome).InOrder := by
  have hsource : s.at? (.worker w) = some (c.ctx, 2 * c.steps) := by
    rw [at?, hparking, Activity.held?]
  unfold InOrder
  rw [conclude_nextCall]
  refine h.move hsource (s.at?_keep w c outcome) (Nat.le_refl _) (Nat.lt_succ_self _)
    (fun place found hplace hat => ?_) fun id hplace => ?_
  · cases place with
    | queued id => exact ⟨Spot.noConfusion, hat⟩
    | pending id =>
        have hid : id ≠ c.ctx.call := fun hid => hplace (congrArg Spot.pending hid)
        rw [at?_conclude_pending] at hat
        simp only [at?, remember, PendingCalls.keep, Table.get?_insert, if_neg hid] at hat
        exact ⟨Spot.noConfusion, hat⟩
    | worker w' =>
        by_cases hw : w' = w
        · rw [hw] at hat
          exact nomatch (at?_conclude_worker ..).symm.trans hat
        · exact ⟨fun heq => hw (Spot.worker.inj heq),
            at?_assign_ne (fun heq => hw (Spot.worker.inj heq)) hat⟩
  · rcases hplace with hplace | hplace
    · exact nomatch hplace
    · exact Spot.pending.inj hplace

theorem did (h : s.InOrder) (hdid : s.Did action s') (hfresh : action.Fresh s) : s'.InOrder := by
  cases hdid with
  | nothing => exact h
  | arrived connection => exact h.arrive connection
  | started _ hctx _ _ => exact h.started hctx hfresh _
  | refused e _ => exact (h.unqueue _).conclude _ _ _
  | looked _ =>
      have hcounted : { s with dispatcher := s.dispatcher.countTick }.InOrder := h
      exact hcounted.want _ _
  | meant _ => exact h.want _ _
  | missed _ _ => exact h.want _ _
  | taken _ hget => exact h.taken hget _ _
  | failed world e _ =>
      have hworld : { s with dispatcher := { s.dispatcher with world } }.InOrder := h
      exact hworld.conclude _ _ _
  | finished world value hrunning =>
      have hworld : { s with dispatcher := { s.dispatcher with world } }.InOrder := h
      exact hworld.occupy (by rw [hrunning]; rfl)
  | yielded world progress hrunning =>
      have hworld : { s with dispatcher := { s.dispatcher with world } }.InOrder := h
      exact hworld.occupy (by rw [hrunning]; rfl)
  | kept hparking _ => exact h.kept hparking _
  | turnedAway _ _ => exact h.conclude _ _ _
  | @entered w p object className rest hwriting =>
      have hentered : { s with dispatcher := { s.dispatcher with
          objects := (s.dispatcher.objects.register object className p.ctx.connection).2 }
        }.InOrder := h
      exact hentered.occupy (by rw [hwriting]; rfl)
  | written _ _ => exact h.conclude _ _ _
  | vacated connection => exact h
  | cleared connection =>
      exact h.shrink rfl rfl (fun _ _ hget => hget)
        (fun _ _ hget => (Table.get?_filter_eq_some_iff.mp hget).1) (fun _ _ hheld => hheld)
  | discarded id =>
      exact h.shrink rfl rfl (fun _ _ hget => hget)
        (fun _ _ hget => (Table.get?_erase_eq_some_iff.mp hget).1) (fun _ _ hheld => hheld)
  | released id => exact h

theorem replay (h : s.InOrder) {actions : List Action} (hfresh : s.Fresh actions) :
    (s.replay actions).InOrder := by
  induction actions generalizing s with
  | nil => exact h
  | cons action rest ih => exact ih (h.did (s.did_perform action) hfresh.1) hfresh.2

end InOrder

end System

end Switchboard
