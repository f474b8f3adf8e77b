import Switchboard.Proofs.Interleaving.Places

/-!
# Custody of Progress

Progress is what a step of a call leaves for the next one. It is left once, it is
used at most once, and it is gone only when its call has ended or was given up.

The danger is in ticks that overlap. A tick looks once which calls are pending
and then takes them one by one, and when it comes to a call another tick may have
taken it, may have put it back under the same identity, or may have finished it.
That no progress is used twice is read off the marks, which are new whenever they
are made (`InOrder`). That none is lost is about single actions: `Did.fate`
follows a call through each thing an action can do, and `Did.waiting` does so for
what is pending under its identity. Putting a call back would lose one if another
was pending there, and it never is, since the call would be in two places.

Neither of them says that what a handler is given was left by a step of the same
call. That takes a look at the history (`Traced`): what is pending was left by a
step, and what a worker takes is what is pending.

## Main definitions

* `Happening.left?`, `Happening.used?`: Progress in the history.
* `System.Has`, `System.Fate`: Where a call is, and what becomes of it.
* `System.Traced`: Everything that is used or pending was left.

## Theorems

* `Did.fate`: No action loses a call.
* `Did.waiting`: No action changes what is pending.
* `Traced.did`, `Traced.replay`: Progress comes from where it was left.
* `progress_used_once`: The course of progress in every interleaving.
-/

namespace Switchboard

/-- Which progress a step has left, told by the call and by how many steps it
    took to get there. -/
def Happening.left? : Happening → Option (CallId × Nat)
  | .parked c => some (c.ctx.call, c.steps)
  | _ => none

/-- Which progress a run of a handler has used. The first run of a call counts
    as using what no step has left. -/
def Happening.used? : Happening → Option (CallId × Nat)
  | .invoked p => some (p.ctx.call, p.steps)
  | _ => none

/-- What is read off some entries of a list is read once if it can be told from
    what is read off the list once. -/
theorem nodup_filterMap_of {α β γ : Type} {f : α → Option γ} {g : α → Option β} {l : List α}
    (tell : β → γ) (htell : ∀ a b, g a = some b → f a = some (tell b))
    (h : (l.filterMap f).Nodup) : (l.filterMap g).Nodup := by
  induction l with
  | nil => exact List.nodup_nil
  | cons a rest ih =>
      cases hg : g a with
      | none =>
          rw [List.filterMap_cons_none hg]
          cases hf : f a with
          | none => exact ih (List.filterMap_cons_none hf ▸ h)
          | some c => exact ih (List.nodup_cons.mp (List.filterMap_cons_some hf ▸ h)).2
      | some b =>
          rw [List.filterMap_cons_some (htell a b hg), List.nodup_cons] at h
          rw [List.filterMap_cons_some hg, List.nodup_cons]
          refine ⟨fun hmem => h.1 ?_, ih h.2⟩
          rcases List.mem_filterMap.mp hmem with ⟨a', ha', hg'⟩
          exact List.mem_filterMap.mpr ⟨a', ha', htell a' b hg'⟩

theorem left_nodup {history : List Happening} (h : (history.filterMap Happening.mark?).Nodup) :
    (history.filterMap Happening.left?).Nodup := by
  refine nodup_filterMap_of (fun left => (left.1, 2 * left.2)) (fun happening left hleft => ?_) h
  cases happening with
  | parked c => rw [← Option.some.inj hleft]; rfl
  | _ => exact nomatch hleft

theorem used_nodup {history : List Happening} (h : (history.filterMap Happening.mark?).Nodup) :
    (history.filterMap Happening.used?).Nodup := by
  refine nodup_filterMap_of (fun used => (used.1, 2 * used.2 + 1)) (fun happening used hused => ?_)
    h
  cases happening with
  | invoked p => rw [← Option.some.inj hused]; rfl
  | _ => exact nomatch hused

namespace System

variable {s s' : System} {action : Action} {place : Spot} {ctx : CallContext} {due : Nat}

/-! ## What an action leaves where it is -/

theorem at?_assign_elsewhere {w : WorkerId} (worker : Worker) (hplace : place ≠ .worker w) :
    (s.assign w worker).at? place = s.at? place := by
  cases place with
  | queued id => rfl
  | pending id => rfl
  | worker w' =>
      rw [at?_assign]
      exact if_neg fun hw => hplace (congrArg Spot.worker hw)

theorem at?_conclude_elsewhere {w : WorkerId} (ctx : CallContext) (outcome : Outcome)
    (hplace : place ≠ .worker w) : (s.conclude w ctx outcome).at? place = s.at? place := by
  cases place with
  | queued id => rfl
  | pending id => exact at?_conclude_pending ..
  | worker w' => exact at?_assign_elsewhere _ hplace

theorem at?_arrive_elsewhere {connection : ConnectionId}
    (hplace : place ≠ .queued s.dispatcher.nextCall) :
    (s.perform (.arrive connection)).at? place = s.at? place := by
  cases place with
  | queued id =>
      have hid : id ≠ s.dispatcher.nextCall := fun hid => hplace (congrArg Spot.queued hid)
      simp only [at?, perform, Dispatcher.context, Table.get?_insert, if_neg hid]
  | pending id => rfl
  | worker w => rfl

theorem at?_unqueue_elsewhere {call : Call} (hplace : place ≠ .queued call.ctx.call) :
    (s.unqueue call).at? place = s.at? place := by
  cases place with
  | queued id =>
      have hid : id ≠ call.ctx.call := fun hid => hplace (congrArg Spot.queued hid)
      simp only [at?, unqueue, Table.get?_erase, if_neg hid]
  | pending id => rfl
  | worker w => rfl

theorem at?_without_elsewhere {id : CallId} (hplace : place ≠ .pending id) :
    { s with dispatcher := s.dispatcher.without id }.at? place = s.at? place := by
  cases place with
  | queued id => rfl
  | pending id' =>
      have hid : id' ≠ id := fun hid => hplace (congrArg Spot.pending hid)
      simp only [at?, Dispatcher.without, Table.get?_erase, if_neg hid]
  | worker w => rfl

theorem at?_keep_elsewhere {c : Continuation} (hplace : place ≠ .pending c.ctx.call) :
    { s with dispatcher := { s.dispatcher with
      pending := s.dispatcher.pending.keep (some c) } }.at? place = s.at? place := by
  cases place with
  | queued id => rfl
  | pending id =>
      have hid : id ≠ c.ctx.call := fun hid => hplace (congrArg Spot.pending hid)
      simp only [at?, PendingCalls.keep, Table.get?_insert, if_neg hid]
  | worker w => rfl

/-- What a worker is in the middle of says which call it has. -/
theorem at?_worker {w : WorkerId} {activity : Activity}
    (h : (s.workers w).activity = activity) : s.at? (.worker w) = activity.held? :=
  congrArg Activity.held? h

/-! ## What becomes of a call -/

/-- A call is at a place. -/
def Has (s : System) (place : Spot) (ctx : CallContext) : Prop :=
  ∃ due, s.at? place = some (ctx, due)

/-- What becomes of a call: it is somewhere, or it has come to its final outcome,
    or it was given up while it was pending. -/
inductive Fate (s : System) (action : Action) (s' : System) (place : Spot) (ctx : CallContext) :
    Prop
  | stays (place' : Spot) : s'.Has place' ctx → Fate s action s' place ctx
  | ends {outcome : Outcome} :
    outcome.isFinal = true → s'.history = .concluded ctx outcome :: s.history →
    Fate s action s' place ctx
  | discarded : place = .pending ctx.call → action = .discard ctx.call → Fate s action s' place ctx
  | cleared :
    place = .pending ctx.call → action = .clear ctx.connection → Fate s action s' place ctx

/-- A worker that does something else with the same call still has it, and so do
    the others. -/
theorem at?_occupy {w : WorkerId} {activity : Activity}
    (hheld : activity.held? = (s.workers w).activity.held?)
    (hat : s.at? place = some (ctx, due)) :
    (s.occupy w activity).at? place = some (ctx, due) := by
  by_cases hplace : place = .worker w
  · rw [hplace, occupy, at?_assign, if_pos rfl]
    rw [hplace] at hat
    exact hheld.trans hat
  · exact (at?_assign_elsewhere _ hplace).trans hat

/-- A call whose worker comes to a final outcome ends, and the others stay. -/
theorem fate_of_conclude {base : System} {w : WorkerId} {held : CallContext} {due' : Nat}
    {outcome : Outcome} (hhistory : s.history = base.history)
    (hworker : s.at? (.worker w) = some (held, due')) (hfinal : outcome.isFinal = true)
    (hat : s.at? place = some (ctx, due)) :
    base.Fate action (s.conclude w held outcome) place ctx := by
  by_cases hplace : place = .worker w
  · rw [hplace, hworker, Option.some.injEq, Prod.mk.injEq] at hat
    rw [← hat.1]
    exact .ends hfinal (congrArg _ hhistory)
  · exact .stays _ ⟨_, (at?_conclude_elsewhere _ _ hplace).trans hat⟩

/-- Every action leaves a call somewhere, or ends it, or was meant to give it
    up. -/
theorem Did.fate (h : s.Did action s') (horder : s.InOrder) (hfresh : action.Fresh s)
    (hat : s.at? place = some (ctx, due)) : s.Fate action s' place ctx := by
  -- A worker without a call is not where the call is.
  have hbusy : ∀ {w : WorkerId} {worker : Worker}, s.workers w = worker →
      worker.activity = .idle → place ≠ .worker w := by
    rintro w _ rfl hidle rfl
    rw [at?_worker hidle] at hat
    exact nomatch hat
  cases h with
  | nothing => exact .stays place ⟨due, hat⟩
  | arrived connection =>
      have hplace : place ≠ .queued s.dispatcher.nextCall := by
        rintro rfl
        have hcall := horder.keyed _ _ _ (Or.inl hat)
        exact absurd (horder.issued _ _ _ hat) (hcall ▸ Nat.lt_irrefl _)
      exact .stays _ ⟨_, (at?_arrive_elsewhere hplace).trans hat⟩
  | @started w call bound p hfree hctx _ _ =>
      by_cases hplace : place = .queued call.ctx.call
      · rw [hplace, at?, hfresh, Option.map_some, Option.some.injEq, Prod.mk.injEq] at hat
        rw [← hat.1]
        exact .stays _ ⟨_, hctx ▸ (s.unqueue call).at?_invoke w p⟩
      · have hkept := (at?_unqueue_elsewhere hplace).trans hat
        exact .stays _ ⟨_, (at?_assign_elsewhere _ (hbusy hfree rfl)).trans hkept⟩
  | @refused w call bound e hfree =>
      by_cases hplace : place = .queued call.ctx.call
      · rw [hplace, at?, hfresh, Option.map_some, Option.some.injEq, Prod.mk.injEq] at hat
        rw [← hat.1]
        exact .ends rfl rfl
      · have hkept := (at?_unqueue_elsewhere hplace).trans hat
        exact .stays _ ⟨_, (at?_conclude_elsewhere _ _ (hbusy hfree rfl)).trans hkept⟩
  | looked hfree => exact .stays _ ⟨_, (at?_assign_elsewhere _ (hbusy hfree rfl)).trans hat⟩
  | meant hfree => exact .stays _ ⟨_, (at?_assign_elsewhere _ (hbusy hfree rfl)).trans hat⟩
  | missed hworker _ => exact .stays _ ⟨_, (at?_assign_elsewhere _ (hbusy hworker rfl)).trans hat⟩
  | @taken w id rest c hworker hget =>
      by_cases hplace : place = .pending id
      · rw [hplace, at?, hget, Option.map_some, Option.some.injEq, Prod.mk.injEq] at hat
        rw [← hat.1]
        exact .stays _ ⟨_, at?_invoke _ w c.turn⟩
      · have hkept := (at?_without_elsewhere hplace).trans hat
        have hplace := hbusy hworker rfl
        exact .stays _ ⟨_, (at?_assign_elsewhere _ hplace).trans
          ((at?_assign_elsewhere _ hplace).trans hkept)⟩
  | failed world e hrunning => exact fate_of_conclude rfl (at?_worker hrunning) rfl hat
  | @finished w p world value hrunning =>
      exact .stays _ ⟨_, at?_occupy (by rw [hrunning]; rfl) hat⟩
  | @yielded w p world progress hrunning =>
      exact .stays _ ⟨_, at?_occupy (by rw [hrunning]; rfl) hat⟩
  | @kept w c hparking hopen =>
      by_cases hplace : place = .worker w
      · rw [hplace, at?_worker hparking, Activity.held?, Option.some.injEq, Prod.mk.injEq] at hat
        rw [← hat.1]
        exact .stays _ ⟨_, s.at?_keep w c _⟩
      · -- The entry that is written belongs to the worker's call and to no other.
        have hpending : place ≠ .pending c.ctx.call := by
          rintro rfl
          have hcall := horder.keyed _ _ _ (Or.inr hat)
          exact hplace (horder.apart _ _ _ _ _ _ hat (at?_worker hparking) hcall)
        have hkept := (at?_keep_elsewhere hpending).trans hat
        exact .stays _ ⟨_, (at?_conclude_elsewhere _ _ hplace).trans hkept⟩
  | turnedAway hparking _ => exact fate_of_conclude rfl (at?_worker hparking) rfl hat
  | @entered w p object className rest hwriting =>
      exact .stays _ ⟨_, at?_occupy (by rw [hwriting]; rfl) hat⟩
  | written hwriting hfinal => exact fate_of_conclude rfl (at?_worker hwriting) hfinal hat
  | vacated connection => exact .stays place ⟨due, hat⟩
  | cleared connection =>
      cases place with
      | queued id => exact .stays (.queued id) ⟨due, hat⟩
      | worker w => exact .stays (.worker w) ⟨due, hat⟩
      | pending id =>
          rcases Option.map_eq_some_iff.mp hat with ⟨c, hget, hfound⟩
          have hctx : c.ctx = ctx := (Prod.mk.inj hfound).1
          by_cases hconnection : c.ctx.connection = connection
          · have hcall := horder.keyed _ _ _ (Or.inr hat)
            exact .cleared (hcall ▸ rfl) (by rw [← hctx, hconnection])
          · have hget' : (s.dispatcher.pending.discardConnection connection).2.waiting.get? id =
                some c := Table.get?_filter_eq_some_iff.mpr ⟨hget, bne_iff_ne.mpr hconnection⟩
            exact .stays (.pending id) ⟨due, Option.map_eq_some_iff.mpr ⟨c, hget', hfound⟩⟩
  | discarded id =>
      by_cases hplace : place = .pending id
      · have hcall := horder.keyed _ _ _ (Or.inr (hplace ▸ hat))
        exact .discarded (hcall ▸ hplace) (congrArg Action.discard hcall.symm)
      · exact .stays _ ⟨_, (at?_without_elsewhere hplace).trans hat⟩
  | released id => exact .stays place ⟨due, hat⟩

/-- Nothing is pending under the call that a worker is about to put back. -/
theorem InOrder.free_of_parking (horder : s.InOrder) {w : WorkerId} {c : Continuation}
    (hparking : (s.workers w).activity = .parking c) :
    s.dispatcher.pending.waiting.get? c.ctx.call = none := by
  cases hget : s.dispatcher.pending.waiting.get? c.ctx.call with
  | none => rfl
  | some c' =>
      have hat : s.at? (.pending c.ctx.call) = some (c'.ctx, 2 * c'.steps + 1) := by
        rw [at?, hget, Option.map_some]
      have hcall := horder.keyed _ _ _ (Or.inr hat)
      exact Spot.noConfusion (horder.apart _ _ _ _ _ _ hat (at?_worker hparking) hcall)

/-- A call that can be put back is pending as it was put back. -/
theorem get?_of_parking {w : WorkerId} {c : Continuation}
    (hparking : (s.workers w).activity = .parking c)
    (hopen : s.dispatcher.pending.closed.contains c.ctx.connection = false) :
    (s.perform (.proceed w)).dispatcher.pending.waiting.get? c.ctx.call = some c := by
  rw [perform, hparking]
  simp only [park, PendingCalls.park, hopen, Bool.false_eq_true, if_false, conclude_pending,
    remember, Table.get?_insert, if_true]

/-- A call that is pending stays as it is, or a worker gets all of it, or it is
    given up. -/
theorem Did.waiting (h : s.Did action s') (horder : s.InOrder) {id : CallId} {c : Continuation}
    (hget : s.dispatcher.pending.waiting.get? id = some c) :
    s'.dispatcher.pending.waiting.get? id = some c ∨
      (∃ w, action = .take w ∧ (s'.workers w).activity = .running c.turn) ∨
      action = .discard id ∨ action = .clear c.ctx.connection := by
  cases h with
  | @taken w taken rest c' _ hget' =>
      by_cases hid : id = taken
      · rw [hid, hget', Option.some.injEq] at hget
        refine Or.inr (Or.inl ⟨w, rfl, ?_⟩)
        simp only [invoke, remember, occupy, assign, if_true, hget]
      · exact Or.inl (Table.get?_erase_eq_some_iff.mpr ⟨hget, hid⟩)
  | @kept w c' hparking _ =>
      have hid : id ≠ c'.ctx.call := by
        rintro rfl
        rw [horder.free_of_parking hparking] at hget
        exact absurd hget (by simp only [reduceCtorEq, not_false_eq_true])
      rw [conclude_pending]
      simp only [remember, PendingCalls.keep, Table.get?_insert, if_neg hid]
      exact Or.inl hget
  | cleared connection =>
      by_cases hconnection : c.ctx.connection = connection
      · exact Or.inr (Or.inr (Or.inr (congrArg Action.clear hconnection.symm)))
      · exact Or.inl (Table.get?_filter_eq_some_iff.mpr ⟨hget, bne_iff_ne.mpr hconnection⟩)
  | discarded other =>
      by_cases hid : id = other
      · exact Or.inr (Or.inr (Or.inl (congrArg Action.discard hid.symm)))
      · exact Or.inl (Table.get?_erase_eq_some_iff.mpr ⟨hget, hid⟩)
  | refused => exact Or.inl (by rw [conclude_pending]; exact hget)
  | failed => exact Or.inl (by rw [conclude_pending]; exact hget)
  | turnedAway => exact Or.inl (by rw [conclude_pending]; exact hget)
  | written => exact Or.inl (by rw [conclude_pending]; exact hget)
  | _ => exact Or.inl hget

/-! ## Where progress comes from -/

/-- Every run of a handler with progress was given what an earlier step left. -/
def Accounted : List Happening → Prop
  | [] => True
  | .invoked p :: earlier =>
    (p.progress = none ∨ ∃ c, .parked c ∈ earlier ∧ p = c.turn) ∧ Accounted earlier
  | _ :: earlier => Accounted earlier

theorem Accounted.of_append {later earlier : List Happening} {p : Turn}
    (h : Accounted (later ++ .invoked p :: earlier)) :
    p.progress = none ∨ ∃ c, .parked c ∈ earlier ∧ p = c.turn := by
  induction later with
  | nil => exact h.1
  | cons first rest ih =>
      cases first with
      | invoked q => exact ih h.2
      | parked c => exact ih h
      | concluded ctx outcome => exact ih h
      | vacated connection => exact ih h
      | cleared connection => exact ih h

/-- What is pending was left by a step, and so was what handlers were given. -/
structure Traced (s : System) : Prop where
  waiting : ∀ id c, s.dispatcher.pending.waiting.get? id = some c → .parked c ∈ s.history
  accounted : Accounted s.history

namespace Traced

theorem start (catalog : Catalog) (config : ServerConfig) :
    (System.start catalog config).Traced where
  waiting _ _ h := nomatch h
  accounted := trivial

theorem did (h : s.Traced) (hdid : s.Did action s') : s'.Traced where
  waiting id c hget := by
    rcases hdid.history with ⟨recent, hrecent, _⟩
    have hold : s.dispatcher.pending.waiting.get? id = some c → .parked c ∈ s'.history :=
      fun hget => hrecent ▸ List.mem_append_right recent (h.waiting id c hget)
    rcases hdid.pending with hsame | ⟨id', hid⟩ | ⟨c', _, hparked, hc⟩ | ⟨connection, hclear⟩
    · exact hold (hsame ▸ hget)
    · rw [hid] at hget
      exact hold (Table.get?_erase_eq_some_iff.mp hget).1
    · rw [hc, PendingCalls.keep, Table.get?_insert] at hget
      by_cases hid : id = c'.ctx.call
      · rw [if_pos hid, Option.some.injEq] at hget
        exact hget ▸ hparked
      · rw [if_neg hid] at hget
        exact hold hget
    · rw [hclear] at hget
      exact hold (Table.get?_filter_eq_some_iff.mp hget).1
  accounted := by
    cases hdid with
    | started _ _ hprogress _ => exact ⟨Or.inl hprogress, h.accounted⟩
    | taken _ hget => exact ⟨Or.inr ⟨_, h.waiting _ _ hget, rfl⟩, h.accounted⟩
    | _ => exact h.accounted

theorem replay (h : s.Traced) (actions : List Action) : (s.replay actions).Traced := by
  induction actions generalizing s with
  | nil => exact h
  | cons action rest ih => exact ih (h.did (s.did_perform action))

end Traced

/-! ## Progress is kept, and used once -/

/-- However steps, ticks and disconnects run into each other, a call is in one
    place at a time. What a step leaves is told from all else that is left, no
    two runs of a handler use the same, and each run with progress was given
    what an earlier step left. A step that puts its call back finds the place
    free and leaves there what it has, unless the connection is gone. What is
    pending stays as it is until a worker takes all of it, and a call is gone
    only if it has come to its final outcome, or if it was given up while it was
    pending, by itself or with its connection. -/
theorem progress_used_once (catalog : Catalog) (config : ServerConfig) (actions : List Action)
    (hfresh : (System.start catalog config).Fresh actions) :
    ∀ s, s = (System.start catalog config).replay actions →
      (∀ place place' ctx ctx', s.Has place ctx → s.Has place' ctx' → ctx.call = ctx'.call →
        place = place') ∧
      (s.history.filterMap Happening.left?).Nodup ∧
      (s.history.filterMap Happening.used?).Nodup ∧
      (∀ later p earlier, s.history = later ++ .invoked p :: earlier →
        p.progress = none ∨ ∃ c, .parked c ∈ earlier ∧ p = c.turn) ∧
      (∀ w c, (s.workers w).activity = .parking c →
        s.dispatcher.pending.waiting.get? c.ctx.call = none ∧
        (s.dispatcher.pending.closed.contains c.ctx.connection = false →
          (s.perform (.proceed w)).dispatcher.pending.waiting.get? c.ctx.call = some c)) ∧
      ∀ action, action.Fresh s →
        (∀ id c, s.dispatcher.pending.waiting.get? id = some c →
          (s.perform action).dispatcher.pending.waiting.get? id = some c ∨
          (∃ w, action = .take w ∧ ((s.perform action).workers w).activity = .running c.turn) ∨
          action = .discard id ∨ action = .clear c.ctx.connection) ∧
        ∀ place ctx, s.Has place ctx → s.Fate action (s.perform action) place ctx := by
  rintro s rfl
  have horder := (InOrder.start catalog config).replay hfresh
  have htraced := (Traced.start catalog config).replay actions
  refine ⟨?_, left_nodup horder.once, used_nodup horder.once, ?_, ?_, ?_⟩
  · rintro place place' ctx ctx' ⟨due, hat⟩ ⟨due', hat'⟩ hcall
    exact horder.apart _ _ _ _ _ _ hat hat' hcall
  · intro later p earlier hhistory
    exact Accounted.of_append (hhistory ▸ htraced.accounted)
  · intro w c hparking
    exact ⟨horder.free_of_parking hparking, get?_of_parking hparking⟩
  · intro action hfresh
    have hdid := ((System.start catalog config).replay actions).did_perform action
    refine ⟨fun id c hget => hdid.waiting horder hget, ?_⟩
    rintro place ctx ⟨due, hat⟩
    exact hdid.fate horder hfresh hat

/-- A procedure that can be resumed any number of times. -/
def patientCatalog : Catalog where
  services := ⟨[]⟩
  directory := ⟨[⟨"S.Wait", "S", ⟨"Wait", [], none, "", true⟩, return .yield .null⟩]⟩

/-- Two ticks work from the same look at the pending calls. The second finds the
    call gone, and takes it when it is back. -/
def overlappingTicks : List Action :=
  [.arrive 1, .dispatch 0 (Call.bare ⟨1, 1⟩ "S.Wait") (.ok []),
    .handle 0 (.ok (.yield (.int32 1))) {}, .proceed 0,
    .look 1, .look 2, .take 1, .take 2,
    .handle 1 (.ok (.yield (.int32 2))) {}, .proceed 1,
    .want 2 1, .take 2]

theorem overlappingTicks_take_turns :
    (System.start patientCatalog {}).Fresh overlappingTicks ∧
    ∀ s, s = (System.start patientCatalog {}).replay overlappingTicks →
      s.history.filterMap Happening.used? = [(1, 2), (1, 1), (1, 0)] ∧
      (s.history.filterMap Happening.used?).Nodup ∧
      (∀ place, s.Has place ⟨1, 1⟩ → place = .worker 2) ∧
      ∃ c, .parked c ∈ s.history ∧ (s.workers 2).activity = .running c.turn := by
  have hfresh : (System.start patientCatalog {}).Fresh overlappingTicks :=
    ⟨trivial, rfl, trivial, trivial, trivial, trivial, trivial, trivial, trivial, trivial, trivial,
      trivial, trivial⟩
  refine ⟨hfresh, ?_⟩
  rintro s rfl
  rcases progress_used_once patientCatalog {} overlappingTicks hfresh _ rfl with
    ⟨hplace, _, hused, hgiven, _⟩
  refine ⟨rfl, hused, fun place hhas => ?_, ?_⟩
  · exact hplace place (.worker 2) ⟨1, 1⟩ ⟨1, 1⟩ hhas ⟨_, rfl⟩ rfl
  · rcases hgiven [] _ _ rfl with hnone | ⟨c, hparked, hturn⟩
    · exact nomatch hnone
    · exact ⟨c, .tail _ hparked, congrArg Activity.running hturn⟩

end System

end Switchboard
