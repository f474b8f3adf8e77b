import Switchboard.Proofs.Dispatcher.Session

/-!
# Transcripts

What a call sees of the world around it, which is nothing. The events of one
call in a session are what one would get by running its handler over and over
by itself, each time on the arguments that were bound when it came in and on
the progress it left the time before. Other calls, released objects, and
disconnecting clients come in between and make no difference to what the
handler is given or to how often.

`Turn.Follows` is the form in which a run is taken apart: the events of a call
from a waiting continuation on, one turn after the other, to what is left of it
in the end. It says nothing of operations, so whatever follows from it is
independent of the order in which things happened. `Turn.Transparent` is the
form in which the result is read, by the number of the turn.

## Main definitions

* `Turn.Follows`: The turns of a call from a continuation on.
* `Turn.Transparent`: What the turns of a call look like from outside.
* `Session.dues`: How often it is the turn of a call.

## Theorems

* `follows_history`: Later events of a call follow from its continuation.
* `transparent_of_follows`: Turns that follow are transparent.
* `transcript_transparent`: The whole of a blocking call.
-/

namespace Switchboard

/-! ## Reading events -/

/-- What the handler came to, if it ran. -/
def Event.result? (e : Event) : Option (Except Interrupt Step) := e.run.map HandlerRun.result

/-- What the handler was given of its previous run, if it ran and there was
    one. -/
def Event.given? (e : Event) : Option NativeValue := e.run.bind fun run => run.invocation.progress

/-- The outcome of a turn that wrote a value, or could not. -/
def Outcome.ofWritten : Except CallError (Option Value) → Outcome
  | .ok written => .completed written
  | .error e => .failed e

namespace Turn

/-- The turns of a call from a continuation on, to what is left of it. A call
    that waits may be given up where that is allowed for. -/
inductive Follows (services : Services) (mayDrop : Prop) :
    Option Continuation → List Event → Option Continuation → Prop
  | rest (next : Option Continuation) : Follows services mayDrop next [] next
  | dropped (c : Continuation) : mayDrop → Follows services mayDrop (some c) [] none
  | turn {c : Continuation} {objects objects' : ObjectTable} {e : Event}
      {next last : Option Continuation} {events : List Event} :
    c.turn.Took services true objects e next objects' →
    Follows services mayDrop next events last →
    Follows services mayDrop (some c) (e :: events) last

theorem Follows.of_none {services : Services} {mayDrop : Prop} {events : List Event}
    {last : Option Continuation} (h : Follows services mayDrop none events last) :
    events = [] ∧ last = none := by
  cases h with
  | rest _ => exact ⟨rfl, rfl⟩

/-- The outcome that what the handler came to in a turn leads to: an
    interruption fails the call with its own error, a value is written, and
    progress continues the call while its connection is there. -/
def Judged (services : Services) (connected : Bool) (p : Turn) (e : Event) : Prop :=
  match e.result? with
  | some (.error interrupt) => e.outcome = .failed interrupt.toError
  | some (.ok (.complete value)) =>
    ∃ objects, e.outcome =
      .ofWritten ((Dispatcher.writeReturn services p value).run.run objects).1
  | some (.ok (.yield _)) =>
    e.outcome = if connected then .continuing p.ctx.call
      else .failed (Dispatcher.connectionGone p.ctx.connection)
  | none => False

/-- What the events of a call look like that takes its turns from a given one
    on. The first is given what the turn has, each further one what the one
    before it left behind, and all of them the same arguments; all but the last
    continue, and what each comes to decides its outcome. -/
structure Transparent (services : Services) (connected : Bool) (p : Turn) (events : List Event)
    (last : Option Continuation) : Prop where
  begun : 0 < events.length
  served : ∀ e ∈ events, e.ctx = p.ctx ∧ ∃ run, e.run = some run ∧
    run.handler = p.descriptor.handler ∧ run.invocation.ctx = p.ctx ∧
    run.invocation.arguments = p.arguments
  first : ∀ e, events[0]? = some e → e.given? = p.progress
  handedOn : ∀ (k : Nat) (e e' : Event), events[k]? = some e → events[k + 1]? = some e' →
    ∃ progress, e.result? = some (.ok (.yield progress)) ∧ e'.given? = some progress
  judged : ∀ e ∈ events, p.Judged services connected e
  continuing : ∀ (k : Nat) (e : Event), k + 1 < events.length → events[k]? = some e →
    e.outcome = .continuing p.ctx.call
  pending : last ≠ none ↔ ∀ e ∈ events, e.outcome = .continuing p.ctx.call
  parked : ∀ c, last = some c → c.descriptor = p.descriptor ∧ c.ctx = p.ctx ∧
    c.arguments = p.arguments ∧ c.steps = p.steps + events.length ∧
    ∀ e, events.getLast? = some e → e.result? = some (.ok (.yield c.progress))

variable {services : Services} {connected : Bool} {p : Turn} {objects objects' : ObjectTable}
  {e : Event} {next : Option Continuation}

/-- What one turn is given. -/
theorem Took.served (h : p.Took services connected objects e next objects') :
    e.ctx = p.ctx ∧ ∃ run, e.run = some run ∧ run.handler = p.descriptor.handler ∧
      run.invocation.ctx = p.ctx ∧ run.invocation.arguments = p.arguments := by
  rcases h.run with ⟨run, hrun, hserves, _⟩
  exact ⟨h.ctx, run, hrun, hserves.handler, hserves.ctx, hserves.arguments⟩

theorem Took.given (h : p.Took services connected objects e next objects') :
    e.given? = p.progress := by
  rcases h.run with ⟨run, hrun, hserves, _⟩
  rw [Event.given?, hrun, Option.bind_some]
  exact hserves.progress

/-- What one turn of a blocking procedure comes to. -/
theorem Took.judged (h : p.Took services connected objects e next objects')
    (hblocking : p.descriptor.procedure.blocking = true) : p.Judged services connected e := by
  rcases h.run with ⟨run, hrun, _, hconcludes⟩
  have hresult : e.result? = some run.result := by rw [Event.result?, hrun, Option.map_some]
  unfold Judged
  rw [hresult]
  generalize run.result = result at hconcludes
  generalize e.outcome = outcome at hconcludes
  cases hconcludes with
  | interrupted interrupt => rfl
  | completed hwrite =>
      refine ⟨objects, ?_⟩
      rw [hwrite]
      rfl
  | unwritable hwrite =>
      refine ⟨objects, ?_⟩
      rw [hwrite]
      rfl
  | parked progress _ hc => simp only [hc, if_true]
  | disconnected progress _ hc => simp only [hc, Bool.false_eq_true, if_false]
  | notBlocking progress hb =>
      rw [hblocking] at hb
      exact absurd hb (by decide)

/-- A call that is put back waits with what its handler left behind. -/
theorem Took.parked (h : p.Took services connected objects e next objects') {c : Continuation}
    (hc : next = some c) :
    e.result? = some (.ok (.yield c.progress)) ∧ e.outcome = .continuing p.ctx.call := by
  rcases h.run with ⟨run, hrun, _, hconcludes⟩
  rw [Event.result?, hrun, Option.map_some]
  rcases hconcludes.final_or_parked with ⟨_, hn⟩ | ⟨progress, hresult, _, _, ho, hn⟩
  · rw [hn] at hc
    exact absurd hc (by simp only [reduceCtorEq, not_false_eq_true])
  · rw [hn, Option.some.injEq] at hc
    rw [hresult, ← hc]
    exact ⟨rfl, ho⟩

/-- What a handler is judged by depends on the procedure and the call only. -/
theorem Judged.congr {q : Turn} (h : q.Judged services connected e)
    (hdescriptor : q.descriptor = p.descriptor) (hctx : q.ctx = p.ctx) :
    p.Judged services connected e := by
  unfold Judged Dispatcher.writeReturn at h ⊢
  rw [hdescriptor, hctx] at h
  exact h

/-! ## Turns that follow are transparent -/

theorem transparent_single (h : p.Took services connected objects e next objects')
    (hblocking : p.descriptor.procedure.blocking = true) :
    p.Transparent services connected [e] next where
  begun := Nat.one_pos
  served := by
    intro e' he'
    rw [List.mem_singleton.mp he']
    exact h.served
  first := by
    intro e' he'
    rw [List.getElem?_cons_zero, Option.some.injEq] at he'
    rw [← he']
    exact h.given
  handedOn := by
    intro k e₁ e₂ _ he₂
    exact absurd he₂ (by simp)
  judged := by
    intro e' he'
    rw [List.mem_singleton.mp he']
    exact h.judged hblocking
  continuing := by
    intro k e' hk
    exact absurd hk (by simp)
  pending := by
    rw [h.continuing_iff]
    simp only [List.mem_singleton, forall_eq]
  parked := by
    intro c hc
    rcases h.next_eq hc with ⟨hctx, hdescriptor, harguments, hsteps, _, _⟩
    refine ⟨hdescriptor, hctx, harguments, hsteps, ?_⟩
    intro e' he'
    rw [List.getLast?_singleton, Option.some.injEq] at he'
    rw [← he']
    exact (h.parked hc).1

theorem transparent_cons {c : Continuation} {events : List Event} {last : Option Continuation}
    (h : p.Took services connected objects e (some c) objects')
    (hblocking : p.descriptor.procedure.blocking = true)
    (hrest : c.turn.Transparent services true events last) :
    p.Transparent services connected (e :: events) last := by
  rcases h.next_eq rfl with ⟨hctx, hdescriptor, harguments, hsteps, _, hconnected⟩
  rcases h.parked rfl with ⟨hresult, houtcome⟩
  have hctx' : c.turn.ctx = p.ctx := hctx
  have hdescriptor' : c.turn.descriptor = p.descriptor := hdescriptor
  have harguments' : c.turn.arguments = p.arguments := harguments
  have hsteps' : c.turn.steps = p.steps + 1 := hsteps
  subst hconnected
  -- The first turn is this one. Later ones are those of the rest, which has the
  -- same call and the same arguments, and the progress that this turn left.
  constructor
  · exact Nat.succ_pos _
  · intro e' he'
    rcases List.mem_cons.mp he' with rfl | he'
    · exact h.served
    · have := hrest.served e' he'
      rw [hctx', hdescriptor', harguments'] at this
      exact this
  · intro e' he'
    rw [List.getElem?_cons_zero, Option.some.injEq] at he'
    rw [← he']
    exact h.given
  · intro k e₁ e₂ he₁ he₂
    rw [List.getElem?_cons_succ] at he₂
    cases k with
    | zero =>
        rw [List.getElem?_cons_zero, Option.some.injEq] at he₁
        rw [← he₁]
        exact ⟨c.progress, hresult, hrest.first e₂ he₂⟩
    | succ k =>
        rw [List.getElem?_cons_succ] at he₁
        exact hrest.handedOn k e₁ e₂ he₁ he₂
  · intro e' he'
    rcases List.mem_cons.mp he' with rfl | he'
    · exact h.judged hblocking
    · exact (hrest.judged e' he').congr hdescriptor' hctx'
  · intro k e' hk he'
    cases k with
    | zero =>
        rw [List.getElem?_cons_zero, Option.some.injEq] at he'
        rw [← he']
        exact houtcome
    | succ k =>
        rw [List.getElem?_cons_succ] at he'
        rw [List.length_cons] at hk
        rw [← hctx']
        exact hrest.continuing k e' (Nat.lt_of_succ_lt_succ hk) he'
  · rw [hrest.pending, List.forall_mem_cons, hctx']
    simp only [houtcome, true_and]
  · intro c' hc'
    rcases hrest.parked c' hc' with ⟨hd, hx, ha, hn, hlast⟩
    refine ⟨hd.trans hdescriptor', hx.trans hctx', ha.trans harguments', ?_, ?_⟩
    · rw [hn, hsteps', List.length_cons]
      omega
    · intro e' he'
      rw [List.getLast?_cons_of_ne_nil (List.ne_nil_of_length_pos hrest.begun)] at he'
      exact hlast e' he'

/-- The turns of a call from its first on are transparent. -/
theorem transparent_of_follows {mayDrop : Prop} {events : List Event}
    {last : Option Continuation} (hkept : ¬ mayDrop)
    (h : p.Took services connected objects e next objects')
    (hblocking : p.descriptor.procedure.blocking = true)
    (hfollows : Follows services mayDrop next events last) :
    p.Transparent services connected (e :: events) last := by
  induction hfollows generalizing p connected e objects objects' with
  | rest next => exact transparent_single h hblocking
  | dropped c hdrop => exact absurd hdrop hkept
  | @turn c _ _ _ _ _ _ htook _ ih =>
      have hdescriptor : c.turn.descriptor = p.descriptor := (h.next_eq rfl).2.1
      exact transparent_cons h hblocking (ih htook (by rw [hdescriptor]; exact hblocking))

/-- A final outcome is the last thing that happens to a call. -/
theorem Transparent.final_last {events : List Event} {last : Option Continuation}
    (h : p.Transparent services connected events last) (he : e ∈ events)
    (hfinal : e.outcome.isFinal = true) : events.getLast? = some e ∧ last = none := by
  have hnot : e.outcome ≠ .continuing p.ctx.call := by
    intro ho
    rw [ho] at hfinal
    exact Bool.noConfusion hfinal
  constructor
  · rcases List.getElem?_of_mem he with ⟨k, hk⟩
    have hbound : k < events.length := (List.getElem?_eq_some_iff.mp hk).1
    -- All before the last continue.
    have hlast : ¬ k + 1 < events.length := fun hlt => hnot (h.continuing k e hlt hk)
    rw [List.getLast?_eq_getElem?, ← hk]
    congr 1
    omega
  · rcases hl : last with _ | c
    · rfl
    · exact absurd (h.pending.mp (by rw [hl]; exact Option.some_ne_none c) e he) hnot

end Turn

namespace Session

/-! ## Later events of a call -/

/-- Whatever is done, the later events of a call that was dispatched follow
    from its continuation. -/
theorem follows_history {s : Session} (h : s.Sound) (mayDrop : Prop) {id : CallId}
    (hbelow : id < s.dispatcher.nextCall) (hunissued : s.issued.get? id = none)
    (operations : List Operation)
    (hdrop : ∀ c, s.waiting id = some c → ∀ op ∈ operations, op.drops c.ctx = true → mayDrop) :
    Turn.Follows s.dispatcher.catalog.services mayDrop (s.waiting id)
      (eventsOf id (s.history operations)) ((s.replay operations).waiting id) := by
  induction operations generalizing s with
  | nil => exact .rest _
  | cons op rest ih =>
      have hkept := kept_perform h op
      have hbelow' := Nat.lt_of_lt_of_le hbelow hkept.nextCall
      rw [history, eventsOf_append, replay_cons]
      have ih' := ih (sound_perform h op) hbelow'
      rw [hkept.catalog] at ih'
      have hchange := change h op id
      generalize eventsOf id (s.events op) = happened at hchange
      cases hchange with
      | untouched hissued hwaiting _ =>
          rw [hwaiting] at ih'
          exact ih' (hissued.trans hunissued)
            (fun c hc op' hop' => hdrop c hc op' (List.mem_cons_of_mem _ hop'))
      -- A number that was used is not given out or used again.
      | issued hid _ _ => exact absurd hid (Nat.ne_of_lt hbelow)
      | refused hissued _ _ _ =>
          rw [hunissued] at hissued
          exact absurd hissued (by simp only [reduceCtorEq, not_false_eq_true])
      | begun hissued _ _ _ _ =>
          rw [hunissued] at hissued
          exact absurd hissued (by simp only [reduceCtorEq, not_false_eq_true])
      | @advanced _ c e next _ _ _ hwaiting htook hissued hwaiting' =>
          rw [hwaiting]
          refine .turn htook ?_
          rw [hwaiting'] at ih'
          refine ih' (hissued.trans hunissued) ?_
          intro c' hc' op' hop' hdrops
          have hctx : c'.ctx = c.ctx := (htook.next_eq hc').1
          rw [hctx] at hdrops
          exact hdrop c hwaiting op' (List.mem_cons_of_mem _ hop') hdrops
      | @dropped _ c hdrops hwaiting hissued hwaiting' =>
          -- Nothing more can happen to it, so nothing follows.
          rw [hwaiting'] at ih'
          rcases (ih' (hissued.trans hunissued)
            (fun c hc => absurd hc (by simp only [reduceCtorEq, not_false_eq_true]))).of_none with
            ⟨hnothing, hgone⟩
          rw [hnothing, hgone, hwaiting]
          exact .dropped c (hdrop c hwaiting op List.mem_cons_self hdrops)

/-- How often it is the turn of a call. -/
def dues (s : Session) (id : CallId) : List Operation → Nat
  | [] => 0
  | op :: rest =>
    (if op.advances id && (s.waiting id).isSome then 1 else 0) + (s.perform op).dues id rest

/-- A call takes a turn whenever it is its turn, and never otherwise. -/
theorem length_eventsOf_history {s : Session} (h : s.Sound) {id : CallId}
    (hbelow : id < s.dispatcher.nextCall) (hunissued : s.issued.get? id = none)
    (operations : List Operation) :
    (eventsOf id (s.history operations)).length = s.dues id operations := by
  induction operations generalizing s with
  | nil => rfl
  | cons op rest ih =>
      have hbelow' := Nat.lt_of_lt_of_le hbelow (kept_perform h op).nextCall
      have ih' := ih (sound_perform h op) hbelow'
      rw [history, eventsOf_append, List.length_append, dues]
      have hchange := change h op id
      generalize eventsOf id (s.events op) = happened at hchange
      cases hchange with
      | untouched hissued _ hidle =>
          have hnot : (op.advances id && (s.waiting id).isSome) = false := by
            cases hadvances : op.advances id with
            | false => rfl
            | true => rw [hidle hadvances]; rfl
          rw [ih' (hissued.trans hunissued), hnot]
          rfl
      | issued hid _ _ => exact absurd hid (Nat.ne_of_lt hbelow)
      | refused hissued _ _ _ =>
          rw [hunissued] at hissued
          exact absurd hissued (by simp only [reduceCtorEq, not_false_eq_true])
      | begun hissued _ _ _ _ =>
          rw [hunissued] at hissued
          exact absurd hissued (by simp only [reduceCtorEq, not_false_eq_true])
      | advanced hadvances hwaiting _ hissued _ =>
          rw [ih' (hissued.trans hunissued), hadvances, hwaiting]
          rfl
      -- What gives a call up gives it no turn.
      | @dropped _ c hdrops hwaiting hissued _ =>
          have hnot : op.advances id = false := by
            cases op <;> first | rfl | exact Bool.noConfusion hdrops
          rw [ih' (hissued.trans hunissued), hnot]
          rfl

/-! ## A blocking call from beginning to end -/

/-- The first turn of a call whose procedure exists and whose arguments can be
    bound. -/
theorem prepare_eq {d : Dispatcher} {call : Call} {descriptor : Descriptor}
    {bound : List NativeValue} (hfound : d.catalog.directory.get call.procedure = .ok descriptor)
    (hbound : bindArguments d.catalog.services d.objects descriptor.qualifiedName
      descriptor.procedure.parameters call.arguments = .ok bound) :
    d.prepare call = .ok ⟨descriptor, call.ctx, bound, none, 0⟩ := by
  unfold Dispatcher.prepare
  rw [hfound]
  simp only [bind, Except.bind, hbound]
  rfl

/-- A call whose first turn is prepared takes it when it is dispatched. -/
theorem begun_of_prepared {s : Session} (h : s.Sound) {id : CallId} {connection : ConnectionId}
    {procedure : String} {arguments : List Argument} {p : Turn}
    (hissued : s.issued.get? id = some connection)
    (hprepare : s.dispatcher.prepare ⟨⟨id, connection⟩, procedure, arguments⟩ = .ok p) :
    ∃ e next objects',
      eventsOf id (s.events (.dispatch id procedure arguments)) = [e] ∧
      p.Took s.dispatcher.catalog.services (s.dispatcher.connected p.ctx) s.dispatcher.objects e
        next objects' ∧
      (s.perform (.dispatch id procedure arguments)).waiting id = next ∧
      (s.perform (.dispatch id procedure arguments)).issued.get? id = none := by
  rcases begins h hissued procedure arguments with
    ⟨error, herror, _⟩ | ⟨p', e, next, objects', hok, hevents, hctx, htook, hwaiting⟩
  · rw [hprepare] at herror
    exact absurd herror (by simp only [reduceCtorEq, not_false_eq_true])
  · rw [Except.ok.inj (hprepare.symm.trans hok), hevents]
    refine ⟨e, next, objects', eventsOf_self (by rw [hctx]), htook, hwaiting, ?_⟩
    rw [(dispatch_issued hissued procedure arguments).1]
    simp only [Table.get?_erase, if_true]

/-- A blocking call is its handler run over and over by itself, on the
    arguments that were bound at first and on its own progress, whatever else is
    done in between. It runs once when it is dispatched and once each time it is
    its turn, and a final outcome ends it for good. -/
theorem transcript_transparent (catalog : Catalog) (config : ServerConfig) (world : World)
    (before after : List Operation) {id : CallId} {connection : ConnectionId} {procedure : String}
    {arguments : List Argument} {descriptor : Descriptor} {bound : List NativeValue}
    (hissued : ((fresh catalog config world).replay before).issued.get? id = some connection)
    (hfound : catalog.directory.get procedure = .ok descriptor)
    (hblocking : descriptor.procedure.blocking = true)
    (hbound : bindArguments catalog.services
      ((fresh catalog config world).replay before).dispatcher.objects descriptor.qualifiedName
      descriptor.procedure.parameters arguments = .ok bound)
    (hspared : ∀ op ∈ after, op.drops ⟨id, connection⟩ = false) :
    let s := (fresh catalog config world).replay before
    let first : Turn := ⟨descriptor, ⟨id, connection⟩, bound, none, 0⟩
    let s' := s.replay (.dispatch id procedure arguments :: after)
    let events := eventsOf id (s.history (.dispatch id procedure arguments :: after))
    first.Transparent catalog.services (s.dispatcher.connected ⟨id, connection⟩) events
        (s'.waiting id) ∧
      events.length = 1 + (s.perform (.dispatch id procedure arguments)).dues id after ∧
      ∀ e ∈ events, e.outcome.isFinal = true →
        events.getLast? = some e ∧ s'.waiting id = none ∧ (s'.dispatcher.resume id).1 = none := by
  intro s first s' events
  -- Everything before the call only matters for the state that it finds.
  have hsound : s.Sound := sound_replay (sound_fresh catalog config world) before
  have hcatalog : s.dispatcher.catalog = catalog :=
    catalog_replay (sound_fresh catalog config world) before
  have hprepare : s.dispatcher.prepare ⟨⟨id, connection⟩, procedure, arguments⟩ = .ok first :=
    prepare_eq (by rw [hcatalog]; exact hfound) (by rw [hcatalog]; exact hbound)
  rcases begun_of_prepared hsound hissued hprepare with
    ⟨e, next, objects', hevent, htook, hnext, hused⟩
  have hsound' := sound_perform hsound (.dispatch id procedure arguments)
  have hkept := kept_perform hsound (.dispatch id procedure arguments)
  have hbelow := Nat.lt_of_lt_of_le (hsound.issuedBelow hissued) hkept.nextCall
  have hevents : events =
      e :: eventsOf id ((s.perform (.dispatch id procedure arguments)).history after) := by
    have happend : events = eventsOf id (s.events (.dispatch id procedure arguments)) ++
        eventsOf id ((s.perform (.dispatch id procedure arguments)).history after) :=
      eventsOf_append ..
    rw [happend, hevent, List.singleton_append]
  -- After the first turn the call can only go on as its continuation says.
  have hfollows := follows_history hsound' False hbelow hused after (by
    intro c hc op hop hdrops
    rw [hnext] at hc
    rw [(htook.next_eq hc).1, hspared op hop] at hdrops
    exact Bool.noConfusion hdrops)
  rw [hnext, hkept.catalog] at hfollows
  have htransparent := Turn.transparent_of_follows not_false htook hblocking hfollows
  rw [hcatalog, ← hevents] at htransparent
  refine ⟨htransparent, ?_, ?_⟩
  · rw [hevents, List.length_cons, length_eventsOf_history hsound' hbelow hused after]
    omega
  · intro e' he' hfinal
    rcases htransparent.final_last he' hfinal with ⟨hlast, hgone⟩
    have hnone : s'.dispatcher.resume id = (none, s'.dispatcher) := Dispatcher.resume_absent hgone
    exact ⟨hlast, hgone, by rw [hnone]⟩

end Session

/-! ## A handler that yields once -/

/-- A handler that wants to be resumed once. -/
def yieldOnce : Handler := do
  match (← read).progress with
  | none => return .yield .null
  | some _ => return .done

/-- The blocking procedure it implements. -/
def yieldOnceDescriptor : Descriptor where
  qualifiedName := "S.Wait"
  service := "S"
  procedure := ⟨"Wait", [], none, "", true⟩
  handler := yieldOnce

/-- A catalog with this procedure alone. -/
def yieldOnceCatalog : Catalog := ⟨⟨[]⟩, ⟨[yieldOnceDescriptor]⟩⟩

namespace Session

/-- A call of it that is dispatched between other things takes two turns, the
    second of them in the first tick. -/
theorem yieldOnce_takes_two_turns :
    (eventsOf 1 ((Session.replay (fresh yieldOnceCatalog {} {}) [.issue 7, .tick]).history
      [.dispatch 1 "S.Wait" [], .issue 8, .tick, .disconnect 8])).length = 2 :=
  (@transcript_transparent yieldOnceCatalog {} {} [.issue 7, .tick]
    [.issue 8, .tick, .disconnect 8] 1 7 "S.Wait" [] yieldOnceDescriptor [] rfl rfl rfl rfl
    (by decide)).2.1.trans rfl

end Session

end Switchboard
