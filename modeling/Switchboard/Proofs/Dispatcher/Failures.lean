import Switchboard.Proofs.Dispatcher.Holdings
import Switchboard.Proofs.Scan.Acceptance

/-!
# What a Failed Call Leaves Behind

A call fails when it is dispatched or when it is resumed, and in either case it is
over: it waits nowhere, other calls wait as before, and the failure is counted once.
What it leaves of the live objects depends on where it failed. A call that is refused
before its handler runs changes nothing but the counters. A handler that is
interrupted, or that yields where it cannot, leaves the objects alone. Only a value
that was given back and could not be written may have added something, and that is
from the value and belongs to the connection of the call.

`Turn.Fails` has one constructor for each end of a turn that is a failure. There is a
single place where a failure comes about in a turn, `Dispatcher.conclude`, so it is
enough to go through its ends once; being dispatched and being resumed add nothing but
the way to it.

During a tick calls are resumed one after the other, and so there are states between
its turns that no operation ends in (`Session.Passes`). What is said of resuming is
said of these as well.

## Main definitions

* `Dispatcher.Failed`: A call is over and its failure is counted.
* `Turn.Fails`: What a failed turn leaves of the live objects.
* `Dispatcher.DispatchFails`: How a call fails when it is dispatched.
* `Session.Passes`: The states a session comes through.

## Theorems

* `conclude_failed`: A failure in drawing consequences.
* `dispatch_failed`, `resume_failed`: A failure of a call.
* `failed_of_reported`: The failures of a tick are those of its turns.
* `failures_leave`: What failures leave behind, in every state of every session.
-/

namespace Switchboard

/-- What a turn that failed leaves of the live objects: from what the handler came to
    and the objects before to the failure and the objects after. -/
inductive Turn.Fails (p : Turn) (connected : Bool) (objects : ObjectTable) :
    Except Interrupt Step → CallError → ObjectTable → Prop
  | interrupted (interrupt : Interrupt) :
    Fails p connected objects (.error interrupt) interrupt.toError objects
  | unwritable {value : Option NativeValue} {error : CallError} {objects' : ObjectTable} :
    objects.Grows p.ctx.connection (· ∈ (value.getD .null).references) objects' →
    Fails p connected objects (.ok (.complete value)) error objects'
  | notBlocking (progress : NativeValue) :
    p.descriptor.procedure.blocking = false →
    Fails p connected objects (.ok (.yield progress))
      (Dispatcher.cannotYield p.descriptor.qualifiedName) objects
  | disconnected (progress : NativeValue) :
    p.descriptor.procedure.blocking = true → connected = false →
    Fails p connected objects (.ok (.yield progress))
      (Dispatcher.connectionGone p.ctx.connection) objects

namespace Dispatcher

/-- A call is over and its failure is counted, and to other calls nothing has
    happened. -/
structure Failed (d : Dispatcher) (id : CallId) (d' : Dispatcher) : Prop where
  gone : d'.pending.waiting.get? id = none
  others : ∀ k, k ≠ id → d'.pending.waiting.get? k = d.pending.waiting.get? k
  closed : d'.pending.closed = d.pending.closed
  counted : d'.status.callsFailed = d.status.callsFailed + 1

/-- How a call fails when it is dispatched. Without its handler being run nothing
    changes but the counters. -/
inductive DispatchFails (d : Dispatcher) (call : Call) (error : CallError) (d' : Dispatcher) :
    Prop
  | unknown :
    d.catalog.directory.get call.procedure = .error error →
    (d.dispatchEvent call).run = none → d' = countOutcome (.failed error) d.countDispatch →
    DispatchFails d call error d'
  | unbound {descriptor : Descriptor} :
    d.catalog.directory.get call.procedure = .ok descriptor →
    bindArguments d.catalog.services d.objects descriptor.qualifiedName
      descriptor.procedure.parameters call.arguments = .error error →
    (d.dispatchEvent call).run = none → d' = countOutcome (.failed error) d.countDispatch →
    DispatchFails d call error d'
  | taken {p : Turn} :
    d.prepare call = .ok p → p.ctx = call.ctx →
    (d.dispatchEvent call).run = some (d.countDispatch.handled p) →
    p.Fails (d.connected call.ctx) d.objects (d.countDispatch.handled p).result error
      d'.objects →
    DispatchFails d call error d'

variable {d d' : Dispatcher} {error : CallError}

/-! ## Steps -/

theorem step_status (d : Dispatcher) (p : Turn) : (d.step p).2.status = d.status :=
  (step_leaves d p).1

/-- A failure in drawing consequences, whatever the handler came to, and even if the
    connection has disconnected since. -/
theorem conclude_failed (h : d.objects.Consistent) {p : Turn} {result : Except Interrupt Step}
    (hfailed : d.conclude p result = (.failed error, d')) :
    p.Fails (d.connected p.ctx) d.objects result error d'.objects ∧ d'.pending = d.pending := by
  rcases conclude_concludes d p result with ⟨next, objects', hconcludes, hbecame⟩
  rw [hfailed] at hconcludes hbecame
  rw [hbecame.objects, hbecame.pending]
  cases hconcludes with
  | interrupted interrupt => exact ⟨.interrupted interrupt, rfl⟩
  | @unwritable value _ _ hwritten =>
      have hgrows := writeReturn_grows h d.catalog.services p value
      rw [hwritten] at hgrows
      exact ⟨.unwritable hgrows, rfl⟩
  | notBlocking progress hblocking => exact ⟨.notBlocking progress hblocking, rfl⟩
  | disconnected progress hblocking hgone => exact ⟨.disconnected progress hblocking hgone, rfl⟩

theorem step_failed (h : d.objects.Consistent) {p : Turn}
    (hfailed : d.step p = (.failed error, d')) :
    p.Fails (d.connected p.ctx) d.objects (d.handled p).result error d'.objects ∧
      d'.pending = d.pending ∧ d'.status = d.status := by
  have hstatus := step_status d p
  unfold step at hfailed hstatus
  rw [runStep_eq] at hfailed hstatus
  rw [hfailed] at hstatus
  -- Running the handler has changed nothing that a conclusion looks at.
  have hfails := conclude_failed (d := { d with world := (d.handled p).after }) h hfailed
  exact ⟨hfails.1, hfails.2, hstatus⟩

/-! ## Calls -/

/-- A call that is pending nowhere when it takes its turn is over if it fails in it. -/
theorem Failed.of_step (d₀ : Dispatcher) {d₁ : Dispatcher} {id : CallId}
    (hgone : d₀.pending.waiting.get? id = none)
    (hothers : ∀ k, k ≠ id → d₀.pending.waiting.get? k = d.pending.waiting.get? k)
    (hclosed : d₀.pending.closed = d.pending.closed)
    (huncounted : d₀.status.callsFailed = d.status.callsFailed)
    (hpending : d₁.pending = d₀.pending) (hstatus : d₁.status = d₀.status) :
    d.Failed id (countOutcome (.failed error) d₁) where
  gone := by rw [countOutcome_pending, hpending, hgone]
  others k hk := by rw [countOutcome_pending, hpending, hothers k hk]
  closed := by rw [countOutcome_pending, hpending, hclosed]
  counted := by simp only [countOutcome, hstatus, huncounted]

theorem dispatch_failed (hheld : d.objects.Consistent) {call : Call}
    (hfree : d.pending.waiting.get? call.ctx.call = none)
    (hfailed : d.dispatch call = (.failed error, d')) :
    d.Failed call.ctx.call d' ∧ d.DispatchFails call error d' := by
  cases hprepare : d.prepare call with
  | error e =>
      rw [dispatch_of_error hprepare, Prod.mk.injEq, Outcome.failed.injEq] at hfailed
      rcases hfailed with ⟨rfl, rfl⟩
      have hrun : (d.dispatchEvent call).run = none := by rw [(dispatch_refused hprepare).1]
      refine ⟨⟨hfree, fun _ _ => rfl, rfl, rfl⟩, ?_⟩
      rcases prepare_eq_error hprepare with hget | ⟨descriptor, hget, hbind⟩
      · exact .unknown hget hrun rfl
      · exact .unbound hget hbind hrun rfl
  | ok p =>
      have hctx := prepare_ctx hprepare
      rcases hstep : d.countDispatch.step p with ⟨outcome, d₁⟩
      rw [dispatch_of_ok hprepare, hstep, Prod.mk.injEq] at hfailed
      rcases hfailed with ⟨rfl, rfl⟩
      rcases step_failed (d := d.countDispatch) hheld hstep with ⟨hfails, hpending, hstatus⟩
      refine ⟨.of_step d.countDispatch hfree (fun _ _ => rfl) rfl rfl hpending hstatus,
        .taken hprepare hctx ?_ ?_⟩
      · unfold dispatchEvent
        simp only [hprepare]
      · rw [countOutcome_objects, ← hctx]
        exact hfails

theorem resume_failed (hheld : d.objects.Consistent) {id : CallId}
    (hfailed : d.resume id = (some (.failed error), d')) :
    d.Failed id d' ∧ ∃ c, d.pending.waiting.get? id = some c ∧
      c.turn.Fails (d.connected c.ctx) d.objects ((d.without id).countResume.handled c.turn).result
        error d'.objects := by
  cases hw : d.pending.waiting.get? id with
  | none =>
      rw [resume_absent hw] at hfailed
      exact nomatch (Prod.mk.inj hfailed).1
  | some c =>
      rcases hstep : (d.without id).countResume.step c.turn with ⟨outcome, d₁⟩
      simp only [resume, advance_of_waiting hw, hstep, Option.map_some, Prod.mk.injEq,
        Option.some.injEq] at hfailed
      rcases hfailed with ⟨rfl, rfl⟩
      rcases step_failed (d := (d.without id).countResume) hheld hstep with
        ⟨hfails, hpending, hstatus⟩
      -- It was taken out for the turn and is not put back.
      refine ⟨.of_step (d.without id).countResume ((Table.get?_erase _ _ _).trans (if_pos rfl))
        (fun k hk => (Table.get?_erase _ _ _).trans (if_neg hk)) rfl rfl hpending hstatus,
        c, rfl, ?_⟩
      rw [countOutcome_objects]
      exact hfails

/-! ## Ticks -/

/-- The failures that are reported of calls that are advanced one after the other are
    those of the single calls. -/
theorem failed_of_reported (horderly : d.pending.Orderly) {ids : List CallId} {ctx : CallContext}
    (hreport : (ctx, .failed error) ∈ (d.advanceAll ids).1) :
    ∃ before after d', ids = before ++ ctx.call :: after ∧
      (d.advanceAll before).2.resume ctx.call = (some (.failed error), d') := by
  induction ids generalizing d with
  | nil => exact absurd hreport List.not_mem_nil
  | cons id rest ih =>
      unfold advanceAll at hreport
      simp only [List.mem_append, Option.mem_toList] at hreport
      rcases hreport with hfirst | hrest
      · -- It is reported of the first, which is the call it is reported of.
        have hcall : ctx.call = id := by
          cases hw : d.pending.waiting.get? id with
          | none =>
              rw [(advance_absent hw).2] at hfirst
              exact absurd hfirst (by simp only [reduceCtorEq, not_false_eq_true])
          | some c =>
              rcases advance_waiting hw with ⟨e, _, _, _, hresult, htook, _⟩
              rw [hresult, Option.some.injEq, Prod.mk.injEq] at hfirst
              rw [← hfirst.1, htook.ctx]
              exact horderly.named hw
        refine ⟨[], rest, (d.advance id).2, by rw [hcall, List.nil_append], ?_⟩
        simp only [advanceAll, resume, hcall, hfirst, Option.map_some]
      · rcases ih (advance_unmoved horderly id).orderly hrest with ⟨before, after, d', rfl, hresume⟩
        exact ⟨id :: before, after, d', rfl, hresume⟩

end Dispatcher

/-! ## Sessions -/

/-- The states that a session comes through: where an operation ends, and between the
    turns of a tick. -/
inductive Session.Passes (s : Session) : Dispatcher → Prop
  | settled : s.Passes s.dispatcher
  | ticking {before after : List CallId} :
    s.dispatcher.pending.ids = before ++ after →
    s.Passes (s.dispatcher.countTick.advanceAll before).2

theorem Session.Passes.held {s : Session} {d : Dispatcher} (h : s.Passes d)
    {among gone : ConnectionId → Prop}
    (hheld : Held among gone s.dispatcher.objects s.dispatcher.pending) :
    Held among gone d.objects d.pending := by
  cases h with
  | settled => exact hheld
  | ticking _ => exact Held.advanceAll (d := s.dispatcher.countTick) hheld _

/-- What failures leave behind, in every state of every session: of a call that is
    dispatched under a number that was given out for it, of a call that is resumed, and
    of the calls that a tick resumes. -/
theorem failures_leave (catalog : Catalog) (config : ServerConfig) (world : World)
    (operations : List Operation) {s : Session}
    (hs : s = (Session.fresh catalog config world).replay operations) :
    (∀ id connection procedure arguments error d',
      s.issued.get? id = some connection →
      s.dispatcher.dispatch ⟨⟨id, connection⟩, procedure, arguments⟩ = (.failed error, d') →
      s.dispatcher.Failed id d' ∧
        s.dispatcher.DispatchFails ⟨⟨id, connection⟩, procedure, arguments⟩ error d') ∧
    (∀ d id error d', s.Passes d → d.resume id = (some (.failed error), d') →
      d.Failed id d' ∧ ∃ c, d.pending.waiting.get? id = some c ∧
        c.turn.Fails (d.connected c.ctx) d.objects
          ((d.without id).countResume.handled c.turn).result error d'.objects) ∧
    (∀ ctx error, (ctx, .failed error) ∈ s.dispatcher.tick.1 →
      ∃ before after d', s.dispatcher.pending.ids = before ++ ctx.call :: after ∧
        (s.dispatcher.countTick.advanceAll before).2.resume ctx.call =
          (some (.failed error), d')) := by
  have hheld := Session.held_replay catalog config world operations
  have hsound := Session.sound_replay (Session.sound_fresh catalog config world) operations
  rw [← hs] at hheld hsound
  refine ⟨?_, ?_, ?_⟩
  · intro id connection procedure arguments error d' hissued hfailed
    exact Dispatcher.dispatch_failed hheld.consistent (hsound.apart hissued) hfailed
  · intro d id error d' hpasses hfailed
    exact Dispatcher.resume_failed (hpasses.held hheld).consistent hfailed
  · intro ctx error hreport
    exact Dispatcher.failed_of_reported (d := s.dispatcher.countTick) hheld.orderly hreport

/-- A service with a blocking procedure that gives back, when it is resumed, a list of
    objects with something else among them. -/
def forgery : List ServiceDecl :=
  [{ name := "Mint"
     classes := [{ name := "Coin" }]
     procedures :=
      [{ name := "Forge"
         returnType := some (.list (.instanceOf "Mint" "Coin"))
         blocking := true
         handler := some do
          match (← read).progress with
          | none => return .yield .null
          | some _ =>
            let coin ← Native.allocate (.label "penny")
            return .value (.list [.object coin, .int32 5]) }] }]

/-- A call of it that is resumed is over and leaves one coin behind, and a call of a
    procedure that does not exist leaves nothing. -/
theorem forgery_leaves :
    ∃ catalog s d' d'', scan forgery = .ok catalog ∧
      s = (Session.fresh catalog {} {}).replay
        [.issue 7, .dispatch 1 "Mint.Forge" [], .issue 7] ∧
      s.waiting 1 ≠ none ∧
      s.dispatcher.resume 1 =
        (some (.failed (.typeMismatch "Mint.Forge return value" "Class(Mint.Coin)" "Int32")), d') ∧
      s.dispatcher.Failed 1 d' ∧
      d'.objects.entries.get? 1 = some ⟨⟨1, .label "penny"⟩, "Mint.Coin", .of 7⟩ ∧
      s.dispatcher.dispatch ⟨⟨2, 7⟩, "Mint.Melt", []⟩ =
        (.failed (.noSuchProcedure "Mint.Melt"), d'') ∧
      s.dispatcher.Failed 2 d'' := by
  have hleave := failures_leave (published forgery) {} {}
    [.issue 7, .dispatch 1 "Mint.Forge" [], .issue 7] rfl
  exact ⟨published forgery, _, _, _, rfl, rfl, nofun, rfl, (hleave.2.1 _ _ _ _ .settled rfl).1, rfl,
    rfl, (hleave.1 2 7 "Mint.Melt" [] _ _ rfl rfl).1⟩

end Switchboard
