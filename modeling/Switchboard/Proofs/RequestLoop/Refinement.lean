import Switchboard.Proofs.Dispatcher.Evaluation
import Switchboard.Proofs.RequestLoop.Answers
import Switchboard.Proofs.Services.Purity

/-!
# The Loop Refines Evaluation

A response holds what its calls come to by themselves. Where handlers are pure
and signatures are plain, each result is the one that the call has on a
dispatcher of its own. So neither the limit on calls, nor how calls are put
together to requests, nor what is queued before them, nor what other clients do
can be told from a response.

The argument goes through the ledger. Each call that was dispatched for a
connection has its course there, and goes on having it, whatever task comes
next, as long as the connection is not disconnected (`Ledger.Traced`). When the
call's result stands in a response its course is over, and a course that is over
says what the call comes to anywhere.

## Main definitions

* `Catalog.Evaluates`: What a call comes to by itself.
* `Ledger.Traced`: Every call of a connection has its course.
* `AnsweredFor`: What requests with some calls are answered with.

## Theorems

* `traced_replay`: Calls have their courses throughout a run.
* `Ledger.Traced.evaluates`: A call that is over comes to the same by itself.
* `AnsweredFor.evaluates`: So do all calls of a response.
* `answers_as_alone`: Responses hold what calls come to by themselves.
-/

namespace Switchboard

/-- What a call comes to by itself, provided that it is given enough ticks: on
    every configuration, with whatever procedures share, for every client. -/
def Catalog.Evaluates (catalog : Catalog) (call : ProcedureCall) (result : ProcedureResult) :
    Prop :=
  ∃ enough, ∀ ticks, enough ≤ ticks → ∀ config world connection,
    evaluate catalog config world connection call ticks = some result

-- A call comes to one thing only.
theorem Catalog.Evaluates.unique {catalog : Catalog} {call : ProcedureCall}
    {result result' : ProcedureResult} (h : catalog.Evaluates call result)
    (h' : catalog.Evaluates call result') : result = result' := by
  rcases h with ⟨enough, h⟩
  rcases h' with ⟨enough', h'⟩
  have hfirst := h (max enough enough') (Nat.le_max_left ..) {} {} 0
  have hsecond := h' (max enough enough') (Nat.le_max_right ..) {} {} 0
  exact Option.some.inj (hfirst.symm.trans hsecond)

/-! ## Courses in the ledger -/

namespace Ledger

/-- Every call that was dispatched for a connection has its course, and the
    connection is there. -/
structure Traced (g : Ledger) (catalog : Catalog) (connection : ConnectionId) : Prop where
  valid : g.record.Valid
  catalog : g.record.session.dispatcher.catalog = catalog
  present : g.record.session.dispatcher.pending.closed.contains connection = false
  tells : ∀ x ∈ g.starts, x.entry.connection = connection →
    g.record.Tells (.ofWire ⟨x.id, connection⟩ x.entry.call)

variable {g : Ledger} {catalog : Catalog} {connection : ConnectionId}

theorem traced_operate (h : g.Traced catalog connection) {op : Operation}
    (hkept : ∀ id, op.drops ⟨id, connection⟩ = false) :
    (g.operate op).Traced catalog connection where
  valid := Record.valid_operate h.valid op
  catalog := (Session.kept_perform h.valid.sound op).catalog.trans h.catalog
  present := (Session.closed_perform h.valid.sound (hkept 0)).trans h.present
  tells x hx hconnection := tells_operate h.valid (h.tells x hx hconnection) (hkept x.id)

-- Other calls go on as the two operations allow; the call itself begins.
theorem traced_start (h : g.Traced catalog connection) (q : Queued) :
    (g.start q).Traced catalog connection := by
  have hissue : (g.operate (.issue q.connection)).Traced catalog connection :=
    traced_operate h (fun _ => rfl)
  have hdispatch : ((g.operate (.issue q.connection)).operate
      (.dispatch g.nextCall q.call.qualifiedName q.call.arguments)).Traced catalog connection :=
    traced_operate hissue (fun _ => rfl)
  refine ⟨hdispatch.valid, hdispatch.catalog, hdispatch.present, ?_⟩
  intro x hx hconnection
  rw [start, List.mem_append, List.mem_singleton] at hx
  rcases hx with hx | rfl
  · exact hdispatch.tells x hx hconnection
  · have hpresent := h.present
    rw [← hconnection] at hpresent ⊢
    exact tells_call h.valid q.connection q.call.qualifiedName q.call.arguments hpresent

theorem traced_startAll (h : g.Traced catalog connection) (todo : List Queued) :
    (todo.foldl start g).Traced catalog connection := by
  induction todo generalizing g with
  | nil => exact h
  | cons q rest ih => exact ih (traced_start h q)

theorem traced_enter (h : g.Traced catalog connection) (d : Desk) {task : Task}
    (hkept : task ≠ .disconnect connection) : (g.enter d task).Traced catalog connection := by
  -- What is written down of requests has nothing to do with courses.
  have hsevered : ∀ task, (g.sever task).Traced catalog connection :=
    fun _ => ⟨h.valid, h.catalog, h.present, h.tells⟩
  cases task with
  | submit c request => exact ⟨h.valid, h.catalog, h.present, h.tells⟩
  | disconnect c =>
      simp only [enter]
      split
      · refine traced_operate (hsevered (.disconnect c)) ?_
        intro id
        rw [Operation.drops, beq_eq_false_iff_ne]
        intro heq
        exact hkept (congrArg Task.disconnect heq)
      · exact hsevered (.disconnect c)
  | tick => exact traced_startAll (traced_operate h (fun _ => rfl)) _
  | shutdown => exact hsevered .shutdown
  | clients now => exact h
  | alter world => exact traced_operate h (fun _ => rfl)

end Ledger

namespace Run

theorem traced_replay {r : Run} {catalog : Catalog} {connection : ConnectionId}
    (h : r.ledger.Traced catalog connection) (tasks : List Task)
    (hkept : .disconnect connection ∉ tasks) :
    (r.replay tasks).ledger.Traced catalog connection := by
  induction tasks generalizing r with
  | nil => exact h
  | cons task rest ih =>
      rw [List.mem_cons, not_or] at hkept
      exact ih (Ledger.traced_enter h r.desk (Ne.symm hkept.1)) hkept.2

theorem traced_fresh (catalog : Catalog) (config : ServerConfig) (world : World)
    (connections : Connections) (connection : ConnectionId) :
    (fresh catalog config world connections).ledger.Traced catalog connection where
  valid := Record.valid_fresh catalog config world
  catalog := rfl
  present := rfl
  tells _ hx := absurd hx List.not_mem_nil

end Run

/-! ## Results -/

/-- A call that came to an end in the ledger comes to the same end by itself. -/
theorem Ledger.Traced.evaluates {g : Ledger} {catalog : Catalog} {connection : ConnectionId}
    (h : g.Traced catalog connection) (hplain : catalog.Plain) {x : Start} (hx : x ∈ g.starts)
    (hconnection : x.entry.connection = connection) {o : Outcome} {result : ProcedureResult}
    (ho : finals x.id g.record.events = [o]) (hresult : o.result? = some result) :
    catalog.Evaluates x.entry.call result := by
  have hcourse := (h.tells x hx hconnection).course
  have hover : g.record.session.waiting
      (Call.ofWire ⟨x.id, connection⟩ x.entry.call).ctx.call = none :=
    (h.valid.accounted x.id).over ho
  rw [h.catalog, hover] at hcourse
  rcases hcourse.finals_of_over rfl with ⟨o', ho', houtcome⟩
  have hsame : [o'] = [o] := ho'.symm.trans ho
  rw [List.singleton_inj] at hsame
  -- As many ticks as it took turns are enough for it by itself.
  refine ⟨(eventsOf x.id g.record.events).length, ?_⟩
  intro ticks hticks config world connection'
  rw [evaluate_of_told hplain hcourse rfl rfl config world connection' hticks, houtcome, hsame,
    hresult]

/-- In some run, a request with these calls is handed in on a connection that is
    never disconnected, and is answered with this response. -/
def AnsweredFor (catalog : Catalog) (calls : List ProcedureCall) (response : Response) : Prop :=
  ∃ (config : ServerConfig) (world : World) (connections : Connections) (before after : List Task)
    (connection : ConnectionId),
    let opened := Run.fresh catalog config world connections
    .disconnect connection ∉ before ∧ .disconnect connection ∉ after ∧
    ((opened.replay before).desk.nextTicket, Reply.answered response) ∈
      (opened.replay (before ++ .submit connection ⟨calls⟩ :: after)).desk.loop.outbox

/-- A response has one result for each call, the one that the call comes to by
    itself. -/
theorem AnsweredFor.evaluates {catalog : Catalog} {calls : List ProcedureCall}
    {response : Response} (h : AnsweredFor catalog calls response) (hplain : catalog.Plain) :
    response.results.length = calls.length ∧
    ∀ (i : Nat) (call : ProcedureCall), calls[i]? = some call →
      ∃ result, response.results[i]? = some result ∧ catalog.Evaluates call result := by
  rcases h with ⟨config, world, connections, before, after, connection, hbefore, hafter,
    hanswered⟩
  have hopened := Run.sound_fresh catalog config world connections
  have hsubmitted := Run.request_submitted (Run.sound_replay hopened before) connection ⟨calls⟩
    after
  rw [← Run.replay_append] at hsubmitted
  have hright := (Run.sound_replay hopened _).rightFor hsubmitted hanswered
  -- The connection is there all along, so its calls keep their courses.
  have htraced := Run.traced_replay (Run.traced_fresh catalog config world connections connection)
    (before ++ .submit connection ⟨calls⟩ :: after) (by
      rw [List.mem_append, List.mem_cons, not_or, not_or]
      exact ⟨hbefore, by simp only [reduceCtorEq, not_false_eq_true], hafter⟩)
  refine ⟨hright.length, ?_⟩
  intro i call hcall
  have hbound : i < response.results.length := by
    rw [hright.length]
    exact (List.getElem?_eq_some_iff.mp hcall).1
  have hresult : response.results[i]? = some response.results[i] := List.getElem?_eq_getElem hbound
  rcases hright.results i _ hresult with
    ⟨x, hx, _, _, hconnection, hasked, o, ho, houtcome⟩
  rw [hcall, Option.some.injEq] at hasked
  rw [hasked]
  exact ⟨_, hresult, htraced.evaluates hplain hx hconnection ho houtcome⟩

/-- Where handlers are pure and signatures are plain, whatever is done to a
    desk and however its loop is limited: a response has one result for each
    call, in order, and it is what the call comes to by itself. Two responses
    agree on every call that they share, at whatever place, and those to the
    same calls are the same. -/
theorem answers_as_alone {catalog : Catalog} (hplain : catalog.Plain)
    {calls : List ProcedureCall} {response : Response} (h : AnsweredFor catalog calls response) :
    response.results.length = calls.length ∧
    (∀ (i : Nat) (call : ProcedureCall), calls[i]? = some call →
      ∃ result, response.results[i]? = some result ∧ catalog.Evaluates call result) ∧
    (∀ (calls' : List ProcedureCall) (response' : Response),
      AnsweredFor catalog calls' response' →
      ∀ (i j : Nat) (call : ProcedureCall), calls[i]? = some call → calls'[j]? = some call →
        response.results[i]? = response'.results[j]?) ∧
    ∀ response', AnsweredFor catalog calls response' → response' = response := by
  rcases h.evaluates hplain with ⟨hlength, hresults⟩
  have hshared : ∀ (calls' : List ProcedureCall) (response' : Response),
      AnsweredFor catalog calls' response' →
      ∀ (i j : Nat) (call : ProcedureCall), calls[i]? = some call → calls'[j]? = some call →
        response.results[i]? = response'.results[j]? := by
    intro calls' response' h' i j call hi hj
    rcases hresults i call hi with ⟨result, hresult, hevaluates⟩
    rcases (h'.evaluates hplain).2 j call hj with ⟨result', hresult', hevaluates'⟩
    rw [hresult, hresult', hevaluates.unique hevaluates']
  refine ⟨hlength, hresults, hshared, ?_⟩
  intro response' h'
  have hlength' := (h'.evaluates hplain).1
  have hsame : response'.results = response.results := by
    apply List.ext_getElem?
    intro i
    cases hcall : calls[i]? with
    | some call => exact (hshared calls response' h' i i call hcall hcall).symm
    | none =>
        -- Past the last call there is a result in neither.
        rw [List.getElem?_eq_none_iff] at hcall
        rw [List.getElem?_eq_none (by rw [hlength']; exact hcall),
          List.getElem?_eq_none (by rw [hlength]; exact hcall)]
  rw [Response.mk.injEq]
  exact hsame

/-- Calls of procedures that read their arguments, one of which comes back for more, are
    queued behind a call of another client in a loop that starts one call of a client in a
    tick. They are answered as they are by themselves. -/
theorem plainService_answered_as_alone :
    AnsweredFor (published [Fixture.plainService])
        [⟨"TestService", "Int32ToString", [⟨0, .int32 5⟩]⟩,
          ⟨"TestService", "BlockingProcedure", [⟨0, .int32 2⟩]⟩]
        ⟨[.ok (some (.string "5")), .ok (some (.int32 3))]⟩ ∧
      (published [Fixture.plainService]).Evaluates
        ⟨"TestService", "BlockingProcedure", [⟨0, .int32 2⟩]⟩ (.ok (some (.int32 3))) := by
  have hanswered : AnsweredFor (published [Fixture.plainService])
      [⟨"TestService", "Int32ToString", [⟨0, .int32 5⟩]⟩,
        ⟨"TestService", "BlockingProcedure", [⟨0, .int32 2⟩]⟩]
      ⟨[.ok (some (.string "5")), .ok (some (.int32 3))]⟩ := by
    refine ⟨{ maxCallsPerTick := some 1 }, {}, {},
      [.submit 8 ⟨[⟨"TestService", "EnumEcho", [⟨0, .enum 7⟩]⟩]⟩],
      [.tick, .tick, .tick, .tick], 7, ?_, ?_, ?_⟩
    · simp only [List.mem_singleton, reduceCtorEq, not_false_eq_true]
    · simp only [List.mem_cons, reduceCtorEq, List.not_mem_nil, or_self, not_false_eq_true]
    · exact List.mem_of_getElem? (rfl : _[1]? = _)
  rcases (answers_as_alone Fixture.plainService_plain hanswered).2.1 1 _ rfl with
    ⟨result, hresult, hevaluates⟩
  rw [← Option.some.inj hresult] at hevaluates
  exact ⟨hanswered, hevaluates⟩

end Switchboard
