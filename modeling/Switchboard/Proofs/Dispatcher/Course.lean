import Switchboard.Proofs.Coercion.Plain
import Switchboard.Proofs.Dispatcher.Finals

/-!
# The Course of a Call

Where handlers depend on their bound arguments and their own progress only, and
signatures name no class, calls cannot tell one another apart: the course of a
call is decided by the procedure it names and the arguments it brings. Two
courses of one call, in whatever sessions and between whatever other calls, are
alike turn for turn.

Purity is asked of an implementation under the name of its procedure, and for
arguments that binding can come to. Both matter. The accessors by which handlers
read arguments tell a client of the procedure and of what was missing, so that a
handler comes to something else under another name, and most handlers fail when
they are given nothing. No turn of a call is such a case (`Turn.Bound`).

Likeness has to leave out what does differ. A call has another number and
another connection in another session, live objects are other ones, and what
procedures share has another value. None of this reaches a handler that is pure,
or a coercion that is plain, and what is left of a turn is its procedure, its
arguments and its progress (`Turn.Like`).

`Told` is the relation between a call and everything that happened to it, with
what is left of it. Nothing that is done to a session can break it, short of
giving the call up.

## Main definitions

* `Descriptor.Pure`, `Procedure.Plain`, `Catalog.Plain`: Calls that keep to
  themselves.
* `Turn.Bound`: Turns with arguments that were bound.
* `Turn.Like`: Turns that come to the same.
* `Told`, `Record.Tells`: A call and what happened to it.

## Theorems

* `Took.like`, `prepare_like`: Turns that are alike come to the same.
* `Told.bound`: What a call waits for is a turn with bound arguments.
* `Told.like`: Courses of one call are alike.
* `Told.outcome?_of_over`: They come to the same end.
* `tells_call`, `tells_operate`: What happens to a call in a session is its
  course.
-/

namespace Switchboard

/-- Binding what some client sends for the procedure comes to these arguments. -/
def Descriptor.Binds (services : Services) (d : Descriptor) (arguments : List NativeValue) :
    Prop :=
  ∃ objects supplied, bindArguments services objects d.qualifiedName d.procedure.parameters
    supplied = .ok arguments

/-- What the handler comes to is a function of its bound arguments and its
    progress: neither who calls, nor what the server is like, nor what procedures
    share has a part in it. -/
def Descriptor.Pure (services : Services) (d : Descriptor) : Prop :=
  ∃ f : List NativeValue → Option NativeValue → Except Interrupt Step,
    ∀ inv w, inv.procedure = d.qualifiedName → d.Binds services inv.arguments →
      (d.handler.react inv w).1 = f inv.arguments inv.progress

/-- A signature that names no class. -/
def Procedure.Plain (p : Procedure) : Prop :=
  ∀ service name, Ty.instanceOf service name ∉ p.namedTypes

/-- A catalog of pure handlers with plain signatures. -/
structure Catalog.Plain (c : Catalog) : Prop where
  pure : ∀ d ∈ c.directory.descriptors, d.Pure c.services
  plain : ∀ d ∈ c.directory.descriptors, d.procedure.Plain

theorem Procedure.Plain.parameter {p : Procedure} (h : p.Plain) {parameter : Parameter}
    (hmem : parameter ∈ p.parameters) : parameter.ty.Plain := by
  intro service name hnamed
  refine h service name ?_
  rw [Procedure.namedTypes, List.mem_append, List.mem_flatMap]
  exact Or.inl ⟨parameter, hmem, hnamed⟩

theorem Procedure.Plain.returned {p : Procedure} (h : p.Plain) {ty : Ty}
    (hty : p.returnType = some ty) : ty.Plain := by
  intro service name hnamed
  refine h service name ?_
  rw [Procedure.namedTypes, List.mem_append, List.mem_flatMap]
  refine Or.inr (List.mem_flatMap.mpr ⟨ty, ?_, hnamed⟩)
  rw [hty]
  exact List.mem_singleton.mpr rfl

theorem Directory.get_mem {d : Directory} {name : String} {descriptor : Descriptor}
    (h : d.get name = .ok descriptor) : descriptor ∈ d.descriptors := by
  unfold Directory.get Directory.find? at h
  cases hfind : d.descriptors.reverse.find? fun entry => entry.qualifiedName == name with
  | none =>
      rw [hfind] at h
      exact absurd h (by simp only [reduceCtorEq, not_false_eq_true])
  | some entry =>
      rw [hfind] at h
      rw [← Except.ok.inj h]
      exact List.mem_reverse.mp (List.mem_of_find?_eq_some hfind)

/-! ## One turn -/

namespace Turn

/-- A turn of a procedure of the catalog, with arguments that were bound for it. -/
structure Bound (catalog : Catalog) (p : Turn) : Prop where
  listed : p.descriptor ∈ catalog.directory.descriptors
  binds : p.descriptor.Binds catalog.services p.arguments

/-- A call that is put back waits for a turn with the same arguments. -/
theorem Took.next_bound {catalog : Catalog} {p : Turn} {services : Services} {connected : Bool}
    {objects objects' : ObjectTable} {e : Event} {next : Option Continuation}
    (h : p.Took services connected objects e next objects') (hbound : p.Bound catalog)
    {c : Continuation} (hc : next = some c) : c.turn.Bound catalog := by
  rcases h.next_eq hc with ⟨-, hdescriptor, harguments, -⟩
  constructor
  · change c.descriptor ∈ _
    rw [hdescriptor]
    exact hbound.listed
  · change c.descriptor.Binds catalog.services c.arguments
    rw [hdescriptor, harguments]
    exact hbound.binds

/-- Turns of one procedure with the same arguments and the same progress. -/
structure Like (p p' : Turn) : Prop where
  descriptor : p.descriptor = p'.descriptor
  arguments : p.arguments = p'.arguments
  progress : p.progress = p'.progress

/-- What is left of two calls is alike: nothing, or the same turn. -/
def LikeNext : Option Continuation → Option Continuation → Prop
  | none, none => True
  | some c, some c' => c.turn.Like c'.turn
  | _, _ => False

/-- What a plain procedure gives back is written the same way for every client
    and whatever is alive. -/
theorem writeReturn_plain {p p' : Turn} (services : Services) (hlike : p.Like p')
    (hplain : p.descriptor.procedure.Plain) (value : Option NativeValue)
    (objects objects' : ObjectTable) :
    ((Dispatcher.writeReturn services p value).run.run objects).1 =
      ((Dispatcher.writeReturn services p' value).run.run objects').1 := by
  unfold Dispatcher.writeReturn
  rw [← hlike.descriptor]
  cases hty : p.descriptor.procedure.returnType with
  | none => cases value <;> rfl
  | some ty =>
      have hquiet : Quiet fun owner => do
          return some (← encode services owner (p.descriptor.qualifiedName ++ " return value") ty
            (value.getD .null)) :=
        (encode_quiet services _ ty (hplain.returned hty) (value.getD .null)).bind fun _ => .pure _
      rcases hquiet with ⟨result, hresult⟩
      have h := hresult p.ctx.connection objects
      have h' := hresult p'.ctx.connection objects'
      simp only at h h' ⊢
      rw [h, h']

/-- Turns that are alike come to the same result, and leave calls that are
    alike. -/
theorem Took.like {catalog : Catalog} {p p' : Turn}
    {objects₁ objects₂ objects₁' objects₂' : ObjectTable} {e e' : Event}
    {next next' : Option Continuation} (h : p.Took catalog.services true objects₁ e next objects₂)
    (h' : p'.Took catalog.services true objects₁' e' next' objects₂') (hlike : p.Like p')
    (hbound : p.Bound catalog) (hcatalog : catalog.Plain) :
    e.outcome.result? = e'.outcome.result? ∧ LikeNext next next' := by
  rcases h.run with ⟨run, _, hserves, hconcludes⟩
  rcases h'.run with ⟨run', _, hserves', hconcludes'⟩
  rcases hcatalog.pure p.descriptor hbound.listed with ⟨f, hf⟩
  have hplain := hcatalog.plain p.descriptor hbound.listed
  -- The handler runs under the name of its procedure, with the same arguments and
  -- the same progress.
  have hresult : run.result = run'.result := by
    unfold HandlerRun.result
    rw [hserves.handler, hserves'.handler, ← hlike.descriptor,
      hf _ _ hserves.procedure (hserves.arguments ▸ hbound.binds),
      hf _ _ (hlike.descriptor ▸ hserves'.procedure)
        (hserves'.arguments ▸ hlike.arguments ▸ hbound.binds),
      hserves.arguments, hserves'.arguments, hlike.arguments, hserves.progress,
      hserves'.progress, hlike.progress]
  rw [← hresult] at hconcludes'
  generalize run.result = result at hconcludes hconcludes'
  generalize e.outcome = outcome at hconcludes
  generalize e'.outcome = outcome' at hconcludes'
  have hwrite := fun value =>
    writeReturn_plain catalog.services hlike hplain value objects₁ objects₁'
  -- The same result comes to the same end, unless writing it tells the two
  -- apart, which it does not.
  cases hconcludes with
  | interrupted interrupt =>
      cases hconcludes' with
      | interrupted _ => exact ⟨rfl, trivial⟩
  | @completed value written _ hw =>
      cases hconcludes' with
      | completed hw' =>
          have hsame := hwrite value
          rw [hw, hw'] at hsame
          rw [Except.ok.inj hsame]
          exact ⟨rfl, trivial⟩
      | unwritable hw' =>
          have hsame := hwrite value
          rw [hw, hw'] at hsame
          exact absurd hsame (by simp only [reduceCtorEq, not_false_eq_true])
  | @unwritable value _ _ hw =>
      cases hconcludes' with
      | completed hw' =>
          have hsame := hwrite value
          rw [hw, hw'] at hsame
          exact absurd hsame (by simp only [reduceCtorEq, not_false_eq_true])
      | unwritable hw' =>
          have hsame := hwrite value
          rw [hw, hw'] at hsame
          rw [Except.error.inj hsame]
          exact ⟨rfl, trivial⟩
  | parked progress hb _ =>
      cases hconcludes' with
      | parked _ _ _ => exact ⟨rfl, hlike.descriptor, hlike.arguments, rfl⟩
      | disconnected _ _ hc => exact Bool.noConfusion hc
      | notBlocking _ hb' =>
          rw [← hlike.descriptor, hb] at hb'
          exact Bool.noConfusion hb'
  | disconnected _ _ hc => exact Bool.noConfusion hc
  | notBlocking progress hb =>
      cases hconcludes' with
      | parked _ hb' _ =>
          rw [← hlike.descriptor, hb] at hb'
          exact Bool.noConfusion hb'
      | disconnected _ _ hc => exact Bool.noConfusion hc
      | notBlocking _ _ =>
          rw [hlike.descriptor]
          exact ⟨rfl, trivial⟩

end Turn

/-- The first turn of a call has the arguments that were bound for it. -/
theorem Dispatcher.prepare_bound {d : Dispatcher} {call : Call} {p : Turn}
    (h : d.prepare call = .ok p) : p.Bound d.catalog := by
  rcases prepare_eq_ok h with ⟨descriptor, arguments, hget, hbind, rfl⟩
  exact ⟨Directory.get_mem hget, _, _, hbind⟩

/-- Calls of one procedure with the same arguments are refused alike, or take
    first turns that are alike. -/
theorem prepare_like {d d' : Dispatcher} {call call' : Call} (hcatalog : d'.catalog = d.catalog)
    (hplain : d.catalog.Plain) (hprocedure : call'.procedure = call.procedure)
    (harguments : call'.arguments = call.arguments) :
    (∃ e, d.prepare call = .error e ∧ d'.prepare call' = .error e) ∨
      ∃ p p', d.prepare call = .ok p ∧ d'.prepare call' = .ok p' ∧ p.Like p' := by
  unfold Dispatcher.prepare
  rw [hcatalog, hprocedure, harguments]
  cases hget : d.catalog.directory.get call.procedure with
  | error e => exact Or.inl ⟨e, rfl, rfl⟩
  | ok descriptor =>
      have hmem := Directory.get_mem hget
      have hbind := bindArguments_plain d.catalog.services d'.objects d.objects
        descriptor.qualifiedName (fun _ hp => (hplain.plain descriptor hmem).parameter hp)
        call.arguments
      simp only [bind, Except.bind]
      rw [hbind]
      cases bindArguments d.catalog.services d.objects descriptor.qualifiedName
          descriptor.procedure.parameters call.arguments with
      | error e => exact Or.inl ⟨e, rfl, rfl⟩
      | ok bound => exact Or.inr ⟨_, _, rfl, rfl, rfl, rfl, rfl⟩

/-! ## Courses -/

/-- Everything that happened to a call, with what is left of it. -/
inductive Told (catalog : Catalog) (call : Call) : List Event → Option Continuation → Prop
  | refused {d : Dispatcher} {error : CallError} :
    d.catalog = catalog → d.prepare call = .error error →
    Told catalog call [⟨call.ctx, none, .failed error⟩] none
  | begun {d : Dispatcher} {p : Turn} {e : Event} {next : Option Continuation}
      {objects objects' : ObjectTable} :
    d.catalog = catalog → d.prepare call = .ok p →
    p.Took catalog.services true objects e next objects' → Told catalog call [e] next
  | advanced {events : List Event} {c : Continuation} {e : Event} {next : Option Continuation}
      {objects objects' : ObjectTable} :
    Told catalog call events (some c) → c.turn.Took catalog.services true objects e next objects' →
    Told catalog call (events ++ [e]) next

namespace Told

variable {catalog : Catalog} {call call' : Call} {events events' : List Event}
  {last last' : Option Continuation}

theorem length_pos (h : Told catalog call events last) : 0 < events.length := by
  cases h with
  | refused _ _ => exact Nat.one_pos
  | begun _ _ _ => exact Nat.one_pos
  | advanced _ _ => rw [List.length_append]; exact Nat.lt_add_left _ Nat.one_pos

theorem length_append_ne_one (h : Told catalog call events last) (e : Event) :
    (events ++ [e]).length ≠ 1 := by
  have hpos := h.length_pos
  rw [List.length_append, List.length_singleton]
  omega

/-- What is left of a call has its number and its connection. -/
theorem ctx (h : Told catalog call events last) {c : Continuation} (hc : last = some c) :
    c.ctx = call.ctx := by
  induction h generalizing c with
  | refused _ _ => exact absurd hc (by simp only [reduceCtorEq, not_false_eq_true])
  | begun _ hprepare htook =>
      rw [(htook.next_eq hc).1]
      exact Dispatcher.prepare_ctx hprepare
  | advanced _ htook ih =>
      rw [(htook.next_eq hc).1]
      exact ih rfl

/-- What is left of a call waits for a turn with the arguments that were bound. -/
theorem bound (h : Told catalog call events last) {c : Continuation} (hc : last = some c) :
    c.turn.Bound catalog := by
  induction h generalizing c with
  | refused _ _ => exact absurd hc (by simp only [reduceCtorEq, not_false_eq_true])
  | begun hcatalog hprepare htook =>
      subst hcatalog
      exact htook.next_bound (Dispatcher.prepare_bound hprepare) hc
  | advanced _ htook ih => exact htook.next_bound (ih rfl) hc

/-- The result that the last event of a course amounts to. -/
def outcome? (events : List Event) : Option ProcedureResult :=
  events.getLast?.bind fun e => e.outcome.result?

theorem outcome?_append (events : List Event) (e : Event) :
    outcome? (events ++ [e]) = e.outcome.result? := by
  rw [outcome?, List.getLast?_append, List.getLast?_singleton]
  rfl

/-- Courses of one call are alike: after as many turns, they have come to the
    same result, or wait for turns that are alike. -/
theorem like (h : Told catalog call events last) (h' : Told catalog call' events' last')
    (hplain : catalog.Plain) (hprocedure : call'.procedure = call.procedure)
    (harguments : call'.arguments = call.arguments) (hlength : events'.length = events.length) :
    outcome? events = outcome? events' ∧ Turn.LikeNext last last' := by
  -- By induction on the one course, with the other one following it. They have
  -- as many turns, so both are at their first or both are further on.
  induction h generalizing events' last' with
  | @refused d error hcatalog hprepare =>
      subst hcatalog
      cases h' with
      | @refused d' error' hcatalog' hprepare' =>
          rcases prepare_like hcatalog' hplain hprocedure harguments with
            ⟨e, he, he'⟩ | ⟨p, _, hp, _, _⟩
          · rw [Except.error.inj (hprepare.symm.trans he),
              Except.error.inj (hprepare'.symm.trans he')]
            exact ⟨rfl, trivial⟩
          · rw [hprepare] at hp
            exact absurd hp (by simp only [reduceCtorEq, not_false_eq_true])
      | @begun d' p' _ _ _ _ hcatalog' hprepare' _ =>
          rcases prepare_like hcatalog' hplain hprocedure harguments with
            ⟨e, _, he'⟩ | ⟨p, _, hp, _, _⟩
          · rw [hprepare'] at he'
            exact absurd he' (by simp only [reduceCtorEq, not_false_eq_true])
          · rw [hprepare] at hp
            exact absurd hp (by simp only [reduceCtorEq, not_false_eq_true])
      | advanced hrest _ => exact absurd hlength (hrest.length_append_ne_one _)
  | @begun d p e next _ _ hcatalog hprepare htook =>
      subst hcatalog
      cases h' with
      | @refused d' error' hcatalog' hprepare' =>
          rcases prepare_like hcatalog' hplain hprocedure harguments with
            ⟨e, he, _⟩ | ⟨_, p', _, hp', _⟩
          · rw [hprepare] at he
            exact absurd he (by simp only [reduceCtorEq, not_false_eq_true])
          · rw [hprepare'] at hp'
            exact absurd hp' (by simp only [reduceCtorEq, not_false_eq_true])
      | @begun d' p' e' next' _ _ hcatalog' hprepare' htook' =>
          rcases prepare_like hcatalog' hplain hprocedure harguments with
            ⟨e, he, _⟩ | ⟨p₁, p₁', hp, hp', hlike⟩
          · rw [hprepare] at he
            exact absurd he (by simp only [reduceCtorEq, not_false_eq_true])
          · have hsame := Except.ok.inj (hprepare.symm.trans hp)
            have hsame' := Except.ok.inj (hprepare'.symm.trans hp')
            subst hsame hsame'
            exact htook.like htook' hlike (Dispatcher.prepare_bound hprepare) hplain
      | advanced hrest _ => exact absurd hlength (hrest.length_append_ne_one _)
  | @advanced events c e next _ _ hrest htook ih =>
      cases h' with
      | refused _ _ => exact absurd hlength.symm (hrest.length_append_ne_one _)
      | begun _ _ _ => exact absurd hlength.symm (hrest.length_append_ne_one _)
      | @advanced events' c' e' next' _ _ hrest' htook' =>
          rw [List.length_append, List.length_append] at hlength
          have hlike : c.turn.Like c'.turn := (ih hrest' (Nat.add_right_cancel hlength)).2
          rw [outcome?_append, outcome?_append]
          exact htook.like htook' hlike (hrest.bound rfl) hplain

/-- A course of several turns went through every smaller number of turns, and
    the call waited there. -/
theorem waited (h : Told catalog call events last) {m : Nat} (hpos : 0 < m)
    (hm : m < events.length) :
    ∃ events' c, Told catalog call events' (some c) ∧ events'.length = m := by
  induction h with
  | refused _ _ => exact absurd hm (Nat.not_lt.mpr hpos)
  | begun _ _ _ => exact absurd hm (Nat.not_lt.mpr hpos)
  | @advanced events c e next _ _ hrest _ ih =>
      rw [List.length_append, List.length_singleton] at hm
      by_cases hlt : m < events.length
      · exact ih hlt
      · exact ⟨events, c, hrest, by omega⟩

/-- As long as the call waits, no outcome was final. -/
theorem finals_of_waiting (h : Told catalog call events last) (hlast : last ≠ none) :
    (events.map Event.outcome).filter Outcome.isFinal = [] := by
  induction h with
  | refused _ _ => exact absurd rfl hlast
  | @begun _ p e next _ _ _ _ htook =>
      rw [List.map_singleton, htook.continuing_iff.mp hlast]
      rfl
  | @advanced events c e next _ _ _ htook ih =>
      rw [List.map_append, List.filter_append, ih (Option.some_ne_none c), List.map_singleton,
        htook.continuing_iff.mp hlast]
      rfl

/-- When nothing is left of the call, its last outcome is its only final one. -/
theorem finals_of_over (h : Told catalog call events last) (hlast : last = none) :
    ∃ o, (events.map Event.outcome).filter Outcome.isFinal = [o] ∧
      outcome? events = o.result? := by
  have hends : ∀ {e : Event}, e.outcome.isFinal = true →
      [e.outcome].filter Outcome.isFinal = [e.outcome] := by
    intro e hfinal
    rw [List.filter_cons_of_pos hfinal, List.filter_nil]
  cases h with
  | refused _ _ => exact ⟨_, rfl, rfl⟩
  | @begun _ p e _ _ _ _ _ htook =>
      rcases htook.final_or_parked with ⟨hfinal, _⟩ | ⟨progress, _, _, _, hnext⟩
      · exact ⟨e.outcome, hends hfinal, rfl⟩
      · exact absurd (hnext.symm.trans hlast) (Option.some_ne_none _)
  | @advanced events c e _ _ _ hrest htook =>
      rcases htook.final_or_parked with ⟨hfinal, _⟩ | ⟨progress, _, _, _, hnext⟩
      · refine ⟨e.outcome, ?_, outcome?_append events e⟩
        rw [List.map_append, List.filter_append, hrest.finals_of_waiting (Option.some_ne_none c),
          List.nil_append, List.map_singleton, hends hfinal]
      · exact absurd (hnext.symm.trans hlast) (Option.some_ne_none _)

/-- No course of a call outlasts one that came to an end. -/
theorem length_le_of_over (h : Told catalog call events none)
    (h' : Told catalog call' events' last') (hplain : catalog.Plain)
    (hprocedure : call'.procedure = call.procedure)
    (harguments : call'.arguments = call.arguments) :
    events'.length ≤ events.length := by
  refine Nat.not_lt.mp ?_
  intro hlonger
  -- The longer course waited where the other was over.
  rcases h'.waited h.length_pos hlonger with ⟨events'', c, h'', hlength⟩
  exact (h.like h'' hplain hprocedure harguments hlength).2

/-- A course that goes on is behind one that came to an end. -/
theorem length_lt_of_over (h : Told catalog call events none)
    (h' : Told catalog call' events' last') (hplain : catalog.Plain)
    (hprocedure : call'.procedure = call.procedure)
    (harguments : call'.arguments = call.arguments)
    (hlast : last' ≠ none) : events'.length < events.length := by
  refine Nat.lt_of_le_of_ne (h.length_le_of_over h' hplain hprocedure harguments) ?_
  intro hlength
  rcases Option.ne_none_iff_exists'.mp hlast with ⟨c, hc⟩
  subst hc
  exact (h.like h' hplain hprocedure harguments hlength).2

/-- Courses of one call that came to an end came to the same one. -/
theorem outcome?_of_over (h : Told catalog call events none) (h' : Told catalog call' events' none)
    (hplain : catalog.Plain) (hprocedure : call'.procedure = call.procedure)
    (harguments : call'.arguments = call.arguments) : outcome? events = outcome? events' := by
  have hle := h.length_le_of_over h' hplain hprocedure harguments
  have hge := h'.length_le_of_over h hplain hprocedure.symm harguments.symm
  exact (h.like h' hplain hprocedure harguments (Nat.le_antisymm hle hge)).1

end Told

/-! ## What happens to a call in a session -/

/-- A call was dispatched, and what happened to it is its course. -/
structure Record.Tells (r : Record) (call : Call) : Prop where
  below : call.ctx.call < r.session.dispatcher.nextCall
  unissued : r.session.issued.get? call.ctx.call = none
  course : Told r.session.dispatcher.catalog call (eventsOf call.ctx.call r.events)
    (r.session.waiting call.ctx.call)

/-- A call that is given a number and dispatched at once. -/
theorem tells_call {r : Record} (h : r.Valid) (connection : ConnectionId) (procedure : String)
    (arguments : List Argument)
    (hopen : r.session.dispatcher.pending.closed.contains connection = false) :
    (r.call connection procedure arguments).Tells
      ⟨⟨r.session.dispatcher.nextCall, connection⟩, procedure, arguments⟩ := by
  have h₁ := Record.valid_operate h (.issue connection)
  have hissued := r.issued_operate_issue connection
  have hkept := Session.kept_perform h₁.sound
    (.dispatch r.session.dispatcher.nextCall procedure arguments)
  have hevents := Record.eventsOf_call h connection procedure arguments
  have hcatalog : (r.call connection procedure arguments).session.dispatcher.catalog =
      r.session.dispatcher.catalog := hkept.catalog
  constructor
  · exact Nat.lt_of_lt_of_le (h₁.sound.issuedBelow hissued) hkept.nextCall
  · refine (congrArg (fun s => s.issued.get? r.session.dispatcher.nextCall)
      (Session.dispatch_issued hissued procedure arguments).1).trans ?_
    simp only [Table.get?_erase, if_true]
  -- Whichever way it begins, this is the first turn of its course.
  · simp only
    rw [hcatalog, hevents]
    rcases Session.begins h₁.sound hissued procedure arguments with
      ⟨error, hprepare, hown, hw⟩ | ⟨p, e, next, objects', hprepare, hown, hctx, htook, hw⟩
    · rw [hown, eventsOf_self (by rfl)]
      exact hw ▸ .refused rfl hprepare
    · have hconnected :
          (r.operate (.issue connection)).session.dispatcher.connected p.ctx = true := by
        rw [Dispatcher.prepare_ctx hprepare, Dispatcher.connected, Bool.not_eq_true']
        exact hopen
      rw [hconnected] at htook
      rw [hown, eventsOf_self (by rw [hctx])]
      exact hw ▸ .begun rfl hprepare htook

/-- Whatever is done, short of giving the call up, what happens to it goes on
    being its course. -/
theorem tells_operate {r : Record} (h : r.Valid) {call : Call} (htells : r.Tells call)
    {op : Operation} (hkept : op.drops call.ctx = false) : (r.operate op).Tells call := by
  have hsession := Session.kept_perform h.sound op
  have hbelow := Nat.lt_of_lt_of_le htells.below hsession.nextCall
  have hcatalog : (r.operate op).session.dispatcher.catalog = r.session.dispatcher.catalog :=
    hsession.catalog
  have hevents : eventsOf call.ctx.call (r.operate op).events =
      eventsOf call.ctx.call r.events ++ eventsOf call.ctx.call (r.session.events op) :=
    eventsOf_append ..
  have hcourse := htells.course
  have hchange := Session.change h.sound op call.ctx.call
  generalize eventsOf call.ctx.call (r.session.events op) = happened at hchange hevents
  cases hchange with
  | untouched hissued hwaiting _ =>
      refine ⟨hbelow, hissued.trans htells.unissued, ?_⟩
      rw [hcatalog, hevents, List.append_nil]
      exact hwaiting.symm ▸ hcourse
  | issued hid _ _ => exact absurd hid (Nat.ne_of_lt htells.below)
  | refused hissued _ _ _ =>
      rw [htells.unissued] at hissued
      exact absurd hissued (by simp only [reduceCtorEq, not_false_eq_true])
  | begun hissued _ _ _ _ =>
      rw [htells.unissued] at hissued
      exact absurd hissued (by simp only [reduceCtorEq, not_false_eq_true])
  | advanced _ hwaiting htook hissued hwaiting' =>
      refine ⟨hbelow, hissued.trans htells.unissued, ?_⟩
      rw [hwaiting] at hcourse
      rw [hcatalog, hevents]
      exact hwaiting'.symm ▸ .advanced hcourse htook
  | dropped hdrops hwaiting _ _ =>
      -- Only giving it up does this, since what waits is the call itself.
      rw [hcourse.ctx hwaiting, hkept] at hdrops
      exact Bool.noConfusion hdrops

end Switchboard
