import Switchboard.Proofs.Coercion.References
import Switchboard.Proofs.Dispatcher.ClassSafety
import Switchboard.Proofs.Dispatcher.Holdings
import Switchboard.Proofs.Services.Accessors

/-!
# What the Fixture Services Remember

A completed call of the setter of the object property is an assignment, and what was assigned
in a session can be read off its history. The fixture services go by exactly this: the table
of properties is what the assignments come to, one after the other, whatever else was going on
between them (`Remembers.replay`).

What has to be said along with it is where objects come from. A call brings objects by their
numbers, so whatever it brings is live; what is live was given back by a procedure once; and
a procedure gives back what it was brought, what it found remembered, and what it made. So the
objects in the table of live objects, those that pending calls hold, and those that are
remembered have all been made, and each is the only one with its address. All of them are of
one class, as no signature names another.

## Main definitions

* `Event.assignment?`, `Fixture.assignmentsIn`: The assignments in a history.
* `Fixture.Remembers`: What a dispatcher goes by.

## Theorems

* `Remembers.handled`, `Remembers.step`: One run of a handler, and one step of a call.
* `Remembers.dispatch`, `Remembers.advance`: The turns of calls.
* `Remembers.replay`: A session remembers what was assigned in it.
-/

namespace Switchboard

open Fixture (Assignment Conforms assigned assignment? setterName)

/-- The assignment that was completed in an event. -/
def Event.assignment? (e : Event) : Option Assignment :=
  match e.run, e.outcome with
  | some run, .completed _ =>
    if run.invocation.procedure = setterName then Fixture.assignment? run.invocation.arguments
    else none
  | _, _ => none

namespace Fixture

/-- The assignments that were completed in some events, in their order. -/
def assignmentsIn (events : List Event) : List Assignment := events.filterMap Event.assignment?

theorem assignmentsIn_append (events later : List Event) :
    assignmentsIn (events ++ later) = assignmentsIn events ++ assignmentsIn later :=
  List.filterMap_append

theorem assignmentsIn_singleton (e : Event) : assignmentsIn [e] = e.assignment?.toList := by
  rw [assignmentsIn, List.filterMap_cons]
  cases e.assignment? <;> rfl

/-- A dispatcher goes by what has been made and what has been assigned so far. -/
structure Remembers (made : List String) (assignments : List Assignment) (d : Dispatcher) :
    Prop where
  catalog : ∀ entry ∈ d.catalog.directory.descriptors, Conforms entry
  world : d.world.MadeIn made
  properties : d.world.fixture.objectProperties = assigned assignments
  assignments : ∀ a ∈ assignments, a.object.MadeIn made
  entries : ∀ {id entry}, d.objects.entries.get? id = some entry →
    entry.object.MadeIn made ∧ entry.className = className
  pending : ∀ {id c}, d.pending.waiting.get? id = some c →
    Conforms c.descriptor ∧ (∀ v ∈ c.arguments, v.MadeIn made) ∧ c.progress.MadeIn made

variable {made : List String} {assignments : List Assignment} {d : Dispatcher}

/-- What happens in a step. -/
def stepEvent (d : Dispatcher) (p : Turn) : Event := ⟨p.ctx, some (d.handled p), (d.step p).1⟩

/-- Calls of other procedures complete no assignment. -/
theorem assignment?_of_ne {p : Turn} (h : p.descriptor.qualifiedName ≠ setterName) :
    (stepEvent d p).assignment? = none := by
  unfold Event.assignment?
  split
  next run value hrun _ =>
    cases hrun
    exact if_neg h
  next => rfl

/-- A run that is cut short completes no assignment. -/
theorem assignment?_of_error {p : Turn} {interrupt : Interrupt}
    (h : (d.handled p).result = .error interrupt) : (stepEvent d p).assignment? = none := by
  have houtcome : (stepEvent d p).outcome = .failed interrupt.toError := by
    unfold stepEvent Dispatcher.step
    rw [Dispatcher.runStep_eq, h]
    rfl
  unfold Event.assignment?
  rw [houtcome]
  rfl

/-- The setter finishes without a value, and nothing can go wrong after that. -/
theorem step_of_done {p : Turn} (hreturn : p.descriptor.procedure.returnType = none)
    (h : (d.handled p).result = .ok .done) : (d.step p).1 = .completed none := by
  unfold Dispatcher.step
  rw [Dispatcher.runStep_eq, h]
  simp only [Dispatcher.conclude, Step.done, Dispatcher.writeReturn, hreturn]
  rfl

theorem assignment?_of_done {p : Turn} (hname : p.descriptor.qualifiedName = setterName)
    (hreturn : p.descriptor.procedure.returnType = none) (h : (d.handled p).result = .ok .done) :
    (stepEvent d p).assignment? = assignment? p.arguments := by
  have houtcome : (stepEvent d p).outcome = .completed none := step_of_done hreturn h
  unfold Event.assignment?
  rw [houtcome]
  exact if_pos hname

/-- A run of a handler makes objects, and completes an assignment if its event says so. -/
theorem Remembers.handled (h : Remembers made assignments d) {p : Turn}
    (hp : Conforms p.descriptor) (hinv : (d.handled p).invocation.MadeIn made) :
    ∃ made', made <+: made' ∧ (d.handled p).after.MadeIn made' ∧
      (d.handled p).after.fixture.objectProperties =
        assigned (assignments ++ (stepEvent d p).assignment?.toList) ∧
      (∀ a, (stepEvent d p).assignment? = some a → a.object.MadeIn made') ∧
      ∀ step, (d.handled p).result = .ok step → step.MadeIn made' := by
  rcases hp.handler with ⟨hname, hhandler, hreturn⟩ | ⟨hname, hspares⟩
  · have hresult : (d.handled p).result =
        (setObjectProperty.react (d.handled p).invocation d.world).1 := by
      rw [← hhandler]
      rfl
    have hafter : (d.handled p).after =
        (setObjectProperty.react (d.handled p).invocation d.world).2 := by
      rw [← hhandler]
      rfl
    refine ⟨made, List.prefix_rfl, ?_⟩
    rcases setObjectProperty_react hinv d.world with
      ⟨a, harguments, hreact⟩ | ⟨harguments, interrupt, hreact⟩
    · rcases madeIn_of_assignment? hinv.arguments harguments with ⟨hobject, hvalue⟩
      have hasked : assignment? p.arguments = some a := harguments
      rw [hreact] at hresult hafter
      rw [assignment?_of_done hname hreturn hresult, hasked, Option.toList_some, assigned_concat,
        hafter]
      refine ⟨madeIn_assign h.world hvalue, congrArg a.apply h.properties, ?_, fun step hstep => ?_⟩
      · intro a' ha'
        cases ha'
        exact hobject
      · rw [hresult] at hstep
        cases hstep
        exact Step.madeIn_done
    · rw [hreact] at hresult hafter
      rw [assignment?_of_error hresult, Option.toList_none, List.append_nil, hafter]
      refine ⟨h.world, h.properties, nofun, fun step hstep => ?_⟩
      rw [hresult] at hstep
      cases hstep
  · rw [assignment?_of_ne hname, Option.toList_none, List.append_nil]
    rcases hspares made made List.prefix_rfl (d.handled p).invocation d.world hinv h.world with
      ⟨made', hlater, hworld, hproperties, hstep⟩
    exact ⟨made', hlater, hworld, hproperties.trans h.properties, nofun, hstep⟩

/-- A step remembers what it makes and what it assigns. -/
theorem Remembers.step (h : Remembers made assignments d) {p : Turn} (hp : Conforms p.descriptor)
    (hinv : (d.handled p).invocation.MadeIn made) :
    ∃ made', Remembers made' (assignments ++ assignmentsIn [stepEvent d p]) (d.step p).2 := by
  rw [assignmentsIn_singleton]
  rcases h.handled hp hinv with ⟨made', hlater, hworld, hproperties, hobject, hstep⟩
  rcases Dispatcher.step_concludes d p with ⟨next, objects', hconcludes, hbecame⟩
  have hafter := (Dispatcher.step_leaves d p).2
  refine ⟨made', hbecame.catalog ▸ h.catalog, hafter ▸ hworld, hafter ▸ hproperties, ?_, ?_, ?_⟩
  · rw [List.forall_mem_append]
    exact ⟨fun a ha => (h.assignments a ha).mono hlater,
      fun a ha => hobject a (Option.mem_toList.mp ha)⟩
  · intro id entry hentry
    rcases (Dispatcher.step_stems d p).traced id entry hentry with
      ⟨entry₀, hbefore, hsame, hclass⟩ | ⟨seen, hcreates, hsame, hclass⟩
    · rw [← hsame, ← hclass]
      exact ⟨(h.entries hbefore).1.mono hlater, (h.entries hbefore).2⟩
    · -- A new entry is of an object in what the handler came to, and of a class in its type.
      rw [← hsame, ← hclass]
      refine ⟨?_, hp.classes hcreates.mem_namedTypes⟩
      rcases hcreates with ⟨value, entered, hresult, hstart, -, before, after, rfl, -⟩
      have hseen := Procedure.mem_references_of_mem_sightings
        (hstart.subset (List.mem_append_right before List.mem_cons_self))
      cases value with
      | none => exact absurd hseen List.not_mem_nil
      | some v => exact hstep _ hresult v List.mem_cons_self _ hseen
  · intro id c hc
    rw [hbecame.pending] at hc
    rcases PendingCalls.of_get?_keep hc with ⟨_, hparked⟩ | hold
    · rcases hconcludes.final_or_parked with ⟨_, hn⟩ | ⟨progress, hresult, _, _, _, hn⟩
      · rw [hn] at hparked
        cases hparked
      · obtain rfl : p.parked progress = c := Option.some.inj (hn.symm.trans hparked)
        exact ⟨hp, fun v hv => (hinv.arguments v hv).mono hlater,
          Step.madeIn_yield_iff.mp (hstep _ hresult)⟩
    · rcases h.pending hold with ⟨hconforms, harguments, hprogress⟩
      exact ⟨hconforms, fun v hv => (harguments v hv).mono hlater, hprogress.mono hlater⟩

/-! ## Calls -/

/-- Where nothing was made or assigned and nothing but objects and pending calls went, it is
    remembered as before. -/
theorem Remembers.left (h : Remembers made assignments d) {d' : Dispatcher}
    (hcatalog : d'.catalog = d.catalog) (hworld : d'.world = d.world)
    (hobjects : d'.objects.Keeps d.objects)
    (hpending : ∀ id c, d'.pending.waiting.get? id = some c →
      d.pending.waiting.get? id = some c) : Remembers made assignments d' where
  catalog := hcatalog ▸ h.catalog
  world := hworld ▸ h.world
  properties := hworld ▸ h.properties
  assignments := h.assignments
  entries := by
    intro id entry hentry
    rcases hobjects id entry hentry with ⟨entry₀, hbefore, hsame, hclass⟩
    rw [← hsame, ← hclass]
    exact h.entries hbefore
  pending hc := h.pending (hpending _ _ hc)

theorem Remembers.counted (h : Remembers made assignments d) (outcome : Outcome) :
    Remembers made assignments (Dispatcher.countOutcome outcome d) := by
  cases outcome <;> exact h.left rfl rfl (.refl _) fun _ _ hc => hc

theorem Remembers.without (h : Remembers made assignments d) (id : CallId) :
    Remembers made assignments (d.without id) :=
  h.left rfl rfl (.refl _) fun _ _ hc => (Table.get?_erase_eq_some_iff.mp hc).1

/-- What happens to a call that is dispatched is what happens in its first step. -/
theorem dispatchEvent_of_ok {call : Call} {p : Turn} (h : d.prepare call = .ok p) :
    d.dispatchEvent call = stepEvent d.countDispatch p := by
  unfold Dispatcher.dispatchEvent stepEvent
  rw [Dispatcher.dispatch_of_ok h, h, Dispatcher.prepare_ctx h]

/-- What a call brings is live, and whatever is live was made. -/
theorem Remembers.madeIn_of_prepare (h : Remembers made assignments d) {call : Call} {p : Turn}
    (hprepare : d.prepare call = .ok p) :
    (d.countDispatch.handled p).invocation.MadeIn made := by
  rcases Dispatcher.prepare_eq_ok hprepare with ⟨descriptor, arguments, _, hbind, rfl⟩
  refine ⟨fun v hv i hi => ?_, nofun⟩
  rcases holdsAll_of_bindArguments hbind v hv i hi with ⟨_, _, _, hentry, rfl, _⟩
  exact (h.entries hentry).1

theorem Remembers.dispatch (h : Remembers made assignments d) (call : Call) :
    ∃ made',
      Remembers made' (assignments ++ assignmentsIn [d.dispatchEvent call])
        (d.dispatch call).2 := by
  have hcounted : Remembers made assignments d.countDispatch :=
    h.left rfl rfl (.refl _) fun _ _ hc => hc
  cases hprepare : d.prepare call with
  | error e =>
      rw [(Dispatcher.dispatch_refused hprepare).1, Dispatcher.dispatch_of_error hprepare]
      refine ⟨made, ?_⟩
      rw [assignmentsIn_singleton, Event.assignment?, Option.toList_none, List.append_nil]
      exact hcounted.counted (.failed e)
  | ok p =>
      have hconforms := h.catalog _ (Dispatcher.prepare_listed hprepare)
      rcases hcounted.step hconforms (h.madeIn_of_prepare hprepare) with ⟨made', hremembers⟩
      rw [dispatchEvent_of_ok hprepare, Dispatcher.dispatch_of_ok hprepare]
      exact ⟨made', hremembers.counted _⟩

theorem Remembers.advance (h : Remembers made assignments d) (id : CallId) :
    ∃ made',
      Remembers made' (assignments ++ assignmentsIn (d.advanceEvent? id).toList)
        (d.advance id).2 := by
  cases hw : d.pending.waiting.get? id with
  | none =>
      rw [(Dispatcher.advance_absent hw).1, (Dispatcher.advance_absent hw).2]
      refine ⟨made, ?_⟩
      rw [Option.toList_none, assignmentsIn, List.filterMap_nil, List.append_nil]
      exact h
  | some c =>
      have hevent : d.advanceEvent? id = some (stepEvent (d.without id).countResume c.turn) := by
        rw [Dispatcher.advanceEvent?, hw, Option.map_some]
        rfl
      rcases h.pending hw with ⟨hconforms, harguments, hprogress⟩
      have hinv : ((d.without id).countResume.handled c.turn).invocation.MadeIn made := by
        refine ⟨harguments, fun hv => ?_⟩
        cases hv
        exact hprogress
      have hcounted : Remembers made assignments (d.without id).countResume :=
        (h.without id).left rfl rfl (.refl _) fun _ _ hc => hc
      rcases hcounted.step hconforms hinv with ⟨made', hremembers⟩
      rw [hevent, Option.toList_some, Dispatcher.advance_of_waiting hw]
      exact ⟨made', hremembers.counted _⟩

theorem Remembers.advanceAll (h : Remembers made assignments d) (ids : List CallId) :
    ∃ made',
      Remembers made' (assignments ++ assignmentsIn (d.advanceEvents ids))
        (d.advanceAll ids).2 := by
  induction ids generalizing made assignments d with
  | nil =>
      refine ⟨made, ?_⟩
      rw [Dispatcher.advanceEvents, assignmentsIn, List.filterMap_nil, List.append_nil]
      exact h
  | cons id rest ih =>
      rcases h.advance id with ⟨made₁, hfirst⟩
      rcases ih hfirst with ⟨made₂, hrest⟩
      refine ⟨made₂, ?_⟩
      rw [Dispatcher.advanceEvents, assignmentsIn_append, ← List.append_assoc]
      exact hrest

/-! ## Sessions -/

/-- Addresses begin at one, so nothing was made at the first place of the list. -/
theorem remembers_fresh {catalog : Catalog}
    (hcatalog : ∀ entry ∈ catalog.directory.descriptors, Conforms entry) (config : ServerConfig) :
    Remembers [""] [] (Session.fresh catalog config {}).dispatcher where
  catalog := hcatalog
  world := ⟨rfl, nofun, nofun⟩
  properties := rfl
  assignments := nofun
  entries := nofun
  pending := nofun

theorem Remembers.perform {s : Session} (h : Remembers made assignments s.dispatcher)
    {op : Operation} (hop : ∀ world, op ≠ .alter world) :
    ∃ made',
      Remembers made' (assignments ++ assignmentsIn (s.events op)) (s.perform op).dispatcher := by
  have hsame : ∀ {d'}, d'.catalog = s.dispatcher.catalog → d'.world = s.dispatcher.world →
      d'.objects.Keeps s.dispatcher.objects →
      (∀ id c, d'.pending.waiting.get? id = some c →
        s.dispatcher.pending.waiting.get? id = some c) →
      ∃ made', Remembers made' (assignments ++ []) d' := by
    intro d' hcatalog hworld hobjects hpending
    rw [List.append_nil]
    exact ⟨made, h.left hcatalog hworld hobjects hpending⟩
  cases op with
  | alter world => exact absurd rfl (hop world)
  | issue _ | report _ => exact hsame rfl rfl (.refl _) fun _ _ hc => hc
  | release id => exact hsame rfl rfl (ObjectTable.keeps_of_release _ id) fun _ _ hc => hc
  | disconnect connection =>
      exact hsame rfl rfl (ObjectTable.keeps_of_releaseOwner _ connection) fun _ _ hc =>
        (PendingCalls.get?_discardConnection_eq_some_iff.mp hc).1
  | discard id =>
      exact hsame rfl rfl (.refl _) fun _ _ hc => (Table.get?_erase_eq_some_iff.mp hc).1
  | dispatch id procedure arguments =>
      cases hissued : s.issued.get? id with
      | none =>
          rw [(Session.dispatch_unissued hissued procedure arguments).1,
            (Session.dispatch_unissued hissued procedure arguments).2]
          exact hsame rfl rfl (.refl _) fun _ _ hc => hc
      | some connection =>
          rw [(Session.dispatch_issued hissued procedure arguments).1,
            (Session.dispatch_issued hissued procedure arguments).2]
          exact h.dispatch _
  | tick =>
      have hcounted : Remembers made assignments s.dispatcher.countTick :=
        h.left rfl rfl (.refl _) fun _ _ hc => hc
      exact hcounted.advanceAll s.dispatcher.pending.ids
  | resume id => exact h.advance id

/-- In a session with the fixture services all is remembered that was assigned in it. -/
theorem Remembers.replay {s : Session} (h : Remembers made assignments s.dispatcher)
    {operations : List Operation} (hops : ∀ world, .alter world ∉ operations) :
    ∃ made',
      Remembers made' (assignments ++ assignmentsIn (s.history operations))
        (s.replay operations).dispatcher := by
  induction operations generalizing made assignments s with
  | nil =>
      refine ⟨made, ?_⟩
      rw [Session.history, assignmentsIn, List.filterMap_nil, List.append_nil]
      exact h
  | cons op rest ih =>
      have hop : ∀ world, op ≠ .alter world := fun world hsame =>
        hops world (hsame ▸ List.mem_cons_self)
      rcases h.perform hop with ⟨made₁, hfirst⟩
      rcases ih hfirst fun world hmem => hops world (List.mem_cons_of_mem op hmem) with
        ⟨made₂, hrest⟩
      refine ⟨made₂, ?_⟩
      rw [Session.history, assignmentsIn_append, ← List.append_assoc]
      exact hrest

end Fixture

end Switchboard
