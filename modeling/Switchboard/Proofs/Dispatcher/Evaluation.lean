import Switchboard.Proofs.Dispatcher.Course

/-!
# A Call by Itself

What a call comes to when nothing else is going on: a dispatcher is set up for
it, the call is dispatched, and the dispatcher ticks until the call is done or
a number of ticks has passed. This is the plainest reading of what a call means,
and what a loop that serves many clients has to be measured against.

Where handlers are pure and signatures are plain, a call that came to an end
anywhere comes to the same end by itself (`evaluate_of_told`). The number of
ticks has to be enough for it; the number of turns that the call took elsewhere
is. That the two courses take the same number of turns is not assumed but
follows, as neither can outlast the other.

## Main definitions

* `evaluate`: A call by itself, with so many ticks.
* `Record.ticked`: A record after so many ticks.

## Theorems

* `run_ticked`: Running a dispatcher is ticking it.
* `length_ticked`: A call that waits through some ticks takes as many turns.
* `evaluate_of_told`: A call by itself comes to the end it has elsewhere.
-/

namespace Switchboard

/-- What a call comes to by itself, on a dispatcher that has done nothing
    before, when no more than so many ticks pass. -/
def evaluate (catalog : Catalog) (config : ServerConfig) (world : World)
    (connection : ConnectionId) (call : ProcedureCall) (ticks : Nat) : Option ProcedureResult :=
  let d : Dispatcher := { catalog, config, world }
  let (ctx, d) := d.context connection
  let (outcome, d) := d.dispatch (.ofWire ctx call)
  match outcome with
  | .continuing id =>
    ((d.run ticks).1.2.find? fun report => report.1.call == id).bind fun report => report.2.result?
  | outcome => outcome.result?

-- The reports of a call among the final ones of a run are its final outcomes.
theorem find?_reports (id : CallId) (events : List Event) :
    (((events.filter fun e => e.outcome.isFinal).map fun e => (e.ctx, e.outcome)).find?
      fun report => report.1.call == id).map Prod.snd = (finals id events).head? := by
  induction events with
  | nil => rfl
  | cons e rest ih =>
      have hsplit : finals id (e :: rest) = finals id [e] ++ finals id rest :=
        finals_append id [e] rest
      rw [hsplit]
      by_cases hfinal : e.outcome.isFinal = true
      · rw [List.filter_cons_of_pos (by exact hfinal), List.map_cons]
        by_cases hid : e.ctx.call = id
        · rw [List.find?_cons_of_pos (by rw [beq_iff_eq]; exact hid),
            finals_of_final (eventsOf_self hid) hfinal]
          rfl
        · rw [List.find?_cons_of_neg (by rw [beq_iff_eq]; exact hid),
            finals_of_eventsOf_nil (eventsOf_other hid), List.nil_append, ih]
      · rw [List.filter_cons_of_neg (by exact hfinal)]
        have hnone : finals id [e] = [] := by
          by_cases hid : e.ctx.call = id
          · exact finals_of_continuing (eventsOf_self hid) (Bool.eq_false_iff.mpr hfinal)
          · exact finals_of_eventsOf_nil (eventsOf_other hid)
        rw [hnone, List.nil_append, ih]

/-! ## Ticks -/

namespace Record

/-- A record after so many ticks. -/
def ticked (r : Record) : Nat → Record
  | 0 => r
  | ticks + 1 => (r.operate .tick).ticked ticks

theorem tells_ticked {r : Record} (h : r.Valid) {call : Call} (htells : r.Tells call)
    (ticks : Nat) : (r.ticked ticks).Tells call := by
  induction ticks generalizing r with
  | zero => exact htells
  | succ ticks ih => exact ih (valid_operate h .tick) (tells_operate h htells rfl)

theorem catalog_ticked {r : Record} (h : r.Valid) (ticks : Nat) :
    (r.ticked ticks).session.dispatcher.catalog = r.session.dispatcher.catalog := by
  induction ticks generalizing r with
  | zero => rfl
  | succ ticks ih =>
      exact (ih (valid_operate h .tick)).trans (Session.kept_perform h.sound .tick).catalog

/-- Running a dispatcher is ticking it, as often as allowed or until nothing is
    pending, and it gives what was final. -/
theorem run_ticked (r : Record) (allowed : Nat) :
    ∃ ticks later,
      (ticks = allowed ∨ (r.ticked ticks).session.dispatcher.pending.size = 0) ∧
      (r.ticked ticks).events = r.events ++ later ∧
      (r.session.dispatcher.run allowed).1.2 =
        (later.filter fun e => e.outcome.isFinal).map fun e => (e.ctx, e.outcome) := by
  induction allowed generalizing r with
  | zero => exact ⟨0, [], Or.inl rfl, (List.append_nil _).symm, rfl⟩
  | succ allowed ih =>
      unfold Dispatcher.run
      -- Either the run is over, or a tick comes first and the rest follows it.
      by_cases hidle : r.session.dispatcher.pending.size = 0
      · rw [if_pos hidle]
        exact ⟨0, [], Or.inr hidle, (List.append_nil _).symm, rfl⟩
      · rw [if_neg hidle]
        rcases ih (r.operate .tick) with ⟨ticks, later, hends, hevents, hrun⟩
        refine ⟨ticks + 1, r.session.events .tick ++ later, ?_, ?_, ?_⟩
        · rcases hends with rfl | hempty
          · exact Or.inl rfl
          · exact Or.inr hempty
        · rw [← List.append_assoc]
          exact hevents
        · have htick : r.session.dispatcher.tick.1 =
              (r.session.events .tick).map fun e => (e.ctx, e.outcome) :=
            Dispatcher.tick_results _
          have hrest : (r.session.dispatcher.tick.2.run allowed).1.2 =
              (later.filter fun e => e.outcome.isFinal).map fun e => (e.ctx, e.outcome) := hrun
          simp only [htick, hrest, List.filter_append, List.map_append, List.filter_map]
          rfl

/-- A call that waits through some ticks takes a turn in each of them. -/
theorem length_ticked {r : Record} (h : r.Valid) {id : CallId} (ticks : Nat)
    (hw : (r.ticked ticks).session.waiting id ≠ none) :
    r.session.waiting id ≠ none ∧
      (eventsOf id r.events).length + ticks = (eventsOf id (r.ticked ticks).events).length := by
  induction ticks generalizing r with
  | zero => exact ⟨hw, rfl⟩
  | succ ticks ih =>
      rcases ih (valid_operate h .tick) hw with ⟨hwaits, hlength⟩
      have hevents : (eventsOf id (r.operate .tick).events).length =
          (eventsOf id r.events).length + (eventsOf id (r.session.events .tick)).length := by
        rw [← List.length_append, ← eventsOf_append]
        rfl
      have hchange := Session.change h.sound .tick id
      generalize eventsOf id (r.session.events .tick) = happened at hchange hevents
      cases hchange with
      | untouched _ hwaiting hidle =>
          -- A tick passes over no call that waits.
          exact absurd (hwaiting.trans (hidle rfl)) hwaits
      | @advanced _ c _ _ _ _ _ hwaiting _ _ _ =>
          rw [hwaiting]
          rw [List.length_singleton] at hevents
          refine ⟨Option.some_ne_none c, ?_⟩
          rw [ticked, ← hlength, hevents]
          omega
      | dropped hdrops _ _ _ => exact Bool.noConfusion hdrops

end Record

/-! ## The end of a call -/

-- With nothing pending, no call waits.
theorem Session.waiting_of_size_eq_zero {s : Session} (h : s.dispatcher.pending.size = 0)
    (id : CallId) : s.waiting id = none := by
  cases hw : s.waiting id with
  | none => rfl
  | some c =>
      have hmem : id ∈ s.dispatcher.pending.ids := Table.mem_keys_iff.mpr ⟨c, hw⟩
      have hlength : s.dispatcher.pending.ids.length = s.dispatcher.pending.size :=
        List.length_map ..
      rw [List.eq_nil_of_length_eq_zero (hlength.trans h)] at hmem
      exact absurd hmem List.not_mem_nil

namespace Record

variable {r : Record} {call call' : Call} {events : List Event}

/-- A call that is over has come to what it came to anywhere else. -/
theorem Tells.result?_of_over (htells : r.Tells call')
    (hplain : r.session.dispatcher.catalog.Plain)
    (h : Told r.session.dispatcher.catalog call events none)
    (hprocedure : call'.procedure = call.procedure)
    (harguments : call'.arguments = call.arguments)
    (hover : r.session.waiting call'.ctx.call = none) :
    (finals call'.ctx.call r.events).head?.bind Outcome.result? = Told.outcome? events := by
  have hcourse := htells.course
  rw [hover] at hcourse
  rcases hcourse.finals_of_over rfl with ⟨o, ho, houtcome⟩
  have honly : finals call'.ctx.call r.events = [o] := ho
  rw [honly, h.outcome?_of_over hcourse hplain hprocedure harguments, houtcome]
  rfl

/-- A call is over after as many ticks as it took turns anywhere else. -/
theorem Tells.over_ticked (hvalid : r.Valid) (htells : r.Tells call')
    (hplain : r.session.dispatcher.catalog.Plain)
    (h : Told r.session.dispatcher.catalog call events none)
    (hprocedure : call'.procedure = call.procedure)
    (harguments : call'.arguments = call.arguments)
    {ticks : Nat} (hticks : events.length ≤ ticks) :
    (r.ticked ticks).session.waiting call'.ctx.call = none := by
  by_cases hw : (r.ticked ticks).session.waiting call'.ctx.call = none
  · exact hw
  · -- It would have had a turn in each of the ticks, which is more than it needs.
    have hlength := (length_ticked hvalid ticks hw).2
    have hcourse := (tells_ticked hvalid htells ticks).course
    rw [catalog_ticked hvalid ticks] at hcourse
    have hshort := h.length_lt_of_over hcourse hplain hprocedure harguments hw
    omega

end Record

/-! ## The two ways of an evaluation -/

section

variable (catalog : Catalog) (config : ServerConfig) (world : World) (connection : ConnectionId)
  (wire : ProcedureCall)

/-- A dispatcher after the call that it was set up for was dispatched, with what
    happened. -/
def solo : Record :=
  ({ session := .fresh catalog config world } : Record).call connection wire.qualifiedName
    wire.arguments

/-- What dispatching the call came to. -/
def soloResult : Outcome × Dispatcher :=
  ({ session := .fresh catalog config world } : Record).callResult connection wire.qualifiedName
    wire.arguments

theorem valid_solo : (solo catalog config world connection wire).Valid :=
  Record.valid_call (Record.valid_fresh catalog config world) _ _ _

theorem tells_solo :
    (solo catalog config world connection wire).Tells (.ofWire ⟨1, connection⟩ wire) :=
  tells_call (Record.valid_fresh catalog config world) connection wire.qualifiedName
    wire.arguments rfl

theorem catalog_solo :
    (solo catalog config world connection wire).session.dispatcher.catalog = catalog :=
  (Session.kept_perform (Record.valid_operate (Record.valid_fresh catalog config world)
    (.issue connection)).sound _).catalog

/-- The call is over with what dispatching it came to, or it waits. -/
theorem call_ends_solo :
    ((soloResult catalog config world connection wire).1.isFinal = true ∧
      finals 1 (solo catalog config world connection wire).events =
        [(soloResult catalog config world connection wire).1]) ∨
    ((soloResult catalog config world connection wire).1 = .continuing 1 ∧
      (solo catalog config world connection wire).session.waiting 1 ≠ none) := by
  rcases Record.call_ends (Record.valid_fresh catalog config world) connection
    wire.qualifiedName wire.arguments with hover | ⟨hcontinuing, c, hwaits, _⟩
  · exact Or.inl hover
  · exact Or.inr ⟨hcontinuing, Option.ne_none_iff_exists'.mpr ⟨c, hwaits⟩⟩

variable {catalog config world connection wire}

theorem evaluate_eq (ticks : Nat) :
    evaluate catalog config world connection wire ticks =
      match (soloResult catalog config world connection wire).1 with
      | .continuing id =>
        (((soloResult catalog config world connection wire).2.run ticks).1.2.find?
          fun report => report.1.call == id).bind fun report => report.2.result?
      | outcome => outcome.result? := rfl

theorem evaluate_of_final
    (h : (soloResult catalog config world connection wire).1.isFinal = true) (ticks : Nat) :
    evaluate catalog config world connection wire ticks =
      (soloResult catalog config world connection wire).1.result? := by
  rw [evaluate_eq]
  cases houtcome : (soloResult catalog config world connection wire).1 with
  | completed value => rfl
  | continuing id =>
      rw [houtcome] at h
      exact Bool.noConfusion h
  | failed error => rfl

/-- A call that waits is evaluated to its only final outcome, as soon as there
    is one. -/
theorem evaluate_of_continuing
    (h : (soloResult catalog config world connection wire).1 = .continuing 1) (ticks : Nat)
    (hw : (solo catalog config world connection wire).session.waiting 1 ≠ none) :
    ∃ k, (k = ticks ∨
        ((solo catalog config world connection wire).ticked k).session.waiting 1 = none) ∧
      evaluate catalog config world connection wire ticks =
        (finals 1 ((solo catalog config world connection wire).ticked k).events).head?.bind
          Outcome.result? := by
  rcases Record.run_ticked (solo catalog config world connection wire) ticks with
    ⟨k, later, hends, hevents, hrun⟩
  refine ⟨k, ?_, ?_⟩
  · rcases hends with heq | hempty
    · exact Or.inl heq
    · exact Or.inr (Session.waiting_of_size_eq_zero hempty 1)
  · rcases Option.ne_none_iff_exists'.mp hw with ⟨c, hc⟩
    have hnone := ((valid_solo catalog config world connection wire).accounted 1).waiting hc
    have hafter : (solo catalog config world connection wire).session.dispatcher =
        (soloResult catalog config world connection wire).2 := Record.call_dispatcher ..
    rw [hevents, finals_append, hnone, List.nil_append, ← find?_reports, ← hrun, hafter,
      Option.bind_map, evaluate_eq, h]
    rfl

end

/-- A call that came to an end anywhere comes to the same end by itself. -/
theorem evaluate_of_told {catalog : Catalog} (hplain : catalog.Plain) {call : Call}
    {events : List Event} (h : Told catalog call events none) {wire : ProcedureCall}
    (hprocedure : wire.qualifiedName = call.procedure)
    (harguments : wire.arguments = call.arguments) (config : ServerConfig) (world : World)
    (connection : ConnectionId) {ticks : Nat} (hticks : events.length ≤ ticks) :
    evaluate catalog config world connection wire ticks = Told.outcome? events := by
  have hvalid := valid_solo catalog config world connection wire
  have htells := tells_solo catalog config world connection wire
  have hends := call_ends_solo catalog config world connection wire
  have hcatalog := catalog_solo catalog config world connection wire
  have hevaluated := @evaluate_of_continuing catalog config world connection wire
  have hfinished := @evaluate_of_final catalog config world connection wire
  -- From here on only the record after the call was dispatched matters.
  generalize solo catalog config world connection wire = r at *
  rw [← hcatalog] at hplain h
  rcases hends with ⟨hfinal, honly⟩ | ⟨hcontinuing, hw⟩
  · have hover : r.session.waiting 1 = none := (hvalid.accounted 1).over honly
    have hresult : (finals 1 r.events).head?.bind Outcome.result? = Told.outcome? events :=
      htells.result?_of_over hplain h hprocedure harguments hover
    rw [hfinished hfinal, ← hresult, honly]
    rfl
  · rcases hevaluated hcontinuing ticks hw with ⟨k, hends, hevaluate⟩
    have hover : (r.ticked k).session.waiting 1 = none := by
      rcases hends with rfl | hover
      · exact htells.over_ticked hvalid hplain h hprocedure harguments hticks
      · exact hover
    have htells' := Record.tells_ticked hvalid htells k
    rw [← Record.catalog_ticked hvalid k] at hplain h
    rw [hevaluate]
    exact htells'.result?_of_over hplain h hprocedure harguments hover

end Switchboard
