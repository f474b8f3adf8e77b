import Switchboard.Proofs.Coercion.Sightings
import Switchboard.Proofs.Dispatcher.Session
import Switchboard.Proofs.Objects.Extension

/-!
# Where Live Objects Come From

Every live object was entered once, in some turn of some call, when what the handler
had given back was written and the writing came across an instance that was not live.
From then on the entry keeps its instance and its class, whatever else is done, until
it is removed.

So a live object can be traced back. One table stems from another if whatever is live
in the second is live in the first, unless it was made in between, and what was made
in between is a parameter. Such steps compose, and so a run is traced by its
operations, a tick by the turns in it, and a turn by the instances that its writing
comes across. Each number is made once, because what a step makes has the numbers
that are given out in it and the steps follow one another.

## Main definitions

* `ObjectTable.Makes`, `ObjectTable.MakesAmong`: Entering instances makes an entry.
* `ObjectTable.Stems`: What is live, and what was made.
* `Session.turns`: The turns in an operation.
* `Dispatcher.Creates`: A turn in which an entry is made.
* `Session.Created`: A run in which an entry is made.

## Theorems

* `Stems.enterAll`: What entering several instances makes.
* `step_stems`, `perform_stems`: What is made in a turn and in an operation.
* `replay_stems`: Everything live in a run was live before or was made in it.
* `runs_events`: The turns are those that are recorded.
-/

namespace Switchboard

/-! ## Tables -/

namespace ObjectTable

/-- Entering an instance for a connection makes a new entry under a number. -/
structure Makes (t : ObjectTable) (owner : ConnectionId) (id : ObjectId) (seen : Sighting) :
    Prop where
  unknown : t.entryOf? seen.object = none
  next : t.nextId = id
  entry : (t.register seen.object seen.key owner).2.entries.get? id =
    some ⟨seen.object, seen.key, .of owner⟩

/-- What is live once an instance was entered was live before, or is the new entry of an
    instance that was not. -/
theorem live_of_register {t : ObjectTable} {object : Instance} {className : String}
    {owner : ConnectionId} {id : ObjectId} {entry : ObjectEntry}
    (h : (t.register object className owner).2.entries.get? id = some entry) :
    (∃ entry₀, t.entries.get? id = some entry₀ ∧ entry₀.object = entry.object ∧
      entry₀.className = entry.className) ∨
    t.entryOf? object = none ∧ t.nextId = id ∧ entry = ⟨object, className, .of owner⟩ := by
  cases hfound : t.entryOf? object with
  | some found =>
      rcases found with ⟨known, entry₀⟩
      have hlive := (entryOf?_eq_some_iff.mp hfound).2
      rw [register_known hfound] at h
      left
      split at h
      · exact ⟨entry, h, rfl, rfl⟩
      · -- The entry that is found gains an owner; the others stay as they are.
        rw [Table.get?_insert] at h
        split at h
        next hid => exact ⟨entry₀, hid ▸ hlive, Option.some.inj h ▸ ⟨rfl, rfl⟩⟩
        next => exact ⟨entry, h, rfl, rfl⟩
  | none =>
      rw [register_new hfound] at h
      split at h
      · exact .inl ⟨entry, h, rfl, rfl⟩
      · rw [Table.get?_insert] at h
        split at h
        next hid => exact .inr ⟨rfl, hid.symm, (Option.some.inj h).symm⟩
        next => exact .inl ⟨entry, h, rfl, rfl⟩

/-- Entering several instances makes an entry when it comes to one of them. -/
def MakesAmong (t : ObjectTable) (owner : ConnectionId) (seen : List Sighting) (id : ObjectId)
    (next : Sighting) : Prop :=
  ∃ before after, seen = before ++ next :: after ∧ (t.enterAll owner before).Makes owner id next

theorem not_makesAmong_nil (t : ObjectTable) (owner : ConnectionId) (id : ObjectId)
    (next : Sighting) : ¬t.MakesAmong owner [] id next := by
  rintro ⟨before, after, hsplit, -⟩
  exact List.append_ne_nil_of_right_ne_nil before (List.cons_ne_nil next after) hsplit.symm

theorem makesAmong_cons_iff {t : ObjectTable} {owner : ConnectionId} {first next : Sighting}
    {rest : List Sighting} {id : ObjectId} :
    t.MakesAmong owner (first :: rest) id next ↔
      (next = first ∧ t.Makes owner id first) ∨
        (t.register first.object first.key owner).2.MakesAmong owner rest id next := by
  constructor
  · rintro ⟨before, after, hsplit, hmakes⟩
    rcases List.cons_eq_append_iff.mp hsplit with ⟨rfl, hhere⟩ | ⟨before', rfl, hlater⟩
    · rw [List.cons.injEq] at hhere
      exact .inl ⟨hhere.1, hhere.1 ▸ hmakes⟩
    · exact .inr ⟨before', after, hlater, hmakes⟩
  · rintro (⟨rfl, hmakes⟩ | ⟨before, after, rfl, hmakes⟩)
    · exact ⟨[], rest, rfl, hmakes⟩
    · exact ⟨first :: before, after, rfl, hmakes⟩

/-- What is made is made as well if there is more to enter after it. -/
theorem MakesAmong.of_isPrefix {t : ObjectTable} {owner : ConnectionId}
    {entered seen : List Sighting} {id : ObjectId} {next : Sighting}
    (h : t.MakesAmong owner entered id next) (hstart : entered <+: seen) :
    t.MakesAmong owner seen id next := by
  rcases h with ⟨before, after, rfl, hmakes⟩
  rcases hstart with ⟨rest, rfl⟩
  exact ⟨before, after ++ rest, List.append_assoc .., hmakes⟩

/-- The second table comes from the first, and the entries made in between are those
    given, with the sightings they were made from. -/
structure Stems (t t' : ObjectTable) (made : ObjectId → Sighting → Prop) : Prop where
  /-- Whatever is live in the end was live at first, under the same number with the same
      instance and the same class, or was made from its instance at its class. -/
  traced : ∀ id entry, t'.entries.get? id = some entry →
    (∃ entry₀, t.entries.get? id = some entry₀ ∧ entry₀.object = entry.object ∧
      entry₀.className = entry.className) ∨
    ∃ seen, made id seen ∧ seen.object = entry.object ∧ seen.key = entry.className
  rising : t.nextId ≤ t'.nextId
  /-- The numbers are those given out in between. -/
  fresh : ∀ id seen, made id seen → t.nextId ≤ id ∧ id < t'.nextId
  /-- Under one number one entry is made. -/
  once : ∀ id seen seen', made id seen → made id seen' → seen = seen'

namespace Stems

variable {t t' t'' : ObjectTable} {made made' : ObjectId → Sighting → Prop}

/-- Nothing is made where everything was live before. -/
theorem of_keeps (h : t'.Keeps t) (hnext : t'.nextId = t.nextId)
    (hmade : ∀ id seen, ¬made id seen) : t.Stems t' made where
  traced id entry hentry := .inl (h id entry hentry)
  rising := Nat.le_of_eq hnext.symm
  fresh id seen hseen := absurd hseen (hmade id seen)
  once id seen _ hseen _ := absurd hseen (hmade id seen)

theorem refl (t : ObjectTable) (hmade : ∀ id seen, ¬made id seen) : t.Stems t made :=
  of_keeps (.refl t) rfl hmade

theorem congr (h : t.Stems t' made) (hmade : ∀ id seen, made' id seen ↔ made id seen) :
    t.Stems t' made' := by
  obtain rfl : made' = made := funext₂ fun id seen => propext (hmade id seen)
  exact h

theorem trans (h : t.Stems t' made) (h' : t'.Stems t'' made') :
    t.Stems t'' fun id seen => made id seen ∨ made' id seen where
  traced := by
    intro id entry hentry
    rcases h'.traced id entry hentry with ⟨entry', hentry', hobject, hclass⟩ | hlater
    · -- It was live in between, and is traced back from there.
      rw [← hobject, ← hclass]
      rcases h.traced id entry' hentry' with hbefore | ⟨seen, hseen, hsame⟩
      · exact .inl hbefore
      · exact .inr ⟨seen, .inl hseen, hsame⟩
    · rcases hlater with ⟨seen, hseen, hsame⟩
      exact .inr ⟨seen, .inr hseen, hsame⟩
  rising := Nat.le_trans h.rising h'.rising
  fresh := by
    rintro id seen (hseen | hseen)
    · exact ⟨(h.fresh id seen hseen).1, Nat.lt_of_lt_of_le (h.fresh id seen hseen).2 h'.rising⟩
    · exact ⟨Nat.le_trans h.rising (h'.fresh id seen hseen).1, (h'.fresh id seen hseen).2⟩
  once := by
    -- The numbers of the first part are below those of the second.
    have hapart : ∀ id seen seen', made id seen → ¬made' id seen' := fun id seen seen' h₁ h₂ =>
      Nat.not_lt.mpr (h'.fresh id seen' h₂).1 (h.fresh id seen h₁).2
    rintro id seen seen' (hseen | hseen) (hseen' | hseen')
    · exact h.once id seen seen' hseen hseen'
    · exact absurd hseen' (hapart id seen seen' hseen)
    · exact absurd hseen (hapart id seen' seen hseen')
    · exact h'.once id seen seen' hseen hseen'

theorem register (t : ObjectTable) (seen : Sighting) (owner : ConnectionId) :
    t.Stems (t.register seen.object seen.key owner).2 fun id next =>
      next = seen ∧ t.Makes owner id seen where
  traced := by
    intro id entry hentry
    rcases live_of_register hentry with hbefore | ⟨hunknown, hnext, rfl⟩
    · exact .inl hbefore
    · exact .inr ⟨seen, ⟨rfl, hunknown, hnext, hentry⟩, rfl, rfl⟩
  rising := nextId_le_perform t (.register seen.object seen.key owner)
  fresh := by
    rintro id next ⟨-, hmakes⟩
    refine ⟨Nat.le_of_eq hmakes.next, ?_⟩
    rw [register_new hmakes.unknown, ← hmakes.next]
    split <;> exact Nat.lt_succ_self _
  once := fun _ _ _ h h' => h.1.trans h'.1.symm

/-- What entering several instances makes is made by one of them, after those before
    it have been entered. -/
theorem enterAll (t : ObjectTable) (owner : ConnectionId) (seen : List Sighting) :
    t.Stems (t.enterAll owner seen) (t.MakesAmong owner seen) := by
  induction seen generalizing t with
  | nil => exact refl t (t.not_makesAmong_nil owner)
  | cons first rest ih =>
      exact ((register t first owner).trans (ih _)).congr fun _ _ => makesAmong_cons_iff

end Stems

/-- A release makes nothing. -/
theorem keeps_of_release (t : ObjectTable) (id : ObjectId) : (t.release id).2.Keeps t := by
  intro k entry hentry
  rw [release_eq] at hentry
  cases hlive : t.entries.get? id with
  | none =>
      rw [hlive] at hentry
      exact ⟨entry, hentry, rfl, rfl⟩
  | some released =>
      rw [hlive] at hentry
      simp only [get?_drop] at hentry
      split at hentry
      · cases hentry
      · exact ⟨entry, hentry, rfl, rfl⟩

theorem release_nextId (t : ObjectTable) (id : ObjectId) : (t.release id).2.nextId = t.nextId := by
  rw [release_eq]
  cases t.entries.get? id <;> rfl

/-- A disconnect makes nothing. -/
theorem keeps_of_releaseOwner (t : ObjectTable) (owner : ConnectionId) :
    (t.releaseOwner owner).2.Keeps t := by
  intro id entry hentry
  rw [get?_releaseOwner, Option.map_eq_some_iff] at hentry
  rcases hentry with ⟨entry₀, hlive, rfl⟩
  exact ⟨entry₀, (Option.filter_eq_some_iff.mp hlive).1, rfl, rfl⟩

end ObjectTable

/-! ## Turns -/

namespace Dispatcher

/-- A turn makes an entry: the handler finished, and writing what it gave back came
    across an instance that was not live, at a class that the signature names there. -/
def Creates (d : Dispatcher) (p : Turn) (id : ObjectId) (seen : Sighting) : Prop :=
  ∃ value entered,
    (d.handled p).result = .ok (.complete value) ∧
    entered <+: p.descriptor.procedure.sightings value ∧
    (d.step p).2.objects = d.objects.enterAll p.ctx.connection entered ∧
    d.objects.MakesAmong p.ctx.connection entered id seen

theorem Creates.mem_namedTypes {d : Dispatcher} {p : Turn} {id : ObjectId} {seen : Sighting}
    (h : d.Creates p id seen) :
    Ty.instanceOf seen.service seen.name ∈ p.descriptor.procedure.namedTypes := by
  rcases h with ⟨value, entered, -, hstart, -, before, after, rfl, -⟩
  refine Procedure.mem_namedTypes_of_mem_sightings (hstart.subset ?_)
  exact List.mem_append_right _ List.mem_cons_self

/-- A step leaves the live objects alone unless a value is written. -/
theorem step_objects (d : Dispatcher) (p : Turn) :
    (d.step p).2.objects = d.objects ∨
      ∃ value, (d.handled p).result = .ok (.complete value) ∧
        (d.step p).2.objects = ((writeReturn d.catalog.services p value).run.run d.objects).2 := by
  rcases step_concludes d p with ⟨next, objects', hconcludes, hbecame⟩
  rw [hbecame.objects]
  generalize (d.handled p).result = result at hconcludes
  generalize (d.step p).1 = outcome at hconcludes
  cases hconcludes with
  | interrupted | parked | disconnected | notBlocking => exact .inl rfl
  | completed hwritten => exact .inr ⟨_, rfl, (congrArg Prod.snd hwritten).symm⟩
  | unwritable hwritten => exact .inr ⟨_, rfl, (congrArg Prod.snd hwritten).symm⟩

theorem step_stems (d : Dispatcher) (p : Turn) :
    d.objects.Stems (d.step p).2.objects (d.Creates p) := by
  have hfresh : ∀ id seen, d.Creates p id seen →
      d.objects.nextId ≤ id ∧ id < (d.step p).2.objects.nextId := by
    rintro id seen ⟨value, entered, -, -, hobjects, hmakes⟩
    rw [hobjects]
    exact (ObjectTable.Stems.enterAll d.objects p.ctx.connection entered).fresh id seen hmakes
  have honce : ∀ id seen seen', d.Creates p id seen → d.Creates p id seen' → seen = seen' := by
    rintro id seen seen' ⟨value, entered, hresult, hstart, -, hmakes⟩
      ⟨value', entered', hresult', hstart', -, hmakes'⟩
    -- Both are made in writing the one value that the handler gave back.
    rw [hresult, Except.ok.injEq, Step.complete.injEq] at hresult'
    rw [← hresult'] at hstart'
    exact (ObjectTable.Stems.enterAll d.objects p.ctx.connection _).once id seen seen'
      (hmakes.of_isPrefix hstart) (hmakes'.of_isPrefix hstart')
  rcases step_objects d p with hsame | ⟨value, hresult, hobjects⟩
  · rw [hsame] at hfresh ⊢
    exact ⟨fun _ entry hentry => .inl ⟨entry, hentry, rfl, rfl⟩, Nat.le_refl _, hfresh, honce⟩
  · rcases writeReturn_along d.catalog.services p value d.objects with
      ⟨entered, hstart, htable⟩
    rw [htable] at hobjects
    have hstems := ObjectTable.Stems.enterAll d.objects p.ctx.connection entered
    rw [← hobjects] at hstems
    refine ⟨fun id entry hentry => ?_, hstems.rising, hfresh, honce⟩
    rcases hstems.traced id entry hentry with hbefore | ⟨seen, hmakes, hsame⟩
    · exact .inl hbefore
    · exact .inr ⟨seen, ⟨value, entered, hresult, hstart, hobjects, hmakes⟩, hsame⟩

/-- The turn of a call that is dispatched, with the dispatcher that gives it. -/
def dispatchTurn? (d : Dispatcher) (call : Call) : Option (Dispatcher × Turn) :=
  (d.prepare call).toOption.map fun p => (d.countDispatch, p)

/-- The turn of a call that is advanced, if it waits. -/
def advanceTurn? (d : Dispatcher) (id : CallId) : Option (Dispatcher × Turn) :=
  (d.pending.waiting.get? id).map fun c => ((d.without id).countResume, c.turn)

/-- The turns of calls that are advanced one after the other. -/
def advanceTurns (d : Dispatcher) : List CallId → List (Dispatcher × Turn)
  | [] => []
  | id :: rest => (d.advanceTurn? id).toList ++ (d.advance id).2.advanceTurns rest

/-- An entry is made in one of some turns. -/
def CreatedIn (turns : List (Dispatcher × Turn)) (id : ObjectId) (seen : Sighting) : Prop :=
  ∃ taken ∈ turns, taken.1.Creates taken.2 id seen

theorem not_createdIn_nil (id : ObjectId) (seen : Sighting) : ¬CreatedIn [] id seen := by
  rintro ⟨taken, htaken, -⟩
  exact absurd htaken List.not_mem_nil

theorem createdIn_singleton_iff {d : Dispatcher} {p : Turn} {id : ObjectId} {seen : Sighting} :
    CreatedIn [(d, p)] id seen ↔ d.Creates p id seen := by
  simp only [CreatedIn, List.mem_singleton, exists_eq_left]

theorem createdIn_append_iff {turns later : List (Dispatcher × Turn)} {id : ObjectId}
    {seen : Sighting} :
    CreatedIn (turns ++ later) id seen ↔ CreatedIn turns id seen ∨ CreatedIn later id seen := by
  simp only [CreatedIn, List.mem_append, or_and_right, exists_or]

theorem dispatch_stems (d : Dispatcher) (call : Call) :
    d.objects.Stems (d.dispatch call).2.objects (CreatedIn (d.dispatchTurn? call).toList) := by
  have hcounted : d.countDispatch.prepare call = d.prepare call := rfl
  unfold dispatch dispatchTurn?
  simp only [hcounted, countOutcome_objects]
  cases d.prepare call with
  | error e => exact .refl _ not_createdIn_nil
  | ok p => exact (step_stems d.countDispatch p).congr fun _ _ => createdIn_singleton_iff

theorem advance_stems (d : Dispatcher) (id : CallId) :
    d.objects.Stems (d.advance id).2.objects (CreatedIn (d.advanceTurn? id).toList) := by
  unfold advance advanceTurn? PendingCalls.take
  cases d.pending.waiting.get? id with
  | none => exact .refl _ not_createdIn_nil
  | some c =>
      simp only [countOutcome_objects]
      exact (step_stems (d.without id).countResume c.turn).congr fun _ _ =>
        createdIn_singleton_iff

theorem advanceAll_stems (d : Dispatcher) (ids : List CallId) :
    d.objects.Stems (d.advanceAll ids).2.objects (CreatedIn (d.advanceTurns ids)) := by
  induction ids generalizing d with
  | nil => exact .refl _ not_createdIn_nil
  | cons id rest ih =>
      exact ((advance_stems d id).trans (ih _)).congr fun _ _ => createdIn_append_iff

end Dispatcher

/-- The runs of handlers are those of the turns. -/
theorem Dispatcher.runs_advanceEvents (d : Dispatcher) (ids : List CallId) :
    (d.advanceEvents ids).filterMap Event.run =
      (d.advanceTurns ids).map fun taken => taken.1.handled taken.2 := by
  induction ids generalizing d with
  | nil => rfl
  | cons id rest ih =>
      rw [advanceEvents, advanceTurns, List.filterMap_append, List.map_append, ih]
      unfold advanceEvent? advanceTurn?
      cases d.pending.waiting.get? id <;> rfl

/-! ## Runs -/

namespace Session

open Dispatcher

/-- The turns in an operation, each with the dispatcher that gives it. -/
def turns (s : Session) : Operation → List (Dispatcher × Turn)
  | .dispatch id procedure arguments =>
    ((s.callOf? id procedure arguments).bind s.dispatcher.dispatchTurn?).toList
  | .tick => s.dispatcher.countTick.advanceTurns s.dispatcher.pending.ids
  | .resume id => (s.dispatcher.advanceTurn? id).toList
  | _ => []

/-- In the course of some operations an entry is made. -/
def Created (s : Session) (operations : List Operation) (id : ObjectId) (seen : Sighting) : Prop :=
  ∃ before op after, operations = before ++ op :: after ∧
    CreatedIn ((s.replay before).turns op) id seen

theorem not_created_nil (s : Session) {id : ObjectId} {seen : Sighting} :
    ¬s.Created [] id seen := by
  rintro ⟨before, op, after, hsplit, -⟩
  exact List.append_ne_nil_of_right_ne_nil before (List.cons_ne_nil op after) hsplit.symm

theorem created_cons_iff {s : Session} {op : Operation} {rest : List Operation} {id : ObjectId}
    {seen : Sighting} :
    s.Created (op :: rest) id seen ↔
      CreatedIn (s.turns op) id seen ∨ (s.perform op).Created rest id seen := by
  constructor
  · rintro ⟨before, op', after, hsplit, hcreated⟩
    rcases List.cons_eq_append_iff.mp hsplit with ⟨rfl, hhere⟩ | ⟨before', rfl, hlater⟩
    · rw [List.cons.injEq] at hhere
      exact .inl (hhere.1 ▸ hcreated)
    · exact .inr ⟨before', op', after, hlater, hcreated⟩
  · rintro (hcreated | ⟨before, op', after, rfl, hcreated⟩)
    · exact ⟨[], op, rest, rfl, hcreated⟩
    · exact ⟨op :: before, op', after, rfl, hcreated⟩

/-- What is recorded of an operation are the runs of the handlers in its turns. -/
theorem runs_events (s : Session) (op : Operation) :
    (s.events op).filterMap Event.run =
      (s.turns op).map fun taken => taken.1.handled taken.2 := by
  cases op with
  | issue | release | disconnect | discard | alter | report => rfl
  | dispatch id procedure arguments =>
      simp only [events, turns]
      cases s.callOf? id procedure arguments with
      | none => rfl
      | some call =>
          simp only [Option.map_some, Option.bind_some, Option.toList_some, dispatchEvent,
            dispatchTurn?]
          cases s.dispatcher.prepare call <;> rfl
  | tick => exact s.dispatcher.countTick.runs_advanceEvents s.dispatcher.pending.ids
  | resume id =>
      simp only [events, turns, advanceEvent?, advanceTurn?]
      cases s.dispatcher.pending.waiting.get? id <;> rfl

theorem perform_stems (s : Session) (op : Operation) :
    s.dispatcher.objects.Stems (s.perform op).dispatcher.objects (CreatedIn (s.turns op)) := by
  cases op with
  | issue | discard | alter | report => exact .refl _ not_createdIn_nil
  | dispatch id procedure arguments =>
      simp only [perform, turns]
      cases s.callOf? id procedure arguments with
      | none => exact .refl _ not_createdIn_nil
      | some call => exact dispatch_stems s.dispatcher call
  | tick => exact advanceAll_stems s.dispatcher.countTick s.dispatcher.pending.ids
  | resume id => exact advance_stems s.dispatcher id
  | release id =>
      exact .of_keeps (s.dispatcher.objects.keeps_of_release id)
        (s.dispatcher.objects.release_nextId id) not_createdIn_nil
  | disconnect connection =>
      exact .of_keeps (s.dispatcher.objects.keeps_of_releaseOwner connection)
        (s.dispatcher.objects.releaseOwner_nextId connection) not_createdIn_nil

/-- What is live after some operations was live before them or was made in their
    course, and under one number at most one entry was made. -/
theorem replay_stems (s : Session) (operations : List Operation) :
    s.dispatcher.objects.Stems (s.replay operations).dispatcher.objects (s.Created operations) := by
  induction operations generalizing s with
  | nil => exact .refl _ fun _ _ => s.not_created_nil
  | cons op rest ih =>
      exact ((perform_stems s op).trans (ih _)).congr fun _ _ => created_cons_iff

end Session

end Switchboard
