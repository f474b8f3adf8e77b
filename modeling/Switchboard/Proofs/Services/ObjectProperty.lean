import Switchboard.Proofs.Coercion.Echo
import Switchboard.Proofs.Dispatcher.Transcript
import Switchboard.Proofs.Services.Memory

/-!
# What the Object Property Gives Back

An object that was given to another is remembered as itself and not by a number. It may be
released meanwhile, or its last owner may disconnect, and then it has no number, or it may
have been given back by another procedure and have a new one. When the getter gives it back it
is entered if it is not live. So the client gets the number that the object has, and otherwise
a new one, which leads to the very same object.

What the getter gives back is what the object was given last. This is a matter of the history:
of the calls of the setter that were completed, those on the same object count, under whatever
number it had at the time, and the last one decides. Calls on other objects do not count, and
neither do calls that failed.

## Main definitions

* `Session.Serving`: What the accessors need of a session.
* `Session.AsksFor`: Arguments of a call of the setter.
* `Session.GivesBack`: The number of an object that is given back.

## Theorems

* `getter_step`, `setter_step`: One step of an accessor.
* `givesBack_register`: The number that an object is entered under.
* `Serving.writes`, `Serving.reads`: Calls of the accessors.
* `property_assigned_and_given`: What the accessors do in a session.
-/

namespace Switchboard

namespace Fixture

variable {made : List String} {assignments : List Assignment} {d : Dispatcher} {p : Turn}
  {this i : Instance}

/-! ## One call of the getter -/

/-- What answers to the name of the getter. -/
def getterEntry : Descriptor where
  qualifiedName := "TestService.TestClass_get_ObjectProperty"
  service := serviceName
  procedure := (Offer.classGetter testClass objectProperty).published serviceName
  handler := getObjectProperty

/-- The getter finishes with what is remembered for the object. -/
theorem getObjectProperty_react {inv : Invocation} (hthis : this.MadeIn made)
    (harguments : inv.arguments = [.object this]) (w : World) :
    getObjectProperty.react inv w =
      (.ok (.value ((w.fixture.objectProperties.get? this.address).elim .null .object)), w) := by
  rcases hthis with ⟨text, -, hpayload⟩
  rcases inv with ⟨ctx, procedure, services, snapshot, arguments, progress⟩
  rcases this with ⟨address, payload⟩
  obtain rfl : payload = .fixture text := hpayload
  obtain rfl : arguments = [.object ⟨address, .fixture text⟩] := harguments
  rfl

/-- A step of the getter changes nothing before it is concluded. -/
theorem getter_step (hentry : p.descriptor = getterEntry) (hthis : this.MadeIn made)
    (harguments : p.arguments = [.object this]) :
    d.step p = d.conclude p
      (.ok (.value ((d.world.fixture.objectProperties.get? this.address).elim .null .object))) := by
  have hreact : p.descriptor.handler.react (d.handled p).invocation d.world =
      (.ok (.value ((d.world.fixture.objectProperties.get? this.address).elim .null .object)),
        d.world) := by
    rw [hentry]
    exact getObjectProperty_react hthis harguments d.world
  have hrun : d.runStep p = (.ok (.value
      ((d.world.fixture.objectProperties.get? this.address).elim .null .object)), d) := by
    rw [Dispatcher.runStep_eq]
    change ((p.descriptor.handler.react (d.handled p).invocation d.world).1,
      { d with world := (p.descriptor.handler.react (d.handled p).invocation d.world).2 }) = _
    rw [hreact]
  rw [Dispatcher.step, hrun]

/-- Of an object that has no property it gives null. -/
theorem getter_step_none (hentry : p.descriptor = getterEntry) (hthis : this.MadeIn made)
    (harguments : p.arguments = [.object this])
    (hnone : d.world.fixture.objectProperties.get? this.address = none) :
    (d.step p).1 = .completed (some .null) := by
  rw [getter_step hentry hthis harguments, hnone]
  rcases p with ⟨descriptor, ctx, arguments, progress, steps⟩
  subst hentry
  rfl

/-- Of any other it gives the number that its property is entered under. -/
theorem getter_step_some (hentry : p.descriptor = getterEntry) (hthis : this.MadeIn made)
    (harguments : p.arguments = [.object this])
    (hsome : d.world.fixture.objectProperties.get? this.address = some i) :
    (d.step p).1 = .completed (some (.object
        (d.objects.register i className p.ctx.connection).1.id)) ∧
      (d.step p).2.objects =
        (d.objects.register i className p.ctx.connection).2 := by
  rw [getter_step hentry hthis harguments, hsome]
  rcases p with ⟨descriptor, ctx, arguments, progress, steps⟩
  subst hentry
  exact ⟨rfl, rfl⟩

/-! ## One call of the setter -/

/-- What answers to the name of the setter. -/
def setterEntry : Descriptor where
  qualifiedName := setterName
  service := serviceName
  procedure := (Offer.classSetter testClass objectProperty).published serviceName
  handler := setObjectProperty

/-- It is completed if its arguments ask for an assignment, and is that assignment. -/
theorem setter_step {a : Assignment} (hentry : p.descriptor = setterEntry)
    (hinv : (d.handled p).invocation.MadeIn made) (ha : assignment? p.arguments = some a) :
    (d.step p).1 = .completed none ∧ (stepEvent d p).assignment? = some a := by
  rcases setObjectProperty_react hinv d.world with ⟨_, _, hreact⟩ | ⟨hnone, _⟩
  · have hresult : (d.handled p).result = .ok .done := by
      unfold HandlerRun.result
      rw [(Dispatcher.handled_serves d p).handler, hentry]
      exact congrArg Prod.fst hreact
    refine ⟨step_of_done (by rw [hentry]; rfl) hresult, ?_⟩
    rw [assignment?_of_done (by rw [hentry]; rfl) (by rw [hentry]; rfl) hresult, ha]
  · exact nomatch ha.symm.trans hnone

end Fixture

/-! ## The number of an object -/

namespace ObjectTable

variable {t t' : ObjectTable} {made : ObjectId → Sighting → Prop} {i : Instance} {id : ObjectId}

/-- An object that is live keeps its number. -/
theorem Consistent.register_id_of_resolve (h : t.Consistent) (hlive : t.resolve id = .ok i)
    (className : String) (owner : ConnectionId) : (t.register i className owner).1.id = id := by
  rcases resolve_eq_ok_iff.mp hlive with ⟨entry, hentry, rfl⟩
  have haddress := h.address_of_entry id entry hentry
  rw [register_known (entryOf?_eq_some_iff.mpr ⟨haddress, hentry⟩)]

/-- An object that is not live gets the next number. -/
theorem Consistent.register_id_of_not_live (h : t.Consistent) (hadmits : t.Admits i)
    (hgone : ∀ id, t.resolve id ≠ .ok i) (className : String) (owner : ConnectionId) :
    (t.register i className owner).1.id = t.nextId := by
  have hunknown : t.entryOf? i = none := by
    refine Option.eq_none_iff_forall_ne_some.mpr fun found hfound => ?_
    rcases entryOf?_eq_some_iff.mp hfound with ⟨haddress, -⟩
    rcases h.entry_of_address _ _ haddress with ⟨entry, hentry, hsame⟩
    -- Nothing else that is live has the address of the object.
    have hobject := hadmits (found.1, entry) (Table.mem_rows_iff.mpr hentry) hsame
    exact hgone found.1 (resolve_eq_ok_iff.mpr ⟨entry, hentry, hobject⟩)
  rw [register_new hunknown]

/-- A number that is live still leads to the same object. -/
theorem Stems.resolve_of_contains (h : t.Stems t' made) (ht : t.Consistent)
    (hlive : t.resolve id = .ok i) (hstill : t'.contains id = true) : t'.resolve id = .ok i := by
  rcases resolve_eq_ok_iff.mp hlive with ⟨entry₀, hentry₀, rfl⟩
  rcases Option.isSome_iff_exists.mp hstill with ⟨entry, hentry⟩
  rcases h.traced id entry hentry with ⟨entry₁, hentry₁, hobject, -⟩ | ⟨seen, hmade, -⟩
  · rw [hentry₀, Option.some.injEq] at hentry₁
    exact resolve_eq_ok_iff.mpr ⟨entry, hentry, hentry₁ ▸ hobject.symm⟩
  · -- What is made gets a number that was not in use before.
    exact absurd (h.fresh id seen hmade).1 (Nat.not_le.mpr (ht.issued id entry₀ hentry₀).2)

/-- The next number was not in use before. -/
theorem Stems.not_contains_nextId (h : t.Stems t' made) (ht : t.Consistent) :
    t.contains t'.nextId = false := by
  refine Bool.eq_false_iff.mpr fun hlive => ?_
  rcases Option.isSome_iff_exists.mp hlive with ⟨entry, hentry⟩
  exact absurd h.rising (Nat.not_le.mpr (ht.issued _ entry hentry).2)

end ObjectTable

namespace Session

/-- A number leads to an object in the end, and is the one that the object had or, if it had
    none, a new one. -/
structure GivesBack (start : Session) (operations : List Operation) (i : Instance)
    (number : ObjectId) (after : Session) : Prop where
  leads : after.dispatcher.objects.resolve number = .ok i
  /-- If the object is live, it is the number that the object has. -/
  current : ∀ id, (start.replay operations).dispatcher.objects.resolve id = .ok i → number = id
  /-- Any number that the object had at some time is that number, unless it was released
      since. -/
  lasting : ∀ before, before <+: operations → ∀ id,
    (start.replay before).dispatcher.objects.resolve id = .ok i →
      (start.replay operations).dispatcher.objects.contains id = true → number = id
  /-- If the object is not live, it is the next number, which was never in use. -/
  fresh : (∀ id, (start.replay operations).dispatcher.objects.resolve id ≠ .ok i) →
    number = (start.replay operations).dispatcher.objects.nextId ∧
      ∀ before, before <+: operations →
        (start.replay before).dispatcher.objects.contains number = false

/-- An object that is entered for a connection which is there is given back under the number
    that it gets. -/
theorem givesBack_register (catalog : Catalog) (config : ServerConfig) (world : World)
    (operations : List Operation) {connection : ConnectionId} {i : Instance} {className : String}
    {after : Session}
    (hopen : ((fresh catalog config world).replay operations).dispatcher.objects.closed.contains
      connection = false)
    (hadmits : ((fresh catalog config world).replay operations).dispatcher.objects.Admits i)
    (hafter : after.dispatcher.objects =
      (((fresh catalog config world).replay operations).dispatcher.objects.register i className
        connection).2) :
    (fresh catalog config world).GivesBack operations i
      (((fresh catalog config world).replay operations).dispatcher.objects.register i className
        connection).1.id after := by
  have hconsistent : ∀ ops,
      ((fresh catalog config world).replay ops).dispatcher.objects.Consistent :=
    fun ops => (held_replay catalog config world ops).consistent
  have hstems : ∀ before, before <+: operations →
      ∃ made, ((fresh catalog config world).replay before).dispatcher.objects.Stems
        ((fresh catalog config world).replay operations).dispatcher.objects made := by
    rintro before ⟨later, rfl⟩
    rw [replay_append]
    exact ⟨_, replay_stems _ later⟩
  have hcurrent : ∀ id, ((fresh catalog config world).replay operations).dispatcher.objects.resolve
      id = .ok i → (((fresh catalog config world).replay operations).dispatcher.objects.register i
        className connection).1.id = id :=
    fun id hid => (hconsistent operations).register_id_of_resolve hid className connection
  refine ⟨?_, hcurrent, fun before hbefore id hid hstill => ?_, fun hgone => ?_⟩
  · have hready : ((fresh catalog config world).replay operations).dispatcher.objects.Ready
        connection (· = i) := ⟨hconsistent operations, hopen, fun _ hsame => hsame ▸ hadmits⟩
    rcases (hready.enters rfl className).entry with ⟨entry, hentry, hobject, -⟩
    rw [hafter]
    exact ObjectTable.resolve_eq_ok_iff.mpr ⟨entry, hentry, hobject⟩
  · rcases hstems before hbefore with ⟨made, hstem⟩
    exact hcurrent id (hstem.resolve_of_contains (hconsistent before) hid hstill)
  · have hnext :=
      (hconsistent operations).register_id_of_not_live hadmits hgone className connection
    refine ⟨hnext, fun before hbefore => ?_⟩
    rcases hstems before hbefore with ⟨made, hstem⟩
    rw [hnext]
    exact hstem.not_contains_nextId (hconsistent before)

open Fixture (Remembers getterEntry setterEntry setterName lastGiven assignmentsIn)

/-- What the accessors of the property need of a session: all that was made and assigned in
    it is remembered, and they answer to their names. -/
structure Serving (s : Session) (made : List String) (assignments : List Fixture.Assignment) :
    Prop where
  remembers : Remembers made assignments s.dispatcher
  getter : s.dispatcher.catalog.directory.get getterEntry.qualifiedName = .ok getterEntry
  setter : s.dispatcher.catalog.directory.get setterEntry.qualifiedName = .ok setterEntry

theorem serving_replay {decls : List ServiceDecl} {catalog : Catalog}
    (hscan : scan decls = .ok catalog) (hfirst : Fixture.firstService ∈ decls)
    (hdecls : ∀ decl ∈ decls, decl ∈ coreService :: fixtureServices) (config : ServerConfig)
    {operations : List Operation} (hops : ∀ world, .alter world ∉ operations) :
    ∃ made, ((fresh catalog config {}).replay operations).Serving made
      (assignmentsIn ((fresh catalog config {}).history operations)) := by
  have hcatalog := catalog_replay (sound_fresh catalog config {}) operations
  rcases (Fixture.remembers_fresh (fun _ => Fixture.conforms_of_scan hscan hdecls) config).replay
    hops with ⟨made, hremembers⟩
  refine ⟨made, hremembers, ?_, ?_⟩
  · rw [hcatalog]
    exact get_offered hscan hfirst Fixture.getObjectProperty_mem rfl (by decide) (by decide)
  · rw [hcatalog]
    exact get_offered hscan hfirst Fixture.setObjectProperty_mem rfl (by decide) (by decide)

/-- A value stands for no object if it is null, and for a live object if it is its number. -/
def StandsFor (s : Session) (value : Value) : Option Instance → Prop
  | none => value = .null
  | some i => ∃ id, value = .object id ∧ s.dispatcher.objects.resolve id = .ok i

/-- Arguments that ask for an assignment are, in either order, a number of the object and what
    stands for the value. -/
def AsksFor (s : Session) (arguments : List Argument) (a : Fixture.Assignment) : Prop :=
  ∃ id value, arguments.Perm [⟨0, .object id⟩, ⟨1, value⟩] ∧
    s.dispatcher.objects.resolve id = .ok a.object ∧ s.StandsFor value a.value

/-- A call of the getter on a number. -/
def readProperty (call : CallId) (id : ObjectId) : Operation :=
  .dispatch call "TestService.TestClass_get_ObjectProperty" [⟨0, .object id⟩]

namespace Serving

variable {s : Session} {made : List String} {assignments : List Fixture.Assignment}
  {call : CallId} {connection : ConnectionId} {id : ObjectId} {this : Instance}

theorem madeIn (h : s.Serving made assignments)
    (hlive : s.dispatcher.objects.resolve id = .ok this) : this.MadeIn made := by
  rcases ObjectTable.resolve_eq_ok_iff.mp hlive with ⟨entry, hentry, rfl⟩
  exact (h.remembers.entries hentry).1

/-- Whatever is live is of the class, and nothing else is read as an object of it. -/
theorem decode_object_iff (h : s.Serving made assignments) {context : String} {value : Value}
    {n : NativeValue} :
    decode s.dispatcher.catalog.services s.dispatcher.objects context Fixture.objectTy value =
      .ok n ↔
    ∃ id i, value = .object id ∧ s.dispatcher.objects.resolve id = .ok i ∧ n = .object i := by
  constructor
  · intro hread
    cases value with
    | object id =>
        rcases map_eq_ok_iff.mp hread with ⟨i, hresolve, rfl⟩
        rcases ObjectTable.resolveAs_eq_ok_iff.mp hresolve with ⟨entry, hentry, -, hobject⟩
        exact ⟨id, i, rfl, ObjectTable.resolve_eq_ok_iff.mpr ⟨entry, hentry, hobject⟩, rfl⟩
    | _ => cases hread
  · rintro ⟨id, i, rfl, hlive, rfl⟩
    rcases ObjectTable.resolve_eq_ok_iff.mp hlive with ⟨entry, hentry, hobject⟩
    refine map_eq_ok_iff.mpr ⟨i, ?_, rfl⟩
    exact ObjectTable.resolveAs_eq_ok_iff.mpr
      ⟨entry, hentry, (h.remembers.entries hentry).2, hobject⟩

theorem decode_optional_iff (h : s.Serving made assignments) {context : String} {value : Value}
    {n : NativeValue} :
    decode s.dispatcher.catalog.services s.dispatcher.objects context
      (.optional Fixture.objectTy) value = .ok n ↔
    ∃ other, s.StandsFor value other ∧ n = other.elim .null .object := by
  by_cases hnull : value = .null
  · subst hnull
    refine ⟨fun hread => ⟨none, rfl, (Except.ok.inj hread).symm⟩, ?_⟩
    rintro ⟨_ | i, hstands, rfl⟩
    · rfl
    · rcases hstands with ⟨_, hvalue, -⟩
      cases hvalue
  · rw [decode_optional hnull, h.decode_object_iff]
    constructor
    · rintro ⟨id, i, hvalue, hlive, rfl⟩
      exact ⟨some i, ⟨id, hvalue, hlive⟩, rfl⟩
    · rintro ⟨_ | i, hstands, rfl⟩
      · exact absurd hstands hnull
      · rcases hstands with ⟨id, hvalue, hlive⟩
        exact ⟨id, i, hvalue, hlive, rfl⟩

/-- Arguments can be bound for the setter if they ask for an assignment. -/
theorem bindArguments_setter_iff (h : s.Serving made assignments) {arguments : List Argument}
    {bound : List NativeValue} :
    bindArguments s.dispatcher.catalog.services s.dispatcher.objects setterEntry.qualifiedName
      setterEntry.procedure.parameters arguments = .ok bound ↔
    ∃ a, s.AsksFor arguments a ∧ bound = a.bound := by
  refine Iff.trans (bindArguments_pair_iff rfl rfl) ⟨?_, ?_⟩
  · rintro ⟨w, w', n, n', hperm, hread, hread', rfl⟩
    rcases h.decode_object_iff.mp hread with ⟨id, i, rfl, hlive, rfl⟩
    rcases h.decode_optional_iff.mp hread' with ⟨other, hstands, rfl⟩
    exact ⟨⟨i, other⟩, ⟨id, w', hperm, hlive, hstands⟩, rfl⟩
  · rintro ⟨⟨i, other⟩, ⟨id, w', hperm, hlive, hstands⟩, rfl⟩
    exact ⟨_, w', _, _, hperm, h.decode_object_iff.mpr ⟨id, i, rfl, hlive, rfl⟩,
      h.decode_optional_iff.mpr ⟨other, hstands, rfl⟩, rfl⟩

/-- A call of the setter completes the assignment that it asks for, and fails if it asks for
    none. -/
theorem writes (h : s.Serving made assignments) (hissued : s.issued.get? call = some connection)
    (arguments : List Argument) :
    ∃ e, s.events (.dispatch call setterName arguments) = [e] ∧
      ((∃ a, s.AsksFor arguments a ∧ e.outcome = .completed none ∧ e.assignment? = some a) ∨
        (∀ a, ¬s.AsksFor arguments a) ∧ (∃ error, e.outcome = .failed error) ∧
          e.assignment? = none) := by
  rw [(dispatch_issued hissued _ _).2]
  refine ⟨_, rfl, ?_⟩
  cases hprepare : s.dispatcher.prepare ⟨⟨call, connection⟩, setterName, arguments⟩ with
  | error error =>
      rw [(Dispatcher.dispatch_refused hprepare).1]
      refine .inr ⟨fun a ha => ?_, ⟨error, rfl⟩, rfl⟩
      have hbind := h.bindArguments_setter_iff.mpr ⟨a, ha, rfl⟩
      cases hprepare.symm.trans (prepare_eq h.setter hbind)
  | ok p =>
      rcases Dispatcher.prepare_eq_ok hprepare with ⟨descriptor, bound, hget, hbind, rfl⟩
      obtain rfl : setterEntry = descriptor := Except.ok.inj (h.setter.symm.trans hget)
      rcases h.bindArguments_setter_iff.mp hbind with ⟨a, hasks, rfl⟩
      rcases Fixture.setter_step rfl (h.remembers.madeIn_of_prepare hprepare)
        (Fixture.assignment?_bound a) with ⟨houtcome, hassignment⟩
      refine .inl ⟨a, hasks, ?_, ?_⟩
      · exact (congrArg Prod.fst (Dispatcher.dispatch_of_ok hprepare)).trans houtcome
      · exact (congrArg Event.assignment? (Fixture.dispatchEvent_of_ok hprepare)).trans hassignment

/-- A call of the getter on a live object gives what the object was given last, if anything,
    under the number that it is entered under. -/
theorem reads (h : s.Serving made assignments) (hissued : s.issued.get? call = some connection)
    (hlive : s.dispatcher.objects.resolve id = .ok this) :
    ∃ e, s.events (readProperty call id) = [e] ∧ e.ctx = ⟨call, connection⟩ ∧
      (lastGiven assignments this = none → e.outcome = .completed (some .null)) ∧
      ∀ i, lastGiven assignments this = some i → s.dispatcher.objects.Admits i ∧
        e.outcome = .completed (some (.object
          (s.dispatcher.objects.register i Fixture.className connection).1.id)) ∧
        (s.perform (readProperty call id)).dispatcher.objects =
          (s.dispatcher.objects.register i Fixture.className connection).2 := by
  have hprepare : s.dispatcher.prepare
      ⟨⟨call, connection⟩, getterEntry.qualifiedName, [⟨0, .object id⟩]⟩ =
      .ok ⟨getterEntry, ⟨call, connection⟩, [.object this], none, 0⟩ :=
    prepare_eq h.getter (bindArguments_single (h.decode_object_iff.mpr ⟨id, this, rfl, hlive, rfl⟩))
  have hthis := h.madeIn hlive
  have hvalue := Fixture.get?_assigned h.remembers.assignments hthis
  rw [← h.remembers.properties] at hvalue
  have hdispatch := Dispatcher.dispatch_of_ok hprepare
  rw [← hvalue, readProperty, (dispatch_issued hissued _ _).1, (dispatch_issued hissued _ _).2]
  refine ⟨_, rfl, rfl, fun hnone => ?_, fun i hsome => ⟨?_, ?_⟩⟩
  · exact (congrArg Prod.fst hdispatch).trans (Fixture.getter_step_none rfl hthis rfl hnone)
  · intro row hrow haddress
    exact (h.remembers.entries (Table.mem_rows_iff.mp hrow)).1.eq_of_address
      (h.remembers.world.objectProperties hsome) haddress
  · rcases Fixture.getter_step_some (d := s.dispatcher.countDispatch)
      (p := ⟨getterEntry, ⟨call, connection⟩, [.object this], none, 0⟩) rfl hthis rfl hsome with
      ⟨houtcome, hobjects⟩
    have hafter := congrArg (fun result => Dispatcher.objects result.2) hdispatch
    exact ⟨(congrArg Prod.fst hdispatch).trans houtcome,
      hafter.trans ((Dispatcher.countOutcome_objects _ _).trans hobjects)⟩

end Serving

/-- A call of the setter completes the assignment that its arguments ask for, by whatever
    numbers the objects have then, or fails and assigns nothing. A call of the getter on a live
    object gives what the object was assigned last by a call that was completed: null, if it
    was null or if there was no such call, and otherwise the very object, under the number it
    has, or under a new one if it has none. -/
theorem property_assigned_and_given {decls : List ServiceDecl} {catalog : Catalog}
    (hscan : scan decls = .ok catalog) (hfirst : Fixture.firstService ∈ decls)
    (hdecls : ∀ decl ∈ decls, decl ∈ coreService :: fixtureServices) (config : ServerConfig)
    {operations : List Operation} (hops : ∀ world, .alter world ∉ operations) {call : CallId}
    {connection : ConnectionId}
    (hissued : ((fresh catalog config {}).replay operations).issued.get? call = some connection)
    (hopen : ((fresh catalog config {}).replay operations).dispatcher.objects.closed.contains
      connection = false) :
    (∀ arguments, ∃ e, ((fresh catalog config {}).replay operations).events
        (.dispatch call setterName arguments) = [e] ∧
      ((∃ a, ((fresh catalog config {}).replay operations).AsksFor arguments a ∧
          e.outcome = .completed none ∧ e.assignment? = some a) ∨
        (∀ a, ¬((fresh catalog config {}).replay operations).AsksFor arguments a) ∧
          (∃ error, e.outcome = .failed error) ∧ e.assignment? = none)) ∧
    ∀ id this,
      ((fresh catalog config {}).replay operations).dispatcher.objects.resolve id = .ok this →
      ∃ e, ((fresh catalog config {}).replay operations).events (readProperty call id) = [e] ∧
        e.ctx = ⟨call, connection⟩ ∧
        (lastGiven (assignmentsIn ((fresh catalog config {}).history operations)) this = none →
          e.outcome = .completed (some .null)) ∧
        ∀ i, lastGiven (assignmentsIn ((fresh catalog config {}).history operations)) this =
            some i →
          ∃ number, e.outcome = .completed (some (.object number)) ∧
            (fresh catalog config {}).GivesBack operations i number
              (((fresh catalog config {}).replay operations).perform (readProperty call id)) := by
  rcases serving_replay hscan hfirst hdecls config hops with ⟨made, hserving⟩
  refine ⟨hserving.writes hissued, fun id this hlive => ?_⟩
  rcases hserving.reads hissued hlive with ⟨e, hevents, hctx, hnone, hsome⟩
  refine ⟨e, hevents, hctx, hnone, fun i hi => ?_⟩
  rcases hsome i hi with ⟨hadmits, houtcome, hafter⟩
  exact ⟨_, houtcome, givesBack_register catalog config {} operations hopen hadmits hafter⟩

/-- Two objects, of which the first is given the second, which is then released. -/
def handedOver : List Operation :=
  [.issue 7, .dispatch 1 "TestService.CreateTestObject" [⟨0, .string "keeper"⟩],
    .issue 7, .dispatch 2 "TestService.CreateTestObject" [⟨0, .string "kept"⟩],
    .issue 7, .dispatch 3 "TestService.TestClass_set_ObjectProperty"
      [⟨1, .object 2⟩, ⟨0, .object 1⟩], .release 2, .issue 7]

/-- An object that was released is given back under a new number. -/
theorem handedOver_given :
    ∃ catalog, scan (coreService :: fixtureServices) = .ok catalog ∧
      let s := (fresh catalog {} {}).replay handedOver
      s.dispatcher.objects.resolve 1 = .ok ⟨1, .fixture "keeper"⟩ ∧
      ∃ e, s.events (readProperty 4 1) = [e] ∧ e.outcome = .completed (some (.object 3)) ∧
        (s.perform (readProperty 4 1)).dispatcher.objects.resolve 3 = .ok ⟨2, .fixture "kept"⟩ := by
  have hscan : scan (coreService :: fixtureServices) =
      .ok (published (coreService :: fixtureServices)) := rfl
  refine ⟨_, hscan, rfl, ?_⟩
  rcases (@property_assigned_and_given _ _ hscan (List.mem_cons_of_mem _ List.mem_cons_self)
    (fun _ h => h) {} handedOver (by simp [handedOver]) 4 7 rfl rfl).2 1 ⟨1, .fixture "keeper"⟩ rfl
    with ⟨e, hevents, -, -, hgives⟩
  rcases hgives ⟨2, .fixture "kept"⟩ rfl with ⟨number, houtcome, hback⟩
  have hgone : ∀ id, ((fresh (published (coreService :: fixtureServices)) {} {}).replay
      handedOver).dispatcher.objects.resolve id ≠ .ok ⟨2, .fixture "kept"⟩ := by
    intro id hid
    rcases ObjectTable.resolve_eq_ok_iff.mp hid with ⟨entry, hentry, hobject⟩
    have hrow : (id, entry) ∈
        [(1, (⟨⟨1, .fixture "keeper"⟩, "TestService.TestClass", .of 7⟩ : ObjectEntry))] :=
      Table.mem_rows_iff.mpr hentry
    cases List.mem_singleton.mp hrow
    exact absurd hobject (by decide)
  obtain rfl : number = 3 := (hback.fresh hgone).1
  exact ⟨e, hevents, houtcome, hback.leads⟩

end Session

end Switchboard
