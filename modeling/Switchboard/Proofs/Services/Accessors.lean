import Switchboard.Proofs.Scan.Search
import Switchboard.Proofs.Services.Handlers
import Switchboard.Services.Core

/-!
# The Accessors of the Object Property

Objects of the fixture's class have a property that is another object or nothing. All of them
are kept in one table, by the addresses of the objects they belong to. `Assignment` is what
one call of the setter does to that table, and `lastGiven` is told without it: what an object
was given last, if some assignments were made one after the other. Looking up an address comes
to the same (`get?_assigned`), because objects that were made are told apart by their
addresses, so what is given to one object does not show in another.

The setter makes the assignment that its arguments ask for, or fails and makes none. Of all
that the core service and the fixture services offer it is the only procedure that makes
assignments (`conforms_of_scan`), and it is recognised by its qualified name, since no other
service has the name of the first and no other procedure there has the name of the setter.

## Main definitions

* `Fixture.Assignment`, `Fixture.assignment?`: What a call of the setter asks for.
* `Fixture.assigned`, `Fixture.lastGiven`: What assignments come to.
* `Fixture.getObjectProperty`, `Fixture.setObjectProperty`: The accessors.
* `Fixture.Conforms`: What is the same for all procedures.

## Theorems

* `get?_assigned`: An object has what it was given last.
* `setObjectProperty_react`: What the setter does.
* `spared_or_setObjectProperty`: Every other procedure leaves the properties of objects alone.
* `conforms_of_scan`: So it is with the entries of a directory.
-/

namespace Switchboard

namespace Fixture

open Native (Spares)

variable {made : List String}

/-! ## Assignments -/

/-- An object, and what its property is to be: another object, or nothing. -/
structure Assignment where
  object : Instance
  value : Option Instance

/-- The properties of all objects after an assignment. -/
def Assignment.apply (a : Assignment) (properties : Table Instance) : Table Instance :=
  match a.value with
  | some value => properties.insert a.object.address value
  | none => properties.erase a.object.address

/-- The properties of all objects after some assignments, where none had one before. -/
def assigned (assignments : List Assignment) : Table Instance :=
  assignments.foldl (fun properties a => a.apply properties) {}

/-- What an object was given last. -/
def lastGiven (assignments : List Assignment) (this : Instance) : Option Instance :=
  ((assignments.filter (·.object = this)).getLast?).bind Assignment.value

/-- The assignment that the arguments of a call ask for. -/
def assignment? : List NativeValue → Option Assignment
  | .object this :: .object other :: _ => some ⟨this, some other⟩
  | .object this :: .null :: _ => some ⟨this, none⟩
  | _ => none

/-- Arguments that ask for an assignment. -/
def Assignment.bound (a : Assignment) : List NativeValue :=
  [.object a.object, a.value.elim .null .object]

@[simp] theorem assignment?_bound (a : Assignment) : assignment? a.bound = some a := by
  rcases a with ⟨object, _ | value⟩ <;> rfl

theorem Assignment.get?_apply (a : Assignment) (properties : Table Instance) (address : Nat) :
    (a.apply properties).get? address =
      if address = a.object.address then a.value else properties.get? address := by
  unfold apply
  cases a.value with
  | some value => exact Table.get?_insert ..
  | none => exact Table.get?_erase ..

theorem assigned_concat (assignments : List Assignment) (a : Assignment) :
    assigned (assignments ++ [a]) = a.apply (assigned assignments) := List.foldl_append

theorem lastGiven_concat (assignments : List Assignment) (a : Assignment) (this : Instance) :
    lastGiven (assignments ++ [a]) this =
      if a.object = this then a.value else lastGiven assignments this := by
  unfold lastGiven
  rw [List.filter_append, List.filter_singleton]
  by_cases hthis : a.object = this
  · rw [if_pos hthis, decide_eq_true hthis, cond_true, List.getLast?_concat, Option.bind_some]
  · rw [if_neg hthis, decide_eq_false hthis, cond_false, List.append_nil]

/-- What is found under the address of an object is what the object was given last, although
    other objects were given something as well. -/
theorem get?_assigned {assignments : List Assignment}
    (h : ∀ a ∈ assignments, a.object.MadeIn made) {this : Instance} (hthis : this.MadeIn made) :
    (assigned assignments).get? this.address = lastGiven assignments this := by
  induction assignments using List.reverseRecOn with
  | nil => rfl
  | append_singleton earlier a ih =>
      rw [List.forall_mem_append, List.forall_mem_singleton] at h
      rw [assigned_concat, lastGiven_concat, Assignment.get?_apply, ih h.1]
      refine if_congr ⟨fun hsame => ?_, fun hsame => congrArg Instance.address hsame.symm⟩ rfl rfl
      exact h.2.eq_of_address hthis hsame.symm

/-- What arguments ask for is about the objects in them. -/
theorem madeIn_of_assignment? {arguments : List NativeValue} {a : Assignment}
    (harguments : ∀ v ∈ arguments, v.MadeIn made) (h : assignment? arguments = some a) :
    a.object.MadeIn made ∧ ∀ i, a.value = some i → i.MadeIn made := by
  unfold assignment? at h
  split at h
  next this other rest =>
    rw [List.forall_mem_cons, List.forall_mem_cons, Datum.madeIn_object_iff,
      Datum.madeIn_object_iff] at harguments
    cases h
    refine ⟨harguments.1, fun i hi => ?_⟩
    cases hi
    exact harguments.2.1
  next this rest =>
    rw [List.forall_mem_cons, Datum.madeIn_object_iff] at harguments
    cases h
    exact ⟨harguments.1, nofun⟩
  next => cases h

/-- An assignment of objects that were made leaves only such to be found. -/
theorem madeIn_assign {w : World} (hw : w.MadeIn made) {a : Assignment}
    (ha : ∀ i, a.value = some i → i.MadeIn made) :
    World.MadeIn made { w with
      fixture.objectProperties := a.apply w.fixture.objectProperties } where
  length := hw.length
  objectProperty := hw.objectProperty
  objectProperties := by
    intro address i hi
    rw [Assignment.get?_apply] at hi
    split at hi
    · exact ha i hi
    · exact hw.objectProperties hi

/-! ## The accessors of the property -/

/-- The getter. -/
def getObjectProperty : Handler := do
  let this ← object 0
  objectStep ((← state).objectProperties.get? this.address)

/-- The setter. -/
def setObjectProperty : Handler := do
  let this ← object 0
  let other ← Native.unlessNull object 1
  update fun s => { s with objectProperties := (Assignment.mk this other).apply s.objectProperties }

/-- The property. -/
def objectProperty : PropertyDecl where
  name := "ObjectProperty"
  ty := .optional objectTy
  getter := some getObjectProperty
  setter := some setObjectProperty

theorem getObjectProperty_mem : Offer.classGetter testClass objectProperty ∈ firstService.offers :=
  List.mem_of_getElem? (i := 38) rfl

theorem setObjectProperty_mem : Offer.classSetter testClass objectProperty ∈ firstService.offers :=
  List.mem_of_getElem? (i := 39) rfl

/-- The setter assigns what its arguments ask for, or fails and changes nothing. -/
theorem setObjectProperty_react {inv : Invocation} (hinv : inv.MadeIn made) (w : World) :
    (∃ a, assignment? inv.arguments = some a ∧ setObjectProperty.react inv w =
      (.ok .done, { w with
        fixture.objectProperties := a.apply w.fixture.objectProperties })) ∨
    assignment? inv.arguments = none ∧
      ∃ interrupt, setObjectProperty.react inv w = (.error interrupt, w) := by
  rcases inv with ⟨ctx, procedure, services, snapshot, arguments, progress⟩
  rcases hinv with ⟨harguments, -⟩
  simp only at harguments ⊢
  rcases arguments with _ | ⟨first, rest⟩
  · exact .inr ⟨rfl, _, rfl⟩
  rw [List.forall_mem_cons] at harguments
  cases first with
  | object this =>
      rcases Datum.madeIn_object_iff.mp harguments.1 with ⟨text, -, hpayload⟩
      rcases this with ⟨address, payload⟩
      obtain rfl : payload = .fixture text := hpayload
      rcases rest with _ | ⟨second, rest⟩
      · exact .inr ⟨rfl, _, rfl⟩
      rw [List.forall_mem_cons] at harguments
      cases second with
      | object other =>
          rcases Datum.madeIn_object_iff.mp harguments.2.1 with ⟨text', -, hpayload'⟩
          rcases other with ⟨address', payload'⟩
          obtain rfl : payload' = .fixture text' := hpayload'
          exact .inl ⟨_, rfl, rfl⟩
      | null => exact .inl ⟨_, rfl, rfl⟩
      | _ => exact .inr ⟨rfl, _, rfl⟩
  | _ => exact .inr ⟨rfl, _, rfl⟩

/-! ## What other procedures do with it -/

/-- An offer with an implementation that leaves the properties of objects alone. -/
def Spared (offer : Offer) : Prop := ∃ handler, offer.handler = some handler ∧ handler.Spares

theorem coreService_spared : ∀ offer ∈ coreService.offers, Spared offer := by
  have hread : ∀ {value : Invocation → NativeValue}, (∀ inv, (value inv).references = []) →
      Handler.Spares (do return .value (value (← read))) := fun h _ =>
    Spares.read.bind fun _ _ inv _ => .pure fun _ _ => Step.madeIn_plain (h inv)
  change ∀ offer ∈ [Offer.procedure _, .procedure _, .procedure _, .getter _], Spared offer
  simp only [List.forall_mem_cons]
  exact ⟨⟨_, rfl, hread fun _ => rfl⟩, ⟨_, rfl, hread fun _ => rfl⟩, ⟨_, rfl, hread fun _ => rfl⟩,
    ⟨_, rfl, hread fun _ => rfl⟩, List.forall_mem_nil _⟩

theorem firstService_procedures_spared : ∀ p ∈ firstService.procedures, Spared (.procedure p) := by
  have hincrement : ∀ name parameter ty,
      Spared (.procedure (incrementProcedure name parameter ty)) :=
    fun _ _ _ => ⟨_, rfl, incrementArgument_spares⟩
  have hfailing : ∀ name message, Spared (.procedure (failingProcedure name message)) :=
    fun _ message => ⟨_, rfl, fun _ => .fault message⟩
  simp only [firstService, List.forall_mem_cons]
  exact ⟨⟨_, rfl, fun _ => .pure fun _ _ => Step.madeIn_done⟩,
    ⟨_, rfl, fun _ => spares_text .plain⟩, ⟨_, rfl, fun _ => spares_text .plain⟩,
    ⟨_, rfl, fun _ => spares_text .plain⟩, ⟨_, rfl, fun _ => spares_text .plain⟩,
    ⟨_, rfl, boolText_spares⟩, ⟨_, rfl, parseInt_spares⟩, ⟨_, rfl, bytesText_spares⟩,
    ⟨_, rfl, addMultiple_spares⟩, ⟨_, rfl, createObject_spares 0⟩, ⟨_, rfl, echoObject_spares⟩,
    ⟨_, rfl, joinTexts_spares⟩, ⟨_, rfl, countDown_spares⟩, ⟨_, rfl, countDownQuietly_spares⟩,
    ⟨_, rfl, fun _ => .pure fun _ _ => Step.madeIn_plain rfl⟩, ⟨_, rfl, echoEnum_spares⟩,
    ⟨_, rfl, echoEnum_spares⟩, hincrement .., hincrement .., hincrement .., hincrement ..,
    hincrement .., ⟨_, rfl, appendObject_spares⟩, hfailing .., hfailing .., List.forall_mem_nil _⟩

/-- A setter of a text. -/
theorem setText_spares {index : Nat} {change : String → FixtureState → FixtureState}
    (hobjects : ∀ text s, (change text s).objectProperties = s.objectProperties)
    (hobject : ∀ text s, (change text s).objectProperty = s.objectProperty) :
    Handler.Spares (do
      let text ← Native.string index
      update (change text)) := fun _ =>
  Spares.plain.bind fun _ _ text _ =>
    spares_update (hobjects text) fun s _ h => .inr (hobject text s ▸ h)

theorem firstService_properties_spared : ∀ offer ∈ firstService.properties.flatMap fun p =>
    p.offers (.getter p) (.setter p), Spared offer := by
  change ∀ offer ∈ [Offer.getter _, .setter _, .setter _, .getter _, .getter _, .setter _],
    Spared offer
  simp only [List.forall_mem_cons]
  refine ⟨⟨_, rfl, fun _ => ?_⟩, ⟨_, rfl, ?_⟩, ⟨_, rfl, ?_⟩, ⟨_, rfl, fun _ => ?_⟩,
    ⟨_, rfl, fun _ => ?_⟩, ⟨_, rfl, fun _ => ?_⟩, List.forall_mem_nil _⟩
  · exact spares_state.bind fun _ _ _ _ => spares_textStep _
  · exact setText_spares (fun _ _ => rfl) fun _ _ => rfl
  · exact setText_spares (fun _ _ => rfl) fun _ _ => rfl
  · exact spares_state.bind fun _ _ _ _ => spares_textStep _
  · exact spares_state.bind fun _ _ _ hs => spares_objectStep hs.1
  · refine (Spares.unlessNull fun _ => spares_object 0).bind fun _ _ other hother => ?_
    exact spares_update (fun _ => rfl) fun _ i hi => .inl (hother i hi)

theorem testClass_spared : ∀ offer ∈ testClass.offers,
    offer = .classSetter testClass objectProperty ∨ Spared offer := by
  change ∀ offer ∈ [Offer.constructor testClass _, .method testClass _, .method testClass _,
    .method testClass _, .method testClass _, .classGetter testClass _, .classSetter testClass _,
    .classGetter testClass objectProperty, .classSetter testClass objectProperty,
    .static testClass _], _
  simp only [List.forall_mem_cons]
  refine ⟨.inr ⟨_, rfl, createObject_spares 0⟩, .inr ⟨_, rfl, fun _ => ?_⟩,
    .inr ⟨_, rfl, fun _ => ?_⟩, .inr ⟨_, rfl, fun _ => ?_⟩, .inr ⟨_, rfl, fun _ => ?_⟩,
    .inr ⟨_, rfl, fun _ => ?_⟩, .inr ⟨_, rfl, fun _ => ?_⟩, .inr ⟨_, rfl, fun _ => ?_⟩,
    .inl trivial, .inr ⟨_, rfl, fun _ => ?_⟩, List.forall_mem_nil _⟩
  · exact spares_text (spares_valueOf 0)
  · exact (spares_valueOf 0).bind fun _ _ _ _ => spares_text .plain
  · exact (spares_valueOf 0).bind fun _ _ _ _ =>
      (Spares.unlessNull fun _ => spares_valueOf 1).bind fun _ _ _ _ => spares_textStep _
  · exact (spares_valueOf 0).bind fun _ _ _ _ => spares_text .plain
  · exact (spares_object 0).bind fun _ _ _ _ => spares_state.bind fun _ _ _ _ =>
      .pure fun _ _ => Step.madeIn_plain rfl
  · exact (spares_object 0).bind fun _ _ _ _ => Spares.plain.bind fun _ _ _ _ =>
      spares_update (fun _ => rfl) fun _ _ hi => .inr hi
  · exact (spares_object 0).bind fun _ _ this _ => spares_state.bind fun _ _ _ hs =>
      spares_objectStep fun i hi => hs.2 this.address i hi
  · exact Spares.plain.bind fun _ _ _ _ => spares_text .plain

theorem firstService_spared : ∀ offer ∈ firstService.offers,
    offer = .classSetter testClass objectProperty ∨ Spared offer := by
  unfold ServiceDecl.offers
  rw [List.forall_mem_append, List.forall_mem_append, List.forall_mem_map]
  refine ⟨⟨fun p hp => .inr (firstService_procedures_spared p hp),
    fun offer hoffer => .inr (firstService_properties_spared offer hoffer)⟩, ?_⟩
  change ∀ offer ∈ testClass.offers ++ [], _
  rw [List.append_nil]
  exact testClass_spared

theorem secondService_spared : ∀ offer ∈ secondService.offers, Spared offer := by
  change ∀ offer ∈ [Offer.procedure _, .procedure _], Spared offer
  simp only [List.forall_mem_cons]
  refine ⟨⟨_, rfl, fun _ => ?_⟩, ⟨_, rfl, createObject_spares 0⟩, List.forall_mem_nil _⟩
  exact (spares_valueOf 0).bind fun _ _ _ _ => .pure fun _ _ => Step.madeIn_plain rfl

theorem thirdService_spared : ∀ offer ∈ thirdService.offers, Spared offer := by
  change ∀ offer ∈ [Offer.procedure _], Spared offer
  rw [List.forall_mem_singleton]
  exact ⟨_, rfl, fun _ => spares_text .plain⟩

/-- Every offer but that of the setter leaves the properties of objects alone. -/
theorem spared_or_setObjectProperty {decl : ServiceDecl} (h : decl ∈ coreService :: fixtureServices)
    {offer : Offer} (hoffer : offer ∈ decl.offers) :
    decl = firstService ∧ offer = .classSetter testClass objectProperty ∨ Spared offer := by
  rcases List.mem_cons.mp h with rfl | h
  · exact .inr (coreService_spared offer hoffer)
  rcases List.mem_cons.mp h with rfl | h
  · exact (firstService_spared offer hoffer).imp_left fun hsetter => ⟨rfl, hsetter⟩
  rcases List.mem_pair.mp h with rfl | rfl
  · exact .inr (secondService_spared offer hoffer)
  · exact .inr (thirdService_spared offer hoffer)

/-! ## Entries -/

/-- What the class is called in the table of live objects. -/
def className : String := "TestService.TestClass"

/-- What the setter is called. -/
def setterName : String := "TestService.TestClass_set_ObjectProperty"

/-- An entry whose signature names no class but that of the fixture services, and which is the
    setter's or leaves the properties of objects alone. -/
structure Conforms (entry : Descriptor) : Prop where
  classes : ∀ {service name}, Ty.instanceOf service name ∈ entry.procedure.namedTypes →
    classKey service name = className
  handler : (entry.qualifiedName = setterName ∧ entry.handler = setObjectProperty ∧
      entry.procedure.returnType = none) ∨
    entry.qualifiedName ≠ setterName ∧ entry.handler.Spares

/-- Whether a type names no class but that of the fixture services. -/
def namesClass : Ty → Bool
  | .instanceOf service name => classKey service name == className
  | _ => true

theorem namesClass_of_mem {decl : ServiceDecl} (h : decl ∈ coreService :: fixtureServices)
    {offer : Offer} (hoffer : offer ∈ decl.offers) {ty : Ty}
    (hty : ty ∈ (offer.published decl.name).namedTypes) : namesClass ty = true := by
  have hall : ((coreService :: fixtureServices).all fun decl => decl.offers.all fun offer =>
      (offer.published decl.name).namedTypes.all namesClass) = true := rfl
  have hdecl := List.all_eq_true.mp hall decl h
  have hoffer := List.all_eq_true.mp hdecl offer hoffer
  exact List.all_eq_true.mp hoffer ty hty

/-- The entries of the core service and the fixture services. -/
theorem conforms_of_scan {decls : List ServiceDecl} {catalog : Catalog}
    (hscan : scan decls = .ok catalog)
    (hdecls : ∀ decl ∈ decls, decl ∈ coreService :: fixtureServices) {entry : Descriptor}
    (hentry : entry ∈ catalog.directory.descriptors) : Conforms entry := by
  rcases acceptable_of_scan hscan with ⟨hacceptable, rfl⟩
  rcases List.mem_flatMap.mp hentry with ⟨decl, hdecl, hmem⟩
  rcases List.mem_filterMap.mp hmem with ⟨offer, hoffer, hoffered⟩
  rcases Option.map_eq_some_iff.mp hoffered with ⟨handler, hhandler, rfl⟩
  refine ⟨fun hnamed => eq_of_beq (namesClass_of_mem (hdecls decl hdecl) hoffer hnamed), ?_⟩
  by_cases hname : decl.name ++ "." ++ offer.name = setterName
  · -- Only the first service has this name, and only the setter has the other one there.
    have hparts : decl.name ++ "." ++ offer.name =
        serviceName ++ "." ++ "TestClass_set_ObjectProperty" := hname
    rcases eq_of_dotted_eq (by decide) (by decide) hparts with ⟨hservice, hown⟩
    have hfirst : decl = firstService := by
      have hnodup : ((coreService :: fixtureServices).map (·.name)).Nodup := by decide
      exact List.inj_on_of_nodup_map hnodup (hdecls decl hdecl)
        (List.mem_cons_of_mem _ List.mem_cons_self) hservice
    subst hfirst
    have hoffer' : offer = .classSetter testClass objectProperty :=
      List.inj_on_of_nodup_map (hacceptable.sound _ hdecl).offerNames hoffer setObjectProperty_mem
        hown
    subst hoffer'
    exact .inl ⟨hname, (Option.some.inj hhandler).symm, rfl⟩
  · rcases spared_or_setObjectProperty (hdecls decl hdecl) hoffer with
      ⟨rfl, rfl⟩ | ⟨_, hsame, hspares⟩
    · exact absurd rfl hname
    · rw [hhandler, Option.some.injEq] at hsame
      exact .inr ⟨hname, hsame ▸ hspares⟩

end Fixture

end Switchboard
