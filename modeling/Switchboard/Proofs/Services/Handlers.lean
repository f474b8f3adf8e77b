import Switchboard.Proofs.Coercion.Runs
import Switchboard.Proofs.Datum.Parts
import Switchboard.Proofs.Services.Countdown
import Switchboard.Services.Fixture

/-!
# Handlers and the Objects They Make

An object is told by its address. What makes this safe is that addresses are given out one
after the other and that handlers do not forge objects: whatever they hand over or remember
they were given, found remembered, or have made. So all objects there have ever been can be
listed in the order of their addresses, by the texts they were made with, and every object
that turns up anywhere is the one that is listed under its address (`Instance.MadeIn`).

`Native.Spares` says this of a computation, for whatever list there is when it runs; the list
may be longer afterwards. With it goes that the computation leaves the properties of objects
alone. Both are a matter of the steps that computations of handlers are made of, and compose.
The parts that the procedures of the fixture services share are put together from the steps,
and the procedures from the parts.

One procedure does not leave the properties of objects alone, which is the setter among them,
and it is not treated here.

## Main definitions

* `Instance.MadeIn`, `Datum.MadeIn`, `World.MadeIn`: Objects that were made.
* `Native.Spares`, `Handler.Spares`: Handlers that make objects and change no properties.

## Theorems

* `Instance.MadeIn.eq_of_address`: Objects are told apart by their addresses.
* `Native.Spares.bind`, `Native.Spares.allocate`: Steps of handlers.
* `Fixture.spares_object`, `Fixture.spares_update`: Parts of them.
* `Fixture.appendObject_spares`, `Fixture.countDown_spares`: Procedures.
-/

namespace Switchboard

/-! ## What was made -/

/-- The object was made with the text that is listed under its address. -/
def Instance.MadeIn (made : List String) (i : Instance) : Prop :=
  ∃ text, made[i.address]? = some text ∧ i.payload = .fixture text

/-- Every object in the value was made so. -/
def Datum.MadeIn (made : List String) (v : NativeValue) : Prop := ∀ i ∈ v.references, i.MadeIn made

variable {made made' made'' : List String} {i j : Instance} {v : NativeValue}

theorem Instance.MadeIn.mono (h : i.MadeIn made) (hlater : made <+: made') : i.MadeIn made' := by
  rcases h with ⟨text, htext, hpayload⟩
  rcases hlater with ⟨rest, rfl⟩
  exact ⟨text, List.getElem?_append_left (List.getElem?_eq_some_iff.mp htext).1 ▸ htext, hpayload⟩

/-- Objects are told apart by their addresses. -/
theorem Instance.MadeIn.eq_of_address (hi : i.MadeIn made) (hj : j.MadeIn made)
    (h : i.address = j.address) : i = j := by
  rcases hi with ⟨text, htext, hpayload⟩
  rcases hj with ⟨text', htext', hpayload'⟩
  rw [h, htext', Option.some.injEq] at htext
  rcases i with ⟨address, payload⟩
  rcases j with ⟨address', payload'⟩
  simp only at h hpayload hpayload'
  rw [h, hpayload, hpayload', htext]

theorem Datum.MadeIn.mono (h : v.MadeIn made) (hlater : made <+: made') : v.MadeIn made' :=
  fun i hi => (h i hi).mono hlater

/-- A value that refers to nothing. -/
theorem Datum.madeIn_of_references_eq_nil (h : v.references = []) : v.MadeIn made :=
  Datum.forall_mem_references_of_eq_nil h

theorem Datum.madeIn_object_iff : Datum.MadeIn made (.object i) ↔ i.MadeIn made :=
  List.forall_mem_singleton

theorem Datum.madeIn_list_iff {items : List NativeValue} :
    Datum.MadeIn made (.list items) ↔ ∀ item ∈ items, item.MadeIn made :=
  Datum.forall_mem_references_list

theorem Datum.madeIn_set_iff {items : List NativeValue} :
    Datum.MadeIn made (.set items) ↔ ∀ item ∈ items, item.MadeIn made :=
  Datum.forall_mem_references_list

theorem Datum.madeIn_tuple_iff {items : List NativeValue} :
    Datum.MadeIn made (.tuple items) ↔ ∀ item ∈ items, item.MadeIn made :=
  Datum.forall_mem_references_list

theorem Datum.madeIn_map_iff {entries : List (NativeValue × NativeValue)} :
    Datum.MadeIn made (.map entries) ↔
      ∀ entry ∈ entries, entry.1.MadeIn made ∧ entry.2.MadeIn made :=
  Datum.forall_mem_references_map

/-- Every object that the fixture services remember was made so, and the next one will be
    listed next. -/
structure World.MadeIn (made : List String) (w : World) : Prop where
  length : made.length = w.nextAddress
  objectProperty : ∀ {i}, w.fixture.objectProperty = some i → i.MadeIn made
  objectProperties : ∀ {a i}, w.fixture.objectProperties.get? a = some i → i.MadeIn made

/-- Every object that a handler is given was made so. -/
structure Invocation.MadeIn (made : List String) (inv : Invocation) : Prop where
  arguments : ∀ v ∈ inv.arguments, v.MadeIn made
  progress : ∀ {v}, inv.progress = some v → v.MadeIn made

theorem Invocation.MadeIn.mono {inv : Invocation} (h : inv.MadeIn made) (hlater : made <+: made') :
    inv.MadeIn made' :=
  ⟨fun v hv => (h.arguments v hv).mono hlater, fun hv => (h.progress hv).mono hlater⟩

/-- The values that a step hands over. -/
def Step.values : Step → List NativeValue
  | .complete value => value.toList
  | .yield progress => [progress]

/-- Every object that a step hands over was made so. -/
def Step.MadeIn (made : List String) (step : Step) : Prop := ∀ v ∈ step.values, v.MadeIn made

namespace Native

variable {α β : Type} {P : List String → α → Prop} {Q : List String → β → Prop}

/-- What a computation comes to, and the world after it. -/
def runOn (m : Native α) (inv : Invocation) (w : World) : Except Interrupt α × World :=
  (m.run inv).run.run w

theorem runOn_bind (m : Native α) (k : α → Native β) (inv : Invocation) (w : World) :
    (m >>= k).runOn inv w =
      match m.runOn inv w with
      | (.ok a, w') => (k a).runOn inv w'
      | (.error i, w') => (.error i, w') := by
  unfold runOn
  simp only [ReaderT.run, ExceptT.run, StateT.run, Bind.bind, ReaderT.bind, ExceptT.bind,
    ExceptT.mk, StateT.bind]
  rcases m inv w with ⟨result, w'⟩
  cases result <;> rfl

/-- A computation that leaves the properties of objects alone. Given objects that were made
    before it, it remembers only such and those that it makes itself, and what it comes to is
    as wanted. More objects may have been made by then than are known of. -/
def Spares (made : List String) (m : Native α) (P : List String → α → Prop) : Prop :=
  ∀ made', made <+: made' → ∀ inv w, inv.MadeIn made' → w.MadeIn made' →
    ∃ made'', made' <+: made'' ∧ (m.runOn inv w).2.MadeIn made'' ∧
      (m.runOn inv w).2.fixture.objectProperties = w.fixture.objectProperties ∧
      ∀ a, (m.runOn inv w).1 = .ok a → P made'' a

namespace Spares

theorem pure {a : α} (h : ∀ made', made <+: made' → P made' a) :
    Spares made (Pure.pure a : Native α) P := by
  intro made' hlater inv w _ hw
  refine ⟨made', List.prefix_rfl, hw, rfl, fun b hb => ?_⟩
  cases hb
  exact h made' hlater

theorem throw (i : Interrupt) : Spares made (MonadExcept.throw i : Native α) P :=
  fun made' _ _ _ _ hw => ⟨made', List.prefix_rfl, hw, rfl, nofun⟩

theorem bind {m : Native α} {k : α → Native β} (hm : Spares made m P)
    (hk : ∀ made', made <+: made' → ∀ a, P made' a → Spares made' (k a) Q) :
    Spares made (m >>= k) Q := by
  intro made' hlater inv w hinv hw
  rcases hm made' hlater inv w hinv hw with ⟨made₁, hmade₁, hw₁, hproperties, hresult⟩
  rw [runOn_bind]
  rcases hrun : m.runOn inv w with ⟨result, w₁⟩
  rw [hrun] at hw₁ hproperties hresult
  cases result with
  | error i => exact ⟨made₁, hmade₁, hw₁, hproperties, nofun⟩
  | ok a =>
      rcases hk made₁ (hlater.trans hmade₁) a (hresult a rfl) made₁ List.prefix_rfl inv w₁
        (hinv.mono hmade₁) hw₁ with ⟨made₂, hmade₂, hw₂, hproperties₂, hresult₂⟩
      exact ⟨made₂, hmade₁.trans hmade₂, hw₂, hproperties₂.trans hproperties, hresult₂⟩

/-- What is made of a result is wanted of it as it is. -/
theorem map {m : Native α} (hm : Spares made m P) {f : α → β}
    (h : ∀ made' a, P made' a → Q made' (f a)) : Spares made (do return f (← m)) Q := by
  -- This is no case of the last: what is wanted need not stay true while more is made.
  intro made' hlater inv w hinv hw
  rcases hm made' hlater inv w hinv hw with ⟨made₁, hmade₁, hw₁, hproperties, hresult⟩
  rw [runOn_bind]
  rcases hrun : m.runOn inv w with ⟨result, w₁⟩
  rw [hrun] at hw₁ hproperties hresult
  cases result with
  | error i => exact ⟨made₁, hmade₁, hw₁, hproperties, nofun⟩
  | ok a =>
      refine ⟨made₁, hmade₁, hw₁, hproperties, fun b hb => ?_⟩
      cases hb
      exact h made₁ a (hresult a rfl)

/-- A handler sees what it was given. -/
theorem read : Spares made (MonadReader.read : Native Invocation) Invocation.MadeIn := by
  intro made' _ inv w hinv hw
  refine ⟨made', List.prefix_rfl, hw, rfl, fun a ha => ?_⟩
  cases ha
  exact hinv

/-- A handler sees what is remembered. -/
theorem get : Spares made (MonadState.get : Native World) World.MadeIn := by
  intro made' _ inv w hinv hw
  refine ⟨made', List.prefix_rfl, hw, rfl, fun a ha => ?_⟩
  cases ha
  exact hw

/-- What is made is listed. -/
theorem allocate (text : String) :
    Spares made (Native.allocate (.fixture text)) fun made' i => i.MadeIn made' := by
  intro made' _ inv w _ hw
  have hmade : made' <+: made' ++ [text] := List.prefix_append _ _
  refine ⟨made' ++ [text], hmade, ⟨?_, ?_, ?_⟩, rfl, fun a ha => ?_⟩
  · rw [List.length_append, hw.length]
    rfl
  · exact fun hi => (hw.objectProperty hi).mono hmade
  · exact fun hi => (hw.objectProperties hi).mono hmade
  · cases ha
    refine ⟨text, ?_, rfl⟩
    change (made' ++ [text])[w.nextAddress]? = some text
    rw [← hw.length, List.getElem?_append_right (Nat.le_refl _), Nat.sub_self]
    rfl

/-- A failure makes nothing. -/
theorem fail (e : CallError) : Spares made (Native.fail e : Native α) P := throw (.error e)

theorem fault (text : String) : Spares made (Native.fault text : Native α) P := fail _

theorem panic (message : Option String) : Spares made (Native.panic message : Native α) P :=
  throw (.panic message)

/-! ### Arguments -/

/-- An argument has in it only what was given. -/
theorem arg (index : Nat) : Spares made (Native.arg index) fun made' v => v.MadeIn made' := by
  refine read.bind fun made₁ _ inv hinv => ?_
  split
  next v hv =>
    exact pure fun made' hlater => (hinv.arguments v (List.mem_of_getElem? hv)).mono hlater
  next => exact fail _

theorem argAs {index : Nat} {expected : String} {accept : NativeValue → Option α}
    (h : ∀ made' v a, v.MadeIn made' → accept v = some a → P made' a) :
    Spares made (Native.argAs index expected accept) P := by
  refine (arg index).bind fun made₁ _ v hv => ?_
  split
  next a ha => exact pure fun made' hlater => h made' v a (hv.mono hlater) ha
  next => exact read.bind fun _ _ _ _ => fail _

theorem plain {index : Nat} {expected : String} {accept : NativeValue → Option α} :
    Spares made (Native.argAs index expected accept) fun _ _ => True :=
  argAs fun _ _ _ _ _ => trivial

theorem items (index : Nat) :
    Spares made (Native.items index) fun made' vs => ∀ v ∈ vs, v.MadeIn made' := by
  refine argAs fun made' v vs hv hvs => ?_
  split at hvs <;> cases hvs
  · exact Datum.madeIn_list_iff.mp hv
  · exact Datum.madeIn_set_iff.mp hv
  · exact Datum.madeIn_tuple_iff.mp hv

theorem fixtureObject (index : Nat) :
    Spares made (Native.fixtureObject index) fun made' object => object.1.MadeIn made' := by
  refine argAs fun made' v object hv hobject => ?_
  split at hobject <;> cases hobject
  exact Datum.madeIn_object_iff.mp hv

theorem unlessNull {read : Nat → Native α} {index : Nat} (h : ∀ made, Spares made (read index) P) :
    Spares made (Native.unlessNull read index) fun made' found =>
      ∀ a, found = some a → P made' a := by
  refine (arg index).bind fun made₁ hlater v _ => ?_
  split
  · exact pure fun _ _ => nofun
  · refine (h made₁).map fun made' a ha b hb => ?_
    cases hb
    exact ha

theorem progress (accept : NativeValue → Option α) :
    Spares made (Native.progress accept) fun _ _ => True :=
  read.bind fun _ _ _ _ => pure fun _ _ => trivial

end Spares

end Native

/-- A handler that leaves the properties of objects alone, and hands over no objects but those
    it was given, those it found remembered, and those it made. -/
def Handler.Spares (h : Handler) : Prop := ∀ made, Native.Spares made h Step.MadeIn

theorem Step.madeIn_done : Step.done.MadeIn made := fun _ hv => absurd hv List.not_mem_nil

theorem Step.madeIn_value_iff : (Step.value v).MadeIn made ↔ v.MadeIn made :=
  List.forall_mem_singleton

theorem Step.madeIn_yield_iff : (Step.yield v).MadeIn made ↔ v.MadeIn made :=
  List.forall_mem_singleton

/-- A step that hands over a value that refers to nothing. -/
theorem Step.madeIn_plain (h : v.references = []) : (Step.value v).MadeIn made :=
  Step.madeIn_value_iff.mpr (Datum.madeIn_of_references_eq_nil h)

namespace Fixture

open Native (Spares)

/-! ## Parts that handlers share -/

theorem spares_object (index : Nat) :
    Spares made (object index) fun made' i => i.MadeIn made' :=
  (Spares.fixtureObject index).map fun _ _ h => h

theorem spares_valueOf (index : Nat) : Spares made (valueOf index) fun _ _ => True :=
  (Spares.fixtureObject index).map fun _ _ _ => trivial

theorem spares_state : Spares made state fun made' s =>
    (∀ i, s.objectProperty = some i → i.MadeIn made') ∧
      ∀ a i, s.objectProperties.get? a = some i → i.MadeIn made' :=
  Spares.get.map fun _ _ hw =>
    ⟨fun _ hi => hw.objectProperty hi, fun _ _ hi => hw.objectProperties hi⟩

theorem spares_create (index : Nat) : Spares made (create index) fun made' i => i.MadeIn made' :=
  Spares.plain.bind fun _ _ text _ => .allocate text

theorem spares_textStep (text : String) : Spares made (textStep text) Step.MadeIn :=
  .pure fun _ _ => Step.madeIn_plain rfl

theorem spares_objectStep {object : Option Instance}
    (h : ∀ i, object = some i → i.MadeIn made) : Spares made (objectStep object) Step.MadeIn := by
  refine .pure fun made' hlater => Step.madeIn_value_iff.mpr ?_
  cases object with
  | none => exact Datum.madeIn_of_references_eq_nil rfl
  | some i => exact Datum.madeIn_object_iff.mpr ((h i rfl).mono hlater)

theorem spares_update {change : FixtureState → FixtureState}
    (hsame : ∀ s, (change s).objectProperties = s.objectProperties)
    (h : ∀ s i, (change s).objectProperty = some i → i.MadeIn made ∨ s.objectProperty = some i) :
    Spares made (update change) Step.MadeIn := by
  intro made' hlater inv w _ hw
  refine ⟨made', List.prefix_rfl, ⟨hw.length, fun hi => ?_, fun hi => ?_⟩, hsame _, fun a ha => ?_⟩
  · rcases h _ _ hi with hi | hi
    · exact hi.mono hlater
    · exact hw.objectProperty hi
  · exact hw.objectProperties (hsame w.fixture ▸ hi)
  · cases ha
    exact Step.madeIn_done

/-- A procedure that writes something of an argument. -/
theorem spares_text {α : Type} {m : Native α} {text : α → String}
    (h : Spares made m fun _ _ => True) : Spares made (do textStep (text (← m))) Step.MadeIn :=
  h.bind fun _ _ _ _ => spares_textStep _

/-! ## Plain procedures -/

theorem boolText_spares : boolText.Spares := fun _ => spares_text .plain

theorem parseInt_spares : parseInt.Spares := by
  intro made
  refine Spares.plain.bind fun _ _ text _ => ?_
  split
  · exact .pure fun _ _ => Step.madeIn_plain rfl
  · exact .fault _

theorem bytesText_spares : bytesText.Spares := fun _ => spares_text .plain

theorem addMultiple_spares : addMultiple.Spares := fun _ =>
  Spares.plain.bind fun _ _ _ _ => Spares.plain.bind fun _ _ _ _ => spares_text .plain

theorem createObject_spares (index : Nat) :
    Handler.Spares (do objectStep (some (← create index))) := by
  intro made
  refine (spares_create index).bind fun _ _ i hi => spares_objectStep fun j hj => ?_
  cases hj
  exact hi

theorem echoObject_spares : echoObject.Spares := fun _ =>
  (Spares.unlessNull fun _ => spares_object 0).bind fun _ _ _ h => spares_objectStep h

theorem joinTexts_spares : joinTexts.Spares := fun _ =>
  Spares.plain.bind fun _ _ _ _ => Spares.plain.bind fun _ _ _ _ => spares_text .plain

theorem echoEnum_spares : echoEnum.Spares := fun _ =>
  Spares.plain.map fun _ _ _ => Step.madeIn_plain rfl

theorem appendObject_spares : appendObject.Spares := by
  intro made
  refine (Spares.items 0).bind fun made₁ _ items hitems => ?_
  refine (spares_create 1).bind fun made₂ hlater i hi => .pure fun made' hlater' => ?_
  refine Step.madeIn_value_iff.mpr (Datum.madeIn_list_iff.mpr fun item hitem => ?_)
  rcases List.mem_append.mp hitem with hitem | hitem
  · exact (hitems item hitem).mono (hlater.trans hlater')
  · rw [List.mem_singleton.mp hitem]
    exact Datum.madeIn_object_iff.mpr (hi.mono hlater')

mutual

theorem madeIn_of_increment : ∀ (v : NativeValue) {w : NativeValue}, increment v = .ok w →
    v.MadeIn made → w.MadeIn made
  | .int32 _, w, h, _ | .int64 _, w, h, _ => by
      cases h
      exact Datum.madeIn_of_references_eq_nil rfl
  | .list items, w, h, hv => by
      rw [increment, map_eq_ok_iff] at h
      rcases h with ⟨results, hresults, rfl⟩
      rw [Datum.madeIn_list_iff] at hv ⊢
      exact madeIn_of_incrementAll items hresults hv
  | .set items, w, h, hv => by
      rw [increment, map_eq_ok_iff] at h
      rcases h with ⟨results, hresults, rfl⟩
      rw [Datum.madeIn_set_iff] at hv ⊢
      exact madeIn_of_incrementAll items hresults hv
  | .tuple items, w, h, hv => by
      rw [increment, map_eq_ok_iff] at h
      rcases h with ⟨results, hresults, rfl⟩
      rw [Datum.madeIn_tuple_iff] at hv ⊢
      exact madeIn_of_incrementAll items hresults hv
  | .map entries, w, h, hv => by
      rw [increment, map_eq_ok_iff] at h
      rcases h with ⟨results, hresults, rfl⟩
      rw [Datum.madeIn_map_iff] at hv ⊢
      exact madeIn_of_incrementEntries entries hresults hv
  | .null, _, h, _ | .bool _, _, h, _ | .float32 _, _, h, _ | .float64 _, _, h, _
  | .string _, _, h, _ | .bytes _, _, h, _ | .enum _, _, h, _ | .object _, _, h, _ => by cases h

theorem madeIn_of_incrementAll : ∀ (vs : List NativeValue) {ws : List NativeValue},
    incrementAll vs = .ok ws → (∀ v ∈ vs, v.MadeIn made) → ∀ w ∈ ws, w.MadeIn made
  | [], ws, h, _ => by
      cases h
      exact List.forall_mem_nil _
  | v :: vs, ws, h, hvs => by
      rw [incrementAll, map₂_eq_ok_iff] at h
      rcases h with ⟨first, rest, hfirst, hrest, rfl⟩
      rw [List.forall_mem_cons] at hvs ⊢
      exact ⟨madeIn_of_increment v hfirst hvs.1, madeIn_of_incrementAll vs hrest hvs.2⟩

theorem madeIn_of_incrementEntries : ∀ (entries : List (NativeValue × NativeValue))
    {results : List (NativeValue × NativeValue)}, incrementEntries entries = .ok results →
    (∀ entry ∈ entries, entry.1.MadeIn made ∧ entry.2.MadeIn made) →
    ∀ result ∈ results, result.1.MadeIn made ∧ result.2.MadeIn made
  | [], results, h, _ => by
      cases h
      exact List.forall_mem_nil _
  | (k, v) :: entries, results, h, hentries => by
      rw [incrementEntries, map₂_eq_ok_iff] at h
      rcases h with ⟨first, rest, hfirst, hrest, rfl⟩
      rw [List.forall_mem_cons] at hentries ⊢
      exact ⟨⟨hentries.1.1, madeIn_of_increment v hfirst hentries.1.2⟩,
        madeIn_of_incrementEntries entries hrest hentries.2⟩

end

theorem incrementArgument_spares : incrementArgument.Spares := by
  intro made
  refine (Spares.arg 0).bind fun made₁ _ v hv => ?_
  split
  next w hw =>
    exact .pure fun _ hlater =>
      Step.madeIn_value_iff.mpr (madeIn_of_increment v hw (hv.mono hlater))
  next => exact .fault _

theorem spares_checked (operation : String) (n : Int) :
    Spares made (checked operation n) fun _ _ => True := by
  unfold checked
  split
  · exact .pure fun _ _ => trivial
  · exact .panic _

theorem spares_countFrom (n sum : Int32) : Spares made (countFrom n sum) Step.MadeIn := by
  unfold countFrom
  split
  · exact .pure fun _ _ => Step.madeIn_plain rfl
  · exact (spares_checked _ _).bind fun _ _ _ _ => (spares_checked _ _).map fun _ _ _ =>
      Step.madeIn_yield_iff.mpr (Datum.madeIn_of_references_eq_nil rfl)

theorem countDown_spares : countDown.Spares := by
  intro made
  refine (Spares.progress _).bind fun _ _ earlier _ => ?_
  cases earlier with
  | some p => exact spares_countFrom p.1 p.2
  | none =>
      exact Spares.plain.bind fun _ _ n _ => Spares.plain.bind fun _ _ sum _ =>
        spares_countFrom n sum

/-- What the other procedure that blocks does with the number that it goes on from. -/
theorem spares_countQuietly (n : Int32) :
    Spares made (if n = 0 then return .done
      else return .yield (.int32 (← checked "subtract" (n.toInt - 1)))) Step.MadeIn := by
  split
  · exact .pure fun _ _ => Step.madeIn_done
  · exact (spares_checked _ _).map fun _ _ _ =>
      Step.madeIn_yield_iff.mpr (Datum.madeIn_of_references_eq_nil rfl)

theorem countDownQuietly_spares : countDownQuietly.Spares := by
  intro made
  refine (Spares.progress _).bind fun _ _ earlier _ => ?_
  cases earlier with
  | some n => exact spares_countQuietly n
  | none => exact Spares.plain.bind fun _ _ n _ => spares_countQuietly n

end Fixture

end Switchboard
