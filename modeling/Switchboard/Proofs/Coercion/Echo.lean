import Switchboard.Proofs.Coercion.Binding
import Switchboard.Proofs.Coercion.Decoding
import Switchboard.Proofs.Coercion.Runs
import Switchboard.Proofs.Datum.Parts
import Switchboard.Proofs.Dispatcher.Turn
import Switchboard.Proofs.Objects.Consistency
import Switchboard.Proofs.Objects.Sharing
import Switchboard.Proofs.Scan.Offers
import Switchboard.Services.Fixture

/-!
# Written as it was Read

A procedure that gives back what it was given sends its client what the client had
sent, down to the numbers of the objects. Reading and writing are two recursions, and
they do not treat null alike. But what has been read has null at optional types only,
where they agree, and an instance that was read from the table is found there again
by its address, so that it gets the number it was sent under.

The table changes while a value is written, and the instances further to the right
have to be found in the table as it is by then. `Echoes` is therefore a statement
about every table that is as before but for some more owners. In this form what
holds of the parts of a value holds of the value, with the entries that gain an
owner listed one part after the other.

What a procedure that gives its argument back does with arguments it is never given is
of no importance: it may well fail, as everything does that asks an accessor for what is
not there. `Descriptor.GivesBack` is therefore asked for one value at a time, the one
that was read.

## Main definitions

* `Echoes`: Writing that changes nothing but owners.
* `Descriptor.GivesBack`: A procedure that returns a value it is given.

## Theorems

* `encode_echoes`: What has been read is written as it was sent.
* `dispatch_givesBack`: What a client gets back from a procedure that returns its
  argument.
* `written_as_read`: Both, for every table that operations have made.
* `Fixture.echoEnum_givesBack`, `Fixture.echoObject_givesBack`: Procedures of the fixture
  services that do so.
-/

namespace Switchboard

/-! ## Echoes -/

/-- Writing that gives a result and does nothing to the table but share the entries
    listed, whatever has been shared before. -/
def Echoes (t : ObjectTable) (owner : ConnectionId) {α : Type} (m : Writing α) (a : α)
    (ids : List ObjectId) : Prop :=
  ∀ held, m.run.run (t.share owner held) = (.ok a, t.share owner (held ++ ids))

namespace Echoes

variable {t : ObjectTable} {owner : ConnectionId} {α β γ : Type}

/-- What has been shared before is of no consequence, so it may be nothing. -/
theorem run {m : Writing α} {a : α} {ids : List ObjectId} (hm : Echoes t owner m a ids) :
    m.run.run t = (.ok a, t.share owner ids) := by
  have h := hm []
  rwa [ObjectTable.share_nil, List.nil_append] at h

theorem pure (a : α) : Echoes t owner (Pure.pure a) a [] := by
  intro held
  rw [List.append_nil]
  rfl

theorem bind {m : Writing α} {k : α → Writing β} {a : α} {b : β} {ids ids' : List ObjectId}
    (hm : Echoes t owner m a ids) (hk : Echoes t owner (k a) b ids') :
    Echoes t owner (m >>= k) b (ids ++ ids') := by
  intro held
  rw [Writing.run_bind, hm held]
  exact (hk (held ++ ids)).trans (by rw [List.append_assoc])

theorem map {m : Writing α} {a : α} {ids : List ObjectId} (hm : Echoes t owner m a ids)
    (f : α → β) : Echoes t owner (do return f (← m)) (f a) ids := by
  have h := hm.bind (k := fun a => Pure.pure (f a)) (.pure (f a))
  rwa [List.append_nil] at h

theorem mapM {f : α → Writing β} {ids : β → List ObjectId} {items : List α} {results : List β}
    (h : List.Forall₂ (fun item result => Echoes t owner (f item) result (ids result)) items
      results) :
    Echoes t owner (items.mapM f) results (results.flatMap ids) := by
  induction h with
  | nil => exact .pure []
  | cons hitem _ ih =>
      rw [List.mapM_cons, List.flatMap_cons]
      exact hitem.bind (ih.map _)

/-- Entering an instance that is entered already shares its entry. -/
theorem register (hconsistent : t.Consistent) {id : ObjectId} {entry : ObjectEntry}
    (hentry : t.entries.get? id = some entry) (className : String) :
    Echoes t owner (Writing.register entry.object className owner) id [id] := by
  intro held
  rcases ObjectTable.register_shared (hconsistent.address_of_entry id entry hentry) hentry
    className owner held with ⟨hid, htable⟩
  rw [Writing.run_register, hid, htable]

end Echoes

/-! ## Writing what has been read -/

variable {services : Services} {t : ObjectTable} {context context' : String}
  {owner : ConnectionId}

/-- Nothing but null is read as null. -/
theorem decode_ne_null : ∀ (ty : Ty) {w : Value}, w ≠ .null →
    decode services t context ty w ≠ .ok .null
  | .optional inner, w, hnull => by
      rw [decode_optional hnull]
      exact decode_ne_null inner hnull
  | .bool, w, _ | .int32, w, _ | .int64, w, _ | .float32, w, _ | .float64, w, _
  | .string, w, _ | .bytes, w, _ => by
      cases w <;> exact fun h => by cases h
  | .list element, w, _ => by
      cases w with
      | list items => exact map_ne_ok fun _ => by simp
      | _ => exact fun h => by cases h
  | .set element, w, _ => by
      cases w with
      | set items => exact map_ne_ok fun _ => by simp
      | _ => exact fun h => by cases h
  | .map key value, w, _ => by
      cases w with
      | map entries => exact map_ne_ok fun _ => by simp
      | _ => exact fun h => by cases h
  | .tuple elements, w, _ => by
      cases w with
      | tuple items =>
          rw [decode]
          split
          · exact map_ne_ok fun _ => by simp
          · exact fun h => by cases h
      | _ => exact fun h => by cases h
  | .enumeration service name, w, _ => by
      cases w with
      | enum n => exact map_ne_ok fun _ => by simp
      | _ => exact fun h => by cases h
  | .instanceOf service name, w, _ => by
      cases w with
      | object id => exact map_ne_ok fun _ => by simp
      | _ => exact fun h => by cases h

mutual

/-- What has been read is written as it was sent, and sharing the entries of what
    occurs in it is all that happens to the table. -/
theorem encode_echoes (hconsistent : t.Consistent) : ∀ (ty : Ty) (w : Value) (n : NativeValue),
    decode services t context ty w = .ok n →
      Echoes t owner (encode services owner context' ty n) w w.references
  | .bool, w, n, h | .int32, w, n, h | .int64, w, n, h | .float32, w, n, h | .float64, w, n, h
  | .string, w, n, h | .bytes, w, n, h => by
      -- One shape fits, and it is read as itself.
      cases w <;> first
        | (rw [← Except.ok.inj h]; exact .pure _)
        | cases h
  | .optional inner, w, n, h => by
      by_cases hnull : w = .null
      · rw [hnull] at h ⊢
        rw [← Except.ok.inj h]
        exact .pure _
      · rw [decode_optional hnull] at h
        have hne : n ≠ .null := fun hn => decode_ne_null inner hnull (hn ▸ h)
        rw [encode_optional hne]
        exact encode_echoes hconsistent inner w n h
  | .list element, w, n, h => by
      cases w with
      | list items =>
          rw [decode, map_eq_ok_iff] at h
          rcases h with ⟨ns, hns, rfl⟩
          have ih := encode_echoes hconsistent element
          rw [Datum.references_list]
          exact .map (.mapM (.flip ((mapM_eq_ok_iff_forall₂.mp hns).imp ih))) _
      | _ => cases h
  | .set element, w, n, h => by
      cases w with
      | set items =>
          rw [decode, map_eq_ok_iff] at h
          rcases h with ⟨ns, hns, rfl⟩
          have ih := encode_echoes hconsistent element
          rw [Datum.references_set]
          exact .map (.mapM (.flip ((mapM_eq_ok_iff_forall₂.mp hns).imp ih))) _
      | _ => cases h
  | .map key value, w, n, h => by
      cases w with
      | map entries =>
          rw [decode, map_eq_ok_iff] at h
          rcases h with ⟨ns, hns, rfl⟩
          rw [Datum.references_map]
          have hpairs := mapM_eq_ok_iff_forall₂.mp hns
          refine .map (.mapM (.flip (hpairs.imp fun entry pair hpair => ?_))) _
          rcases map₂_eq_ok_iff.mp hpair with ⟨k, v, hk, hv, rfl⟩
          exact .bind (encode_echoes hconsistent key entry.1 k hk)
            (.map (encode_echoes hconsistent value entry.2 v hv) _)
      | _ => cases h
  | .tuple elements, w, n, h => by
      cases w with
      | tuple items =>
          rw [decode] at h
          split at h
          · next hlength =>
              rw [map_eq_ok_iff] at h
              rcases h with ⟨ns, hns, rfl⟩
              rcases encodePairwise_echoes hconsistent elements items ns hlength hns with
                ⟨hlength', hechoes⟩
              rw [Datum.references_tuple, encode, if_pos hlength']
              exact .map hechoes _
          · cases h
      | _ => cases h
  | .enumeration service name, w, n, h => by
      cases w with
      | enum m =>
          rw [decode, checkMember] at h
          split at h
          · next hmember =>
              rw [← Except.ok.inj h, encode, checkMember, if_pos hmember]
              exact .bind (.pure ()) (.pure _)
          · cases h
      | _ => cases h
  | .instanceOf service name, w, n, h => by
      cases w with
      | object id =>
          rw [decode, map_eq_ok_iff] at h
          rcases h with ⟨object, hobject, rfl⟩
          rcases ObjectTable.resolveAs_eq_ok_iff.mp hobject with ⟨entry, hentry, -, rfl⟩
          exact .map (.register hconsistent hentry _) _
      | _ => cases h

theorem encodePairwise_echoes (hconsistent : t.Consistent) : ∀ (tys : List Ty) (ws : List Value)
    (ns : List NativeValue), ws.length = tys.length →
    decodePairwise services t context tys ws = .ok ns →
    ns.length = tys.length ∧
      Echoes t owner (encodePairwise services owner context' tys ns) ws
        (ws.flatMap Datum.references)
  | [], [], ns, _, h => by
      rw [← Except.ok.inj h]
      exact ⟨rfl, .pure []⟩
  | ty :: tys, w :: ws, ns, hlength, h => by
      rw [decodePairwise, map₂_eq_ok_iff] at h
      rcases h with ⟨n, rest, hn, hrest, rfl⟩
      rcases encodePairwise_echoes hconsistent tys ws rest (Nat.succ.inj hlength) hrest with
        ⟨hlength', hechoes⟩
      exact ⟨congrArg (· + 1) hlength',
        .bind (encode_echoes hconsistent ty w n hn) (.map hechoes _)⟩
  | [], _ :: _, _, hlength, _ => nomatch hlength
  | _ :: _, [], _, hlength, _ => nomatch hlength

end

/-! ## Giving an argument back -/

/-- A procedure of one parameter that returns this value when it is given it. The return
    type need not be the type of the parameter, as long as the value is written there as it
    is here. Nothing is asked of other arguments or other numbers of them. -/
structure Descriptor.GivesBack (descriptor : Descriptor) (ty : Ty) (n : NativeValue) : Prop where
  parameters : ∃ parameter, descriptor.procedure.parameters = [parameter] ∧ parameter.ty = ty
  returned : ∃ returnType, descriptor.procedure.returnType = some returnType ∧
    ∀ services owner context,
      encode services owner context returnType n = encode services owner context ty n
  handled : ∀ invocation world, invocation.procedure = descriptor.qualifiedName →
    invocation.arguments = [n] → invocation.progress = none →
    (descriptor.handler.react invocation world).1 = .ok (.complete (some n))

theorem bindArguments_single {procedure : String} {parameter : Parameter} {w : Value}
    {n : NativeValue}
    (h : decode services t (argumentContext procedure parameter) parameter.ty w = .ok n) :
    bindArguments services t procedure [parameter] [⟨0, w⟩] = .ok [n] := by
  have hsupply : [(⟨0, w⟩ : Argument)].foldlM (supply procedure 1) {} =
      .ok (({} : Table Value).insert 0 w) := rfl
  rw [bindArguments, List.length_singleton, hsupply]
  change (do
    let first ← bindParameter services t procedure parameter (some w)
    return [first]) = _
  rw [bindParameter_supplied h]
  rfl

/-- What is dispatched to a procedure that gives its argument back completes with
    what was sent. -/
theorem dispatch_givesBack {d : Dispatcher} {call : Call} {descriptor : Descriptor} {ty : Ty}
    {w : Value} {n : NativeValue} (hconsistent : d.objects.Consistent)
    (hdescriptor : d.catalog.directory.get call.procedure = .ok descriptor)
    (hback : descriptor.GivesBack ty n) (harguments : call.arguments = [⟨0, w⟩])
    (hdecode : decode d.catalog.services d.objects context ty w = .ok n) :
    (d.dispatch call).1 = .completed (some w) ∧
      (d.dispatch call).2.objects = d.objects.share call.ctx.connection w.references := by
  rcases hback.parameters with ⟨parameter, hparameters, rfl⟩
  rcases hback.returned with ⟨returnType, hreturnType, halike⟩
  have hn : decode d.catalog.services d.objects
      (argumentContext descriptor.qualifiedName parameter) parameter.ty w = .ok n :=
    decode_eq_ok_anywhere _ _ _ hdecode
  have hprepare : d.prepare call = .ok ⟨descriptor, call.ctx, [n], none, 0⟩ := by
    rw [Dispatcher.prepare, hdescriptor]
    change (do
      let arguments ← bindArguments d.catalog.services d.objects descriptor.qualifiedName
        descriptor.procedure.parameters call.arguments
      return ({ descriptor, ctx := call.ctx, arguments } : Turn)) = _
    rw [hparameters, harguments, bindArguments_single hn]
    rfl
  rcases Dispatcher.dispatch_prepared hprepare with ⟨next, objects', htook, hbecame⟩
  rcases htook.run with ⟨run, -, hserves, hconcludes⟩
  have hresult : run.result = .ok (.complete (some n)) := by
    rw [HandlerRun.result, hserves.handler]
    exact hback.handled _ _ hserves.procedure hserves.arguments hserves.progress
  have hwritten : (Dispatcher.writeReturn d.catalog.services
      ⟨descriptor, call.ctx, [n], none, 0⟩ (some n)).run.run d.objects =
        (.ok (some w), d.objects.share call.ctx.connection w.references) := by
    unfold Dispatcher.writeReturn
    simp only [hreturnType, Option.getD_some, halike]
    exact ((encode_echoes hconsistent parameter.ty w n hn).map some).run
  rw [hresult] at hconcludes
  rw [hbecame.objects]
  change (d.dispatchEvent call).outcome = _ ∧ _
  generalize (d.dispatchEvent call).outcome = outcome at hconcludes
  cases hconcludes with
  | completed hw =>
      rw [hwritten] at hw
      cases hw
      exact ⟨rfl, rfl⟩
  | unwritable hw => exact nomatch hwritten.symm.trans hw

/-- What has been read is written as it was sent: the same shapes in the same order,
    the same numbers and the same members. Nothing is entered, no number is used up
    and no entry is removed. The entries of the objects that occur in what was sent,
    and no others, gain the owner as an owner, unless it has disconnected. A procedure
    that gives its argument back therefore returns what was sent. -/
theorem written_as_read (services : Services) (ops : List ObjectOperation)
    (owner : ConnectionId) (context context' : String) (ty : Ty) (w : Value) (n : NativeValue)
    (h : decode services (({} : ObjectTable).replay ops) context ty w = .ok n) :
    (∃ t', (encode services owner context' ty n).run.run (({} : ObjectTable).replay ops) =
        (.ok w, t') ∧
      t'.nextId = (({} : ObjectTable).replay ops).nextId ∧
      t'.addresses = (({} : ObjectTable).replay ops).addresses ∧
      t'.closed = (({} : ObjectTable).replay ops).closed ∧
      ∀ id, t'.entries.get? id = ((({} : ObjectTable).replay ops).entries.get? id).map fun entry =>
        if (({} : ObjectTable).replay ops).closed.contains owner = false ∧ id ∈ w.references then
          { entry with owners := entry.owners.add owner }
        else entry) ∧
    ∀ (d : Dispatcher) (call : Call) (descriptor : Descriptor),
      d.catalog.services = services → d.objects = ({} : ObjectTable).replay ops →
      d.catalog.directory.get call.procedure = .ok descriptor → descriptor.GivesBack ty n →
      call.arguments = [⟨0, w⟩] → (d.dispatch call).1 = .completed (some w) := by
  have hconsistent := ObjectTable.Consistent.init.replay ops
  generalize ({} : ObjectTable).replay ops = t at h hconsistent ⊢
  constructor
  · exact ⟨t.share owner w.references, (encode_echoes hconsistent ty w n h).run,
      ObjectTable.share_nextId _, ObjectTable.share_addresses _, ObjectTable.share_closed _,
      ObjectTable.get?_share t owner w.references⟩
  · rintro d call descriptor rfl rfl hdescriptor hback harguments
    exact (dispatch_givesBack hconsistent hdescriptor hback harguments h).1

/-! ## Procedures that give back -/

/-- At an optional of a class a value is written as at the class, null included. -/
theorem encode_optional_instanceOf (services : Services) (owner : ConnectionId)
    (context service name : String) (n : NativeValue) :
    encode services owner context (.optional (.instanceOf service name)) n =
      encode services owner context (.instanceOf service name) n := by
  by_cases hnull : n = .null
  · rw [hnull]
    rfl
  · exact encode_optional hnull _

/-- The procedure of the fixture services that echoes members of their enumeration gives
    back every one. -/
theorem Fixture.echoEnum_givesBack {descriptor : Descriptor}
    (h : (published fixtureServices).directory.get "TestService.EnumEcho" = .ok descriptor)
    (m : Int32) : descriptor.GivesBack enumTy (.enum m) := by
  cases h
  refine ⟨⟨_, rfl, rfl⟩, ⟨_, rfl, fun _ _ _ => rfl⟩, ?_⟩
  rintro ⟨_, _, _, _, arguments, _⟩ world - rfl -
  rfl

/-- The one that echoes objects gives back those of the fixture's class and null, although
    its return type is not the type of its parameter. -/
theorem Fixture.echoObject_givesBack {descriptor : Descriptor}
    (h : (published fixtureServices).directory.get "TestService.EchoTestObject" = .ok descriptor)
    {n : NativeValue} (hn : n = .null ∨ ∃ address text, n = .object ⟨address, .fixture text⟩) :
    descriptor.GivesBack (.optional objectTy) n := by
  cases h
  refine ⟨⟨_, rfl, rfl⟩, ⟨objectTy, rfl, fun _ _ _ => ?_⟩, ?_⟩
  · exact (encode_optional_instanceOf ..).symm
  · rintro ⟨_, _, _, _, arguments, _⟩ world - rfl -
    rcases hn with rfl | ⟨address, text, rfl⟩ <;> rfl

/-- A list of objects of a class, with nothing here and there. -/
def objectsType : Ty := .list (.optional (.instanceOf "S" "C"))

/-- A procedure that gives back a list of objects. -/
def echoObjects : Descriptor where
  qualifiedName := "S.Echo"
  service := "S"
  procedure := ⟨"Echo", [⟨"objects", objectsType, none⟩], some objectsType, "", false⟩
  handler := do return .value (← Native.arg 0)

theorem echoObjects_givesBack (n : NativeValue) : echoObjects.GivesBack objectsType n := by
  refine ⟨⟨_, rfl, rfl⟩, ⟨_, rfl, fun _ _ _ => rfl⟩, ?_⟩
  rintro ⟨_, _, _, _, arguments, _⟩ world - rfl -
  rfl

/-- An object that occurs twice is given back twice, and its entry is kept for the
    client that sent it as well. So it is with a member of an enumeration and with an
    object that the procedures of the fixture are sent. -/
theorem sharedObject_written_as_read :
    (∃ t', (encode ⟨[]⟩ 2 "S.Echo return value" objectsType
        (.list [.object ⟨5, .label "a"⟩, .null, .object ⟨5, .label "a"⟩])).run.run
          (({} : ObjectTable).replay [.register ⟨5, .label "a"⟩ "S.C" 1]) =
        (.ok (.list [.object 1, .null, .object 1]), t') ∧ t'.nextId = 2 ∧
      ∃ entry, t'.entries.get? 1 = some entry ∧ entry.owners = (IdSet.of 1).add 2) ∧
    (Dispatcher.dispatch
        { catalog := ⟨⟨[]⟩, ⟨[echoObjects]⟩⟩
          objects := ({} : ObjectTable).replay [.register ⟨5, .label "a"⟩ "S.C" 1] }
        ⟨⟨1, 2⟩, "S.Echo", [⟨0, .list [.object 1, .null, .object 1]⟩]⟩).1 =
      .completed (some (.list [.object 1, .null, .object 1])) ∧
    (Dispatcher.dispatch { catalog := published fixtureServices }
        ⟨⟨1, 2⟩, "TestService.EnumEcho", [⟨0, .enum (-2)⟩]⟩).1 =
      .completed (some (.enum (-2))) ∧
    (Dispatcher.dispatch
        { catalog := published fixtureServices
          objects := ({} : ObjectTable).replay
            [.register ⟨5, .fixture "bob"⟩ "TestService.TestClass" 1] }
        ⟨⟨1, 2⟩, "TestService.EchoTestObject", [⟨0, .object 1⟩]⟩).1 =
      .completed (some (.object 1)) := by
  rcases written_as_read ⟨[]⟩ [.register ⟨5, .label "a"⟩ "S.C" 1] 2 "S.Echo argument 'objects'"
    "S.Echo return value" objectsType (.list [.object 1, .null, .object 1])
    (.list [.object ⟨5, .label "a"⟩, .null, .object ⟨5, .label "a"⟩]) rfl with
    ⟨⟨t', hwritten, hnext, -, -, hentries⟩, hback⟩
  have henum := (written_as_read (published fixtureServices).services [] 2 "" "" Fixture.enumTy
    (.enum (-2)) (.enum (-2)) rfl).2
  have hobject := (written_as_read (published fixtureServices).services
    [.register ⟨5, .fixture "bob"⟩ "TestService.TestClass" 1] 2 "" ""
    (.optional Fixture.objectTy) (.object 1) (.object ⟨5, .fixture "bob"⟩) rfl).2
  refine ⟨⟨t', hwritten, hnext, _, hentries 1, rfl⟩, ?_, ?_, ?_⟩
  · exact hback _ _ echoObjects rfl rfl rfl (echoObjects_givesBack _) rfl
  · exact henum _ _ _ rfl rfl rfl (Fixture.echoEnum_givesBack rfl _) rfl
  · exact hobject _ _ _ rfl rfl rfl (Fixture.echoObject_givesBack rfl (.inr ⟨_, _, rfl⟩)) rfl

end Switchboard
