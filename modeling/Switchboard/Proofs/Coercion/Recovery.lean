import Switchboard.Proofs.Coercion.Decoding
import Switchboard.Proofs.Coercion.Lasting
import Switchboard.Proofs.Datum.Parts
import Switchboard.Proofs.Objects.Extension

/-!
# Read as it was Written

A client that sends back what it was sent calls a procedure with what another
procedure has returned. What arrives is the same value with the same instances, with
two exceptions, and both come from what a procedure may return and a client may not
send. A procedure may return null for an object. And it may return an instance under a
class that is not the one the instance was entered under, in this value further to the
left or in another value before; the instance keeps its class, and its number will not
be taken where another class is expected.

`Faithful` says that neither is the case, place by place. Whether an instance is
entered under the class of its place is a question to the table that is left when
everything is written, and at the time when a part is written the answer may not be
known for what stands further to the right. So what is shown of a part is an
equivalence: in the table that is left, and in every later one, it is read back
exactly if it is faithful to that table.

`Secures` is what carries such a statement through writing. It is about tables that
are ready for the instances of the value, and what it says of the result holds of
every later table, so nothing has to be said again when the table has grown.

## Main definitions

* `Recovers`: A result that is as it should be under a condition, and an error
  otherwise.
* `Secures`: Writing after which something holds for good.
* `Faithful`: Values that will be read back.
* `Renders`: What a value may be written as.

## Theorems

* `encode_secures`: What is written renders the value.
* `read_as_written`: What is read back after writing to a table that operations have
  made.
-/

namespace Switchboard

/-! ## What can be recovered -/

/-- A result that is `a` under a condition and an error otherwise. -/
structure Recovers {ε α : Type} (r : Except ε α) (a : α) (c : Prop) : Prop where
  back : c → r = .ok a
  lost : ¬c → ∃ e, r = .error e

namespace Recovers

variable {ε α β γ : Type} {c d : Prop}

theorem ok {a : α} (h : c) : Recovers (.ok a : Except ε α) a c :=
  ⟨fun _ => rfl, fun hc => absurd h hc⟩

theorem error {a : α} {e : ε} (h : ¬c) : Recovers (.error e : Except ε α) a c :=
  ⟨fun hc => absurd hc h, fun _ => ⟨e, rfl⟩⟩

theorem eq_ok_iff {r : Except ε α} {a : α} (h : Recovers r a c) : r = .ok a ↔ c := by
  refine ⟨fun hr => Classical.byContradiction fun hc => ?_, h.back⟩
  rcases h.lost hc with ⟨e, he⟩
  exact nomatch hr.symm.trans he

theorem congr {r : Except ε α} {a : α} (h : Recovers r a c) (hcd : d ↔ c) : Recovers r a d :=
  ⟨fun hd => h.back (hcd.mp hd), fun hd => h.lost fun hc => hd (hcd.mpr hc)⟩

theorem map {r : Except ε α} {a : α} (h : Recovers r a c) (f : α → β) :
    Recovers (do return f (← r)) (f a) c := by
  refine ⟨fun hc => by rw [h.back hc]; rfl, fun hc => ?_⟩
  rcases h.lost hc with ⟨e, he⟩
  exact ⟨e, by rw [he]; rfl⟩

theorem map₂ {r : Except ε α} {a : α} {s : Except ε β} {b : β} (hr : Recovers r a c)
    (hs : Recovers s b d) (f : α → β → γ) :
    Recovers (do let a ← r; let b ← s; return f a b) (f a b) (c ∧ d) := by
  by_cases hc : c
  · rw [hr.back hc]
    exact (hs.map (f a)).congr (and_iff_right hc)
  · rcases hr.lost hc with ⟨e, he⟩
    rw [he]
    exact .error fun h => hc h.1

theorem mapM {f : β → Except ε α} {C : α → Prop} {items : List α} {results : List β}
    (h : List.Forall₂ (fun item result => Recovers (f result) item (C item)) items results) :
    Recovers (results.mapM f) items (∀ item ∈ items, C item) := by
  induction h with
  | nil => exact .ok (List.forall_mem_nil _)
  | cons hitem _ ih =>
      rw [List.mapM_cons]
      exact (hitem.map₂ ih _).congr List.forall_mem_cons

end Recovers

/-! ## What writing secures -/

/-- Writing after which, if it succeeds, something holds of the result for good: for
    the table that it leaves and for every later one. -/
def Secures (owner : ConnectionId) (known : Instance → Prop) {α : Type} (m : Writing α)
    (Q : ObjectTable → α → Prop) : Prop :=
  ∀ t, t.Ready owner known → ∀ a t', m.run.run t = (.ok a, t') →
    t'.Ready owner known ∧ t.Keeps t' ∧ ∀ t'', t'.Keeps t'' → t''.Consistent → Q t'' a

/-- Tables that are ready for some instances, and those that keep what is live. -/
def Frame.ready (owner : ConnectionId) (known : Instance → Prop) : Frame where
  good t := t.Ready owner known
  sound := ObjectTable.Consistent
  later := ObjectTable.Keeps
  refl := .refl
  trans := .trans

namespace Secures

variable {owner : ConnectionId} {known : Instance → Prop} {α β : Type}

theorem pure {a : α} {Q : ObjectTable → α → Prop} (h : ∀ t, Q t a) :
    Secures owner known (Pure.pure a) Q :=
  Frame.Lasts.pure (F := .ready owner known) h

theorem throw {e : CallError} {Q : ObjectTable → α → Prop} :
    Secures owner known (MonadExcept.throw e) Q :=
  Frame.Lasts.throw (F := .ready owner known)

theorem imp {m : Writing α} {P Q : ObjectTable → α → Prop} (hm : Secures owner known m P)
    (h : ∀ t a, P t a → Q t a) : Secures owner known m Q :=
  Frame.Lasts.imp (F := .ready owner known) hm h

theorem bind {m : Writing α} {k : α → Writing β} {P : ObjectTable → α → Prop}
    {Q : ObjectTable → β → Prop} (hm : Secures owner known m P)
    (hk : ∀ a, Secures owner known (k a) fun t b => P t a → Q t b) :
    Secures owner known (m >>= k) Q :=
  Frame.Lasts.bind (F := .ready owner known) hm hk

theorem map {m : Writing α} {P : ObjectTable → α → Prop} {Q : ObjectTable → β → Prop} {f : α → β}
    (hm : Secures owner known m P) (h : ∀ t a, P t a → Q t (f a)) :
    Secures owner known (do return f (← m)) Q :=
  Frame.Lasts.map (F := .ready owner known) hm h

theorem mapM {f : α → Writing β} {P : α → ObjectTable → β → Prop} {items : List α}
    (h : ∀ item ∈ items, Secures owner known (f item) (P item)) :
    Secures owner known (items.mapM f) fun t results =>
      List.Forall₂ (fun item result => P item t result) items results :=
  Frame.Lasts.mapM (F := .ready owner known) h

theorem register (hapart : ∀ i j, known i → known j → i.address = j.address → i = j)
    {object : Instance} (hknown : known object) (className : String) :
    Secures owner known (Writing.register object className owner) fun t id =>
      t.Consistent ∧ ∃ entry, t.entries.get? id = some entry ∧ entry.object = object := by
  intro t hready id t' hrun
  rw [Writing.run_register] at hrun
  cases hrun
  have henters := hready.enters hknown className
  refine ⟨hready.register hapart hknown className, henters.keeps, ?_⟩
  intro t'' hkeeps hconsistent
  rcases henters.entry with ⟨entry, hentry, hobject, -⟩
  rcases hkeeps _ entry hentry with ⟨entry', hentry', hsame, -⟩
  exact ⟨hconsistent, entry', hentry', hsame.trans hobject⟩

end Secures

/-! ## Faithful values -/

/-- What may stand at a place in a native value for it to be read back: no null where
    an object is expected, and no object that is entered under another class. -/
def Welcome (t : ObjectTable) : NativeValue → Ty → Prop
  | .null, .instanceOf .. => False
  | .object object, .instanceOf service name => t.Holds object (classKey service name)
  | _, _ => True

/-- A native value in which everything may stand where it does. -/
def Faithful (t : ObjectTable) (v : NativeValue) (ty : Ty) : Prop :=
  ∀ u s, Datum.StandsAt u s v ty → Welcome t u s

variable {services : Services} {t : ObjectTable} {context context' : String}
  {owner : ConnectionId} {known : Instance → Prop}

theorem faithful_null_iff {ty : Ty} : Faithful t .null ty ↔ Welcome t .null ty :=
  Datum.forall_standsAt_null

theorem faithful_optional_iff {v : NativeValue} {inner : Ty} (h : v ≠ .null) :
    Faithful t v (.optional inner) ↔ Faithful t v inner :=
  (Datum.forall_standsAt_optional h).trans (and_iff_right (by cases v <;> trivial))

theorem faithful_list_iff {items : List NativeValue} {element : Ty} :
    Faithful t (.list items) (.list element) ↔ ∀ item ∈ items, Faithful t item element :=
  Datum.forall_standsAt_list.trans (and_iff_right trivial)

theorem faithful_set_iff {items : List NativeValue} {element : Ty} :
    Faithful t (.set items) (.set element) ↔ ∀ item ∈ items, Faithful t item element :=
  Datum.forall_standsAt_set.trans (and_iff_right trivial)

theorem faithful_map_iff {entries : List (NativeValue × NativeValue)} {key value : Ty} :
    Faithful t (.map entries) (.map key value) ↔
      ∀ entry ∈ entries, Faithful t entry.1 key ∧ Faithful t entry.2 value :=
  Datum.forall_standsAt_map.trans (and_iff_right trivial)

theorem faithful_tuple_iff {items : List NativeValue} {elements : List Ty} :
    Faithful t (.tuple items) (.tuple elements) ↔
      ∀ item ∈ items.zip elements, Faithful t item.1 item.2 :=
  Datum.forall_standsAt_tuple.trans (and_iff_right trivial)

theorem faithful_object_iff {object : Instance} {service name : String} :
    Faithful t (.object object) (.instanceOf service name) ↔
      t.Holds object (classKey service name) :=
  Datum.forall_standsAt_instanceOf

/-! ## Reading what has been written -/

/-- What a native value has been written as: null for null alone, and read back to
    the value if that is faithful. -/
structure Renders (services : Services) (context : String) (t : ObjectTable) (ty : Ty)
    (v : NativeValue) (w : Value) : Prop where
  null : w = .null → v = .null
  recovers : Recovers (decode services t context ty w) v (Faithful t v ty)

/-- The number of an instance leads back to it if the class is right. -/
theorem resolveAs_recovers (hconsistent : t.Consistent) {id : ObjectId} {entry : ObjectEntry}
    (hentry : t.entries.get? id = some entry) (className : String) :
    Recovers (t.resolveAs id className context) entry.object (t.Holds entry.object className) := by
  refine Recovers.congr ?_ (ObjectTable.holds_iff_of_entry hconsistent hentry)
  rw [ObjectTable.resolveAs, hentry]
  by_cases hclass : entry.className = className
  · simp only [if_pos hclass]
    exact .ok hclass
  · simp only [if_neg hclass]
    exact .error hclass

mutual

/-- If a value is written, what it is written as renders it, in the table that is left
    and in every later one. -/
theorem encode_secures (hapart : ∀ i j, known i → known j → i.address = j.address → i = j) :
    ∀ (ty : Ty) (v : NativeValue), (∀ object ∈ v.references, known object) →
      Secures owner known (encode services owner context ty v) fun t w =>
        Renders services context' t ty v w
  | .bool, v, _ | .int32, v, _ | .int64, v, _ | .float32, v, _ | .float64, v, _
  | .string, v, _ | .bytes, v, _ => by
      -- One shape fits, and nothing stands in it.
      cases v <;> first
        | exact .throw
        | exact .pure fun t => ⟨by simp, .ok fun u s hs => by cases hs; trivial⟩
  | .optional inner, v, hknown => by
      by_cases hnull : v = .null
      · rw [hnull]
        exact .pure fun t => ⟨fun _ => rfl, .ok (faithful_null_iff.mpr trivial)⟩
      · rw [encode_optional hnull]
        refine (encode_secures hapart inner v hknown).imp fun t w hw => ⟨hw.null, ?_⟩
        rw [decode_optional fun h => hnull (hw.null h)]
        exact hw.recovers.congr (faithful_optional_iff hnull)
  | .list element, v, hknown => by
      cases v with
      | list items =>
          rw [Datum.references_list, List.forall_mem_flatMap] at hknown
          refine (Secures.mapM fun item hmem =>
            encode_secures hapart element item (hknown item hmem)).map fun t ws hws => ?_
          have hitems := Recovers.mapM (hws.imp fun _ _ h => h.recovers)
          exact ⟨by simp, (hitems.map Datum.list).congr faithful_list_iff⟩
      | _ => exact .throw
  | .set element, v, hknown => by
      cases v with
      | set items =>
          rw [Datum.references_set, List.forall_mem_flatMap] at hknown
          refine (Secures.mapM fun item hmem =>
            encode_secures hapart element item (hknown item hmem)).map fun t ws hws => ?_
          have hitems := Recovers.mapM (hws.imp fun _ _ h => h.recovers)
          exact ⟨by simp, (hitems.map Datum.set).congr faithful_set_iff⟩
      | _ => exact .throw
  | .map key value, v, hknown => by
      cases v with
      | map entries =>
          rw [Datum.references_map, List.forall_mem_flatMap] at hknown
          have hentry : ∀ entry ∈ entries, Secures owner known
              (do
                let k' ← encode services owner context key entry.1
                let v' ← encode services owner context value entry.2
                return (k', v')) fun t pair =>
              Recovers (do
                let k' ← decode services t context' key pair.1
                let v' ← decode services t context' value pair.2
                return (k', v')) entry (Faithful t entry.1 key ∧ Faithful t entry.2 value) := by
            intro entry hmem
            have hboth := List.forall_mem_append.mp (hknown entry hmem)
            refine (encode_secures hapart key entry.1 hboth.1).bind fun k' => ?_
            refine (encode_secures hapart value entry.2 hboth.2).map fun t v' hv hk => ?_
            exact hk.recovers.map₂ hv.recovers Prod.mk
          refine (Secures.mapM hentry).map fun t ws hws => ?_
          exact ⟨by simp, ((Recovers.mapM hws).map Datum.map).congr faithful_map_iff⟩
      | _ => exact .throw
  | .tuple elements, v, hknown => by
      cases v with
      | tuple items =>
          rw [Datum.references_tuple, List.forall_mem_flatMap] at hknown
          rw [encode]
          by_cases hlength : items.length = elements.length
          · rw [if_pos hlength]
            refine (encodePairwise_secures hapart elements items hlength hknown).map
              fun t ws hws => ⟨by simp, ?_⟩
            rw [decode, if_pos hws.1]
            exact (hws.2.map Datum.tuple).congr faithful_tuple_iff
          · rw [if_neg hlength]
            exact .throw
      | _ => exact .throw
  | .enumeration service name, v, _ => by
      cases v with
      | enum n =>
          have hmember : Secures owner known
              (liftExcept (checkMember services context (.enumeration service name) n))
              fun _ _ => services.hasMember (.enumeration service name) n :=
            Frame.Lasts.checkMember (F := .ready owner known)
          refine hmember.map fun t _ hmember => ⟨by simp, ?_⟩
          rw [decode, checkMember, if_pos hmember]
          exact .ok (Datum.forall_standsAt_enumeration.mpr trivial)
      | _ => exact .throw
  | .instanceOf service name, v, hknown => by
      cases v with
      | null =>
          -- Written as null, which is not read where an object is expected.
          exact .pure fun t => ⟨fun _ => rfl, .error fun h => faithful_null_iff.mp h⟩
      | object object =>
          have hobject : known object := hknown object List.mem_cons_self
          refine (Secures.register hapart hobject (classKey service name)).map ?_
          rintro t id ⟨hconsistent, entry, hentry, rfl⟩
          exact ⟨by simp, ((resolveAs_recovers hconsistent hentry _).map Datum.object).congr
            faithful_object_iff⟩
      | _ => exact .throw

theorem encodePairwise_secures
    (hapart : ∀ i j, known i → known j → i.address = j.address → i = j) :
    ∀ (tys : List Ty) (vs : List NativeValue), vs.length = tys.length →
      (∀ v ∈ vs, ∀ object ∈ v.references, known object) →
      Secures owner known (encodePairwise services owner context tys vs) fun t ws =>
        ws.length = tys.length ∧ Recovers (decodePairwise services t context' tys ws) vs
          (∀ item ∈ vs.zip tys, Faithful t item.1 item.2)
  | [], [], _, _ => .pure fun t => ⟨rfl, .ok (List.forall_mem_nil _)⟩
  | ty :: tys, v :: vs, hlength, hknown => by
      rw [List.forall_mem_cons] at hknown
      refine (encode_secures hapart ty v hknown.1).bind fun w => ?_
      refine (encodePairwise_secures hapart tys vs (Nat.succ.inj hlength) hknown.2).map
        fun t ws hws hw => ⟨congrArg (· + 1) hws.1, ?_⟩
      exact (hw.recovers.map₂ hws.2 List.cons).congr List.forall_mem_cons
  | [], _ :: _, hlength, _ => nomatch hlength
  | _ :: _, [], hlength, _ => nomatch hlength

end

/-! ## There and back -/

theorem faithful_iff {v : NativeValue} {ty : Ty} :
    Faithful t v ty ↔
      (¬∃ service name, Datum.StandsAt .null (.instanceOf service name) v ty) ∧
      ∀ object service name, Datum.StandsAt (.object object) (.instanceOf service name) v ty →
        t.Holds object (classKey service name) := by
  constructor
  · intro h
    exact ⟨fun ⟨service, name, hs⟩ => h _ _ hs, fun object service name hs => h _ _ hs⟩
  · rintro ⟨hnull, hobjects⟩ u s hs
    cases s with
    | instanceOf service name =>
        cases u with
        | null => exact hnull ⟨service, name, hs⟩
        | object object => exact hobjects object service name hs
        | _ => trivial
    | _ => cases u <;> trivial

/-- What has been written for a connection that is there is read back as the same value
    with the same instances, unless there is a null in it where an object is expected,
    or an instance that is entered under another class than the one expected where it
    stands; it is then not read at all. That the addresses tell the instances in the
    value apart, from each other and from those that are live, is the allocator's
    part. -/
theorem read_as_written (services : Services) (ops : List ObjectOperation)
    (owner : ConnectionId) (context context' : String) (ty : Ty) (v : NativeValue) (w : Value)
    (t' : ObjectTable)
    (hopen : (({} : ObjectTable).replay ops).closed.contains owner = false)
    (hadmits : ∀ object ∈ v.references, (({} : ObjectTable).replay ops).Admits object)
    (hapart : ∀ object ∈ v.references, ∀ other ∈ v.references,
      object.address = other.address → object = other)
    (hwritten : (encode services owner context ty v).run.run (({} : ObjectTable).replay ops) =
      (.ok w, t')) :
    (decode services t' context' ty w = .ok v ↔
      (¬∃ service name, Datum.StandsAt .null (.instanceOf service name) v ty) ∧
      ∀ object service name, Datum.StandsAt (.object object) (.instanceOf service name) v ty →
        t'.Holds object (classKey service name)) ∧
    (decode services t' context' ty w ≠ .ok v →
      ∃ e, decode services t' context' ty w = .error e) := by
  have hready : (({} : ObjectTable).replay ops).Ready owner (· ∈ v.references) :=
    ⟨ObjectTable.Consistent.init.replay ops, hopen, hadmits⟩
  have hsecures : Secures owner (· ∈ v.references) (encode services owner context ty v)
      fun t w => Renders services context' t ty v w :=
    encode_secures (fun i j hi hj => hapart i hi j hj) ty v fun _ h => h
  rcases hsecures _ hready w t' hwritten with ⟨hready', -, hrenders⟩
  have hrecovers := (hrenders t' (.refl t') hready'.consistent).recovers
  rw [← faithful_iff]
  exact ⟨hrecovers.eq_ok_iff, fun h => hrecovers.lost fun hfaithful => h (hrecovers.back hfaithful)⟩

/-- An instance that stands at two places is entered under the class of the first. At a
    second place of that class it is read back, and at one of another class it is not. -/
theorem sameObject_read_as_written :
    (∃ t', (encode ⟨[]⟩ 1 "S.P return value"
          (.tuple [.instanceOf "S" "C", .instanceOf "S" "C"])
          (.tuple [.object ⟨5, .label "a"⟩, .object ⟨5, .label "a"⟩])).run.run
        (({} : ObjectTable).replay []) = (.ok (.tuple [.object 1, .object 1]), t') ∧
      decode ⟨[]⟩ t' "S.Q argument 'x'" (.tuple [.instanceOf "S" "C", .instanceOf "S" "C"])
        (.tuple [.object 1, .object 1]) =
          .ok (.tuple [.object ⟨5, .label "a"⟩, .object ⟨5, .label "a"⟩])) ∧
    ∃ t', (encode ⟨[]⟩ 1 "S.P return value"
          (.tuple [.instanceOf "S" "C", .instanceOf "S" "D"])
          (.tuple [.object ⟨5, .label "a"⟩, .object ⟨5, .label "a"⟩])).run.run
        (({} : ObjectTable).replay []) = (.ok (.tuple [.object 1, .object 1]), t') ∧
      ∃ e, decode ⟨[]⟩ t' "S.Q argument 'x'"
        (.tuple [.instanceOf "S" "C", .instanceOf "S" "D"]) (.tuple [.object 1, .object 1]) =
          .error e := by
  have hadmits : ∀ object ∈ (Datum.tuple [.object ⟨5, .label "a"⟩, .object ⟨5, .label "a"⟩] :
      NativeValue).references, (({} : ObjectTable).replay []).Admits object :=
    fun _ _ _ hrow => absurd hrow List.not_mem_nil
  refine ⟨⟨_, rfl, ?_⟩, ⟨_, rfl, ?_⟩⟩
  · refine (read_as_written ⟨[]⟩ [] 1 "S.P return value" _ _ _ _ _ rfl hadmits (by decide)
      rfl).1.mpr (faithful_iff.mp (faithful_tuple_iff.mpr ?_))
    -- Both places ask for the class that the instance is entered under.
    simp only [List.zip_cons_cons, List.zip_nil_left, List.forall_mem_cons, List.not_mem_nil,
      false_imp_iff, implies_true, and_true, and_self]
    exact faithful_object_iff.mpr ⟨1, _, rfl, rfl, rfl⟩
  · exact (read_as_written ⟨[]⟩ [] 1 "S.P return value" _ _ _ _ _ rfl hadmits (by decide)
      rfl).2 fun h => by cases h

end Switchboard
