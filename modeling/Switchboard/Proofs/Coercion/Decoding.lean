import Switchboard.Proofs.Coercion.Runs
import Switchboard.Proofs.Objects.Lookup

/-!
# What Can Be Read

A client's value can be read against a type if it has the shape of the type and
what it refers to is there. Shape says nothing about the two kinds of reference
in a value. An integer at the place of an enumeration refers to a member, and a
number at the place of a class to a live object of the class. Both may stand
anywhere inside the value.

`StandsAt` says where. Reading follows the type and the value side by side, and
so does the relation, with one case for each step down. A value is then grounded
if whatever stands in it may stand at its place, and a list is grounded if its
items are, with no recursion to follow.

## Main definitions

* `Datum.StandsAt`: Where a value stands inside another.
* `Allowed`: What may stand at a place.
* `Grounded`: Values in which everything is allowed.

## Theorems

* `Datum.forall_standsAt_list` and the like: What stands in a value, by its parts.
* `exists_mapM_iff`, `getElem?_of_mapM`: A traversal succeeds if each step does,
  and has its results.
* `grounded_list_iff` and the like: What the parts of a grounded value are.
* `exists_decode_iff`: What can be read.
* `decode_eq_ok_anywhere`: It is read as the same wherever it stands.
-/

namespace Switchboard

/-! ## Places -/

/-- A value that stands at a type inside another value, where that is taken at a
    type of its own. Null is at an optional type and not at the type inside. -/
inductive Datum.StandsAt {ρ : Type} (v : Datum ρ) (t : Ty) : Datum ρ → Ty → Prop
  | whole : StandsAt v t v t
  | optional {w : Datum ρ} {inner : Ty} (hnull : w ≠ .null) :
      StandsAt v t w inner → StandsAt v t w (.optional inner)
  | list {item : Datum ρ} {items : List (Datum ρ)} {element : Ty} (hmem : item ∈ items) :
      StandsAt v t item element → StandsAt v t (.list items) (.list element)
  | set {item : Datum ρ} {items : List (Datum ρ)} {element : Ty} (hmem : item ∈ items) :
      StandsAt v t item element → StandsAt v t (.set items) (.set element)
  | key {entry : Datum ρ × Datum ρ} {entries : List (Datum ρ × Datum ρ)} {key value : Ty}
      (hmem : entry ∈ entries) :
      StandsAt v t entry.1 key → StandsAt v t (.map entries) (.map key value)
  | value {entry : Datum ρ × Datum ρ} {entries : List (Datum ρ × Datum ρ)} {key value : Ty}
      (hmem : entry ∈ entries) :
      StandsAt v t entry.2 value → StandsAt v t (.map entries) (.map key value)
  | tuple {item : Datum ρ × Ty} {items : List (Datum ρ)} {elements : List Ty}
      (hmem : item ∈ items.zip elements) :
      StandsAt v t item.1 item.2 → StandsAt v t (.tuple items) (.tuple elements)

namespace Datum

variable {ρ : Type} {P : Datum ρ → Ty → Prop}

/-! What holds of everything in a value holds of the value itself and of everything in
its parts, and there is nothing else in it. -/

theorem forall_standsAt_null {ty : Ty} :
    (∀ v t, StandsAt v t .null ty → P v t) ↔ P .null ty := by
  constructor
  · exact fun h => h _ _ .whole
  · intro h v t hs
    cases hs with
    | whole => exact h
    | optional hnull => exact absurd rfl hnull

theorem forall_standsAt_optional {w : Datum ρ} {inner : Ty} (hnull : w ≠ .null) :
    (∀ v t, StandsAt v t w (.optional inner) → P v t) ↔
      P w (.optional inner) ∧ ∀ v t, StandsAt v t w inner → P v t := by
  constructor
  · exact fun h => ⟨h _ _ .whole, fun v t hs => h v t (.optional hnull hs)⟩
  · rintro ⟨hwhole, hinner⟩ v t hs
    cases hs with
    | whole => exact hwhole
    | optional _ hs => exact hinner v t hs

theorem forall_standsAt_list {items : List (Datum ρ)} {element : Ty} :
    (∀ v t, StandsAt v t (.list items) (.list element) → P v t) ↔
      P (.list items) (.list element) ∧
        ∀ item ∈ items, ∀ v t, StandsAt v t item element → P v t := by
  constructor
  · exact fun h => ⟨h _ _ .whole, fun item hmem v t hs => h v t (.list hmem hs)⟩
  · rintro ⟨hwhole, hitems⟩ v t hs
    cases hs with
    | whole => exact hwhole
    | list hmem hs => exact hitems _ hmem v t hs

theorem forall_standsAt_set {items : List (Datum ρ)} {element : Ty} :
    (∀ v t, StandsAt v t (.set items) (.set element) → P v t) ↔
      P (.set items) (.set element) ∧
        ∀ item ∈ items, ∀ v t, StandsAt v t item element → P v t := by
  constructor
  · exact fun h => ⟨h _ _ .whole, fun item hmem v t hs => h v t (.set hmem hs)⟩
  · rintro ⟨hwhole, hitems⟩ v t hs
    cases hs with
    | whole => exact hwhole
    | set hmem hs => exact hitems _ hmem v t hs

theorem forall_standsAt_map {entries : List (Datum ρ × Datum ρ)} {key value : Ty} :
    (∀ v t, StandsAt v t (.map entries) (.map key value) → P v t) ↔
      P (.map entries) (.map key value) ∧
        ∀ entry ∈ entries, (∀ v t, StandsAt v t entry.1 key → P v t) ∧
          ∀ v t, StandsAt v t entry.2 value → P v t := by
  constructor
  · exact fun h => ⟨h _ _ .whole, fun entry hmem =>
      ⟨fun v t hs => h v t (.key hmem hs), fun v t hs => h v t (.value hmem hs)⟩⟩
  · rintro ⟨hwhole, hentries⟩ v t hs
    cases hs with
    | whole => exact hwhole
    | key hmem hs => exact (hentries _ hmem).1 v t hs
    | value hmem hs => exact (hentries _ hmem).2 v t hs

theorem forall_standsAt_tuple {items : List (Datum ρ)} {elements : List Ty} :
    (∀ v t, StandsAt v t (.tuple items) (.tuple elements) → P v t) ↔
      P (.tuple items) (.tuple elements) ∧
        ∀ item ∈ items.zip elements, ∀ v t, StandsAt v t item.1 item.2 → P v t := by
  constructor
  · exact fun h => ⟨h _ _ .whole, fun item hmem v t hs => h v t (.tuple hmem hs)⟩
  · rintro ⟨hwhole, hitems⟩ v t hs
    cases hs with
    | whole => exact hwhole
    | tuple hmem hs => exact hitems _ hmem v t hs

theorem forall_standsAt_enumeration {w : Datum ρ} {service name : String} :
    (∀ v t, StandsAt v t w (.enumeration service name) → P v t) ↔
      P w (.enumeration service name) := by
  constructor
  · exact fun h => h _ _ .whole
  · intro h v t hs
    cases hs with
    | whole => exact h

theorem forall_standsAt_instanceOf {w : Datum ρ} {service name : String} :
    (∀ v t, StandsAt v t w (.instanceOf service name) → P v t) ↔
      P w (.instanceOf service name) := by
  constructor
  · exact fun h => h _ _ .whole
  · intro h v t hs
    cases hs with
    | whole => exact h

end Datum

/-- A number that leads to a live object of a class. -/
def ObjectTable.Live (objects : ObjectTable) (id : ObjectId) (className : String) : Prop :=
  ∃ entry, objects.entries.get? id = some entry ∧ entry.className = className

variable (services : Services) (objects : ObjectTable) (context : String)

/-- Whether what a value refers to at a type is there. Other values refer to
    nothing. -/
def Allowed : Value → Ty → Prop
  | .enum n, .enumeration service name => services.hasMember (.enumeration service name) n
  | .object id, .instanceOf service name => objects.Live id (classKey service name)
  | _, _ => True

/-- A value in which everything is allowed where it stands. -/
def Grounded (w : Value) (ty : Ty) : Prop :=
  ∀ v t, Datum.StandsAt v t w ty → Allowed services objects v t

variable {services objects context}

/-! ## Parts -/

theorem grounded_null {ty : Ty} : Grounded services objects .null ty :=
  Datum.forall_standsAt_null.mpr trivial

theorem grounded_optional_iff {w : Value} {inner : Ty} (h : w ≠ .null) :
    Grounded services objects w (.optional inner) ↔ Grounded services objects w inner :=
  (Datum.forall_standsAt_optional h).trans (and_iff_right (by cases w <;> trivial))

theorem grounded_list_iff {items : List Value} {element : Ty} :
    Grounded services objects (.list items) (.list element) ↔
      ∀ item ∈ items, Grounded services objects item element :=
  Datum.forall_standsAt_list.trans (and_iff_right trivial)

theorem grounded_set_iff {items : List Value} {element : Ty} :
    Grounded services objects (.set items) (.set element) ↔
      ∀ item ∈ items, Grounded services objects item element :=
  Datum.forall_standsAt_set.trans (and_iff_right trivial)

theorem grounded_map_iff {entries : List (Value × Value)} {key value : Ty} :
    Grounded services objects (.map entries) (.map key value) ↔
      ∀ entry ∈ entries, Grounded services objects entry.1 key ∧
        Grounded services objects entry.2 value :=
  Datum.forall_standsAt_map.trans (and_iff_right trivial)

theorem grounded_tuple_iff {items : List Value} {elements : List Ty} :
    Grounded services objects (.tuple items) (.tuple elements) ↔
      ∀ item ∈ items.zip elements, Grounded services objects item.1 item.2 :=
  Datum.forall_standsAt_tuple.trans (and_iff_right trivial)

/-- A value without parts is grounded if it is allowed. -/
theorem grounded_enum_iff {n : Int32} {service name : String} :
    Grounded services objects (.enum n) (.enumeration service name) ↔
      services.hasMember (.enumeration service name) n :=
  Datum.forall_standsAt_enumeration

theorem grounded_object_iff {id : ObjectId} {service name : String} :
    Grounded services objects (.object id) (.instanceOf service name) ↔
      objects.Live id (classKey service name) :=
  Datum.forall_standsAt_instanceOf

/-! ## Reading -/

/-- A traversal succeeds if each step does. -/
theorem exists_mapM_iff {ε α β : Type} {f : α → Except ε β} {items : List α} :
    (∃ results, items.mapM f = .ok results) ↔ ∀ item ∈ items, ∃ result, f item = .ok result := by
  simp only [mapM_eq_ok_iff_forall₂]
  induction items with
  | nil => exact iff_of_true ⟨[], .nil⟩ (List.forall_mem_nil _)
  | cons item rest ih =>
      rw [List.forall_mem_cons, ← ih]
      constructor
      · rintro ⟨_, hresults⟩
        cases hresults with
        | cons hitem hrest => exact ⟨⟨_, hitem⟩, _, hrest⟩
      · rintro ⟨⟨result, hitem⟩, others, hrest⟩
        exact ⟨result :: others, .cons hitem hrest⟩

/-- A traversal that succeeds has a result for each item. -/
theorem getElem?_of_mapM {ε α β : Type} {f : α → Except ε β} {items : List α} {results : List β}
    (h : items.mapM f = .ok results) :
    results.length = items.length ∧ ∀ (position : Nat) item, items[position]? = some item →
      ∃ result, results[position]? = some result ∧ f item = .ok result := by
  rw [mapM_eq_ok_iff_forall₂] at h
  refine ⟨h.length_eq.symm, ?_⟩
  induction h with
  | nil => exact fun _ _ hitem => nomatch hitem
  | @cons _ result _ _ hfirst _ ih =>
      intro position item hitem
      cases position with
      | zero => exact ⟨result, rfl, Option.some.inj hitem ▸ hfirst⟩
      | succ position => exact ih position item hitem

/-- Something can be made of a result if there is one. -/
theorem exists_map_iff {ε α β : Type} {x : Except ε α} {f : α → β} :
    (∃ b, (do return f (← x)) = (.ok b : Except ε β)) ↔ ∃ a, x = .ok a := by
  simp only [map_eq_ok_iff]
  exact ⟨fun ⟨_, a, ha, _⟩ => ⟨a, ha⟩, fun ⟨a, ha⟩ => ⟨f a, a, ha, rfl⟩⟩

theorem exists_checkMember_iff {ty : Ty} {n : Int32} {v : NativeValue} :
    (∃ w, (do checkMember services context ty n; return v) = (.ok w : Except CallError _)) ↔
      services.hasMember ty n := by
  rw [checkMember]
  cases h : services.hasMember ty n with
  | false => exact iff_of_false (fun ⟨_, h⟩ => by cases h) Bool.false_ne_true
  | true => exact iff_of_true ⟨v, rfl⟩ rfl

theorem exists_resolveAs_iff {id : ObjectId} {className : String} :
    (∃ object, objects.resolveAs id className context = .ok object) ↔
      objects.Live id className := by
  simp only [ObjectTable.resolveAs_eq_ok_iff, ObjectTable.Live]
  constructor
  · rintro ⟨_, entry, hget, hclass, -⟩
    exact ⟨entry, hget, hclass⟩
  · rintro ⟨entry, hget, hclass⟩
    exact ⟨entry.object, entry, hget, hclass, rfl⟩

/-- Two results in a row can be made something of if there are both. -/
theorem exists_map₂_iff {ε α β γ : Type} {x : Except ε α} {y : Except ε β} {f : α → β → γ} :
    (∃ c, (do let a ← x; let b ← y; return f a b) = (.ok c : Except ε γ)) ↔
      (∃ a, x = .ok a) ∧ ∃ b, y = .ok b := by
  simp only [map₂_eq_ok_iff]
  constructor
  · rintro ⟨_, a, b, ha, hb, -⟩
    exact ⟨⟨a, ha⟩, b, hb⟩
  · rintro ⟨⟨a, ha⟩, b, hb⟩
    exact ⟨f a b, a, b, ha, hb, rfl⟩

/-- A value that does not have the shape of a type is not read. -/
theorem unread {P : Prop} {w : Value} {ty : Ty} {e : CallError}
    (hdecode : decode services objects context ty w = .error e) (h : w.conforms ty = false) :
    (∃ n, decode services objects context ty w = .ok n) ↔ w.conforms ty ∧ P := by
  rw [hdecode, h]
  exact iff_of_false (fun ⟨_, h⟩ => by cases h) fun h => nomatch h.1

theorem conforms_optional {ρ : Type} {w : Datum ρ} (h : w ≠ .null) (inner : Ty) :
    w.conforms (.optional inner) = w.conforms inner := by
  cases w with
  | null => exact absurd rfl h
  | _ => rfl

theorem decode_optional {w : Value} (h : w ≠ .null) (inner : Ty) :
    decode services objects context (.optional inner) w =
      decode services objects context inner w := by
  cases w with
  | null => exact absurd rfl h
  | _ => rfl

theorem length_of_conformPairwise : ∀ {tys : List Ty} {vs : List Value},
    Datum.conformPairwise tys vs → vs.length = tys.length
  | [], [], _ => rfl
  | _ :: _, _ :: _, h => by
      rw [Datum.conformPairwise, Bool.and_eq_true] at h
      exact congrArg (· + 1) (length_of_conformPairwise h.2)
  | [], _ :: _, h => nomatch h
  | _ :: _, [], h => nomatch h

mutual

/-- A value can be read if it has the shape of the type and is grounded. -/
theorem exists_decode_iff : ∀ (ty : Ty) (w : Value),
    (∃ n, decode services objects context ty w = .ok n) ↔
      w.conforms ty ∧ Grounded services objects w ty
  | .bool, w | .int32, w | .int64, w | .float32, w | .float64, w | .string, w | .bytes, w => by
      -- One shape fits, and there is nothing in it that could refer to anything.
      cases w <;> first
        | exact unread rfl rfl
        | exact iff_of_true ⟨_, rfl⟩ ⟨rfl, fun v t hs => by cases hs; trivial⟩
  | .optional inner, w => by
      by_cases hnull : w = .null
      · rw [hnull]
        exact iff_of_true ⟨_, rfl⟩ ⟨rfl, grounded_null⟩
      · rw [decode_optional hnull, conforms_optional hnull, grounded_optional_iff hnull]
        exact exists_decode_iff inner w
  | .list element, w => by
      cases w with
      | list items =>
          have ih := exists_decode_iff element
          rw [decode, exists_map_iff, exists_mapM_iff, Datum.conforms, List.all_eq_true,
            grounded_list_iff]
          simp only [ih, forall_and]
      | _ => exact unread rfl rfl
  | .set element, w => by
      cases w with
      | set items =>
          have ih := exists_decode_iff element
          rw [decode, exists_map_iff, exists_mapM_iff, Datum.conforms, List.all_eq_true,
            grounded_set_iff]
          simp only [ih, forall_and]
      | _ => exact unread rfl rfl
  | .map key value, w => by
      cases w with
      | map entries =>
          have ihk := exists_decode_iff key
          have ihv := exists_decode_iff value
          rw [decode, exists_map_iff, exists_mapM_iff, Datum.conforms, List.all_eq_true,
            grounded_map_iff]
          simp only [exists_map₂_iff, ihk, ihv, Bool.and_eq_true]
          constructor
          · intro h
            exact ⟨fun e he => ⟨(h e he).1.1, (h e he).2.1⟩,
              fun e he => ⟨(h e he).1.2, (h e he).2.2⟩⟩
          · rintro ⟨hconforms, hgrounded⟩ e he
            exact ⟨⟨(hconforms e he).1, (hgrounded e he).1⟩, (hconforms e he).2,
              (hgrounded e he).2⟩
      | _ => exact unread rfl rfl
  | .tuple elements, w => by
      cases w with
      | tuple items =>
          have ih := exists_decodePairwise_iff elements items
          rw [decode, Datum.conforms, grounded_tuple_iff]
          by_cases hlength : items.length = elements.length
          · rw [if_pos hlength, exists_map_iff, ih hlength]
          · rw [if_neg hlength]
            exact iff_of_false (fun ⟨_, h⟩ => by cases h) fun h =>
              hlength (length_of_conformPairwise h.1)
      | _ => exact unread rfl rfl
  | .enumeration service name, w => by
      cases w with
      | enum n =>
          rw [decode, exists_checkMember_iff, grounded_enum_iff]
          exact ⟨fun h => ⟨rfl, h⟩, fun h => h.2⟩
      | _ => exact unread rfl rfl
  | .instanceOf service name, w => by
      cases w with
      | object id =>
          rw [decode, exists_map_iff, exists_resolveAs_iff, grounded_object_iff]
          exact ⟨fun h => ⟨rfl, h⟩, fun h => h.2⟩
      | _ => exact unread rfl rfl

theorem exists_decodePairwise_iff : ∀ (tys : List Ty) (vs : List Value), vs.length = tys.length →
    ((∃ ns, decodePairwise services objects context tys vs = .ok ns) ↔
      Datum.conformPairwise tys vs ∧
        ∀ item ∈ vs.zip tys, Grounded services objects item.1 item.2)
  | [], [], _ => iff_of_true ⟨[], rfl⟩ ⟨rfl, List.forall_mem_nil _⟩
  | t :: ts, v :: vs, hlength => by
      have ih := exists_decode_iff t v
      have ihs := exists_decodePairwise_iff ts vs (Nat.succ.inj hlength)
      rw [decodePairwise, Datum.conformPairwise, Bool.and_eq_true, List.zip_cons_cons,
        List.forall_mem_cons, exists_map₂_iff, ih, ihs, and_and_and_comm]
  | [], _ :: _, hlength => nomatch hlength
  | _ :: _, [], hlength => nomatch hlength

end

variable {context' : String}

mutual

/-- Where a value stands is for messages only: it is read as the same anywhere. -/
theorem decode_eq_ok_anywhere : ∀ (ty : Ty) (w : Value) (n : NativeValue),
    decode services objects context ty w = .ok n → decode services objects context' ty w = .ok n
  | .bool, w, n, h | .int32, w, n, h | .int64, w, n, h | .float32, w, n, h | .float64, w, n, h
  | .string, w, n, h | .bytes, w, n, h => by
      -- One shape fits, and nothing can be wrong with it.
      cases w <;> first
        | exact h
        | cases h
  | .optional inner, w, n, h => by
      by_cases hnull : w = .null
      · rw [hnull] at h ⊢
        exact h
      · rw [decode_optional hnull] at h ⊢
        exact decode_eq_ok_anywhere inner w n h
  | .list element, w, n, h => by
      cases w with
      | list items =>
          rw [decode, map_eq_ok_iff] at h ⊢
          rcases h with ⟨ns, hns, rfl⟩
          have ih := decode_eq_ok_anywhere element
          exact ⟨ns, mapM_eq_ok_iff_forall₂.mpr ((mapM_eq_ok_iff_forall₂.mp hns).imp ih), rfl⟩
      | _ => cases h
  | .set element, w, n, h => by
      cases w with
      | set items =>
          rw [decode, map_eq_ok_iff] at h ⊢
          rcases h with ⟨ns, hns, rfl⟩
          have ih := decode_eq_ok_anywhere element
          exact ⟨ns, mapM_eq_ok_iff_forall₂.mpr ((mapM_eq_ok_iff_forall₂.mp hns).imp ih), rfl⟩
      | _ => cases h
  | .map key value, w, n, h => by
      cases w with
      | map entries =>
          rw [decode, map_eq_ok_iff] at h ⊢
          rcases h with ⟨pairs, hpairs, rfl⟩
          refine ⟨pairs, mapM_eq_ok_iff_forall₂.mpr ?_, rfl⟩
          refine (mapM_eq_ok_iff_forall₂.mp hpairs).imp fun entry pair hpair => ?_
          rcases map₂_eq_ok_iff.mp hpair with ⟨k, v, hk, hv, rfl⟩
          exact map₂_eq_ok_iff.mpr ⟨k, v, decode_eq_ok_anywhere key entry.1 k hk,
            decode_eq_ok_anywhere value entry.2 v hv, rfl⟩
      | _ => cases h
  | .tuple elements, w, n, h => by
      cases w with
      | tuple items =>
          rw [decode] at h ⊢
          split at h
          · next hlength =>
              rw [if_pos hlength, map_eq_ok_iff]
              rcases map_eq_ok_iff.mp h with ⟨ns, hns, rfl⟩
              exact ⟨ns, decodePairwise_eq_ok_anywhere elements items ns hns, rfl⟩
          · cases h
      | _ => cases h
  | .enumeration service name, w, n, h => by
      cases w with
      | enum m =>
          rw [decode, checkMember] at h ⊢
          split at h
          · next hmember =>
              rw [if_pos hmember]
              exact h
          · cases h
      | _ => cases h
  | .instanceOf service name, w, n, h => by
      cases w with
      | object id =>
          rw [decode, map_eq_ok_iff] at h ⊢
          rcases h with ⟨object, hobject, rfl⟩
          exact ⟨object, ObjectTable.resolveAs_eq_ok_iff.mpr
            (ObjectTable.resolveAs_eq_ok_iff.mp hobject), rfl⟩
      | _ => cases h

theorem decodePairwise_eq_ok_anywhere : ∀ (tys : List Ty) (ws : List Value)
    (ns : List NativeValue),
    decodePairwise services objects context tys ws = .ok ns →
      decodePairwise services objects context' tys ws = .ok ns
  | [], ws, ns, h => by cases ws <;> exact h
  | _ :: _, [], ns, h => h
  | ty :: tys, w :: ws, ns, h => by
      rw [decodePairwise, map₂_eq_ok_iff] at h ⊢
      rcases h with ⟨n, rest, hn, hrest, rfl⟩
      exact ⟨n, rest, decode_eq_ok_anywhere ty w n hn,
        decodePairwise_eq_ok_anywhere tys ws rest hrest, rfl⟩

end

/-- What has been read is grounded. -/
theorem grounded_of_decode {ty : Ty} {w : Value} {n : NativeValue}
    (h : decode services objects context ty w = .ok n) : Grounded services objects w ty :=
  ((exists_decode_iff ty w).mp ⟨n, h⟩).2

end Switchboard
