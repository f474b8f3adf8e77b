import Switchboard.Proofs.Coercion.Decoding
import Switchboard.Proofs.Datum.Equality

/-!
# Equal Values Are Read Alike

A value and one that is equal to it have the same types, and if one of them can be
read against a type then so can the other. They need not be the same value. The two
zeros are equal, and the items of a set may come in another order, so that what stands
first in one of them stands somewhere else in the other.

What makes up for this is a partner. Whatever stands in a value has an equal partner
that stands, at the same type, in any value that is equal to it (`StandsAt.partner`).
For sets and maps this is what a comparison that has succeeded leaves behind: a matching
of the items, in some order or other.

Having a type is a matter of everything that stands in a value, and of the outermost
shape of each only (`conforms_iff_standsAt`). Being readable is a matter of the same,
and of what the references lead to. Each is the same for equal values if it is the same
for equal values at one place, and there it is plain to see, since equal references are
the same.

## Main definitions

* `Datum.Fits`: The outermost shape that a type asks for.

## Theorems

* `Datum.StandsAt.partner`: The partner of what stands in a value.
* `Datum.conforms_iff_standsAt`: Having a type is fitting at every place.
* `equal_interchangeable`: Equal values have the same types and are read alike.
-/

namespace Switchboard

namespace Datum

variable {ρ : Type}

/-! ## Types and places -/

/-- Whether the outermost shape of a value is what a type asks for. An optional type
    leaves that to the type inside, where there is something. -/
def Fits (v : Datum ρ) : Ty → Prop
  | .optional _ => True
  | .bool => v.kind = "Bool"
  | .int32 => v.kind = "Int32"
  | .int64 => v.kind = "Int64"
  | .float32 => v.kind = "Float32"
  | .float64 => v.kind = "Float64"
  | .string => v.kind = "String"
  | .bytes => v.kind = "Bytes"
  | .list _ => v.kind = "List"
  | .map .. => v.kind = "Map"
  | .set _ => v.kind = "Set"
  | .tuple elements => ∃ items, v = .tuple items ∧ items.length = elements.length
  | .enumeration .. => v.kind = "Enumeration"
  | .instanceOf .. => v.kind = "Class"

/-- A value without the outermost shape of a type does not have the type. -/
theorem not_conforms {w : Datum ρ} {ty : Ty} (hconforms : w.conforms ty = false)
    (hfits : ¬w.Fits ty) : w.conforms ty ↔ ∀ v t, StandsAt v t w ty → v.Fits t := by
  rw [hconforms]
  exact iff_of_false Bool.false_ne_true fun h => hfits (h w ty .whole)

mutual

/-- A value has a type if everything that stands in it has the outermost shape of the
    type at which it stands. -/
theorem conforms_iff_standsAt : ∀ (ty : Ty) (w : Datum ρ),
    w.conforms ty ↔ ∀ v t, StandsAt v t w ty → v.Fits t
  | .bool, w | .int32, w | .int64, w | .float32, w | .float64, w | .string, w | .bytes, w
  | .enumeration .., w | .instanceOf .., w => by
      cases w <;> first
        | exact not_conforms rfl (by simp [Fits, kind])
        | exact iff_of_true rfl fun v t hs => by cases hs; rfl
  | .optional inner, w => by
      -- At something that is there, the type inside is what decides.
      by_cases hnull : w = .null
      · rw [hnull]
        exact iff_of_true rfl (forall_standsAt_null.mpr trivial)
      · rw [Switchboard.conforms_optional hnull, forall_standsAt_optional hnull,
          conforms_iff_standsAt inner w]
        exact (and_iff_right trivial).symm
  | .list element, w => by
      cases w with
      | list items =>
          have ih := conforms_iff_standsAt element
          rw [conforms, List.all_eq_true, forall_standsAt_list]
          exact (forall₂_congr fun item _ => ih item).trans (and_iff_right rfl).symm
      | _ => exact not_conforms rfl (by simp [Fits, kind])
  | .set element, w => by
      cases w with
      | set items =>
          have ih := conforms_iff_standsAt element
          rw [conforms, List.all_eq_true, forall_standsAt_set]
          exact (forall₂_congr fun item _ => ih item).trans (and_iff_right rfl).symm
      | _ => exact not_conforms rfl (by simp [Fits, kind])
  | .map key value, w => by
      cases w with
      | map entries =>
          have ihk := conforms_iff_standsAt key
          have ihv := conforms_iff_standsAt value
          rw [conforms, List.all_eq_true, forall_standsAt_map]
          refine Iff.trans (forall₂_congr fun entry _ => ?_) (and_iff_right rfl).symm
          rw [Bool.and_eq_true, ihk, ihv]
      | _ => exact not_conforms rfl (by simp [Fits, kind])
  | .tuple elements, w => by
      cases w with
      | tuple items =>
          rw [conforms, conformPairwise_iff_standsAt elements items, forall_standsAt_tuple]
          refine and_congr_left fun _ => ?_
          exact ⟨fun h => ⟨items, rfl, h⟩, fun ⟨_, hsame, h⟩ => tuple.inj hsame ▸ h⟩
      | _ => exact not_conforms rfl (by simp [Fits])

theorem conformPairwise_iff_standsAt : ∀ (tys : List Ty) (vs : List (Datum ρ)),
    conformPairwise tys vs ↔ vs.length = tys.length ∧
      ∀ item ∈ vs.zip tys, ∀ v t, StandsAt v t item.1 item.2 → v.Fits t
  | [], [] => iff_of_true rfl ⟨rfl, List.forall_mem_nil _⟩
  | t :: ts, v :: vs => by
      rw [conformPairwise, Bool.and_eq_true, conforms_iff_standsAt t v,
        conformPairwise_iff_standsAt ts vs, List.zip_cons_cons, List.forall_mem_cons,
        List.length_cons, List.length_cons, Nat.add_right_cancel_iff, and_left_comm]
  | [], _ :: _ => iff_of_false Bool.false_ne_true fun h => nomatch h.1
  | _ :: _, [] => iff_of_false Bool.false_ne_true fun h => nomatch h.1

end

/-! ## Partners -/

variable [BEq ρ]

theorem eq_null_of_equal {w : Datum ρ} (h : (Datum.null : Datum ρ).equal w) : w = .null := by
  cases w with
  | null => rfl
  | _ => exact absurd (kind_eq_of_equal h) (by simp [kind])

/-- Items that are related are related where they are paired with the same. -/
theorem forall₂_zip_self {α β γ : Type} {R : α → β → Prop} {xs : List α} {ys : List β}
    (h : List.Forall₂ R xs ys) (zs : List γ) :
    List.Forall₂ (fun p q => R p.1 q.1 ∧ p.2 = q.2) (xs.zip zs) (ys.zip zs) := by
  induction h generalizing zs with
  | nil => exact .nil
  | cons hfirst _ ih =>
      cases zs with
      | nil => exact .nil
      | cons z zs => exact .cons ⟨hfirst, rfl⟩ (ih zs)

/-- Whatever stands in a value has an equal partner that stands at the same type in any
    value that is equal to it. -/
theorem StandsAt.partner {b w : Datum ρ} {t ty : Ty} (h : StandsAt b t w ty) {v : Datum ρ}
    (hequal : v.equal w) : ∃ a, StandsAt a t v ty ∧ a.equal b := by
  -- Along the way down to `b`: at each step the part that is entered has a partner.
  induction h generalizing v with
  | whole => exact ⟨v, .whole, hequal⟩
  | optional hnull _ ih =>
      rcases ih hequal with ⟨a, hstands, ha⟩
      refine ⟨a, .optional (fun hnone => hnull ?_) hstands, ha⟩
      -- Nothing is equal to something only if that is nothing too.
      rw [hnone] at hequal
      exact eq_null_of_equal hequal
  | list hmem _ ih =>
      rcases shape_list.exists_of_equal hequal with ⟨others, rfl, hothers⟩
      rcases exists_partner ((equalPairwise_iff _ _).mp hothers) hmem with ⟨other, hother, heq⟩
      rcases ih heq with ⟨a, hstands, ha⟩
      exact ⟨a, .list hother hstands, ha⟩
  | set hmem _ ih =>
      rcases shape_set.exists_of_equal hequal with ⟨others, rfl, hothers⟩
      rcases (matching_of_pairOffBy hothers).exists_partner hmem with ⟨other, hother, heq⟩
      rcases ih heq with ⟨a, hstands, ha⟩
      exact ⟨a, .set hother hstands, ha⟩
  | key hmem _ ih =>
      rcases shape_map.exists_of_equal hequal with ⟨others, rfl, hothers⟩
      rcases (matching_of_pairOffBy hothers).exists_partner hmem with ⟨other, hother, heq⟩
      rcases ih ((equalEntries_iff _ _).mp heq).1 with ⟨a, hstands, ha⟩
      exact ⟨a, .key hother hstands, ha⟩
  | value hmem _ ih =>
      rcases shape_map.exists_of_equal hequal with ⟨others, rfl, hothers⟩
      rcases (matching_of_pairOffBy hothers).exists_partner hmem with ⟨other, hother, heq⟩
      rcases ih ((equalEntries_iff _ _).mp heq).2 with ⟨a, hstands, ha⟩
      exact ⟨a, .value hother hstands, ha⟩
  | tuple hmem _ ih =>
      rcases shape_tuple.exists_of_equal hequal with ⟨others, rfl, hothers⟩
      have hitems := (equalPairwise_iff _ _).mp hothers
      rcases exists_partner (forall₂_zip_self hitems _) hmem with ⟨other, hother, heq, hsame⟩
      rcases ih heq with ⟨a, hstands, ha⟩
      rw [← hsame] at hstands
      exact ⟨a, .tuple hother hstands, ha⟩

theorem fits_of_equal {v w : Datum ρ} {ty : Ty} (hequal : v.equal w) (h : v.Fits ty) :
    w.Fits ty := by
  cases ty with
  | optional inner => trivial
  | tuple elements =>
      -- A tuple type asks for a number of items besides.
      rcases h with ⟨items, rfl, hlength⟩
      rcases shape_tuple.exists_of_equal_left hequal with ⟨others, rfl, hothers⟩
      exact ⟨others, rfl, ((equalPairwise_iff _ _).mp hothers).length_eq.symm.trans hlength⟩
  | _ => exact (kind_eq_of_equal hequal).symm.trans h

variable [LawfulBEq ρ]

/-- What holds of equal values together holds of everything in a value if it does of
    everything in an equal one. -/
theorem forall_standsAt_iff_of_equal {P : Datum ρ → Ty → Prop}
    (hP : ∀ a b t, a.equal b → P a t → P b t) {v w : Datum ρ} (hequal : v.equal w) (ty : Ty) :
    (∀ a t, StandsAt a t v ty → P a t) ↔ ∀ b t, StandsAt b t w ty → P b t := by
  have hmove : ∀ {v w : Datum ρ}, v.equal w → (∀ a t, StandsAt a t v ty → P a t) →
      ∀ b t, StandsAt b t w ty → P b t := by
    intro v w hequal h b t hb
    rcases hb.partner hequal with ⟨a, ha, hab⟩
    exact hP a b t hab (h a t ha)
  exact ⟨hmove hequal, hmove (((partialEquivalenceAt v).symm w).mp hequal)⟩

/-- Equal values have the same types. -/
theorem conforms_eq_of_equal {v w : Datum ρ} (hequal : v.equal w) (ty : Ty) :
    v.conforms ty = w.conforms ty := by
  rw [Bool.eq_iff_iff, conforms_iff_standsAt, conforms_iff_standsAt]
  exact forall_standsAt_iff_of_equal (P := Fits) (fun _ _ _ => fits_of_equal) hequal ty

end Datum

variable {services : Services} {objects : ObjectTable}

/-- Equal references are the same, so they lead to the same. -/
theorem allowed_of_equal {v w : Value} {ty : Ty} (hequal : v.equal w)
    (h : Allowed services objects v ty) : Allowed services objects w ty := by
  cases w with
  | enum n =>
      cases v with
      | enum m =>
          rw [Datum.equal, beq_iff_eq] at hequal
          exact hequal ▸ h
      | _ => exact absurd (Datum.kind_eq_of_equal hequal) (by simp [Datum.kind])
  | object id =>
      cases v with
      | object other =>
          rw [Datum.equal, beq_iff_eq] at hequal
          exact hequal ▸ h
      | _ => exact absurd (Datum.kind_eq_of_equal hequal) (by simp [Datum.kind])
  | _ => trivial

theorem grounded_iff_of_equal {v w : Value} (hequal : v.equal w) (ty : Ty) :
    Grounded services objects v ty ↔ Grounded services objects w ty :=
  Datum.forall_standsAt_iff_of_equal (P := Allowed services objects)
    (fun _ _ _ => allowed_of_equal) hequal ty

/-- Equal values can stand in for each other. They have the same types, and against any
    type, with whatever services and live objects, either both can be read or neither. -/
theorem equal_interchangeable (services : Services) (objects : ObjectTable) (context : String)
    {v w : Value} (h : v.equal w) (ty : Ty) :
    (v.conforms ty ↔ w.conforms ty) ∧
    ((∃ n, decode services objects context ty v = .ok n) ↔
      ∃ n, decode services objects context ty w = .ok n) := by
  have hconforms := Datum.conforms_eq_of_equal h ty
  refine ⟨by rw [hconforms], ?_⟩
  rw [exists_decode_iff, exists_decode_iff, hconforms, grounded_iff_of_equal h]

/-- A set that is given in another order and with the other zero, next to a reference. -/
theorem signedZeros_interchangeable :
    let objects := (({} : ObjectTable).register ⟨5, .label "a"⟩ "S.A" 1).2
    let ty : Ty := .tuple [.set .float32, .instanceOf "S" "A"]
    let v : Value := .tuple [.set [.float32 ⟨0⟩, .float32 ⟨0x3f800000⟩], .object 1]
    let w : Value := .tuple [.set [.float32 ⟨0x3f800000⟩, .float32 ⟨0x80000000⟩], .object 1]
    v.equal w ∧ w.conforms ty ∧ ∃ n, decode ⟨[]⟩ objects "argument" ty w = .ok n := by
  intro objects ty v w
  have hequal : v.equal w := by decide +kernel
  rcases equal_interchangeable ⟨[]⟩ objects "argument" hequal ty with ⟨hconforms, hread⟩
  exact ⟨hequal, hconforms.mp rfl, hread.mp ⟨_, rfl⟩⟩

end Switchboard
