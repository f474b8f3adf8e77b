import Switchboard.Proofs.Coercion.Decoding
import Switchboard.Proofs.Datum.Parts

/-!
# Why a Value is Not Read

A value that cannot be read is refused for one thing in it: at some place there is a
value that has another shape than the type asks for, or a reference that leads
nowhere. There are only so many reasons, and `Refused` has one constructor for each,
with the error that is reported. All of them but one are misfits of a type, and the
context of the message is that of the value as a whole. The exception is an object
number that is not live, and then the error is that number.

So the kind of the error already says something. If it is not a dead number, the
value does not fit, and sending it again will not help as long as the objects are
what they are.

## Main definitions

* `Refused`: What may be wrong with a value at its place.
* `Blames`: Something that stands in a value is refused.

## Theorems

* `blames_of_decode`: Something is wrong in a value that is not read.
* `Blames.error`: Which errors there are.
* `reads_what_conforms`: A value is read exactly if it conforms, with what is declared and live.
-/

namespace Switchboard

variable (services : Services) (objects : ObjectTable) (context : String)

/-- What is wrong with a value at the place where it stands, with the error that
    says so. -/
inductive Refused : Value → Ty → CallError → Prop
  /-- It has another shape. -/
  | shape {v : Value} {t : Ty} (h : v.conforms t = false) :
      Refused v t (.typeMismatch context t.text v.describe)
  /-- No such member is declared. -/
  | undeclared {n : Int32} {service name : String}
      (h : services.hasMember (.enumeration service name) n = false) :
      Refused (.enum n) (.enumeration service name)
        (.typeMismatch context (Ty.enumeration service name).text
          ("undeclared value " ++ toString n))
  /-- The number is not live. -/
  | dead {id : ObjectId} {service name : String} (h : objects.entries.get? id = none) :
      Refused (.object id) (.instanceOf service name) (.invalidReference id)
  /-- The object is of another class. -/
  | otherClass {id : ObjectId} {entry : ObjectEntry} {service name : String}
      (h : objects.entries.get? id = some entry)
      (hclass : entry.className ≠ classKey service name) :
      Refused (.object id) (.instanceOf service name)
        (.typeMismatch context ("Class(" ++ classKey service name ++ ")")
          ("Class(" ++ entry.className ++ ")"))

variable {services objects context}

/-- A reference that stands in a value occurs in it. -/
theorem Datum.mem_references_of_standsAt {ρ : Type} {ref : ρ} {t : Ty} {w : Datum ρ} {ty : Ty}
    (h : StandsAt (.object ref) t w ty) : ref ∈ w.references := by
  induction h with
  | whole => exact List.mem_singleton_self ref
  | optional _ _ ih => exact ih
  | list hmem _ ih => exact references_list _ ▸ List.mem_flatMap.mpr ⟨_, hmem, ih⟩
  | set hmem _ ih => exact references_set _ ▸ List.mem_flatMap.mpr ⟨_, hmem, ih⟩
  | key hmem _ ih =>
      exact references_map _ ▸ List.mem_flatMap.mpr ⟨_, hmem, List.mem_append_left _ ih⟩
  | value hmem _ ih =>
      exact references_map _ ▸ List.mem_flatMap.mpr ⟨_, hmem, List.mem_append_right _ ih⟩
  | tuple hmem _ ih =>
      exact references_tuple _ ▸ List.mem_flatMap.mpr ⟨_, (List.of_mem_zip hmem).1, ih⟩

/-! ## What is wrong -/

/-- Something that stands in a value is refused with the error. -/
def Blames (services : Services) (objects : ObjectTable) (context : String) (w : Value) (ty : Ty)
    (e : CallError) : Prop :=
  ∃ v t, Datum.StandsAt v t w ty ∧ Refused services objects context v t e

/-- What is refused as a whole is to blame itself. -/
theorem Refused.blames {w : Value} {ty : Ty} {e : CallError}
    (h : Refused services objects context w ty e) : Blames services objects context w ty e :=
  ⟨w, ty, .whole, h⟩

theorem refused_of_checkMember {n : Int32} {service name : String} {e : CallError}
    (h : checkMember services context (.enumeration service name) n = .error e) :
    Refused services objects context (.enum n) (.enumeration service name) e := by
  rw [checkMember] at h
  split at h
  · cases h
  · next hmember =>
      cases h
      exact .undeclared (Bool.eq_false_iff.mpr hmember)

theorem refused_of_resolveAs {id : ObjectId} {service name : String} {e : CallError}
    (h : objects.resolveAs id (classKey service name) context = .error e) :
    Refused services objects context (.object id) (.instanceOf service name) e := by
  unfold ObjectTable.resolveAs at h
  cases hentry : objects.entries.get? id with
  | none =>
      rw [hentry] at h
      cases h
      exact .dead hentry
  | some entry =>
      rw [hentry] at h
      by_cases hclass : entry.className = classKey service name
      · simp only [if_pos hclass] at h
        cases h
      · simp only [if_neg hclass] at h
        cases h
        exact .otherClass hentry hclass

mutual

/-- Something in a value that is not read is to blame for the error. -/
theorem blames_of_decode : ∀ (ty : Ty) (w : Value) {e : CallError},
    decode services objects context ty w = .error e → Blames services objects context w ty e
  | .bool, w, e, h | .int32, w, e, h | .int64, w, e, h | .float32, w, e, h | .float64, w, e, h
  | .string, w, e, h | .bytes, w, e, h => by
      cases w <;> cases h <;> exact Refused.blames (.shape rfl)
  | .optional inner, w, e, h => by
      by_cases hnull : w = .null
      · rw [hnull] at h
        cases h
      · rw [decode_optional hnull] at h
        rcases blames_of_decode inner w h with ⟨v, t, hs, hrefused⟩
        exact ⟨v, t, .optional hnull hs, hrefused⟩
  | .list element, w, e, h => by
      cases w with
      | list items =>
          rw [decode, map_eq_error_iff, mapM_eq_error_iff] at h
          rcases h with ⟨_, item, hitem, herror, -⟩
          rcases blames_of_decode element item herror with ⟨v, t, hs, hrefused⟩
          exact ⟨v, t, .list (List.mem_of_getElem? hitem) hs, hrefused⟩
      | _ => cases h; exact Refused.blames (.shape rfl)
  | .set element, w, e, h => by
      cases w with
      | set items =>
          rw [decode, map_eq_error_iff, mapM_eq_error_iff] at h
          rcases h with ⟨_, item, hitem, herror, -⟩
          rcases blames_of_decode element item herror with ⟨v, t, hs, hrefused⟩
          exact ⟨v, t, .set (List.mem_of_getElem? hitem) hs, hrefused⟩
      | _ => cases h; exact Refused.blames (.shape rfl)
  | .map key value, w, e, h => by
      cases w with
      | map entries =>
          rw [decode, map_eq_error_iff, mapM_eq_error_iff] at h
          rcases h with ⟨_, entry, hentry, herror, -⟩
          -- It is the key or the value of the entry.
          rcases map₂_eq_error herror with hkey | hvalue
          · rcases blames_of_decode key entry.1 hkey with ⟨v, t, hs, hrefused⟩
            exact ⟨v, t, .key (List.mem_of_getElem? hentry) hs, hrefused⟩
          · rcases blames_of_decode value entry.2 hvalue with ⟨v, t, hs, hrefused⟩
            exact ⟨v, t, .value (List.mem_of_getElem? hentry) hs, hrefused⟩
      | _ => cases h; exact Refused.blames (.shape rfl)
  | .tuple elements, w, e, h => by
      cases w with
      | tuple items =>
          rw [decode] at h
          split at h
          · rw [map_eq_error_iff] at h
            rcases blames_of_decodePairwise elements items h with ⟨item, hmem, v, t, hs, hrefused⟩
            exact ⟨v, t, .tuple hmem hs, hrefused⟩
          · next hlength =>
              cases h
              refine Refused.blames (.shape (Bool.eq_false_iff.mpr fun hconforms => ?_))
              exact hlength (length_of_conformPairwise hconforms)
      | _ => cases h; exact Refused.blames (.shape rfl)
  | .enumeration service name, w, e, h => by
      cases w with
      | enum n =>
          rw [decode, map_eq_error_iff] at h
          exact (refused_of_checkMember h).blames
      | _ => cases h; exact Refused.blames (.shape rfl)
  | .instanceOf service name, w, e, h => by
      cases w with
      | object id =>
          rw [decode, map_eq_error_iff] at h
          exact (refused_of_resolveAs h).blames
      | _ => cases h; exact Refused.blames (.shape rfl)

theorem blames_of_decodePairwise : ∀ (tys : List Ty) (vs : List Value) {e : CallError},
    decodePairwise services objects context tys vs = .error e →
      ∃ item ∈ vs.zip tys, Blames services objects context item.1 item.2 e
  | [], vs, e, h => by cases vs <;> cases h
  | _ :: _, [], e, h => by cases h
  | ty :: tys, v :: vs, e, h => by
      rw [decodePairwise] at h
      rcases map₂_eq_error h with hfirst | hrest
      · exact ⟨(v, ty), List.mem_cons_self, blames_of_decode ty v hfirst⟩
      · rcases blames_of_decodePairwise tys vs hrest with ⟨item, hmem, hblames⟩
        exact ⟨item, List.mem_cons_of_mem _ hmem, hblames⟩

end

/-- What is reported is a dead number that occurs in the value, or a misfit. -/
theorem Blames.error {w : Value} {ty : Ty} {e : CallError}
    (h : Blames services objects context w ty e) :
    (∃ id ∈ w.references, objects.contains id = false ∧ e = .invalidReference id) ∨
      ∃ expected actual, e = .typeMismatch context expected actual := by
  rcases h with ⟨v, t, hs, hrefused⟩
  cases hrefused with
  | shape _ => exact .inr ⟨_, _, rfl⟩
  | undeclared _ => exact .inr ⟨_, _, rfl⟩
  | dead hdead =>
      have hcontains := Table.contains_eq_false_iff.mpr hdead
      exact .inl ⟨_, Datum.mem_references_of_standsAt hs, hcontains, rfl⟩
  | otherClass _ _ => exact .inr ⟨_, _, rfl⟩

/-! ## Reading and shape -/

theorem grounded_iff {w : Value} {ty : Ty} :
    Grounded services objects w ty ↔
      (∀ n service name, Datum.StandsAt (.enum n) (.enumeration service name) w ty →
        services.hasMember (.enumeration service name) n) ∧
      ∀ id service name, Datum.StandsAt (.object id) (.instanceOf service name) w ty →
        objects.Live id (classKey service name) := by
  constructor
  · exact fun h => ⟨fun n service name hs => h _ _ hs, fun id service name hs => h _ _ hs⟩
  · rintro ⟨hmembers, hlive⟩ v t hs
    unfold Allowed
    split
    · exact hmembers _ _ _ hs
    · exact hlive _ _ _ hs
    · trivial

/-- A value is read at a type exactly if it has the shape of the type, every integer
    in it that stands at an enumeration is a declared member of that, and every object
    number in it is live and was entered under the class at which it stands. Otherwise
    the error is a number in the value that is not live, or a misfit in the context of
    the value, and it is never any other. -/
theorem reads_what_conforms (services : Services) (objects : ObjectTable) (context : String)
    (ty : Ty) (w : Value) :
    ((∃ n, decode services objects context ty w = .ok n) ↔
      w.conforms ty ∧
      (∀ n service name, Datum.StandsAt (.enum n) (.enumeration service name) w ty →
        services.hasMember (.enumeration service name) n) ∧
      ∀ id service name, Datum.StandsAt (.object id) (.instanceOf service name) w ty →
        objects.Live id (classKey service name)) ∧
    ∀ e, decode services objects context ty w = .error e →
      (∃ id ∈ w.references, objects.contains id = false ∧ e = .invalidReference id) ∨
        ∃ expected actual, e = .typeMismatch context expected actual := by
  constructor
  · rw [exists_decode_iff, grounded_iff]
  · exact fun e h => (blames_of_decode ty w h).error

end Switchboard
