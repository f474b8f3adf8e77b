import Switchboard.Proofs.Coercion.Arguments
import Switchboard.Proofs.Datum.Parts
import Switchboard.Proofs.Objects.Extension

/-!
# What Is Read Is Live

A client names objects by numbers, and reading looks the numbers up. So every object in a
value that was read is live at that moment, wherever it stands, and so is every object among
the arguments that a call is bound to. A value that is left out and has a default is read in
the same way.

## Main definitions

* `ObjectTable.HoldsAll`: All that a value refers to is entered.

## Theorems

* `holdsAll_of_decode`: Values that are read.
* `holdsAll_of_bindArguments`: Arguments of a call.
-/

namespace Switchboard

variable {services : Services} {t : ObjectTable} {context : String}

/-- Every object in a value is entered. -/
def ObjectTable.HoldsAll (t : ObjectTable) (v : NativeValue) : Prop :=
  ∀ i ∈ v.references, ∃ className, t.Holds i className

mutual

/-- What is read has only such objects in it as are entered. -/
theorem holdsAll_of_decode : ∀ (ty : Ty) {w : Value} {n : NativeValue},
    decode services t context ty w = .ok n → t.HoldsAll n
  | .optional inner, w, n, h => by
      by_cases hnull : w = .null
      · rw [hnull] at h
        cases h
        exact Datum.forall_mem_references_of_eq_nil rfl
      · rw [decode_optional hnull] at h
        exact holdsAll_of_decode inner h
  | .bool, w, n, h | .int32, w, n, h | .int64, w, n, h | .float32, w, n, h | .float64, w, n, h
  | .string, w, n, h | .bytes, w, n, h => by
      cases w <;> cases h
      exact Datum.forall_mem_references_of_eq_nil rfl
  | .list element, w, n, h => by
      cases w with
      | list items =>
          rcases map_eq_ok_iff.mp h with ⟨results, hresults, rfl⟩
          refine Datum.forall_mem_references_list.mpr ?_
          exact forall_mem_right (mapM_eq_ok_iff_forall₂.mp hresults) fun _ _ =>
            holdsAll_of_decode element
      | _ => cases h
  | .set element, w, n, h => by
      cases w with
      | set items =>
          rcases map_eq_ok_iff.mp h with ⟨results, hresults, rfl⟩
          refine Datum.forall_mem_references_list.mpr ?_
          exact forall_mem_right (mapM_eq_ok_iff_forall₂.mp hresults) fun _ _ =>
            holdsAll_of_decode element
      | _ => cases h
  | .map key value, w, n, h => by
      cases w with
      | map entries =>
          rcases map_eq_ok_iff.mp h with ⟨results, hresults, rfl⟩
          refine Datum.forall_mem_references_map.mpr ?_
          refine forall_mem_right (mapM_eq_ok_iff_forall₂.mp hresults) fun entry result hentry => ?_
          rcases map₂_eq_ok_iff.mp hentry with ⟨k, v, hk, hv, rfl⟩
          exact ⟨holdsAll_of_decode key hk, holdsAll_of_decode value hv⟩
      | _ => cases h
  | .tuple elements, w, n, h => by
      cases w with
      | tuple items =>
          rw [decode] at h
          split at h
          · rcases map_eq_ok_iff.mp h with ⟨results, hresults, rfl⟩
            refine Datum.forall_mem_references_list.mpr ?_
            exact holdsAll_of_decodePairwise elements hresults
          · cases h
      | _ => cases h
  | .enumeration service name, w, n, h => by
      cases w with
      | enum m =>
          rcases map_eq_ok_iff.mp h with ⟨_, _, rfl⟩
          exact Datum.forall_mem_references_of_eq_nil rfl
      | _ => cases h
  | .instanceOf service name, w, n, h => by
      cases w with
      | object id =>
          rcases map_eq_ok_iff.mp h with ⟨object, hobject, rfl⟩
          rcases ObjectTable.resolveAs_eq_ok_iff.mp hobject with ⟨entry, hentry, hclass, rfl⟩
          exact List.forall_mem_singleton.mpr ⟨_, id, entry, hentry, rfl, hclass⟩
      | _ => cases h

theorem holdsAll_of_decodePairwise : ∀ (tys : List Ty) {ws : List Value}
    {ns : List NativeValue}, decodePairwise services t context tys ws = .ok ns →
      ∀ n ∈ ns, t.HoldsAll n
  | [], ws, ns, h => by
      cases ws <;> cases h <;> exact List.forall_mem_nil _
  | ty :: tys, [], ns, h => by
      cases h
      exact List.forall_mem_nil _
  | ty :: tys, w :: ws, ns, h => by
      rcases map₂_eq_ok_iff.mp h with ⟨first, rest, hfirst, hrest, rfl⟩
      rw [List.forall_mem_cons]
      exact ⟨holdsAll_of_decode ty hfirst, holdsAll_of_decodePairwise tys hrest⟩

end

/-- So it is with what a parameter is bound to. -/
theorem Resolves.holdsAll {procedure : String} {arguments : List Argument} {position : Nat}
    {parameter : Parameter} {n : NativeValue}
    (h : Resolves services t procedure arguments position parameter (.ok n)) : t.HoldsAll n := by
  generalize hresult : Except.ok n = result at h
  cases h with
  | read _ _ | default _ _ _ => exact holdsAll_of_decode _ hresult.symm
  | null _ _ | nullDefault _ _ =>
      cases hresult
      exact Datum.forall_mem_references_of_eq_nil rfl
  | missing _ _ => cases hresult

theorem holdsAll_of_bindArguments {procedure : String} {parameters : List Parameter}
    {arguments : List Argument} {bound : List NativeValue}
    (h : bindArguments services t procedure parameters arguments = .ok bound) :
    ∀ n ∈ bound, t.HoldsAll n := by
  rcases resolves_of_bindArguments h with ⟨hlength, heach⟩
  intro n hn
  rcases List.mem_iff_getElem?.mp hn with ⟨position, hposition⟩
  -- There is a parameter for each value.
  have hlt := hlength ▸ (List.getElem?_eq_some_iff.mp hposition).1
  rcases heach position _ (List.getElem?_eq_getElem hlt) with ⟨m, hm, hresolves⟩
  rw [hposition, Option.some.injEq] at hm
  exact hm ▸ hresolves.holdsAll

end Switchboard
