import Mathlib.Data.List.Forall2
import Switchboard.Proofs.Datum.Parts

/-!
# Replacing References

Replacing the references of a value may fail at any of them. If it fails at none, the
result has the shape of the value, and its references are what those of the value were
replaced by, in the same order. So whatever takes each of them back to where it came
from takes the result back to the value.

## Theorems

* `Datum.traverse_list_eq_some_iff` and the like: Replacement in the parts of a value.
* `Datum.references_of_traverse`: The references of the result.
* `Datum.traverse_back`: From the result back to the value.
-/

namespace Switchboard

namespace Datum

variable {ρ σ ε : Type} {f : ρ → Option σ} {g : σ → Except ε ρ}

/-! ## Parts -/

theorem traverse_object_eq_some_iff {ref : ρ} {w : Datum σ} :
    (Datum.object ref).traverse f = some w ↔ ∃ ref', f ref = some ref' ∧ .object ref' = w := by
  simp only [traverse, bind_pure_comp, Option.map_eq_map, Option.map_eq_some_iff]

theorem traverseAll_eq_some_iff {items : List (Datum ρ)} {results : List (Datum σ)} :
    traverseAll f items = some results ↔
      List.Forall₂ (fun item result => item.traverse f = some result) items results := by
  induction items generalizing results with
  | nil =>
      rw [List.forall₂_nil_left_iff]
      exact ⟨fun h => (Option.some.inj h).symm, fun h => h ▸ rfl⟩
  | cons item rest ih =>
      rw [List.forall₂_cons_left_iff]
      simp only [traverseAll, bind_pure_comp, Option.map_eq_map, Option.bind_eq_bind,
        Option.bind_eq_some_iff, Option.map_eq_some_iff, ih]
      constructor
      · rintro ⟨result, hitem, others, hrest, rfl⟩
        exact ⟨result, others, hitem, hrest, rfl⟩
      · rintro ⟨result, others, hitem, hrest, rfl⟩
        exact ⟨result, hitem, others, hrest, rfl⟩

theorem traverseEntries_eq_some_iff {entries : List (Datum ρ × Datum ρ)}
    {results : List (Datum σ × Datum σ)} :
    traverseEntries f entries = some results ↔
      List.Forall₂ (fun entry result => entry.1.traverse f = some result.1 ∧
        entry.2.traverse f = some result.2) entries results := by
  induction entries generalizing results with
  | nil =>
      rw [List.forall₂_nil_left_iff]
      exact ⟨fun h => (Option.some.inj h).symm, fun h => h ▸ rfl⟩
  | cons entry rest ih =>
      rw [List.forall₂_cons_left_iff]
      simp only [traverseEntries, bind_pure_comp, Option.map_eq_map, Option.bind_eq_bind,
        Option.bind_eq_some_iff, Option.map_eq_some_iff, ih]
      constructor
      · rintro ⟨k, hkey, v, hvalue, others, hrest, rfl⟩
        exact ⟨(k, v), others, ⟨hkey, hvalue⟩, hrest, rfl⟩
      · rintro ⟨⟨k, v⟩, others, ⟨hkey, hvalue⟩, hrest, rfl⟩
        exact ⟨k, hkey, v, hvalue, others, hrest, rfl⟩

theorem traverse_list_eq_some_iff {items : List (Datum ρ)} {w : Datum σ} :
    (Datum.list items).traverse f = some w ↔ ∃ results,
      List.Forall₂ (fun item result => item.traverse f = some result) items results ∧
        .list results = w := by
  simp only [traverse, bind_pure_comp, Option.map_eq_map, Option.map_eq_some_iff,
    traverseAll_eq_some_iff]

theorem traverse_set_eq_some_iff {items : List (Datum ρ)} {w : Datum σ} :
    (Datum.set items).traverse f = some w ↔ ∃ results,
      List.Forall₂ (fun item result => item.traverse f = some result) items results ∧
        .set results = w := by
  simp only [traverse, bind_pure_comp, Option.map_eq_map, Option.map_eq_some_iff,
    traverseAll_eq_some_iff]

theorem traverse_tuple_eq_some_iff {items : List (Datum ρ)} {w : Datum σ} :
    (Datum.tuple items).traverse f = some w ↔ ∃ results,
      List.Forall₂ (fun item result => item.traverse f = some result) items results ∧
        .tuple results = w := by
  simp only [traverse, bind_pure_comp, Option.map_eq_map, Option.map_eq_some_iff,
    traverseAll_eq_some_iff]

theorem traverse_map_eq_some_iff {entries : List (Datum ρ × Datum ρ)} {w : Datum σ} :
    (Datum.map entries).traverse f = some w ↔ ∃ results,
      List.Forall₂ (fun entry result => entry.1.traverse f = some result.1 ∧
        entry.2.traverse f = some result.2) entries results ∧ .map results = w := by
  simp only [traverse, bind_pure_comp, Option.map_eq_map, Option.map_eq_some_iff,
    traverseEntries_eq_some_iff]

/-! ## References -/

/-- What holds between the items of two lists in pairs holds between what they are
    mapped to. -/
theorem forall₂_flatMap {α β : Type} {R : α → β → Prop} {S : ρ → σ → Prop} {items : List α}
    {results : List β} {p : α → List ρ} {q : β → List σ} (h : List.Forall₂ R items results)
    (hS : ∀ item ∈ items, ∀ result, R item result → List.Forall₂ S (p item) (q result)) :
    List.Forall₂ S (items.flatMap p) (results.flatMap q) := by
  induction h with
  | nil => exact .nil
  | @cons _ result _ _ hfirst _ ih =>
      rw [List.forall_mem_cons] at hS
      exact List.rel_append (hS.1 result hfirst) (ih hS.2)

/-- The references of the result are what those of the value were replaced by. -/
theorem references_of_traverse : ∀ (v : Datum ρ) {w : Datum σ}, v.traverse f = some w →
    List.Forall₂ (fun ref ref' => f ref = some ref') v.references w.references := by
  refine induction_parts fun v ih => ?_
  intro w h
  cases v with
  | object ref =>
      rcases traverse_object_eq_some_iff.mp h with ⟨ref', href, rfl⟩
      exact .cons href .nil
  | list items =>
      rcases traverse_list_eq_some_iff.mp h with ⟨results, hresults, rfl⟩
      rw [references_list, references_list]
      exact forall₂_flatMap hresults fun item hmem _ hitem => ih item hmem hitem
  | set items =>
      rcases traverse_set_eq_some_iff.mp h with ⟨results, hresults, rfl⟩
      rw [references_set, references_set]
      exact forall₂_flatMap hresults fun item hmem _ hitem => ih item hmem hitem
  | tuple items =>
      rcases traverse_tuple_eq_some_iff.mp h with ⟨results, hresults, rfl⟩
      rw [references_tuple, references_tuple]
      exact forall₂_flatMap hresults fun item hmem _ hitem => ih item hmem hitem
  | map entries =>
      rcases traverse_map_eq_some_iff.mp h with ⟨results, hresults, rfl⟩
      rw [references_map, references_map]
      refine forall₂_flatMap hresults fun entry hmem result hentry => ?_
      have hparts := mem_parts_map hmem
      exact List.rel_append (ih _ hparts.1 hentry.1) (ih _ hparts.2 hentry.2)
  | _ => cases h; exact .nil

/-! ## Back again -/

theorem mem_references_of_mem_parts {v part : Datum ρ} {ref : ρ} (hpart : part ∈ v.parts)
    (href : ref ∈ part.references) : ref ∈ v.references := by
  cases v with
  | list items => exact references_list items ▸ List.mem_flatMap.mpr ⟨part, hpart, href⟩
  | set items => exact references_set items ▸ List.mem_flatMap.mpr ⟨part, hpart, href⟩
  | tuple items => exact references_tuple items ▸ List.mem_flatMap.mpr ⟨part, hpart, href⟩
  | map entries =>
      rcases List.mem_flatMap.mp hpart with ⟨entry, hentry, hmem⟩
      rw [references_map]
      refine List.mem_flatMap.mpr ⟨entry, hentry, List.mem_append.mpr ?_⟩
      rcases List.mem_pair.mp hmem with rfl | rfl
      · exact .inl href
      · exact .inr href
  | _ => exact absurd hpart List.not_mem_nil

theorem traverseAll_back {items : List (Datum ρ)} {results : List (Datum σ)}
    (h : List.Forall₂ (fun item result => item.traverse f = some result) items results)
    (hback : ∀ item ∈ items, ∀ {result}, item.traverse f = some result →
      result.traverse g = .ok item) : traverseAll g results = .ok items := by
  induction h with
  | nil => rfl
  | cons hfirst _ ih =>
      rw [List.forall_mem_cons] at hback
      rw [traverseAll, hback.1 hfirst, ih hback.2]
      rfl

theorem traverseEntries_back {entries : List (Datum ρ × Datum ρ)}
    {results : List (Datum σ × Datum σ)}
    (h : List.Forall₂ (fun entry result => entry.1.traverse f = some result.1 ∧
      entry.2.traverse f = some result.2) entries results)
    (hback : ∀ entry ∈ entries, ∀ part ∈ [entry.1, entry.2], ∀ {result},
      part.traverse f = some result → result.traverse g = .ok part) :
    traverseEntries g results = .ok entries := by
  induction h with
  | nil => rfl
  | cons hfirst _ ih =>
      rw [List.forall_mem_cons, List.forall_mem_cons, List.forall_mem_singleton] at hback
      rw [traverseEntries, hback.1.1 hfirst.1, hback.1.2 hfirst.2, ih hback.2]
      rfl

/-- What takes every reference back takes the result back to the value. -/
theorem traverse_back : ∀ (v : Datum ρ) {w : Datum σ}, v.traverse f = some w →
    (∀ ref ∈ v.references, ∀ ref', f ref = some ref' → g ref' = .ok ref) →
    w.traverse g = .ok v := by
  refine induction_parts fun v ih => ?_
  intro w h hback
  have hparts : ∀ part ∈ v.parts, ∀ {w : Datum σ}, part.traverse f = some w →
      w.traverse g = .ok part := fun part hpart _ hsome =>
    ih part hpart hsome fun ref href => hback ref (mem_references_of_mem_parts hpart href)
  cases v with
  | object ref =>
      rcases traverse_object_eq_some_iff.mp h with ⟨ref', href, rfl⟩
      rw [traverse, hback ref List.mem_cons_self ref' href]
      rfl
  | list items =>
      rcases traverse_list_eq_some_iff.mp h with ⟨results, hresults, rfl⟩
      rw [traverse, traverseAll_back hresults hparts]
      rfl
  | set items =>
      rcases traverse_set_eq_some_iff.mp h with ⟨results, hresults, rfl⟩
      rw [traverse, traverseAll_back hresults hparts]
      rfl
  | tuple items =>
      rcases traverse_tuple_eq_some_iff.mp h with ⟨results, hresults, rfl⟩
      rw [traverse, traverseAll_back hresults hparts]
      rfl
  | map entries =>
      rcases traverse_map_eq_some_iff.mp h with ⟨results, hresults, rfl⟩
      rw [traverse, traverseEntries_back hresults (List.forall_mem_flatMap.mp hparts)]
      rfl
  | _ => cases h; rfl

end Datum

end Switchboard
