import Switchboard.Datum.Basic

/-!
# What a Value Is Made Of

Values nest through lists of values and lists of entries, and a recursion over
them has a companion for each kind of list. What is proved about values need not
have one. A value is smaller than what it is a part of, so it is enough to show
that a property passes from the parts of a value to the value, for whatever reason
there is a part.

What is not made of anything is a leaf. The leaves of a value are listed from left
to right, in the order in which reading and writing come across them. The
references of a value are those of its leaves.

## Main definitions

* `Datum.parts`: What a value is made of, one step down.
* `Datum.leaves`: What it is made of in the end.
* `Datum.references`: The references in it, from left to right.

## Theorems

* `Datum.induction_parts`: A property that passes from parts to values holds of all.
* `Datum.forall_mem_leaves_list` and the like: The leaves are those of the parts.
* `Datum.references_list` and the like: So are the references.
-/

namespace Switchboard

namespace Datum

variable {ρ : Type}

/-! ## Parts -/

/-- What a value is made of, one step down. -/
def parts : Datum ρ → List (Datum ρ)
  | .list items => items
  | .set items => items
  | .tuple items => items
  | .map entries => entries.flatMap fun entry => [entry.1, entry.2]
  | _ => []

theorem mem_parts_map {entry : Datum ρ × Datum ρ} {entries : List (Datum ρ × Datum ρ)}
    (h : entry ∈ entries) :
    entry.1 ∈ (Datum.map entries).parts ∧ entry.2 ∈ (Datum.map entries).parts :=
  ⟨List.mem_flatMap.mpr ⟨entry, h, List.mem_cons_self⟩,
    List.mem_flatMap.mpr ⟨entry, h, List.mem_cons_of_mem _ List.mem_cons_self⟩⟩

theorem sizeOf_lt_of_mem_parts {part v : Datum ρ} (h : part ∈ v.parts) :
    sizeOf part < sizeOf v := by
  cases v with
  | list items | set items | tuple items =>
      have hlt : sizeOf part < sizeOf items := List.sizeOf_lt_of_mem h
      simp only [list.sizeOf_spec, set.sizeOf_spec, tuple.sizeOf_spec]
      omega
  | map entries =>
      rcases List.mem_flatMap.mp h with ⟨⟨k, x⟩, hentry, hpart⟩
      have hlt := List.sizeOf_lt_of_mem hentry
      simp only [map.sizeOf_spec, Prod.mk.sizeOf_spec] at hlt ⊢
      simp only [List.mem_cons, List.not_mem_nil, or_false] at hpart
      rcases hpart with rfl | rfl <;> omega
  | _ => exact absurd h List.not_mem_nil

/-- A property that passes from the parts of a value to the value holds of all. -/
theorem induction_parts {P : Datum ρ → Prop} (h : ∀ v, (∀ part ∈ v.parts, P part) → P v) :
    ∀ v, P v :=
  fun v => h v fun part _ => induction_parts h part
termination_by v => sizeOf v
decreasing_by exact sizeOf_lt_of_mem_parts ‹_›

/-! ## Leaves -/

mutual

/-- What a value is made of in the end, from left to right. -/
def leaves : Datum ρ → List (Datum ρ)
  | .list items => leavesAll items
  | .set items => leavesAll items
  | .tuple items => leavesAll items
  | .map entries => leavesEntries entries
  | v => [v]

/-- The leaves of several values. -/
def leavesAll : List (Datum ρ) → List (Datum ρ)
  | [] => []
  | v :: vs => leaves v ++ leavesAll vs

/-- The leaves of the entries of a map. -/
def leavesEntries : List (Datum ρ × Datum ρ) → List (Datum ρ)
  | [] => []
  | (k, v) :: rest => leaves k ++ leaves v ++ leavesEntries rest

end

theorem leavesAll_eq (items : List (Datum ρ)) : leavesAll items = items.flatMap leaves := by
  induction items with
  | nil => rfl
  | cons v vs ih => rw [leavesAll, List.flatMap_cons, ih]

theorem leavesEntries_eq (entries : List (Datum ρ × Datum ρ)) :
    leavesEntries entries = entries.flatMap fun entry => entry.1.leaves ++ entry.2.leaves := by
  induction entries with
  | nil => rfl
  | cons entry rest ih => rw [leavesEntries, List.flatMap_cons, ih]

/-- A value that is not made of anything is its own leaf. -/
theorem forall_mem_leaves_leaf {P : Datum ρ → Prop} {v : Datum ρ} (h : v.leaves = [v]) :
    (∀ leaf ∈ v.leaves, P leaf) ↔ P v := by
  rw [h, List.forall_mem_singleton]

/-- Whether all leaves are as wanted is settled part by part. -/
theorem forall_mem_leaves_list {P : Datum ρ → Prop} {items : List (Datum ρ)} :
    (∀ leaf ∈ (Datum.list items).leaves, P leaf) ↔
      ∀ item ∈ items, ∀ leaf ∈ item.leaves, P leaf := by
  rw [leaves, leavesAll_eq]
  exact List.forall_mem_flatMap

theorem forall_mem_leaves_set {P : Datum ρ → Prop} {items : List (Datum ρ)} :
    (∀ leaf ∈ (Datum.set items).leaves, P leaf) ↔
      ∀ item ∈ items, ∀ leaf ∈ item.leaves, P leaf := forall_mem_leaves_list

theorem forall_mem_leaves_tuple {P : Datum ρ → Prop} {items : List (Datum ρ)} :
    (∀ leaf ∈ (Datum.tuple items).leaves, P leaf) ↔
      ∀ item ∈ items, ∀ leaf ∈ item.leaves, P leaf := forall_mem_leaves_list

theorem forall_mem_leaves_map {P : Datum ρ → Prop} {entries : List (Datum ρ × Datum ρ)} :
    (∀ leaf ∈ (Datum.map entries).leaves, P leaf) ↔
      ∀ entry ∈ entries, (∀ leaf ∈ entry.1.leaves, P leaf) ∧
        ∀ leaf ∈ entry.2.leaves, P leaf := by
  rw [leaves, leavesEntries_eq, List.forall_mem_flatMap]
  simp only [List.forall_mem_append]

/-! ## References -/

/-- The reference that a leaf is, if it is one. -/
def reference? : Datum ρ → Option ρ
  | .object ref => some ref
  | _ => none

/-- The references in a value, from left to right. -/
def references (v : Datum ρ) : List ρ := v.leaves.filterMap reference?

theorem references_list (items : List (Datum ρ)) :
    (Datum.list items).references = items.flatMap references := by
  rw [references, leaves, leavesAll_eq, List.filterMap_flatMap]
  rfl

theorem references_set (items : List (Datum ρ)) :
    (Datum.set items).references = items.flatMap references := references_list items

theorem references_tuple (items : List (Datum ρ)) :
    (Datum.tuple items).references = items.flatMap references := references_list items

theorem references_map (entries : List (Datum ρ × Datum ρ)) :
    (Datum.map entries).references =
      entries.flatMap fun entry => entry.1.references ++ entry.2.references := by
  rw [references, leaves, leavesEntries_eq, List.filterMap_flatMap]
  simp only [List.filterMap_append]
  rfl

theorem forall_mem_references_of_eq_nil {P : ρ → Prop} {v : Datum ρ} (h : v.references = []) :
    ∀ ref ∈ v.references, P ref := by
  rw [h]
  exact List.forall_mem_nil P

theorem forall_mem_references_list {P : ρ → Prop} {items : List (Datum ρ)} :
    (∀ ref ∈ (Datum.list items).references, P ref) ↔
      ∀ item ∈ items, ∀ ref ∈ item.references, P ref := by
  rw [references_list]
  exact List.forall_mem_flatMap

theorem forall_mem_references_map {P : ρ → Prop} {entries : List (Datum ρ × Datum ρ)} :
    (∀ ref ∈ (Datum.map entries).references, P ref) ↔
      ∀ entry ∈ entries, (∀ ref ∈ entry.1.references, P ref) ∧
        ∀ ref ∈ entry.2.references, P ref := by
  rw [references_map, List.forall_mem_flatMap]
  simp only [List.forall_mem_append]

end Datum

end Switchboard
