import Switchboard.Proofs.Binary.Numbers
import Switchboard.Proofs.Datum.Matching
import Switchboard.Proofs.Datum.Parts

/-!
# Equality is a Partial Equivalence

Equality of values is symmetric and transitive. It is not reflexive, since no
number at all is not equal to itself, and a value with such a leaf anywhere is not
equal to itself either. There is no other exception.

Sets and maps are where something is to be proved, because they are compared by a
procedure that takes the first partner it finds. That the procedure finds a
matching wherever there is one depends on the laws for the items, and the laws for
the items are what is being proved. So the induction goes over the parts of one
value, and has the laws for that value's parts against any other value; nothing is
known of the parts of the other.

At every shape the argument is then the same. What a value of a shape equals has
that shape, and the contents are compared by a test that obeys the laws at these
contents.

## Main definitions

* `Datum.IsNotNumber`: Floating-point leaves that denote no number.
* `Datum.Shape`: A shape of values, and the test for its contents.

## Theorems

* `Datum.equalPairwise_iff`, `Datum.pairOff_eq`, `Datum.pairOffEntries_eq`: How lists
  and entries are compared.
* `Datum.Shape.exists_of_equal`: What a value of a shape is equal to.
* `Datum.partialEquivalenceAt`: The two laws at each value.
* `Datum.equal_self_iff`: What is equal to itself.
* `Datum.equal_partial_equivalence`: Both together, and what floating-point numbers
  are compared by.
-/

namespace Switchboard

namespace Datum

variable {ρ : Type}

/-- A floating-point value that denotes no number. -/
def IsNotNumber : Datum ρ → Prop
  | .float32 x => x.magnitude = .nan
  | .float64 x => x.magnitude = .nan
  | _ => False

variable [BEq ρ]

/-! ## Lists and entries -/

theorem equalPairwise_iff (xs ys : List (Datum ρ)) :
    equalPairwise xs ys ↔ List.Forall₂ (fun x y => equal x y) xs ys := by
  induction xs generalizing ys with
  | nil =>
      cases ys with
      | nil => simp only [equalPairwise, List.Forall₂.nil]
      | cons y ys => simp only [equalPairwise, Bool.false_eq_true, List.forall₂_nil_left_iff,
          reduceCtorEq]
  | cons x xs ih =>
      cases ys with
      | nil => simp only [equalPairwise, Bool.false_eq_true, List.forall₂_nil_right_iff,
          reduceCtorEq]
      | cons y ys => rw [equalPairwise, Bool.and_eq_true, List.forall₂_cons, ih]

theorem pairOff_eq (xs ys : List (Datum ρ)) : pairOff xs ys = pairOffBy equal xs ys := by
  induction xs generalizing ys with
  | nil => rw [pairOff, pairOffBy]
  | cons x xs ih =>
      rw [pairOff, pairOffBy]
      cases takeFirst? (equal x) ys with
      | none => rfl
      | some rest => exact ih rest

/-- Whether two entries of a map agree in key and value. -/
def equalEntries (e f : Datum ρ × Datum ρ) : Bool := equal e.1 f.1 && equal e.2 f.2

theorem equalEntries_iff (e f : Datum ρ × Datum ρ) :
    equalEntries e f ↔ equal e.1 f.1 ∧ equal e.2 f.2 := by
  rw [equalEntries, Bool.and_eq_true]

theorem pairOffEntries_eq (xs ys : List (Datum ρ × Datum ρ)) :
    pairOffEntries xs ys = pairOffBy equalEntries xs ys := by
  induction xs generalizing ys with
  | nil => rw [pairOffEntries, pairOffBy]
  | cons e xs ih =>
      have htest : (fun f : Datum ρ × Datum ρ => equal e.1 f.1 && equal e.2 f.2) =
          equalEntries e := rfl
      rw [pairOffEntries, pairOffBy, htest]
      cases takeFirst? (equalEntries e) ys with
      | none => rfl
      | some rest => exact ih rest

/-! ## The laws at each value -/

theorem kind_eq_of_equal {v w : Datum ρ} (h : equal v w) : v.kind = w.kind := by
  unfold equal at h
  split at h <;> first | rfl | cases h

/-- A shape that values have, whose contents are compared by a test. -/
structure Shape {α : Type} (shape : α → Datum ρ) (test : α → α → Bool) : Prop where
  equal_eq (a b : α) : equal (shape a) (shape b) = test a b
  /-- No other value is of the kind of the shape. -/
  exists_eq (v : Datum ρ) (a : α) : v.kind = (shape a).kind → ∃ b, v = shape b

section Shape

variable {α : Type} {shape : α → Datum ρ} {test : α → α → Bool}

theorem Shape.exists_of_equal (hshape : Shape shape test) {v : Datum ρ} {a : α}
    (h : v.equal (shape a)) : ∃ b, v = shape b ∧ test b a := by
  rcases hshape.exists_eq v a (kind_eq_of_equal h) with ⟨b, rfl⟩
  exact ⟨b, rfl, hshape.equal_eq b a ▸ h⟩

theorem Shape.exists_of_equal_left (hshape : Shape shape test) {v : Datum ρ} {a : α}
    (h : (shape a).equal v) : ∃ b, v = shape b ∧ test a b := by
  rcases hshape.exists_eq v a (kind_eq_of_equal h).symm with ⟨b, rfl⟩
  exact ⟨b, rfl, hshape.equal_eq a b ▸ h⟩

/-- The laws at a value of a shape, from those at its contents. -/
theorem Shape.partialEquivalenceAt (hshape : Shape shape test) {a : α}
    (h : PartialEquivalenceAt (fun b c => test b c) a) :
    PartialEquivalenceAt (fun v w => equal v w) (shape a) := by
  refine ⟨fun w => ⟨fun hw => ?_, fun hw => ?_⟩, fun w u hw hu => ?_⟩
  · rcases hshape.exists_of_equal_left hw with ⟨b, rfl, hab⟩
    rw [hshape.equal_eq]
    exact (h.symm b).mp hab
  · rcases hshape.exists_of_equal hw with ⟨b, rfl, hba⟩
    rw [hshape.equal_eq]
    exact (h.symm b).mpr hba
  · rcases hshape.exists_of_equal_left hw with ⟨b, rfl, hab⟩
    rcases hshape.exists_of_equal_left hu with ⟨c, rfl, hbc⟩
    rw [hshape.equal_eq]
    exact h.trans b c hab hbc

/-- What is compared alike inside a shape is compared alike as a value. -/
theorem Shape.equal_congr (hshape : Shape shape test) {a b : α} (h : test a = test b) :
    (shape a).equal = (shape b).equal := by
  -- Only values of the shape pass on either side, and for these the test decides.
  have hmove : ∀ {a b : α}, test a = test b → ∀ v, (shape a).equal v → (shape b).equal v := by
    intro a b h v hv
    rcases hshape.exists_of_equal_left hv with ⟨c, rfl, hac⟩
    rw [hshape.equal_eq, ← h]
    exact hac
  funext v
  exact Bool.eq_iff_iff.mpr ⟨hmove h v, hmove h.symm v⟩

end Shape

theorem shape_list : Shape (ρ := ρ) .list equalPairwise where
  equal_eq a b := by rw [equal]
  exists_eq v a hkind := by cases v <;> first | exact ⟨_, rfl⟩ | simp [kind] at hkind

theorem shape_tuple : Shape (ρ := ρ) .tuple equalPairwise where
  equal_eq a b := by rw [equal]
  exists_eq v a hkind := by cases v <;> first | exact ⟨_, rfl⟩ | simp [kind] at hkind

theorem shape_set : Shape (ρ := ρ) .set (pairOffBy equal) where
  equal_eq a b := by rw [equal, pairOff_eq]
  exists_eq v a hkind := by cases v <;> first | exact ⟨_, rfl⟩ | simp [kind] at hkind

theorem shape_map : Shape (ρ := ρ) .map (pairOffBy equalEntries) where
  equal_eq a b := by rw [equal, pairOffEntries_eq]
  exists_eq v a hkind := by cases v <;> first | exact ⟨_, rfl⟩ | simp [kind] at hkind

theorem partialEquivalenceAt_beq {α : Type} [BEq α] [LawfulBEq α] (a : α) :
    PartialEquivalenceAt (fun b c => b == c) a := by
  simp only [beq_iff_eq]
  exact ⟨fun _ => eq_comm, fun _ _ => Eq.trans⟩

/-- Denoting a number in common. -/
theorem partialEquivalenceAt_number {α : Type} (magnitude : α → Magnitude) (x : α) :
    PartialEquivalenceAt
      (fun x y => ∃ n, (magnitude x).number? = some n ∧ (magnitude y).number? = some n) x := by
  refine ⟨fun y => ⟨fun ⟨n, hx, hy⟩ => ⟨n, hy, hx⟩, fun ⟨n, hy, hx⟩ => ⟨n, hx, hy⟩⟩, ?_⟩
  rintro y z ⟨n, hx, hy⟩ ⟨m, hy', hz⟩
  exact ⟨n, hx, by rw [hz, ← hy', hy]⟩

variable [LawfulBEq ρ]

/-- Equality is symmetric and transitive at each value. -/
theorem partialEquivalenceAt : ∀ v : Datum ρ, PartialEquivalenceAt (fun v w => equal v w) v := by
  refine induction_parts fun v ih => ?_
  cases v with
  | null =>
      have hshape : Shape (ρ := ρ) (fun _ : Unit => .null) fun _ _ => true := by
        refine ⟨fun _ _ => by rw [equal], fun w _ hkind => ?_⟩
        cases w <;> first | exact ⟨(), rfl⟩ | simp [kind] at hkind
      exact hshape.partialEquivalenceAt (a := ()) ⟨fun _ => Iff.rfl, fun _ _ _ _ => rfl⟩
  | bool a | int32 a | int64 a | string a | bytes a | enum a | object a =>
      refine Shape.partialEquivalenceAt ⟨fun b c => ?_, fun w b hkind => ?_⟩
        (partialEquivalenceAt_beq a)
      · rw [equal]
      · cases w <;> first | exact ⟨_, rfl⟩ | simp [kind] at hkind
  | float32 x =>
      have hnumber := partialEquivalenceAt_number Binary32.magnitude x
      simp only [← Binary32.same_iff] at hnumber
      refine Shape.partialEquivalenceAt ⟨fun b c => ?_, fun w b hkind => ?_⟩ hnumber
      · rw [equal]
      · cases w <;> first | exact ⟨_, rfl⟩ | simp [kind] at hkind
  | float64 x =>
      have hnumber := partialEquivalenceAt_number Binary64.magnitude x
      simp only [← Binary64.same_iff] at hnumber
      refine Shape.partialEquivalenceAt ⟨fun b c => ?_, fun w b hkind => ?_⟩ hnumber
      · rw [equal]
      · cases w <;> first | exact ⟨_, rfl⟩ | simp [kind] at hkind
  | list items =>
      refine shape_list.partialEquivalenceAt ?_
      simp only [equalPairwise_iff]
      exact .forall₂ ih
  | tuple items =>
      refine shape_tuple.partialEquivalenceAt ?_
      simp only [equalPairwise_iff]
      exact .forall₂ ih
  | set items => exact shape_set.partialEquivalenceAt (.pairOffBy ih)
  | map entries =>
      refine shape_map.partialEquivalenceAt (.pairOffBy fun e he => ?_)
      simp only [equalEntries_iff]
      exact .pair (ih _ (mem_parts_map he).1) (ih _ (mem_parts_map he).2)

theorem partialEquivalenceAt_entry (entry : Datum ρ × Datum ρ) :
    PartialEquivalenceAt (fun e f => equalEntries e f) entry := by
  simp only [equalEntries_iff]
  exact .pair (partialEquivalenceAt entry.1) (partialEquivalenceAt entry.2)

/-! ## Sets and maps by contents -/

theorem equal_set_iff_matching (a b : List (Datum ρ)) :
    (Datum.set a).equal (.set b) ↔ Matching (fun v w => equal v w) a b := by
  rw [shape_set.equal_eq, PartialEquivalenceAt.pairOffBy_iff fun v _ => partialEquivalenceAt v]

theorem equal_map_iff_matching (a b : List (Datum ρ × Datum ρ)) :
    (Datum.map a).equal (.map b) ↔
      Matching (fun e f => equal e.1 f.1 ∧ equal e.2 f.2) a b := by
  rw [shape_map.equal_eq,
    PartialEquivalenceAt.pairOffBy_iff fun e _ => partialEquivalenceAt_entry e]
  simp only [equalEntries_iff]

/-- What is equal is equal to the same values. -/
theorem equal_right_eq {v w : Datum ρ} (h : v.equal w) (u : Datum ρ) : u.equal v = u.equal w := by
  have hu := partialEquivalenceAt u
  rw [Bool.eq_iff_iff]
  refine ⟨fun huv => hu.trans v w huv h, fun huw => hu.trans w v huw ?_⟩
  exact ((partialEquivalenceAt v).symm w).mp h

/-! ## What is equal to itself -/

/-- A value is equal to itself unless there is a leaf in it that is no number. -/
theorem equal_self_iff : ∀ v : Datum ρ, equal v v ↔ ∀ leaf ∈ v.leaves, ¬leaf.IsNotNumber := by
  refine induction_parts fun v ih => ?_
  cases v with
  | null =>
      rw [equal, forall_mem_leaves_leaf rfl]
      exact iff_of_true rfl not_false
  | bool a | int32 a | int64 a | string a | bytes a | enum a | object a =>
      rw [equal, beq_iff_eq, forall_mem_leaves_leaf rfl]
      exact iff_of_true rfl not_false
  | float32 x =>
      rw [equal, Binary32.same_iff, forall_mem_leaves_leaf rfl]
      simp only [and_self]
      exact Magnitude.exists_number?_iff
  | float64 x =>
      rw [equal, Binary64.same_iff, forall_mem_leaves_leaf rfl]
      simp only [and_self]
      exact Magnitude.exists_number?_iff
  | list items =>
      rw [equal, equalPairwise_iff, List.forall₂_same, forall_mem_leaves_list]
      exact forall₂_congr ih
  | tuple items =>
      rw [equal, equalPairwise_iff, List.forall₂_same, forall_mem_leaves_tuple]
      exact forall₂_congr ih
  | set items =>
      rw [equal_set_iff_matching, matching_self_iff fun item _ => partialEquivalenceAt item,
        forall_mem_leaves_set]
      exact forall₂_congr ih
  | map entries =>
      rw [equal_map_iff_matching, matching_self_iff fun entry _ =>
        .pair (partialEquivalenceAt entry.1) (partialEquivalenceAt entry.2),
        forall_mem_leaves_map]
      refine forall₂_congr fun e he => ?_
      rw [ih _ (mem_parts_map he).1, ih _ (mem_parts_map he).2]

/-- Equality of values is a partial equivalence. It is symmetric and transitive, and a
    value is equal to itself exactly if no leaf in it is a floating-point value that
    denotes no number. Floating-point values are equal if they denote the same number,
    as the two zeros do. -/
theorem equal_partial_equivalence (a b c : Value) :
    (a.equal b → b.equal a) ∧
    (a.equal b → b.equal c → a.equal c) ∧
    (a.equal a ↔ ∀ leaf ∈ a.leaves, ¬leaf.IsNotNumber) ∧
    (∀ x y : Binary32, (Datum.float32 x : Value).equal (.float32 y) ↔
      ∃ n, x.magnitude.number? = some n ∧ y.magnitude.number? = some n) ∧
    (∀ x y : Binary64, (Datum.float64 x : Value).equal (.float64 y) ↔
      ∃ n, x.magnitude.number? = some n ∧ y.magnitude.number? = some n) := by
  have hlaws := partialEquivalenceAt a
  refine ⟨(hlaws.symm b).mp, hlaws.trans b c, equal_self_iff a, fun x y => ?_, fun x y => ?_⟩
  · rw [equal, Binary32.same_iff]
  · rw [equal, Binary64.same_iff]

end Datum

end Switchboard
