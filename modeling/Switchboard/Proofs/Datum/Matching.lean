import Mathlib.Data.List.Forall2
import Mathlib.Data.List.Perm.Basic
import Switchboard.Datum.Equality

/-!
# Pairing Items Off

Sets and maps are compared by giving each item of one side the first item of the
other that equals it. `pairOffBy` is that procedure for any test, and `Matching`
is what it looks for: the second list in some order, with items related to those
of the first one by one.

A matching that is found is one, whatever the test. The converse can fail. Where
two items want the same partner, the first comes first, and it may take the only
one that would have done for the second. What rules this out is that partners can
be exchanged: if two items share one partner, each partner of the first is one of
the second. `Interchangeable` says so of two lists, and `replace_partner` is the
exchange.

A relation that is symmetric and transitive has this property without being
reflexive. Both are asked for at single items here, as `PartialEquivalenceAt`, and
not of the relation as a whole. An induction over values knows about their parts
and about nothing else, and with the two laws at the items of a list they hold of
pairing off at the list.

## Main definitions

* `Matching`: Two lists whose items are related one to one in some order.
* `pairOffBy`: Giving each item the first partner that is left.
* `Interchangeable`: Items that share one partner share all.
* `PartialEquivalenceAt`: The two laws at an item.

## Theorems

* `Matching.exists_partner`: The partner of an item.
* `pairOffBy_iff_matching`: Where partners can be exchanged, a matching is found if
  there is one.
* `PartialEquivalenceAt.forall₂`, `PartialEquivalenceAt.matching`,
  `PartialEquivalenceAt.pair`: The laws at lists and pairs from those at their items.
* `matching_self_iff`: What matches itself.
-/

namespace Switchboard

variable {α β γ : Type}

/-! ## Taking the first -/

theorem takeFirst?_eq_some {test : α → Bool} {xs rest : List α}
    (h : takeFirst? test xs = some rest) : ∃ x, test x ∧ (x :: rest).Perm xs := by
  induction xs generalizing rest with
  | nil => cases h
  | cons x xs ih =>
      rw [takeFirst?] at h
      cases hx : test x with
      | true =>
          rw [hx, if_pos rfl, Option.some.injEq] at h
          exact ⟨x, hx, h ▸ .refl _⟩
      | false =>
          rw [hx, if_neg Bool.false_ne_true, Option.map_eq_some_iff] at h
          rcases h with ⟨others, hothers, rfl⟩
          rcases ih hothers with ⟨y, hy, hperm⟩
          exact ⟨y, hy, (List.Perm.swap x y others).trans (hperm.cons x)⟩

theorem exists_takeFirst? {test : α → Bool} {xs : List α} {x : α} (hmem : x ∈ xs)
    (hx : test x) : ∃ rest, takeFirst? test xs = some rest := by
  induction xs with
  | nil => exact absurd hmem List.not_mem_nil
  | cons y ys ih =>
      rw [takeFirst?]
      cases hy : test y with
      | true => exact ⟨ys, if_pos rfl⟩
      | false =>
          rcases List.mem_cons.mp hmem with rfl | hmem
          · exact absurd (hx.symm.trans hy) nofun
          · rcases ih hmem with ⟨rest, hrest⟩
            exact ⟨y :: rest, by rw [if_neg Bool.false_ne_true, hrest, Option.map_some]⟩

/-! ## Matchings -/

/-- Two lists whose items are related one to one, in some order of the second. -/
def Matching (R : α → β → Prop) (xs : List α) (ys : List β) : Prop :=
  ∃ zs, List.Forall₂ R xs zs ∧ zs.Perm ys

/-- Each item of the second list has a partner in the first. -/
theorem exists_partner {R : α → β → Prop} {xs : List α} {ys : List β} (h : List.Forall₂ R xs ys)
    {y : β} (hy : y ∈ ys) : ∃ x ∈ xs, R x y := by
  induction h with
  | nil => exact absurd hy List.not_mem_nil
  | @cons x _ _ _ hfirst _ ih =>
      rcases List.mem_cons.mp hy with rfl | hy
      · exact ⟨x, List.mem_cons_self, hfirst⟩
      · rcases ih hy with ⟨x', hx', hpartner⟩
        exact ⟨x', List.mem_cons_of_mem _ hx', hpartner⟩

theorem Matching.exists_partner {R : α → β → Prop} {xs : List α} {ys : List β}
    (h : Matching R xs ys) {y : β} (hy : y ∈ ys) : ∃ x ∈ xs, R x y := by
  rcases h with ⟨zs, hzs, hperm⟩
  exact Switchboard.exists_partner hzs (hperm.symm.subset hy)

/-- Whether each item of the first list, one after the other, finds a partner in
    what is left of the second, and nothing is left in the end. -/
def pairOffBy (test : α → β → Bool) : List α → List β → Bool
  | [], ys => ys.isEmpty
  | x :: xs, ys =>
    match takeFirst? (test x) ys with
    | some rest => pairOffBy test xs rest
    | none => false

/-- Items of the first list that share one partner in the second share all. -/
def Interchangeable (R : α → β → Prop) (xs : List α) (ys : List β) : Prop :=
  ∀ x ∈ xs, ∀ x' ∈ xs, ∀ y ∈ ys, ∀ y' ∈ ys, R x y → R x y' → R x' y → R x' y'

variable {R : α → β → Prop}

/-- What is paired off is a matching, whatever the test. -/
theorem matching_of_pairOffBy {test : α → β → Bool} {xs : List α} {ys : List β}
    (h : pairOffBy test xs ys) : Matching (fun x y => test x y) xs ys := by
  induction xs generalizing ys with
  | nil => exact ⟨[], .nil, by rw [List.isEmpty_iff.mp h]⟩
  | cons x xs ih =>
      rw [pairOffBy] at h
      cases hrest : takeFirst? (test x) ys with
      | none =>
          rw [hrest] at h
          cases h
      | some rest =>
          rw [hrest] at h
          rcases takeFirst?_eq_some hrest with ⟨y, hy, hperm⟩
          rcases ih h with ⟨zs, hzs, hzsperm⟩
          exact ⟨y :: zs, .cons hy hzs, (hzsperm.cons y).trans hperm⟩

/-- A partner `y` that is taken away is replaced by `z`, if whoever has `y` can have
    `z` instead. -/
theorem replace_partner {xs : List α} {zs : List β} {y z : β} (hzs : List.Forall₂ R xs zs)
    (hmem : y ∈ zs) (hchange : ∀ x ∈ xs, R x y → R x z) :
    ∃ zs', List.Forall₂ R xs zs' ∧ (y :: zs').Perm (z :: zs) := by
  induction hzs with
  | nil => exact absurd hmem List.not_mem_nil
  | @cons x w xs zs hx hrest ih =>
      rcases List.mem_cons.mp hmem with rfl | hmem
      · exact ⟨z :: zs, .cons (hchange x List.mem_cons_self hx) hrest, .swap z y zs⟩
      · rcases ih hmem fun x' hx' => hchange x' (List.mem_cons_of_mem _ hx') with
          ⟨zs', hzs', hperm⟩
        refine ⟨w :: zs', .cons hx hzs', ?_⟩
        exact ((List.Perm.swap w y zs').trans (hperm.cons w)).trans (.swap z w zs)

theorem Interchangeable.tail {x : α} {xs : List α} {ys rest : List β}
    (h : Interchangeable R (x :: xs) ys) (hrest : rest ⊆ ys) : Interchangeable R xs rest :=
  fun x hx x' hx' y hy y' hy' =>
    h x (List.mem_cons_of_mem _ hx) x' (List.mem_cons_of_mem _ hx') y (hrest hy) y' (hrest hy')

/-- Where partners can be exchanged, a matching is found if there is one. -/
theorem pairOffBy_iff_matching {test : α → β → Bool} {xs : List α} {ys : List β}
    (h : Interchangeable (fun x y => test x y) xs ys) :
    pairOffBy test xs ys ↔ Matching (fun x y => test x y) xs ys := by
  refine ⟨matching_of_pairOffBy, ?_⟩
  induction xs generalizing ys with
  | nil =>
      rintro ⟨zs, hzs, hperm⟩
      rw [List.forall₂_nil_left_iff.mp hzs] at hperm
      exact List.isEmpty_iff.mpr hperm.symm.eq_nil
  | cons x xs ih =>
      rintro ⟨_, hmatched, hperm⟩
      rcases List.forall₂_cons_left_iff.mp hmatched with ⟨z, zs, hz, hzs, rfl⟩
      have hzmem : z ∈ ys := hperm.subset List.mem_cons_self
      rcases exists_takeFirst? hzmem hz with ⟨rest, hrest⟩
      rcases takeFirst?_eq_some hrest with ⟨y, hy, hyperm⟩
      have hymem : y ∈ ys := hyperm.subset List.mem_cons_self
      -- The matching gives `x` some `z`, and the procedure a `y` that comes before it.
      have hothers : ∃ zs', List.Forall₂ (fun x y => test x y) xs zs' ∧
          (y :: zs').Perm (z :: zs) := by
        rcases List.mem_cons.mp ((hyperm.trans hperm.symm).subset List.mem_cons_self) with rfl | hin
        · exact ⟨zs, hzs, .refl _⟩
        · exact replace_partner hzs hin fun x' hx' hx'y =>
            h x List.mem_cons_self x' (List.mem_cons_of_mem _ hx') y hymem z hzmem hy hz hx'y
      rcases hothers with ⟨zs', hzs', hperm'⟩
      rw [pairOffBy, hrest]
      refine ih (h.tail fun w hw => hyperm.subset (List.mem_cons_of_mem _ hw)) ⟨zs', hzs', ?_⟩
      exact (hperm'.trans (hperm.trans hyperm.symm)).cons_inv

/-! ## Symmetry and transitivity at an item -/

/-- A relation that is symmetric and transitive at an item. -/
structure PartialEquivalenceAt (R : α → α → Prop) (x : α) : Prop where
  symm : ∀ y, R x y ↔ R y x
  trans : ∀ y z, R x y → R y z → R x z

namespace PartialEquivalenceAt

variable {R : α → α → Prop} {S : β → β → Prop} {xs : List α}

/-- What is related to anything is related to itself. -/
theorem self_of {x y : α} (h : PartialEquivalenceAt R x) (hxy : R x y) : R x x :=
  h.trans y x hxy ((h.symm y).mp hxy)

theorem pair {p : α × β} (hfst : PartialEquivalenceAt R p.1) (hsnd : PartialEquivalenceAt S p.2) :
    PartialEquivalenceAt (fun p q => R p.1 q.1 ∧ S p.2 q.2) p where
  symm q := and_congr (hfst.symm q.1) (hsnd.symm q.2)
  trans q r hpq hqr := ⟨hfst.trans q.1 r.1 hpq.1 hqr.1, hsnd.trans q.2 r.2 hpq.2 hqr.2⟩

theorem forall₂ (h : ∀ x ∈ xs, PartialEquivalenceAt R x) :
    PartialEquivalenceAt (List.Forall₂ R) xs := by
  induction xs with
  | nil =>
      refine ⟨fun ys => ?_, fun ys zs hys hzs => ?_⟩
      · rw [List.forall₂_nil_left_iff, List.forall₂_nil_right_iff]
      · rw [List.forall₂_nil_left_iff.mp hys] at hzs
        exact hzs
  | cons x xs ih =>
      rw [List.forall_mem_cons] at h
      have ih := ih h.2
      refine ⟨fun ys => ?_, fun ys zs hys hzs => ?_⟩
      · cases ys with
        | nil => exact iff_of_false (fun h => by cases h) fun h => by cases h
        | cons y ys =>
            rw [List.forall₂_cons, List.forall₂_cons, h.1.symm y, ih.symm ys]
      · rcases List.forall₂_cons_left_iff.mp hys with ⟨y, ys, hy, hrest, rfl⟩
        rcases List.forall₂_cons_left_iff.mp hzs with ⟨z, zs, hz, hothers, rfl⟩
        exact .cons (h.1.trans y z hy hz) (ih.trans ys zs hrest hothers)

theorem matching (h : ∀ x ∈ xs, PartialEquivalenceAt R x) :
    PartialEquivalenceAt (Matching R) xs := by
  refine ⟨fun ys => ⟨?_, ?_⟩, ?_⟩
  · rintro ⟨zs, hzs, hperm⟩
    exact List.perm_comp_forall₂ hperm.symm (((forall₂ h).symm zs).mp hzs)
  · rintro ⟨ws, hws, hperm⟩
    -- The partners of `ys` are the items of `xs`, so the laws hold of them.
    have hback := ((forall₂ fun w hw => h w (hperm.subset hw)).symm ys).mpr hws
    exact List.perm_comp_forall₂ hperm.symm hback
  · rintro ys zs ⟨us, hus, hperm⟩ ⟨vs, hvs, hperm'⟩
    rcases List.perm_comp_forall₂ hperm hvs with ⟨ws, hws, hperm''⟩
    exact ⟨ws, (forall₂ h).trans us ws hus hws, hperm''.trans hperm'⟩

theorem interchangeable_left (h : ∀ x ∈ xs, PartialEquivalenceAt R x) (ys : List α) :
    Interchangeable R xs ys := by
  intro x hx x' hx' y _ y' _ hxy hxy' hx'y
  have hyx := ((h x hx).symm y).mp hxy
  exact (h x' hx').trans x y' ((h x' hx').trans y x hx'y hyx) hxy'

theorem interchangeable_right (h : ∀ x ∈ xs, PartialEquivalenceAt R x) (ys : List α) :
    Interchangeable R ys xs := by
  intro y _ y' _ x hx x' hx' hyx hyx' hy'x
  rw [← (h x' hx').symm] at hyx' ⊢
  rw [← (h x hx).symm] at hy'x
  exact (h x' hx').trans x y' ((h x' hx').trans y x hyx' hyx) hy'x

variable {test : α → α → Bool}

/-- Pairing off finds the matchings of items that obey the laws. -/
theorem pairOffBy_iff (h : ∀ x ∈ xs, PartialEquivalenceAt (fun x y => test x y) x)
    (ys : List α) : pairOffBy test xs ys ↔ Matching (fun x y => test x y) xs ys :=
  pairOffBy_iff_matching (interchangeable_left h ys)

theorem pairOffBy (h : ∀ x ∈ xs, PartialEquivalenceAt (fun x y => test x y) x) :
    PartialEquivalenceAt (fun xs ys => Switchboard.pairOffBy test xs ys) xs where
  symm ys := by
    rw [pairOffBy_iff h, (matching h).symm, pairOffBy_iff_matching (interchangeable_right h ys)]
  trans ys zs hys hzs := by
    rw [pairOffBy_iff h] at hys ⊢
    exact (matching h).trans ys zs hys (matching_of_pairOffBy hzs)

end PartialEquivalenceAt

/-! ## What matches itself -/

/-- A list matches itself if each of its items is related to itself. -/
theorem matching_self_iff {R : α → α → Prop} {xs : List α}
    (h : ∀ x ∈ xs, PartialEquivalenceAt R x) : Matching R xs xs ↔ ∀ x ∈ xs, R x x := by
  constructor
  · rintro ⟨zs, hzs, -⟩
    -- A list that is related to anything item by item is related to itself.
    exact List.forall₂_same.mp ((PartialEquivalenceAt.forall₂ h).self_of hzs)
  · exact fun hself => ⟨xs, List.forall₂_same.mpr hself, .refl xs⟩

end Switchboard
