import Mathlib.Data.List.FinRange
import Mathlib.Logic.Equiv.Fin.Basic
import Switchboard.Proofs.Datum.Equality

/-!
# Equality of Contents

What it means for two sets, or two maps, to be equal, without saying how it is found
out. Two sets are equal if there is a bijection between their positions under which
items at corresponding positions are equal, and two maps likewise with their entries.

The comparison gives each item of one side the first partner that is left and never
goes back on it. By the laws of equality it finds a matching if there is one
(`PartialEquivalenceAt.pairOffBy_iff`), and a matching is a bijection of positions
(`matching_iff_equiv`). The laws hold at every depth, so nothing more is needed of the
items than that they are values.

Two things follow about what clients can rely on. The order of the items of a set and
of the entries of a map makes no difference wherever in a value the set or the map
stands. `Reordered` is the least relation that allows for this: reordering one set or
one map, and carrying that into whatever the set or map is a part of. It is enough to
know that a value compares with all others as it did before (`Reordered.equal_eq`),
because how a value compares depends only on how its parts do. And equal sets have as
many items equal to a given value as each other, so an item that is there twice counts
twice.

## Main definitions

* `Datum.Reordered`: Reordering sets and maps anywhere in a value.

## Theorems

* `matching_iff_equiv`: A matching is a bijection of positions.
* `Matching.countP_eq`: What matches is counted alike.
* `Reordered.equal_eq`: A reordered value compares as it did.
* `equal_contents`: All of this for the values of clients.
-/

namespace Switchboard

variable {α β : Type}

/-! ## Matchings and positions -/

/-- Two lists match if there is a bijection between their positions that relates what
    is at them. -/
theorem matching_iff_equiv {R : α → β → Prop} {xs : List α} {ys : List β} :
    Matching R xs ys ↔
      ∃ σ : Fin xs.length ≃ Fin ys.length, ∀ i, R (xs.get i) (ys.get (σ i)) := by
  classical
  constructor
  · rintro ⟨zs, hzs, hperm⟩
    rcases List.forall₂_iff_get.mp hzs with ⟨hlength, hrelated⟩
    -- The partners stand where the items do, and are then put in order.
    let inOrder : Fin zs.length ≃ Fin ys.length :=
      ⟨hperm.idxBij, hperm.symm.idxBij, fun _ => hperm.idxBij_symm_idxBij,
        fun _ => hperm.idxBij_idxBij_symm⟩
    refine ⟨(finCongr hlength).trans inOrder, fun i => ?_⟩
    have hplace : ys.get (inOrder (finCongr hlength i)) = zs.get (finCongr hlength i) :=
      hperm.getElem_idxBij_eq_getElem _
    rw [Equiv.trans_apply, hplace]
    exact hrelated i i.isLt (hlength ▸ i.isLt)
  · rintro ⟨σ, hrelated⟩
    refine ⟨List.ofFn fun i => ys.get (σ i), ?_, ?_⟩
    · refine List.forall₂_iff_get.mpr ⟨List.length_ofFn.symm, fun i hi _ => ?_⟩
      rw [List.get_ofFn]
      exact hrelated ⟨i, hi⟩
    · -- The positions that are taken are all positions, in some order.
      have hpositions : ((List.finRange xs.length).map σ).Perm (List.finRange ys.length) := by
        rw [List.perm_ext_iff_of_nodup ((List.nodup_finRange _).map σ.injective)
          (List.nodup_finRange _)]
        intro j
        simp only [List.mem_map, List.mem_finRange, true_and, iff_true]
        exact σ.surjective j
      have hitems := hpositions.map ys.get
      rw [List.map_map, List.map_get_finRange] at hitems
      rw [List.ofFn_eq_map]
      exact hitems

/-- The first of two lists that match may be put in another order. -/
theorem Matching.perm_left {R : α → β → Prop} {xs xs' : List α} {ys : List β}
    (hperm : xs.Perm xs') : Matching R xs ys ↔ Matching R xs' ys := by
  have hmove : ∀ {xs xs' : List α}, xs.Perm xs' → Matching R xs ys → Matching R xs' ys := by
    rintro xs xs' hperm ⟨zs, hzs, hzsperm⟩
    rcases List.perm_comp_forall₂ hperm.symm hzs with ⟨ws, hws, hwsperm⟩
    exact ⟨ws, hws, hwsperm.trans hzsperm⟩
  exact ⟨hmove hperm, hmove hperm.symm⟩

/-- What matches is counted alike by tests that related items pass or fail together. -/
theorem Matching.countP_eq {R : α → β → Prop} {xs : List α} {ys : List β}
    (h : Matching R xs ys) {p : α → Bool} {q : β → Bool} (htests : ∀ x y, R x y → p x = q y) :
    xs.countP p = ys.countP q := by
  have hpartners : ∀ {xs : List α} {zs : List β}, List.Forall₂ R xs zs →
      xs.countP p = zs.countP q := by
    intro xs zs hzs
    induction hzs with
    | nil => rfl
    | cons hfirst _ ih => rw [List.countP_cons, List.countP_cons, ih, htests _ _ hfirst]
  rcases h with ⟨zs, hzs, hperm⟩
  rw [hpartners hzs, hperm.countP_eq]

/-! ## Pairing off something that compares alike -/

/-- An item may be replaced by one that passes the same tests. -/
theorem pairOffBy_replace {test : α → β → Bool} {x x' : α} (h : test x = test x')
    (before after : List α) :
    pairOffBy test (before ++ x :: after) = pairOffBy test (before ++ x' :: after) := by
  funext ys
  induction before generalizing ys with
  | nil => rw [List.nil_append, List.nil_append, pairOffBy, pairOffBy, h]
  | cons y before ih =>
      rw [List.cons_append, List.cons_append, pairOffBy, pairOffBy]
      cases takeFirst? (test y) ys with
      | none => rfl
      | some rest => exact ih rest

/-- The items may be put in another order, if the test obeys the laws. -/
theorem PartialEquivalenceAt.pairOffBy_perm {test : α → α → Bool}
    (h : ∀ x, PartialEquivalenceAt (fun x y => test x y) x) {xs xs' : List α}
    (hperm : xs.Perm xs') : Switchboard.pairOffBy test xs = Switchboard.pairOffBy test xs' := by
  funext ys
  rw [Bool.eq_iff_iff, pairOffBy_iff fun x _ => h x, pairOffBy_iff fun x _ => h x,
    Matching.perm_left hperm]

namespace Datum

variable {ρ : Type}

/-- The second value is the first with the items of sets and the entries of maps in it
    in another order. -/
inductive Reordered : Datum ρ → Datum ρ → Prop
  | refl (v : Datum ρ) : Reordered v v
  | trans {u v w : Datum ρ} : Reordered u v → Reordered v w → Reordered u w
  | set {items items' : List (Datum ρ)} : items.Perm items' → Reordered (.set items) (.set items')
  | map {entries entries' : List (Datum ρ × Datum ρ)} :
    entries.Perm entries' → Reordered (.map entries) (.map entries')
  /-- It happens to an item of a list. -/
  | inList {v w : Datum ρ} (before after : List (Datum ρ)) :
    Reordered v w → Reordered (.list (before ++ v :: after)) (.list (before ++ w :: after))
  | inTuple {v w : Datum ρ} (before after : List (Datum ρ)) :
    Reordered v w → Reordered (.tuple (before ++ v :: after)) (.tuple (before ++ w :: after))
  | inSet {v w : Datum ρ} (before after : List (Datum ρ)) :
    Reordered v w → Reordered (.set (before ++ v :: after)) (.set (before ++ w :: after))
  | inKey {v w : Datum ρ} (before after : List (Datum ρ × Datum ρ)) (value : Datum ρ) :
    Reordered v w →
    Reordered (.map (before ++ (v, value) :: after)) (.map (before ++ (w, value) :: after))
  | inValue {v w : Datum ρ} (before after : List (Datum ρ × Datum ρ)) (key : Datum ρ) :
    Reordered v w →
    Reordered (.map (before ++ (key, v) :: after)) (.map (before ++ (key, w) :: after))

variable [BEq ρ]

/-! ## How a value compares -/

theorem equalPairwise_replace {v w : Datum ρ} (h : v.equal = w.equal)
    (before after : List (Datum ρ)) :
    equalPairwise (before ++ v :: after) = equalPairwise (before ++ w :: after) := by
  funext ys
  induction before generalizing ys with
  | nil =>
      cases ys with
      | nil => simp only [List.nil_append, equalPairwise]
      | cons y ys => simp only [List.nil_append, equalPairwise, h]
  | cons x before ih =>
      cases ys with
      | nil => simp only [List.cons_append, equalPairwise]
      | cons y ys => simp only [List.cons_append, equalPairwise, ih]

theorem equalEntries_congr {k k' v v' : Datum ρ} (hk : k.equal = k'.equal)
    (hv : v.equal = v'.equal) : equalEntries (k, v) = equalEntries (k', v') := by
  funext entry
  rw [equalEntries, equalEntries, hk, hv]

variable [LawfulBEq ρ]

/-- A value in which sets and maps are reordered compares with all values as before. -/
theorem Reordered.equal_eq {v w : Datum ρ} (h : v.Reordered w) : v.equal = w.equal := by
  -- Whatever the reordered part is a part of looks at it only by comparing it.
  induction h with
  | refl v => rfl
  | trans _ _ ih ih' => exact ih.trans ih'
  | set hperm =>
      exact shape_set.equal_congr (PartialEquivalenceAt.pairOffBy_perm partialEquivalenceAt hperm)
  | map hperm =>
      exact shape_map.equal_congr
        (PartialEquivalenceAt.pairOffBy_perm partialEquivalenceAt_entry hperm)
  | inList before after _ ih =>
      exact shape_list.equal_congr (equalPairwise_replace ih before after)
  | inTuple before after _ ih =>
      exact shape_tuple.equal_congr (equalPairwise_replace ih before after)
  | inSet before after _ ih => exact shape_set.equal_congr (pairOffBy_replace ih before after)
  | inKey before after value _ ih =>
      exact shape_map.equal_congr (pairOffBy_replace (equalEntries_congr ih rfl) before after)
  | inValue before after key _ ih =>
      exact shape_map.equal_congr (pairOffBy_replace (equalEntries_congr rfl ih) before after)

/-- Both sides may be reordered. -/
theorem equal_reordered {v v' w w' : Datum ρ} (hv : v.Reordered v') (hw : w.Reordered w') :
    v.equal w = v'.equal w' := by
  rw [hv.equal_eq, Bool.eq_iff_iff, (partialEquivalenceAt v').symm w, hw.equal_eq,
    ← (partialEquivalenceAt v').symm w']

/-! ## Sets and maps -/

/-- Sets and maps are compared by contents. Two sets are equal if there is a bijection
    between their positions under which the items are equal, and two maps are equal if
    there is one under which the entries have equal keys and equal values. So it makes
    no difference in which order a set or a map is given, on either side and wherever in
    a value it stands, and it does make a difference how often an item or an entry is
    there. -/
theorem equal_contents :
    (∀ a b : List Value, (Datum.set a : Value).equal (.set b) ↔
      ∃ σ : Fin a.length ≃ Fin b.length, ∀ i, (a.get i).equal (b.get (σ i))) ∧
    (∀ a b : List (Value × Value), (Datum.map a : Value).equal (.map b) ↔
      ∃ σ : Fin a.length ≃ Fin b.length, ∀ i,
        (a.get i).1.equal (b.get (σ i)).1 ∧ (a.get i).2.equal (b.get (σ i)).2) ∧
    (∀ v v' w w' : Value, v.Reordered v' → w.Reordered w' → v.equal w = v'.equal w') ∧
    (∀ a b : List Value, (Datum.set a : Value).equal (.set b) →
      ∀ v : Value, a.countP v.equal = b.countP v.equal) ∧
    ∀ a b : List (Value × Value), (Datum.map a : Value).equal (.map b) →
      ∀ k v : Value, (a.countP fun e => k.equal e.1 && v.equal e.2) =
        b.countP fun e => k.equal e.1 && v.equal e.2 := by
  refine ⟨fun a b => ?_, fun a b => ?_, fun v v' w w' => equal_reordered, fun a b h v => ?_,
    fun a b h k v => ?_⟩
  · rw [equal_set_iff_matching, matching_iff_equiv]
  · rw [equal_map_iff_matching, matching_iff_equiv]
  · exact ((equal_set_iff_matching a b).mp h).countP_eq fun x y hxy => equal_right_eq hxy v
  · refine ((equal_map_iff_matching a b).mp h).countP_eq fun e f hef => ?_
    rw [equal_right_eq hef.1 k, equal_right_eq hef.2 v]

/-- A set is reordered inside a list, and an item that is there twice counts twice. -/
theorem nestedSet_reordered :
    (Datum.list [.set [.int32 1, .int32 2]] : Value).equal (.list [.set [.int32 1, .int32 2]]) =
      (Datum.list [.set [.int32 2, .int32 1]] : Value).equal
        (.list [.set [.int32 1, .int32 2]]) ∧
    [(.int32 1 : Value), .int32 1, .int32 2].countP (Datum.int32 1).equal =
      [(.int32 2 : Value), .int32 1, .int32 1].countP (Datum.int32 1).equal ∧
    [((.int32 1, .null) : Value × Value), (.int32 2, .null)].countP (fun e =>
        (Datum.int32 2).equal e.1 && (Datum.null : Value).equal e.2) =
      [((.int32 2, .null) : Value × Value), (.int32 1, .null)].countP fun e =>
        (Datum.int32 2).equal e.1 && (Datum.null : Value).equal e.2 := by
  rcases equal_contents with ⟨-, -, hreordered, hset, hmap⟩
  exact ⟨hreordered _ _ _ _ (.inList [] [] (.set (.swap _ _ _))) (.refl _),
    hset _ _ (by decide +kernel) _, hmap _ _ (by decide +kernel) _ _⟩

end Datum

end Switchboard
