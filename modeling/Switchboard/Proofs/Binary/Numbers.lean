import Mathlib.Algebra.Field.Rat
import Mathlib.Algebra.Order.Ring.Rat
import Mathlib.Data.Int.Cast.Lemmas
import Switchboard.Binary.Basic

/-!
# The Numbers Behind Patterns

Comparing two patterns is comparing the numbers they denote. The comparison never
computes them: it looks for equal patterns, and for the two zeros. That this is
enough is a property of the format, in which a number other than zero has one
pattern and no more.

Every finite number of a format is a multiple of the least positive one, so up to
the sign a pattern denotes a whole number of units. `BinaryFormat.units` is that
number, and it grows with the pattern: with the exponent field, because the
leading bit that a pattern above the subnormals does not store outweighs any
fraction, and under one exponent field with the fraction.

No number at all denotes nothing, so it is not the same as anything. Everything
else that is said about sameness here follows from its being the equality of what
is denoted.

## Main definitions

* `Number`, `Magnitude.number?`: Infinities and rationals, and what is denoted.
* `BinaryFormat.units`: How many times the least positive number.

## Theorems

* `units_injective`: Patterns below infinity denote different numbers.
* `same_iff`: Patterns are the same if they denote the same number.
* `Binary32.same_iff`, `Binary64.same_iff`: So are the numbers of the two types.
-/

namespace Switchboard

/-- What can be denoted: an infinity of either sign, or a rational. -/
inductive Number where
  | infinite (negative : Bool)
  | rational (q : ℚ)

/-- A whole number with a sign. -/
def signed (negative : Bool) (magnitude : Nat) : Int :=
  if negative then -magnitude else magnitude

/-- The number that is denoted, if one is. -/
def Magnitude.number? : Magnitude → Option Number
  | .nan => none
  | .infinite negative => some (.infinite negative)
  | .finite negative significand exponent =>
    some (.rational (signed negative significand * 2 ^ exponent))

theorem Magnitude.exists_number?_iff {m : Magnitude} : (∃ n, m.number? = some n) ↔ m ≠ .nan := by
  cases m with
  | nan => exact iff_of_false (fun ⟨_, h⟩ => by cases h) fun h => h rfl
  | infinite negative => exact iff_of_true ⟨_, rfl⟩ fun h => by cases h
  | finite negative significand exponent => exact iff_of_true ⟨_, rfl⟩ fun h => by cases h

namespace BinaryFormat

variable (f : BinaryFormat)

theorem twoPow_pos (n : Nat) : 0 < twoPow n := Nat.pow_pos (by decide)

theorem twoPow_add (m n : Nat) : twoPow (m + n) = twoPow m * twoPow n := Nat.pow_add 2 m n

theorem twoPow_le {m n : Nat} (h : m ≤ n) : twoPow m ≤ twoPow n :=
  Nat.pow_le_pow_right (by decide) h

/-! ## Units -/

/-- The exponent field of a pattern without its sign. -/
def exponentField (magnitude : Nat) : Nat := magnitude / twoPow f.fractionBits

/-- The significand of a pattern without its sign. Above the subnormals it has a
    leading bit that is not stored. -/
def significand (magnitude : Nat) : Nat :=
  if f.exponentField magnitude = 0 then magnitude % twoPow f.fractionBits
  else twoPow f.fractionBits + magnitude % twoPow f.fractionBits

/-- How many times the least positive number a pattern without its sign denotes. -/
def units (magnitude : Nat) : Nat :=
  f.significand magnitude * twoPow (f.exponentField magnitude - 1)

variable {f}

/-- A greater exponent field outweighs any fraction. -/
theorem units_lt_of_exponentField_lt {m m' : Nat} (h : f.exponentField m < f.exponentField m') :
    f.units m < f.units m' := by
  have hpos := twoPow_pos f.fractionBits
  have hfraction := Nat.mod_lt m hpos
  -- Below the leading bit of the greater one, whatever its fraction.
  have hgreater : twoPow f.fractionBits * twoPow (f.exponentField m' - 1) ≤ f.units m' := by
    rw [units, significand, if_neg (by omega)]
    exact Nat.mul_le_mul_right _ (Nat.le_add_right _ _)
  refine Nat.lt_of_lt_of_le ?_ hgreater
  rw [units, significand]
  by_cases hzero : f.exponentField m = 0
  · rw [if_pos hzero, hzero]
    exact Nat.mul_lt_mul_of_lt_of_le hfraction (twoPow_le (Nat.zero_le _)) (twoPow_pos _)
  · rw [if_neg hzero]
    calc (twoPow f.fractionBits + m % twoPow f.fractionBits) * twoPow (f.exponentField m - 1)
        < 2 * twoPow f.fractionBits * twoPow (f.exponentField m - 1) :=
          Nat.mul_lt_mul_of_pos_right (by omega) (twoPow_pos _)
      _ = twoPow f.fractionBits * twoPow (1 + (f.exponentField m - 1)) := by
          rw [twoPow_add, Nat.mul_comm 2, Nat.mul_assoc]
          rfl
      _ ≤ twoPow f.fractionBits * twoPow (f.exponentField m' - 1) :=
          Nat.mul_le_mul_left _ (twoPow_le (by omega))

/-- Patterns without their sign denote different numbers. -/
theorem units_injective {m m' : Nat} (h : f.units m = f.units m') : m = m' := by
  have hfield : f.exponentField m = f.exponentField m' := by
    rcases Nat.lt_trichotomy (f.exponentField m) (f.exponentField m') with hlt | heq | hlt
    · exact absurd h (Nat.ne_of_lt (units_lt_of_exponentField_lt hlt))
    · exact heq
    · exact absurd h.symm (Nat.ne_of_lt (units_lt_of_exponentField_lt hlt))
  rw [units, units, hfield] at h
  have hsignificand := Nat.eq_of_mul_eq_mul_right (twoPow_pos _) h
  have hfraction : m % twoPow f.fractionBits = m' % twoPow f.fractionBits := by
    rw [significand, significand, hfield] at hsignificand
    split at hsignificand
    · exact hsignificand
    · exact Nat.add_left_cancel hsignificand
  rw [exponentField, exponentField] at hfield
  rw [← Nat.div_add_mod m (twoPow f.fractionBits), hfield, hfraction, Nat.div_add_mod]

theorem units_zero : f.units 0 = 0 := by
  rw [units, significand, exponentField, Nat.zero_div, if_pos rfl, Nat.zero_mod, Nat.zero_mul]

/-! ## Denoting -/

/-- The number of so many units. -/
def ofUnits (f : BinaryFormat) (negative : Bool) (units : Nat) : Number :=
  .rational (signed negative units * 2 ^ f.leastExponent)

theorem number?_finite (negative : Bool) (m : Nat) :
    (Magnitude.finite negative (f.significand m)
      (f.leastExponent + (f.exponentField m - 1 : Nat))).number? =
      some (f.ofUnits negative (f.units m)) := by
  have hsigned : signed negative (f.units m) =
      signed negative (f.significand m) * twoPow (f.exponentField m - 1) := by
    cases negative with
    | false => exact Int.natCast_mul _ _
    | true => exact (congrArg Neg.neg (Int.natCast_mul _ _)).trans (Int.neg_mul _ _).symm
  have hpower : ((twoPow (f.exponentField m - 1) : Nat) : ℚ) = 2 ^ (f.exponentField m - 1) := by
    exact_mod_cast rfl
  rw [Magnitude.number?, ofUnits, hsigned, Int.cast_mul, Int.cast_natCast, hpower, add_comm,
    zpow_add₀ two_ne_zero, zpow_natCast, mul_assoc]

/-- What a pattern denotes, by its place below, at or above infinity. -/
theorem number?_read (p : Nat) :
    (f.read p).number? =
      if f.infinity < p % f.signBit then none
      else if p % f.signBit = f.infinity then some (.infinite (p / f.signBit % 2 == 1))
      else some (f.ofUnits (p / f.signBit % 2 == 1) (f.units (p % f.signBit))) := by
  rw [read]
  simp only
  split
  · rfl
  · split
    · rfl
    · rw [← number?_finite, significand]
      split
      · next h =>
          rw [if_pos (by exact h), exponentField, h]
          simp only [Nat.zero_sub, Nat.cast_zero, add_zero]
      · next h => rw [if_neg (by exact h), exponentField]

/-- A number of units tells its sign, unless it is zero. -/
theorem ofUnits_inj {a b : Bool} {m n : Nat} :
    f.ofUnits a m = f.ofUnits b n ↔ m = n ∧ (a = b ∨ m = 0) := by
  have hpower : (2 : ℚ) ^ f.leastExponent ≠ 0 := zpow_ne_zero _ two_ne_zero
  rw [ofUnits, ofUnits, Number.rational.injEq, mul_left_inj' hpower, Int.cast_inj]
  cases a <;> cases b <;> simp only [signed, Bool.false_eq_true, if_false, if_true, reduceCtorEq,
    false_or, true_or, and_true] <;> omega

/-! ## Sameness -/

/-- A pattern is its sign and the rest. -/
theorem eq_of_sign_eq {p q : Nat} (hp : p < 2 * f.signBit) (hq : q < 2 * f.signBit)
    (hsign : (p / f.signBit % 2 == 1) = (q / f.signBit % 2 == 1))
    (hrest : p % f.signBit = q % f.signBit) : p = q := by
  have hpsign : p / f.signBit < 2 := Nat.div_lt_of_lt_mul (by rwa [Nat.mul_comm])
  have hqsign : q / f.signBit < 2 := Nat.div_lt_of_lt_mul (by rwa [Nat.mul_comm])
  rw [Bool.eq_iff_iff, beq_iff_eq, beq_iff_eq, Nat.mod_eq_of_lt hpsign, Nat.mod_eq_of_lt hqsign]
    at hsign
  have hdiv : p / f.signBit = q / f.signBit := by
    generalize p / f.signBit = a at *
    generalize q / f.signBit = b at *
    omega
  rw [← Nat.div_add_mod p f.signBit, hdiv, hrest, Nat.div_add_mod]

theorem exists_number?_read {p : Nat} (h : ¬f.infinity < p % f.signBit) :
    ∃ n, (f.read p).number? = some n := by
  rw [number?_read, if_neg h]
  split <;> exact ⟨_, rfl⟩

/-- Patterns are the same if they denote the same number. -/
theorem same_iff (hinfinity : 0 < f.infinity) {p q : Nat} (hp : p < 2 * f.signBit)
    (hq : q < 2 * f.signBit) :
    f.same p q ↔ ∃ n, (f.read p).number? = some n ∧ (f.read q).number? = some n := by
  have hsame : f.same p q ↔ ¬f.infinity < p % f.signBit ∧ ¬f.infinity < q % f.signBit ∧
      (p = q ∨ p % f.signBit = 0 ∧ q % f.signBit = 0) := by
    simp only [same, isNaN, Bool.and_eq_true, Bool.not_eq_true', decide_eq_false_iff_not,
      Bool.or_eq_true, beq_iff_eq, and_assoc]
  rw [hsame]
  constructor
  · rintro ⟨hpnumber, hqnumber, rfl | ⟨hpzero, hqzero⟩⟩
    · rcases exists_number?_read hpnumber with ⟨n, hn⟩
      exact ⟨n, hn, hn⟩
    · have hzero : ∀ {r : Nat}, r % f.signBit = 0 →
          (f.read r).number? = some (f.ofUnits false 0) := by
        intro r hr
        rw [number?_read, hr, if_neg (Nat.not_lt_zero _), if_neg (Nat.ne_of_lt hinfinity),
          units_zero, ofUnits_inj.mpr ⟨rfl, .inr rfl⟩]
      exact ⟨_, hzero hpzero, hzero hqzero⟩
  · rintro ⟨n, hpn, hqn⟩
    rw [number?_read] at hpn hqn
    -- Of either pattern there are three kinds, and what is no number denotes nothing.
    split at hpn
    · cases hpn
    · next hpnumber =>
        split at hqn
        · cases hqn
        · next hqnumber =>
            refine ⟨hpnumber, hqnumber, ?_⟩
            split at hpn <;> split at hqn
            · next hpinf hqinf =>
                rw [← hqn, Option.some.injEq, Number.infinite.injEq] at hpn
                exact .inl (eq_of_sign_eq hp hq hpn (hpinf.trans hqinf.symm))
            · exact nomatch hpn.trans hqn.symm
            · exact nomatch hpn.trans hqn.symm
            · rw [← hqn, Option.some.injEq, ofUnits_inj] at hpn
              rcases hpn with ⟨hunits, hsign | hzero⟩
              · exact .inl (eq_of_sign_eq hp hq hsign (units_injective hunits))
              · have hpzero := units_injective (hzero.trans units_zero.symm)
                exact .inr ⟨hpzero, (units_injective hunits).symm.trans hpzero⟩

end BinaryFormat

/-- Single-precision numbers are the same if they denote the same number. -/
theorem Binary32.same_iff {x y : Binary32} :
    x.same y ↔ ∃ n, x.magnitude.number? = some n ∧ y.magnitude.number? = some n :=
  BinaryFormat.same_iff (by decide) x.bits.toNat_lt y.bits.toNat_lt

/-- Double-precision numbers are the same if they denote the same number. -/
theorem Binary64.same_iff {x y : Binary64} :
    x.same y ↔ ∃ n, x.magnitude.number? = some n ∧ y.magnitude.number? = some n :=
  BinaryFormat.same_iff (by decide) x.bits.toNat_lt y.bits.toNat_lt

end Switchboard
