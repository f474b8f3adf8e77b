import Switchboard.Datum.Basic

/-!
# Equality of Values

When clients consider two values equal. Lists and tuples compare item by item;
sets and maps compare by contents, so the order of their items does not count
but their number does; floating-point numbers compare as numbers, so the two
zeros are equal and not-a-number is unequal even to itself.

Contents are compared without sorting, since values have no order: each item
of one side in turn takes the first item of the other that equals it and has
not been taken, and both sides must come out even. Taking the first is no
loss. Items equal to a common item are equal to each other as far as being
taken goes, so no later item is left without a partner that a cleverer choice
would have kept for it.

## Main definitions

* `Datum.equal`: Equality of values.
* `takeFirst?`: A list without the first item that passes a test.
-/

namespace Switchboard

/-- The list without the first item that passes the test, or `none` if no item
    does. -/
def takeFirst? {α : Type} (test : α → Bool) : List α → Option (List α)
  | [] => none
  | x :: xs => if test x then some xs else (takeFirst? test xs).map (x :: ·)

namespace Datum

variable {ρ : Type} [BEq ρ]

mutual

/-- Whether two values are equal to a client. -/
def equal : Datum ρ → Datum ρ → Bool
  | .null, .null => true
  | .bool a, .bool b => a == b
  | .int32 a, .int32 b => a == b
  | .int64 a, .int64 b => a == b
  | .float32 a, .float32 b => a.same b
  | .float64 a, .float64 b => a.same b
  | .string a, .string b => a == b
  | .bytes a, .bytes b => a == b
  | .list a, .list b => equalPairwise a b
  | .tuple a, .tuple b => equalPairwise a b
  | .set a, .set b => pairOff a b
  | .map a, .map b => pairOffEntries a b
  | .enum a, .enum b => a == b
  | .object a, .object b => a == b
  | _, _ => false

/-- Whether two lists are equal item by item. -/
def equalPairwise : List (Datum ρ) → List (Datum ρ) → Bool
  | [], [] => true
  | x :: xs, y :: ys => equal x y && equalPairwise xs ys
  | _, _ => false

/-- Whether each item of the first list takes an equal item of the second
    until nothing is left of either. -/
def pairOff : List (Datum ρ) → List (Datum ρ) → Bool
  | [], ys => ys.isEmpty
  | x :: xs, ys =>
    match takeFirst? (equal x) ys with
    | some rest => pairOff xs rest
    | none => false

/-- Whether each entry of the first map takes an entry of the second with an
    equal key and an equal value until nothing is left of either. -/
def pairOffEntries : List (Datum ρ × Datum ρ) → List (Datum ρ × Datum ρ) → Bool
  | [], ys => ys.isEmpty
  | (k, v) :: xs, ys =>
    match takeFirst? (fun e => equal k e.1 && equal v e.2) ys with
    | some rest => pairOffEntries xs rest
    | none => false

end

instance : BEq (Datum ρ) := ⟨equal⟩

end Datum

end Switchboard
