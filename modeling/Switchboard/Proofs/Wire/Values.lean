import Switchboard.Proofs.Wire.Records
import Switchboard.Wire.Serial.Values

/-!
# Trees of Types and Values

Descriptors and values lead back from their trees. Both are read by recursion
on the tree, with less nesting the further in, so the proofs are by recursion
on the descriptor or the value, with any nesting that has room for its levels.

A value can be had back only if the numbers of its objects have at most 64
bits; all other numbers in a value have bounds of their own.

## Main definitions

* `Ty.levels`, `Value.levels`: How deep descriptors and values are nested.

## Theorems

* `Ty.ofNode?_node`, `Value.ofNode?_node`: Their trees lead back.
* `Value.int32?_ofInt`, `Value.int64?_ofInt`, `Value.objectId?_natural`: The
  numbers in values.
-/

namespace Switchboard

open Wire

namespace Ty

mutual

/-- The levels of a descriptor. The items of a tuple and the two parts of a map
    lie in an array, the name of a class or an enumeration in a record. -/
def levels (counted : Bool) : Ty → Nat
  | .list element => choiceLevels counted (element.levels counted)
  | .set element => choiceLevels counted (element.levels counted)
  | .optional inner => choiceLevels counted (inner.levels counted)
  | .map key value => choiceLevels counted (max (key.levels counted) (value.levels counted) + 1)
  | .tuple elements => choiceLevels counted (levelsOfAll counted elements + 1)
  | .enumeration _ _ => choiceLevels counted 1
  | .instanceOf _ _ => choiceLevels counted 1
  | _ => 0

/-- The levels of the deepest of several descriptors. -/
def levelsOfAll (counted : Bool) : List Ty → Nat
  | [] => 0
  | t :: ts => max (t.levels counted) (levelsOfAll counted ts)

end

instance : Layered Ty := ⟨levels⟩

theorem readName?_nameNode {d : Nesting} (h : 1 ≤ d.room) (service name : String) :
    readName? d (nameNode service name) = some (service, name) := by
  rw [readName?, nameNode, fields?_record ["service", "name"] h rfl (by decide) (by decide)]
  rfl

mutual

theorem ofNode?_node : ∀ (t : Ty) (d : Nesting), t.levels d.countsChoices ≤ d.room →
    ofNode? d t.node = some t
  | .bool, _, _ | .int32, _, _ | .int64, _, _ | .float32, _, _ | .float64, _, _ | .string, _, _
  | .bytes, _, _ => rfl
  | .list element, d, h | .set element, d, h | .optional element, d, h => by
      rcases Nesting.enterChoice?_eq h with ⟨henter, hroom⟩
      rw [← d.countsChoices_insideChoice] at hroom
      have ih := ofNode?_node element d.insideChoice hroom
      rw [node, choice, ofNode?, henter]
      simp only [Option.bind_eq_bind, Option.bind_some, Node.name?, Node.text?, ih, Option.pure_def]
  | .map key value, d, h => by
      rcases Nesting.enterChoice?_eq h with ⟨henter, hroom⟩
      rw [← d.countsChoices_insideChoice] at hroom
      have hdeep := Nat.max_le.mp (Nat.le_sub_of_add_le hroom)
      have ihk := ofNode?_node key d.insideChoice.inside hdeep.1
      have ihv := ofNode?_node value d.insideChoice.inside hdeep.2
      have hinside := Nesting.enter?_eq (Nat.le_trans (Nat.le_add_left 1 _) hroom)
      rw [node, choice, ofNode?, henter]
      simp only [Option.bind_eq_bind, Option.bind_some, Node.name?, Node.text?, hinside, ihk, ihv,
        Option.pure_def]
  | .tuple elements, d, h => by
      rcases Nesting.enterChoice?_eq h with ⟨henter, hroom⟩
      rw [← d.countsChoices_insideChoice] at hroom
      have ih := ofNodes?_nodes elements d.insideChoice.inside (Nat.le_sub_of_add_le hroom)
      have hinside := Nesting.enter?_eq (Nat.le_trans (Nat.le_add_left 1 _) hroom)
      rw [node, choice, ofNode?, henter]
      simp only [Option.bind_eq_bind, Option.bind_some, Node.name?, Node.text?, ofItems?, hinside,
        ih, Option.pure_def]
  | .enumeration service name, d, h | .instanceOf service name, d, h => by
      rcases Nesting.enterChoice?_eq h with ⟨henter, hroom⟩
      rw [node, choice, ofNode?, henter]
      simp only [Option.bind_eq_bind, Option.bind_some, Node.name?, Node.text?,
        readName?_nameNode hroom, Option.map_some]

theorem ofNodes?_nodes : ∀ (ts : List Ty) (d : Nesting),
    levelsOfAll d.countsChoices ts ≤ d.room → ofNodes? d (nodes ts) = some ts
  | [], _, _ => rfl
  | t :: ts, d, h => by
      rw [levelsOfAll, Nat.max_le] at h
      rw [nodes, ofNodes?, ofNode?_node t d h.1, ofNodes?_nodes ts d h.2]
      rfl

end

mutual

theorem regular_node : ∀ t : Ty, t.node.Regular
  | .bool | .int32 | .int64 | .float32 | .float64 | .string | .bytes => trivial
  | .list element | .set element | .optional element => ⟨trivial, regular_node element, trivial⟩
  | .map key value => ⟨trivial, ⟨regular_node key, regular_node value, trivial⟩, trivial⟩
  | .tuple elements => ⟨trivial, regular_nodes elements, trivial⟩
  | .enumeration _ _ | .instanceOf _ _ =>
      ⟨trivial, ⟨trivial, trivial, trivial, trivial, trivial⟩, trivial⟩

theorem regular_nodes : ∀ ts : List Ty, Node.RegularItems (nodes ts)
  | [] => trivial
  | t :: ts => ⟨regular_node t, regular_nodes ts⟩

end

instance : LawfulSerial Ty where
  ofNode?_toNode d t _ h := ofNode?_node t d h
  regular_toNode := regular_node
  toNode_ne_null t := by cases t <;> exact Node.noConfusion

end Ty

/-! ## Whole numbers -/

namespace Wire.Node

theorem whole?_ofInt (n : Int) : (ofInt n).whole? = some n := by
  cases n <;> rfl

theorem integer?_ofInt {least greatest n : Int} (h : least ≤ n ∧ n ≤ greatest) :
    (ofInt n).integer? least greatest = some n := by
  rw [integer?, whole?_ofInt]
  exact if_pos h

theorem integer?_natural {n : Nat} {greatest : Int} (h : (n : Int) ≤ greatest) :
    (natural n).integer? 0 greatest = some (n : Int) := by
  rw [integer?, whole?]
  exact if_pos ⟨Int.natCast_nonneg n, h⟩

theorem regular_ofInt {n : Int} (h : -0x8000000000000000 ≤ n) : (ofInt n).Regular := by
  cases n with
  | ofNat n => trivial
  | negSucc n => exact ⟨h, Int.negSucc_lt_zero n⟩

end Wire.Node

namespace Value

theorem int32?_ofInt (n : Int32) : int32? (.ofInt n.toInt) = some n := by
  have hbounds : -2147483648 ≤ n.toInt ∧ n.toInt ≤ 2147483647 :=
    ⟨n.le_toInt, Int.le_of_lt_add_one n.toInt_lt⟩
  rw [int32?, Node.integer?_ofInt hbounds, Option.map_some, Int32.ofInt_toInt]

theorem int64?_ofInt (n : Int64) : int64? (.ofInt n.toInt) = some n := by
  have hbounds : -9223372036854775808 ≤ n.toInt ∧ n.toInt ≤ 9223372036854775807 :=
    ⟨n.le_toInt, Int.le_of_lt_add_one n.toInt_lt⟩
  rw [int64?, Node.integer?_ofInt hbounds, Option.map_some, Int64.ofInt_toInt]

theorem regular_int32 (n : Int32) : (Node.ofInt n.toInt).Regular :=
  Node.regular_ofInt (Int.le_trans (by decide) n.le_toInt)

theorem regular_int64 (n : Int64) : (Node.ofInt n.toInt).Regular :=
  Node.regular_ofInt n.le_toInt

theorem objectId?_natural {id : ObjectId} (h : id < 0x10000000000000000) :
    objectId? (.natural id) = some id := by
  have hgreatest : (id : Int) ≤ 18446744073709551615 := Int.ofNat_le.mpr (Nat.le_of_lt_succ h)
  rw [objectId?, Node.integer?_natural hgreatest, Option.map_some, Int.toNat_natCast]

mutual

/-- The levels of a value. The items of a collection lie in an array, and each
    entry of a map in an array of its own. -/
def levels (counted : Bool) : Value → Nat
  | .null => 0
  | .list items => choiceLevels counted (levelsOfAll counted items + 1)
  | .set items => choiceLevels counted (levelsOfAll counted items + 1)
  | .tuple items => choiceLevels counted (levelsOfAll counted items + 1)
  | .map entries => choiceLevels counted (levelsOfEntries counted entries + 1)
  | _ => choiceLevels counted 0

/-- The levels of the deepest of several values. -/
def levelsOfAll (counted : Bool) : List Value → Nat
  | [] => 0
  | v :: vs => max (levels counted v) (levelsOfAll counted vs)

/-- The levels of the deepest of several entries. -/
def levelsOfEntries (counted : Bool) : List (Value × Value) → Nat
  | [] => 0
  | (k, v) :: rest =>
    max (max (levels counted k) (levels counted v) + 1) (levelsOfEntries counted rest)

end

instance : Layered Value := ⟨levels⟩

theorem ofItems?_of_ofNodes? {d : Nesting} {items : List Value} {n : Nat} (h : n + 1 ≤ d.room)
    (hitems : ofNodes? d.inside (nodes items) = some items) :
    ofItems? d (.array (nodes items)) = some items := by
  rw [ofItems?, Nesting.enter?_eq (Nat.le_trans (Nat.le_add_left 1 n) h)]
  exact hitems

mutual

theorem ofNode?_node : ∀ (v : Value) (d : Nesting), (node v).Words →
    levels d.countsChoices v ≤ d.room → ofNode? d (node v) = some v
  | .null, _, _, _ => rfl
  | .bool _, d, _, h | .float32 _, d, _, h | .float64 _, d, _, h | .string _, d, _, h
  | .bytes _, d, _, h => by
      rcases Nesting.enterChoice?_eq h with ⟨henter, _⟩
      rw [node, choice, ofNode?, henter]
      rfl
  | .int32 n, d, _, h | .enum n, d, _, h => by
      rcases Nesting.enterChoice?_eq h with ⟨henter, _⟩
      rw [node, choice, ofNode?, henter]
      simp only [Option.bind_eq_bind, Option.bind_some, Node.name?, Node.text?, int32?_ofInt,
        Option.pure_def]
  | .int64 n, d, _, h => by
      rcases Nesting.enterChoice?_eq h with ⟨henter, _⟩
      rw [node, choice, ofNode?, henter]
      simp only [Option.bind_eq_bind, Option.bind_some, Node.name?, Node.text?, int64?_ofInt,
        Option.pure_def]
  | .object id, d, hwords, h => by
      rcases Nesting.enterChoice?_eq h with ⟨henter, _⟩
      rw [node, choice, ofNode?, henter]
      simp only [Option.bind_eq_bind, Option.bind_some, Node.name?, Node.text?,
        objectId?_natural hwords.2.1, Option.pure_def]
  | .list items, d, hwords, h | .set items, d, hwords, h | .tuple items, d, hwords, h => by
      rcases Nesting.enterChoice?_eq h with ⟨henter, hroom⟩
      rw [← d.countsChoices_insideChoice] at hroom
      have ih := ofNodes?_nodes items d.insideChoice.inside hwords.2.1 (Nat.le_sub_of_add_le hroom)
      rw [node, choice, ofNode?, henter]
      simp only [Option.bind_eq_bind, Option.bind_some, Node.name?, Node.text?,
        ofItems?_of_ofNodes? hroom ih, Option.pure_def]
  | .map entries, d, hwords, h => by
      rcases Nesting.enterChoice?_eq h with ⟨henter, hroom⟩
      rw [← d.countsChoices_insideChoice] at hroom
      have ih := ofEntryNodes?_entryNodes entries d.insideChoice.inside hwords.2.1
        (Nat.le_sub_of_add_le hroom)
      have hinside := Nesting.enter?_eq (Nat.le_trans (Nat.le_add_left 1 _) hroom)
      rw [node, choice, ofNode?, henter]
      simp only [Option.bind_eq_bind, Option.bind_some, Node.name?, Node.text?, ofEntries?, hinside,
        ih, Option.pure_def]

theorem ofNodes?_nodes : ∀ (vs : List Value) (d : Nesting), Node.WordsInItems (nodes vs) →
    levelsOfAll d.countsChoices vs ≤ d.room → ofNodes? d (nodes vs) = some vs
  | [], _, _, _ => rfl
  | v :: vs, d, hwords, h => by
      rw [levelsOfAll, Nat.max_le] at h
      rw [nodes, ofNodes?, ofNode?_node v d hwords.1 h.1, ofNodes?_nodes vs d hwords.2 h.2]
      rfl

theorem ofEntryNodes?_entryNodes : ∀ (entries : List (Value × Value)) (d : Nesting),
    Node.WordsInItems (entryNodes entries) → levelsOfEntries d.countsChoices entries ≤ d.room →
    ofEntryNodes? d (entryNodes entries) = some entries
  | [], _, _, _ => rfl
  | (k, v) :: rest, d, hwords, h => by
      rw [levelsOfEntries, Nat.max_le] at h
      have hdeep := Nat.max_le.mp (Nat.le_sub_of_add_le h.1)
      have ihk := ofNode?_node k d.inside hwords.1.1 hdeep.1
      have ihv := ofNode?_node v d.inside hwords.1.2.1 hdeep.2
      have hinside := Nesting.enter?_eq (Nat.le_trans (Nat.le_add_left 1 _) h.1)
      rw [entryNodes, ofEntryNodes?, hinside, ofEntryNodes?_entryNodes rest d hwords.2 h.2]
      simp only [Option.bind_eq_bind, Option.bind_some, ihk, ihv, Option.pure_def]

end

mutual

theorem regular_node : ∀ v : Value, (node v).Regular
  | .null => trivial
  | .bool _ | .float32 _ | .float64 _ | .string _ | .bytes _ | .object _ =>
      ⟨trivial, trivial, trivial⟩
  | .int32 n | .enum n => ⟨trivial, regular_int32 n, trivial⟩
  | .int64 n => ⟨trivial, regular_int64 n, trivial⟩
  | .list items | .set items | .tuple items => ⟨trivial, regular_nodes items, trivial⟩
  | .map entries => ⟨trivial, regular_entryNodes entries, trivial⟩

theorem regular_nodes : ∀ vs : List Value, Node.RegularItems (nodes vs)
  | [] => trivial
  | v :: vs => ⟨regular_node v, regular_nodes vs⟩

theorem regular_entryNodes : ∀ entries : List (Value × Value),
    Node.RegularItems (entryNodes entries)
  | [] => trivial
  | (k, v) :: rest => ⟨⟨regular_node k, regular_node v, trivial⟩, regular_entryNodes rest⟩

end

instance : LawfulSerial Value where
  ofNode?_toNode d v hwords h := ofNode?_node v d hwords h
  regular_toNode := regular_node
  toNode_ne_null v := by cases v <;> exact Node.noConfusion

end Value

end Switchboard
