import Switchboard.Proofs.Wire.Json.Records
import Switchboard.Proofs.Wire.Values

/-!
# Types and Values Read from JSON

Descriptors and values are recognised in the trees that their texts are read as.
Names are texts and stay texts. What changes are the numbers, which come without
a sign or with one but are asked for by their bounds, and bytes, which come as an
array and so need a level that they did not have.

## Theorems

* `Ty.ofNode?_readBack`, `Value.ofNode?_readBack`: They are recognised.
* `Value.octets?_readBack`: So are bytes.
-/

namespace Switchboard

open Wire Wire.Json

namespace Ty

/-- The name of a class or an enumeration is recognised. -/
theorem readName?_readBack {d : Nesting} {service name : String}
    (h : Within d (nameNode service name)) :
    readName? d (readBack (nameNode service name)) = some (service, name) := by
  rw [readName?, nameNode,
    fields?_readBack ["service", "name"] h.record.1 rfl (by decide) (by decide)]
  rfl

mutual

theorem ofNode?_readBack : ∀ (t : Ty) (d : Nesting), Within d t.node →
    ofNode? d (readBack t.node) = some t
  | .bool, _, _ | .int32, _, _ | .int64, _, _ | .float32, _, _ | .float64, _, _ | .string, _, _
  | .bytes, _, _ => rfl
  | .list element, d, h | .set element, d, h | .optional element, d, h => by
      rcases h.choice with ⟨henter, hcontent⟩
      have ih := ofNode?_readBack element d.inside hcontent
      rw [node, readBack_choice, choice, ofNode?, henter]
      simp only [Option.bind_eq_bind, Option.bind_some, Node.name?, Node.text?, ih, Option.pure_def]
  | .map key value, d, h => by
      rcases h.choice with ⟨henter, hcontent⟩
      rcases hcontent.array with ⟨hroom, hparts⟩
      have ihk := ofNode?_readBack key d.inside.inside (hparts _ List.mem_cons_self)
      have ihv := ofNode?_readBack value d.inside.inside
        (hparts _ (List.mem_cons_of_mem _ List.mem_cons_self))
      rw [node, readBack_choice, readBack_array, List.map_cons, List.map_cons, List.map_nil, choice,
        ofNode?, henter]
      simp only [Option.bind_eq_bind, Option.bind_some, Node.name?, Node.text?,
        Nesting.enter?_eq hroom, ihk, ihv, Option.pure_def]
  | .tuple elements, d, h => by
      rcases h.choice with ⟨henter, hcontent⟩
      rcases hcontent.array with ⟨hroom, hparts⟩
      have ih := ofNodes?_readBack elements d.inside.inside hparts
      rw [node, readBack_choice, readBack_array, choice, ofNode?, henter]
      simp only [Option.bind_eq_bind, Option.bind_some, Node.name?, Node.text?, ofItems?,
        Nesting.enter?_eq hroom, ih, Option.pure_def]
  | .enumeration service name, d, h | .instanceOf service name, d, h => by
      rcases h.choice with ⟨henter, hcontent⟩
      rw [node, readBack_choice, choice, ofNode?, henter]
      simp only [Option.bind_eq_bind, Option.bind_some, Node.name?, Node.text?,
        readName?_readBack hcontent, Option.map_some]

theorem ofNodes?_readBack : ∀ (ts : List Ty) (d : Nesting), (∀ n ∈ nodes ts, Within d n) →
    ofNodes? d ((nodes ts).map readBack) = some ts
  | [], _, _ => rfl
  | t :: ts, d, h => by
      rw [nodes, List.forall_mem_cons] at h
      rw [nodes, List.map_cons, ofNodes?, ofNode?_readBack t d h.1, ofNodes?_readBack ts d h.2]
      rfl

end

mutual

theorem keyed_node : ∀ t : Ty, t.node.Keyed
  | .bool | .int32 | .int64 | .float32 | .float64 | .string | .bytes => trivial
  | .list element | .set element | .optional element =>
      ⟨⟨_, rfl⟩, keyed_node element, trivial⟩
  | .map key value => ⟨⟨_, rfl⟩, ⟨keyed_node key, keyed_node value, trivial⟩, trivial⟩
  | .tuple elements => ⟨⟨_, rfl⟩, keyed_nodes elements, trivial⟩
  | .enumeration _ _ | .instanceOf _ _ =>
      ⟨⟨_, rfl⟩, ⟨⟨_, rfl⟩, trivial, ⟨_, rfl⟩, trivial, trivial⟩, trivial⟩

theorem keyed_nodes : ∀ ts : List Ty, Node.KeyedItems (nodes ts)
  | [] => trivial
  | t :: ts => ⟨keyed_node t, keyed_nodes ts⟩

end

instance : ReadsBack Ty where
  ofNode?_readBack d t h := ofNode?_readBack t d h
  keyed_toNode := keyed_node

end Ty

namespace Value

theorem octet?_integer (b : UInt8) : (Node.integer b.toNat).octet? = some b := by
  have hgreatest : (b.toNat : Int) ≤ 255 := Int.ofNat_le.mpr (Nat.le_of_lt_succ b.toNat_lt)
  have hbyte : (Node.integer b.toNat).integer? 0 255 = some (b.toNat : Int) :=
    if_pos ⟨Int.natCast_nonneg _, hgreatest⟩
  rw [Node.octet?, hbyte, Option.map_some, Int.toNat_natCast]
  exact congrArg some UInt8.ofNat_toNat

theorem mapM_octet?_integers (bs : List UInt8) :
    (bs.map fun b => Node.integer b.toNat).mapM Node.octet? = some bs := by
  induction bs with
  | nil => rfl
  | cons b bs ih =>
      rw [List.map_cons, List.mapM_cons, octet?_integer, ih]
      rfl

/-- Bytes are recognised in an array of numbers. -/
theorem octets?_readBack {d : Nesting} {bs : List UInt8} (h : Within d (.octets bs)) :
    d.octets? (readBack (.octets bs)) = some bs := by
  rw [readBack, Nesting.octets?, h.enter (Nat.le_add_left 1 _)]
  exact mapM_octet?_integers bs

mutual

theorem ofNode?_readBack : ∀ (v : Value) (d : Nesting), Within d (node v) →
    ofNode? d (readBack (node v)) = some v
  | .null, _, _ => rfl
  | .bool _, d, h | .float32 _, d, h | .float64 _, d, h | .string _, d, h => by
      rw [node, readBack_choice, choice, ofNode?, h.choice.1]
      rfl
  | .bytes bs, d, h => by
      rcases h.choice with ⟨henter, hcontent⟩
      rw [node, readBack_choice, choice, ofNode?, henter]
      simp only [Option.bind_eq_bind, Option.bind_some, Node.name?, Node.text?,
        octets?_readBack hcontent, Option.pure_def]
  | .int32 n, d, h | .enum n, d, h => by
      have hn := int32?_ofInt n
      rw [int32?, ← integer?_readBack, ← int32?] at hn
      rw [node, readBack_choice, choice, ofNode?, h.choice.1]
      simp only [Option.bind_eq_bind, Option.bind_some, Node.name?, Node.text?, hn, Option.pure_def]
  | .int64 n, d, h => by
      have hn := int64?_ofInt n
      rw [int64?, ← integer?_readBack, ← int64?] at hn
      rw [node, readBack_choice, choice, ofNode?, h.choice.1]
      simp only [Option.bind_eq_bind, Option.bind_some, Node.name?, Node.text?, hn, Option.pure_def]
  | .object id, d, h => by
      have hid := objectId?_natural h.choice.2.words
      rw [objectId?, ← integer?_readBack, ← objectId?] at hid
      rw [node, readBack_choice, choice, ofNode?, h.choice.1]
      simp only [Option.bind_eq_bind, Option.bind_some, Node.name?, Node.text?, hid,
        Option.pure_def]
  | .list items, d, h | .set items, d, h | .tuple items, d, h => by
      rcases h.choice with ⟨henter, hcontent⟩
      rcases hcontent.array with ⟨hroom, hparts⟩
      have ih := ofNodes?_readBack items d.inside.inside hparts
      rw [node, readBack_choice, readBack_array, choice, ofNode?, henter]
      simp only [Option.bind_eq_bind, Option.bind_some, Node.name?, Node.text?, ofItems?,
        Nesting.enter?_eq hroom, ih, Option.pure_def]
  | .map entries, d, h => by
      rcases h.choice with ⟨henter, hcontent⟩
      rcases hcontent.array with ⟨hroom, hparts⟩
      have ih := ofEntryNodes?_readBack entries d.inside.inside hparts
      rw [node, readBack_choice, readBack_array, choice, ofNode?, henter]
      simp only [Option.bind_eq_bind, Option.bind_some, Node.name?, Node.text?, ofEntries?,
        Nesting.enter?_eq hroom, ih, Option.pure_def]

theorem ofNodes?_readBack : ∀ (vs : List Value) (d : Nesting), (∀ n ∈ nodes vs, Within d n) →
    ofNodes? d ((nodes vs).map readBack) = some vs
  | [], _, _ => rfl
  | v :: vs, d, h => by
      rw [nodes, List.forall_mem_cons] at h
      rw [nodes, List.map_cons, ofNodes?, ofNode?_readBack v d h.1, ofNodes?_readBack vs d h.2]
      rfl

theorem ofEntryNodes?_readBack : ∀ (entries : List (Value × Value)) (d : Nesting),
    (∀ n ∈ entryNodes entries, Within d n) →
    ofEntryNodes? d ((entryNodes entries).map readBack) = some entries
  | [], _, _ => rfl
  | (k, v) :: rest, d, h => by
      rw [entryNodes, List.forall_mem_cons] at h
      rcases h.1.array with ⟨hroom, hparts⟩
      have ihk := ofNode?_readBack k d.inside (hparts _ List.mem_cons_self)
      have ihv := ofNode?_readBack v d.inside
        (hparts _ (List.mem_cons_of_mem _ List.mem_cons_self))
      rw [entryNodes, List.map_cons, readBack_array, List.map_cons, List.map_cons, List.map_nil,
        ofEntryNodes?, Nesting.enter?_eq hroom, ofEntryNodes?_readBack rest d h.2]
      simp only [Option.bind_eq_bind, Option.bind_some, ihk, ihv, Option.pure_def]

end

theorem keyed_ofInt (n : Int) : (Node.ofInt n).Keyed := by
  cases n <;> trivial

mutual

theorem keyed_node : ∀ v : Value, (node v).Keyed
  | .null => trivial
  | .bool _ | .float32 _ | .float64 _ | .string _ | .bytes _ | .object _ =>
      ⟨⟨_, rfl⟩, trivial, trivial⟩
  | .int32 n | .enum n => ⟨⟨_, rfl⟩, keyed_ofInt n.toInt, trivial⟩
  | .int64 n => ⟨⟨_, rfl⟩, keyed_ofInt n.toInt, trivial⟩
  | .list items | .set items | .tuple items => ⟨⟨_, rfl⟩, keyed_nodes items, trivial⟩
  | .map entries => ⟨⟨_, rfl⟩, keyed_entryNodes entries, trivial⟩

theorem keyed_nodes : ∀ vs : List Value, Node.KeyedItems (nodes vs)
  | [] => trivial
  | v :: vs => ⟨keyed_node v, keyed_nodes vs⟩

theorem keyed_entryNodes : ∀ entries : List (Value × Value),
    Node.KeyedItems (entryNodes entries)
  | [] => trivial
  | (k, v) :: rest => ⟨⟨keyed_node k, keyed_node v, trivial⟩, keyed_entryNodes rest⟩

end

instance : ReadsBack Value where
  ofNode?_readBack d v h := ofNode?_readBack v d h
  keyed_toNode := keyed_node

end Value

end Switchboard
