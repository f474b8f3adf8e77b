import Switchboard.Proofs.Wire.Json.Text
import Switchboard.Proofs.Wire.Records

/-!
# Trees Read from JSON

What a message must satisfy to be recognised in the tree that its text is read
as, and how that follows for a record from its fields.

That tree has no numbers without sign and no octets any more. A reader of
messages does not mind: a whole number is asked for by its bounds, bytes may be
an array of numbers, and names are texts in every tree that was written. But it
has to be shown for each kind of message again, since a tree can be recognised
by one kind of message and its other spelling by none.

JSON counts every array and every object as a level, whatever they mean. So the
nesting of a message is the height of its tree, and there is no need to count
levels on messages. `Within` is that bound with what else readers rely on, and
it passes from a tree to its parts.

## Main definitions

* `Within`: Trees that a reader of JSON can follow.
* `ReadsBack`: Types whose values are recognised in what is read.

## Theorems

* `Within.array`, `Within.record`, `Within.choice`: The parts of a tree.
* `fields?_readBack`: The fields of a record that was read.
* `listOf_readBack`, `optional_readBack`: Fields that are lists or may be
  missing.
-/

namespace Switchboard.Wire.Json

/-! ## Parts of trees -/

theorem readBackItems_eq_map (ns : List Node) : readBackItems ns = ns.map readBack := by
  induction ns with
  | nil => rfl
  | cons n ns ih => rw [readBackItems, ih, List.map_cons]

theorem readBack_array (ns : List Node) : readBack (.array ns) = .array (ns.map readBack) := by
  rw [readBack, readBackItems_eq_map]

theorem readBack_record (fields : List (String × Node)) :
    readBack (record fields) = record (fields.map fun field => (field.1, readBack field.2)) := by
  rw [record, readBack, record]
  congr 1
  induction fields with
  | nil => rfl
  | cons field rest ih =>
      rw [List.map_cons, readBackEntries, ih]
      rfl

theorem readBack_choice (name : String) (content : Node) :
    readBack (choice name content) = choice name (readBack content) := rfl

theorem readBack_ne_null {n : Node} (h : n ≠ .null) : readBack n ≠ .null := by
  cases n with
  | null => exact absurd rfl h
  | _ => exact Node.noConfusion

/-- A number is the same whole number when it is read, with a sign or without. -/
theorem integer?_readBack (n : Node) (least greatest : Int) :
    (readBack n).integer? least greatest = n.integer? least greatest := by
  cases n <;> rfl

theorem height_item {n : Node} {ns : List Node} (h : n ∈ ns) :
    n.height ≤ Node.heightOfItems ns := by
  induction ns with
  | nil => exact absurd h List.not_mem_nil
  | cons first rest ih =>
      rw [Node.heightOfItems]
      rcases List.mem_cons.mp h with rfl | h
      · exact Nat.le_max_left _ _
      · exact Nat.le_trans (ih h) (Nat.le_max_right _ _)

theorem height_field {field : String × Node} {fields : List (String × Node)}
    (h : field ∈ fields) : field.2.height + 1 ≤ (record fields).height := by
  rw [record, Node.height]
  refine Nat.succ_le_succ ?_
  induction fields with
  | nil => exact absurd h List.not_mem_nil
  | cons first rest ih =>
      rw [List.map_cons, Node.heightOfEntries]
      rcases List.mem_cons.mp h with rfl | h
      · exact Nat.le_trans (Nat.le_max_right _ _) (Nat.le_max_left _ _)
      · exact Nat.le_trans (ih h) (Nat.le_max_right _ _)

theorem words_array {ns : List Node} (h : (Node.array ns).Words) : ∀ n ∈ ns, n.Words := by
  rw [Node.Words] at h
  induction ns with
  | nil => exact List.forall_mem_nil _
  | cons n ns ih => exact List.forall_mem_cons.mpr ⟨h.1, ih h.2⟩

theorem keyed_array {ns : List Node} : (Node.array ns).Keyed ↔ ∀ n ∈ ns, n.Keyed := by
  rw [Node.Keyed]
  induction ns with
  | nil => exact iff_of_true trivial (List.forall_mem_nil _)
  | cons n ns ih => rw [Node.KeyedItems, ih, List.forall_mem_cons]

theorem keyed_record {fields : List (String × Node)} :
    (record fields).Keyed ↔ ∀ field ∈ fields, field.2.Keyed := by
  rw [record, Node.Keyed]
  induction fields with
  | nil => exact iff_of_true trivial (List.forall_mem_nil _)
  | cons field rest ih =>
      rw [List.map_cons, Node.KeyedEntries, ih, List.forall_mem_cons]
      exact ⟨fun h => h.2, fun h => ⟨⟨field.1, rfl⟩, h⟩⟩

/-- A tree that is nested no deeper than a reader of JSON follows, and whose
    numbers have at most 64 bits. -/
structure Within (d : Nesting) (n : Node) : Prop where
  counts : d.countsChoices = true
  words : n.Words
  shallow : (readBack n).height ≤ d.room

namespace Within

variable {d : Nesting}

/-- There is room for a level if the tree has one. -/
theorem enter {n : Node} (h : Within d n) (hlevel : 1 ≤ (readBack n).height) :
    d.enter? = some d.inside :=
  Nesting.enter?_eq (Nat.le_trans hlevel h.shallow)

/-- What lies in an array or an object is one level further in. -/
theorem part {n inner : Node} (h : Within d n) (hwords : inner.Words)
    (hdeeper : (readBack inner).height + 1 ≤ (readBack n).height) : Within d.inside inner where
  counts := h.counts
  words := hwords
  shallow := Nat.le_sub_of_add_le (Nat.le_trans hdeeper h.shallow)

theorem array {items : List Node} (h : Within d (.array items)) :
    1 ≤ d.room ∧ ∀ n ∈ items, Within d.inside n := by
  constructor
  · exact Nat.le_trans (Nat.le_add_left 1 _) h.shallow
  · intro n hn
    refine h.part (words_array h.words n hn) ?_
    rw [readBack_array, Node.height]
    exact Nat.succ_le_succ (height_item (List.mem_map_of_mem hn))

theorem record {fields : List (String × Node)} (h : Within d (record fields)) :
    1 ≤ d.room ∧ ∀ field ∈ fields, Within d.inside field.2 := by
  constructor
  · exact Nat.le_trans (Nat.le_add_left 1 _) h.shallow
  · intro field hfield
    have hread : (field.1, readBack field.2) ∈ fields.map fun f => (f.1, readBack f.2) :=
      List.mem_map_of_mem hfield
    refine h.part (words_record.mp h.words field hfield) ?_
    rw [readBack_record]
    exact height_field hread

/-- The content of a choice lies in an object with one field. -/
theorem choice {name : String} {content : Node} (h : Within d (choice name content)) :
    d.enterChoice? = some d.inside ∧ Within d.inside content := by
  have hrecord : Within d (Wire.record [(name, content)]) := h
  rcases hrecord.record with ⟨hroom, hfields⟩
  refine ⟨?_, hfields (name, content) List.mem_cons_self⟩
  rw [Nesting.enterChoice?, if_pos h.counts, Nesting.enter?_eq hroom]

end Within

/-! ## Fields -/

/-- A type whose values are recognised in the trees that their texts are read
    as. -/
class ReadsBack (α : Type) [Serial α] [Layered α] [LawfulSerial α] : Prop where
  ofNode?_readBack : ∀ (d : Nesting) (a : α), Within d (toNode a) →
    ofNode? d (readBack (toNode a)) = some a
  keyed_toNode : ∀ a : α, (toNode a).Keyed

export ReadsBack (ofNode?_readBack keyed_toNode)

variable {d : Nesting}

/-- The fields of a record are found as what they were read as. -/
theorem fields?_readBack {names : List String} {fields : List (String × Node)}
    (keys : List String) (hroom : 1 ≤ d.room) (hkeys : fields.map (·.1) = keys)
    (hnames : ∀ key ∈ keys, key ∈ names) (hnodup : keys.Nodup) :
    fields? d names (readBack (record fields)) = some (d.inside, names.map fun name =>
      (fields.find? fun f => f.1 == name).map fun f => readBack f.2) := by
  have hkeys' : (fields.map fun field => (field.1, readBack field.2)).map (·.1) = keys := by
    rw [List.map_map]
    exact hkeys
  rw [readBack_record, fields?_record keys hroom hkeys' hnames hnodup]
  congr 2
  refine List.map_congr_left fun name _ => ?_
  rw [List.find?_map, Option.map_map]
  rfl

variable {α : Type} [Serial α] [Layered α] [LawfulSerial α] [ReadsBack α]

theorem keyed_items (items : List α) : (Node.array (items.map toNode)).Keyed :=
  keyed_array.mpr (List.forall_mem_map.mpr fun a _ => keyed_toNode a)

theorem keyed_fieldIfSome (name : String) (a : Option α) :
    ∀ field ∈ fieldIfSome name toNode a, field.2.Keyed := by
  rw [forall_mem_fieldIfSome]
  intro n hn
  rcases Option.map_eq_some_iff.mp hn with ⟨a, -, rfl⟩
  exact keyed_toNode a

/-- A field that may be missing is recognised if it is there. -/
theorem optional_readBack {a : Option α} (h : ∀ n, a.map toNode = some n → Within d n) :
    optional (ofNode? d) (a.map fun a => readBack (toNode a)) = some a := by
  cases a with
  | none => rfl
  | some a =>
      have hread := ofNode?_readBack d a (h _ rfl)
      have hnull := readBack_ne_null (toNode_ne_null a)
      rw [Option.map_some]
      cases hnode : readBack (toNode a) with
      | null => exact absurd hnode hnull
      | _ => rw [hnode] at hread; simp only [optional, hread, Option.map_some]

theorem mapM_readBack {items : List α} (h : ∀ a ∈ items, Within d (toNode a)) :
    (items.map fun a => readBack (toNode a)).mapM (ofNode? d) = some items := by
  induction items with
  | nil => rfl
  | cons a rest ih =>
      rw [List.forall_mem_cons] at h
      rw [List.map_cons, List.mapM_cons, ofNode?_readBack d a h.1, ih h.2]
      rfl

/-- A list is recognised if its items are. -/
theorem listOf_readBack {items : List α} (h : Within d (.array (items.map toNode))) :
    listOf ofNode? d (readBack (.array (items.map toNode))) = some items := by
  rcases h.array with ⟨hroom, hitems⟩
  rw [readBack_array, List.map_map, listOf, Nesting.items?_array hroom]
  exact mapM_readBack (List.forall_mem_map.mp hitems)

end Switchboard.Wire.Json
