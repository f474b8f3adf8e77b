import Switchboard.Proofs.Wire.MsgPack.Items
import Switchboard.Wire.Serial.Basic

/-!
# Trees of Records

What a message must satisfy for its tree to lead back to it, and how the laws
of a record follow from those of its fields.

A tree leads back to its message if the message is not nested too deeply.
`levels` counts its nesting the way a reader uses it up: an array or a record
takes a level, and the object around the content of a choice takes one only in
encodings that count it. The count is on messages and not on trees because a
tree does not tell a record with a single field from a choice.

`LawfulSerial` has two more laws beside the one about reading. The tree has
bytes of its own, and it is not the null tree, so that a field which may be
missing can be told from one that is present. The law about reading asks for
numbers of at most 64 bits, because the number of an object has no bound until
it is written.

## Main definitions

* `Nesting.inside`: What is left of a nesting inside an array or a record.
* `Layered`: Types with a count of levels.
* `LawfulSerial`: Types whose trees lead back.

## Theorems

* `regular_record`, `words_record`: What holds of a record holds of its fields.
* `fields?_record`: The fields of a record that was written.
* `listOf_array`, `optional_map`: Fields that are lists or may be missing.
-/

namespace Switchboard.Wire

namespace Nesting

/-- What is left inside an array or a record, if there is room for one. -/
def inside (d : Nesting) : Nesting := { d with room := d.room - 1 }

theorem enter?_eq {d : Nesting} (h : 1 ≤ d.room) : d.enter? = some d.inside := by
  rcases d with ⟨room, countsChoices, countsSkipped⟩
  cases room with
  | zero => exact absurd h (Nat.not_succ_le_zero 0)
  | succ room => rfl

theorem items?_array {d : Nesting} (h : 1 ≤ d.room) (items : List Node) :
    d.items? (.array items) = some (d.inside, items) := by
  simp only [items?, enter?_eq h, Option.bind_eq_bind, Option.bind_some, Option.pure_def]

end Nesting

/-! ## Levels -/

/-- A type whose values have levels. -/
class Layered (α : Type) where
  /-- How many levels a value has, where the objects around the contents of
      choices count or do not. -/
  levels : Bool → α → Nat

export Layered (levels)

/-- The levels of a choice, given those of its content. -/
def choiceLevels (counted : Bool) (content : Nat) : Nat :=
  if counted then content + 1 else content

namespace Nesting

/-- What is left inside the object around the content of a choice. -/
def insideChoice (d : Nesting) : Nesting := if d.countsChoices then d.inside else d

theorem countsChoices_insideChoice (d : Nesting) :
    d.insideChoice.countsChoices = d.countsChoices := by
  unfold insideChoice
  cases h : d.countsChoices with
  | false => exact h
  | true => exact h

/-- If there is room for a choice it can be entered, and there is room inside it
    for its content. -/
theorem enterChoice?_eq {d : Nesting} {content : Nat}
    (h : choiceLevels d.countsChoices content ≤ d.room) :
    d.enterChoice? = some d.insideChoice ∧ content ≤ d.insideChoice.room := by
  unfold enterChoice? insideChoice
  cases hcounts : d.countsChoices with
  | false =>
      rw [hcounts] at h
      exact ⟨rfl, h⟩
  | true =>
      rw [hcounts] at h
      exact ⟨enter?_eq (Nat.le_trans (Nat.le_add_left 1 content) h), Nat.le_sub_of_add_le h⟩

end Nesting

/-- A list is one level above its deepest item. -/
instance {α : Type} [Layered α] : Layered (List α) where
  levels counted items := (items.map (levels counted)).foldr max 0 + 1

/-- A value that may be missing has the levels it has when present. -/
instance {α : Type} [Layered α] : Layered (Option α) where
  levels counted a := (a.map (levels counted)).getD 0

/-- A type whose values can be had back from their trees. -/
class LawfulSerial (α : Type) [Serial α] [Layered α] : Prop where
  ofNode?_toNode : ∀ (d : Nesting) (a : α), (toNode a).Words →
    levels d.countsChoices a ≤ d.room → ofNode? d (toNode a) = some a
  regular_toNode : ∀ a : α, (toNode a).Regular
  toNode_ne_null : ∀ a : α, toNode a ≠ .null

export LawfulSerial (ofNode?_toNode regular_toNode toNode_ne_null)

/-! ## Fields -/

theorem regular_record {fields : List (String × Node)} :
    (record fields).Regular ↔ ∀ field ∈ fields, field.2.Regular := by
  rw [record, Node.Regular]
  induction fields with
  | nil => exact iff_of_true trivial fun _ h => absurd h List.not_mem_nil
  | cons field rest ih =>
      rw [List.map_cons, Node.RegularEntries, ih, List.forall_mem_cons]
      exact ⟨fun h => h.2, fun h => ⟨trivial, h⟩⟩

theorem words_record {fields : List (String × Node)} :
    (record fields).Words ↔ ∀ field ∈ fields, field.2.Words := by
  rw [record, Node.Words]
  induction fields with
  | nil => exact iff_of_true trivial fun _ h => absurd h List.not_mem_nil
  | cons field rest ih =>
      rw [List.map_cons, Node.WordsInEntries, ih, List.forall_mem_cons]
      exact ⟨fun h => h.2, fun h => ⟨trivial, h⟩⟩

theorem knownEntries?_of_mem {d : Nesting} {names : List String} {fields : List (String × Node)}
    (h : ∀ field ∈ fields, field.1 ∈ names) :
    knownEntries? d names (fields.map fun field => (.text field.1, field.2)) = some fields := by
  induction fields with
  | nil => rfl
  | cons field rest ih =>
      have hrest := ih fun f hf => h f (List.mem_cons_of_mem _ hf)
      -- A name is found where it is looked for, and as itself.
      have hname : names.find? (· == field.1) = some field.1 := by
        cases hfind : names.find? (· == field.1) with
        | none =>
            have hnot := List.find?_eq_none.mp hfind field.1 (h field List.mem_cons_self)
            exact absurd (beq_self_eq_true field.1) hnot
        | some found =>
            have heq := List.find?_some hfind
            simp only [beq_iff_eq] at heq
            rw [heq]
      rw [List.map_cons, knownEntries?, fieldName?, hname, hrest]
      rfl

/-- The fields of a record are found under their names, and names that it has
    no field for are missing. -/
theorem fields?_record {d : Nesting} {names : List String} {fields : List (String × Node)}
    (keys : List String) (hroom : 1 ≤ d.room) (hkeys : fields.map (·.1) = keys)
    (hnames : ∀ key ∈ keys, key ∈ names) (hnodup : keys.Nodup) :
    fields? d names (record fields) =
      some (d.inside, names.map fun name => (fields.find? fun f => f.1 == name).map (·.2)) := by
  have hknown : knownEntries? d.inside names (fields.map fun f => (.text f.1, f.2)) = some fields :=
    knownEntries?_of_mem fun field hfield =>
      hnames field.1 (hkeys ▸ List.mem_map_of_mem hfield)
  rw [record, fields?, Nesting.enter?_eq hroom]
  simp only [Option.bind_eq_bind, Option.bind_some, hknown, hkeys, if_pos hnodup, Option.pure_def]

/-- What holds of the field for a value that may be absent holds of the value's
    tree if there is one. -/
theorem forall_mem_fieldIfSome {α : Type} {name : String} {write : α → Node}
    {P : String × Node → Prop} {a : Option α} :
    (∀ field ∈ fieldIfSome name write a, P field) ↔ ∀ n, a.map write = some n → P (name, n) := by
  cases a with
  | none => exact iff_of_true (fun _ h => absurd h List.not_mem_nil) (fun _ h => nomatch h)
  | some a =>
      rw [fieldIfSome, List.forall_mem_singleton, Option.map_some]
      exact ⟨fun h n hn => Option.some.inj hn ▸ h, fun h => h _ rfl⟩

variable {α : Type} [Serial α] [Layered α] [LawfulSerial α]

theorem regular_fieldIfSome (name : String) (a : Option α) :
    ∀ field ∈ fieldIfSome name toNode a, field.2.Regular := by
  rw [forall_mem_fieldIfSome]
  intro n hn
  rcases Option.map_eq_some_iff.mp hn with ⟨a, -, rfl⟩
  exact regular_toNode a

/-- A field that may be missing is read as what it was written from. -/
theorem optional_map {d : Nesting} {a : Option α} (hwords : ∀ n, a.map toNode = some n → n.Words)
    (h : levels d.countsChoices a ≤ d.room) : optional (ofNode? d) (a.map toNode) = some a := by
  cases a with
  | none => rfl
  | some a =>
      have hread := ofNode?_toNode d a (hwords _ rfl) h
      have hnull := toNode_ne_null a
      rw [Option.map_some]
      cases hnode : toNode a with
      | null => exact absurd hnode hnull
      | _ => rw [hnode] at hread; simp only [optional, hread, Option.map_some]

theorem mapM_toNode {d : Nesting} {items : List α}
    (hwords : Node.WordsInItems (items.map toNode))
    (h : (items.map (levels d.countsChoices)).foldr max 0 ≤ d.room) :
    (items.map toNode).mapM (ofNode? d) = some items := by
  induction items with
  | nil => rfl
  | cons a rest ih =>
      rw [List.map_cons, List.foldr_cons, Nat.max_le] at h
      rw [List.map_cons, List.mapM_cons, ofNode?_toNode d a hwords.1 h.1, ih hwords.2 h.2]
      rfl

/-- A list is read as what it was written from. -/
theorem listOf_array {d : Nesting} {items : List α}
    (hwords : (Node.array (items.map toNode)).Words)
    (h : levels d.countsChoices items ≤ d.room) :
    listOf ofNode? d (.array (items.map toNode)) = some items := by
  have hroom : 1 ≤ d.room := Nat.le_trans (Nat.le_add_left 1 _) h
  have hitems : (items.map (levels d.inside.countsChoices)).foldr max 0 ≤ d.inside.room :=
    Nat.le_sub_of_add_le h
  rw [listOf, Nesting.items?_array hroom]
  exact mapM_toNode hwords hitems

theorem regular_array (items : List α) : (Node.array (items.map toNode)).Regular := by
  rw [Node.Regular]
  induction items with
  | nil => trivial
  | cons a rest ih => exact ⟨regular_toNode a, ih⟩

end Switchboard.Wire
