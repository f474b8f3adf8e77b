import Switchboard.Proofs.Wire.Values
import Switchboard.Wire.Serial.Catalog

/-!
# Trees of the Catalog

The records of the catalog lead back from their trees, each by its own fields.
Two of them have a field that is not always written: the default of a parameter
and the return type of a procedure. A default of null is written as a bare name
and a missing default not at all, so a reader that finds the field never takes
one for the other.

## Theorems

* `Parameter.fields?_toNode`, `Procedure.fields?_toNode`: Which fields are there.
-/

namespace Switchboard

open Wire

/-! ## Procedures -/

instance : Layered Parameter :=
  ⟨fun counted p => max (levels counted p.ty) (levels counted p.defaultValue) + 1⟩

theorem Parameter.fields?_toNode {d : Nesting} (p : Parameter) (h : 1 ≤ d.room) :
    fields? d ["name", "type", "defaultValue"] (toNode p) = some (d.inside,
      [some (.text p.name), some (toNode p.ty), p.defaultValue.map toNode]) := by
  rcases p with ⟨name, ty, defaultValue⟩
  cases defaultValue with
  | none => exact fields?_record ["name", "type"] h rfl (by decide) (by decide)
  | some _ => exact fields?_record ["name", "type", "defaultValue"] h rfl (by decide) (by decide)

instance : LawfulSerial Parameter where
  ofNode?_toNode d p hwords h := by
    have hfields := words_record.mp hwords
    rw [List.forall_mem_append, forall_mem_fieldIfSome] at hfields
    simp only [List.forall_mem_cons] at hfields
    have hroom : levels d.countsChoices p.ty ≤ d.inside.room ∧
        levels d.countsChoices p.defaultValue ≤ d.inside.room :=
      Nat.max_le.mp (Nat.le_sub_of_add_le h)
    have hty := ofNode?_toNode d.inside p.ty hfields.1.2.1 hroom.1
    have hdefault := @optional_map _ _ _ _ d.inside p.defaultValue hfields.2 hroom.2
    change (fields? d _ (toNode p)).bind _ = some p
    rw [Parameter.fields?_toNode p (Nat.le_of_add_left_le h)]
    simp only [Option.bind_some, required, Node.text?, hty, hdefault, Option.bind_eq_bind,
      Option.pure_def]
  regular_toNode p := regular_record.mpr (by
    rw [List.forall_mem_append]
    simp only [List.forall_mem_cons]
    exact ⟨⟨trivial, regular_toNode p.ty, List.forall_mem_nil _⟩,
      regular_fieldIfSome "defaultValue" p.defaultValue⟩)
  toNode_ne_null _ := Node.noConfusion

instance : Layered Procedure :=
  ⟨fun counted p => max (levels counted p.parameters) (levels counted p.returnType) + 1⟩

theorem Procedure.fields?_toNode {d : Nesting} (p : Procedure) (h : 1 ≤ d.room) :
    fields? d ["name", "parameters", "returnType", "documentation", "blocking"] (toNode p) =
      some (d.inside,
        [some (.text p.name), some (.array (p.parameters.map toNode)), p.returnType.map toNode,
          some (.text p.documentation), some (.bool p.blocking)]) := by
  rcases p with ⟨name, parameters, returnType, documentation, blocking⟩
  cases returnType with
  | none =>
      exact fields?_record ["name", "parameters", "documentation", "blocking"] h rfl (by decide)
        (by decide)
  | some _ =>
      exact fields?_record ["name", "parameters", "returnType", "documentation", "blocking"] h rfl
        (by decide) (by decide)

instance : LawfulSerial Procedure where
  ofNode?_toNode d p hwords h := by
    have hfields := words_record.mp hwords
    rw [List.forall_mem_append, List.forall_mem_append, forall_mem_fieldIfSome] at hfields
    simp only [List.forall_mem_cons] at hfields
    have hroom : levels d.countsChoices p.parameters ≤ d.inside.room ∧
        levels d.countsChoices p.returnType ≤ d.inside.room :=
      Nat.max_le.mp (Nat.le_sub_of_add_le h)
    have hparameters := @listOf_array _ _ _ _ d.inside p.parameters hfields.1.1.2.1 hroom.1
    have hreturn := @optional_map _ _ _ _ d.inside p.returnType hfields.1.2 hroom.2
    change (fields? d _ (toNode p)).bind _ = some p
    rw [Procedure.fields?_toNode p (Nat.le_of_add_left_le h)]
    simp only [Option.bind_some, required, Node.text?, Node.bool?, hparameters, hreturn,
      Option.bind_eq_bind, Option.pure_def]
  regular_toNode p := regular_record.mpr (by
    rw [List.forall_mem_append, List.forall_mem_append]
    simp only [List.forall_mem_cons]
    exact ⟨⟨⟨trivial, regular_array p.parameters, List.forall_mem_nil _⟩,
      regular_fieldIfSome "returnType" p.returnType⟩, trivial, trivial,
      List.forall_mem_nil _⟩)
  toNode_ne_null _ := Node.noConfusion

/-! ## Named types -/

/-- A class is a record of texts. -/
instance : Layered ClassInfo := ⟨fun _ _ => 1⟩

instance : LawfulSerial ClassInfo where
  ofNode?_toNode d c _ h := by
    have hrecord : fields? d ["name", "documentation"] (toNode c) =
        some (d.inside, [some (.text c.name), some (.text c.documentation)]) :=
      fields?_record ["name", "documentation"] h rfl (by decide) (by decide)
    change (fields? d _ (toNode c)).bind _ = some c
    rw [hrecord]
    rfl
  regular_toNode c := regular_record.mpr (by
    simp only [List.forall_mem_cons]
    exact ⟨trivial, trivial, List.forall_mem_nil _⟩)
  toNode_ne_null _ := Node.noConfusion

/-- A member is a record of texts and a number. -/
instance : Layered EnumerationMember := ⟨fun _ _ => 1⟩

instance : LawfulSerial EnumerationMember where
  ofNode?_toNode d m _ h := by
    have hrecord : fields? d ["name", "value", "documentation"] (toNode m) = some (d.inside,
        [some (.text m.name), some (.ofInt m.value.toInt), some (.text m.documentation)]) :=
      fields?_record ["name", "value", "documentation"] h rfl (by decide) (by decide)
    change (fields? d _ (toNode m)).bind _ = some m
    rw [hrecord]
    simp only [Option.bind_some, required, Node.text?, Value.int32?_ofInt, Option.bind_eq_bind,
      Option.pure_def]
  regular_toNode m := regular_record.mpr (by
    simp only [List.forall_mem_cons]
    exact ⟨trivial, Value.regular_int32 m.value, trivial, List.forall_mem_nil _⟩)
  toNode_ne_null _ := Node.noConfusion

instance : Layered Enumeration := ⟨fun counted e => levels counted e.members + 1⟩

instance : LawfulSerial Enumeration where
  ofNode?_toNode d e hwords h := by
    have hfields := words_record.mp hwords
    simp only [List.forall_mem_cons] at hfields
    have hrecord : fields? d ["name", "values", "documentation"] (toNode e) = some (d.inside,
        [some (.text e.name), some (.array (e.members.map toNode)),
          some (.text e.documentation)]) :=
      fields?_record ["name", "values", "documentation"] (Nat.le_of_add_left_le h) rfl (by decide)
        (by decide)
    have hmembers := @listOf_array _ _ _ _ d.inside e.members hfields.2.1 (Nat.le_sub_of_add_le h)
    change (fields? d _ (toNode e)).bind _ = some e
    rw [hrecord]
    simp only [Option.bind_some, required, Node.text?, hmembers, Option.bind_eq_bind,
      Option.pure_def]
  regular_toNode e := regular_record.mpr (by
    simp only [List.forall_mem_cons]
    exact ⟨trivial, regular_array e.members, trivial, List.forall_mem_nil _⟩)
  toNode_ne_null _ := Node.noConfusion

/-! ## Services -/

instance : Layered Service :=
  ⟨fun counted s => max (levels counted s.procedures)
    (max (levels counted s.classes) (levels counted s.enumerations)) + 1⟩

instance : LawfulSerial Service where
  ofNode?_toNode d s hwords h := by
    have hfields := words_record.mp hwords
    simp only [List.forall_mem_cons] at hfields
    have hroom : levels d.countsChoices s.procedures ≤ d.inside.room ∧
        max (levels d.countsChoices s.classes) (levels d.countsChoices s.enumerations) ≤
          d.inside.room :=
      Nat.max_le.mp (Nat.le_sub_of_add_le h)
    rcases Nat.max_le.mp hroom.2 with ⟨hclasses, henumerations⟩
    have hrecord : fields? d ["name", "procedures", "classes", "enumerations", "documentation"]
        (toNode s) = some (d.inside,
          [some (.text s.name), some (.array (s.procedures.map toNode)),
            some (.array (s.classes.map toNode)), some (.array (s.enumerations.map toNode)),
            some (.text s.documentation)]) :=
      fields?_record ["name", "procedures", "classes", "enumerations", "documentation"]
        (Nat.le_of_add_left_le h) rfl (by decide) (by decide)
    have hprocedures := @listOf_array _ _ _ _ d.inside s.procedures hfields.2.1 hroom.1
    have hclasses := @listOf_array _ _ _ _ d.inside s.classes hfields.2.2.1 hclasses
    have henumerations := @listOf_array _ _ _ _ d.inside s.enumerations hfields.2.2.2.1
      henumerations
    change (fields? d _ (toNode s)).bind _ = some s
    rw [hrecord]
    simp only [Option.bind_some, required, Node.text?, hprocedures, hclasses, henumerations,
      Option.bind_eq_bind, Option.pure_def]
  regular_toNode s := regular_record.mpr (by
    simp only [List.forall_mem_cons]
    exact ⟨trivial, regular_array s.procedures, regular_array s.classes,
      regular_array s.enumerations, trivial, List.forall_mem_nil _⟩)
  toNode_ne_null _ := Node.noConfusion

instance : Layered Services := ⟨fun counted s => levels counted s.services + 1⟩

instance : LawfulSerial Services where
  ofNode?_toNode d s hwords h := by
    have hfields := words_record.mp hwords
    simp only [List.forall_mem_cons] at hfields
    have hrecord : fields? d ["services"] (toNode s) =
        some (d.inside, [some (.array (s.services.map toNode))]) :=
      fields?_record ["services"] (Nat.le_of_add_left_le h) rfl (by decide) (by decide)
    have hservices := @listOf_array _ _ _ _ d.inside s.services hfields.1 (Nat.le_sub_of_add_le h)
    change (fields? d _ (toNode s)).bind _ = some s
    rw [hrecord]
    simp only [Option.bind_some, required, hservices, Option.bind_eq_bind, Option.pure_def]
  regular_toNode s := regular_record.mpr (by
    simp only [List.forall_mem_cons]
    exact ⟨regular_array s.services, List.forall_mem_nil _⟩)
  toNode_ne_null _ := Node.noConfusion

end Switchboard
