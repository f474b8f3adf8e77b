import Switchboard.Proofs.Wire.Catalog
import Switchboard.Proofs.Wire.Json.Values

/-!
# The Catalog Read from JSON

The records of the catalog are recognised in the trees that their texts are read
as. As with a result, a default that is null has a key and a missing one has
none, and the numbers of an enumeration are asked for by their bounds.

## Theorems

* `Parameter.fields?_readBack`, `Procedure.fields?_readBack`: Which fields are
  there.
-/

namespace Switchboard

open Wire Wire.Json

/-! ## Procedures -/

theorem Parameter.fields?_readBack {d : Nesting} (p : Parameter) (h : 1 ≤ d.room) :
    fields? d ["name", "type", "defaultValue"] (readBack (toNode p)) = some (d.inside,
      [some (.text p.name), some (readBack (toNode p.ty)),
        p.defaultValue.map fun v => readBack (toNode v)]) := by
  rcases p with ⟨name, ty, defaultValue⟩
  cases defaultValue with
  | none => exact Json.fields?_readBack ["name", "type"] h rfl (by decide) (by decide)
  | some _ =>
      exact Json.fields?_readBack ["name", "type", "defaultValue"] h rfl (by decide) (by decide)

instance : ReadsBack Parameter where
  ofNode?_readBack d p h := by
    rcases h.record with ⟨hroom, hfields⟩
    rw [List.forall_mem_append, forall_mem_fieldIfSome] at hfields
    simp only [List.forall_mem_cons] at hfields
    have hty := ofNode?_readBack d.inside p.ty hfields.1.2.1
    have hdefault := optional_readBack hfields.2
    change (fields? d _ (readBack (toNode p))).bind _ = some p
    rw [Parameter.fields?_readBack p hroom]
    simp only [Option.bind_some, required, Node.text?, hty, hdefault, Option.bind_eq_bind,
      Option.pure_def]
  keyed_toNode p := keyed_record.mpr (by
    rw [List.forall_mem_append]
    simp only [List.forall_mem_cons]
    exact ⟨⟨trivial, keyed_toNode p.ty, List.forall_mem_nil _⟩,
      keyed_fieldIfSome "defaultValue" p.defaultValue⟩)

theorem Procedure.fields?_readBack {d : Nesting} (p : Procedure) (h : 1 ≤ d.room) :
    fields? d ["name", "parameters", "returnType", "documentation", "blocking"]
      (readBack (toNode p)) = some (d.inside,
        [some (.text p.name), some (readBack (.array (p.parameters.map toNode))),
          p.returnType.map fun t => readBack (toNode t), some (.text p.documentation),
          some (.bool p.blocking)]) := by
  rcases p with ⟨name, parameters, returnType, documentation, blocking⟩
  cases returnType with
  | none =>
      exact Json.fields?_readBack ["name", "parameters", "documentation", "blocking"] h rfl
        (by decide) (by decide)
  | some _ =>
      exact Json.fields?_readBack
        ["name", "parameters", "returnType", "documentation", "blocking"] h rfl (by decide)
        (by decide)

instance : ReadsBack Procedure where
  ofNode?_readBack d p h := by
    rcases h.record with ⟨hroom, hfields⟩
    rw [List.forall_mem_append, List.forall_mem_append, forall_mem_fieldIfSome] at hfields
    simp only [List.forall_mem_cons] at hfields
    have hparameters := listOf_readBack hfields.1.1.2.1
    have hreturn := optional_readBack hfields.1.2
    change (fields? d _ (readBack (toNode p))).bind _ = some p
    rw [Procedure.fields?_readBack p hroom]
    simp only [Option.bind_some, required, Node.text?, Node.bool?, hparameters, hreturn,
      Option.bind_eq_bind, Option.pure_def]
  keyed_toNode p := keyed_record.mpr (by
    rw [List.forall_mem_append, List.forall_mem_append]
    simp only [List.forall_mem_cons]
    exact ⟨⟨⟨trivial, keyed_items p.parameters, List.forall_mem_nil _⟩,
      keyed_fieldIfSome "returnType" p.returnType⟩, trivial, trivial, List.forall_mem_nil _⟩)

/-! ## Named types -/

instance : ReadsBack ClassInfo where
  ofNode?_readBack d c h := by
    have hrecord : fields? d ["name", "documentation"] (readBack (toNode c)) =
        some (d.inside, [some (.text c.name), some (.text c.documentation)]) :=
      fields?_readBack ["name", "documentation"] h.record.1 rfl (by decide) (by decide)
    change (fields? d _ (readBack (toNode c))).bind _ = some c
    rw [hrecord]
    rfl
  keyed_toNode c := keyed_record.mpr (by
    simp only [List.forall_mem_cons]
    exact ⟨trivial, trivial, List.forall_mem_nil _⟩)

instance : ReadsBack EnumerationMember where
  ofNode?_readBack d m h := by
    have hrecord : fields? d ["name", "value", "documentation"] (readBack (toNode m)) =
        some (d.inside, [some (.text m.name), some (readBack (.ofInt m.value.toInt)),
          some (.text m.documentation)]) :=
      fields?_readBack ["name", "value", "documentation"] h.record.1 rfl (by decide) (by decide)
    have hvalue := Value.int32?_ofInt m.value
    rw [Value.int32?, ← integer?_readBack, ← Value.int32?] at hvalue
    change (fields? d _ (readBack (toNode m))).bind _ = some m
    rw [hrecord]
    simp only [Option.bind_some, required, Node.text?, hvalue, Option.bind_eq_bind,
      Option.pure_def]
  keyed_toNode m := keyed_record.mpr (by
    simp only [List.forall_mem_cons]
    exact ⟨trivial, Value.keyed_ofInt m.value.toInt, trivial, List.forall_mem_nil _⟩)

instance : ReadsBack Enumeration where
  ofNode?_readBack d e h := by
    rcases h.record with ⟨hroom, hfields⟩
    simp only [List.forall_mem_cons] at hfields
    have hrecord : fields? d ["name", "values", "documentation"] (readBack (toNode e)) =
        some (d.inside, [some (.text e.name), some (readBack (.array (e.members.map toNode))),
          some (.text e.documentation)]) :=
      fields?_readBack ["name", "values", "documentation"] hroom rfl (by decide) (by decide)
    have hmembers := listOf_readBack hfields.2.1
    change (fields? d _ (readBack (toNode e))).bind _ = some e
    rw [hrecord]
    simp only [Option.bind_some, required, Node.text?, hmembers, Option.bind_eq_bind,
      Option.pure_def]
  keyed_toNode e := keyed_record.mpr (by
    simp only [List.forall_mem_cons]
    exact ⟨trivial, keyed_items e.members, trivial, List.forall_mem_nil _⟩)

/-! ## Services -/

instance : ReadsBack Service where
  ofNode?_readBack d s h := by
    rcases h.record with ⟨hroom, hfields⟩
    simp only [List.forall_mem_cons] at hfields
    have hrecord : fields? d ["name", "procedures", "classes", "enumerations", "documentation"]
        (readBack (toNode s)) = some (d.inside,
          [some (.text s.name), some (readBack (.array (s.procedures.map toNode))),
            some (readBack (.array (s.classes.map toNode))),
            some (readBack (.array (s.enumerations.map toNode))),
            some (.text s.documentation)]) :=
      fields?_readBack ["name", "procedures", "classes", "enumerations", "documentation"] hroom
        rfl (by decide) (by decide)
    have hprocedures := listOf_readBack hfields.2.1
    have hclasses := listOf_readBack hfields.2.2.1
    have henumerations := listOf_readBack hfields.2.2.2.1
    change (fields? d _ (readBack (toNode s))).bind _ = some s
    rw [hrecord]
    simp only [Option.bind_some, required, Node.text?, hprocedures, hclasses, henumerations,
      Option.bind_eq_bind, Option.pure_def]
  keyed_toNode s := keyed_record.mpr (by
    simp only [List.forall_mem_cons]
    exact ⟨trivial, keyed_items s.procedures, keyed_items s.classes, keyed_items s.enumerations,
      trivial, List.forall_mem_nil _⟩)

instance : ReadsBack Services where
  ofNode?_readBack d s h := by
    rcases h.record with ⟨hroom, hfields⟩
    simp only [List.forall_mem_cons] at hfields
    have hrecord : fields? d ["services"] (readBack (toNode s)) =
        some (d.inside, [some (readBack (.array (s.services.map toNode)))]) :=
      fields?_readBack ["services"] hroom rfl (by decide) (by decide)
    have hservices := listOf_readBack hfields.1
    change (fields? d _ (readBack (toNode s))).bind _ = some s
    rw [hrecord]
    simp only [Option.bind_some, required, hservices, Option.bind_eq_bind, Option.pure_def]
  keyed_toNode s := keyed_record.mpr (by
    simp only [List.forall_mem_cons]
    exact ⟨keyed_items s.services, List.forall_mem_nil _⟩)

end Switchboard
