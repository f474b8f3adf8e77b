import Switchboard.Proofs.Wire.Json.Values
import Switchboard.Proofs.Wire.Messages

/-!
# Requests and Responses Read from JSON

The envelopes are recognised in the trees that their texts are read as. Each is
an object, so what it carries lies one level further in, and its fields are
found under their names. A result may lack either of its parts. The part that
is missing has no key in the text, and a value that is null has one, with a
bare name behind it.

## Theorems

* `ProcedureResult.fields?_readBack`: Which parts of a result are there.
-/

namespace Switchboard

open Wire Wire.Json

/-! ## Calls -/

instance : ReadsBack Argument where
  ofNode?_readBack d a h := by
    rcases h.record with ⟨hroom, hfields⟩
    simp only [List.forall_mem_cons] at hfields
    have hrecord : fields? d ["position", "value"] (readBack (toNode a)) = some (d.inside,
        [some (readBack (.natural a.position.toNat)), some (readBack (toNode a.value))]) :=
      fields?_readBack ["position", "value"] hroom rfl (by decide) (by decide)
    have hposition := Argument.position?_natural a.position
    rw [Argument.position?, ← integer?_readBack, ← Argument.position?] at hposition
    have hvalue := ofNode?_readBack d.inside a.value hfields.2.1
    change (fields? d _ (readBack (toNode a))).bind _ = some a
    rw [hrecord]
    simp only [Option.bind_some, required, hposition, hvalue, Option.bind_eq_bind,
      Option.pure_def]
  keyed_toNode a := keyed_record.mpr (by
    simp only [List.forall_mem_cons]
    exact ⟨trivial, keyed_toNode a.value, List.forall_mem_nil _⟩)

instance : ReadsBack ProcedureCall where
  ofNode?_readBack d call h := by
    rcases h.record with ⟨hroom, hfields⟩
    simp only [List.forall_mem_cons] at hfields
    have hrecord : fields? d ["service", "procedure", "arguments"] (readBack (toNode call)) =
        some (d.inside, [some (.text call.service), some (.text call.procedure),
          some (readBack (.array (call.arguments.map toNode)))]) :=
      fields?_readBack ["service", "procedure", "arguments"] hroom rfl (by decide) (by decide)
    have hread := listOf_readBack hfields.2.2.1
    change (fields? d _ (readBack (toNode call))).bind _ = some call
    rw [hrecord]
    simp only [Option.bind_some, required, Node.text?, hread, Option.bind_eq_bind,
      Option.pure_def]
  keyed_toNode call := keyed_record.mpr (by
    simp only [List.forall_mem_cons]
    exact ⟨trivial, trivial, keyed_items call.arguments, List.forall_mem_nil _⟩)

instance : ReadsBack Request where
  ofNode?_readBack d request h := by
    rcases h.record with ⟨hroom, hfields⟩
    simp only [List.forall_mem_cons] at hfields
    have hrecord : fields? d ["calls"] (readBack (toNode request)) =
        some (d.inside, [some (readBack (.array (request.calls.map toNode)))]) :=
      fields?_readBack ["calls"] hroom rfl (by decide) (by decide)
    have hread := listOf_readBack hfields.1
    change (fields? d _ (readBack (toNode request))).bind _ = some request
    rw [hrecord]
    simp only [Option.bind_some, required, hread, Option.bind_eq_bind, Option.pure_def]
  keyed_toNode request := keyed_record.mpr (by
    simp only [List.forall_mem_cons]
    exact ⟨keyed_items request.calls, List.forall_mem_nil _⟩)

/-! ## Results -/

instance : ReadsBack ErrorKind where
  ofNode?_readBack _ kind _ := ErrorKind.named?_wireName kind
  keyed_toNode _ := trivial

instance : ReadsBack ErrorReport where
  ofNode?_readBack d report h := by
    rcases h.record with ⟨hroom, hfields⟩
    simp only [List.forall_mem_cons] at hfields
    have hrecord : fields? d ["kind", "message"] (readBack (toNode report)) =
        some (d.inside, [some (readBack (toNode report.kind)), some (.text report.message)]) :=
      fields?_readBack ["kind", "message"] hroom rfl (by decide) (by decide)
    have hkind := ofNode?_readBack d.inside report.kind hfields.1
    change (fields? d _ (readBack (toNode report))).bind _ = some report
    rw [hrecord]
    simp only [Option.bind_some, required, Node.text?, hkind, Option.bind_eq_bind,
      Option.pure_def]
  keyed_toNode report := keyed_record.mpr (by
    simp only [List.forall_mem_cons]
    exact ⟨keyed_toNode report.kind, trivial, List.forall_mem_nil _⟩)

/-- The two fields of a result are found or missing as its parts are. -/
theorem ProcedureResult.fields?_readBack {d : Nesting} (result : ProcedureResult)
    (h : 1 ≤ d.room) : fields? d ["value", "error"] (readBack (toNode result)) =
      some (d.inside, [result.value.map fun v => readBack (toNode v),
        result.error.map fun e => readBack (toNode e)]) := by
  rcases result with ⟨value, error⟩
  cases value with
  | none =>
      cases error with
      | none => exact Json.fields?_readBack [] h rfl (by decide) (by decide)
      | some _ => exact Json.fields?_readBack ["error"] h rfl (by decide) (by decide)
  | some _ =>
      cases error with
      | none => exact Json.fields?_readBack ["value"] h rfl (by decide) (by decide)
      | some _ => exact Json.fields?_readBack ["value", "error"] h rfl (by decide) (by decide)

instance : ReadsBack ProcedureResult where
  ofNode?_readBack d result h := by
    rcases h.record with ⟨hroom, hfields⟩
    rw [List.forall_mem_append, forall_mem_fieldIfSome, forall_mem_fieldIfSome] at hfields
    have hvalue := optional_readBack hfields.1
    have herror := optional_readBack hfields.2
    change (fields? d _ (readBack (toNode result))).bind _ = some result
    rw [ProcedureResult.fields?_readBack result hroom]
    simp only [Option.bind_some, hvalue, herror, Option.bind_eq_bind, Option.pure_def]
  keyed_toNode result := keyed_record.mpr
    (List.forall_mem_append.mpr
      ⟨keyed_fieldIfSome "value" result.value, keyed_fieldIfSome "error" result.error⟩)

instance : ReadsBack Response where
  ofNode?_readBack d response h := by
    rcases h.record with ⟨hroom, hfields⟩
    simp only [List.forall_mem_cons] at hfields
    have hrecord : fields? d ["results"] (readBack (toNode response)) =
        some (d.inside, [some (readBack (.array (response.results.map toNode)))]) :=
      fields?_readBack ["results"] hroom rfl (by decide) (by decide)
    have hread := listOf_readBack hfields.1
    change (fields? d _ (readBack (toNode response))).bind _ = some response
    rw [hrecord]
    simp only [Option.bind_some, required, hread, Option.bind_eq_bind, Option.pure_def]
  keyed_toNode response := keyed_record.mpr (by
    simp only [List.forall_mem_cons]
    exact ⟨keyed_items response.results, List.forall_mem_nil _⟩)

end Switchboard
