import Switchboard.Proofs.Wire.Values
import Switchboard.Wire.Serial.Messages

/-!
# Trees of Requests and Responses

Each envelope is one level above what it carries: the record takes the level,
and its texts and numbers take none. Reading one is then the reading of a record
followed by that of its fields, and the only fields that need an argument of
their own are the two that may be left out. A result with neither, a result
with one and a result with both are written with different keys, so they are
told apart before the record is read.

## Theorems

* `Argument.position?_natural`: A position of 32 bits is read as itself.
* `ErrorKind.named?_wireName`: The kinds of error travel under different names.
* `ProcedureResult.fields?_toNode`: Which parts of a result are there.
-/

namespace Switchboard

open Wire

/-! ## Calls -/

instance : Layered Argument := ⟨fun counted a => levels counted a.value + 1⟩

theorem Argument.position?_natural (position : UInt32) :
    Argument.position? (.natural position.toNat) = some position := by
  have hgreatest : (position.toNat : Int) ≤ 4294967295 :=
    Int.ofNat_le.mpr (Nat.le_of_lt_succ position.toNat_lt)
  rw [Argument.position?, Node.integer?_natural hgreatest, Option.map_some, Int.toNat_natCast]
  exact congrArg some UInt32.ofNat_toNat

instance : LawfulSerial Argument where
  ofNode?_toNode d a hwords h := by
    have hfields := words_record.mp hwords
    simp only [List.forall_mem_cons] at hfields
    have hrecord : fields? d ["position", "value"] (toNode a) = some (d.inside,
        [some (.natural a.position.toNat), some (toNode a.value)]) :=
      fields?_record ["position", "value"] (Nat.le_of_add_left_le h) rfl (by decide) (by decide)
    have hvalue := ofNode?_toNode d.inside a.value hfields.2.1 (Nat.le_sub_of_add_le h)
    change (fields? d _ (toNode a)).bind _ = some a
    rw [hrecord]
    simp only [Option.bind_some, required, Argument.position?_natural, hvalue,
      Option.bind_eq_bind, Option.pure_def]
  regular_toNode a := regular_record.mpr (by
    simp only [List.forall_mem_cons]
    exact ⟨trivial, regular_toNode a.value, List.forall_mem_nil _⟩)
  toNode_ne_null _ := Node.noConfusion

instance : Layered ProcedureCall := ⟨fun counted call => levels counted call.arguments + 1⟩

instance : LawfulSerial ProcedureCall where
  ofNode?_toNode d call hwords h := by
    have hfields := words_record.mp hwords
    simp only [List.forall_mem_cons] at hfields
    have hrecord : fields? d ["service", "procedure", "arguments"] (toNode call) = some (d.inside,
        [some (.text call.service), some (.text call.procedure),
          some (.array (call.arguments.map toNode))]) :=
      fields?_record ["service", "procedure", "arguments"] (Nat.le_of_add_left_le h) rfl
        (by decide) (by decide)
    have hread := @listOf_array _ _ _ _ d.inside call.arguments hfields.2.2.1
      (Nat.le_sub_of_add_le h)
    change (fields? d _ (toNode call)).bind _ = some call
    rw [hrecord]
    simp only [Option.bind_some, required, Node.text?, hread, Option.bind_eq_bind,
      Option.pure_def]
  regular_toNode call := regular_record.mpr (by
    simp only [List.forall_mem_cons]
    exact ⟨trivial, trivial, regular_array call.arguments, List.forall_mem_nil _⟩)
  toNode_ne_null _ := Node.noConfusion

instance : Layered Request := ⟨fun counted request => levels counted request.calls + 1⟩

instance : LawfulSerial Request where
  ofNode?_toNode d request hwords h := by
    have hfields := words_record.mp hwords
    simp only [List.forall_mem_cons] at hfields
    have hrecord : fields? d ["calls"] (toNode request) =
        some (d.inside, [some (.array (request.calls.map toNode))]) :=
      fields?_record ["calls"] (Nat.le_of_add_left_le h) rfl (by decide) (by decide)
    have hread := @listOf_array _ _ _ _ d.inside request.calls hfields.1 (Nat.le_sub_of_add_le h)
    change (fields? d _ (toNode request)).bind _ = some request
    rw [hrecord]
    simp only [Option.bind_some, required, hread, Option.bind_eq_bind, Option.pure_def]
  regular_toNode request := regular_record.mpr (by
    simp only [List.forall_mem_cons]
    exact ⟨regular_array request.calls, List.forall_mem_nil _⟩)
  toNode_ne_null _ := Node.noConfusion

/-! ## Results -/

/-- A kind of error is a bare name. -/
instance : Layered ErrorKind := ⟨fun _ _ => 0⟩

theorem ErrorKind.named?_wireName (kind : ErrorKind) :
    ErrorKind.named? (.text kind.wireName) = some kind := by
  cases kind <;> decide

instance : LawfulSerial ErrorKind where
  ofNode?_toNode _ kind _ _ := ErrorKind.named?_wireName kind
  regular_toNode _ := trivial
  toNode_ne_null _ := Node.noConfusion

instance : Layered ErrorReport := ⟨fun counted report => levels counted report.kind + 1⟩

instance : LawfulSerial ErrorReport where
  ofNode?_toNode d report hwords h := by
    have hfields := words_record.mp hwords
    simp only [List.forall_mem_cons] at hfields
    have hrecord : fields? d ["kind", "message"] (toNode report) =
        some (d.inside, [some (toNode report.kind), some (.text report.message)]) :=
      fields?_record ["kind", "message"] (Nat.le_of_add_left_le h) rfl (by decide) (by decide)
    have hkind := ofNode?_toNode d.inside report.kind hfields.1 (Nat.le_sub_of_add_le h)
    change (fields? d _ (toNode report)).bind _ = some report
    rw [hrecord]
    simp only [Option.bind_some, required, Node.text?, hkind, Option.bind_eq_bind,
      Option.pure_def]
  regular_toNode report := regular_record.mpr (by
    simp only [List.forall_mem_cons]
    exact ⟨regular_toNode report.kind, trivial, List.forall_mem_nil _⟩)
  toNode_ne_null _ := Node.noConfusion

instance : Layered ProcedureResult :=
  ⟨fun counted result => max (levels counted result.value) (levels counted result.error) + 1⟩

/-- The two fields of a result are found or missing as its parts are. -/
theorem ProcedureResult.fields?_toNode {d : Nesting} (result : ProcedureResult)
    (h : 1 ≤ d.room) : fields? d ["value", "error"] (toNode result) =
      some (d.inside, [result.value.map toNode, result.error.map toNode]) := by
  rcases result with ⟨value, error⟩
  cases value with
  | none =>
      cases error with
      | none => exact fields?_record [] h rfl (by decide) (by decide)
      | some _ => exact fields?_record ["error"] h rfl (by decide) (by decide)
  | some _ =>
      cases error with
      | none => exact fields?_record ["value"] h rfl (by decide) (by decide)
      | some _ => exact fields?_record ["value", "error"] h rfl (by decide) (by decide)

instance : LawfulSerial ProcedureResult where
  ofNode?_toNode d result hwords h := by
    have hfields := words_record.mp hwords
    rw [List.forall_mem_append, forall_mem_fieldIfSome, forall_mem_fieldIfSome] at hfields
    have hroom : levels d.countsChoices result.value ≤ d.inside.room ∧
        levels d.countsChoices result.error ≤ d.inside.room :=
      Nat.max_le.mp (Nat.le_sub_of_add_le h)
    have hvalue := @optional_map _ _ _ _ d.inside result.value hfields.1 hroom.1
    have herror := @optional_map _ _ _ _ d.inside result.error hfields.2 hroom.2
    change (fields? d _ (toNode result)).bind _ = some result
    rw [ProcedureResult.fields?_toNode result (Nat.le_of_add_left_le h)]
    simp only [Option.bind_some, hvalue, herror, Option.bind_eq_bind, Option.pure_def]
  regular_toNode result := regular_record.mpr
    (List.forall_mem_append.mpr
      ⟨regular_fieldIfSome "value" result.value, regular_fieldIfSome "error" result.error⟩)
  toNode_ne_null _ := Node.noConfusion

instance : Layered Response := ⟨fun counted response => levels counted response.results + 1⟩

instance : LawfulSerial Response where
  ofNode?_toNode d response hwords h := by
    have hfields := words_record.mp hwords
    simp only [List.forall_mem_cons] at hfields
    have hrecord : fields? d ["results"] (toNode response) =
        some (d.inside, [some (.array (response.results.map toNode))]) :=
      fields?_record ["results"] (Nat.le_of_add_left_le h) rfl (by decide) (by decide)
    have hread := @listOf_array _ _ _ _ d.inside response.results hfields.1
      (Nat.le_sub_of_add_le h)
    change (fields? d _ (toNode response)).bind _ = some response
    rw [hrecord]
    simp only [Option.bind_some, required, hread, Option.bind_eq_bind, Option.pure_def]
  regular_toNode response := regular_record.mpr (by
    simp only [List.forall_mem_cons]
    exact ⟨regular_array response.results, List.forall_mem_nil _⟩)
  toNode_ne_null _ := Node.noConfusion

end Switchboard
